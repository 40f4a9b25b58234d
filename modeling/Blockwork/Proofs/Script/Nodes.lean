import Mathlib
import Blockwork.Proofs.Script.Placing

/-!
# The nodes of a program and their places

`Stmt.Lies` describes a syntax tree by offsets between which its parts lie. Here this is said of the
nodes themselves (`Node`), whatever stands between them: some nodes carry no place of their own, and
the places of what is inside them still count for what is around them.

## Main result

* `Program.nested_of_parse`: in a program that has been read, each place begins and ends with
  lexemes of the source, lies in the places of the nodes around its own, and the places in one part
  of a node end before those in a later part begin.
-/

namespace Blockwork.Script

/-! ### Nodes -/

/-- A node of a syntax tree. -/
inductive Node where
  | stmt (s : Stmt)
  | expr (e : Expr)

/-- The expression of a statement without a body, if it has one. -/
def Simple.expr? : Simple → Option Expr
  | .declare _ e _ | .assign _ _ e _ | .evaluate e _ => some e
  | .increment _ _ => none

/-- The place of an expression, if it has one of its own. -/
def Expr.span? : Expr → Option Span
  | .number _ | .text _ | .bool _ | .unary _ _ => none
  | .var _ span | .call _ _ span | .binary _ _ _ span => some span

namespace Node

/-- The place of the node, if it has one of its own. -/
def span? : Node → Option Span
  | stmt s => some s.span
  | expr e => e.span?

/-- The nodes right inside the node, in the order of the source. -/
def parts : Node → List Node
  | stmt (.simple s) => s.expr?.toList.map expr
  | stmt (.ifThen c body _) | stmt (.while c body _) => expr c :: body.map stmt
  | stmt (.ifElse c body otherwise _) => expr c :: (body.map stmt ++ otherwise.map stmt)
  | stmt (.for first c update body _) =>
    first.toList.map (stmt ∘ .simple) ++
      (c.toList.map expr ++ (update.toList.map (stmt ∘ .simple) ++ body.map stmt))
  | stmt (.break _) => []
  | stmt (.block body _) => body.map stmt
  | expr (.number _) | expr (.text _) | expr (.bool _) | expr (.var _ _) => []
  | expr (.call _ arguments _) => arguments.map expr
  | expr (.unary _ e) => [expr e]
  | expr (.binary _ l r _) => [expr l, expr r]

/-- The second node is the first one, or inside it at any depth. -/
def Contains : Node → Node → Prop :=
  Relation.ReflTransGen fun n m => m ∈ n.parts

/-- Every place in the first node ends before every place in the second one begins. -/
def Before (n m : Node) : Prop :=
  ∀ n' m' span span', n.Contains n' → m.Contains m' → n'.span? = some span →
    m'.span? = some span' → span.stop ≤ span'.start

end Node

/-- The node is one of the program. -/
def Program.Contains (p : Program) (n : Node) : Prop :=
  ∃ s ∈ p.statements, (Node.stmt s).Contains n

/-- **The places of a program are nested as its nodes are**, and each begins and ends with one of
the lexemes. -/
structure Program.Nested (ls : List Lexeme) (p : Program) : Prop where
  place : ∀ n span, p.Contains n → n.span? = some span → IsPlace ls span
  within : ∀ n m span span', p.Contains n → n.Contains m → n.span? = some span →
    m.span? = some span' → span.start ≤ span'.start ∧ span'.stop ≤ span.stop
  statements : (p.statements.map Node.stmt).Pairwise Node.Before
  parts : ∀ n, p.Contains n → n.parts.Pairwise Node.Before

/-! ### Nodes in order -/

variable {ls : List Lexeme} {P : Span → Prop} {low mid high : Nat}

namespace Node

/-- The places in the node lie between two offsets, and in order. -/
def Lies (P : Span → Prop) (low high : Nat) : Node → Prop
  | stmt s => s.Lies P low high
  | expr e => e.Lies P low high

/-- The places in the nodes lie between two offsets, one node behind the other. -/
def LiesAll (P : Span → Prop) (low high : Nat) : List Node → Prop
  | [] => low ≤ high
  | n :: ns => ∃ mid, n.Lies P low mid ∧ LiesAll P mid high ns

theorem Lies.le {n : Node} (h : n.Lies (IsPlace ls) low high) : low ≤ high := by
  cases n with
  | stmt s => exact Stmt.Lies.le h
  | expr e => exact Expr.Lies.le h

theorem Lies.mono {n : Node} {low' high' : Nat} (h : n.Lies P low high) (hlow : low' ≤ low)
    (hhigh : high ≤ high') : n.Lies P low' high' := by
  cases n with
  | stmt s => exact Stmt.Lies.mono h hlow hhigh
  | expr e => exact Expr.Lies.mono h hlow hhigh

theorem LiesAll.le {ns : List Node} (h : LiesAll (IsPlace ls) low high ns) : low ≤ high := by
  induction ns generalizing low with
  | nil => exact h
  | cons n ns ih =>
    obtain ⟨mid, hfirst, hothers⟩ := h
    exact hfirst.le.trans (ih hothers)

theorem LiesAll.mono {ns : List Node} {low' high' : Nat} (h : LiesAll P low high ns)
    (hlow : low' ≤ low) (hhigh : high ≤ high') : LiesAll P low' high' ns := by
  induction ns generalizing low low' with
  | nil => exact (hlow.trans h).trans hhigh
  | cons n ns ih =>
    obtain ⟨mid, hfirst, hothers⟩ := h
    exact ⟨mid, hfirst.mono hlow le_rfl, ih hothers le_rfl⟩

theorem LiesAll.append {ns ms : List Node} (h : LiesAll P low mid ns)
    (h' : LiesAll P mid high ms) : LiesAll P low high (ns ++ ms) := by
  induction ns generalizing low with
  | nil => exact h'.mono h le_rfl
  | cons n ns ih =>
    obtain ⟨mid', hfirst, hothers⟩ := h
    exact ⟨mid', hfirst, ih hothers⟩

theorem LiesAll.forall_mem {ns : List Node} (h : LiesAll (IsPlace ls) low high ns) :
    ∀ n ∈ ns, n.Lies (IsPlace ls) low high := by
  induction ns generalizing low with
  | nil => exact List.forall_mem_nil _
  | cons n ns ih =>
    obtain ⟨mid, hfirst, hothers⟩ := h
    refine List.forall_mem_cons.mpr ⟨hfirst.mono le_rfl hothers.le, fun n hn => ?_⟩
    exact (ih hothers n hn).mono hfirst.le le_rfl

theorem liesAll_singleton {n : Node} (h : n.Lies P low high) : LiesAll P low high [n] :=
  ⟨high, h, le_rfl⟩

theorem liesAll_exprs {es : List Expr} (h : Expr.LiesAll P low high es) :
    LiesAll P low high (es.map expr) := by
  induction es generalizing low with
  | nil => exact h
  | cons e es ih =>
    obtain ⟨mid, hfirst, hothers⟩ := h
    exact ⟨mid, hfirst, ih hothers⟩

theorem liesAll_stmts {ss : List Stmt} (h : Stmt.LiesAll P low high ss) :
    LiesAll P low high (ss.map stmt) := by
  induction ss generalizing low with
  | nil => exact h
  | cons s ss ih =>
    obtain ⟨mid, hfirst, hothers⟩ := h
    exact ⟨mid, hfirst, ih hothers⟩

theorem liesAll_optional {α : Type} {lies : Nat → Nat → α → Prop} (node : α → Node) {a : Option α}
    (h : LiesOptional lies low high a) (hlies : ∀ a, lies low high a → (node a).Lies P low high) :
    LiesAll P low high (a.toList.map node) := by
  cases a with
  | none => exact h
  | some a => exact liesAll_singleton (hlies a h)

/-! ### What is inside a node -/

/-- A node lies within its own place. -/
theorem Lies.self {n : Node} {span : Span} (h : n.Lies P low high) (hspan : n.span? = some span) :
    span.Lies P low high ∧ n.Lies P span.start span.stop := by
  cases n with
  | stmt s =>
    cases hspan
    exact (Stmt.Lies.self h).symm
  | expr e =>
    -- only variables, calls and operations have places of their own
    cases e with
    | var name =>
      cases hspan
      exact ⟨h, h.1, le_rfl, le_rfl⟩
    | call f arguments =>
      cases hspan
      exact ⟨h.1, ⟨h.1.1, le_rfl, le_rfl⟩, h.2⟩
    | binary op l r =>
      cases hspan
      exact ⟨h.1, ⟨h.1.1, le_rfl, le_rfl⟩, h.2⟩
    | _ => cases hspan

/-- **The parts of a node lie one behind the other**, between the same offsets as the node. -/
theorem Lies.parts {n : Node} (h : n.Lies (IsPlace ls) low high) :
    LiesAll (IsPlace ls) low high n.parts := by
  cases n with
  | stmt s =>
    -- the parts lie in the place of the statement, which lies between the offsets
    obtain ⟨⟨-, hlow, hhigh⟩, hself⟩ := h.self rfl
    suffices LiesAll (IsPlace ls) s.span.start s.span.stop (stmt s).parts from
      this.mono hlow hhigh
    cases s with
    | simple s =>
      cases s with
      | increment name span => exact hself.le
      | _ => exact liesAll_singleton hself.2
    | ifThen c body span | «while» c body span =>
      obtain ⟨-, mid, hc, hbody⟩ := hself
      exact ⟨mid, hc, liesAll_stmts hbody⟩
    | ifElse c body otherwise span =>
      obtain ⟨-, mid, mid', hc, hbody, hotherwise⟩ := hself
      exact ⟨mid, hc, (liesAll_stmts hbody).append (liesAll_stmts hotherwise)⟩
    | «for» first c update body span =>
      obtain ⟨-, mid, mid', mid'', hfirst, hc, hupdate, hbody⟩ := hself
      exact (liesAll_optional (stmt ∘ .simple) hfirst fun _ h => h).append
        ((liesAll_optional expr hc fun _ h => h).append
          ((liesAll_optional (stmt ∘ .simple) hupdate fun _ h => h).append (liesAll_stmts hbody)))
    | «break» span => exact hself.le
    | block body span => exact liesAll_stmts hself.2
  | expr e =>
    cases e with
    | number | text | bool | var => exact h.le
    | call f arguments span =>
      obtain ⟨⟨-, hlow, hhigh⟩, harguments⟩ := h
      exact (liesAll_exprs harguments).mono hlow hhigh
    | unary op e => exact liesAll_singleton h
    | binary op l r span =>
      obtain ⟨⟨-, hlow, hhigh⟩, mid, hl, hr⟩ := h
      exact LiesAll.mono ⟨mid, hl, liesAll_singleton hr⟩ hlow hhigh

/-- What a node contains lies between the same offsets as the node. -/
theorem Lies.of_contains {n m : Node} (h : n.Lies (IsPlace ls) low high) (hm : n.Contains m) :
    m.Lies (IsPlace ls) low high := by
  induction hm with
  | refl => exact h
  | tail _ hpart ih => exact ih.parts.forall_mem _ hpart

/-- Nodes that lie one behind the other have their places one before the other. -/
theorem LiesAll.pairwise {ns : List Node} (h : LiesAll (IsPlace ls) low high ns) :
    ns.Pairwise Before := by
  induction ns generalizing low with
  | nil => exact .nil
  | cons n ns ih =>
    obtain ⟨mid, hfirst, hothers⟩ := h
    refine .cons (fun m hm n' m' span span' hn' hm' hspan hspan' => ?_) (ih hothers)
    have hends := ((hfirst.of_contains hn').self hspan).1.2.2
    have hbegins := (((hothers.forall_mem m hm).of_contains hm').self hspan').1.2.1
    exact hends.trans hbegins

end Node

/-! ### Programs -/

variable {text : String} {source : Nat} {p : Program}

/-- **The places in a program that has been read are nested.** Each of them begins where a lexeme of
the source begins and ends where one ends behind it. It lies in the places of all nodes that contain
its own. The places in a statement end before those in a later statement of the same body begin, and
so do those in the parts of any node, such as the arguments of a call. -/
theorem Program.nested_of_parse (h : Program.parse text source = .ok p) :
    ∃ ls, scan text = .ok ls ∧ p.Nested ls := by
  obtain ⟨ls, hscan, hlies⟩ := Program.lies_of_parse h
  have hcontained {n : Node} (hn : p.Contains n) :
      n.Lies (IsPlace ls) 0 text.utf8ByteSize := by
    obtain ⟨s, hs, hn⟩ := hn
    exact Node.Lies.of_contains (n := .stmt s) (hlies.forall_mem s hs) hn
  refine ⟨ls, hscan, ?_⟩
  exact {
    place := fun n span hn hspan => ((hcontained hn).self hspan).1.1
    within := fun n m span span' hn hm hspan hspan' => by
      have hwithin := ((hcontained hn).self hspan).2
      exact ((hwithin.of_contains hm).self hspan').1.2
    statements := (Node.liesAll_stmts hlies).pairwise
    parts := fun n hn => (hcontained hn).parts.pairwise }

/-- A call in a loop, with a sum in parentheses. -/
theorem Program.nested_of_parse_call : ∃ p ls,
    Program.parse "while (true) \x7b f((1 + x), y); break; \x7d" 0 = .ok p ∧
    scan "while (true) \x7b f((1 + x), y); break; \x7d" = .ok ls ∧ p.statements.length = 1 ∧
    p.Nested ls := by
  have hread : (Program.parse "while (true) \x7b f((1 + x), y); break; \x7d" 0).toOption.any
      (fun p => decide (p.statements.length = 1)) = true := by
    decide +kernel
  obtain ⟨p, hp, hlength⟩ := exists_of_any hread
  obtain ⟨ls, hscan, hnested⟩ := Program.nested_of_parse hp
  exact ⟨p, ls, hp, hscan, of_decide_eq_true hlength, hnested⟩

end Blockwork.Script
