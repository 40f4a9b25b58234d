import Mathlib
import Blockwork.Proofs.Computation
import Blockwork.Proofs.Script.Trees
import Blockwork.Script.Statement

/-!
# How deep syntax trees are nested

A way down a syntax tree takes steps of different kinds: into a body, into the condition of a
statement, to the left operand of an operator. `Stmt.deepest w` is the greatest weight of a way
down, where a step of kind `k` weighs `w k`. With other weights it is another depth of the same
tree, and weights can be added up.

The readers count some steps and leave others out. `counted` are the steps that take a level of
nesting when a source is read, and `uncounted` the others: to the left operand of an operator, to
the next part of an `else if` chain, and to the statements in the header of a `for` loop. The
counted depth of what has been read is within the limit (`Program.deepest_le_of_parse`), and the
uncounted one is not bounded by anything.
-/

namespace Blockwork.Script

/-! ### Ways down a tree -/

/-- The kinds of steps from a node of a syntax tree to one below it. -/
inductive Step where
  /-- From a call to an argument. -/
  | argument
  /-- From a prefix operator to its operand. -/
  | operand
  | left
  | right
  /-- From a simple statement to its expression. -/
  | value
  | condition
  /-- From a `for` loop to a statement in its header. -/
  | header
  | body
  /-- From a conditional to the conditional behind its `else`. -/
  | elseIf
deriving DecidableEq

mutual

/-- The greatest weight of a way down the expression. -/
def Expr.deepest (w : Step → Nat) : Expr → Nat
  | .number _ | .text _ | .bool _ | .var _ _ => 0
  | .call _ arguments _ => Expr.deepestAll w arguments
  | .unary _ e => w .operand + e.deepest w
  | .binary _ l r _ => max (w .left + l.deepest w) (w .right + r.deepest w)

/-- The greatest weight of a way to arguments and further down. -/
def Expr.deepestAll (w : Step → Nat) : List Expr → Nat
  | [] => 0
  | e :: es => max (w .argument + e.deepest w) (Expr.deepestAll w es)

end

/-- The greatest weight of a way down the statement. -/
def Simple.deepest (w : Step → Nat) : Simple → Nat
  | .declare _ e _ | .assign _ _ e _ | .evaluate e _ => w .value + e.deepest w
  | .increment _ _ => 0

/-- The step from a conditional to its second part. A single conditional in there stands behind
`else` without braces, or could do so. -/
def Stmt.elseStep : List Stmt → Step
  | [.ifThen _ _ _] | [.ifElse _ _ _ _] => .elseIf
  | _ => .body

mutual

/-- The greatest weight of a way down the statement. -/
def Stmt.deepest (w : Step → Nat) : Stmt → Nat
  | .simple s => s.deepest w
  | .ifThen e body _ => max (w .condition + e.deepest w) (Stmt.deepestAll w .body body)
  | .ifElse e body otherwise _ =>
    max (w .condition + e.deepest w)
      (max (Stmt.deepestAll w .body body) (Stmt.deepestAll w (Stmt.elseStep otherwise) otherwise))
  | .while e body _ => max (w .condition + e.deepest w) (Stmt.deepestAll w .body body)
  | .for first e update body _ =>
    max (max (first.elim 0 (w .header + ·.deepest w)) (e.elim 0 (w .condition + ·.deepest w)))
      (max (update.elim 0 (w .header + ·.deepest w)) (Stmt.deepestAll w .body body))
  | .break _ => 0
  | .block body _ => Stmt.deepestAll w .body body

/-- The greatest weight of a step of this kind to one of the statements and further down. -/
def Stmt.deepestAll (w : Step → Nat) (step : Step) : List Stmt → Nat
  | [] => 0
  | s :: ss => max (w step + s.deepest w) (Stmt.deepestAll w step ss)

end

variable {w w' : Step → Nat}

theorem Expr.deepestAll_le {es : List Expr} {n : Nat} :
    Expr.deepestAll w es ≤ n ↔ ∀ e ∈ es, w .argument + e.deepest w ≤ n := by
  induction es with
  | nil => simp [Expr.deepestAll]
  | cons e es ih => rw [Expr.deepestAll, max_le_iff, ih, List.forall_mem_cons]

theorem Stmt.deepestAll_le {step : Step} {ss : List Stmt} {n : Nat} :
    Stmt.deepestAll w step ss ≤ n ↔ ∀ s ∈ ss, w step + s.deepest w ≤ n := by
  induction ss with
  | nil => simp [Stmt.deepestAll]
  | cons s ss ih => rw [Stmt.deepestAll, max_le_iff, ih, List.forall_mem_cons]

theorem Expr.le_deepestAll {e : Expr} {es : List Expr} (h : e ∈ es) :
    w .argument + e.deepest w ≤ Expr.deepestAll w es :=
  Expr.deepestAll_le.mp (le_refl _) e h

theorem Stmt.le_deepestAll {step : Step} {s : Stmt} {ss : List Stmt} (h : s ∈ ss) :
    w step + s.deepest w ≤ Stmt.deepestAll w step ss :=
  Stmt.deepestAll_le.mp (le_refl _) s h

/-! ### Adding weights up -/

/-- One step more. -/
theorem step_add_le (step : Step) {n a b : Nat} (h : n ≤ a + b) :
    (w + w') step + n ≤ (w step + a) + (w' step + b) := by
  rw [Pi.add_apply]
  omega

/-- The deeper of two ways. -/
theorem max_le_add_max {n m a b c d : Nat} (h : n ≤ a + b) (h' : m ≤ c + d) :
    max n m ≤ max a c + max b d :=
  (max_le_max h h').trans max_add_add_le_max_add_max

/-- A part that may be missing. -/
theorem elim_add_le {α : Type} {f g h : α → Nat} (hle : ∀ a, f a ≤ g a + h a) (part : Option α) :
    part.elim 0 f ≤ part.elim 0 g + part.elim 0 h := by
  cases part with
  | none => exact Nat.zero_le _
  | some a => exact hle a

theorem Expr.deepestAll_add_le_of {es : List Expr}
    (h : ∀ e ∈ es, e.deepest (w + w') ≤ e.deepest w + e.deepest w') :
    Expr.deepestAll (w + w') es ≤ Expr.deepestAll w es + Expr.deepestAll w' es := by
  induction es with
  | nil => exact Nat.zero_le _
  | cons e es ih =>
    obtain ⟨hfirst, hothers⟩ := List.forall_mem_cons.mp h
    exact max_le_add_max (step_add_le .argument hfirst) (ih hothers)

theorem Expr.deepest_add_le (e : Expr) :
    e.deepest (w + w') ≤ e.deepest w + e.deepest w' := by
  induction e using Expr.induction with
  | number | text | bool | var => exact Nat.zero_le _
  | call f arguments span ih => exact Expr.deepestAll_add_le_of ih
  | unary op e ih => exact step_add_le .operand ih
  | binary op l r span ihl ihr =>
    exact max_le_add_max (step_add_le .left ihl) (step_add_le .right ihr)

theorem Simple.deepest_add_le (s : Simple) :
    s.deepest (w + w') ≤ s.deepest w + s.deepest w' := by
  cases s with
  | declare name e span | assign name kind e span | evaluate e span =>
    exact step_add_le .value e.deepest_add_le
  | increment => exact Nat.zero_le _

theorem Stmt.deepestAll_add_le_of {ss : List Stmt}
    (h : ∀ s ∈ ss, s.deepest (w + w') ≤ s.deepest w + s.deepest w') (step : Step) :
    Stmt.deepestAll (w + w') step ss ≤ Stmt.deepestAll w step ss + Stmt.deepestAll w' step ss := by
  induction ss with
  | nil => exact Nat.zero_le _
  | cons s ss ih =>
    obtain ⟨hfirst, hothers⟩ := List.forall_mem_cons.mp h
    exact max_le_add_max (step_add_le step hfirst) (ih hothers)

/-- **Weights add up.** -/
theorem Stmt.deepest_add_le (s : Stmt) :
    s.deepest (w + w') ≤ s.deepest w + s.deepest w' := by
  have hcondition (e : Expr) : (w + w') .condition + e.deepest (w + w') ≤
      (w .condition + e.deepest w) + (w' .condition + e.deepest w') :=
    step_add_le .condition e.deepest_add_le
  have hheader (s : Simple) : (w + w') .header + s.deepest (w + w') ≤
      (w .header + s.deepest w) + (w' .header + s.deepest w') :=
    step_add_le .header s.deepest_add_le
  induction s using Stmt.induction with
  | simple s => exact s.deepest_add_le
  | ifThen e body span ih =>
    exact max_le_add_max (hcondition e) (deepestAll_add_le_of ih .body)
  | ifElse e body otherwise span ih ih' =>
    refine max_le_add_max (hcondition e) ?_
    exact max_le_add_max (deepestAll_add_le_of ih .body) (deepestAll_add_le_of ih' _)
  | while_ e body span ih =>
    exact max_le_add_max (hcondition e) (deepestAll_add_le_of ih .body)
  | for_ first e update body span ih =>
    refine max_le_add_max ?_ ?_
    · exact max_le_add_max (elim_add_le hheader first) (elim_add_le hcondition e)
    · exact max_le_add_max (elim_add_le hheader update) (deepestAll_add_le_of ih .body)
  | break_ span => exact Nat.zero_le _
  | block body span ih => exact deepestAll_add_le_of ih .body

/-! ### What the readers count -/

/-- The steps that take a level of nesting. -/
def counted : Step → Nat
  | .left | .header | .elseIf => 0
  | _ => 1

/-- The steps that take none. -/
def uncounted : Step → Nat
  | .left | .header | .elseIf => 1
  | _ => 0

/-- Every step. -/
def every : Step → Nat :=
  fun _ => 1

@[simp] theorem every_apply (step : Step) : every step = 1 := rfl

theorem counted_add_uncounted : counted + uncounted = every := by
  funext step
  cases step <;> rfl

theorem counted_le_one (step : Step) : counted step ≤ 1 := by
  cases step <;> decide

namespace Parser

variable {α β : Type} {P : α → Prop} {Q : β → Prop} {x : Parser α} {f : α → Parser β}

/-- Whatever the reader gives has the property. -/
def Gives (P : α → Prop) (x : Parser α) : Prop :=
  ∀ s a s', outcome x s = (.ok a, s') → P a

theorem gives_any (x : Parser α) : Gives (fun _ => True) x :=
  fun _ _ _ _ => trivial

theorem gives_pure {a : α} (h : P a) : Gives P (pure a : Parser α) := by
  intro s a' s' ha
  cases ha
  exact h

theorem gives_throw (fault : ParseFault) : Gives P (throw fault : Parser α) := by
  intro s a s' h
  cases h

theorem gives_failHere (cause : ParseCause) : Gives P (failHere cause : Parser α) := by
  intro s a s' h
  cases h

theorem Gives.bind (hx : Gives P x) (hf : ∀ a, P a → Gives Q (f a)) : Gives Q (x >>= f) := by
  intro s b s' h
  obtain ⟨a, t, ha, hb⟩ := outcome_bind_eq_ok h
  exact hf a (hx s a t ha) t b s' hb

theorem gives_pure_bind {a : α} (h : Gives Q (f a)) : Gives Q (pure a >>= f) :=
  (gives_pure (P := (· = a)) rfl).bind fun _ heq => heq ▸ h

/-- What the first reader gives does not matter. -/
theorem gives_then (hf : ∀ a, Gives Q (f a)) : Gives Q (x >>= f) :=
  (gives_any x).bind fun a _ => hf a

theorem Gives.mono {P' : α → Prop} (hx : Gives P x) (h : ∀ a, P a → P' a) : Gives P' x :=
  fun s a s' ha => h a (hx s a s' ha)

/-! ### Expressions -/

variable {room : Nat}

/-- The expression takes at most `room` levels, of which the whole of it is one. -/
def FitsExpr (room : Nat) (e : Expr) : Prop :=
  e.deepest counted < room

/-- One step more, of whatever kind, takes the level that the whole of the expression was. -/
theorem FitsExpr.step_le {e : Expr} (h : FitsExpr room e) (step : Step) :
    counted step + e.deepest counted ≤ room := by
  have := counted_le_one step
  unfold FitsExpr at h
  omega

theorem gives_arguments {argument : Parser Expr} (h : Gives (FitsExpr room) argument)
    (bound : Nat) : Gives (fun es => ∀ e ∈ es, FitsExpr room e) (arguments argument bound) := by
  induction bound with
  | zero => exact gives_pure (List.forall_mem_nil _)
  | succ bound ih =>
    rw [arguments]
    refine h.bind fun first hfirst => gives_then fun more => ?_
    cases more with
    | true => exact ih.bind fun es hes => gives_pure (List.forall_mem_cons.mpr ⟨hfirst, hes⟩)
    | false => exact gives_then fun _ => gives_pure (List.forall_mem_singleton.mpr hfirst)

theorem gives_operand {inner : Nat → Parser Expr} (h : ∀ least, Gives (FitsExpr room) (inner least))
    (bound : Nat) : Gives (FitsExpr (room + 1)) (operand bound inner) := by
  have hleaf {e : Expr} (he : e.deepest counted = 0) :
      Gives (FitsExpr (room + 1)) (pure e) := by
    refine gives_pure ?_
    unfold FitsExpr
    omega
  -- arguments and operands are read with one level less, and are one step below
  have hcall (word : String) (span : Span) {es : List Expr} (hes : ∀ e ∈ es, FitsExpr room e) :
      FitsExpr (room + 1) (.call word es span) :=
    Nat.lt_succ_of_le (Expr.deepestAll_le.mpr fun e he => (hes e he).step_le .argument)
  have hunary (op : UnaryOp) {e : Expr} (he : FitsExpr room e) :
      FitsExpr (room + 1) (.unary op e) :=
    Nat.lt_succ_of_le (he.step_le .operand)
  unfold operand
  refine gives_then fun span => gives_then fun found => ?_
  split
  · exact gives_failHere _
  · exact hleaf rfl
  · exact hleaf rfl
  · exact hleaf rfl
  · exact hleaf rfl
  · next word _ =>
    refine gives_then fun isCall => ?_
    cases isCall with
    | false => exact hleaf rfl
    | true =>
      refine gives_then fun isEmpty => ?_
      cases isEmpty with
      | true =>
        exact gives_pure_bind (gives_then fun _ =>
          gives_pure (hcall word _ (List.forall_mem_nil _)))
      | false =>
        exact (gives_arguments (h 0) bound).bind fun es hes =>
          gives_then fun _ => gives_pure (hcall word _ hes)
  · exact (h prefixPower).bind fun e he => gives_pure (hunary .not he)
  · exact (h prefixPower).bind fun e he => gives_pure (hunary .negate he)
  · exact (h 0).bind fun e he => gives_then fun _ => gives_pure (Nat.lt_succ_of_lt he)
  · exact gives_throw _

theorem gives_operators {inner : Nat → Parser Expr}
    (h : ∀ least, Gives (FitsExpr room) (inner least)) (least start bound : Nat) {left : Expr}
    (hleft : FitsExpr (room + 1) left) :
    Gives (FitsExpr (room + 1)) (operators inner least start bound left) := by
  induction bound generalizing left with
  | zero => exact gives_pure hleft
  | succ bound ih =>
    rw [operators]
    refine gives_then fun next => ?_
    split
    · exact gives_pure hleft
    · next op _ =>
      split
      · exact gives_pure hleft
      · refine gives_then fun _ => (h _).bind fun right hright => gives_then fun stop => ih ?_
        -- the left operand has been read on the level of the operator itself
        unfold FitsExpr at *
        simp only [Expr.deepest, counted]
        omega

/-- **Expressions** take no more levels than there are. -/
theorem gives_exprAt (bound room least : Nat) :
    Gives (FitsExpr room) (exprAt bound room least) := by
  induction room generalizing least with
  | zero => exact gives_failHere _
  | succ room ih =>
    rw [exprAt]
    exact gives_then fun span => (gives_operand ih bound).bind fun left hleft =>
      gives_operators ih least _ bound hleft

/-! ### Statements -/

variable {expr : Parser Expr} {block : Parser (List Stmt)}

/-- The statements take at most `room` levels, of which their block is one. -/
def FitsBody (room : Nat) (ss : List Stmt) : Prop :=
  ∀ s ∈ ss, s.deepest counted < room

theorem FitsBody.deepestAll_le {ss : List Stmt} (h : FitsBody room ss) (step : Step) :
    Stmt.deepestAll counted step ss ≤ room := by
  refine Stmt.deepestAll_le.mpr fun s hs => ?_
  have := counted_le_one step
  have := h s hs
  omega

theorem gives_simple (h : Gives (FitsExpr room) expr) :
    Gives (·.deepest counted ≤ room) (simple expr) := by
  unfold simple
  refine gives_then fun place => gives_then fun declares => ?_
  cases declares with
  | true =>
    exact gives_then fun name => gives_then fun _ => h.bind fun e he => gives_then fun _ =>
      gives_pure (he.step_le .value)
  | false =>
    refine gives_then fun next => ?_
    split
    · exact gives_then fun _ => gives_then fun _ => gives_then fun _ => gives_pure (Nat.zero_le _)
    · exact gives_then fun _ => gives_then fun _ => h.bind fun e he => gives_then fun _ =>
        gives_pure (he.step_le .value)
    · exact gives_then fun _ => gives_then fun _ => h.bind fun e he => gives_then fun _ =>
        gives_pure (he.step_le .value)
    · exact h.bind fun e he => gives_then fun _ => gives_pure (he.step_le .value)

theorem gives_condition (h : Gives (FitsExpr room) expr) :
    Gives (FitsExpr room) (condition expr) := by
  unfold condition
  exact gives_then fun _ => h.bind fun e he => gives_then fun _ => gives_pure he

/-- A conditional is no deeper behind an `else` than by itself. -/
theorem gives_conditional (hblock : Gives (FitsBody room) block)
    (hexpr : Gives (FitsExpr room) expr) (bound : Nat) :
    Gives (fun s => s.deepest counted ≤ room ∧ Stmt.elseStep [s] = .elseIf)
      (conditional block expr bound) := by
  induction bound with
  | zero => exact gives_failHere _
  | succ bound ih =>
    rw [conditional]
    refine gives_then fun place => gives_then fun _ => (gives_condition hexpr).bind fun e he =>
      hblock.bind fun body hbody => gives_then fun more => ?_
    have hcondition := he.step_le .condition
    have hbody' := hbody.deepestAll_le .body
    cases more with
    | false =>
      exact gives_then fun _ => gives_pure ⟨max_le hcondition hbody', rfl⟩
    | true =>
      have hotherwise {otherwise : List Stmt} (span : Span)
          (h : Stmt.deepestAll counted (Stmt.elseStep otherwise) otherwise ≤ room) :
          (Stmt.ifElse e body otherwise span).deepest counted ≤ room ∧
            Stmt.elseStep [.ifElse e body otherwise span] = .elseIf :=
        ⟨max_le hcondition (max_le hbody' h), rfl⟩
      refine gives_then fun next => ?_
      split
      · refine ih.bind fun s hs => ?_
        -- the `else if` is a conditional of the same level, and not the only statement of a block
        have hchain : Stmt.deepestAll counted (Stmt.elseStep [s]) [s] ≤ room := by
          rw [hs.2, Stmt.deepestAll_le]
          exact List.forall_mem_singleton.mpr ((Nat.zero_add _).trans_le hs.1)
        exact gives_pure_bind (gives_then fun _ => gives_pure (hotherwise _ hchain))
      · exact hblock.bind fun otherwise h => gives_then fun _ =>
          gives_pure (hotherwise _ (h.deepestAll_le _))

/-- A part that may be missing. -/
theorem gives_optional {ending : Token} {part : Parser α} (h : Gives P part) :
    Gives (fun found => ∀ a, found = some a → P a) (optional ending part) := by
  unfold optional
  refine gives_then fun next => ?_
  split
  · exact gives_pure fun a ha => nomatch ha
  · exact h.bind fun a ha => gives_pure fun _ heq => Option.some.inj heq ▸ ha

theorem gives_update (h : Gives (FitsExpr room) expr) :
    Gives (·.deepest counted ≤ room) (update expr) := by
  unfold update
  refine (gives_simple h).bind fun s hs => ?_
  split
  · exact gives_throw _
  · exact gives_pure hs

theorem gives_forLoop (hblock : Gives (FitsBody room) block) (hexpr : Gives (FitsExpr room) expr) :
    Gives (·.deepest counted ≤ room) (forLoop block expr) := by
  -- the three parts of a header may be missing, and a missing part has no depth
  have helim {β : Type} {f : β → Nat} {part : Option β} (h : ∀ a, part = some a → f a ≤ room) :
      part.elim 0 f ≤ room := by
    cases part with
    | none => exact Nat.zero_le _
    | some a => exact h a rfl
  unfold forLoop
  refine gives_then fun place => gives_then fun _ => gives_then fun _ => ?_
  refine (gives_optional (gives_simple hexpr)).bind fun first hfirst => gives_then fun _ => ?_
  refine (gives_optional hexpr).bind fun e he => gives_then fun _ => ?_
  refine (gives_optional (gives_update hexpr)).bind fun step hstep => gives_then fun _ => ?_
  refine hblock.bind fun body hbody => gives_then fun _ => gives_pure ?_
  refine max_le (max_le (helim fun s hs => ?_) (helim fun c hc => ?_))
    (max_le (helim fun s hs => ?_) (hbody.deepestAll_le .body))
  · exact (Nat.zero_add _).trans_le (hfirst s hs)
  · exact (he c hc).step_le .condition
  · exact (Nat.zero_add _).trans_le (hstep s hs)

theorem gives_statement (hblock : Gives (FitsBody room) block) (hexpr : Gives (FitsExpr room) expr)
    (bound : Nat) : Gives (·.deepest counted ≤ room) (statement bound block expr) := by
  unfold statement
  refine gives_then fun place => gives_then fun next => ?_
  split
  · exact hblock.bind fun body hbody => gives_then fun _ => gives_pure (hbody.deepestAll_le .body)
  · exact (gives_conditional hblock hexpr bound).mono fun s hs => hs.1
  · refine gives_then fun _ => (gives_condition hexpr).bind fun e he => ?_
    refine hblock.bind fun body hbody => gives_then fun _ => gives_pure ?_
    exact max_le (he.step_le .condition) (hbody.deepestAll_le .body)
  · exact gives_forLoop hblock hexpr
  · exact gives_then fun _ => gives_then fun _ => gives_then fun _ => gives_pure (Nat.zero_le _)
  · exact (gives_simple hexpr).bind fun s hs => gives_then fun _ => gives_pure hs

theorem gives_blockRest {opening : Span} {reader : Parser Stmt}
    (h : Gives (·.deepest counted ≤ room) reader) (bound : Nat) :
    Gives (FitsBody (room + 1)) (blockRest opening reader bound) := by
  induction bound with
  | zero => exact gives_throw _
  | succ bound ih =>
    rw [blockRest]
    refine gives_then fun closes => ?_
    cases closes with
    | true => exact gives_pure (List.forall_mem_nil _)
    | false =>
      refine gives_then fun rest => ?_
      dsimp only
      split
      · exact gives_throw _
      · -- a statement of the block is one level below the block
        refine h.bind fun first hfirst => ih.bind fun others hothers => gives_pure ?_
        exact List.forall_mem_cons.mpr ⟨Nat.lt_succ_of_le hfirst, hothers⟩

/-- **Blocks** take no more levels than there are. -/
theorem gives_blockAt (bound room : Nat) : Gives (FitsBody room) (blockAt bound room) := by
  induction room with
  | zero => exact gives_failHere _
  | succ room ih =>
    rw [blockAt]
    exact gives_then fun opening =>
      gives_blockRest (gives_statement ih (gives_exprAt bound room 0) bound) _

theorem mem_statements {P : Stmt → Prop} {reader : Parser Stmt} (h : Gives P reader) (bound : Nat)
    (st : Stream) : ∀ s ∈ (statements reader bound st).1, P s := by
  induction bound generalizing st with
  | zero => exact List.forall_mem_nil _
  | succ bound ih =>
    rw [statements]
    split
    · exact List.forall_mem_nil _
    · split
      · next first rest hfirst => exact List.forall_mem_cons.mpr ⟨h st first rest hfirst, ih rest⟩
      · split
        · exact List.forall_mem_nil _
        · exact ih _

end Parser

/-- What holds of every statement that the reader of the outermost level gives holds of every
statement of a program. -/
theorem Program.forall_statements_of_parse {P : Stmt → Prop} {text : String} {source : Nat}
    {p : Program} (hreader : ∀ bound, Parser.Gives P (Parser.topStatement bound))
    (h : Program.parse text source = .ok p) : ∀ s ∈ p.statements, P s := by
  unfold parse at h
  split at h
  · cases h
  · next lexemes _ =>
    unfold ofLexemes at h
    dsimp only at h
    split at h
    · next ss hss =>
      cases h
      have hall := Parser.mem_statements (hreader lexemes.length) lexemes.length
        ⟨lexemes, 0, text.utf8ByteSize⟩
      rwa [hss] at hall
    · cases h

/-- **What has been read is not nested too deep**, as far as the readers count. -/
theorem Program.deepest_le_of_parse {text : String} {source : Nat} {p : Program}
    (h : Program.parse text source = .ok p) :
    ∀ s ∈ p.statements, s.deepest counted ≤ nestingLimit :=
  Program.forall_statements_of_parse (fun bound => Parser.gives_statement
    (Parser.gives_blockAt bound nestingLimit) (Parser.gives_exprAt bound nestingLimit 0) bound) h

end Blockwork.Script
