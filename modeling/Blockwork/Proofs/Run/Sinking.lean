import Mathlib
import Blockwork.Proofs.Run.Requests
import Blockwork.Proofs.Run.Scopes

/-!
# The same further in

A statement that is moved further in runs at a greater depth, and among more scopes. It does the
same there, as long as the limit on depth is not reached and the scopes that have come in between
are empty: a variable is looked up past them, and what is declared goes into a scope above them.

`Sinks k n x y` says this of two actions: from machines that differ by `k` empty scopes below the
innermost `n`, the second one ends at the limit on depth, or else like the first one, with the same
difference. The places of faults do not count. All constructs of actions keep this, and so does a
greater depth at every construct that looks at it.

## Main result

* `sinks_execute`: a statement at a greater depth follows the same statement.
-/

namespace Blockwork.Run

open Script Blockwork.Run.Action

variable {σ α β : Type} {k n : Nat}

/-! ### Empty scopes in between -/

/-- There are `k` more empty scopes behind the first `n` scopes. Without any scopes there may be
none in between either. -/
inductive Spaced (k : Nat) : Nat → List Scope → List Scope → Prop
  | here (scopes : List Scope) : Spaced k 0 scopes (List.replicate k [] ++ scopes)
  | short (n : Nat) : Spaced k n [] []
  | under (scope : Scope) {n : Nat} {scopes scopes' : List Scope} :
      Spaced k n scopes scopes' → Spaced k (n + 1) (scope :: scopes) (scope :: scopes')

namespace Spaced

variable {scopes scopes' : List Scope}

theorem eq_of_zero (h : Spaced 0 n scopes scopes') : scopes' = scopes := by
  induction h with
  | here | short => rfl
  | under scope _ ih => rw [ih]

theorem tail (h : Spaced k (n + 1) scopes scopes') : Spaced k n scopes.tail scopes'.tail := by
  cases h with
  | short => exact .short n
  | under scope h => exact h

/-- Nothing is found in the empty scopes. -/
theorem findSome?_eq (h : Spaced k n scopes scopes') (name : String) (global : Scope) :
    (scopes' ++ [global]).findSome? (Scope.get? · name)
      = (scopes ++ [global]).findSome? (Scope.get? · name) := by
  induction h with
  | here scopes =>
    rw [List.append_assoc, List.findSome?_append]
    have hempty : (List.replicate k ([] : Scope)).findSome? (Scope.get? · name) = none := by
      simp [Scope.get?]
    rw [hempty, Option.none_or]
  | short => rfl
  | under scope _ ih =>
    rw [List.cons_append, List.cons_append, List.findSome?_cons, List.findSome?_cons, ih]

/-- Nothing is assigned in the empty scopes. -/
theorem assignIn? (h : Spaced k n scopes scopes') (name : String) (value : Value) :
    (Environment.assignIn? scopes name value = none ∧
      Environment.assignIn? scopes' name value = none) ∨
    ∃ t t', Environment.assignIn? scopes name value = some t ∧
      Environment.assignIn? scopes' name value = some t' ∧ Spaced k n t t' := by
  induction h with
  | here scopes =>
    -- the empty scopes are in front of all others here, and are passed over
    have hempty : Environment.assignIn? (List.replicate k []) name value = none := by
      induction k with
      | zero => rfl
      | succ k ih =>
        rw [List.replicate_succ, Environment.assignIn?, ih]
        rfl
    rw [Environment.assignIn?_append, hempty, Option.map_none, Option.none_or]
    cases Environment.assignIn? scopes name value with
    | none => exact .inl ⟨rfl, rfl⟩
    | some t => exact .inr ⟨t, _, rfl, rfl, .here t⟩
  | short => exact .inl ⟨rfl, rfl⟩
  | under scope h ih =>
    rw [Environment.assignIn?, Environment.assignIn?]
    split
    · exact .inr ⟨_, _, rfl, rfl, .under _ h⟩
    · obtain ⟨hnone, hnone'⟩ | ⟨t, t', ht, ht', hspaced⟩ := ih
      · rw [hnone, hnone']
        exact .inl ⟨rfl, rfl⟩
      · rw [ht, ht']
        exact .inr ⟨_, _, rfl, rfl, .under scope hspaced⟩

end Spaced

/-- Machines that differ by empty scopes. -/
structure Machine.Spaced (k n : Nat) (m m' : Machine σ) : Prop where
  inner : Run.Spaced k n m.env.inner m'.env.inner
  global : m'.env.global = m.env.global
  host : m'.host = m.host
  diagnostics : m'.diagnostics = m.diagnostics
  drawn : m'.drawn = m.drawn

namespace Machine.Spaced

variable {m m' : Machine σ}

theorem refl (m : Machine σ) : m.Spaced 0 n m := by
  refine ⟨?_, rfl, rfl, rfl, rfl⟩
  generalize m.env.inner = scopes
  induction scopes generalizing n with
  | nil => exact .short n
  | cons scope scopes ih =>
    cases n with
    | zero => exact .here _
    | succ n => exact .under scope ih

theorem eq_of_zero (h : m.Spaced 0 n m') : m' = m := by
  obtain ⟨⟨inner, global⟩, host, diagnostics, drawn⟩ := m
  obtain ⟨⟨inner', global'⟩, host', diagnostics', drawn'⟩ := m'
  obtain ⟨hinner, rfl, rfl, rfl, rfl⟩ := h
  obtain rfl := hinner.eq_of_zero
  rfl

theorem push (h : m.Spaced k n m') :
    Machine.Spaced k (n + 1) { m with env := m.env.push } { m' with env := m'.env.push } :=
  ⟨.under [] h.inner, h.global, h.host, h.diagnostics, h.drawn⟩

theorem pop (h : m.Spaced k (n + 1) m') :
    Machine.Spaced k n { m with env := m.env.pop } { m' with env := m'.env.pop } :=
  ⟨h.inner.tail, h.global, h.host, h.diagnostics, h.drawn⟩

/-- What is declared is declared above the empty scopes, if there is a scope above them. -/
theorem declare (h : m.Spaced k (n + 1) m') (name : String) (value : Value) :
    Machine.Spaced k (n + 1) { m with env := m.env.declare name value }
      { m' with env := m'.env.declare name value } := by
  obtain ⟨⟨inner, global⟩, host, diagnostics, drawn⟩ := m
  obtain ⟨⟨inner', global'⟩, host', diagnostics', drawn'⟩ := m'
  obtain ⟨hinner, hglobal, hhost, hdiagnostics, hdrawn⟩ := h
  dsimp only at hinner
  cases hinner with
  | short =>
    -- without any scopes the variable is a global one
    have hput := congrArg (Scope.put · name value) hglobal
    exact ⟨.short _, hput, hhost, hdiagnostics, hdrawn⟩
  | under scope hrest => exact ⟨.under _ hrest, hglobal, hhost, hdiagnostics, hdrawn⟩

theorem get?_eq (h : m.Spaced k n m') (name : String) : m'.env.get? name = m.env.get? name := by
  unfold Environment.get? Environment.scopes
  rw [h.global]
  exact h.inner.findSome?_eq name _

theorem assign? (h : m.Spaced k n m') (name : String) (value : Value) :
    (m.env.assign? name value = none ∧ m'.env.assign? name value = none) ∨
    ∃ env env', m.env.assign? name value = some env ∧ m'.env.assign? name value = some env' ∧
      Machine.Spaced k n { m with env } { m' with env := env' } := by
  unfold Environment.assign?
  rw [h.global]
  obtain ⟨hnone, hnone'⟩ | ⟨t, t', ht, ht', hspaced⟩ := h.inner.assignIn? name value
  · rw [hnone, hnone']
    dsimp only
    split
    · exact .inr ⟨_, _, rfl, rfl, h.inner, rfl, h.host, h.diagnostics, h.drawn⟩
    · exact .inl ⟨rfl, rfl⟩
  · rw [ht, ht']
    exact .inr ⟨_, _, rfl, rfl, hspaced, rfl, h.host, h.diagnostics, h.drawn⟩

theorem asked (h : m.Spaced k n m') (call : HostCall) (span : Span) (source : Nat) (host : σ) :
    (m.asked call span source host).Spaced k n (m'.asked call span source host) := by
  cases call with
  | warn text =>
    have hpushed := congrArg (Array.push · ⟨.custom text, some span, source, true⟩) h.diagnostics
    exact ⟨h.inner, h.global, rfl, hpushed, h.drawn⟩
  | draw sprite => exact ⟨h.inner, h.global, rfl, h.diagnostics, congrArg (· + 1) h.drawn⟩
  | _ => exact ⟨h.inner, h.global, rfl, h.diagnostics, h.drawn⟩

end Machine.Spaced

/-! ### Actions that follow others -/

/-- How an action ends, with the place of its fault left out. -/
def ending (r : Except Diagnostic α) : Except RunCause α :=
  r.mapError Diagnostic.cause

theorem Diagnostic.cause_locate (d : Diagnostic) (span : Span) (source : Nat) :
    (d.locate span source).cause = d.cause := by
  unfold locate
  split <;> rfl

/-- A place changes no more than the place of a fault. -/
theorem outcome_locate_ending (span : Span) (source : Nat) (x : Action σ α) (m : Machine σ) :
    ending (outcome (locate span source x) m).1 = ending (outcome x m).1 ∧
      (outcome (locate span source x) m).2 = (outcome x m).2 := by
  rw [outcome_locate]
  rcases outcome x m with ⟨d | a, t⟩
  · exact ⟨congrArg Except.error (d.cause_locate span source), rfl⟩
  · exact ⟨rfl, rfl⟩

/-- **The second action does what the first one does**, among more empty scopes, unless it ends at
the limit on depth. -/
def Sinks (k n : Nat) (x y : Action σ α) : Prop :=
  ∀ m m', m.Spaced k n m' → ending (outcome y m').1 = .error .tooDeep ∨
    (ending (outcome x m).1 = ending (outcome y m').1 ∧
      (outcome x m).2.Spaced k n (outcome y m').2)

theorem sinks_pure (a : α) : Sinks k n (pure a : Action σ α) (pure a) :=
  fun _ _ h => .inr ⟨rfl, h⟩

theorem sinks_fail (cause : RunCause) :
    Sinks k n (fail cause : Action σ α) (fail cause) :=
  fun _ _ h => .inr ⟨rfl, h⟩

theorem sinks_tooDeep (x : Action σ α) : Sinks k n x (fail .tooDeep) :=
  fun _ _ _ => .inl rfl

namespace Sinks

variable {x y : Action σ α}

theorem bind {f g : α → Action σ β} (hx : Sinks k n x y) (hf : ∀ a, Sinks k n (f a) (g a)) :
    Sinks k n (x >>= f) (y >>= g) := by
  intro m m' h
  have hxm := hx m m' h
  rw [outcome_bind, outcome_bind]
  rcases hy : outcome y m' with ⟨d' | a', t'⟩ <;> rcases hr : outcome x m with ⟨d | a, t⟩ <;>
    rw [hy, hr] at hxm
  -- a fault in the first part is a fault of the whole
  · exact hxm.imp (congrArg Except.error ∘ Except.error.inj)
      (And.imp_left (congrArg Except.error ∘ Except.error.inj))
  · have hdeep := hxm.resolve_right fun h => nomatch h.1
    exact .inl (congrArg Except.error (Except.error.inj hdeep))
  · exact nomatch (hxm.resolve_left nofun).1
  · obtain ⟨hend, ht⟩ := hxm.resolve_left nofun
    obtain rfl : a = a' := Except.ok.inj hend
    exact hf a t t' ht

theorem locate_left (h : Sinks k n x y) (span : Span) (source : Nat) :
    Sinks k n (locate span source x) y := by
  intro m m' hm
  obtain ⟨hend, hmachine⟩ := outcome_locate_ending span source x m
  rw [hend, hmachine]
  exact h m m' hm

theorem locate_right (h : Sinks k n x y) (span : Span) (source : Nat) :
    Sinks k n x (locate span source y) := by
  intro m m' hm
  obtain ⟨hend, hmachine⟩ := outcome_locate_ending span source y m'
  rw [hend, hmachine]
  exact h m m' hm

theorem locate (h : Sinks k n x y) (span : Span) (source : Nat) :
    Sinks k n (locate span source x) (locate span source y) :=
  (h.locate_left span source).locate_right span source

theorem inScope (h : Sinks k (n + 1) x y) : Sinks k n (inScope x) (inScope y) := by
  intro m m' hm
  rw [outcome_inScope, outcome_inScope]
  exact (h _ _ hm.push).imp id fun ⟨hend, ht⟩ => ⟨hend, ht.pop⟩

theorem iterate {turn turn' : Action σ Bool} (h : Sinks k n turn turn') (turns : Nat) :
    Sinks k n (iterate turns turn) (iterate turns turn') := by
  induction turns with
  | zero => exact sinks_fail _
  | succ turns ih =>
    rw [Action.iterate, Action.iterate]
    refine h.bind fun more => ?_
    cases more with
    | true => exact ih
    | false => exact sinks_pure ()

end Sinks

theorem sinks_readVariable (name : String) :
    Sinks k n (readVariable name : Action σ Value) (readVariable name) := by
  intro m m' h
  unfold readVariable
  rw [outcome_bind_ok (outcome_get m), outcome_bind_ok (outcome_get m'), h.get?_eq]
  cases m.env.get? name <;> exact .inr ⟨rfl, h⟩

theorem sinks_assignVariable (name : String) (value : Value) :
    Sinks k n (assignVariable name value : Action σ Unit) (assignVariable name value) := by
  intro m m' h
  unfold assignVariable
  rw [outcome_bind_ok (outcome_get m), outcome_bind_ok (outcome_get m')]
  obtain ⟨hnone, hnone'⟩ | ⟨env, env', henv, henv', hspaced⟩ := h.assign? name value
  · rw [hnone, hnone']
    exact .inr ⟨rfl, h⟩
  · rw [henv, henv']
    exact .inr ⟨rfl, hspaced⟩

theorem sinks_declare (name : String) (value : Value) :
    Sinks k (n + 1) (modifyEnv (·.declare name value) : Action σ Unit)
      (modifyEnv (·.declare name value)) :=
  fun _ _ h => .inr ⟨rfl, h.declare name value⟩

/-- A call makes the same request, since the variables do not count for it. -/
theorem sinks_callFunction (setting : Setting σ) (function : String) (arguments : List Value)
    (span : Span) : Sinks k n (callFunction setting function arguments span)
      (callFunction setting function arguments span) := by
  intro m m' h
  rw [outcome_callFunction, outcome_callFunction, h.host, h.drawn]
  cases requestOf setting.assets setting.seed (setting.host.canvas m.host) m.drawn function
    arguments with
  | none => exact .inr ⟨rfl, h⟩
  | some call => exact .inr ⟨rfl, h.asked call span setting.source _⟩

/-! ### Statements further in -/

variable {setting : Setting σ} {depth depth' : Nat}

theorem sinks_checkDepth (h : depth ≤ depth') (span span' : Span) :
    Sinks k n (checkDepth setting depth span) (checkDepth setting depth' span') := by
  unfold checkDepth
  by_cases hdeep : depthLimit < depth'
  · rw [if_pos hdeep]
    exact (sinks_tooDeep _).locate_right _ _
  · rw [if_neg hdeep, if_neg fun hd => hdeep (hd.trans_le h)]
    exact sinks_pure ()

/-- The limit on depth comes first, and at the lesser depth it is not reached alone. -/
theorem sinks_unlessDeep {x y : Action σ α} (h : depth ≤ depth') (hxy : Sinks k n x y) :
    Sinks k n (if depthLimit < depth then fail .tooDeep else x)
      (if depthLimit < depth' then fail .tooDeep else y) := by
  by_cases hdeep : depthLimit < depth'
  · rw [if_pos hdeep]
    exact sinks_tooDeep _
  · rw [if_neg hdeep, if_neg fun hd => hdeep (hd.trans_le h)]
    exact hxy

theorem sinks_evaluateAll_of {es : List Expr}
    (hes : ∀ e ∈ es, ∀ {depth depth' : Nat}, depth ≤ depth' →
      Sinks k n (evaluate setting e depth) (evaluate setting e depth')) (h : depth ≤ depth') :
    Sinks k n (evaluateAll setting es depth) (evaluateAll setting es depth') := by
  induction es with
  | nil => exact sinks_pure []
  | cons e es ih =>
    obtain ⟨hfirst, hothers⟩ := List.forall_mem_cons.mp hes
    rw [evaluateAll, evaluateAll]
    exact (hfirst h).bind fun _ => (ih hothers).bind fun _ => sinks_pure _

/-- **Expressions.** -/
theorem sinks_evaluate (e : Expr) (h : depth ≤ depth') :
    Sinks k n (evaluate setting e depth) (evaluate setting e depth') := by
  induction e using Expr.induction generalizing depth depth' with
  | number | text | bool =>
    rw [evaluate, evaluate]
    exact sinks_unlessDeep h (sinks_pure _)
  | var name span =>
    rw [evaluate, evaluate]
    exact sinks_unlessDeep h ((sinks_readVariable name).locate _ _)
  | call f arguments span ih =>
    rw [evaluate, evaluate]
    refine sinks_unlessDeep h (.bind ?_ fun values => ?_)
    · exact sinks_evaluateAll_of (fun e he => ih e he) (Nat.add_le_add_right h 1)
    · exact (sinks_callFunction setting f values span).locate _ _
  | unary op e ih =>
    rw [evaluate, evaluate]
    exact sinks_unlessDeep h ((ih (Nat.add_le_add_right h 1)).bind fun _ => sinks_pure _)
  | binary op l r span ihl ihr =>
    rw [evaluate, evaluate]
    refine sinks_unlessDeep h ((ihl (Nat.add_le_add_right h 1)).bind fun value => ?_)
    split
    · exact sinks_pure _
    · exact sinks_pure _
    · exact (ihr (Nat.add_le_add_right h 1)).bind fun _ => sinks_pure _

theorem sinks_test (c : Expr) (h : depth ≤ depth') :
    Sinks k n (test setting c depth) (test setting c depth') :=
  (sinks_evaluate c h).bind fun _ => sinks_pure _

/-- **Simple statements.** With a declaration there has to be a scope above the empty ones. -/
theorem sinks_executeSimple (s : Simple) (hs : s.isDeclaration = false ∨ 0 < n)
    (h : depth ≤ depth') :
    Sinks k n (executeSimple setting s depth) (executeSimple setting s depth') := by
  have hvalue (e : Expr) :
      Sinks k n (evaluate setting e (depth + 1)) (evaluate setting e (depth' + 1)) :=
    sinks_evaluate e (Nat.add_le_add_right h 1)
  unfold executeSimple
  refine (sinks_checkDepth h _ _).bind fun _ => Sinks.locate ?_ _ _
  cases s with
  | declare name e span =>
    -- a declaration goes into the innermost scope, which has to be one that both sides have
    obtain ⟨n, rfl⟩ := Nat.exists_eq_succ_of_ne_zero (hs.resolve_left nofun).ne'
    exact (hvalue e).bind fun value => sinks_declare name value
  | assign name kind e span =>
    cases kind with
    | replace => exact (hvalue e).bind fun value => sinks_assignVariable name value
    | add =>
      exact (hvalue e).bind fun _ => (sinks_readVariable name).bind fun _ =>
        sinks_assignVariable name _
  | increment name span =>
    exact (sinks_readVariable name).bind fun _ => sinks_assignVariable name _
  | evaluate e span => exact (hvalue e).bind fun _ => sinks_pure ()

variable {turns : Nat}

theorem sinks_executeOptional {s : Option Simple}
    (hs : (∀ u ∈ s, u.isDeclaration = false) ∨ 0 < n) (h : depth ≤ depth') :
    Sinks k n (executeOptional setting s depth) (executeOptional setting s depth') := by
  cases s with
  | none => exact sinks_pure ()
  | some s => exact sinks_executeSimple s (hs.imp_left fun hs => hs s rfl) h

theorem sinks_testOptional (c : Option Expr) (h : depth ≤ depth') :
    Sinks k n (testOptional setting c depth) (testOptional setting c depth') := by
  cases c with
  | none => exact sinks_pure true
  | some c => exact sinks_test c h

/-- Every statement of a body that stands in a scope of its own. -/
theorem sinks_executeAll_of {ss : List Stmt}
    (hss : ∀ s ∈ ss, ∀ {n depth depth' : Nat}, 0 < n → depth ≤ depth' →
      Sinks k n (execute setting turns s depth) (execute setting turns s depth'))
    (hn : 0 < n) (h : depth ≤ depth') :
    Sinks k n (executeAll setting turns ss depth) (executeAll setting turns ss depth') := by
  induction ss with
  | nil => exact sinks_pure _
  | cons s ss ih =>
    obtain ⟨hfirst, hothers⟩ := List.forall_mem_cons.mp hss
    rw [executeAll, executeAll]
    refine (hfirst hn h).bind fun flow => ?_
    cases flow with
    | normal => exact ih hothers
    | broke => exact sinks_pure _

theorem sinks_body_of {ss : List Stmt}
    (hss : ∀ s ∈ ss, ∀ {n depth depth' : Nat}, 0 < n → depth ≤ depth' →
      Sinks k n (execute setting turns s depth) (execute setting turns s depth'))
    (h : depth ≤ depth') :
    Sinks k n (inScope (executeAll setting turns ss depth))
      (inScope (executeAll setting turns ss depth')) :=
  (sinks_executeAll_of hss (Nat.succ_pos n) h).inScope

/-- **Statements.** A scope above the empty ones is there as soon as a statement stands in a body
below them. -/
theorem sinks_execute (s : Stmt) (hn : 0 < n) (h : depth ≤ depth') :
    Sinks k n (execute setting turns s depth) (execute setting turns s depth') := by
  induction s using Stmt.induction generalizing n depth depth' with
  | simple s =>
    rw [execute, execute]
    exact (sinks_executeSimple s (.inr hn) h).bind fun _ => sinks_pure _
  | ifThen c body span ih =>
    have hnext := Nat.add_le_add_right h 1
    rw [execute, execute]
    refine (sinks_checkDepth h _ _).bind fun _ =>
      ((sinks_test c hnext).locate _ _).bind fun holds => ?_
    cases holds with
    | true => exact sinks_body_of (fun s hs => ih s hs) hnext
    | false => exact sinks_pure _
  | ifElse c body otherwise span ih ih' =>
    have hnext := Nat.add_le_add_right h 1
    rw [execute, execute]
    refine (sinks_checkDepth h _ _).bind fun _ =>
      ((sinks_test c hnext).locate _ _).bind fun holds => ?_
    cases holds with
    | true => exact sinks_body_of (fun s hs => ih s hs) hnext
    | false => exact sinks_body_of (fun s hs => ih' s hs) hnext
  | while_ c body span ih =>
    have hnext := Nat.add_le_add_right h 1
    rw [execute, execute]
    refine (sinks_checkDepth h _ _).bind fun _ => (Sinks.iterate ?_ turns).bind fun _ =>
      sinks_pure _
    refine ((sinks_test c hnext).locate _ _).bind fun holds => ?_
    cases holds with
    | true => exact (sinks_body_of (fun s hs => ih s hs) hnext).bind fun _ => sinks_pure _
    | false => exact sinks_pure _
  | for_ first c update body span ih =>
    have hnext := Nat.add_le_add_right h 1
    -- what the header declares goes into its own scope, which is above the empty ones
    have hheader : 0 < n + 1 := Nat.succ_pos n
    rw [execute_for, execute_for]
    refine (sinks_checkDepth h _ _).bind fun _ =>
      ((Sinks.inScope ?_).locate _ _).bind fun _ => sinks_pure _
    refine (sinks_executeOptional (.inr hheader) hnext).bind fun _ => Sinks.iterate ?_ turns
    refine (sinks_testOptional c hnext).bind fun holds => ?_
    cases holds with
    | false => exact sinks_pure _
    | true =>
      refine (sinks_body_of (fun s hs => ih s hs) hnext).bind fun flow => ?_
      cases flow with
      | broke => exact sinks_pure _
      | normal =>
        exact (sinks_executeOptional (.inr hheader) hnext).bind fun _ => sinks_pure _
  | break_ span =>
    rw [execute, execute]
    exact (sinks_checkDepth h _ _).bind fun _ => sinks_pure _
  | block body span ih =>
    rw [execute, execute]
    exact (sinks_checkDepth h _ _).bind fun _ =>
      sinks_body_of (fun s hs => ih s hs) (Nat.add_le_add_right h 1)

end Blockwork.Run
