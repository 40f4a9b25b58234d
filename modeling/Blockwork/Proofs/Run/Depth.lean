import Mathlib
import Blockwork.Proofs.Run.Acting
import Blockwork.Proofs.Script.Nesting

/-!
# Running within the depth limit

A run goes down the syntax tree, one level of depth with every step, and stops at a node that lies
too deep. So a statement that is run at some depth, and whose longest way down still fits below it,
never stops for that (`shallow_execute`).

The readers do not count all of these steps (`Script.counted`). What they accept can lie deeper than
a run may go.

## Main results

* `not_tooDeep_of_parse`: what has been read is within the limit of the readers in the steps that
  they count, and if it is within the limit of a run in all of its steps, then no run is stopped by
  its depth.
* `not_tooDeep_of_counted`: without uncounted steps the limit of the readers is enough.
* `tooDeep_of_parse`: a source that is read, and whose run is stopped by its depth.
-/

namespace Blockwork.Run

open Script Blockwork.Run.Action

variable {σ α β : Type} {x : Action σ α}

/-! ### Actions that are not stopped by the depth -/

/-- The action never stops because something lies too deep. -/
def Shallow (x : Action σ α) : Prop :=
  ∀ m d m', outcome x m = (.error d, m') → d.cause ≠ .tooDeep

theorem shallow_of_ok (h : ∀ m, ∃ a m', outcome x m = (.ok a, m')) : Shallow x := by
  intro m d m' herror
  obtain ⟨a, m'', hok⟩ := h m
  rw [hok] at herror
  cases herror

theorem shallow_pure (a : α) : Shallow (pure a : Action σ α) :=
  shallow_of_ok fun m => ⟨a, m, rfl⟩

theorem shallow_fail {cause : RunCause} (h : cause ≠ .tooDeep) :
    Shallow (fail cause : Action σ α) := by
  intro m d m' herror
  cases herror
  exact h

theorem Shallow.bind {f : α → Action σ β} (hx : Shallow x) (hf : ∀ a, Shallow (f a)) :
    Shallow (x >>= f) := by
  intro m d m' herror
  rw [outcome_bind] at herror
  rcases hok : outcome x m with ⟨e | a, t⟩
  · rw [hok] at herror
    cases herror
    exact hx m d m' hok
  · rw [hok] at herror
    exact hf a t d m' herror

theorem Shallow.locate (h : Shallow x) (span : Span) (source : Nat) :
    Shallow (locate span source x) := by
  intro m d m' herror
  rw [outcome_locate] at herror
  rcases hok : outcome x m with ⟨e | a, t⟩
  · rw [hok] at herror
    cases herror
    -- giving a fault its place leaves its cause
    have hcause : (e.locate span source).cause = e.cause := by
      unfold Diagnostic.locate
      split <;> rfl
    rw [hcause]
    exact h m e m' hok
  · rw [hok] at herror
    cases herror

theorem Shallow.inScope (h : Shallow x) : Shallow (inScope x) := by
  intro m d m' herror
  rw [outcome_inScope] at herror
  rcases hok : outcome x { m with env := m.env.push } with ⟨r, t⟩
  rw [hok] at herror
  cases herror
  exact h _ d t hok

theorem shallow_ask (request : σ → Except String α × σ) : Shallow (ask request) := by
  intro m d m' herror
  rw [outcome_ask] at herror
  split at herror
  · cases herror
  · cases herror
    exact nofun

theorem Shallow.iterate {turn : Action σ Bool} (h : Shallow turn) (turns : Nat) :
    Shallow (iterate turns turn) := by
  induction turns with
  | zero => exact shallow_fail nofun
  | succ turns ih =>
    rw [Action.iterate]
    refine h.bind fun more => ?_
    cases more with
    | true => exact ih
    | false => exact shallow_pure ()

/-! ### Expressions -/

variable {setting : Setting σ} {depth : Nat}

theorem shallow_readVariable (name : String) :
    Shallow (readVariable name : Action σ Value) := by
  unfold readVariable
  refine (shallow_of_ok fun m => ⟨m, m, rfl⟩).bind fun m => ?_
  split
  · exact shallow_pure _
  · exact shallow_fail nofun

theorem shallow_assignVariable (name : String) (value : Value) :
    Shallow (assignVariable name value : Action σ Unit) := by
  unfold assignVariable
  refine (shallow_of_ok fun m => ⟨m, m, rfl⟩).bind fun m => ?_
  split
  · exact shallow_of_ok fun m => ⟨_, _, rfl⟩
  · exact shallow_fail nofun

theorem shallow_drawSprite (name : String) (span : Span) :
    Shallow (drawSprite setting name span) := by
  unfold drawSprite
  split
  · exact shallow_of_ok fun m => ⟨_, _, rfl⟩
  · refine (shallow_of_ok fun m => ⟨m, m, rfl⟩).bind fun m => ?_
    split <;> exact shallow_of_ok fun m => ⟨_, _, rfl⟩

theorem shallow_callFunction (function : String) (arguments : List Value) (span : Span) :
    Shallow (callFunction setting function arguments span) := by
  have hwarn (text : String) : Shallow (warn setting text span) :=
    shallow_of_ok fun m => ⟨_, _, outcome_warn setting text span m⟩
  unfold callFunction
  dsimp only
  split
  · exact (shallow_ask _).bind fun _ => shallow_pure _
  · exact (shallow_ask _).bind fun _ => shallow_pure _
  · exact (shallow_ask _).bind fun _ => shallow_pure _
  · refine (shallow_ask _).bind fun answer => ?_
    split <;> exact shallow_pure _
  · exact (hwarn _).bind fun _ => shallow_pure _
  · exact (shallow_drawSprite _ span).bind fun _ => shallow_pure _
  · exact shallow_fail nofun

theorem shallow_evaluateAll_of {es : List Expr}
    (h : ∀ e ∈ es, Shallow (evaluate setting e depth)) :
    Shallow (evaluateAll setting es depth) := by
  induction es with
  | nil =>
    rw [evaluateAll]
    exact shallow_pure _
  | cons e es ih =>
    obtain ⟨hfirst, hothers⟩ := List.forall_mem_cons.mp h
    rw [evaluateAll]
    exact hfirst.bind fun _ => (ih hothers).bind fun _ => shallow_pure _

/-- **Expressions** that fit below the depth. -/
theorem shallow_evaluate (e : Expr) (h : depth + e.deepest every ≤ depthLimit) :
    Shallow (evaluate setting e depth) := by
  induction e using Expr.induction generalizing depth with
  | number | text | bool =>
    rw [evaluate, if_neg (by omega)]
    exact shallow_pure _
  | var name span =>
    rw [evaluate, if_neg (by omega)]
    exact (shallow_readVariable name).locate span _
  | call f arguments span ih =>
    rw [evaluate, if_neg (by omega)]
    refine (shallow_evaluateAll_of fun e he => ih e he ?_).bind fun _ =>
      (shallow_callFunction f _ span).locate span _
    -- an argument is one level below the call, and the deepest of them counts
    have hdeep : every .argument + e.deepest every ≤ Expr.deepestAll every arguments :=
      Expr.le_deepestAll he
    simp only [Expr.deepest, every_apply] at *
    omega
  | unary op e ih =>
    simp only [Expr.deepest, every_apply] at *
    rw [evaluate, if_neg (by omega)]
    exact (ih (by omega)).bind fun _ => shallow_pure _
  | binary op l r span ihl ihr =>
    simp only [Expr.deepest, every_apply] at *
    rw [evaluate, if_neg (by omega)]
    refine (ihl (by omega)).bind fun value => ?_
    split
    · exact shallow_pure _
    · exact shallow_pure _
    · exact (ihr (by omega)).bind fun _ => shallow_pure _

/-! ### Statements -/

variable {turns : Nat}

theorem shallow_checkDepth (span : Span) (h : depth ≤ depthLimit) :
    Shallow (checkDepth setting depth span) :=
  shallow_of_ok fun m => ⟨(), m, outcome_checkDepth h⟩

theorem shallow_executeSimple (s : Simple) (h : depth + s.deepest every ≤ depthLimit) :
    Shallow (executeSimple setting s depth) := by
  -- the expression of a simple statement is one level below it
  have hvalue {e : Expr} (he : depth + (1 + e.deepest every) ≤ depthLimit) :
      Shallow (evaluate setting e (depth + 1)) :=
    shallow_evaluate e (by omega)
  unfold executeSimple
  refine (shallow_checkDepth _ (by omega)).bind fun _ => Shallow.locate ?_ _ _
  cases s with
  | declare name e span => exact (hvalue h).bind fun v => shallow_of_ok fun m => ⟨_, _, rfl⟩
  | assign name kind e span =>
    cases kind with
    | replace => exact (hvalue h).bind fun v => shallow_assignVariable name v
    | add =>
      exact (hvalue h).bind fun v => (shallow_readVariable name).bind fun _ =>
        shallow_assignVariable name _
  | increment name span =>
    exact (shallow_readVariable name).bind fun _ => shallow_assignVariable name _
  | evaluate e span => exact (hvalue h).bind fun _ => shallow_pure _

theorem shallow_test (e : Expr) (h : depth + e.deepest every ≤ depthLimit) :
    Shallow (test setting e depth) := by
  unfold test
  exact (shallow_evaluate e h).bind fun _ => shallow_pure _

/-- The statements of a body, each of them by itself. -/
theorem shallow_executeAll_of {ss : List Stmt}
    (h : ∀ s ∈ ss, Shallow (execute setting turns s depth)) :
    Shallow (executeAll setting turns ss depth) := by
  induction ss with
  | nil =>
    rw [executeAll]
    exact shallow_pure _
  | cons s ss ih =>
    obtain ⟨hfirst, hothers⟩ := List.forall_mem_cons.mp h
    rw [executeAll]
    refine hfirst.bind fun flow => ?_
    cases flow with
    | normal => exact ih hothers
    | broke => exact shallow_pure _

/-- A body one level further down. -/
theorem shallow_body_of {ss : List Stmt} (step : Step)
    (h : ∀ s ∈ ss, ∀ {depth}, depth + s.deepest every ≤ depthLimit →
      Shallow (execute setting turns s depth))
    (hfits : depth + Stmt.deepestAll every step ss ≤ depthLimit) :
    Shallow (inScope (executeAll setting turns ss (depth + 1))) := by
  refine Shallow.inScope (shallow_executeAll_of fun s hs => h s hs ?_)
  have hdeep : every step + s.deepest every ≤ Stmt.deepestAll every step ss :=
    Stmt.le_deepestAll hs
  rw [every_apply] at hdeep
  omega

/-- The parts of a `for` loop that may be missing. -/
theorem shallow_executeOptional (s : Option Simple)
    (h : depth + s.elim 0 (every .header + ·.deepest every) ≤ depthLimit) :
    Shallow (executeOptional setting s (depth + 1)) := by
  cases s with
  | none => exact shallow_pure _
  | some s =>
    simp only [Option.elim_some, every_apply] at h
    exact shallow_executeSimple s (by omega)

theorem shallow_testOptional (e : Option Expr)
    (h : depth + e.elim 0 (every .condition + ·.deepest every) ≤ depthLimit) :
    Shallow (testOptional setting e (depth + 1)) := by
  cases e with
  | none => exact shallow_pure _
  | some e =>
    simp only [Option.elim_some, every_apply] at h
    exact shallow_test e (by omega)

/-- **Statements** that fit below the depth. -/
theorem shallow_execute (s : Stmt) (h : depth + s.deepest every ≤ depthLimit) :
    Shallow (execute setting turns s depth) := by
  have hcondition (e : Expr) (span : Span) {depth : Nat}
      (h : depth + (1 + e.deepest every) ≤ depthLimit) :
      Shallow (locate span setting.source (test setting e (depth + 1))) :=
    (shallow_test e (by omega)).locate span _
  induction s using Stmt.induction generalizing depth with
  | simple s =>
    rw [execute]
    exact (shallow_executeSimple s h).bind fun _ => shallow_pure _
  | ifThen e body span ih =>
    simp only [Stmt.deepest, every_apply] at h
    rw [execute]
    refine (shallow_checkDepth _ (by omega)).bind fun _ =>
      (hcondition e span (by omega)).bind fun holds => ?_
    cases holds with
    | true => exact shallow_body_of .body ih (by omega)
    | false => exact shallow_pure _
  | ifElse e body otherwise span ih ih' =>
    simp only [Stmt.deepest, every_apply] at h
    rw [execute]
    refine (shallow_checkDepth _ (by omega)).bind fun _ =>
      (hcondition e span (by omega)).bind fun holds => ?_
    cases holds with
    | true => exact shallow_body_of .body ih (by omega)
    | false => exact shallow_body_of (Stmt.elseStep otherwise) ih' (by omega)
  | while_ e body span ih =>
    simp only [Stmt.deepest, every_apply] at h
    rw [execute]
    refine (shallow_checkDepth _ (by omega)).bind fun _ => Shallow.bind (Shallow.iterate ?_ turns)
      fun _ => shallow_pure _
    refine (hcondition e span (by omega)).bind fun holds => ?_
    cases holds with
    | true =>
      exact (shallow_body_of .body ih (by omega)).bind fun _ => shallow_pure _
    | false => exact shallow_pure _
  | for_ first e update body span ih =>
    simp only [Stmt.deepest] at h
    rw [execute_for]
    refine (shallow_checkDepth _ (by omega)).bind fun _ => Shallow.bind (Shallow.locate
      (Shallow.inScope ((shallow_executeOptional first (by omega)).bind fun _ =>
        Shallow.iterate ?_ turns)) _ _) fun _ => shallow_pure _
    unfold forTurn
    refine (shallow_testOptional e (by omega)).bind fun holds => ?_
    cases holds with
    | true =>
      refine (shallow_body_of .body ih (by omega)).bind fun flow => ?_
      cases flow with
      | normal =>
        exact (shallow_executeOptional update (by omega)).bind fun _ => shallow_pure _
      | broke => exact shallow_pure _
    | false => exact shallow_pure _
  | break_ span =>
    rw [execute]
    exact (shallow_checkDepth _ (by omega)).bind fun _ => shallow_pure _
  | block body span ih =>
    rw [execute]
    exact (shallow_checkDepth _ (by omega)).bind fun _ => shallow_body_of .body ih h

theorem shallow_executeTop {ss : List Stmt} (h : ∀ s ∈ ss, s.deepest every ≤ depthLimit) :
    Shallow (executeTop setting turns ss) := by
  induction ss with
  | nil =>
    rw [executeTop]
    exact shallow_pure _
  | cons s ss ih =>
    obtain ⟨hfirst, hothers⟩ := List.forall_mem_cons.mp h
    rw [executeTop]
    refine (shallow_execute s ((Nat.zero_add _).trans_le hfirst)).bind fun flow => ?_
    cases flow with
    | normal => exact ih hothers
    | broke =>
      -- no loop is left that would take the `break`
      exact (shallow_fail (show RunCause.breakOutsideLoop ≠ .tooDeep from nofun)).locate _ _

/-! ### Sources -/

/-- A program with no way down that is longer than the limit. -/
theorem not_tooDeep_of_deepest {p : Program} (h : ∀ s ∈ p.statements, s.deepest every ≤ depthLimit)
    {world : World σ} {turns : Nat} {machine machine' : Machine σ} {d : Diagnostic}
    (hrun : run world turns p machine = (.error d, machine')) : d.cause ≠ .tooDeep :=
  shallow_executeTop h machine d machine' hrun

/-- **A source that is read is within the limit of the readers**, in the steps that they count. If
no way down is longer than the limit of a run in all of its steps together, no run of it is stopped
by its depth. -/
theorem not_tooDeep_of_parse {text : String} {source : Nat} {p : Program}
    (h : Program.parse text source = .ok p) :
    (∀ s ∈ p.statements, s.deepest counted ≤ nestingLimit) ∧
    ((∀ s ∈ p.statements, s.deepest every ≤ depthLimit) →
      ∀ {σ : Type} (world : World σ) (turns : Nat) (machine : Machine σ) (d : Diagnostic)
        (machine' : Machine σ), run world turns p machine = (.error d, machine') →
        d.cause ≠ .tooDeep) :=
  ⟨Program.deepest_le_of_parse h, fun hdeep _ _ _ _ _ _ hrun => not_tooDeep_of_deepest hdeep hrun⟩

/-- A source that prints the sum of so many texts. -/
def printedSum (n : Nat) : String :=
  "print(" ++ "+".intercalate (List.replicate n "\"a\"") ++ ");"

/-- The longest sum of texts that is run: the way to its first text has as many steps as a run may
take. Most of them are not counted by the readers, and those that are counted lie on another way. -/
theorem not_tooDeep_of_parse_sum : ∃ p, Program.parse (printedSum 63) 0 = .ok p ∧
    (∀ s ∈ p.statements, s.deepest every ≤ depthLimit) ∧
    (∃ s ∈ p.statements, s.deepest every = depthLimit ∧
      depthLimit < s.deepest counted + s.deepest uncounted) ∧
    ∀ d machine,
      run ⟨Recording.host, [], 0⟩ 1 p (.start (.start none [] [])) = (.error d, machine) →
        d.cause ≠ .tooDeep := by
  have hread : (Program.parse (printedSum 63) 0).toOption.any (fun p => decide
      (p.statements.map (fun s => (s.deepest every, s.deepest counted, s.deepest uncounted))
        = [(64, 3, 62)])) = true := by
    decide +kernel
  obtain ⟨p, hp, hdecided⟩ := exists_of_any hread
  obtain ⟨s, hs, hdepths⟩ := List.map_eq_singleton_iff.mp (of_decide_eq_true hdecided)
  obtain ⟨hevery, hcounted, huncounted⟩ :
      s.deepest every = 64 ∧ s.deepest counted = 3 ∧ s.deepest uncounted = 62 := by
    simpa only [Prod.mk.injEq] using hdepths
  have hdeep : ∀ s ∈ p.statements, s.deepest every ≤ depthLimit := by
    rw [hs]
    exact List.forall_mem_singleton.mpr hevery.le
  refine ⟨p, hp, hdeep, ⟨s, hs ▸ List.mem_singleton_self s, hevery, ?_⟩,
    (not_tooDeep_of_parse hp).2 hdeep _ _ _⟩
  rw [hcounted, huncounted]
  decide

/-- The longest way down is at most as long as the longest ways of counted and of uncounted steps
together, which may be different ways. -/
theorem deepest_every_le (s : Stmt) :
    s.deepest every ≤ s.deepest counted + s.deepest uncounted := by
  have hsum := @Stmt.deepest_add_le counted uncounted s
  rwa [counted_add_uncounted] at hsum

/-- A program whose counted and uncounted depths together are within the limit. -/
theorem not_tooDeep_of_sum {p : Program}
    (h : ∀ s ∈ p.statements, s.deepest counted + s.deepest uncounted ≤ depthLimit)
    {world : World σ} {turns : Nat} {machine machine' : Machine σ} {d : Diagnostic}
    (hrun : run world turns p machine = (.error d, machine')) : d.cause ≠ .tooDeep :=
  not_tooDeep_of_deepest (fun s hs => (deepest_every_le s).trans (h s hs)) hrun

/-- **Nothing but uncounted steps takes a run too deep**: a source that is read and has none is not
stopped by its depth. -/
theorem not_tooDeep_of_counted {text : String} {source : Nat} {p : Program}
    (h : Program.parse text source = .ok p) (hnone : ∀ s ∈ p.statements, s.deepest uncounted = 0)
    {world : World σ} {turns : Nat} {machine machine' : Machine σ} {d : Diagnostic}
    (hrun : run world turns p machine = (.error d, machine')) : d.cause ≠ .tooDeep := by
  refine not_tooDeep_of_sum (fun s hs => ?_) hrun
  -- the limits of the readers and of a run are the same number
  have hcounted : s.deepest counted ≤ depthLimit := Program.deepest_le_of_parse h s hs
  rw [hnone s hs]
  exact hcounted

/-- **A source that is read, and whose run is stopped by its depth**: a sum of so many texts that
the way to the first one has more steps to the left than a run may take. -/
theorem tooDeep_of_parse : ∃ p d machine, Program.parse (printedSum 64) 0 = .ok p ∧
    run ⟨Recording.host, [], 0⟩ 1 p (.start (.start none [] [])) = (.error d, machine) ∧
    d.cause = .tooDeep := by
  have hread : (Program.parse (printedSum 64) 0).toOption.any (fun p =>
      match (run ⟨Recording.host, [], 0⟩ 1 p (.start (.start none [] []))).1 with
      | .error d => decide (d.cause = .tooDeep)
      | .ok _ => false) = true := by
    decide +kernel
  obtain ⟨p, hp, hdeep⟩ := exists_of_any hread
  rcases hrun : run ⟨Recording.host, [], 0⟩ 1 p (.start (.start none [] [])) with ⟨_ | _, machine⟩
  · next d =>
    rw [hrun] at hdeep
    exact ⟨p, d, machine, hp, hrun, of_decide_eq_true hdeep⟩
  · rw [hrun] at hdeep
    cases hdeep

end Blockwork.Run
