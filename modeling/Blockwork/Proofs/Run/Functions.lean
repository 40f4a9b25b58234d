import Mathlib
import Blockwork.Proofs.Run.Reporting

/-!
# Runs with other functions

All that a script does to its host it does by calling functions. So a run is taken here with the
functions as a parameter (`executeTopWith`), which can be those of the host (`executeTopWith_eq`) or
those of another kind of machine. Two runs of one program then differ only in what their calls do,
and what holds between two calls, and is kept by the constructs of actions (`Congruence`), holds
between the two runs.

## Main results

* `executeTopWith_eq`: with the functions of a host it is the run of the program.
* `Congruence.executeTop`: what relates the calls of a program relates its runs.
-/

namespace Blockwork.Run

open Script Blockwork.Run.Action

variable {σ τ : Type}

/-! ### Runs with functions as a parameter -/

/-- What calls do: the action of a function, by its name, with these arguments, at the place of the
call. -/
abbrev Functions (σ : Type) := String → List Value → Span → Action σ Value

section With

variable (call : Functions σ) (source : Nat)

mutual

/-- The value of an expression. -/
def evaluateWith : Expr → (depth : Nat) → Action σ Value
  | e, depth =>
    if depthLimit < depth then fail .tooDeep
    else match e with
    | .number x => return .number x
    | .text s => return .text s
    | .bool b => return .bool b
    | .var name span => locate span source (readVariable name)
    | .call function arguments span => do
      let values ← evaluateAllWith arguments (depth + 1)
      locate span source (call function values span)
    | .unary op operand => return applyUnary op (← evaluateWith operand (depth + 1))
    | .binary op left right _ => do
      let l ← evaluateWith left (depth + 1)
      match op, l.isTrue with
      | .and, false => return l
      | .or, true => return l
      | _, _ => return applyBinary op l (← evaluateWith right (depth + 1))

/-- The values of expressions. -/
def evaluateAllWith : List Expr → (depth : Nat) → Action σ (List Value)
  | [], _ => return []
  | e :: es, depth => do
    let value ← evaluateWith e depth
    return value :: (← evaluateAllWith es depth)

end

/-- Stop at a statement that is nested too deeply. -/
def checkDepthAt (depth : Nat) (span : Span) : Action σ Unit :=
  if depthLimit < depth then locate span source (fail .tooDeep) else return ()

/-- Execute a statement without a body. -/
def executeSimpleWith (s : Simple) (depth : Nat) : Action σ Unit := do
  checkDepthAt source depth s.span
  locate s.span source do
    match s with
    | .declare name value _ =>
      let v ← evaluateWith call source value (depth + 1)
      modifyEnv (·.declare name v)
    | .assign name .replace value _ =>
      assignVariable name (← evaluateWith call source value (depth + 1))
    | .assign name .add value _ =>
      let v ← evaluateWith call source value (depth + 1)
      let current ← readVariable name
      assignVariable name (current.add v)
    | .increment name _ =>
      let current ← readVariable name
      assignVariable name (.number (current.toNumber + 1))
    | .evaluate value _ =>
      let _ ← evaluateWith call source value (depth + 1)

/-- Whether a condition holds. -/
def testWith (condition : Expr) (depth : Nat) : Action σ Bool :=
  return (← evaluateWith call source condition depth).isTrue

/-- A part of the header of a loop, which may be missing. -/
def executeOptionalWith (s : Option Simple) (depth : Nat) : Action σ Unit :=
  match s with
  | some s => executeSimpleWith call source s depth
  | none => pure ()

/-- Whether a loop goes on. A missing condition always holds. -/
def testOptionalWith (condition : Option Expr) (depth : Nat) : Action σ Bool :=
  match condition with
  | some c => testWith call source c depth
  | none => pure true

mutual

/-- Execute a statement at a depth. -/
def executeWith (turns : Nat) : Stmt → (depth : Nat) → Action σ Flow
  | .simple s, depth => do
    executeSimpleWith call source s depth
    return .normal
  | .ifThen condition body span, depth => do
    checkDepthAt source depth span
    if ← locate span source (testWith call source condition (depth + 1)) then
      inScope (executeAllWith turns body (depth + 1))
    else
      return .normal
  | .ifElse condition body otherwise span, depth => do
    checkDepthAt source depth span
    if ← locate span source (testWith call source condition (depth + 1)) then
      inScope (executeAllWith turns body (depth + 1))
    else
      inScope (executeAllWith turns otherwise (depth + 1))
  | .while condition body span, depth => do
    checkDepthAt source depth span
    iterate turns do
      if ← locate span source (testWith call source condition (depth + 1)) then
        return (← inScope (executeAllWith turns body (depth + 1))) = .normal
      else
        return false
    return .normal
  | .for first condition update body span, depth => do
    checkDepthAt source depth span
    locate span source <| inScope do
      executeOptionalWith call source first (depth + 1)
      iterate turns do
        if ← testOptionalWith call source condition (depth + 1) then
          match ← inScope (executeAllWith turns body (depth + 1)) with
          | .broke => return false
          | .normal =>
            executeOptionalWith call source update (depth + 1)
            return true
        else
          return false
    return .normal
  | .break span, depth => do
    checkDepthAt source depth span
    return .broke
  | .block body span, depth => do
    checkDepthAt source depth span
    inScope (executeAllWith turns body (depth + 1))

/-- Execute statements one after the other, up to the first `break`. -/
def executeAllWith (turns : Nat) : List Stmt → (depth : Nat) → Action σ Flow
  | [], _ => return .normal
  | s :: ss, depth => do
    match ← executeWith turns s depth with
    | .normal => executeAllWith turns ss depth
    | .broke => return .broke

end

/-- Execute the statements of a program. -/
def executeTopWith (turns : Nat) : List Stmt → Action σ Unit
  | [] => return ()
  | s :: ss => do
    match ← executeWith call source turns s 0 with
    | .normal => executeTopWith turns ss
    | .broke => locate s.span source (fail .breakOutsideLoop)

end With

/-! ### Runs with the functions of a host -/

variable (setting : Setting σ) (turns : Nat)

theorem evaluateAllWith_eq_of {es : List Expr}
    (h : ∀ e ∈ es, ∀ depth,
      evaluateWith (callFunction setting) setting.source e depth = evaluate setting e depth)
    (depth : Nat) :
    evaluateAllWith (callFunction setting) setting.source es depth
      = evaluateAll setting es depth := by
  induction es with
  | nil => rw [evaluateAllWith, evaluateAll]
  | cons e es ih =>
    obtain ⟨hfirst, hothers⟩ := List.forall_mem_cons.mp h
    rw [evaluateAllWith, evaluateAll, hfirst, ih hothers]

theorem evaluateWith_eq (e : Expr) (depth : Nat) :
    evaluateWith (callFunction setting) setting.source e depth = evaluate setting e depth := by
  induction e using Expr.induction generalizing depth with
  | number | text | bool | var => rw [evaluateWith, evaluate]
  | call f arguments span ih =>
    rw [evaluateWith, evaluate, evaluateAllWith_eq_of setting ih]
  | unary op e ih => rw [evaluateWith, evaluate, ih]
  | binary op l r span ihl ihr =>
    rw [evaluateWith, ihl]
    simp only [ihr]
    rfl

theorem executeSimpleWith_eq (s : Simple) (depth : Nat) :
    executeSimpleWith (callFunction setting) setting.source s depth
      = executeSimple setting s depth := by
  unfold executeSimpleWith executeSimple
  simp only [evaluateWith_eq]
  rfl

theorem testWith_eq (c : Expr) (depth : Nat) :
    testWith (callFunction setting) setting.source c depth = test setting c depth := by
  unfold testWith test
  rw [evaluateWith_eq]

theorem executeOptionalWith_eq (s : Option Simple) (depth : Nat) :
    executeOptionalWith (callFunction setting) setting.source s depth
      = executeOptional setting s depth := by
  cases s with
  | none => rfl
  | some s => exact executeSimpleWith_eq setting s depth

theorem testOptionalWith_eq (c : Option Expr) (depth : Nat) :
    testOptionalWith (callFunction setting) setting.source c depth
      = testOptional setting c depth := by
  cases c with
  | none => rfl
  | some c => exact testWith_eq setting c depth

theorem executeAllWith_eq_of {ss : List Stmt}
    (h : ∀ s ∈ ss, ∀ depth,
      executeWith (callFunction setting) setting.source turns s depth
        = execute setting turns s depth)
    (depth : Nat) :
    executeAllWith (callFunction setting) setting.source turns ss depth
      = executeAll setting turns ss depth := by
  induction ss with
  | nil => rw [executeAllWith, executeAll]
  | cons s ss ih =>
    obtain ⟨hfirst, hothers⟩ := List.forall_mem_cons.mp h
    rw [executeAllWith, hfirst, ih hothers]
    rfl

theorem executeWith_eq (s : Stmt) (depth : Nat) :
    executeWith (callFunction setting) setting.source turns s depth
      = execute setting turns s depth := by
  induction s using Stmt.induction generalizing depth with
  | simple s => rw [executeWith, execute, executeSimpleWith_eq]
  | ifThen c body span ih =>
    rw [executeWith, execute, testWith_eq, executeAllWith_eq_of setting turns ih]
    rfl
  | ifElse c body otherwise span ihbody ihotherwise =>
    rw [executeWith, execute, testWith_eq, executeAllWith_eq_of setting turns ihbody,
      executeAllWith_eq_of setting turns ihotherwise]
    rfl
  | while_ c body span ih =>
    rw [executeWith, execute, testWith_eq, executeAllWith_eq_of setting turns ih]
    rfl
  | for_ first c update body span ih =>
    rw [executeWith, execute_for, executeOptionalWith_eq, testOptionalWith_eq,
      executeOptionalWith_eq, executeAllWith_eq_of setting turns ih]
    rfl
  | break_ span =>
    rw [executeWith, execute]
    rfl
  | block body span ih =>
    rw [executeWith, execute, executeAllWith_eq_of setting turns ih]
    rfl

/-- **With the functions of a host**, a run is the run of the program on the host. -/
theorem executeTopWith_eq (ss : List Stmt) :
    executeTopWith (callFunction setting) setting.source turns ss
      = executeTop setting turns ss := by
  induction ss with
  | nil => rw [executeTopWith, executeTop]
  | cons s ss ih =>
    rw [executeTopWith, executeWith_eq, ih]
    rfl

/-! ### Relations between runs -/

/-- A relation between the actions of two sorts of machines that the constructs of actions keep. -/
structure Congruence (R : ∀ {α : Type}, Action σ α → Action τ α → Prop) : Prop where
  pure {α : Type} (a : α) : R (pure a) (pure a)
  fail {α : Type} (cause : RunCause) : R (fail cause : Action σ α) (fail cause)
  bind {α β : Type} {x : Action σ α} {y : Action τ α} {f : α → Action σ β} {g : α → Action τ β} :
    R x y → (∀ a, R (f a) (g a)) → R (x >>= f) (y >>= g)
  locate {α : Type} {x : Action σ α} {y : Action τ α} (span : Span) (source : Nat) :
    R x y → R (locate span source x) (locate span source y)
  inScope {α : Type} {x : Action σ α} {y : Action τ α} : R x y → R (inScope x) (inScope y)
  readVariable (name : String) : R (readVariable name) (readVariable name)
  assignVariable (name : String) (value : Value) :
    R (assignVariable name value) (assignVariable name value)
  declare (name : String) (value : Value) :
    R (modifyEnv (·.declare name value)) (modifyEnv (·.declare name value))

namespace Congruence

variable {R : ∀ {α : Type}, Action σ α → Action τ α → Prop} {call : Functions σ}
  {call' : Functions τ} {source : Nat} {turns : Nat} {C : Span → Prop} {depth : Nat}

theorem iterate (hR : Congruence R) {turn : Action σ Bool} {turn' : Action τ Bool}
    (h : R turn turn') (turns : Nat) : R (iterate turns turn) (iterate turns turn') := by
  induction turns with
  | zero => exact hR.fail .outOfTurns
  | succ turns ih =>
    refine hR.bind h fun more => ?_
    -- both runs have the same answer, so they take the same turns
    cases more with
    | true => exact ih
    | false => exact hR.pure ()

theorem evaluateAll_of (hR : Congruence R) {es : List Expr}
    (h : ∀ e ∈ es, ∀ depth,
      R (evaluateWith call source e depth) (evaluateWith call' source e depth)) (depth : Nat) :
    R (evaluateAllWith call source es depth) (evaluateAllWith call' source es depth) := by
  induction es with
  | nil => exact hR.pure []
  | cons e es ih =>
    obtain ⟨hfirst, hothers⟩ := List.forall_mem_cons.mp h
    rw [evaluateAllWith, evaluateAllWith]
    exact hR.bind (hfirst depth) fun value => hR.bind (ih hothers) fun _ => hR.pure _

theorem executeAll_of (hR : Congruence R) {ss : List Stmt}
    (h : ∀ s ∈ ss, ∀ depth,
      R (executeWith call source turns s depth) (executeWith call' source turns s depth))
    (depth : Nat) :
    R (executeAllWith call source turns ss depth) (executeAllWith call' source turns ss depth) := by
  induction ss with
  | nil => exact hR.pure Flow.normal
  | cons s ss ih =>
    obtain ⟨hfirst, hothers⟩ := List.forall_mem_cons.mp h
    rw [executeAllWith, executeAllWith]
    refine hR.bind (hfirst depth) fun flow => ?_
    -- after a `break` neither of the runs goes on
    cases flow with
    | normal => exact ih hothers
    | broke => exact hR.pure Flow.broke

theorem checkDepth (hR : Congruence R) (depth : Nat) (span : Span) :
    R (checkDepthAt source depth span) (checkDepthAt source depth span) := by
  unfold checkDepthAt
  split
  · exact hR.locate span source (hR.fail .tooDeep)
  · exact hR.pure ()

section

variable (hR : Congruence R)
  (hcall : ∀ function arguments span, C span →
    R (Action.locate span source (call function arguments span))
      (Action.locate span source (call' function arguments span)))

include hR hcall

theorem evaluate {e : Expr} (hcalls : ∀ span ∈ e.calls, C span) (depth : Nat) :
    R (evaluateWith call source e depth) (evaluateWith call' source e depth) := by
  have htooDeep : R (Action.fail .tooDeep : Action σ Value) (Action.fail .tooDeep) :=
    hR.fail .tooDeep
  induction e using Expr.induction generalizing depth with
  | number | text | bool =>
    rw [evaluateWith, evaluateWith]
    split
    · exact htooDeep
    · exact hR.pure _
  | var name span =>
    rw [evaluateWith, evaluateWith]
    split
    · exact htooDeep
    · exact hR.locate span source (hR.readVariable name)
  | call f arguments span ih =>
    obtain ⟨hspan, harguments⟩ := List.forall_mem_cons.mp hcalls
    rw [Expr.forall_mem_callsAll] at harguments
    rw [evaluateWith, evaluateWith]
    split
    · exact htooDeep
    -- the arguments come first, and with equal values the calls are related
    · refine hR.bind ?_ fun values => hcall f values span hspan
      exact hR.evaluateAll_of (fun e he => ih e he (harguments e he)) (depth + 1)
  | unary op e ih =>
    rw [evaluateWith, evaluateWith]
    split
    · exact htooDeep
    · exact hR.bind (ih hcalls (depth + 1)) fun _ => hR.pure _
  | binary op l r span ihl ihr =>
    obtain ⟨hl, hr⟩ := List.forall_mem_append.mp hcalls
    rw [evaluateWith, evaluateWith]
    split
    · exact htooDeep
    · refine hR.bind (ihl hl (depth + 1)) fun value => ?_
      -- the two runs have the same left side, so they agree on whether the right one is needed
      split
      · exact hR.pure _
      · exact hR.pure _
      · exact hR.bind (ihr hr (depth + 1)) fun _ => hR.pure _

theorem executeSimple {s : Simple} (hcalls : ∀ span ∈ s.calls, C span) (depth : Nat) :
    R (executeSimpleWith call source s depth) (executeSimpleWith call' source s depth) := by
  unfold executeSimpleWith
  refine hR.bind (hR.checkDepth depth s.span) fun _ => hR.locate s.span source ?_
  cases s with
  | declare name e span =>
    exact hR.bind (hR.evaluate hcall hcalls _) fun value => hR.declare name value
  | assign name kind e span =>
    cases kind with
    | replace =>
      exact hR.bind (hR.evaluate hcall hcalls _) fun value => hR.assignVariable name value
    | add =>
      exact hR.bind (hR.evaluate hcall hcalls _) fun _ => hR.bind (hR.readVariable name) fun _ =>
        hR.assignVariable name _
  | increment name span =>
    exact hR.bind (hR.readVariable name) fun _ => hR.assignVariable name _
  | evaluate e span => exact hR.bind (hR.evaluate hcall hcalls _) fun _ => hR.pure ()

theorem test {c : Expr} (hcalls : ∀ span ∈ c.calls, C span) (depth : Nat) :
    R (testWith call source c depth) (testWith call' source c depth) :=
  hR.bind (hR.evaluate hcall hcalls depth) fun _ => hR.pure _

theorem executeOptional {s : Option Simple} (hcalls : ∀ span ∈ s.elim [] Simple.calls, C span)
    (depth : Nat) :
    R (executeOptionalWith call source s depth) (executeOptionalWith call' source s depth) := by
  cases s with
  | none => exact hR.pure ()
  | some s => exact hR.executeSimple hcall hcalls depth

theorem testOptional {c : Option Expr} (hcalls : ∀ span ∈ c.elim [] Expr.calls, C span)
    (depth : Nat) :
    R (testOptionalWith call source c depth) (testOptionalWith call' source c depth) := by
  cases c with
  | none => exact hR.pure true
  | some c => exact hR.test hcall hcalls depth

theorem execute {s : Stmt} (hcalls : ∀ span ∈ s.calls, C span) (depth : Nat) :
    R (executeWith call source turns s depth) (executeWith call' source turns s depth) := by
  induction s using Stmt.induction generalizing depth with
  | simple s =>
    rw [executeWith, executeWith]
    exact hR.bind (hR.executeSimple hcall hcalls depth) fun _ => hR.pure Flow.normal
  | ifThen c body span ih =>
    obtain ⟨hc, hbody⟩ := List.forall_mem_append.mp hcalls
    rw [Stmt.forall_mem_callsAll] at hbody
    rw [executeWith, executeWith]
    refine hR.bind (hR.checkDepth depth span) fun _ => ?_
    refine hR.bind (hR.locate span source (hR.test hcall hc _)) fun holds => ?_
    cases holds with
    | true => exact hR.inScope (hR.executeAll_of (fun s hs => ih s hs (hbody s hs)) _)
    | false => exact hR.pure Flow.normal
  | ifElse c body otherwise span ih ih' =>
    rw [Stmt.calls, List.forall_mem_append, List.forall_mem_append, Stmt.forall_mem_callsAll,
      Stmt.forall_mem_callsAll] at hcalls
    obtain ⟨hc, hbody, hotherwise⟩ := hcalls
    rw [executeWith, executeWith]
    refine hR.bind (hR.checkDepth depth span) fun _ => ?_
    refine hR.bind (hR.locate span source (hR.test hcall hc _)) fun holds => ?_
    cases holds with
    | true => exact hR.inScope (hR.executeAll_of (fun s hs => ih s hs (hbody s hs)) _)
    | false => exact hR.inScope (hR.executeAll_of (fun s hs => ih' s hs (hotherwise s hs)) _)
  | while_ c body span ih =>
    obtain ⟨hc, hbody⟩ := List.forall_mem_append.mp hcalls
    rw [Stmt.forall_mem_callsAll] at hbody
    rw [executeWith, executeWith]
    refine hR.bind (hR.checkDepth depth span) fun _ => ?_
    refine hR.bind (hR.iterate ?_ turns) fun _ => hR.pure Flow.normal
    refine hR.bind (hR.locate span source (hR.test hcall hc _)) fun holds => ?_
    cases holds with
    | true =>
      refine hR.bind (hR.inScope ?_) fun _ => hR.pure _
      exact hR.executeAll_of (fun s hs => ih s hs (hbody s hs)) _
    | false => exact hR.pure false
  | for_ first c update body span ih =>
    rw [Stmt.calls, List.forall_mem_append, List.forall_mem_append, List.forall_mem_append,
      Stmt.forall_mem_callsAll] at hcalls
    obtain ⟨hfirst, hc, hupdate, hbody⟩ := hcalls
    rw [executeWith, executeWith]
    refine hR.bind (hR.checkDepth depth span) fun _ => ?_
    -- one scope for the header, and below it another one for each turn
    refine hR.bind (hR.locate span source (hR.inScope ?_)) fun _ => hR.pure Flow.normal
    refine hR.bind (hR.executeOptional hcall hfirst _) fun _ => hR.iterate ?_ turns
    refine hR.bind (hR.testOptional hcall hc _) fun holds => ?_
    cases holds with
    | true =>
      refine hR.bind (hR.inScope ?_) fun flow => ?_
      · exact hR.executeAll_of (fun s hs => ih s hs (hbody s hs)) _
      · cases flow with
        | normal => exact hR.bind (hR.executeOptional hcall hupdate _) fun _ => hR.pure true
        | broke => exact hR.pure false
    | false => exact hR.pure false
  | break_ span =>
    rw [executeWith, executeWith]
    exact hR.bind (hR.checkDepth depth span) fun _ => hR.pure Flow.broke
  | block body span ih =>
    rw [Stmt.calls, Stmt.forall_mem_callsAll] at hcalls
    rw [executeWith, executeWith]
    refine hR.bind (hR.checkDepth depth span) fun _ => ?_
    exact hR.inScope (hR.executeAll_of (fun s hs => ih s hs (hcalls s hs)) _)

/-- **What relates the calls of a program relates its runs.** -/
theorem executeTop {ss : List Stmt} (hcalls : ∀ span ∈ Stmt.callsAll ss, C span) :
    R (executeTopWith call source turns ss) (executeTopWith call' source turns ss) := by
  induction ss with
  | nil => exact hR.pure ()
  | cons s ss ih =>
    obtain ⟨hfirst, hothers⟩ := List.forall_mem_append.mp hcalls
    rw [executeTopWith, executeTopWith]
    refine hR.bind (hR.execute hcall hfirst 0) fun flow => ?_
    -- a `break` that comes out here is a fault, and it has the same place in both runs
    cases flow with
    | normal => exact ih hothers
    | broke => exact hR.locate s.span source (hR.fail .breakOutsideLoop)

end

end Congruence

end Blockwork.Run
