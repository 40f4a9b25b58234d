import Blockwork.Run.Evaluate

/-!
# Executing statements

A statement ends normally or at a `break`, which goes up to the nearest loop around it. Every body
runs in a scope of its own; a `for` loop has one more, for what its header declares.

The turns that one loop may take are bounded by the argument `turns`. Nothing else in a run needs a
bound, since it follows the syntax tree. A run that reaches the bound ends with the cause
`RunCause.outOfTurns`, which is no fault of the program.
-/

namespace Blockwork.Run

open Script Blockwork.Run.Action

variable {σ : Type}

/-- How a statement ends. -/
inductive Flow where
  | normal
  | broke
deriving Repr, DecidableEq

/-- Assign to a variable that is declared. -/
def assignVariable (name : String) (value : Value) : Action σ Unit := do
  match (← get).env.assign? name value with
  | some env => modifyEnv fun _ => env
  | none => fail (.undefinedVariable name)

/-- Stop at a statement that is nested too deeply. -/
def checkDepth (setting : Setting σ) (depth : Nat) (span : Span) : Action σ Unit :=
  if depthLimit < depth then locate span setting.source (fail .tooDeep) else return ()

/-- Execute a statement without a body. -/
def executeSimple (setting : Setting σ) (s : Simple) (depth : Nat) : Action σ Unit := do
  checkDepth setting depth s.span
  locate s.span setting.source do
    match s with
    | .declare name value _ =>
      let v ← evaluate setting value (depth + 1)
      modifyEnv (·.declare name v)
    | .assign name .replace value _ =>
      assignVariable name (← evaluate setting value (depth + 1))
    | .assign name .add value _ =>
      let v ← evaluate setting value (depth + 1)
      -- the value comes first, so its faults count before that of the variable
      let current ← readVariable name
      assignVariable name (current.add v)
    | .increment name _ =>
      let current ← readVariable name
      assignVariable name (.number (current.toNumber + 1))
    | .evaluate value _ =>
      let _ ← evaluate setting value (depth + 1)

/-- Whether a condition of a statement holds. -/
def test (setting : Setting σ) (condition : Expr) (depth : Nat) : Action σ Bool :=
  return (← evaluate setting condition depth).isTrue

mutual

/-- Execute a statement at a depth. -/
def execute (setting : Setting σ) (turns : Nat) : Stmt → (depth : Nat) → Action σ Flow
  | .simple s, depth => do
    executeSimple setting s depth
    return .normal
  | .ifThen condition body span, depth => do
    checkDepth setting depth span
    if ← locate span setting.source (test setting condition (depth + 1)) then
      inScope (executeAll setting turns body (depth + 1))
    else
      return .normal
  | .ifElse condition body otherwise span, depth => do
    checkDepth setting depth span
    if ← locate span setting.source (test setting condition (depth + 1)) then
      inScope (executeAll setting turns body (depth + 1))
    else
      inScope (executeAll setting turns otherwise (depth + 1))
  | .while condition body span, depth => do
    checkDepth setting depth span
    iterate turns do
      if ← locate span setting.source (test setting condition (depth + 1)) then
        -- a break ends this loop and goes no further up
        return (← inScope (executeAll setting turns body (depth + 1))) = .normal
      else
        return false
    return .normal
  | .for first condition update body span, depth => do
    checkDepth setting depth span
    -- the scope of the header is there before its declaration and after the last turn
    locate span setting.source <| inScope do
      if let some s := first then
        executeSimple setting s (depth + 1)
      iterate turns do
        let goesOn ← match condition with
          | some c => test setting c (depth + 1)
          | none => pure true
        if goesOn then
          match ← inScope (executeAll setting turns body (depth + 1)) with
          | .broke => return false
          | .normal =>
            if let some s := update then
              executeSimple setting s (depth + 1)
            return true
        else
          return false
    return .normal
  | .break span, depth => do
    checkDepth setting depth span
    return .broke
  | .block body span, depth => do
    checkDepth setting depth span
    inScope (executeAll setting turns body (depth + 1))

/-- Execute statements one after the other, up to the first `break`. -/
def executeAll (setting : Setting σ) (turns : Nat) : List Stmt → (depth : Nat) → Action σ Flow
  | [], _ => return .normal
  | s :: ss, depth => do
    match ← execute setting turns s depth with
    | .normal => executeAll setting turns ss depth
    | .broke => return .broke

end

/-- Execute the statements of a program. A `break` that no loop takes is a fault. -/
def executeTop (setting : Setting σ) (turns : Nat) : List Stmt → Action σ Unit
  | [] => return ()
  | s :: ss => do
    match ← execute setting turns s 0 with
    | .normal => executeTop setting turns ss
    | .broke => locate s.span setting.source (fail .breakOutsideLoop)

/-- A bound on turns for scripts that come without one: a loop would take years to reach it. -/
def manyTurns : Nat := Nat.pow 10 15

/-- Run a program from a machine, with at most `turns` turns for each loop. -/
def run (world : World σ) (turns : Nat) (program : Program) (machine : Machine σ) :
    Except Diagnostic Unit × Machine σ :=
  (executeTop ⟨world, program.source⟩ turns program.statements).run machine

end Blockwork.Run
