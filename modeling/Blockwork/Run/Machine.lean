import Blockwork.Run.Asset
import Blockwork.Run.Environment
import Blockwork.Run.Host

/-!
# The machine that runs scripts

A `Machine` is the part of a run that changes: the variables, the state of the host, the warnings so
far and the number of sprites drawn. What stays the same is its `Setting`. An `Action` changes the
machine and gives a value or stops, and what it changed stays changed also when it stops.
-/

namespace Blockwork.Run

open Script

/-- Why a run ends early. -/
inductive RunCause where
  | undefinedVariable (name : String)
  | undefinedFunction (name : String)
  | breakOutsideLoop
  | hostFailure (text : String)
  | tooDeep
  /-- A loop has used up the turns it was allowed, which says nothing about the program. -/
  | outOfTurns
  | custom (text : String)
deriving Repr, DecidableEq

def RunCause.message : RunCause → String
  | undefinedVariable name => s!"{name} is not defined"
  | undefinedFunction name => s!"{name} is not a function"
  | breakOutsideLoop => "`break` outside of a loop"
  | hostFailure text => s!"I/O error: {text}"
  | tooDeep => "nesting too deep"
  | outOfTurns => "loop did not end within the turns it was allowed"
  | custom text => text

/-- A fault or a warning of a run, and where in which source it lies, once that is known. -/
structure Diagnostic where
  cause : RunCause
  span : Option Span
  source : Nat
  warning : Bool
deriving Repr, DecidableEq

namespace Diagnostic

/-- A fault whose place is not known yet. -/
def ofCause (cause : RunCause) : Diagnostic :=
  ⟨cause, none, 0, false⟩

/-- The diagnostic with a place, unless it has one. -/
def locate (d : Diagnostic) (span : Span) (source : Nat) : Diagnostic :=
  if d.span.isSome then d else { d with span := some span, source }

def message (d : Diagnostic) : String :=
  d.cause.message

end Diagnostic

/-- The surroundings of a run: the host, the assets that can be drawn, and the seed that fixes where
sprites are placed. -/
structure World (σ : Type) where
  host : Host σ
  assets : AssetStore
  seed : UInt64

/-- What stays the same during a run: its surroundings, and the number of its source in messages. -/
structure Setting (σ : Type) extends World σ where
  source : Nat

/-- What a run changes. -/
structure Machine (σ : Type) where
  env : Environment
  host : σ
  diagnostics : Array Diagnostic
  /-- How many sprites have been drawn. -/
  drawn : Nat

/-- A machine at the start of a run. -/
def Machine.start {σ : Type} (host : σ) : Machine σ :=
  ⟨.empty, host, #[], 0⟩

/-- A step of a run. -/
abbrev Action (σ : Type) := ExceptT Diagnostic (StateM (Machine σ))

namespace Action

variable {σ α : Type}

/-- Stop at a fault whose place is not known yet. -/
def fail (cause : RunCause) : Action σ α :=
  throw (.ofCause cause)

/-- Give a place to the fault at which the action stops, unless it has one. -/
def locate (span : Span) (source : Nat) (action : Action σ α) : Action σ α :=
  ExceptT.mk do
    match ← action.run with
    | .error d => return .error (d.locate span source)
    | .ok a => return .ok a

/-- Change the variables. -/
def modifyEnv (f : Environment → Environment) : Action σ Unit :=
  modify fun m => { m with env := f m.env }

/-- Run the action in a scope of its own, which is gone afterwards, however the action ends. -/
def inScope (action : Action σ α) : Action σ α :=
  ExceptT.mk do
    modify fun m => { m with env := m.env.push }
    let result ← action.run
    -- the result is not looked at, so the scope goes also after a fault
    modify fun m => { m with env := m.env.pop }
    return result

/-- Ask the host something that may fail. -/
def ask (request : σ → Except String α × σ) : Action σ α := do
  let m ← get
  let (answer, host) := request m.host
  -- what the host has done stays, whatever it answers
  set { m with host }
  match answer with
  | .ok a => return a
  | .error text => fail (.hostFailure text)

/-- Change the state of the host by something that cannot fail. -/
def tell (request : σ → σ) : Action σ Unit :=
  modify fun m => { m with host := request m.host }

/-- Warn through the host and in the diagnostics. -/
def warn (setting : Setting σ) (text : String) (span : Span) : Action σ Unit := do
  tell (setting.host.warn text)
  modify fun m =>
    { m with diagnostics := m.diagnostics.push ⟨.custom text, some span, setting.source, true⟩ }

/-- Take turns until one says that it was the last. At most `turns` are taken. -/
def iterate : (turns : Nat) → (turn : Action σ Bool) → Action σ Unit
  | 0, _ => fail .outOfTurns
  | turns + 1, turn => do
    if ← turn then iterate turns turn

end Action

end Blockwork.Run
