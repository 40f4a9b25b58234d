import Blockwork.Run.Execute
import Blockwork.Script.Statement
import Blockwork.Workspace.Basic

/-!
# Running a workspace

A workspace is compiled, its program is read back and run on a host whose canvas has been cleared
first. The report keeps what can be said afterwards whether the run succeeded or not: the program,
the warnings, the fault at which it ended, and how many turns its loops took together, which the
guard has counted.

A guarded loop leaves as soon as the counter passes `Fragment.guardLimit`, so no loop takes more
than two turns beyond that.
-/

namespace Blockwork

open Run

/-- What is known after a run. -/
structure Report where
  program : Compiled
  warnings : Array Diagnostic
  fault : Option Diagnostic
  /-- The turns of all loops together. -/
  iterations : Nat
deriving DecidableEq

namespace Report

def succeeded (r : Report) : Bool :=
  r.fault.isNone

/-- Whether a guard has left its loop. -/
def guardTripped (r : Report) : Bool :=
  Fragment.guardLimit < r.iterations

end Report

/-- The number under which a compiled program is known in messages. -/
def compiledSource : Nat := 0

/-- The turns that a loop of a compiled program is allowed. -/
def guardedTurns : Nat :=
  Fragment.guardLimit + 2

/-- The turns that the guard has counted. -/
def countedTurns (env : Environment) : Nat :=
  match env.global.get? Fragment.guardVariable with
  | some (.number x) => if 0 < x then (Number.truncateWithin 0 (UInt64.size - 1) x).toNat else 0
  | _ => 0

/-- The fault of a compiled program that cannot be read back. -/
def unreadable (faults : List Script.ParseFault) : Diagnostic :=
  let text := match faults with
    | f :: _ => s!"generated program does not parse: {f.text}"
    | [] => "generated program does not parse"
  { Diagnostic.ofCause (.custom text) with
    span := faults.head?.map (·.span), source := compiledSource }

/-- Run trees of blocks as one program. The answer is the report and the machine afterwards. -/
def runBlocks {σ : Type} (r : Registry) (blocks : List PlacedBlock) (world : World σ)
    (host : σ) : Report × Machine σ :=
  -- the canvas is cleared even if the program cannot be read back
  let program := compileRoots r blocks
  let start := Machine.start (world.host.clearCanvas host)
  let (fault, machine) :=
    match Script.Program.parse program.executable compiledSource with
    | .error faults => (some (unreadable faults), start)
    | .ok parsed =>
      match run world guardedTurns parsed start with
      | (.ok (), m) => (none, m)
      | (.error d, m) => (some d, m)
  (⟨program, machine.diagnostics, fault, countedTurns machine.env⟩, machine)

/-- Run a workspace on a host. The answer is the report and the host afterwards. -/
def Workspace.run {σ : Type} (ws : Workspace) (host : Host σ) (seed : UInt64) (state : σ) :
    Report × σ :=
  let (report, machine) := runBlocks ws.registry ws.blocks ⟨host, ws.assets, seed⟩ state
  (report, machine.host)

end Blockwork
