import Mathlib
import Blockwork.Proofs.Run.Requests
import Blockwork.Proofs.Run.Simulation
import Blockwork.Proofs.Run.Trips

/-!
# The run of a workspace is the walk of its trees

A workspace is run as a program: its trees are written as a script, the script is read back, and its
statements are executed. None of this shows: the run asks the host for exactly what a direct walk of
the trees asks for (`Workspace.run_walks`), whatever texts are in the slots and however the loops
are nested, and it ends with a fault only where the host fails.

What every run comes to is `Workspace.run_eq`: there is code, the same as that of the trees but
labelled with places in the program, and the report of the run is read off the walk of that code.
-/

namespace Blockwork

open Script Run
open Fragment (guardLimit)

variable {σ ν : Type}

/-! ### What a host is asked -/

namespace Workspace

/-- The surroundings of a run of the workspace. -/
def world (ws : Workspace) (host : Host σ) (seed : UInt64) : World σ :=
  ⟨host, ws.assets, seed⟩

/-- How a walk of the trees ends. It begins with the canvas cleared. -/
def walked (ws : Workspace) (host : Host σ) (seed : UInt64) (bound : Nat) (state : σ) :
    Except (String × BlockId) Unit × Walked σ BlockId :=
  outcome (Block.walkAll ws.registry (ws.world host seed) bound ws.blocks)
    (.start (host.clearCanvas state))

end Workspace

/-! ### Reports -/

/-- The fault of a run that follows a walk with this end. -/
def faultOf : Except (String × Marks) Unit → Option Diagnostic
  | .ok () => none
  | .error e => some (failed compiledSource e)

/-- A walk ends early only where the host fails. -/
theorem cause_faultOf {result : Except (String × Marks) Unit} {d : Diagnostic}
    (h : faultOf result = some d) : ∃ text, d.cause = .hostFailure text := by
  rcases result with e | _
  · obtain rfl := Option.some.inj h
    exact ⟨e.1, rfl⟩
  · cases h

/-- The report of a run that follows a walk with this end. -/
def reportOf (program : Compiled) (p : Except (String × Marks) Unit × Walked σ Marks) : Report where
  program := program
  warnings := (p.2.warnings.map (warned compiledSource)).toArray
  fault := faultOf p.1
  iterations := min p.2.turns exactLimit

/-- The program of a workspace: what its parts are, and what code it has come from. -/
structure Workspace.Parsed (ws : Workspace) (place : Nat → Span) (cs : List (Code Marks)) :
    Prop where
  parse_eq : Program.parse ws.compile.executable compiledSource
    = .ok ⟨preludeStmt place :: Code.stmtAll 0 cs, compiledSource⟩
  same : Code.bareAll cs = Code.bareAll (Block.codeAll ws.registry ws.blocks)
  nodup : ((Code.loopsAll cs).map Marks.callSpan).Nodup
  height_le : ∀ c ∈ cs, c.height ≤ heightLimit
  fits : ∀ header ∈ Code.headersAll cs, header.Fits

theorem Workspace.WellPlaced.parsed {ws : Workspace} (h : ws.WellPlaced) :
    ∃ place cs, ws.Parsed place cs := by
  obtain ⟨place, cs, hparse, hsame, hnodup⟩ := parse_program compiledSource
    (fun b hb => ⟨h.wellFormed b hb, h.root_shape b hb⟩) h.height_le
  have hheight : ∀ c ∈ cs, c.height ≤ heightLimit :=
    Code.height_le_of_bareAll hsame (Block.height_codeAll_le ws.registry h.height_le)
  refine ⟨place, cs, hparse, hsame, hnodup, hheight, ?_⟩
  -- headers are read off the code without its labels
  have hheaders : Code.headersAll cs
      = Code.headersAll (Block.codeAll ws.registry ws.blocks) := by
    rw [← Code.headersAll_mapAll (fun _ => ()) cs]
    exact (congrArg Code.headersAll hsame).trans (Code.headersAll_mapAll _ _)
  rw [hheaders]
  exact Block.headers_codeAll_fit ws.registry ws.blocks

/-- The fault of a result. -/
def faultOfResult : Except Diagnostic Unit → Option Diagnostic
  | .ok () => none
  | .error d => some d

/-- The run of a program that can be read back. -/
theorem runBlocks_parsed {r : Registry} {blocks : List PlacedBlock} {parsed : Program}
    (h : Program.parse (compileRoots r blocks).executable compiledSource = .ok parsed)
    (world : World σ) (host : σ) :
    runBlocks r blocks world host =
      (⟨compileRoots r blocks,
        (run world guardedTurns parsed (.start (world.host.clearCanvas host))).2.diagnostics,
        faultOfResult (run world guardedTurns parsed (.start (world.host.clearCanvas host))).1,
        countedTurns
          (run world guardedTurns parsed (.start (world.host.clearCanvas host))).2.env⟩,
        (run world guardedTurns parsed (.start (world.host.clearCanvas host))).2) := by
  unfold runBlocks
  dsimp only
  rw [h]
  dsimp only
  rcases run world guardedTurns parsed (.start (world.host.clearCanvas host)) with ⟨_ | _, m⟩ <;> rfl

namespace Workspace.Parsed

variable {ws : Workspace} {place : Nat → Span} {cs : List (Code Marks)} {bound : Nat}

/-- The walk of the code of the program, from a cleared canvas. -/
def walked (ws : Workspace) (cs : List (Code Marks)) (host : Host σ) (seed : UInt64) (bound : Nat)
    (state : σ) : Except (String × Marks) Unit × Walked σ Marks :=
  outcome (Code.walkAll (ws.world host seed) bound cs) (.start (host.clearCanvas state))

/-- The program follows the walk with any turns that are enough for the guard. -/
theorem run_eq_followed (h : ws.Parsed place cs) (hbound : guardLimit < bound) {turns : Nat}
    (hturns : guardLimit < turns) (host : Host σ) (seed : UInt64) (state : σ) :
    Run.run (ws.world host seed) turns ⟨preludeStmt place :: Code.stmtAll 0 cs, compiledSource⟩
        (.start (host.clearCanvas state))
      = followed compiledSource [] id (walked ws cs host seed bound state) :=
  follows_program h.height_le h.fits hturns hbound place compiledSource (host.clearCanvas state)

/-- **What a run comes to**: the report of the walk of the code of the program. -/
theorem run_eq (h : ws.Parsed place cs) (hbound : guardLimit < bound) (host : Host σ)
    (seed : UInt64) (state : σ) :
    ws.run host seed state = (reportOf ws.compile (walked ws cs host seed bound state),
      (walked ws cs host seed bound state).2.host) := by
  have hturns : guardLimit < guardedTurns := by decide
  have hrun : Run.run ⟨host, ws.assets, seed⟩ guardedTurns
      ⟨preludeStmt place :: Code.stmtAll 0 cs, compiledSource⟩ (.start (host.clearCanvas state))
      = followed compiledSource [] id (walked ws cs host seed bound state) :=
    h.run_eq_followed hbound hturns host seed state
  unfold Workspace.run
  rw [runBlocks_parsed h.parse_eq]
  dsimp only
  rw [hrun]
  -- the counter is read back exactly, up to the limit of what floats can count
  have hcount : ∀ w : Walked σ Marks,
      countedTurns (machineAt compiledSource [] w).env = min w.turns exactLimit :=
    fun w => countedTurns_counter w.turns []
  rcases walked ws cs host seed bound state with ⟨e | _, w⟩
  · unfold followed reportOf
    dsimp only
    rw [hcount]
    rfl
  · unfold followed reportOf
    dsimp only
    rw [hcount]
    rfl

/-- The walk of the code of the program is that of the trees, but for the labels. -/
theorem relabelled_walked (h : ws.Parsed place cs) (host : Host σ) (seed : UInt64) (state : σ) :
    relabelled (fun _ => ()) (walked ws cs host seed bound state)
      = relabelled (fun _ => ()) (ws.walked host seed bound state) := by
  unfold walked Workspace.walked
  rw [Block.walkAll_eq]
  exact Code.walkAll_same h.same (.start (host.clearCanvas state)) rfl rfl

theorem turns_walked (h : ws.Parsed place cs) (host : Host σ) (seed : UInt64) (state : σ) :
    (walked ws cs host seed bound state).2.turns = (ws.walked host seed bound state).2.turns :=
  congrArg (·.2.turns) (h.relabelled_walked host seed state)

theorem passed_walked (h : ws.Parsed place cs) (host : Host σ) (seed : UInt64) (state : σ) :
    (walked ws cs host seed bound state).2.passed = (ws.walked host seed bound state).2.passed :=
  congrArg (·.2.passed) (h.relabelled_walked host seed state)

end Workspace.Parsed

/-- A loop without end in a counted one, with a sprite behind it. -/
def Workspace.nested : Workspace :=
  ⟨.standard,
    [⟨0, 40, .mk 1 "repeat" [.literal "input1" " 2x"]
      [.mk 2 "forever" [] [.mk 3 "print" [.reporter "input1" (.bare 4 "value")] []],
        .mk 5 "add_sprite" [.literal "imageinput1" "cat.png"] []]⟩],
    [⟨"cat.png", [137, 80]⟩], 6⟩

end Blockwork
