import Mathlib
import Blockwork.Proofs.Workspace.Running

/-!
# The guard bounds every run

All loops of a workspace share one counter, and each of them leaves at the first turn beyond the
limit. The loop around goes on with its other children before it leaves in its turn, so that there
are turns beyond the limit: at most one for each container. What this comes to in the report of a run
is put together in `Workspace.Guarded`, and `Workspace.guarded_of_wellPlaced` says that every run of
a well placed workspace is guarded, on hosts that fail as on those that do not.

The places at which the guards of a program warn are read off its statements (`Program.guardSites`).
There is one for each container, so a run in which no place warns twice is a run in which each
container trips the guard at most once.
-/

namespace Blockwork

open Script Run
open Fragment (guardLimit)

variable {σ ν ι : Type}

/-! ### The guards of a program -/

namespace Script

/-- The place of a warning of the guard. -/
def Simple.guardSites : Simple → List Span
  | .evaluate (.call "warn" [.text t] span) _ => if IsGuardText t then [span] else []
  | _ => []

mutual

/-- The places at which a guard in the statement warns. -/
def Stmt.guardSites : Stmt → List Span
  | .simple s => s.guardSites
  | .ifThen _ body _ => Stmt.guardSitesAll body
  | .ifElse _ body otherwise _ => Stmt.guardSitesAll body ++ Stmt.guardSitesAll otherwise
  | .while _ body _ => Stmt.guardSitesAll body
  | .for _ _ _ body _ => Stmt.guardSitesAll body
  | .break _ => []
  | .block body _ => Stmt.guardSitesAll body

/-- The places at which a guard in the statements warns. -/
def Stmt.guardSitesAll : List Stmt → List Span
  | [] => []
  | s :: ss => Stmt.guardSites s ++ Stmt.guardSitesAll ss

end

/-- The places at which the guards of a program warn. -/
def Program.guardSites (p : Program) : List Span :=
  Stmt.guardSitesAll p.statements

theorem Stmt.guardSitesAll_append (ss ts : List Stmt) :
    guardSitesAll (ss ++ ts) = guardSitesAll ss ++ guardSitesAll ts := by
  induction ss with
  | nil => rfl
  | cons s ss ih => rw [List.cons_append, guardSitesAll, guardSitesAll, ih, List.append_assoc]

end Script

namespace Code

/-- A call of a command is no warning. -/
theorem guardSites_callStmt (verb : Verb) (argument : String) (m : Marks) :
    (callStmt verb.function argument m.inside 10).guardSites = [] := by
  unfold callStmt callExpr
  rw [Stmt.guardSites]
  cases verb <;> rfl

theorem guardSites_guardStmts (header : Header) (m : Marks) :
    Stmt.guardSitesAll (guardStmts header.name m.inside) = [m.callSpan] := by
  have hguard : IsGuardText (guardWarning header.name) := by
    cases header
    · exact Or.inl rfl
    · exact Or.inr rfl
  have hcall : (callStmt "warn" (guardWarning header.name) m.inside 10).guardSites
      = [m.callSpan] := by
    unfold callStmt callExpr
    rw [Stmt.guardSites]
    exact if_pos hguard
  unfold guardStmts leaveStmts
  rw [Stmt.guardSitesAll, Stmt.guardSitesAll, Stmt.guardSites, Stmt.guardSites,
    Stmt.guardSitesAll, Stmt.guardSitesAll, hcall]
  rfl

theorem guardSites_stmtAll_of {cs : List (Code Marks)} {depth : Nat}
    (h : ∀ c ∈ cs, (c.stmt depth).guardSites = c.loops.map Marks.callSpan) :
    Stmt.guardSitesAll (stmtAll depth cs) = (loopsAll cs).map Marks.callSpan := by
  induction cs with
  | nil => rfl
  | cons c cs ih =>
    rw [stmtAll, Stmt.guardSitesAll, loopsAll, List.map_append, h c List.mem_cons_self,
      ih fun d hd => h d (List.mem_cons_of_mem c hd)]

/-- **There is one guard for each loop.** -/
theorem guardSites_stmt (c : Code Marks) (depth : Nat) :
    (c.stmt depth).guardSites = c.loops.map Marks.callSpan := by
  induction c using Code.induction generalizing depth with
  | call m verb argument => exact guardSites_callStmt verb argument m
  | loop m header body ih =>
    have hbody : Stmt.guardSitesAll (guardStmts header.name m.inside ++ stmtAll (depth + 1) body)
        = m.callSpan :: (loopsAll body).map Marks.callSpan := by
      rw [Stmt.guardSitesAll_append, guardSites_guardStmts,
        guardSites_stmtAll_of fun c hc => ih c hc (depth + 1)]
      rfl
    rw [stmt, loops, List.map_cons, ← hbody]
    cases header with
    | count n =>
      unfold Header.stmt
      rw [Stmt.guardSites]
    | endless =>
      unfold Header.stmt
      rw [Stmt.guardSites]

end Code

/-! ### Containers -/

namespace Code

theorem length_loopsAll_mapAll_of {μ : Type} {f : ν → μ} {cs : List (Code ν)}
    (h : ∀ c ∈ cs, (c.map f).loops.length = c.loops.length) :
    (loopsAll (mapAll f cs)).length = (loopsAll cs).length := by
  induction cs with
  | nil => rfl
  | cons c cs ih =>
    rw [mapAll, loopsAll, loopsAll, List.length_append, List.length_append,
      h c List.mem_cons_self, ih fun d hd => h d (List.mem_cons_of_mem c hd)]

theorem length_loops_map {μ : Type} (f : ν → μ) (c : Code ν) :
    (c.map f).loops.length = c.loops.length := by
  induction c using Code.induction with
  | call => rfl
  | loop label header body ih =>
    rw [map, loops, loops, List.length_cons, List.length_cons, length_loopsAll_mapAll_of ih]

theorem length_loopsAll_mapAll {μ : Type} (f : ν → μ) (cs : List (Code ν)) :
    (loopsAll (mapAll f cs)).length = (loopsAll cs).length :=
  length_loopsAll_mapAll_of fun c _ => length_loops_map f c

end Code

namespace Block

/-- The number of containers in a tree. -/
def containers (r : Registry) (b : Block ι) : Nat :=
  b.subtrees.countP (·.shape? r = some .container)

variable {r : Registry}

theorem countP_slotSubtrees (p : Block ι → Bool) (slots : List (Slot (Block ι))) :
    (slotSubtrees slots).countP p
      = ((Slots.blocks slots).map fun b => b.subtrees.countP p).sum := by
  induction slots with
  | nil => rfl
  | cons s rest ih =>
    cases s with
    | literal n t => rw [slotSubtrees, ih, Slots.blocks_literal]
    | reporter n b =>
      rw [slotSubtrees, List.countP_append, ih, Slots.blocks_reporter, List.map_cons, List.sum_cons]

theorem countP_allSubtrees (p : Block ι → Bool) (bs : List (Block ι)) :
    (allSubtrees bs).countP p = (bs.map fun b => b.subtrees.countP p).sum := by
  induction bs with
  | nil => rfl
  | cons b rest ih => rw [allSubtrees, List.countP_append, ih, List.map_cons, List.sum_cons]

theorem containers_mk (i : ι) (t : String) (slots : List (Slot (Block ι)))
    (children : List (Block ι)) :
    (mk i t slots children).containers r
      = ((Slots.blocks slots).map (containers r)).sum + (children.map (containers r)).sum
        + if r.shape? t = some .container then 1 else 0 := by
  unfold containers
  rw [subtrees, List.countP_cons, List.countP_append, countP_slotSubtrees, countP_allSubtrees]
  simp only [decide_eq_true_eq]
  rfl

/-- A reporter has no loops. -/
theorem code_of_reporter {b : Block ι} (h : b.shape? r = some .reporter) : b.code r = [] := by
  obtain ⟨i, t, slots, children⟩ := b
  change r.shape? t = _ at h
  unfold Registry.shape? at h
  rw [Block.code]
  cases hk : r.kind? t with
  | none => rfl
  | some kind =>
    rw [hk] at h
    cases kind <;> first | rfl | cases h

theorem length_loops_codeAll {bs : List (Block ι)}
    (h : ∀ b ∈ bs, (Code.loopsAll (b.code r)).length = b.containers r) :
    (Code.loopsAll (codeAll r bs)).length = (bs.map (containers r)).sum := by
  induction bs with
  | nil => rfl
  | cons b rest ih =>
    rw [codeAll, Code.loopsAll_append, List.length_append, h b List.mem_cons_self,
      ih fun c hc => h c (List.mem_cons_of_mem b hc), List.map_cons, List.sum_cons]

/-- **Each container is a loop** of the code. -/
theorem length_loops_code {b : Block ι} (h : b.WellFormed r) :
    (Code.loopsAll (b.code r)).length = b.containers r := by
  induction b using Block.induction with
  | step b ih =>
    obtain ⟨i, t, slots, children⟩ := b
    have hslots : ((Slots.blocks slots).map (containers r)).sum = 0 := by
      refine List.sum_eq_zero fun n hn => ?_
      obtain ⟨c, hc, rfl⟩ := List.mem_map.mp hn
      have hpart : c ∈ (mk i t slots children).parts := List.mem_append_left _ hc
      rw [← ih c hpart (h.part hpart), code_of_reporter (h.obeys.slot_shape c hc)]
      rfl
    have hchildren : (Code.loopsAll (codeAll r children)).length
        = (children.map (containers r)).sum :=
      length_loops_codeAll fun c hc => ih c (List.mem_append_right _ hc) (h.child hc)
    -- without children there are no loops below the block
    have hcontainer : r.shape? t ≠ some .container → (children.map (containers r)).sum = 0 := by
      intro hne
      have hnil : children = [] := by
        by_contra hne'
        exact hne (h.obeys.container hne')
      rw [hnil]
      rfl
    rw [containers_mk, hslots, Block.code]
    unfold Registry.shape? at hcontainer ⊢
    cases hk : r.kind? t with
    | none =>
      rw [hk] at hcontainer
      rw [hcontainer (by decide)]
      rfl
    | some kind =>
      rw [hk] at hcontainer
      cases kind with
      | «repeat» | forever =>
        change (Code.loopsAll (codeAll r children) ++ []).length + 1 = _
        rw [List.append_nil, hchildren, Nat.zero_add]
        rfl
      | _ =>
        rw [hcontainer (by decide)]
        rfl

end Block

/-- The number of containers of a workspace. -/
def Workspace.containers (ws : Workspace) : Nat :=
  (ws.blocks.map (Block.containers ws.registry)).sum

namespace Workspace.Parsed

variable {ws : Workspace} {place : Nat → Span} {cs : List (Code Marks)}

theorem length_loops (h : ws.Parsed place cs) (hws : ws.WellPlaced) :
    (Code.loopsAll cs).length = ws.containers := by
  rw [← Code.length_loopsAll_mapAll (fun _ => ()) cs]
  refine (congrArg (fun ds => (Code.loopsAll ds).length) h.same).trans ?_
  unfold Code.bareAll
  rw [Code.length_loopsAll_mapAll, Block.length_loops_codeAll fun b hb =>
    Block.length_loops_code (hws.wellFormed b hb)]
  rfl

end Workspace.Parsed

/-! ### The guard in reports -/

/-- The warnings of a report that guards have issued. -/
def Report.guardWarnings (r : Report) : List Diagnostic :=
  r.warnings.toList.filter (IsGuardText ·.message)

/-- **What the guard makes sure of** in a run of a workspace. -/
structure Workspace.Guarded (ws : Workspace) (host : Host σ) (seed : UInt64) (state : σ) : Prop where
  /-- The run ends: its program can be read back, and it makes no difference how many turns beyond
  the limit a loop is allowed. -/
  terminates : ∃ program, Program.parse ws.compile.executable compiledSource = .ok program ∧
    ∀ turns, guardLimit < turns →
      Run.run (ws.world host seed) turns program (.start (host.clearCanvas state))
        = Run.run (ws.world host seed) guardedTurns program (.start (host.clearCanvas state))
  /-- It ends early only where the host fails. -/
  fault_cause : ∀ d, (ws.run host seed state).1.fault = some d → ∃ text, d.cause = .hostFailure text
  /-- Each container has its own guard in the program, and no guard warns twice. -/
  once : ∀ program, Program.parse ws.compile.executable compiledSource = .ok program →
    program.guardSites.Nodup ∧ program.guardSites.length = ws.containers ∧
      ∃ sites : List Span, (ws.run host seed state).1.guardWarnings.map (·.span) = sites.map some ∧
        sites.Nodup ∧ ∀ site ∈ sites, site ∈ program.guardSites
  /-- The guards warn once for each turn beyond the limit, as far as the counter is exact. -/
  warnings : (ws.run host seed state).1.iterations - guardLimit
    = min (ws.run host seed state).1.guardWarnings.length (exactLimit - guardLimit)
  /-- A workspace whose containers can be counted in a float keeps the counter exact. -/
  warnings_exact : ws.containers + guardLimit ≤ exactLimit →
    (ws.run host seed state).1.guardWarnings.length
      = (ws.run host seed state).1.iterations - guardLimit
  iterations_le : (ws.run host seed state).1.iterations ≤ guardLimit + ws.containers
  /-- The turns of the walk that is run are those that have passed and those that were left, and
  no more pass than the limit says. -/
  passed : ∀ bound, guardLimit < bound →
    (ws.walked host seed bound state).2.passed ≤ guardLimit ∧
      (ws.walked host seed bound state).2.turns
        = (ws.walked host seed bound state).2.passed
          + (ws.run host seed state).1.guardWarnings.length ∧
      (ws.run host seed state).1.iterations
        = min (ws.walked host seed bound state).2.turns exactLimit
  tripped : (ws.run host seed state).1.guardTripped = true ↔
    (ws.run host seed state).1.guardWarnings ≠ []

namespace Workspace.Parsed

variable {ws : Workspace} {place : Nat → Span} {cs : List (Code Marks)} {bound : Nat}

/-- The guard warnings of a report are those of the walk. -/
theorem guardWarnings_reportOf (program : Compiled)
    (p : Except (String × Marks) Unit × Walked σ Marks) :
    (reportOf program p).guardWarnings
      = (p.2.warnings.filter (IsGuardText ·.1)).map (warned compiledSource) := by
  unfold Report.guardWarnings reportOf
  dsimp only
  rw [List.filter_map]
  rfl

theorem spans_guardWarnings (program : Compiled)
    (p : Except (String × Marks) Unit × Walked σ Marks) :
    (reportOf program p).guardWarnings.map (·.span)
      = ((trips p.2.warnings).map Marks.callSpan).map some := by
  rw [guardWarnings_reportOf]
  unfold trips
  rw [List.map_map, List.map_map, List.map_map]
  rfl

theorem length_guardWarnings (program : Compiled)
    (p : Except (String × Marks) Unit × Walked σ Marks) :
    (reportOf program p).guardWarnings.length = (trips p.2.warnings).length := by
  rw [guardWarnings_reportOf]
  unfold trips
  rw [List.length_map, List.length_map]

/-- The turns of the walk of a program: those that have passed the guard, and one for each loop that
the guard has left. -/
theorem trips_walked (h : ws.Parsed place cs) (host : Host σ) (seed : UInt64) (state : σ) :
    (walked ws cs host seed bound state).2.Counts ∧
      (trips (walked ws cs host seed bound state).2.warnings).length
        = (walked ws cs host seed bound state).2.turns - guardLimit ∧
      (trips (walked ws cs host seed bound state).2.warnings).Nodup ∧
      ∀ m ∈ trips (walked ws cs host seed bound state).2.warnings, m ∈ Code.loopsAll cs := by
  have hcounts :
      Advances (.start (host.clearCanvas state)) (walked ws cs host seed bound state).2 :=
    Code.walkAll_keeps (stepsKeep_advances (ws.world host seed)) cs _
  have htrips : TripsWithin (Code.loopsAll cs) (.start (host.clearCanvas state))
      (walked ws cs host seed bound state).2 :=
    Code.walkAll_trips cs (h.nodup.of_map _) _
  obtain ⟨new, hnew, hlength, hmem, hnodup⟩ := htrips
  have hwarnings : (walked ws cs host seed bound state).2.warnings = new := hnew
  have hstart : (Walked.start (host.clearCanvas state) : Walked σ Marks).turns - guardLimit = 0 :=
    Nat.zero_sub guardLimit
  rw [hstart, Nat.add_zero] at hlength
  rw [hwarnings]
  exact ⟨hcounts.counts (Nat.zero_min guardLimit).symm, hlength, hnodup, hmem⟩

end Workspace.Parsed

namespace Workspace.Parsed

variable {ws : Workspace} {place : Nat → Span} {cs : List (Code Marks)} {bound : Nat}

theorem guardSites (h : ws.Parsed place cs) {program : Program}
    (hprogram : Program.parse ws.compile.executable compiledSource = .ok program) :
    program.guardSites = (Code.loopsAll cs).map Marks.callSpan := by
  rw [h.parse_eq] at hprogram
  obtain rfl := Except.ok.inj hprogram
  unfold Program.guardSites
  rw [Stmt.guardSitesAll, Code.guardSites_stmtAll_of fun c _ => Code.guardSites_stmt c 0]
  rfl

/-- **The figures of a report** and those of the walk. -/
theorem figures (h : ws.Parsed place cs) (hws : ws.WellPlaced) (hbound : guardLimit < bound)
    (host : Host σ) (seed : UInt64) (state : σ) :
    (ws.walked host seed bound state).2.passed
        = min (ws.walked host seed bound state).2.turns guardLimit ∧
      (ws.run host seed state).1.guardWarnings.length
        = (ws.walked host seed bound state).2.turns - guardLimit ∧
      (ws.run host seed state).1.guardWarnings.length ≤ ws.containers ∧
      (ws.run host seed state).1.iterations
        = min (ws.walked host seed bound state).2.turns exactLimit := by
  have hwalk : (walked ws cs host seed bound state).2.Counts ∧ _ := h.trips_walked host seed state
  obtain ⟨hcounts, hlength, hnodup, hmem⟩ := hwalk
  rw [← h.passed_walked, ← h.turns_walked, ← hlength, ← h.length_loops hws, h.run_eq hbound,
    length_guardWarnings]
  exact ⟨hcounts, rfl, (List.subperm_of_subset hnodup hmem).length_le, rfl⟩

end Workspace.Parsed

/-- **Every run of a well placed workspace is guarded**, whatever the host does. -/
theorem Workspace.guarded_of_wellPlaced {ws : Workspace} (h : ws.WellPlaced) (host : Host σ)
    (seed : UInt64) (state : σ) : ws.Guarded host seed state := by
  obtain ⟨place, cs, hparsed⟩ := h.parsed
  have hbound : guardLimit < guardedTurns := by decide
  have hrun := hparsed.run_eq hbound host seed state
  have hlimit : guardLimit < exactLimit := by decide
  obtain ⟨hpassed, hguards, hle, hiterations⟩ := hparsed.figures h hbound host seed state
  refine ⟨?_, ?_, ?_, ?_, ?_, ?_, ?_, ?_⟩
  · refine ⟨_, hparsed.parse_eq, fun turns hturns => ?_⟩
    rw [hparsed.run_eq_followed hbound hturns, hparsed.run_eq_followed hbound hbound]
  · intro d hd
    rw [hrun] at hd
    exact cause_faultOf hd
  · intro program hprogram
    -- a loop is left by the guard at most once, so no site is named twice
    have hwalk : (Parsed.walked ws cs host seed guardedTurns state).2.Counts ∧ _ :=
      hparsed.trips_walked host seed state
    obtain ⟨-, -, hnodup, hmem⟩ := hwalk
    rw [hparsed.guardSites hprogram, hrun, Parsed.spans_guardWarnings, List.length_map]
    refine ⟨hparsed.nodup, hparsed.length_loops h, _, rfl, ?_, ?_⟩
    · exact hnodup.map_on fun m hm m' hm' heq =>
        List.inj_on_of_nodup_map hparsed.nodup (hmem m hm) (hmem m' hm') heq
    · intro site hsite
      obtain ⟨m, hm, rfl⟩ := List.mem_map.mp hsite
      exact List.mem_map_of_mem (hmem m hm)
  · omega
  · omega
  · omega
  · intro bound hbound'
    obtain ⟨hpassed', hguards', -, hiterations'⟩ := hparsed.figures h hbound' host seed state
    omega
  · rw [← List.length_pos_iff]
    unfold Report.guardTripped
    rw [decide_eq_true_iff]
    omega

theorem Workspace.guarded_nested :
    nested.WellPlaced ∧ nested.Guarded Recording.host 7 (.start none [] []) := by
  have hplaced : nested.WellPlaced := by decide
  exact ⟨hplaced, guarded_of_wellPlaced hplaced Recording.host 7 (.start none [] [])⟩

end Blockwork
