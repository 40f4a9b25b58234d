import Mathlib
import Blockwork.Proofs.Snapshot.Reloading

/-!
# Edits in place

There are two ways to a block that is placed. An operation of the workspace that is given its
identifier checks the height of the tree around it. Whoever has looked the block up may also edit it
as a block of its own, and then the check is the one for a block in hand, as if the block were a
root.

So an edit in place may do what the operation refuses. It does so only by making a tree too high:
the two agree wherever the workspace after the edit is well placed, and a workspace that is not well
placed can be saved, but what is saved cannot be restored.

## Main results

* `Edit.ofPlaced_iff_inPlace`: the operation is the edit in place, as far as what it leaves can be
  saved and restored.
* `Edit.inPlace_too_high`: an edit in place that leaves a workspace which cannot.
-/

namespace Blockwork

open Snapshot
open scoped List

/-! ### What can be restored -/

/-- **What is saved can be restored** if and only if the workspace is well placed. -/
theorem Workspace.exists_restore_snapshot_iff {ws target : Workspace}
    (h : target.registry = ws.registry) :
    (∃ ws', target.restore ws.snapshot = .ok ws') ↔ ws.WellPlaced := by
  have hfits : (∀ root ∈ ws.snapshot.roots, RootFits target.registry root.block) ↔
      ws.WellPlaced := by
    rw [wellPlaced_iff, snapshot_eq, List.forall_mem_map, h]
    unfold blocks
    rw [List.forall_mem_map]
    refine forall₂_congr fun root _ => ?_
    unfold RootFits Fits Root.saved Block.saved
    dsimp only
    rw [Block.shape?_mapId, Block.wellFormed_mapId, Block.height_mapId, Nat.zero_add]
    exact and_left_comm
  constructor
  · rintro ⟨ws', hws'⟩
    exact hfits.mp (restored_of_restore hws').fits
  · intro hplaced
    obtain ⟨store, hstore⟩ := exists_assetStore (savedAssets_encoded ws.assets)
    exact exists_restore rfl hstore (hfits.mpr hplaced)

/-! ### The height of what is put in -/

theorem Slots.self_mem_put {β : Type} (s : Slot β) (slots : List (Slot β)) :
    s ∈ Slots.put s slots := by
  induction slots with
  | nil => exact List.mem_singleton_self s
  | cons t rest ih =>
    rw [Slots.put]
    split
    · exact List.mem_cons_of_mem t ih
    · split <;> exact List.mem_cons_self

namespace Edit

variable {r : Registry} {ws ws' : Workspace} {id : BlockId} {e : Edit}
  {given : List PlacedBlock} {b b' : PlacedBlock}

/-- What is put in stands directly below the edited block. -/
theorem mem_parts (h : e.ofBlock r b = .ok (b', given)) : ∀ c ∈ e.taken, c ∈ b'.parts := by
  cases e with
  | setLiteral | clearSlot | removeChild | moveChild => exact List.forall_mem_nil _
  | insertReporter slot c =>
    obtain ⟨_, hedit, he⟩ := except_map_eq_ok h
    cases he
    obtain ⟨-, -, -, rfl⟩ := Block.insertReporter_ok hedit
    refine List.forall_mem_singleton.mpr (List.mem_append_left _ ?_)
    exact Slots.mem_blocks.mpr ⟨slot, Slots.self_mem_put _ _⟩
  | pushChild c =>
    obtain ⟨_, hedit, he⟩ := except_map_eq_ok h
    cases he
    obtain ⟨-, rfl⟩ := Block.pushChild_ok hedit
    refine List.forall_mem_singleton.mpr (List.mem_append_right _ ?_)
    exact List.mem_append_right _ List.mem_cons_self
  | insertChild index c =>
    obtain ⟨_, hedit, he⟩ := except_map_eq_ok h
    cases he
    obtain ⟨-, hindex, rfl⟩ := Block.insertChild_ok hedit
    refine List.forall_mem_singleton.mpr (List.mem_append_right _ ?_)
    exact (List.mem_insertIdx hindex).mpr (Or.inl rfl)

/-- **What an edit in place leaves is well placed** if and only if the operation does the same;
otherwise the operation refuses it as too deep. -/
theorem ofPlaced_eq_of_inPlace (hsound : ws.Sound r) (htaken : ∀ c ∈ e.taken, c.Held r)
    (h : e.inPlace ws id = .ok (ws', given)) :
    e.ofPlaced ws id = if ws'.WellPlaced then .ok (ws', given) else .error .tooDeep := by
  obtain ⟨s, b, b', -, hedit, rfl, hroom⟩ := inPlace_ok h
  rw [hroom]
  refine if_congr ⟨fun hlow => ?_, fun hplaced c hc => ?_⟩ rfl rfl
  · rw [if_pos hlow] at hroom
    exact (Operation.keeps_edit hsound htaken hroom).1.wellPlaced
  · have hroot : s.place.fill b' ∈ (s.fill b').map Root.block :=
      List.mem_map_of_mem (List.mem_append_right _ List.mem_cons_self)
    -- what is put in lies one level below the block, at the end of a way within the limit
    have hheight := hplaced.height_le _ hroot
    have hdeep := s.place.length_add_height_le b'
    have hpart := Block.height_lt_of_mem_parts (mem_parts hedit c hc)
    omega

end Edit

/-! ### Containers in containers -/

namespace Desk

variable {ws : Workspace} {hand : List PlacedBlock} {n : Nat}

/-- Containers in each other, as many as this below the outermost one. -/
def tower : Nat → PlacedBlock
  | 0 => .bare 0 "forever"
  | n + 1 => .mk (n + 1) "forever" [] [tower n]

theorem height_tower (n : Nat) : (tower n).height = n + 1 := by
  induction n with
  | zero => rfl
  | succ n ih =>
    have hparts : (tower (n + 1)).parts = [tower n] := rfl
    rw [Block.height_eq, hparts, List.map_singleton, ih]
    exact Nat.add_comm 1 (n + 1)

theorem type_tower (n : Nat) : (tower n).type = "forever" := by
  cases n <;> rfl

/-- A tower with room above it goes into a further container. -/
theorem pushChild_tower (id : BlockId) (h : n + 2 ≤ heightLimit) :
    (Block.bare id "forever").pushChild .standard (tower n)
      = .ok (.mk id "forever" [] [tower n]) := by
  have hshape (b : PlacedBlock) (hb : b.type = "forever") :
      b.shape? .standard = some .container := by
    unfold Block.shape?
    rw [hb]
    rfl
  unfold Block.pushChild Block.checkChild checkHeight
  rw [hshape (.bare id "forever") rfl, hshape (tower n) (type_tower n), height_tower,
    if_neg (by simp), if_neg (by simp)]
  have hlow : ¬ heightLimit < 0 + 1 + (n + 1) := by omega
  simp only [hlow, if_false]
  rfl

/-- **Towers as high as the limit** can be made in hand. -/
theorem reachable_tower (h : Reachable .standard ⟨ws, hand⟩) (hws : ws.registry = .standard)
    (hn : n < heightLimit) : Reachable .standard ⟨ws, tower n :: hand⟩ := by
  induction n with
  | zero => exact h.tail (.inr (.make 0 "forever"))
  | succ n ih =>
    have hbelow := (ih (Nat.lt_of_succ_lt hn)).tail (.inr (.make (n + 1) "forever"))
    have hpush : (Edit.pushChild (tower n)).ofBlock ws.registry (.bare (n + 1) "forever")
        = .ok (tower (n + 1), []) := by
      change (Block.pushChild ws.registry _ _).map _ = _
      rw [hws, pushChild_tower (n + 1) hn]
      rfl
    exact hbelow.tail (.inl (.edit hpush (.refl _)))

/-- A root with this block as its only child. -/
def inRoot (b : PlacedBlock) : Workspace :=
  ⟨.standard, [⟨snapToGrid 0, snapToGrid 0, .mk 100 "forever" [] [b]⟩], [], 1⟩

theorem reachable_inRoot : Reachable .standard ⟨inRoot (.bare 101 "forever"), []⟩ := by
  have hmade : Reachable .standard ⟨.empty .standard, [.bare 100 "forever"]⟩ :=
    Relation.ReflTransGen.single (.inr (.make 100 "forever"))
  have hroot := hmade.run (.addRoot (.bare 100 "forever") 0 0) rfl (.refl _)
  have hother : Reachable .standard _ := hroot.tail (.inr (.make 101 "forever"))
  exact hother.run (.edit 100 (.pushChild (.bare 101 "forever"))) rfl (.refl _)

/-- A root whose child has a tower of the greatest height that can be a child at all. -/
theorem not_wellPlaced_inRoot :
    ¬ (inRoot (.mk 101 "forever" [] [tower 30])).WellPlaced := by
  intro hplaced
  have hroot : (Block.mk 100 "forever" [] [.mk 101 "forever" [] [tower 30]]).height ≤ 32 :=
    hplaced.height_le _ List.mem_cons_self
  have hinner : (Block.mk 101 "forever" [] [tower 30]).height < _ :=
    Block.height_lt_of_mem_parts (b := .mk 100 "forever" [] [_]) (List.mem_singleton_self _)
  have htower : (tower 30).height < (Block.mk 101 "forever" [] [tower 30]).height :=
    Block.height_lt_of_mem_parts (List.mem_singleton_self _)
  rw [height_tower] at htower
  omega

end Desk

namespace Edit

open Desk

/-- In place, the inner container is edited like one in hand. -/
theorem inPlace_inRoot {c b : PlacedBlock}
    (h : (Block.bare 101 "forever").pushChild .standard c = .ok b) :
    (pushChild c).inPlace (inRoot (.bare 101 "forever")) 101 = .ok (inRoot b, []) := by
  unfold inPlace
  rw [Workspace.editBlock_eq]
  change ((Block.pushChild Registry.standard (.bare 101 "forever") c).map _).map _ = _
  rw [h]
  rfl

/-! ### The two ways -/

/-- **The operation is the edit in place, as far as what it leaves can be saved and restored.** If
that cannot, the operation refuses, and the edit in place does not. -/
theorem ofPlaced_iff_inPlace {r : Registry} {d : Desk} (h : Reachable r d) (id : BlockId) (e : Edit)
    (htaken : ∀ c ∈ e.taken, c.Held r) (target : Workspace) (htarget : target.registry = r) :
    (∀ ws' given, e.ofPlaced d.workspace id = .ok (ws', given) ↔
      e.inPlace d.workspace id = .ok (ws', given) ∧
        ∃ ws'', target.restore ws'.snapshot = .ok ws'') ∧
    ∀ ws' given, e.inPlace d.workspace id = .ok (ws', given) →
      (¬ ∃ ws'', target.restore ws'.snapshot = .ok ws'') →
      e.ofPlaced d.workspace id = .error .tooDeep := by
  have hsound := (Desk.sound_of_reachable h).workspace
  have hrestore : ∀ {ws' given}, e.inPlace d.workspace id = .ok (ws', given) →
      ((∃ ws'', target.restore ws'.snapshot = .ok ws'') ↔ ws'.WellPlaced) := by
    intro ws' given hok
    obtain ⟨_, _, _, _, _, rfl, _⟩ := inPlace_ok hok
    exact Workspace.exists_restore_snapshot_iff (htarget.trans hsound.registry.symm)
  refine ⟨fun ws' given => ⟨fun hok => ?_, fun ⟨hok, hrestored⟩ => ?_⟩, ?_⟩
  · have hinPlace := hok
    rw [ofPlaced_eq] at hinPlace
    -- the operation checks the room, and then does what the edit in place does
    obtain ⟨⟨⟩, -, hinPlace⟩ := except_bind_eq_ok hinPlace
    refine ⟨hinPlace, (hrestore hinPlace).mpr ?_⟩
    exact (Operation.keeps_edit hsound htaken hok).1.wellPlaced
  · rw [ofPlaced_eq_of_inPlace hsound htaken hok, if_pos ((hrestore hok).mp hrestored)]
  · intro ws' given hok hlost
    rw [ofPlaced_eq_of_inPlace hsound htaken hok, if_neg (mt (hrestore hok).mpr hlost)]

/-- A container that is put into the inner one of two others. -/
theorem ofPlaced_iff_inPlace_forever :
    ∃ ws', (pushChild (tower 0)).ofPlaced (inRoot (.bare 101 "forever")) 101 = .ok (ws', []) ∧
      (pushChild (tower 0)).inPlace (inRoot (.bare 101 "forever")) 101 = .ok (ws', []) ∧
      ∃ ws'', (Workspace.empty .standard).restore ws'.snapshot = .ok ws'' := by
  have hreachable := reachable_tower reachable_inRoot rfl (show 0 < heightLimit by decide)
  have htaken := (Desk.sound_of_reachable hreachable).hand
  have hedit : (pushChild (tower 0)).ofPlaced (inRoot (.bare 101 "forever")) 101
      = .ok (inRoot (.mk 101 "forever" [] [tower 0]), []) := rfl
  have hboth := ofPlaced_iff_inPlace hreachable 101 (pushChild (tower 0)) htaken
    (.empty .standard) rfl
  exact ⟨_, hedit, (hboth.1 _ _).mp hedit⟩

/-- **An edit in place that is too high**: the operation refuses it, and what it leaves is lost when
it is saved. -/
theorem inPlace_too_high :
    ∃ (d : Desk) (id : BlockId) (c : PlacedBlock) (ws' : Workspace),
      Reachable .standard d ∧ c ∈ d.hand ∧ c.Held .standard ∧
      (pushChild c).inPlace d.workspace id = .ok (ws', []) ∧
      (pushChild c).ofPlaced d.workspace id = .error .tooDeep ∧
      ¬ ∃ ws'', (Workspace.empty .standard).restore ws'.snapshot = .ok ws'' := by
  have hreachable := reachable_tower reachable_inRoot rfl (show 30 < heightLimit by decide)
  have hsound := Desk.sound_of_reachable hreachable
  have hheld := hsound.hand _ List.mem_cons_self
  have hedit := inPlace_inRoot (pushChild_tower 101 (show 30 + 2 ≤ heightLimit by decide))
  refine ⟨_, 101, tower 30, _, hreachable, List.mem_cons_self, hheld, hedit, ?_, ?_⟩
  · have htaken : ∀ c ∈ (pushChild (tower 30)).taken, c.Held .standard :=
      List.forall_mem_singleton.mpr hheld
    rw [ofPlaced_eq_of_inPlace hsound.workspace htaken hedit,
      if_neg not_wellPlaced_inRoot]
  · exact mt (Workspace.exists_restore_snapshot_iff rfl).mp not_wellPlaced_inRoot

end Edit

end Blockwork
