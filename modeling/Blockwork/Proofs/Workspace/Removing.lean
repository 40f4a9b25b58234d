import Mathlib
import Blockwork.Proofs.Workspace.Finding

/-!
# Finding and removing agree

Four functions look for a placed block by its identifier: one finds it, one edits it, one gives its
depth and one removes it. Each goes through the workspace on its own, and the last one in another
order than the others. Where identifiers are pairwise distinct, either all of them come to the same
block (`Workspace.Has`) or none comes to any (`Workspace.Lacks`); and removing the block takes
exactly what is found, and changes of every other block nothing but that the block directly above
has lost it (`Workspace.Without`).

The main result is `Workspace.remove_iff_find`.
-/

namespace Blockwork

open scoped List

/-! ### The blocks above -/

section Above

variable {ι : Type}

theorem Block.ids_subset_of_mem_subtrees {b c : Block ι} (hc : c ∈ b.subtrees) : c.ids ⊆ b.ids := by
  rw [ids_eq_map, ids_eq_map]
  exact List.map_subset Block.id fun d hd => subtrees_trans hc hd

variable [DecidableEq ι] {id : ι}

/-- The blocks above the one with the identifier: all others that have it among those below. -/
def Block.above (id : ι) (b : Block ι) : List (Block ι) :=
  b.subtrees.filter fun c => c.id ≠ id ∧ id ∈ c.ids

theorem Block.above_eq_nil {b : Block ι} (h : id ∉ b.ids) : b.above id = [] := by
  refine List.filter_eq_nil_iff.mpr fun c hc habove => ?_
  exact h (ids_subset_of_mem_subtrees hc (of_decide_eq_true habove).2)

theorem Block.above_self {b : Block ι} (h : b.ids.Nodup) : b.above b.id = [] := by
  refine List.filter_eq_nil_iff.mpr fun c hc habove => ?_
  obtain ⟨hne, hmem⟩ := of_decide_eq_true habove
  rw [ids_eq] at h
  rcases mem_subtrees.mp hc with rfl | ⟨p, hp, hcp⟩
  · exact hne rfl
  · -- the identifier would be in a part, too
    exact (List.nodup_cons.mp h).1
      (List.mem_flatMap.mpr ⟨p, hp, ids_subset_of_mem_subtrees hcp hmem⟩)

theorem Block.above_of_mem {b : Block ι} (hid : b.id ≠ id) (hmem : id ∈ b.ids) :
    b.above id = b :: b.parts.flatMap (above id) := by
  unfold above
  rw [subtrees_eq, List.filter_cons, if_pos (decide_eq_true ⟨hid, hmem⟩), List.filter_flatMap]

/-- **The blocks above a block** are as many as its place is long. -/
theorem Place.length_above {p : Place ι} {b : Block ι} (hb : b.ids.Nodup) (hp : b.id ∉ p.ids) :
    ((p.fill b).above b.id).length = p.length := by
  induction p with
  | nil =>
    rw [fill_nil, Block.above_self hb]
    rfl
  | cons a p ih =>
    obtain ⟨ha, hp⟩ := not_mem_ids_cons.mp hp
    have hid : (a.fill (Place.fill b p)).id ≠ b.id :=
      ne_of_mem_of_not_mem (a.id_fill_mem_ids _) ha
    have hbelow : b.id ∈ (Place.fill b p).ids :=
      (Place.ids_fill p b).mem_iff.mpr (List.mem_append_left _ b.id_mem_ids)
    have hmem : b.id ∈ (a.fill (Place.fill b p)).ids :=
      Block.mem_ids_of_mem_parts (Around.mem_parts_self _ _) hbelow
    have hothers : a.others.flatMap (Block.above b.id) = [] :=
      List.flatMap_eq_nil_iff.mpr fun c hc =>
        Block.above_eq_nil (Around.not_mem_ids_others ha c hc)
    -- what is beside the place has none of them
    have hparts := ((a.parts_fill_perm (Place.fill b p)).flatMap_right (Block.above b.id)).length_eq
    rw [List.flatMap_cons, hothers, List.append_nil, ih hp] at hparts
    rw [fill_cons, Block.above_of_mem hid hmem, List.length_cons, hparts, List.length_cons]

/-- The blocks above a placed block. -/
def Root.above (id : ι) (roots : List (Root ι)) : List (Block ι) :=
  roots.flatMap fun root => root.block.above id

theorem Root.above_eq_nil {roots : List (Root ι)} (h : id ∉ idsAll roots) : above id roots = [] := by
  refine List.flatMap_eq_nil_iff.mpr fun root hroot => Block.above_eq_nil fun hi => h ?_
  exact List.mem_flatMap.mpr ⟨root.block, List.mem_map_of_mem hroot, hi⟩

theorem Site.length_above {s : Site ι} {b : Block ι} (h : (Root.idsAll (s.fill b)).Nodup) :
    (Root.above b.id (s.fill b)).length = s.place.length := by
  have hb : b.ids.Nodup := ((s.ids_fill b).nodup_iff.mp h).of_append_left
  obtain ⟨hplace, hbefore, hafter⟩ := not_mem_ids.mp (s.id_not_mem_ids h)
  have hbefore : Root.above b.id s.before = [] := Root.above_eq_nil hbefore
  have hafter : Root.above b.id s.after = [] := Root.above_eq_nil hafter
  unfold Root.above at hbefore hafter ⊢
  unfold fill
  rw [List.flatMap_append, List.flatMap_cons, hbefore, hafter, List.nil_append, List.append_nil]
  exact Place.length_above hb hplace

end Above

/-! ### What a removal leaves -/

/-- A face that has lost one of the blocks below: a child, where the others keep their order, or the
reporter of a slot, which is not filled any more. -/
inductive Face.Loses {ι : Type} (id : ι) : Face ι → Face ι → Prop
  | child (i : ι) (type : String) (slots : List (Slot ι)) (before after : List ι) :
      Loses id ⟨i, type, slots, before ++ id :: after⟩ ⟨i, type, slots, before ++ after⟩
  | slot (i : ι) (type : String) (before : List (Slot ι)) (name : String) (after : List (Slot ι))
      (children : List ι) :
      Loses id ⟨i, type, before ++ .reporter name id :: after, children⟩
        ⟨i, type, before ++ after, children⟩

theorem Around.loses {ι : Type} (a : Around ι) (b : Block ι) :
    (a.fill b).face.Loses b.id a.leave.face := by
  cases a with
  | slot i t before name after children =>
    change Face.Loses b.id
      ⟨i, t, (before ++ .reporter name b :: after).map (Slot.map Block.id), children.map Block.id⟩
      ⟨i, t, (before ++ after).map (Slot.map Block.id), children.map Block.id⟩
    rw [List.map_append, List.map_append, List.map_cons]
    exact .slot i t _ name _ _
  | child i t slots before after =>
    change Face.Loses b.id
      ⟨i, t, slots.map (Slot.map Block.id), (before ++ b :: after).map Block.id⟩
      ⟨i, t, slots.map (Slot.map Block.id), (before ++ after).map Block.id⟩
    rw [List.map_append, List.map_append, List.map_cons]
    exact .child i t _ _ _

namespace Workspace

variable {ws ws' : Workspace} {b : PlacedBlock} {id : BlockId}

/-- **No function that looks for the block comes to one.** -/
structure Lacks (ws : Workspace) (id : BlockId) : Prop where
  find? : ws.find? id = none
  editBlock : ∀ {β : Type} (edit : PlacedBlock → Except PlacementError (PlacedBlock × β)),
    ws.editBlock id edit = .error (.blockNotFound id)
  depthOf : ws.depthOf id = .error (.blockNotFound id)
  remove : ws.remove id = .error (.blockNotFound id)

/-- **Every function that looks for the block comes to this one**: it is found, an edit puts another
in its stead, and its depth is the number of blocks above it. -/
structure Has (ws : Workspace) (id : BlockId) (b : PlacedBlock) : Prop where
  find? : ws.find? id = some b
  editBlock : ∃ s : Site BlockId, ws.roots = s.fill b ∧
    ∀ {β : Type} (edit : PlacedBlock → Except PlacementError (PlacedBlock × β)),
      ws.editBlock id edit = (edit b).map fun (b', x) => ({ ws with roots := s.fill b' }, x)
  depthOf : ws.depthOf id = .ok (Root.above id ws.roots).length

/-- **What is left when a block has been removed.** -/
structure Without (ws : Workspace) (b : PlacedBlock) (ws' : Workspace) : Prop where
  blockCount : ws.blockCount = ws'.blockCount + b.count
  /-- Nothing of what has been removed is found. -/
  gone : ∀ i ∈ b.ids, ws'.find? i = none
  /-- The block directly above has lost this one. -/
  parent : ∀ i c, ws.find? i = some c → b ∈ c.parts →
    ∃ c', ws'.find? i = some c' ∧ c.face.Loses b.id c'.face
  /-- All other blocks are as they were. -/
  others : ∀ i c, ws.find? i = some c → i ∉ b.ids → b ∉ c.parts →
    ∃ c', ws'.find? i = some c' ∧ c'.face = c.face
  /-- The block was a root, or stood directly below another block. -/
  roots : (∃ before x y after, ws.roots = before ++ ⟨x, y, b⟩ :: after ∧
      ws'.roots = before ++ after) ∨
    ((∃ i c, ws.find? i = some c ∧ b ∈ c.parts) ∧
      ws'.roots.map Root.mark = ws.roots.map Root.mark)
  rest : ws' = { ws with roots := ws'.roots }

theorem lacks_of_find? (h : ws.find? id = none) : ws.Lacks id := by
  have hid : id ∉ ws.ids := find?_eq_none_iff.mp h
  have hlocate : locateIn? id ws.roots = none := locateIn?_eq_none hid
  refine ⟨h, fun edit => ?_, ?_, remove_eq_error hid⟩
  · rw [editBlock_eq, hlocate]
  · rw [depthOf_eq, hlocate]

theorem has_of_find? (hnodup : ws.ids.Nodup) (h : ws.find? id = some b) : ws.Has id b := by
  obtain ⟨rfl, s, hroots⟩ := exists_site_of_find? h
  have hids : (Root.idsAll (s.fill b)).Nodup := hroots ▸ hnodup
  have hs := s.id_not_mem_ids hids
  refine ⟨h, ⟨s, hroots, fun edit => editBlock_fill hroots hs edit⟩, ?_⟩
  rw [depthOf_fill hroots hs, hroots, s.length_above hids]

/-- A block directly above another stands at the site above. -/
theorem site_of_mem_parts {s : Site BlockId} {c : PlacedBlock} {i : BlockId}
    (hnodup : ws.ids.Nodup) (hroots : ws.roots = s.fill b) (hc : ws.find? i = some c)
    (hb : b ∈ c.parts) : ∃ (above : Site BlockId) (a : Around BlockId),
      s = above.below a ∧ c = a.fill b := by
  obtain ⟨-, above, habove⟩ := exists_site_of_find? hc
  obtain ⟨a, rfl⟩ := Block.exists_around hb
  have hids : (Root.idsAll (s.fill b)).Nodup := hroots ▸ hnodup
  have hsame : s.fill b = (above.below a).fill b := by
    rw [above.fill_below, ← hroots, habove]
  exact ⟨above, a, (Site.unique hids hsame rfl).1, rfl⟩

section Removed

variable (hnodup : ws.ids.Nodup) (hremove : ws.remove b.id = .ok (b, ws'))

include hnodup hremove

/-- What is left has distinct identifiers, and none of those that have been removed. -/
theorem nodup_of_remove : (ws'.ids ++ b.ids).Nodup :=
  (Operation.remove_perm hremove).1.nodup_iff.mpr hnodup

theorem find?_of_remove {i : BlockId} (hi : i ∈ b.ids) : ws'.find? i = none :=
  find?_eq_none_iff.mpr fun hleft =>
    List.disjoint_of_nodup_append (nodup_of_remove hnodup hremove) hleft hi

omit hnodup in
theorem blockCount_of_remove : ws.blockCount = ws'.blockCount + b.count := by
  have hlength := (Operation.remove_perm hremove).1.length_eq
  rwa [List.length_append, length_ids, length_ids, Block.length_ids, eq_comm] at hlength

end Removed

/-- **Removing a root.** -/
theorem without_root {before after : List (Root BlockId)} {x y : Int64} (hnodup : ws.ids.Nodup)
    (hroots : ws.roots = before ++ ⟨x, y, b⟩ :: after) :
    ∃ ws', ws.remove b.id = .ok (b, ws') ∧ ws.Without b ws' := by
  have hsite : ws.roots = (Site.mk before x y [] after).fill b := hroots
  have hids : (Root.idsAll ((Site.mk before x y [] after).fill b)).Nodup := hsite ▸ hnodup
  have hbefore := (Site.not_mem_ids.mp (Site.id_not_mem_ids hids)).2.1
  have hremove := remove_root hroots hbefore
  refine ⟨_, hremove, ?_⟩
  refine {
    blockCount := blockCount_of_remove hremove
    gone := fun i hi => find?_of_remove hnodup hremove hi
    parent := fun i c hc hb => ?_
    others := fun i c hc hi _ => ⟨c, ?_, rfl⟩
    roots := Or.inl ⟨before, x, y, after, hroots, rfl⟩
    rest := rfl }
  · -- nothing is above a root
    obtain ⟨above, a, hbelow, -⟩ := site_of_mem_parts hnodup hsite hc hb
    have hplace : [] = above.place ++ [a] := congrArg Site.place hbelow
    exact absurd hplace (by simp)
  · obtain ⟨hmem, rfl⟩ := mem_subtrees_of_find? hc
    have hleft := (nodup_of_remove hnodup hremove).of_append_left
    refine (find?_eq_some_iff (List.nodup_iff_count_le_one.mp hleft c.id)).mpr ⟨?_, rfl⟩
    rw [hroots] at hmem
    rcases Root.mem_subtrees_middle.mp hmem with hmem | hmem
    · exact absurd (Block.ids_subset_of_mem_subtrees hmem c.id_mem_ids) hi
    · exact hmem

/-- **Removing a block below another.** -/
theorem without_below {above : Site BlockId} {a : Around BlockId} (hnodup : ws.ids.Nodup)
    (hroots : ws.roots = (above.below a).fill b) :
    ∃ ws', ws.remove b.id = .ok (b, ws') ∧ ws.Without b ws' := by
  have hids : (Root.idsAll ((above.below a).fill b)).Nodup := hroots ▸ hnodup
  obtain ⟨ha, habove⟩ := Site.not_mem_ids_below.mp (Site.id_not_mem_ids hids)
  have hfilled : ws.roots = above.fill (a.fill b) := hroots.trans (above.fill_below a b)
  have hremove := remove_below hfilled ha habove
  -- nothing but this block goes from the block above
  have hexchanged :
      Exchanged ws { ws with roots := above.fill a.leave } (a.fill b) a.leave [b] [] :=
    ⟨a.exchange_leave b, above, hfilled, rfl⟩
  have hnew : ∀ i ∈ Block.idsAll ([] : List PlacedBlock), i ∉ ws.ids := List.forall_mem_nil _
  obtain ⟨hfound, hfound'⟩ := hexchanged.find?_self hnodup hnew
  have hpart : b ∈ (a.fill b).parts := Around.mem_parts_self _ _
  refine ⟨_, hremove, ?_⟩
  refine {
    blockCount := blockCount_of_remove hremove
    gone := fun i hi => find?_of_remove hnodup hremove hi
    parent := fun i c hc hb => ?_
    others := fun i c hc hi hb => ?_
    roots := Or.inr ⟨⟨_, _, hfound, hpart⟩, hexchanged.map_mark⟩
    rest := rfl }
  · obtain ⟨above', a', hbelow, rfl⟩ := site_of_mem_parts hnodup hroots hc hb
    have hplace : above.place ++ [a] = above'.place ++ [a'] := congrArg Site.place hbelow
    obtain rfl : a = a' := List.singleton_inj.mp (List.append_inj_right' hplace rfl)
    obtain ⟨-, rfl⟩ := mem_subtrees_of_find? hc
    exact ⟨a.leave, hfound', a.loses b⟩
  · refine hexchanged.exists_face hnodup hnew hc ?_ ?_
    · rwa [Block.idsAll_cons, Block.idsAll_nil, List.append_nil]
    · rintro rfl
      exact hb hpart

/-- **Finding and removing agree.** Where identifiers are distinct, every function that looks for a
block comes to the one that is found, or none comes to any. What is removed is what is found, with
all that is below it, and nothing else is lost. -/
theorem remove_iff_find (hnodup : ws.ids.Nodup) (id : BlockId) :
    (ws.find? id = none → ws.Lacks id) ∧
    ∀ b, ws.find? id = some b →
      ws.Has id b ∧ ∃ ws', ws.remove id = .ok (b, ws') ∧ ws.Without b ws' := by
  refine ⟨lacks_of_find?, fun b hb => ⟨has_of_find? hnodup hb, ?_⟩⟩
  obtain ⟨rfl, s, hroots⟩ := exists_site_of_find? hb
  rcases s.eq_root_or_below with hroot | ⟨above, a, rfl⟩
  · have hbare : ws.roots = s.before ++ ⟨s.x, s.y, b⟩ :: s.after := by
      rw [hroots, Site.fill, hroot, Place.fill_nil]
    exact without_root hnodup hbare
  · exact without_below hnodup hroots

/-- The reporter of a child is removed, and the child is left with an empty slot. -/
theorem remove_iff_find_reporter :
    twoRoots.ids.Nodup ∧ twoRoots.depthOf 3 = .ok 2 ∧
      ∃ b ws', twoRoots.find? 3 = some b ∧ twoRoots.remove 3 = .ok (b, ws') ∧
        twoRoots.Without b ws' ∧ ws'.find? 2 = some (.bare 2 "print") := by
  have hnodup : twoRoots.ids.Nodup := by decide
  obtain ⟨hhas, ws', hremove, hleft⟩ := (remove_iff_find hnodup 3).2 _ rfl
  refine ⟨hnodup, hhas.depthOf, _, ws', rfl, hremove, hleft, ?_⟩
  cases hremove
  rfl

end Workspace

end Blockwork
