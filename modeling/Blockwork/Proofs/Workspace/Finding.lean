import Mathlib
import Blockwork.Proofs.Block.Face
import Blockwork.Proofs.Workspace.Identity

/-!
# Finding a placed block

A placed block stands at a site, and an identifier that stands nowhere around the site leads there,
whichever operation looks for it: the block is located at its site (`Site.locateIn?_fill`), edited
there (`Workspace.editBlock_fill`) and taken out of there (`Workspace.remove_root`,
`Workspace.remove_below`). In a workspace whose identifiers are pairwise distinct this is so for
every block, and a block is found if and only if it is there (`Workspace.find?_eq_some_iff`).

What an exchange at a site leaves alone (`Workspace.Exchanged`) is what both an edit and a removal
leave alone.
-/

namespace Blockwork

open scoped List

/-! ### Sites of blocks -/

section Roots

variable {ι : Type} {roots : List (Root ι)} {s : Site ι} {b c : Block ι}

/-- The trees of roots and all trees below. -/
def Root.subtrees (roots : List (Root ι)) : List (Block ι) :=
  roots.flatMap fun root => root.block.subtrees

theorem Root.idsAll_eq_map (roots : List (Root ι)) :
    idsAll roots = (subtrees roots).map Block.id := by
  unfold idsAll subtrees Block.idsAll
  rw [List.flatMap_map, List.map_flatMap]
  exact List.flatMap_congr fun root _ => root.block.ids_eq_map

/-- **A subtree** stands at a site. -/
theorem Root.mem_subtrees_iff_site : c ∈ subtrees roots ↔ ∃ s : Site ι, s.fill c = roots := by
  unfold subtrees
  rw [List.mem_flatMap]
  constructor
  · rintro ⟨root, hroot, hc⟩
    obtain ⟨before, after, rfl⟩ := List.append_of_mem hroot
    obtain ⟨p, hp⟩ := Block.mem_subtrees_iff_place.mp hc
    refine ⟨⟨before, root.x, root.y, p, after⟩, ?_⟩
    unfold Site.fill
    rw [hp]
  · rintro ⟨s, rfl⟩
    refine ⟨⟨s.x, s.y, s.place.fill c⟩, List.mem_append_right _ List.mem_cons_self, ?_⟩
    exact Block.mem_subtrees_iff_place.mpr ⟨s.place, rfl⟩

theorem Root.mem_subtrees_middle {before after : List (Root ι)} {root : Root ι} :
    c ∈ subtrees (before ++ root :: after) ↔
      c ∈ root.block.subtrees ∨ c ∈ subtrees (before ++ after) := by
  unfold subtrees
  simp only [List.flatMap_append, List.flatMap_cons, List.mem_append]
  tauto

theorem Site.mem_subtrees_fill (s : Site ι) (b : Block ι) : b ∈ Root.subtrees (s.fill b) :=
  Root.mem_subtrees_iff_site.mpr ⟨s, rfl⟩

/-- Where identifiers are distinct, that of a block is not around it. -/
theorem Site.id_not_mem_ids (h : (Root.idsAll (s.fill b)).Nodup) : b.id ∉ s.ids :=
  List.disjoint_of_nodup_append ((s.ids_fill b).nodup_iff.mp h) b.id_mem_ids

theorem Site.not_mem_ids {i : ι} :
    i ∉ s.ids ↔ i ∉ s.place.ids ∧ i ∉ Root.idsAll s.before ∧ i ∉ Root.idsAll s.after := by
  unfold ids
  rw [List.mem_append, List.mem_append, not_or, not_or]

/-- The site of a part of the block at a site. -/
def Site.below (s : Site ι) (a : Around ι) : Site ι :=
  { s with place := s.place ++ [a] }

theorem Site.fill_below (s : Site ι) (a : Around ι) (b : Block ι) :
    (s.below a).fill b = s.fill (a.fill b) := by
  unfold fill below
  rw [Place.fill_concat]

theorem Site.not_mem_ids_below {a : Around ι} {i : ι} :
    i ∉ (s.below a).ids ↔ i ∉ a.ids ∧ i ∉ s.ids := by
  unfold below
  rw [not_mem_ids, not_mem_ids]
  simp only [Place.ids, List.flatMap_append, List.flatMap_cons, List.flatMap_nil, List.append_nil,
    List.mem_append, not_or]
  tauto

/-- A block is a root, or it is a part of the block above it. -/
theorem Site.eq_root_or_below (s : Site ι) :
    s.place = [] ∨ ∃ (above : Site ι) (a : Around ι), s = above.below a := by
  obtain ⟨before, x, y, place, after⟩ := s
  rcases place.eq_nil_or_concat with rfl | ⟨p, a, rfl⟩
  · exact Or.inl rfl
  · rw [List.concat_eq_append]
    exact Or.inr ⟨⟨before, x, y, p, after⟩, a, rfl⟩

/-- The place of a root on the canvas, and which root it is. -/
def Root.mark (root : Root ι) : Int64 × Int64 × ι :=
  (root.x, root.y, root.block.id)

theorem Site.map_mark_fill (h : c.id = b.id) :
    (s.fill c).map Root.mark = (s.fill b).map Root.mark := by
  have hroot : Root.mark ⟨s.x, s.y, s.place.fill c⟩ = Root.mark ⟨s.x, s.y, s.place.fill b⟩ := by
    unfold Root.mark
    rw [Place.id_fill h]
  unfold fill
  rw [List.map_append, List.map_append, List.map_cons, List.map_cons, hroot]

end Roots

/-! ### Finding -/

/-- Where no two members have one value, a member is found by its value. -/
theorem find?_eq_some_of_count {α β : Type} [DecidableEq β] {f : α → β} {xs : List α} {x : α}
    (hcount : (xs.map f).count (f x) ≤ 1) (hx : x ∈ xs) : xs.find? (f · = f x) = some x := by
  induction xs with
  | nil => cases hx
  | cons y ys ih =>
    rw [List.map_cons, List.count_cons] at hcount
    by_cases hy : f y = f x
    · have hnone : (ys.map f).count (f x) = 0 := by simpa [hy] using hcount
      rcases List.mem_cons.mp hx with rfl | hx
      · exact List.find?_cons_of_pos (decide_eq_true rfl)
      · exact absurd (List.mem_map_of_mem hx) (List.count_eq_zero.mp hnone)
    · rw [List.find?_cons_of_neg (by simpa using hy)]
      rcases List.mem_cons.mp hx with rfl | hx
      · exact absurd rfl hy
      · exact ih (by omega) hx

namespace Workspace

variable {ws ws' : Workspace} {s : Site BlockId} {b c : PlacedBlock} {id : BlockId}

theorem find?_eq (ws : Workspace) (id : BlockId) :
    ws.find? id = (Root.subtrees ws.roots).find? (·.id = id) := by
  unfold find? blocks Root.subtrees
  rw [List.find?_flatMap, List.findSome?_map]
  rfl

theorem mem_subtrees_of_find? (h : ws.find? id = some c) :
    c ∈ Root.subtrees ws.roots ∧ c.id = id := by
  rw [find?_eq] at h
  have hid : decide (c.id = id) = true :=
    List.find?_some (p := fun b : PlacedBlock => decide (b.id = id)) h
  exact ⟨List.mem_of_find?_eq_some h, of_decide_eq_true hid⟩

/-- **A block is found** if and only if it is there, unless there are others with its
identifier. -/
theorem find?_eq_some_iff (h : ws.ids.count id ≤ 1) :
    ws.find? id = some c ↔ c ∈ Root.subtrees ws.roots ∧ c.id = id := by
  have hids : ws.ids = (Root.subtrees ws.roots).map Block.id := Root.idsAll_eq_map ws.roots
  refine ⟨mem_subtrees_of_find?, ?_⟩
  rintro ⟨hc, rfl⟩
  rw [hids] at h
  rw [find?_eq]
  exact find?_eq_some_of_count h hc

theorem find?_eq_none_iff : ws.find? id = none ↔ id ∉ ws.ids := by
  rw [← find?_isSome, Option.not_isSome_iff_eq_none]

theorem exists_site_of_find? (h : ws.find? id = some b) :
    b.id = id ∧ ∃ s : Site BlockId, ws.roots = s.fill b := by
  obtain ⟨hmem, hid⟩ := mem_subtrees_of_find? h
  obtain ⟨s, hs⟩ := Root.mem_subtrees_iff_site.mp hmem
  exact ⟨hid, s, hs.symm⟩

/-! ### Locating -/

theorem locateIn?_eq_none {roots : List (Root BlockId)} (h : id ∉ Root.idsAll roots) :
    locateIn? id roots = none := by
  cases hlocate : locateIn? id roots with
  | none => rfl
  | some found =>
    obtain ⟨s, c⟩ := found
    obtain ⟨rfl, rfl⟩ := fill_of_locateIn? hlocate
    exact absurd ((s.ids_fill c).mem_iff.mpr (List.mem_append_left _ c.id_mem_ids)) h

end Workspace

/-- **A block is located at its site.** -/
theorem Site.locateIn?_fill {s : Site BlockId} {b : PlacedBlock} (h : b.id ∉ s.ids) :
    Workspace.locateIn? b.id (s.fill b) = some (s, b) := by
  obtain ⟨before, x, y, p, after⟩ := s
  obtain ⟨hplace, hbefore, -⟩ := not_mem_ids.mp h
  clear h
  unfold fill
  dsimp only at hplace hbefore ⊢
  induction before with
  | nil =>
    rw [List.nil_append, Workspace.locateIn?, Place.locate?_fill hplace]
  | cons r before ih =>
    rw [Root.idsAll_cons, List.mem_append, not_or] at hbefore
    rw [List.cons_append, Workspace.locateIn?, Block.locate?_eq_none hbefore.1, ih hbefore.2]
    rfl

/-- **A block stands at one site** where identifiers are distinct. -/
theorem Site.unique {s s' : Site BlockId} {b b' : PlacedBlock}
    (h : (Root.idsAll (s.fill b)).Nodup) (hroots : s.fill b = s'.fill b') (hid : b.id = b'.id) :
    s = s' ∧ b = b' := by
  have hs := locateIn?_fill (s.id_not_mem_ids h)
  rw [hroots] at hs h
  rw [hid, locateIn?_fill (s'.id_not_mem_ids h)] at hs
  obtain ⟨rfl, rfl⟩ := Prod.mk.inj (Option.some.inj hs)
  exact ⟨rfl, rfl⟩

namespace Workspace

variable {ws ws' : Workspace} {s : Site BlockId} {a : Around BlockId} {b : PlacedBlock}
  {id : BlockId}

/-- **An edit by identifier** edits the block at the site. -/
theorem editBlock_fill {β : Type} (hroots : ws.roots = s.fill b) (h : b.id ∉ s.ids)
    (edit : PlacedBlock → Except PlacementError (PlacedBlock × β)) :
    ws.editBlock b.id edit
      = (edit b).map fun (b', x) => ({ ws with roots := s.fill b' }, x) := by
  rw [editBlock_eq, hroots, Site.locateIn?_fill h]

theorem depthOf_fill (hroots : ws.roots = s.fill b) (h : b.id ∉ s.ids) :
    ws.depthOf b.id = .ok s.place.length := by
  rw [depthOf_eq, hroots, Site.locateIn?_fill h]

/-! ### Removing -/

theorem takeRoot?_eq_none {roots : List (Root BlockId)} (h : ∀ r ∈ roots, r.block.id ≠ id) :
    takeRoot? id roots = none := by
  induction roots with
  | nil => rfl
  | cons r rest ih =>
    obtain ⟨hr, hrest⟩ := List.forall_mem_cons.mp h
    rw [takeRoot?, if_neg hr, ih hrest]
    rfl

theorem takeRoot?_middle {before after : List (Root BlockId)} {root : Root BlockId}
    (hbefore : ∀ r ∈ before, r.block.id ≠ root.block.id) :
    takeRoot? root.block.id (before ++ root :: after) = some (root.block, before ++ after) := by
  induction before with
  | nil => exact if_pos rfl
  | cons r before ih =>
    obtain ⟨hr, hbefore⟩ := List.forall_mem_cons.mp hbefore
    rw [List.cons_append, takeRoot?, if_neg hr, ih hbefore]
    rfl

theorem detachIn?_eq_none {roots : List (Root BlockId)} (h : id ∉ Root.idsAll roots) :
    detachIn? id roots = none := by
  induction roots with
  | nil => rfl
  | cons r rest ih =>
    rw [Root.idsAll_cons, List.mem_append, not_or] at h
    rw [detachIn?, Block.detach?_eq_none h.1, ih h.2]
    rfl

theorem detachIn?_middle {before : List (Root BlockId)} (root : Root BlockId)
    (after : List (Root BlockId)) {found rest : PlacedBlock} (hbefore : id ∉ Root.idsAll before)
    (h : root.block.detach? id = some (found, rest)) :
    detachIn? id (before ++ root :: after)
      = some (found, before ++ { root with block := rest } :: after) := by
  induction before with
  | nil =>
    rw [List.nil_append, detachIn?, h]
    rfl
  | cons r before ih =>
    rw [Root.idsAll_cons, List.mem_append, not_or] at hbefore
    rw [List.cons_append, detachIn?, Block.detach?_eq_none hbefore.1, ih hbefore.2]
    rfl

theorem id_ne_of_not_mem_idsAll {roots : List (Root BlockId)} (h : id ∉ Root.idsAll roots) :
    ∀ r ∈ roots, r.block.id ≠ id := by
  rintro r hr rfl
  exact h (List.mem_flatMap.mpr ⟨r.block, List.mem_map_of_mem hr, r.block.id_mem_ids⟩)

/-- **A root is removed** from among the others. -/
theorem remove_root {before after : List (Root BlockId)} {root : Root BlockId}
    (hroots : ws.roots = before ++ root :: after)
    (hbefore : root.block.id ∉ Root.idsAll before) :
    ws.remove root.block.id = .ok (root.block, { ws with roots := before ++ after }) := by
  unfold remove
  rw [hroots, takeRoot?_middle (id_ne_of_not_mem_idsAll hbefore)]
  rfl

/-- **A block below a root is removed** from its place. -/
theorem remove_below (hroots : ws.roots = s.fill (a.fill b)) (ha : b.id ∉ a.ids)
    (hs : b.id ∉ s.ids) : ws.remove b.id = .ok (b, { ws with roots := s.fill a.leave }) := by
  obtain ⟨hplace, hbefore, hafter⟩ := Site.not_mem_ids.mp hs
  have hroot : (s.place.fill (a.fill b)).id ≠ b.id := Place.id_fill_ne ha hplace
  -- none of the roots is the block
  have hnone : takeRoot? b.id (s.fill (a.fill b)) = none := by
    refine takeRoot?_eq_none (List.forall_mem_append.mpr ⟨?_, List.forall_mem_cons.mpr ⟨hroot, ?_⟩⟩)
    · exact id_ne_of_not_mem_idsAll hbefore
    · exact id_ne_of_not_mem_idsAll hafter
  have hdetach := detachIn?_middle ⟨s.x, s.y, s.place.fill (a.fill b)⟩ s.after hbefore
    (Place.detach?_fill ha hplace)
  unfold remove
  rw [hroots, hnone, Option.none_or]
  unfold Site.fill
  rw [hdetach]

theorem remove_eq_error (h : id ∉ ws.ids) : ws.remove id = .error (.blockNotFound id) := by
  unfold remove
  rw [takeRoot?_eq_none (id_ne_of_not_mem_idsAll h), detachIn?_eq_none h]
  rfl

/-! ### Exchanges at a site -/

/-- One placed block is another, which has lost parts and got others. -/
structure Exchanged (ws ws' : Workspace) (x y : PlacedBlock) (dropped added : List PlacedBlock) :
    Prop where
  exchange : Block.Exchange x y dropped added
  exists_site : ∃ s : Site BlockId, ws.roots = s.fill x ∧ ws' = { ws with roots := s.fill y }

namespace Exchanged

variable {x y : PlacedBlock} {dropped added : List PlacedBlock} {i : BlockId}

theorem ids_perm (h : Exchanged ws ws' x y dropped added) :
    ws'.ids ++ Block.idsAll dropped ~ ws.ids ++ Block.idsAll added := by
  obtain ⟨hexchange, s, hroots, rfl⟩ := h
  change Root.idsAll (s.fill y) ++ _ ~ Root.idsAll ws.roots ++ _
  rw [hroots, List.perm_iff_count]
  intro i
  have hparts := hexchange.ids_perm.count_eq i
  have hx := (s.ids_fill x).count_eq i
  have hy := (s.ids_fill y).count_eq i
  simp only [List.count_append] at hparts hx hy ⊢
  omega

/-- An identifier that has been there is there once, unless its block has been dropped. -/
theorem count_eq (h : Exchanged ws ws' x y dropped added) (hnodup : ws.ids.Nodup)
    (hnew : ∀ i ∈ Block.idsAll added, i ∉ ws.ids) (hi : i ∈ ws.ids) :
    ws'.ids.count i + (Block.idsAll dropped).count i = 1 := by
  have hperm := h.ids_perm.count_eq i
  have hold : ws.ids.count i = 1 := List.count_eq_one_of_mem hnodup hi
  have hadded : (Block.idsAll added).count i = 0 :=
    List.count_eq_zero.mpr fun hadded => hnew i hadded hi
  simp only [List.count_append] at hperm
  omega

/-- **The identifiers that are gone** are those of what has been dropped. -/
theorem not_mem_ids_iff (h : Exchanged ws ws' x y dropped added) (hnodup : ws.ids.Nodup)
    (hnew : ∀ i ∈ Block.idsAll added, i ∉ ws.ids) (hi : i ∈ ws.ids) :
    i ∉ ws'.ids ↔ i ∈ Block.idsAll dropped := by
  have hcount := h.count_eq hnodup hnew hi
  rw [← List.count_eq_zero, ← List.count_pos_iff]
  omega

/-- **What is not found any more** is what has been dropped. -/
theorem gone_iff (h : Exchanged ws ws' x y dropped added) (hnodup : ws.ids.Nodup)
    (hnew : ∀ i ∈ Block.idsAll added, i ∉ ws.ids) :
    (ws.find? i).isSome = true ∧ ws'.find? i = none ↔ i ∈ Block.idsAll dropped := by
  rw [find?_isSome, find?_eq_none_iff]
  constructor
  · rintro ⟨hi, hgone⟩
    exact (h.not_mem_ids_iff hnodup hnew hi).mp hgone
  · intro hdropped
    obtain ⟨s, hroots, -⟩ := h.exists_site
    have hi : i ∈ Root.idsAll ws.roots := by
      rw [hroots]
      refine (s.ids_fill x).mem_iff.mpr (List.mem_append_left _ ?_)
      exact h.exchange.dropped_subset hdropped
    exact ⟨hi, (h.not_mem_ids_iff hnodup hnew hi).mpr hdropped⟩

/-- The exchanged block is found before and after. -/
theorem find?_self (h : Exchanged ws ws' x y dropped added) (hnodup : ws.ids.Nodup)
    (hnew : ∀ i ∈ Block.idsAll added, i ∉ ws.ids) :
    ws.find? x.id = some x ∧ ws'.find? x.id = some y := by
  have hexchanged := h
  obtain ⟨hexchange, s, hroots, rfl⟩ := h
  have hx : x ∈ Root.subtrees ws.roots := hroots ▸ s.mem_subtrees_fill x
  have hfound : ws.find? x.id = some x :=
    (find?_eq_some_iff (List.nodup_iff_count_le_one.mp hnodup x.id)).mpr ⟨hx, rfl⟩
  have hmem : x.id ∈ ws.ids := find?_isSome.mp (Option.isSome_of_mem hfound)
  have hcount := hexchanged.count_eq hnodup hnew hmem
  exact ⟨hfound, (find?_eq_some_iff (by omega)).mpr ⟨s.mem_subtrees_fill y, hexchange.id⟩⟩

/-- **What stays** keeps its face. -/
theorem exists_face (h : Exchanged ws ws' x y dropped added) (hnodup : ws.ids.Nodup)
    (hnew : ∀ i ∈ Block.idsAll added, i ∉ ws.ids) {c : PlacedBlock}
    (hc : ws.find? i = some c) (hdropped : i ∉ Block.idsAll dropped) (hx : c ≠ x) :
    ∃ c', ws'.find? i = some c' ∧ c'.face = c.face := by
  have hcount := h.count_eq hnodup hnew (find?_isSome.mp (Option.isSome_of_mem hc))
  obtain ⟨hexchange, s, hroots, rfl⟩ := h
  obtain ⟨hmem, rfl⟩ := mem_subtrees_of_find? hc
  rw [hroots] at hmem
  have hstays : ∃ c' ∈ Root.subtrees (s.fill y), c'.face = c.face := by
    rcases Root.mem_subtrees_middle.mp hmem with hc | hc
    · rcases hexchange.exists_face hc with rfl | hgone | ⟨c', hc', hface⟩
      · exact absurd rfl hx
      · exact absurd hgone hdropped
      · exact ⟨c', Root.mem_subtrees_middle.mpr (Or.inl hc'), hface⟩
    · -- the trees of the roots beside the site are as they were
      exact ⟨c, Root.mem_subtrees_middle.mpr (Or.inr hc), rfl⟩
  obtain ⟨c', hc', hface⟩ := hstays
  have hid : c'.id = c.id := congrArg Face.id hface
  exact ⟨c', (find?_eq_some_iff (by omega)).mpr ⟨hc', hid⟩, hface⟩

/-- The roots stay where they are, in their order. -/
theorem map_mark (h : Exchanged ws ws' x y dropped added) :
    ws'.roots.map Root.mark = ws.roots.map Root.mark := by
  obtain ⟨hexchange, s, hroots, rfl⟩ := h
  rw [hroots]
  exact s.map_mark_fill hexchange.id

end Exchanged

/-- A loop around two statements, the first of which prints a reporter, and a statement by
itself. -/
def twoRoots : Workspace :=
  ⟨.standard,
    [⟨0, 0, .mk 1 "forever" []
      [.mk 2 "print" [.reporter "input1" (.mk 3 "value" [.literal "input1" "7"] [])] [],
        .mk 4 "alert" [.literal "input1" "done"] []]⟩,
      ⟨40, 0, .mk 5 "print" [.literal "input1" "apart"] []⟩],
    [], 6⟩

end Workspace

end Blockwork
