import Mathlib
import Blockwork.Proofs.Workspace.Locality

/-!
# Undoing edits of the structure

What has been taken out of a block can be put back where it was, and a child that has been moved can
be moved back (`Workspace.undo_structural`). In the block this is an exact reckoning with indices
and with the order of slots; that the rules do not stand in the way is because the tree obeyed them
with the block in its place, so that neither its shape nor its height is refused.
-/

namespace Blockwork

open scoped List

/-! ### Undoing in a block -/

namespace Block

variable {ι : Type} {r : Registry} {b b' c : Block ι} {index source target : Nat}

theorem checkHeight_eq_ok {depth height : Nat} (h : depth + 1 + height ≤ heightLimit) :
    checkHeight depth height = .ok () :=
  if_neg h.not_gt

theorem checkSlot_eq_ok {slot : String} {kind : Kind} (hkind : r.kind? b.type = some kind)
    (hslot : kind.hasSlot slot = true) : b.checkSlot r slot = .ok () := by
  unfold checkSlot
  rw [hkind]
  exact if_pos hslot

theorem checkChild_eq_ok (hcontainer : b.shape? r = some .container)
    (hchild : c.shape? r ≠ some .reporter) (hheight : 1 + c.height ≤ heightLimit) :
    b.checkChild r c = .ok () := by
  unfold checkChild
  rw [if_neg (not_not.mpr hcontainer), if_neg hchild]
  exact checkHeight_eq_ok (by omega)

theorem insertChild_eq_ok (hcheck : b.checkChild r c = .ok ()) (h : index ≤ b.children.length) :
    b.insertChild r index c = .ok (b.withChildren (b.children.insertIdx index c)) := by
  unfold insertChild
  rw [hcheck]
  exact if_neg h.not_gt

theorem withChildren_children (b : Block ι) : b.withChildren b.children = b := by
  cases b
  rfl

/-- **A child that has been removed** can be put back. -/
theorem insertChild_of_removeChild (hb : b.WellFormed r) (hheight : b.height ≤ heightLimit)
    (h : b.removeChild index = .ok (c, b')) : b'.insertChild r index c = .ok b := by
  obtain ⟨hget, rfl⟩ := removeChild_ok h
  have hmem : c ∈ b.children := List.mem_of_getElem? hget
  have hlow := height_lt_of_mem_parts (b := b) (List.mem_append_right _ hmem)
  have hcheck : (b.withChildren (b.children.eraseIdx index)).checkChild r c = .ok () :=
    checkChild_eq_ok (hb.obeys.container (List.ne_nil_of_mem hmem)) (hb.obeys.child_shape c hmem)
      (by omega)
  obtain ⟨hindex, rfl⟩ := List.getElem?_eq_some_iff.mp hget
  have hroom : index ≤ (b.children.eraseIdx index).length := by
    rw [List.length_eraseIdx_of_lt hindex]
    omega
  rw [insertChild_eq_ok hcheck hroom]
  have hback : b.withChildren ((b.children.eraseIdx index).insertIdx index b.children[index])
      = b := by
    rw [List.insertIdx_eraseIdx_getElem hindex, withChildren_children]
  exact congrArg Except.ok hback

/-- **A reporter that has been taken out of its slot** can be put back. -/
theorem insertReporter_of_leave {i : ι} {t name : String} {before after : List (Slot (Block ι))}
    {children : List (Block ι)} {kind : Kind}
    (hb : ((Around.slot i t before name after children).fill c).WellFormed r)
    (hslots : Slots.Ascending (before ++ .reporter name c :: after))
    (hheight : 1 + c.height ≤ heightLimit) (hkind : r.kind? t = some kind) :
    (Around.slot i t before name after children).leave.insertReporter r name c
      = .ok ((Around.slot i t before name after children).fill c) := by
  have hmem : Slot.reporter name c ∈ before ++ .reporter name c :: after :=
    List.mem_append_right _ List.mem_cons_self
  -- the slot is known to the kind, as it was filled before
  have hslot : (Around.slot i t before name after children).leave.checkSlot r name = .ok () :=
    checkSlot_eq_ok hkind (hb.obeys.slot_known _ hmem kind hkind)
  have hshape : c.shape? r = some .reporter :=
    hb.obeys.slot_shape c (Slots.mem_blocks.mpr ⟨name, hmem⟩)
  have hlow : checkHeight 0 c.height = .ok () := checkHeight_eq_ok (by omega)
  unfold insertReporter
  rw [hslot, if_neg (not_not.mpr hshape), hlow]
  change Except.ok (mk i t (Slots.put (.reporter name c) (before ++ after)) children) = _
  rw [Slots.put_between hslots]
  rfl

/-- **A child that has been moved**: it is at its new index, the others are as before, and it can be
moved back. -/
theorem moveChild_of_moveChild (h : b.moveChild source target = .ok b') :
    (∃ c, b.children[source]? = some c ∧ b'.children[target]? = some c) ∧
      b'.children.eraseIdx target = b.children.eraseIdx source ∧
      b'.moveChild target source = .ok b := by
  obtain ⟨c, hget, htarget, rfl⟩ := moveChild_ok h
  obtain ⟨hsource, rfl⟩ := List.getElem?_eq_some_iff.mp hget
  have hlength : (b.children.eraseIdx source).length + 1 = b.children.length := by
    rw [List.length_eraseIdx_of_lt hsource]
    omega
  have hthere : ((b.children.eraseIdx source).insertIdx target b.children[source])[target]?
      = some b.children[source] := by
    rw [List.getElem?_insertIdx_self, if_pos (by omega)]
  have hothers : ((b.children.eraseIdx source).insertIdx target b.children[source]).eraseIdx target
      = b.children.eraseIdx source := List.eraseIdx_insertIdx_self _
  refine ⟨⟨b.children[source], hget, hthere⟩, hothers, ?_⟩
  have hroom : source
      < ((b.children.eraseIdx source).insertIdx target b.children[source]).length := by
    rw [List.length_insertIdx_of_le_length (by omega), hlength]
    exact hsource
  rw [moveChild_eq_ok hthere hroom]
  have hback : b.withChildren ((b.children.eraseIdx source).insertIdx source b.children[source])
      = b := by
    rw [List.insertIdx_eraseIdx_getElem hsource, withChildren_children]
  rw [← hothers] at hback
  exact congrArg Except.ok hback

end Block

/-! ### Undoing in a workspace -/

variable {ws ws' : Workspace} {s : Site BlockId} {b b' c : PlacedBlock} {id : BlockId}

/-- **An edit that undoes another** in the block does so in the workspace, if there is room for what
it puts in. -/
theorem Edit.ofPlaced_undo {e : Edit} (hnodup : ws.ids.Nodup) (hroots : ws.roots = s.fill b)
    (hid : b'.id = b.id) (hedit : e.ofBlock ws.registry b' = .ok (b, []))
    (hroom : ∀ c ∈ e.taken, s.place.length + 1 + c.height ≤ heightLimit) :
    e.ofPlaced { ws with roots := s.fill b' } b.id = .ok (ws, []) := by
  have hs : b'.id ∉ s.ids := hid ▸ s.id_not_mem_ids (hroots ▸ hnodup)
  have hfilled : { ws with roots := s.fill b' }.roots = s.fill b' := rfl
  have hback : { ws with roots := s.fill b } = ws := by
    rw [← hroots]
  rw [← hid, ofPlaced_eq, checkRoom_eq (Workspace.depthOf_fill hfilled hs), if_pos hroom]
  change e.inPlace { ws with roots := s.fill b' } b'.id = _
  unfold inPlace
  rw [Workspace.editBlock_fill hfilled hs]
  dsimp only
  rw [hedit]
  exact congrArg (fun ws => Except.ok (ws, [])) hback

theorem ok_of_map {ε α β : Type} {x : Except ε α} {a : α}
    (h : x.map (·, ([] : List β)) = .ok (a, [])) : x = .ok a := by
  obtain ⟨a', hx, he⟩ := except_map_eq_ok h
  rw [hx, (Prod.mk.inj he).1]

namespace Workspace

/-- What the rules say of a placed block. -/
theorem WellPlaced.site (hplaced : ws.WellPlaced) (hroots : ws.roots = s.fill b) :
    b.WellFormed ws.registry ∧ s.place.length + b.height ≤ heightLimit := by
  have hroot : s.place.fill b ∈ ws.blocks := by
    unfold blocks
    rw [hroots]
    exact List.mem_map_of_mem (List.mem_append_right _ List.mem_cons_self)
  have hdeep := s.place.length_add_height_le b
  exact ⟨(hplaced.wellFormed _ hroot).of_fill, hdeep.trans (hplaced.height_le _ hroot)⟩

/-- **A removed child can be put back.** -/
theorem insertChild_of_removeChild {index : Nat} (hplaced : ws.WellPlaced)
    (hnodup : ws.ids.Nodup) (h : ws.removeChild id index = .ok (ws', c)) :
    ws'.insertChild id index c = .ok ws := by
  have hremoved : (Edit.removeChild index).ofPlaced ws id = .ok (ws', [c]) := by
    change (ws.removeChild id index).map _ = _
    rw [h]
    rfl
  obtain ⟨s, b, b', rfl, hroots, hedit, rfl⟩ := Edit.exists_site_of_ofPlaced hnodup hremoved
  have hid : b'.id = b.id := (Edit.does hedit).alikeBut.id
  obtain ⟨⟨_, _⟩, hremove, he⟩ := except_map_eq_ok hedit
  cases he
  obtain ⟨hb, hheight⟩ := hplaced.site hroots
  -- a child is lower than the block it was taken from, so there is room for it
  have hlow : c.height < b.height := Block.height_lt_of_mem_parts
    (List.mem_append_right _ (List.mem_of_getElem? (Block.removeChild_ok hremove).1))
  have hback : (Edit.insertChild index c).ofBlock ws.registry b' = .ok (b, []) :=
    congrArg (Except.map (·, [])) (Block.insertChild_of_removeChild hb (by omega) hremove)
  have hroom : ∀ d ∈ (Edit.insertChild index c).taken,
      s.place.length + 1 + d.height ≤ heightLimit :=
    List.forall_mem_singleton.mpr (by omega)
  exact ok_of_map (Edit.ofPlaced_undo hnodup hroots hid hback hroom)

/-- **A removed reporter can be put back.** -/
theorem insertReporter_of_remove {slot name : String} {kind : Kind} (hplaced : ws.WellPlaced)
    (hnodup : ws.ids.Nodup) (hsorted : ∀ b ∈ ws.blocks, b.Sorted) (hb : ws.find? id = some b)
    (hkind : ws.registry.kind? b.type = some kind)
    (hslot : Slots.get? b.slots slot = some (.reporter name c)) :
    ∃ ws', ws.remove c.id = .ok (c, ws') ∧ ws'.insertReporter id slot c = .ok ws := by
  obtain ⟨rfl, s, hroots⟩ := exists_site_of_find? hb
  obtain ⟨rfl, before, after, hslots⟩ := Slots.exists_of_get? hslot
  have hascending := ascending_slots hsorted hroots
  obtain ⟨hwellFormed, hheight⟩ := hplaced.site hroots
  obtain ⟨i, t, slots, children⟩ := b
  obtain rfl : slots = before ++ .reporter name c :: after := hslots
  -- the block is what is around the reporter, with the reporter in its slot
  let a : Around BlockId := .slot i t before name after children
  change ws.roots = s.fill (a.fill c) at hroots
  change (a.fill c).WellFormed ws.registry at hwellFormed
  change s.place.length + (a.fill c).height ≤ heightLimit at hheight
  have hids : (Root.idsAll ((s.below a).fill c)).Nodup := by
    rw [s.fill_below, ← hroots]
    exact hnodup
  obtain ⟨ha, hs⟩ := Site.not_mem_ids_below.mp (Site.id_not_mem_ids hids)
  have hlow : c.height < (a.fill c).height :=
    Block.height_lt_of_mem_parts (Around.mem_parts_self _ _)
  have hback : (Edit.insertReporter name c).ofBlock ws.registry a.leave = .ok (a.fill c, []) :=
    congrArg (Except.map (·, []))
      (Block.insertReporter_of_leave hwellFormed hascending (by omega) hkind)
  have hroom : ∀ d ∈ (Edit.insertReporter name c).taken,
      s.place.length + 1 + d.height ≤ heightLimit :=
    List.forall_mem_singleton.mpr (by omega)
  refine ⟨_, remove_below hroots ha hs, ?_⟩
  exact ok_of_map (Edit.ofPlaced_undo hnodup hroots (a.id_fill c).symm hback hroom)

/-- **A moved child can be moved back.** -/
theorem moveChild_of_moveChild {source target : Nat} (hnodup : ws.ids.Nodup)
    (hsorted : ∀ b ∈ ws.blocks, b.Sorted) (h : ws.moveChild id source target = .ok ws') :
    ∃ b b', ws.find? id = some b ∧ ws'.find? id = some b' ∧
      (∃ c, b.children[source]? = some c ∧ b'.children[target]? = some c) ∧
      b'.children.eraseIdx target = b.children.eraseIdx source ∧
      ws'.moveChild id target source = .ok ws := by
  have hmoved : (Edit.moveChild source target).ofPlaced ws id = .ok (ws', []) := by
    change (ws.moveChild id source target).map _ = _
    rw [h]
    rfl
  obtain ⟨s, b, b', rfl, hroots, hedit, rfl⟩ := Edit.exists_site_of_ofPlaced hnodup hmoved
  have hexchanged : Exchanged ws { ws with roots := s.fill b' } b b' [] [] :=
    ⟨(Edit.does hedit).exchange (ascending_slots hsorted hroots), s, hroots, rfl⟩
  obtain ⟨hfound, hfound'⟩ := hexchanged.find?_self hnodup (List.forall_mem_nil _)
  obtain ⟨hchild, hothers, hback⟩ := Block.moveChild_of_moveChild (ok_of_map hedit)
  refine ⟨b, b', hfound, hfound', hchild, hothers, ?_⟩
  have hundo : (Edit.moveChild target source).ofBlock ws.registry b' = .ok (b, []) :=
    congrArg (Except.map (·, [])) hback
  exact ok_of_map (Edit.ofPlaced_undo hnodup hroots (Edit.does hedit).alikeBut.id hundo
    (List.forall_mem_nil _))

/-- **Edits of the structure can be undone.** A child that has been removed goes back to its index
and a reporter to its slot, if the type of the block is known to have slots at all; and a child that
has been moved is where it was sent, among the others in their order, and can be sent back. -/
theorem undo_structural (hplaced : ws.WellPlaced) (hnodup : ws.ids.Nodup)
    (hsorted : ∀ b ∈ ws.blocks, b.Sorted) :
    (∀ id index c ws', ws.removeChild id index = .ok (ws', c) →
      ws'.insertChild id index c = .ok ws) ∧
    (∀ id b slot name r, ws.find? id = some b → (ws.registry.kind? b.type).isSome = true →
      Slots.get? b.slots slot = some (.reporter name r) →
      ∃ ws', ws.remove r.id = .ok (r, ws') ∧ ws'.insertReporter id slot r = .ok ws) ∧
    ∀ id source target ws', ws.moveChild id source target = .ok ws' →
      ∃ b b', ws.find? id = some b ∧ ws'.find? id = some b' ∧
        (∃ c, b.children[source]? = some c ∧ b'.children[target]? = some c) ∧
        b'.children.eraseIdx target = b.children.eraseIdx source ∧
        ws'.moveChild id target source = .ok ws := by
  refine ⟨?_, ?_, ?_⟩
  · intro id index c ws' h
    exact insertChild_of_removeChild hplaced hnodup h
  · intro id b slot name r hb hknown hslot
    obtain ⟨kind, hkind⟩ := Option.isSome_iff_exists.mp hknown
    exact insertReporter_of_remove hplaced hnodup hsorted hb hkind hslot
  · intro id source target ws' h
    exact moveChild_of_moveChild hnodup hsorted h

/-- A child and the reporter of its slot are taken out and put back, and two children change
places and change back. -/
theorem undo_structural_twoRoots :
    twoRoots.WellPlaced ∧ twoRoots.ids.Nodup ∧ (∀ b ∈ twoRoots.blocks, b.Sorted) ∧
    (∃ c ws', twoRoots.removeChild 1 0 = .ok (ws', c) ∧ ws'.insertChild 1 0 c = .ok twoRoots) ∧
    (∃ r ws', twoRoots.remove 3 = .ok (r, ws') ∧
      ws'.insertReporter 2 "input1" r = .ok twoRoots) ∧
    ∃ ws', twoRoots.moveChild 1 0 1 = .ok ws' ∧ ws'.moveChild 1 1 0 = .ok twoRoots := by
  have hplaced : twoRoots.WellPlaced := by decide
  have hnodup : twoRoots.ids.Nodup := by decide
  have hsorted : ∀ b ∈ twoRoots.blocks, b.Sorted := by decide
  obtain ⟨hchild, hreporter, hmove⟩ := undo_structural hplaced hnodup hsorted
  refine ⟨hplaced, hnodup, hsorted, ⟨_, _, rfl, hchild 1 0 _ _ rfl⟩, ?_, ?_⟩
  · obtain ⟨ws', hremove, hback⟩ := hreporter 2 _ "input1" _ _ rfl rfl rfl
    exact ⟨_, ws', hremove, hback⟩
  · obtain ⟨_, _, _, _, _, _, hback⟩ := hmove 1 0 1 _ rfl
    exact ⟨_, rfl, hback⟩

end Workspace

end Blockwork
