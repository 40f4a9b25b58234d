import Mathlib
import Blockwork.Proofs.Block.Editing

/-!
# The identifiers of a tree

The identifiers of a tree are those of its subtrees in their order (`Block.ids_eq_map`), one for
each of its blocks (`Block.length_ids`), and a block is found by exactly these
(`Block.find?_isSome`).

Where blocks change places, their identifiers go with them. A filled place has the identifiers of
the block and those around it (`Place.ids_fill`), what is left when a block is taken out has the
others (`Block.Detached.ids_perm`), and an edit has no identifier that was not there before or in
what it puts in (`Block.Conserves`).
-/

namespace Blockwork

open scoped List

variable {ι : Type}

namespace Block

theorem slotSubtrees_eq (slots : List (Slot (Block ι))) :
    slotSubtrees slots = (Slots.blocks slots).flatMap subtrees := by
  induction slots with
  | nil => rfl
  | cons s rest ih =>
    cases s with
    | literal n t => rw [slotSubtrees, ih, Slots.blocks_literal]
    | reporter n b => rw [slotSubtrees, ih, Slots.blocks_reporter, List.flatMap_cons]

theorem allSubtrees_eq (bs : List (Block ι)) : allSubtrees bs = bs.flatMap subtrees := by
  induction bs with
  | nil => rfl
  | cons b rest ih => rw [allSubtrees, ih, List.flatMap_cons]

/-- **The subtrees of a tree**, part by part. -/
theorem subtrees_eq (b : Block ι) : b.subtrees = b :: b.parts.flatMap subtrees := by
  obtain ⟨i, t, slots, children⟩ := b
  rw [subtrees, slotSubtrees_eq, allSubtrees_eq, parts_mk, List.flatMap_append]

/-- **The identifiers of a tree**, part by part. -/
theorem ids_eq (b : Block ι) : b.ids = b.id :: b.parts.flatMap ids := by
  obtain ⟨i, t, slots, children⟩ := b
  rw [parts_mk, List.flatMap_def, List.map_append, ← Slots.blocks_map]
  exact fold_mk _ i t slots children

theorem ids_eq_map (b : Block ι) : b.ids = b.subtrees.map id := by
  induction b using Block.induction with
  | step b ih =>
    have hparts : b.parts.flatMap ids = b.parts.flatMap fun p => p.subtrees.map id :=
      List.flatMap_congr ih
    rw [ids_eq, subtrees_eq, List.map_cons, List.map_flatMap, hparts]

theorem count_eq (b : Block ι) : b.count = 1 + (b.parts.map count).sum := by
  obtain ⟨i, t, slots, children⟩ := b
  have hfold : ∀ ns : List Nat, ns.foldr (· + ·) 1 = 1 + ns.sum := by
    intro ns
    induction ns with
    | nil => rfl
    | cons n ns ih =>
      rw [List.foldr_cons, ih, List.sum_cons]
      omega
  rw [parts_mk, ← hfold, List.map_append, ← Slots.blocks_map]
  exact fold_mk _ i t slots children

/-- **Each block has one identifier.** -/
theorem length_ids (b : Block ι) : b.ids.length = b.count := by
  induction b using Block.induction with
  | step b ih =>
    have hparts : b.parts.map (List.length ∘ ids) = b.parts.map count := List.map_congr_left ih
    rw [ids_eq, List.length_cons, List.length_flatMap, count_eq, ← hparts, Nat.add_comm]
    rfl

/-- **A block is found** by the identifiers of the tree. -/
theorem find?_isSome [DecidableEq ι] {b : Block ι} {i : ι} :
    (b.find? i).isSome = true ↔ i ∈ b.ids := by
  unfold find?
  rw [List.find?_isSome, ids_eq_map, List.mem_map]
  simp only [decide_eq_true_iff]

end Block

/-! ### Identifiers around a place -/

namespace Around

/-- The identifiers of the block above and of the blocks beside the place. -/
def ids (a : Around ι) : List ι :=
  a.leave.ids

theorem parts_leave (a : Around ι) : a.leave.parts = a.others := by
  cases a with
  | slot i t before name after children =>
    unfold leave others Slots.blocks
    rw [Block.parts_mk, Slots.blocks, List.filterMap_append, List.append_assoc]
  | child i t slots before after => rfl

theorem parts_fill_perm (a : Around ι) (b : Block ι) : (a.fill b).parts ~ b :: a.others := by
  cases a with
  | slot i t before name after children =>
    have hblocks : Slots.blocks (before ++ .reporter name b :: after)
        = Slots.blocks before ++ b :: Slots.blocks after := by
      unfold Slots.blocks
      rw [List.filterMap_append]
      rfl
    unfold fill others
    rw [Block.parts_mk, hblocks, List.append_assoc]
    exact List.perm_middle
  | child i t slots before after =>
    change Slots.blocks slots ++ (before ++ b :: after)
      ~ b :: (Slots.blocks slots ++ (before ++ after))
    rw [← List.append_assoc, ← List.append_assoc]
    exact List.perm_middle

theorem ids_fill (a : Around ι) (b : Block ι) : (a.fill b).ids ~ b.ids ++ a.ids := by
  have hid : (a.fill b).id = a.leave.id := by
    cases a <;> rfl
  unfold ids
  rw [Block.ids_eq (a.fill b), Block.ids_eq a.leave, hid, parts_leave]
  have hparts : (a.fill b).parts.flatMap Block.ids ~ b.ids ++ a.others.flatMap Block.ids :=
    (a.parts_fill_perm b).flatMap_right Block.ids
  exact (hparts.cons _).trans List.perm_middle.symm

end Around

namespace Place

/-- The identifiers around a place. -/
def ids (p : Place ι) : List ι :=
  p.flatMap Around.ids

/-- **The identifiers of a filled place** are those of the block and those around it. -/
theorem ids_fill (p : Place ι) (b : Block ι) : (p.fill b).ids ~ b.ids ++ p.ids := by
  induction p with
  | nil =>
    unfold ids
    rw [List.flatMap_nil, List.append_nil]
    exact .refl _
  | cons a p ih =>
    have habove : (a.fill (Place.fill b p)).ids ~ (Place.fill b p).ids ++ a.ids := a.ids_fill _
    refine habove.trans ((ih.append_right a.ids).trans ?_)
    unfold ids
    rw [List.flatMap_cons, List.append_assoc]
    exact List.perm_append_comm.append_left b.ids

end Place

/-- The identifiers of a tree are those of the block that is taken out and of the rest. -/
theorem Block.Detached.ids_perm {b found rest : Block ι} (h : Detached b found rest) :
    b.ids ~ found.ids ++ rest.ids := by
  obtain ⟨p, a, rfl, rfl⟩ := h
  have hwhole := p.ids_fill (a.fill found)
  have hrest : (p.fill a.leave).ids ~ a.ids ++ p.ids := p.ids_fill a.leave
  refine hwhole.trans (((a.ids_fill found).append_right p.ids).trans ?_)
  rw [List.append_assoc]
  exact hrest.symm.append_left found.ids

/-! ### Identifiers and edits -/

/-- The identifiers of trees. -/
def Block.idsAll (bs : List (Block ι)) : List ι :=
  bs.flatMap ids

@[simp] theorem Block.idsAll_nil : idsAll ([] : List (Block ι)) = [] := rfl

@[simp] theorem Block.idsAll_cons (b : Block ι) (bs : List (Block ι)) :
    idsAll (b :: bs) = b.ids ++ idsAll bs := rfl

@[simp] theorem Block.idsAll_append (bs cs : List (Block ι)) :
    idsAll (bs ++ cs) = idsAll bs ++ idsAll cs :=
  List.flatMap_append

namespace Slots

theorem blocks_put_subperm (s : Slot (Block ι)) (slots : List (Slot (Block ι))) :
    blocks (put s slots) <+~ s.block?.toList ++ blocks slots := by
  have hcons : ∀ (t : Slot (Block ι)) (rest : List (Slot (Block ι))),
      blocks (t :: rest) = t.block?.toList ++ blocks rest := by
    intro t rest
    cases t <;> rfl
  induction slots with
  | nil => exact (hcons s []).symm ▸ List.Subperm.refl _
  | cons t rest ih =>
    rw [put]
    -- the slot comes behind smaller names, in place of its own name, or in front of a greater one
    split
    · rw [hcons, hcons t rest]
      refine ((List.subperm_append_left t.block?.toList).mpr ih).trans ?_
      rw [← List.append_assoc, ← List.append_assoc]
      exact (List.perm_append_comm.append_right (blocks rest)).subperm
    · split
      · rw [hcons, hcons t rest]
        exact (List.subperm_append_left _).mpr (List.sublist_append_right _ _).subperm
      · rw [hcons]

theorem blocks_erase_subperm (slots : List (Slot (Block ι))) (name : String) :
    ((get? slots name).bind Slot.block?).toList ++ blocks (erase slots name) <+~ blocks slots := by
  have herase : ∀ rest : List (Slot (Block ι)), blocks (erase rest name) <+~ blocks rest :=
    fun rest => (List.filter_sublist.filterMap Slot.block?).subperm
  induction slots with
  | nil => exact List.Subperm.refl []
  | cons t rest ih =>
    by_cases h : t.name = name
    · have hget : get? (t :: rest) name = some t := List.find?_cons_of_pos (by simpa using h)
      have herased : erase (t :: rest) name = erase rest name :=
        List.filter_cons_of_neg (by simpa using h)
      rw [hget, herased]
      -- erasing takes out every slot of the name, so there may be less on the left
      cases t with
      | literal n text => exact herase rest
      | reporter n b => exact (List.subperm_cons b).mpr (herase rest)
    · have hget : get? (t :: rest) name = get? rest name :=
        List.find?_cons_of_neg (by simpa using h)
      have herased : erase (t :: rest) name = t :: erase rest name :=
        List.filter_cons_of_pos (by simpa using h)
      rw [hget, herased]
      cases t with
      | literal n text => exact ih
      | reporter n b =>
        rw [blocks_reporter, blocks_reporter]
        exact List.perm_middle.subperm.trans ((List.subperm_cons b).mpr ih)

end Slots

namespace Block

theorem idsAll_subperm {bs cs : List (Block ι)} (h : bs <+~ cs) : idsAll bs <+~ idsAll cs := by
  obtain ⟨ds, hperm, hsub⟩ := h
  exact (hperm.flatMap_right ids).symm.subperm.trans (hsub.flatMap ids).subperm

/-- **What an edit does with identifiers**: what is there afterwards, in the block and in what has
come out of it, was there before, in the block or in what has been put in. -/
def Conserves (b b' : Block ι) (taken given : List (Block ι)) : Prop :=
  b'.ids ++ idsAll given <+~ b.ids ++ idsAll taken

/-- It is enough to look at the parts. -/
theorem conserves_of_parts {b b' : Block ι} {taken given : List (Block ι)} (hid : b'.id = b.id)
    (h : given ++ b'.parts <+~ taken ++ b.parts) : Conserves b b' taken given := by
  have hids := idsAll_subperm h
  rw [idsAll_append, idsAll_append] at hids
  unfold Conserves
  rw [ids_eq b', ids_eq b, hid, List.cons_append, List.cons_append, List.subperm_cons]
  exact List.perm_append_comm.subperm.trans (hids.trans List.perm_append_comm.subperm)

theorem conserves_putSlot (b : Block ι) (s : Slot (Block ι)) :
    Conserves b (b.putSlot s) s.block?.toList [] := by
  refine conserves_of_parts rfl ?_
  change Slots.blocks (Slots.put s b.slots) ++ b.children
    <+~ s.block?.toList ++ (Slots.blocks b.slots ++ b.children)
  rw [← List.append_assoc]
  exact (List.subperm_append_right b.children).mpr (Slots.blocks_put_subperm s b.slots)

theorem conserves_clearSlot (b : Block ι) (slot : String) :
    Conserves b (b.clearSlot slot) [] ((Slots.get? b.slots slot).bind Slot.block?).toList := by
  refine conserves_of_parts rfl ?_
  change _ ++ (Slots.blocks (Slots.erase b.slots slot) ++ b.children)
    <+~ Slots.blocks b.slots ++ b.children
  rw [← List.append_assoc]
  exact (List.subperm_append_right b.children).mpr (Slots.blocks_erase_subperm b.slots slot)

theorem conserves_withChildren {b : Block ι} {children taken given : List (Block ι)}
    (h : given ++ children <+~ taken ++ b.children) :
    Conserves b (b.withChildren children) taken given := by
  refine conserves_of_parts rfl ?_
  change given ++ (Slots.blocks b.slots ++ children)
    <+~ taken ++ (Slots.blocks b.slots ++ b.children)
  have hmove : ∀ xs ys zs : List (Block ι), xs ++ (ys ++ zs) ~ ys ++ (xs ++ zs) := by
    intro xs ys zs
    rw [← List.append_assoc, ← List.append_assoc]
    exact List.perm_append_comm.append_right zs
  refine (hmove _ _ _).subperm.trans (((List.subperm_append_left _).mpr h).trans ?_)
  exact (hmove _ _ _).subperm

end Block

end Blockwork
