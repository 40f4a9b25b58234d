import Mathlib
import Blockwork.Proofs.Block.Place
import Blockwork.Proofs.Computation

/-!
# Edits of a block keep the rules

Every edit of a block either writes another slot or gives the block other children. What this keeps
is said once for each of the two (`Block.edited_putSlot`, `Block.edited_withChildren`), and the
edits that can be made are cases of it: an edit that succeeds leaves a block that obeys the rules,
of the same shape, and not higher than what was put into it makes it (`Block.Edited`).
-/

namespace Blockwork

variable {ι : Type} {r : Registry}

theorem Slots.mem_put {β : Type} {s t : Slot β} {slots : List (Slot β)}
    (h : t ∈ Slots.put s slots) : t = s ∨ t ∈ slots := by
  induction slots with
  | nil => exact Or.inl (List.mem_singleton.mp h)
  | cons u rest ih =>
    rw [Slots.put] at h
    split at h
    · rcases List.mem_cons.mp h with rfl | h
      · exact Or.inr List.mem_cons_self
      · exact (ih h).imp_right (List.mem_cons_of_mem u)
    · split at h
      · rcases List.mem_cons.mp h with rfl | h
        · exact Or.inl rfl
        · exact Or.inr (List.mem_cons_of_mem u h)
      · exact List.mem_cons.mp h

namespace Block

/-- **What an edit of a block keeps**, where `n` is the height of what it has put into the block. -/
structure Edited (r : Registry) (b b' : Block ι) (n : Nat) : Prop where
  wellFormed : b'.WellFormed r
  shape : b'.shape? r = b.shape? r
  height_le : b'.height ≤ max b.height (1 + n)

/-- Every part of the new block is a part of the old one, or has just been put into it. -/
theorem Edited.of_parts {b b' : Block ι} {n : Nat} (h : b.WellFormed r) (hobeys : b'.Obeys r)
    (htype : b'.type = b.type)
    (hparts : ∀ c ∈ b'.parts, c ∈ b.parts ∨ (c.WellFormed r ∧ c.height ≤ n)) :
    Edited r b b' n where
  wellFormed := wellFormed_iff.mpr ⟨hobeys, fun c hc => (hparts c hc).elim h.part And.left⟩
  shape := by rw [shape?, shape?, htype]
  height_le := by
    have hpos := b.height_pos
    refine height_le_of_parts (by omega) fun c hc => ?_
    rcases hparts c hc with hold | ⟨-, hnew⟩
    · have hlt := height_lt_of_mem_parts hold
      omega
    · omega

/-! ### Checks -/

theorem checkSlot_ok {b : Block ι} {slot : String} (h : b.checkSlot r slot = .ok ()) :
    ∀ kind, r.kind? b.type = some kind → kind.hasSlot slot = true := by
  intro kind hkind
  unfold checkSlot at h
  rw [hkind] at h
  dsimp only at h
  split at h
  · next hslot => exact hslot
  · cases h

theorem checkHeight_ok {depth height : Nat} (h : checkHeight depth height = .ok ()) :
    depth + 1 + height ≤ heightLimit := by
  unfold checkHeight at h
  split at h
  · cases h
  · next hlow => exact Nat.le_of_not_lt hlow

/-- What a child has to be. -/
theorem checkChild_ok {b child : Block ι} (h : b.checkChild r child = .ok ()) :
    b.shape? r = some .container ∧ child.shape? r ≠ some .reporter ∧
      1 + child.height ≤ heightLimit := by
  unfold checkChild at h
  dsimp only at h
  split at h
  · cases h
  · next hcontainer =>
    split at h
    · cases h
    · next hshape =>
      have hheight := checkHeight_ok h
      exact ⟨not_not.mp hcontainer, hshape, by omega⟩

/-! ### What an edit comes to

Of an edit that succeeds nothing else is needed in what follows: what it has checked, and which slot
or which children it has written. -/

theorem setLiteral_ok {b b' : Block ι} {slot text : String}
    (h : b.setLiteral r slot text = .ok b') :
    b.checkSlot r slot = .ok () ∧ b' = b.putSlot (.literal slot text) := by
  unfold setLiteral at h
  obtain ⟨⟨⟩, hslot, h⟩ := except_bind_eq_ok h
  exact ⟨hslot, (Except.ok.inj h).symm⟩

theorem insertReporter_ok {b b' reporter : Block ι} {slot : String}
    (h : b.insertReporter r slot reporter = .ok b') :
    b.checkSlot r slot = .ok () ∧ reporter.shape? r = some .reporter ∧
      1 + reporter.height ≤ heightLimit ∧ b' = b.putSlot (.reporter slot reporter) := by
  unfold insertReporter at h
  obtain ⟨⟨⟩, hslot, h⟩ := except_bind_eq_ok h
  dsimp only at h
  split at h
  · cases h
  · next hshape =>
    obtain ⟨⟨⟩, hheight, h⟩ := except_bind_eq_ok h
    have hlow := checkHeight_ok hheight
    exact ⟨hslot, not_not.mp hshape, by omega, (Except.ok.inj h).symm⟩

theorem pushChild_ok {b b' child : Block ι} (h : b.pushChild r child = .ok b') :
    b.checkChild r child = .ok () ∧ b' = b.withChildren (b.children ++ [child]) := by
  unfold pushChild at h
  obtain ⟨⟨⟩, hcheck, h⟩ := except_bind_eq_ok h
  exact ⟨hcheck, (Except.ok.inj h).symm⟩

theorem insertChild_ok {b b' child : Block ι} {index : Nat}
    (h : b.insertChild r index child = .ok b') :
    b.checkChild r child = .ok () ∧ index ≤ b.children.length ∧
      b' = b.withChildren (b.children.insertIdx index child) := by
  unfold insertChild at h
  obtain ⟨⟨⟩, hcheck, h⟩ := except_bind_eq_ok h
  dsimp only at h
  split at h
  · cases h
  · next hindex => exact ⟨hcheck, Nat.le_of_not_lt hindex, (Except.ok.inj h).symm⟩

theorem removeChild_ok {b b' child : Block ι} {index : Nat}
    (h : b.removeChild index = .ok (child, b')) :
    b.children[index]? = some child ∧ b' = b.withChildren (b.children.eraseIdx index) := by
  unfold removeChild at h
  split at h
  · cases h
  · next hget =>
    cases h
    exact ⟨hget, rfl⟩

theorem moveChild_ok {b b' : Block ι} {source target : Nat}
    (h : b.moveChild source target = .ok b') :
    ∃ child, b.children[source]? = some child ∧ target < b.children.length ∧
      b' = b.withChildren ((b.children.eraseIdx source).insertIdx target child) := by
  unfold moveChild at h
  split at h
  · cases h
  · next child hget =>
    split at h
    · next htarget => exact ⟨child, hget, htarget, (Except.ok.inj h).symm⟩
    · cases h

theorem moveChild_eq_ok {b c : Block ι} {source target : Nat} (hget : b.children[source]? = some c)
    (h : target < b.children.length) :
    b.moveChild source target
      = .ok (b.withChildren ((b.children.eraseIdx source).insertIdx target c)) := by
  unfold moveChild
  rw [hget]
  exact if_pos h

theorem moveChild_eq_error {b : Block ι} {source target : Nat}
    (h : b.children.length ≤ source ∨ b.children.length ≤ target) :
    b.moveChild source target
      = .error (.indexOutOfRange (max source target) b.children.length) := by
  unfold moveChild
  rcases h with h | h
  · rw [List.getElem?_eq_none h]
  · cases b.children[source]? with
    | none => rfl
    | some c => exact if_neg h.not_gt

/-! ### Slots -/

/-- **Writing a slot.** -/
theorem edited_putSlot {b : Block ι} {s : Slot (Block ι)} {n : Nat} (h : b.WellFormed r)
    (hknown : ∀ kind, r.kind? b.type = some kind → kind.hasSlot s.name = true)
    (hblock : ∀ c, s.block? = some c →
      c.WellFormed r ∧ c.shape? r = some .reporter ∧ c.height ≤ n) :
    Edited r b (b.putSlot s) n := by
  have hobeys := h.obeys
  have hslots : ∀ c ∈ Slots.blocks (Slots.put s b.slots),
      s.block? = some c ∨ c ∈ Slots.blocks b.slots := by
    intro c hc
    obtain ⟨name, hname⟩ := Slots.mem_blocks.mp hc
    rcases Slots.mem_put hname with rfl | hname
    · exact Or.inl rfl
    · exact Or.inr (Slots.mem_blocks.mpr ⟨name, hname⟩)
  refine .of_parts h ⟨?_, ?_, hobeys.container, hobeys.child_shape⟩ rfl ?_
  · intro t ht
    rcases Slots.mem_put ht with rfl | ht
    · exact hknown
    · exact hobeys.slot_known t ht
  · intro c hc
    rcases hslots c hc with hc | hc
    · exact (hblock c hc).2.1
    · exact hobeys.slot_shape c hc
  · intro c hc
    rcases List.mem_append.mp hc with hc | hc
    · rcases hslots c hc with hnew | hold
      · obtain ⟨hwell, -, hheight⟩ := hblock c hnew
        exact Or.inr ⟨hwell, hheight⟩
      · exact Or.inl (List.mem_append_left _ hold)
    · exact Or.inl (List.mem_append_right _ hc)

theorem edited_setLiteral {b b' : Block ι} {slot text : String} (h : b.WellFormed r)
    (hok : b.setLiteral r slot text = .ok b') : Edited r b b' 0 := by
  obtain ⟨hslot, rfl⟩ := setLiteral_ok hok
  refine edited_putSlot h (checkSlot_ok hslot) ?_
  intro c hc
  cases hc

theorem edited_insertReporter {b b' reporter : Block ι} {slot : String} (h : b.WellFormed r)
    (hreporter : reporter.WellFormed r) (hok : b.insertReporter r slot reporter = .ok b') :
    Edited r b b' reporter.height ∧ 1 + reporter.height ≤ heightLimit := by
  obtain ⟨hslot, hshape, hheight, rfl⟩ := insertReporter_ok hok
  refine ⟨edited_putSlot h (checkSlot_ok hslot) ?_, hheight⟩
  intro c hc
  cases hc
  exact ⟨hreporter, hshape, le_rfl⟩

/-- Emptying a slot. -/
theorem edited_clearSlot {b : Block ι} (h : b.WellFormed r) (slot : String) :
    Edited r b (b.clearSlot slot) 0 := by
  have hslots : Slots.erase b.slots slot ⊆ b.slots := List.filter_subset_self _
  refine .of_parts h (h.obeys.of_subset rfl hslots (List.Subset.refl _)) rfl fun c hc => Or.inl ?_
  rcases List.mem_append.mp hc with hc | hc
  · obtain ⟨name, hname⟩ := Slots.mem_blocks.mp hc
    exact List.mem_append_left _ (Slots.mem_blocks.mpr ⟨name, hslots hname⟩)
  · exact List.mem_append_right _ hc

/-! ### Children -/

/-- **Other children.** -/
theorem edited_withChildren {b : Block ι} {children : List (Block ι)} {n : Nat}
    (h : b.WellFormed r) (hcontainer : children ≠ [] → b.shape? r = some .container)
    (hchildren : ∀ c ∈ children, c ∈ b.children ∨
      (c.WellFormed r ∧ c.shape? r ≠ some .reporter ∧ c.height ≤ n)) :
    Edited r b (b.withChildren children) n := by
  have hobeys := h.obeys
  refine .of_parts h ⟨hobeys.slot_known, hobeys.slot_shape, hcontainer, ?_⟩ rfl ?_
  · intro c hc
    rcases hchildren c hc with hold | ⟨-, hshape, -⟩
    · exact hobeys.child_shape c hold
    · exact hshape
  · intro c hc
    rcases List.mem_append.mp hc with hc | hc
    · exact Or.inl (List.mem_append_left _ hc)
    · rcases hchildren c hc with hold | ⟨hwell, -, hheight⟩
      · exact Or.inl (List.mem_append_right _ hold)
      · exact Or.inr ⟨hwell, hheight⟩

theorem edited_pushChild {b b' child : Block ι} (h : b.WellFormed r) (hchild : child.WellFormed r)
    (hok : b.pushChild r child = .ok b') :
    Edited r b b' child.height ∧ 1 + child.height ≤ heightLimit := by
  obtain ⟨hcheck, rfl⟩ := pushChild_ok hok
  obtain ⟨hcontainer, hshape, hheight⟩ := checkChild_ok hcheck
  refine ⟨edited_withChildren h (fun _ => hcontainer) ?_, hheight⟩
  intro c hc
  rcases List.mem_append.mp hc with hc | hc
  · exact Or.inl hc
  · obtain rfl := List.mem_singleton.mp hc
    exact Or.inr ⟨hchild, hshape, le_rfl⟩

theorem edited_insertChild {b b' child : Block ι} {index : Nat} (h : b.WellFormed r)
    (hchild : child.WellFormed r) (hok : b.insertChild r index child = .ok b') :
    Edited r b b' child.height ∧ 1 + child.height ≤ heightLimit := by
  obtain ⟨hcheck, -, rfl⟩ := insertChild_ok hok
  obtain ⟨hcontainer, hshape, hheight⟩ := checkChild_ok hcheck
  refine ⟨edited_withChildren h (fun _ => hcontainer) ?_, hheight⟩
  intro c hc
  rcases List.eq_or_mem_of_mem_insertIdx hc with rfl | hc
  · exact Or.inr ⟨hchild, hshape, le_rfl⟩
  · exact Or.inl hc

/-- A block without one of its children, and the child. -/
theorem edited_removeChild {b b' child : Block ι} {index : Nat} (h : b.WellFormed r)
    (hok : b.removeChild index = .ok (child, b')) :
    Edited r b b' 0 ∧ child.WellFormed r ∧ child.height ≤ b.height := by
  obtain ⟨hget, rfl⟩ := removeChild_ok hok
  have hmem : child ∈ b.children := List.mem_of_getElem? hget
  have hpart : child ∈ b.parts := List.mem_append_right _ hmem
  refine ⟨edited_withChildren h ?_ ?_, h.part hpart, (height_lt_of_mem_parts hpart).le⟩
  · intro _
    exact h.obeys.container (List.ne_nil_of_mem hmem)
  · intro d hd
    exact Or.inl (List.mem_of_mem_eraseIdx hd)

theorem edited_moveChild {b b' : Block ι} {source target : Nat} (h : b.WellFormed r)
    (hok : b.moveChild source target = .ok b') : Edited r b b' 0 := by
  obtain ⟨c, hget, -, rfl⟩ := moveChild_ok hok
  have hmem : c ∈ b.children := List.mem_of_getElem? hget
  refine edited_withChildren h (fun _ => h.obeys.container (List.ne_nil_of_mem hmem)) ?_
  intro d hd
  rcases List.eq_or_mem_of_mem_insertIdx hd with rfl | hd
  · exact Or.inl hmem
  · exact Or.inl (List.mem_of_mem_eraseIdx hd)

/-- The reporter in a slot. -/
theorem reporter_of_get? {b c : Block ι} {slot name : String} (h : b.WellFormed r)
    (hget : Slots.get? b.slots slot = some (.reporter name c)) :
    c.WellFormed r ∧ c.height ≤ b.height := by
  have hmem : Slot.reporter name c ∈ b.slots := List.mem_of_find?_eq_some hget
  have hpart : c ∈ b.parts := List.mem_append_left _ (Slots.mem_blocks.mpr ⟨name, hmem⟩)
  exact ⟨h.part hpart, (height_lt_of_mem_parts hpart).le⟩

end Block

end Blockwork
