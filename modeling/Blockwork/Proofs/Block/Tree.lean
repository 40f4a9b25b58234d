import Mathlib
import Blockwork.Workspace.Basic

/-!
# Trees by their parts

A block is reached from its root through the *parts* of blocks, the reporters in their slots and
their children. Everything here is said in terms of `Block.parts`: the induction over a tree
(`Block.induction`), its subtrees (`Block.mem_subtrees`) and its height (`Block.height_le_succ`).

The rules of placement at one block are `Block.Obeys`, and a tree is well formed if they hold at
each of its subtrees. That no way down is too long is kept apart, since the height counts from the
root; a workspace is well placed if both hold of its roots (`Workspace.WellPlaced`).
-/

namespace Blockwork

variable {ι κ : Type}

namespace Slots

variable {β γ : Type}

@[simp] theorem blocks_nil : blocks ([] : List (Slot β)) = [] := rfl

@[simp] theorem blocks_literal (n t : String) (rest : List (Slot β)) :
    blocks (.literal n t :: rest) = blocks rest := rfl

@[simp] theorem blocks_reporter (n : String) (b : β) (rest : List (Slot β)) :
    blocks (.reporter n b :: rest) = b :: blocks rest := rfl

@[simp] theorem blocks_append (slots slots' : List (Slot β)) :
    blocks (slots ++ slots') = blocks slots ++ blocks slots' :=
  List.filterMap_append

theorem blocks_map (f : β → γ) (slots : List (Slot β)) :
    blocks (slots.map (Slot.map f)) = (blocks slots).map f := by
  induction slots with
  | nil => rfl
  | cons s rest ih =>
    cases s with
    | literal n t => simpa [Slot.map] using ih
    | reporter n b => simpa [Slot.map] using ih

theorem mem_blocks {slots : List (Slot β)} {b : β} :
    b ∈ blocks slots ↔ ∃ n, Slot.reporter n b ∈ slots := by
  induction slots with
  | nil => simp
  | cons s rest ih =>
    cases s with
    | literal n t => simp [ih]
    | reporter n c =>
      simp only [blocks_reporter, List.mem_cons, ih, Slot.reporter.injEq]
      constructor
      · rintro (rfl | ⟨m, hm⟩)
        · exact ⟨n, Or.inl ⟨rfl, rfl⟩⟩
        · exact ⟨m, Or.inr hm⟩
      · rintro ⟨m, ⟨-, rfl⟩ | hm⟩
        · exact Or.inl rfl
        · exact Or.inr ⟨m, hm⟩

end Slots

namespace Block

/-! ### Induction -/

@[simp] theorem parts_mk (i : ι) (t : String) (slots : List (Slot (Block ι)))
    (children : List (Block ι)) : parts (mk i t slots children) = Slots.blocks slots ++ children :=
  rfl

theorem sizeOf_lt_of_mem_parts {b c : Block ι} (h : c ∈ b.parts) : sizeOf c < sizeOf b := by
  obtain ⟨i, t, slots, children⟩ := b
  rw [parts_mk, List.mem_append] at h
  rcases h with h | h
  · obtain ⟨n, hn⟩ := Slots.mem_blocks.mp h
    have hslot := List.sizeOf_lt_of_mem hn
    simp only [Slot.reporter.sizeOf_spec] at hslot
    simp only [mk.sizeOf_spec]
    omega
  · have hchild := List.sizeOf_lt_of_mem h
    simp only [mk.sizeOf_spec]
    omega

/-- **Induction over a tree.** What holds of a block as soon as it holds of its parts, holds of
every block. -/
theorem induction {motive : Block ι → Prop}
    (step : ∀ b : Block ι, (∀ c ∈ b.parts, motive c) → motive b) (b : Block ι) : motive b :=
  step b fun c _ => induction step c
termination_by sizeOf b
decreasing_by exact sizeOf_lt_of_mem_parts (by assumption)

/-! ### Subtrees -/

theorem mem_slotSubtrees {c : Block ι} {slots : List (Slot (Block ι))} :
    c ∈ slotSubtrees slots ↔ ∃ p ∈ Slots.blocks slots, c ∈ p.subtrees := by
  induction slots with
  | nil => simp [slotSubtrees]
  | cons s rest ih =>
    cases s with
    | literal n t => simp [slotSubtrees, ih]
    | reporter n b => simp [slotSubtrees, ih]

theorem mem_allSubtrees {c : Block ι} {bs : List (Block ι)} :
    c ∈ allSubtrees bs ↔ ∃ p ∈ bs, c ∈ p.subtrees := by
  induction bs with
  | nil => simp [allSubtrees]
  | cons b rest ih => simp [allSubtrees, ih]

theorem mem_subtrees {b c : Block ι} :
    c ∈ b.subtrees ↔ c = b ∨ ∃ p ∈ b.parts, c ∈ p.subtrees := by
  obtain ⟨i, t, slots, children⟩ := b
  simp only [subtrees, List.mem_cons, List.mem_append, mem_slotSubtrees, mem_allSubtrees, parts_mk,
    or_and_right, exists_or]

theorem self_mem_subtrees (b : Block ι) : b ∈ b.subtrees :=
  mem_subtrees.mpr (Or.inl rfl)

/-- A subtree of a subtree is a subtree. -/
theorem subtrees_trans {b c d : Block ι} (hc : c ∈ b.subtrees) (hd : d ∈ c.subtrees) :
    d ∈ b.subtrees := by
  induction b using Block.induction with
  | step b ih =>
    rcases mem_subtrees.mp hc with rfl | ⟨p, hp, hcp⟩
    · exact hd
    · exact mem_subtrees.mpr (Or.inr ⟨p, hp, ih p hp hcp⟩)

/-! ### Height -/

theorem foldl_max_le {ns : List Nat} {m n : Nat} :
    ns.foldl max m ≤ n ↔ m ≤ n ∧ ∀ k ∈ ns, k ≤ n := by
  induction ns generalizing m with
  | nil => simp
  | cons k ns ih =>
    rw [List.foldl_cons, ih, max_le_iff, and_assoc, List.forall_mem_cons]

theorem height_eq (b : Block ι) : b.height = 1 + (b.parts.map height).foldl max 0 := by
  obtain ⟨i, t, slots, children⟩ := b
  rw [parts_mk]
  unfold height
  rw [fold_mk, Slots.blocks_map, List.map_append]

theorem height_pos (b : Block ι) : 0 < b.height := by
  rw [height_eq]
  omega

/-- **The height of a tree** is one more than that of its highest part. -/
theorem height_le_succ {b : Block ι} {n : Nat} :
    b.height ≤ n + 1 ↔ ∀ p ∈ b.parts, p.height ≤ n := by
  have h : b.height ≤ n + 1 ↔ (b.parts.map height).foldl max 0 ≤ n := by
    rw [height_eq]
    omega
  rw [h, foldl_max_le]
  simp

/-- A block is as high as a bound allows if all its parts stay below the bound. -/
theorem height_le_of_parts {b : Block ι} {n : Nat} (hn : 0 < n) (h : ∀ p ∈ b.parts, p.height < n) :
    b.height ≤ n := by
  obtain ⟨m, rfl⟩ := Nat.exists_eq_succ_of_ne_zero hn.ne'
  exact height_le_succ.mpr fun p hp => Nat.le_of_lt_succ (h p hp)

theorem height_lt_of_mem_parts {b p : Block ι} (h : p ∈ b.parts) : p.height < b.height := by
  have hpos := b.height_pos
  have := (height_le_succ (n := b.height - 1)).mp (by omega) p h
  omega

/-! ### Other identifiers -/

theorem mapId_mk (g : ι → κ) (i : ι) (t : String) (slots : List (Slot (Block ι)))
    (children : List (Block ι)) :
    mapId g (mk i t slots children)
      = mk (g i) t (slots.map (Slot.map (mapId g))) (children.map (mapId g)) :=
  fold_mk _ i t slots children

@[simp] theorem type_mapId (g : ι → κ) (b : Block ι) : (b.mapId g).type = b.type := by
  obtain ⟨i, t, slots, children⟩ := b
  rw [mapId_mk]
  rfl

@[simp] theorem parts_mapId (g : ι → κ) (b : Block ι) :
    (b.mapId g).parts = b.parts.map (mapId g) := by
  obtain ⟨i, t, slots, children⟩ := b
  rw [mapId_mk, parts_mk, parts_mk, Slots.blocks_map, List.map_append]

@[simp] theorem shape?_mapId (r : Registry) (g : ι → κ) (b : Block ι) :
    (b.mapId g).shape? r = b.shape? r := by
  rw [shape?, shape?, type_mapId]

/-! ### The rules of placement -/

/-- **The rules at one block.** -/
structure Obeys (r : Registry) (b : Block ι) : Prop where
  /-- A block of a known type has no other slots than its type. -/
  slot_known : ∀ s ∈ b.slots, ∀ kind, r.kind? b.type = some kind → kind.hasSlot s.name = true
  /-- In a slot stands a reporter. -/
  slot_shape : ∀ c ∈ Slots.blocks b.slots, c.shape? r = some .reporter
  /-- Only a container has children. -/
  container : b.children ≠ [] → b.shape? r = some .container
  /-- No child is a reporter. -/
  child_shape : ∀ c ∈ b.children, c.shape? r ≠ some .reporter

theorem obeys_iff {r : Registry} {b : Block ι} :
    b.Obeys r ↔
      (∀ s ∈ b.slots, ∀ kind ∈ r.kind? b.type, kind.hasSlot s.name = true) ∧
      (∀ c ∈ Slots.blocks b.slots, c.shape? r = some .reporter) ∧
      (b.children.isEmpty = false → b.shape? r = some .container) ∧
      (∀ c ∈ b.children, c.shape? r ≠ some .reporter) := by
  constructor
  · intro h
    refine ⟨h.slot_known, h.slot_shape, fun hne => h.container ?_, h.child_shape⟩
    exact List.isEmpty_eq_false_iff.mp hne
  · rintro ⟨hslots, hshapes, hcontainer, hchildren⟩
    exact ⟨hslots, hshapes, fun hne => hcontainer (List.isEmpty_eq_false_iff.mpr hne), hchildren⟩

instance (r : Registry) (b : Block ι) : Decidable (b.Obeys r) :=
  decidable_of_iff' _ obeys_iff

/-- With fewer slots and fewer children the rules still hold. -/
theorem Obeys.of_subset {r : Registry} {b b' : Block ι} (h : b.Obeys r) (htype : b'.type = b.type)
    (hslots : b'.slots ⊆ b.slots) (hchildren : b'.children ⊆ b.children) : b'.Obeys r where
  slot_known s hs := htype ▸ h.slot_known s (hslots hs)
  slot_shape c hc := by
    obtain ⟨name, hname⟩ := Slots.mem_blocks.mp hc
    exact h.slot_shape c (Slots.mem_blocks.mpr ⟨name, hslots hname⟩)
  container hne := by
    obtain ⟨c, hc⟩ := List.exists_mem_of_ne_nil _ hne
    rw [shape?, htype]
    exact h.container (List.ne_nil_of_mem (hchildren hc))
  child_shape c hc := h.child_shape c (hchildren hc)

/-- The rules at a block and at all blocks below it. -/
def WellFormed (r : Registry) (b : Block ι) : Prop :=
  ∀ c ∈ b.subtrees, c.Obeys r

instance (r : Registry) (b : Block ι) : Decidable (b.WellFormed r) :=
  inferInstanceAs (Decidable (∀ c ∈ b.subtrees, c.Obeys r))

/-- **The rules of a tree**, part by part. -/
theorem wellFormed_iff {r : Registry} {b : Block ι} :
    b.WellFormed r ↔ b.Obeys r ∧ ∀ p ∈ b.parts, p.WellFormed r := by
  constructor
  · intro h
    refine ⟨h b b.self_mem_subtrees, fun p hp c hc => ?_⟩
    exact h c (mem_subtrees.mpr (Or.inr ⟨p, hp, hc⟩))
  · rintro ⟨hself, hparts⟩ c hc
    rcases mem_subtrees.mp hc with rfl | ⟨p, hp, hcp⟩
    · exact hself
    · exact hparts p hp c hcp

theorem WellFormed.obeys {r : Registry} {b : Block ι} (h : b.WellFormed r) : b.Obeys r :=
  (wellFormed_iff.mp h).1

theorem WellFormed.part {r : Registry} {b p : Block ι} (h : b.WellFormed r) (hp : p ∈ b.parts) :
    p.WellFormed r :=
  (wellFormed_iff.mp h).2 p hp

theorem slots_mapId (g : ι → κ) (b : Block ι) :
    (b.mapId g).slots = b.slots.map (Slot.map (mapId g)) := by
  obtain ⟨i, t, slots, children⟩ := b
  rw [mapId_mk]
  rfl

theorem children_mapId (g : ι → κ) (b : Block ι) :
    (b.mapId g).children = b.children.map (mapId g) := by
  obtain ⟨i, t, slots, children⟩ := b
  rw [mapId_mk]
  rfl

theorem height_mapId (g : ι → κ) (b : Block ι) : (b.mapId g).height = b.height := by
  induction b using Block.induction with
  | step b ih =>
    rw [height_eq, height_eq b, parts_mapId, List.map_map]
    have hmap : b.parts.map (height ∘ mapId g) = b.parts.map height := List.map_congr_left ih
    rw [hmap]

theorem obeys_mapId {r : Registry} {g : ι → κ} {b : Block ι} :
    (b.mapId g).Obeys r ↔ b.Obeys r := by
  have hname : ∀ s : Slot (Block ι), (s.map (mapId g)).name = s.name := by
    intro s
    cases s <;> rfl
  rw [obeys_iff, obeys_iff, slots_mapId, children_mapId, Slots.blocks_map]
  simp only [List.forall_mem_map, type_mapId, shape?_mapId, List.isEmpty_map, hname]

theorem wellFormed_mapId {r : Registry} {g : ι → κ} {b : Block ι} :
    (b.mapId g).WellFormed r ↔ b.WellFormed r := by
  induction b using Block.induction with
  | step b ih =>
    rw [wellFormed_iff, wellFormed_iff (b := b), obeys_mapId, parts_mapId, List.forall_mem_map]
    exact and_congr_right fun _ => forall₂_congr ih

theorem WellFormed.child {r : Registry} {b c : Block ι} (h : b.WellFormed r)
    (hc : c ∈ b.children) : c.WellFormed r :=
  h.part (List.mem_append_right _ hc)

end Block

/-- **The rules of placement of a workspace.** -/
structure Workspace.WellPlaced (ws : Workspace) : Prop where
  wellFormed : ∀ b ∈ ws.blocks, b.WellFormed ws.registry
  /-- No root is a reporter. -/
  root_shape : ∀ b ∈ ws.blocks, b.shape? ws.registry ≠ some .reporter
  height_le : ∀ b ∈ ws.blocks, b.height ≤ heightLimit

theorem Workspace.wellPlaced_iff {ws : Workspace} :
    ws.WellPlaced ↔ ∀ b ∈ ws.blocks, b.WellFormed ws.registry ∧
      b.shape? ws.registry ≠ some .reporter ∧ b.height ≤ heightLimit :=
  ⟨fun h b hb => ⟨h.wellFormed b hb, h.root_shape b hb, h.height_le b hb⟩,
    fun h => ⟨fun b hb => (h b hb).1, fun b hb => (h b hb).2.1, fun b hb => (h b hb).2.2⟩⟩

instance (ws : Workspace) : Decidable ws.WellPlaced :=
  decidable_of_iff' _ Workspace.wellPlaced_iff

end Blockwork
