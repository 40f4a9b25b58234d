import Mathlib
import Blockwork.Proofs.Block.Editing
import Blockwork.Snapshot.Restore

/-!
# Rebuilding saved blocks

A saved block is rebuilt with new identifiers, and every rule of placement is checked on the way.
The checks are exactly the rules: what is rebuilt is the saved tree, which is well formed and has
room below the place where it is to stand (`Snapshot.rebuild_faithful`), and every such tree can be
rebuilt (`Snapshot.rebuild_exists`).
-/

namespace Blockwork

/-- A tree without its identifiers. -/
def Block.saved {ι : Type} (b : Block ι) : Block Unit :=
  b.mapId fun _ => ()

namespace Snapshot

variable {r : Registry} {path : String} {depth : Nat}

/-! ### Numbering -/

/-- The numbering gives a value from this identifier on, and goes on from that one. -/
abbrev Numbers {α : Type} (x : Numbering α) (n : BlockId) (a : α) (m : BlockId) : Prop :=
  x.run n = .ok (a, m)

theorem numbers_bind {α β : Type} {x : Numbering α} {f : α → Numbering β} {n k : BlockId} {b : β} :
    Numbers (x >>= f) n b k ↔ ∃ a m, Numbers x n a m ∧ Numbers (f a) m b k := by
  unfold Numbers
  rw [StateT.run_bind]
  constructor
  · intro h
    obtain ⟨⟨a, m⟩, hx, hf⟩ := except_bind_eq_ok h
    exact ⟨a, m, hx, hf⟩
  · rintro ⟨a, m, hx, hf⟩
    rw [hx]
    exact hf

theorem numbers_pure {α : Type} {a b : α} {n m : BlockId} :
    Numbers (pure a : Numbering α) n b m ↔ a = b ∧ n = m := by
  unfold Numbers
  rw [StateT.run_pure]
  constructor
  · intro h
    cases h
    exact ⟨rfl, rfl⟩
  · rintro ⟨rfl, rfl⟩
    rfl

theorem not_numbers_misplaced {α : Type} {problem : PlacementError} {n m : BlockId} {a : α} :
    ¬ Numbers (misplaced path problem) n a m := by
  intro h
  cases h

theorem numbers_fresh {n m i : BlockId} : Numbers fresh n i m ↔ n = i ∧ n + 1 = m := by
  constructor
  · intro h
    cases h
    exact ⟨rfl, rfl⟩
  · rintro ⟨rfl, rfl⟩
    rfl

/-- A check comes before the rest. -/
theorem numbers_check {α : Type} {p : Prop} [Decidable p] {problem : PlacementError}
    {x : Numbering α} {n m : BlockId} {a : α} :
    Numbers (do
      if p then misplaced path problem
      x) n a m ↔ ¬ p ∧ Numbers x n a m := by
  by_cases h : p
  · rw [if_pos h]
    refine ⟨fun hn => ?_, fun hn => absurd h hn.1⟩
    obtain ⟨_, _, hn, -⟩ := numbers_bind.mp hn
    exact absurd hn not_numbers_misplaced
  · rw [if_neg h]
    exact ⟨fun hn => ⟨h, hn⟩, fun hn => hn.2⟩

/-! ### The checks of a block -/

/-- **Rebuilding a block**: there is room for it, its slots can be rebuilt, it may have children,
and they can be rebuilt. -/
theorem numbers_rebuild {i : Unit} {type : String} {slots : List (Slot (Block Unit))}
    {children : List (Block Unit)} {n m : BlockId} {b : PlacedBlock} :
    Numbers (rebuild r path depth (.mk i type slots children)) n b m ↔
      depth < heightLimit ∧ ∃ slots' k,
        Numbers (rebuildSlots r path depth type slots) (n + 1) slots' k ∧
        (children ≠ [] → r.shape? type = some .container) ∧
        ∃ children', Numbers (rebuildAll r path (depth + 1) 0 children) k children' m ∧
          b = .mk n type slots' children' := by
  rw [rebuild, numbers_check, not_le]
  refine and_congr_right fun _ => ?_
  have hguard : ¬ (!children.isEmpty && decide (r.shape? type ≠ some .container)) = true ↔
      (children ≠ [] → r.shape? type = some .container) := by
    cases children <;> simp
  simp only [numbers_bind, numbers_fresh, numbers_check, hguard, numbers_pure]
  constructor
  · rintro ⟨_, _, ⟨rfl, rfl⟩, slots', k, hslots, hcontainer, children', _, hchildren, rfl, rfl⟩
    exact ⟨slots', k, hslots, hcontainer, children', hchildren, rfl⟩
  · rintro ⟨slots', k, hslots, hcontainer, children', hchildren, rfl⟩
    exact ⟨n, n + 1, ⟨rfl, rfl⟩, slots', k, hslots, hcontainer, children', m, hchildren, rfl, rfl⟩

/-- The slot is one that the type has, if it is known. -/
def SlotKnown (r : Registry) (type name : String) : Prop :=
  ∀ kind, r.kind? type = some kind → kind.hasSlot name = true

theorem numbers_slotCheck {α : Type} {type name : String} {x : Numbering α} {n m : BlockId}
    {a : α} :
    Numbers (do
      if let some kind := r.kind? type then
        if !kind.hasSlot name then misplaced path (.unknownSlot type name)
      x) n a m ↔ SlotKnown r type name ∧ Numbers x n a m := by
  unfold SlotKnown
  cases r.kind? type with
  | none =>
    refine ⟨fun h => ⟨?_, h⟩, fun h => h.2⟩
    intro kind hkind
    cases hkind
  | some kind =>
    refine numbers_check.trans (and_congr_left fun _ => ?_)
    simp

theorem numbers_rebuildSlots_literal {type name text : String} {rest : List (Slot (Block Unit))}
    {n m : BlockId} {slots' : List (Slot PlacedBlock)} :
    Numbers (rebuildSlots r path depth type (.literal name text :: rest)) n slots' m ↔
      SlotKnown r type name ∧ ∃ rest', Numbers (rebuildSlots r path depth type rest) n rest' m ∧
        slots' = .literal name text :: rest' := by
  rw [rebuildSlots]
  refine numbers_slotCheck.trans (and_congr_right fun _ => ?_)
  simp only [numbers_bind, numbers_pure]
  constructor
  · rintro ⟨_, _, ⟨rfl, rfl⟩, rest', _, hrest, rfl, rfl⟩
    exact ⟨rest', hrest, rfl⟩
  · rintro ⟨rest', hrest, rfl⟩
    exact ⟨_, n, ⟨rfl, rfl⟩, rest', m, hrest, rfl, rfl⟩

theorem numbers_rebuildSlots_reporter {type name : String} {b : Block Unit}
    {rest : List (Slot (Block Unit))} {n m : BlockId} {slots' : List (Slot PlacedBlock)} :
    Numbers (rebuildSlots r path depth type (.reporter name b :: rest)) n slots' m ↔
      SlotKnown r type name ∧ b.shape? r = some .reporter ∧
        ∃ b' k, Numbers (rebuild r s!"{path}.slots.{name}" (depth + 1) b) n b' k ∧
        ∃ rest', Numbers (rebuildSlots r path depth type rest) k rest' m ∧
          slots' = .reporter name b' :: rest' := by
  rw [rebuildSlots]
  refine numbers_slotCheck.trans (and_congr_right fun _ => ?_)
  refine numbers_check.trans (and_congr not_not ?_)
  simp only [numbers_bind, numbers_pure]
  constructor
  · rintro ⟨b', k, hb, _, _, ⟨rfl, rfl⟩, rest', _, hrest, rfl, rfl⟩
    exact ⟨b', k, hb, rest', hrest, rfl⟩
  · rintro ⟨b', k, hb, rest', hrest, rfl⟩
    exact ⟨b', k, hb, _, k, ⟨rfl, rfl⟩, rest', m, hrest, rfl, rfl⟩

theorem numbers_rebuildAll_cons {index : Nat} {b : Block Unit} {rest : List (Block Unit)}
    {n m : BlockId} {bs : List PlacedBlock} :
    Numbers (rebuildAll r path depth index (b :: rest)) n bs m ↔
      b.shape? r ≠ some .reporter ∧
        ∃ b' k, Numbers (rebuild r s!"{path}.children[{index}]" depth b) n b' k ∧
        ∃ rest', Numbers (rebuildAll r path depth (index + 1) rest) k rest' m ∧
          bs = b' :: rest' := by
  rw [rebuildAll]
  refine numbers_check.trans (and_congr_right fun _ => ?_)
  simp only [numbers_bind, numbers_pure]
  constructor
  · rintro ⟨b', k, hb, rest', _, hrest, rfl, rfl⟩
    exact ⟨b', k, hb, rest', hrest, rfl⟩
  · rintro ⟨b', k, hb, rest', hrest, rfl⟩
    exact ⟨b', k, hb, rest', m, hrest, rfl, rfl⟩

/-! ### The checks are the rules -/

/-- There is a tree's height of room below a depth, and the tree is well formed. -/
def Fits (r : Registry) (depth : Nat) (b : Block Unit) : Prop :=
  b.WellFormed r ∧ depth + b.height ≤ heightLimit

/-- Whatever path and identifiers it is rebuilt with, the tree fits, and comes out as it was. -/
def Faithful (r : Registry) (b : Block Unit) : Prop :=
  ∀ path depth n b' m, Numbers (rebuild r path depth b) n b' m → b'.saved = b ∧ Fits r depth b

theorem rebuildSlots_faithful {type : String} {slots : List (Slot (Block Unit))}
    {slots' : List (Slot PlacedBlock)} {n m : BlockId}
    (ih : ∀ c ∈ Slots.blocks slots, Faithful r c)
    (h : Numbers (rebuildSlots r path depth type slots) n slots' m) :
    slots'.map (Slot.map Block.saved) = slots ∧ (∀ s ∈ slots, SlotKnown r type s.name) ∧
      ∀ c ∈ Slots.blocks slots, c.shape? r = some .reporter ∧ Fits r (depth + 1) c := by
  induction slots generalizing n slots' with
  | nil =>
    rw [rebuildSlots, numbers_pure] at h
    obtain ⟨rfl, -⟩ := h
    exact ⟨rfl, List.forall_mem_nil _, List.forall_mem_nil _⟩
  | cons s rest ihs =>
    cases s with
    | literal name text =>
      obtain ⟨hknown, rest', hrest, rfl⟩ := numbers_rebuildSlots_literal.mp h
      obtain ⟨hsaved, hnames, hblocks⟩ := ihs ih hrest
      refine ⟨congrArg (Slot.literal name text :: ·) hsaved, ?_, hblocks⟩
      exact List.forall_mem_cons.mpr ⟨hknown, hnames⟩
    | reporter name b =>
      obtain ⟨hknown, hshape, b', k, hb, rest', hrest, rfl⟩ :=
        numbers_rebuildSlots_reporter.mp h
      obtain ⟨hb', hfits⟩ := ih b List.mem_cons_self _ _ _ _ _ hb
      obtain ⟨hsaved, hnames, hblocks⟩ := ihs (fun c hc => ih c (List.mem_cons_of_mem b hc)) hrest
      refine ⟨?_, List.forall_mem_cons.mpr ⟨hknown, hnames⟩,
        List.forall_mem_cons.mpr ⟨⟨hshape, hfits⟩, hblocks⟩⟩
      rw [List.map_cons, Slot.map, hb', hsaved]

theorem rebuildAll_faithful {index : Nat} {bs : List (Block Unit)} {bs' : List PlacedBlock}
    {n m : BlockId} (ih : ∀ c ∈ bs, Faithful r c)
    (h : Numbers (rebuildAll r path depth index bs) n bs' m) :
    bs'.map Block.saved = bs ∧
      ∀ c ∈ bs, c.shape? r ≠ some .reporter ∧ Fits r depth c := by
  induction bs generalizing index n bs' with
  | nil =>
    rw [rebuildAll, numbers_pure] at h
    obtain ⟨rfl, -⟩ := h
    exact ⟨rfl, List.forall_mem_nil _⟩
  | cons b rest ihs =>
    obtain ⟨hshape, b', k, hb, rest', hrest, rfl⟩ := numbers_rebuildAll_cons.mp h
    obtain ⟨hb', hfits⟩ := ih b List.mem_cons_self _ _ _ _ _ hb
    obtain ⟨hsaved, hblocks⟩ := ihs (fun c hc => ih c (List.mem_cons_of_mem b hc)) hrest
    refine ⟨?_, List.forall_mem_cons.mpr ⟨⟨hshape, hfits⟩, hblocks⟩⟩
    rw [List.map_cons, hb', hsaved]

/-- **What is rebuilt obeys the rules**, and is what was saved. -/
theorem rebuild_faithful (b : Block Unit) : Faithful r b := by
  induction b using Block.induction with
  | step b ih =>
    obtain ⟨i, type, slots, children⟩ := b
    intro path depth n b' m h
    obtain ⟨hdepth, slots', k, hslots, hcontainer, children', hchildren, rfl⟩ :=
      numbers_rebuild.mp h
    have ihslots : ∀ c ∈ Slots.blocks slots, Faithful r c := fun c hc =>
      ih c (List.mem_append_left _ hc)
    have ihchildren : ∀ c ∈ children, Faithful r c := fun c hc =>
      ih c (List.mem_append_right _ hc)
    obtain ⟨hsaved, hnames, hreporters⟩ := rebuildSlots_faithful ihslots hslots
    obtain ⟨hsaved', hcommands⟩ := rebuildAll_faithful ihchildren hchildren
    have hparts : ∀ c ∈ (Block.mk i type slots children).parts, Fits r (depth + 1) c := by
      intro c hc
      rcases List.mem_append.mp hc with hc | hc
      · exact (hreporters c hc).2
      · exact (hcommands c hc).2
    refine ⟨?_, Block.wellFormed_iff.mpr ⟨⟨hnames, ?_, hcontainer, ?_⟩, ?_⟩, ?_⟩
    · unfold Block.saved at hsaved hsaved' ⊢
      rw [Block.mapId_mk, hsaved, hsaved']
    · intro c hc
      exact (hreporters c hc).1
    · intro c hc
      exact (hcommands c hc).1
    · intro c hc
      exact (hparts c hc).1
    · -- the parts have one level less of room, and the check of the depth leaves one for the block
      have hheight : (Block.mk i type slots children).height ≤ heightLimit - depth := by
        refine Block.height_le_of_parts (Nat.sub_pos_of_lt hdepth) fun c hc => ?_
        have hlow := (hparts c hc).2
        omega
      omega

theorem rebuildSlots_exists {type : String} {slots : List (Slot (Block Unit))}
    (ih : ∀ c ∈ Slots.blocks slots, ∀ path n, ∃ b' m, Numbers (rebuild r path (depth + 1) c) n b' m)
    (hknown : ∀ s ∈ slots, SlotKnown r type s.name)
    (hshape : ∀ c ∈ Slots.blocks slots, c.shape? r = some .reporter) (n : BlockId) :
    ∃ slots' m, Numbers (rebuildSlots r path depth type slots) n slots' m := by
  induction slots generalizing n with
  | nil =>
    refine ⟨[], n, ?_⟩
    rw [rebuildSlots, numbers_pure]
    exact ⟨rfl, rfl⟩
  | cons s rest ihs =>
    obtain ⟨hs, hrest⟩ := List.forall_mem_cons.mp hknown
    cases s with
    | literal name text =>
      obtain ⟨rest', m, hm⟩ := ihs ih hrest hshape n
      exact ⟨_, m, numbers_rebuildSlots_literal.mpr ⟨hs, rest', hm, rfl⟩⟩
    | reporter name b =>
      obtain ⟨hb, hshapes⟩ := List.forall_mem_cons.mp hshape
      -- the rest is numbered from where the block of the slot has ended
      obtain ⟨b', k, hk⟩ := ih b List.mem_cons_self s!"{path}.slots.{name}" n
      obtain ⟨rest', m, hm⟩ := ihs (fun c hc => ih c (List.mem_cons_of_mem b hc)) hrest hshapes k
      exact ⟨_, m, numbers_rebuildSlots_reporter.mpr ⟨hs, hb, b', k, hk, rest', hm, rfl⟩⟩

theorem rebuildAll_exists {bs : List (Block Unit)}
    (ih : ∀ c ∈ bs, ∀ path n, ∃ b' m, Numbers (rebuild r path depth c) n b' m)
    (hshape : ∀ c ∈ bs, c.shape? r ≠ some .reporter) (index : Nat) (n : BlockId) :
    ∃ bs' m, Numbers (rebuildAll r path depth index bs) n bs' m := by
  induction bs generalizing index n with
  | nil =>
    refine ⟨[], n, ?_⟩
    rw [rebuildAll, numbers_pure]
    exact ⟨rfl, rfl⟩
  | cons b rest ihs =>
    obtain ⟨hb, hshapes⟩ := List.forall_mem_cons.mp hshape
    obtain ⟨b', k, hk⟩ := ih b List.mem_cons_self s!"{path}.children[{index}]" n
    obtain ⟨rest', m, hm⟩ :=
      ihs (fun c hc => ih c (List.mem_cons_of_mem b hc)) hshapes (index + 1) k
    exact ⟨_, m, numbers_rebuildAll_cons.mpr ⟨hb, b', k, hk, rest', hm, rfl⟩⟩

/-- **Whatever obeys the rules can be rebuilt.** -/
theorem rebuild_exists {b : Block Unit} (h : Fits r depth b) (n : BlockId) :
    ∃ b' m, Numbers (rebuild r path depth b) n b' m := by
  induction b using Block.induction generalizing path depth n with
  | step b ih =>
    obtain ⟨i, type, slots, children⟩ := b
    obtain ⟨hwellFormed, hheight⟩ := h
    obtain ⟨hobeys, hparts⟩ := Block.wellFormed_iff.mp hwellFormed
    have hfits : ∀ c ∈ (Block.mk i type slots children).parts, Fits r (depth + 1) c := by
      intro c hc
      have hlt := Block.height_lt_of_mem_parts hc
      exact ⟨hparts c hc, by omega⟩
    -- a part starts at whatever identifier is next, so the induction is over all `n`
    have hexists : ∀ c ∈ (Block.mk i type slots children).parts, ∀ path n,
        ∃ b' m, Numbers (rebuild r path (depth + 1) c) n b' m := fun c hc path n =>
      ih c hc (hfits c hc) n
    have hslots : ∃ slots' k, Numbers (rebuildSlots r path depth type slots) (n + 1) slots' k :=
      rebuildSlots_exists (fun c hc => hexists c (List.mem_append_left _ hc))
        hobeys.slot_known hobeys.slot_shape (n + 1)
    obtain ⟨slots', k, hslots⟩ := hslots
    have hchildren : ∃ children' m,
        Numbers (rebuildAll r path (depth + 1) 0 children) k children' m :=
      rebuildAll_exists (fun c hc => hexists c (List.mem_append_right _ hc))
        hobeys.child_shape 0 k
    obtain ⟨children', m, hchildren⟩ := hchildren
    have hpos := (Block.mk i type slots children).height_pos
    exact ⟨_, m, numbers_rebuild.mpr
      ⟨by omega, slots', k, hslots, hobeys.container, children', hchildren, rfl⟩⟩

/-! ### Roots -/

/-- The root that a saved root is rebuilt as, given its tree. -/
def placeAgain (root : Root Unit) (b : PlacedBlock) : Root BlockId :=
  ⟨snapToGrid (Float.ofInt root.x.toInt), snapToGrid (Float.ofInt root.y.toInt), b⟩

theorem numbers_rebuildRoots_cons {index : Nat} {root : Root Unit} {rest : List (Root Unit)}
    {n m : BlockId} {roots : List (Root BlockId)} :
    Numbers (rebuildRoots r index (root :: rest)) n roots m ↔
      root.block.shape? r ≠ some .reporter ∧
        ∃ b k, Numbers (rebuild r s!"roots[{index}]" 0 root.block) n b k ∧
        ∃ rest', Numbers (rebuildRoots r (index + 1) rest) k rest' m ∧
          roots = placeAgain root b :: rest' := by
  rw [rebuildRoots]
  refine numbers_check.trans (and_congr_right fun _ => ?_)
  simp only [numbers_bind, numbers_pure]
  constructor
  · rintro ⟨b, k, hb, rest', _, hrest, rfl, rfl⟩
    exact ⟨b, k, hb, rest', hrest, rfl⟩
  · rintro ⟨b, k, hb, rest', hrest, rfl⟩
    exact ⟨b, k, hb, rest', m, hrest, rfl, rfl⟩

/-- A saved root obeys the rules of roots. -/
def RootFits (r : Registry) (b : Block Unit) : Prop :=
  b.shape? r ≠ some .reporter ∧ Fits r 0 b

/-- The roots stand for saved ones, each at its place on the grid. -/
def Replaced (saved : List (Root Unit)) (roots : List (Root BlockId)) : Prop :=
  List.Forall₂ (fun s root => root.block.saved = s.block ∧ root = placeAgain s root.block)
    saved roots

theorem Replaced.exists_saved {saved : List (Root Unit)} {roots : List (Root BlockId)}
    (h : Replaced saved roots) {root : Root BlockId} (hroot : root ∈ roots) :
    ∃ s ∈ saved, root.block.saved = s.block ∧ root = placeAgain s root.block := by
  induction h with
  | nil => cases hroot
  | cons hfirst _ ih =>
    rcases List.mem_cons.mp hroot with rfl | hroot
    · exact ⟨_, List.mem_cons_self, hfirst⟩
    · obtain ⟨s, hs, hrest⟩ := ih hroot
      exact ⟨s, List.mem_cons_of_mem _ hs, hrest⟩

theorem rebuildRoots_faithful {index : Nat} {saved : List (Root Unit)}
    {roots : List (Root BlockId)} {n m : BlockId}
    (h : Numbers (rebuildRoots r index saved) n roots m) :
    Replaced saved roots ∧ ∀ s ∈ saved, RootFits r s.block := by
  induction saved generalizing index n roots with
  | nil =>
    rw [rebuildRoots, numbers_pure] at h
    obtain ⟨rfl, -⟩ := h
    exact ⟨.nil, List.forall_mem_nil _⟩
  | cons s rest ih =>
    obtain ⟨hshape, b, k, hb, rest', hrest, rfl⟩ := numbers_rebuildRoots_cons.mp h
    obtain ⟨hsaved, hfits⟩ := rebuild_faithful s.block _ _ _ _ _ hb
    obtain ⟨hreplaced, hrestFits⟩ := ih hrest
    exact ⟨.cons ⟨hsaved, rfl⟩ hreplaced, List.forall_mem_cons.mpr ⟨⟨hshape, hfits⟩, hrestFits⟩⟩

theorem rebuildRoots_exists {saved : List (Root Unit)} (h : ∀ s ∈ saved, RootFits r s.block)
    (index : Nat) (n : BlockId) : ∃ roots m, Numbers (rebuildRoots r index saved) n roots m := by
  induction saved generalizing index n with
  | nil =>
    refine ⟨[], n, ?_⟩
    rw [rebuildRoots, numbers_pure]
    exact ⟨rfl, rfl⟩
  | cons s rest ih =>
    obtain ⟨⟨hshape, hfits⟩, hrest⟩ := List.forall_mem_cons.mp h
    have hb : ∃ b k, Numbers (rebuild r s!"roots[{index}]" 0 s.block) n b k :=
      rebuild_exists hfits n
    obtain ⟨b, k, hb⟩ := hb
    obtain ⟨roots, m, hroots⟩ := ih hrest (index + 1) k
    exact ⟨_, m, numbers_rebuildRoots_cons.mpr ⟨hshape, b, k, hb, roots, hroots, rfl⟩⟩

end Snapshot

/-! ### Restoring -/

namespace Workspace

open Snapshot

/-- **What a workspace is after a snapshot has been restored.** -/
structure Restored (ws : Workspace) (s : Snapshot) (ws' : Workspace) : Prop where
  version : s.version = currentVersion
  registry : ws'.registry = ws.registry
  roots : Replaced s.roots ws'.roots
  fits : ∀ root ∈ s.roots, RootFits ws.registry root.block
  assets : assetStore s.assets = .ok ws'.assets

theorem restored_of_restore {ws ws' : Workspace} {s : Snapshot} (h : ws.restore s = .ok ws') :
    ws.Restored s ws' := by
  unfold restore at h
  dsimp only at h
  split at h
  · cases h
  · next hversion =>
    obtain ⟨assets, hassets, h⟩ := except_bind_eq_ok h
    obtain ⟨⟨roots, nextId⟩, hroots, h⟩ := except_bind_eq_ok h
    cases h
    obtain ⟨hreplaced, hfits⟩ := rebuildRoots_faithful hroots
    exact ⟨not_not.mp hversion, rfl, hreplaced, hfits, hassets⟩

/-- What is restored is well placed. -/
theorem Restored.wellPlaced {ws ws' : Workspace} {s : Snapshot} (h : ws.Restored s ws') :
    ws'.WellPlaced := by
  rw [wellPlaced_iff, h.registry]
  intro b hb
  obtain ⟨root, hroot, rfl⟩ := List.mem_map.mp hb
  obtain ⟨saved, hsaved, hblock, -⟩ := h.roots.exists_saved hroot
  obtain ⟨hshape, hwellFormed, hheight⟩ := h.fits saved hsaved
  rw [← hblock] at hshape hwellFormed hheight
  unfold Block.saved at hshape hwellFormed hheight
  rw [Block.shape?_mapId] at hshape
  rw [Block.height_mapId, Nat.zero_add] at hheight
  exact ⟨Block.wellFormed_mapId.mp hwellFormed, hshape, hheight⟩

theorem exists_restore {ws : Workspace} {s : Snapshot} (hversion : s.version = currentVersion)
    {assets : Run.AssetStore} (hassets : assetStore s.assets = .ok assets)
    (hroots : ∀ root ∈ s.roots, RootFits ws.registry root.block) :
    ∃ ws', ws.restore s = .ok ws' := by
  obtain ⟨roots, m, hnumbers⟩ := rebuildRoots_exists hroots 0 ws.nextId
  refine ⟨{ ws with roots, assets, nextId := m }, ?_⟩
  unfold restore
  rw [if_neg (not_not.mpr hversion), hassets]
  change (StateT.run (rebuildRoots ws.registry 0 s.roots) ws.nextId >>= _) = _
  rw [hnumbers]
  rfl

end Workspace

end Blockwork
