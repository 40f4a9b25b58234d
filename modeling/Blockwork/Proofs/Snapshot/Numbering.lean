import Mathlib
import Blockwork.Proofs.Block.Identifiers
import Blockwork.Proofs.Snapshot.Rebuilding

/-!
# The identifiers of rebuilt blocks

Rebuilding hands out identifiers one after the other, in the order in which `Block.ids` lists them:
a block, its reporters, its children. So the identifiers of what is rebuilt are all those from the
next one of the workspace on, without a gap, and the next one afterwards is the first that is not
among them (`Snapshot.Consecutive`, `Workspace.consecutive_of_restore`).
-/

namespace Blockwork

namespace Snapshot

variable {r : Registry} {path : String} {depth : Nat}

/-! ### Runs of identifiers -/

/-- These are the identifiers from `n` on, up to but without `m`. -/
def Consecutive (n m : Nat) (ids : List Nat) : Prop :=
  n ≤ m ∧ ids = List.range' n (m - n)

theorem Consecutive.nil (n : Nat) : Consecutive n n [] := by
  refine ⟨le_rfl, ?_⟩
  rw [Nat.sub_self, List.range'_zero]

theorem Consecutive.append {n k m : Nat} {xs ys : List Nat} (hx : Consecutive n k xs)
    (hy : Consecutive k m ys) : Consecutive n m (xs ++ ys) := by
  obtain ⟨hnk, rfl⟩ := hx
  obtain ⟨hkm, rfl⟩ := hy
  refine ⟨hnk.trans hkm, ?_⟩
  have hk : n + 1 * (k - n) = k := by omega
  have hlength : m - n = (k - n) + (m - k) := by omega
  rw [hlength, ← List.range'_append, hk]

theorem Consecutive.cons {n m : Nat} {xs : List Nat} (h : Consecutive (n + 1) m xs) :
    Consecutive n m (n :: xs) := by
  have hone : Consecutive n (n + 1) [n] := by
    refine ⟨Nat.le_succ n, ?_⟩
    rw [Nat.add_sub_cancel_left, List.range'_one]
  exact hone.append h

theorem Consecutive.length {n m : Nat} {xs : List Nat} (h : Consecutive n m xs) :
    m = n + xs.length := by
  obtain ⟨hle, rfl⟩ := h
  rw [List.length_range']
  omega

/-! ### Rebuilding -/

/-- Whatever path and depth it is rebuilt at, the identifiers of the tree are consecutive. -/
def Numbered (r : Registry) (b : Block Unit) : Prop :=
  ∀ path depth n b' m, Numbers (rebuild r path depth b) n b' m → Consecutive n m b'.ids

theorem rebuildSlots_numbered {type : String} {slots : List (Slot (Block Unit))}
    {slots' : List (Slot PlacedBlock)} {n m : BlockId}
    (ih : ∀ c ∈ Slots.blocks slots, Numbered r c)
    (h : Numbers (rebuildSlots r path depth type slots) n slots' m) :
    Consecutive n m (Block.idsAll (Slots.blocks slots')) := by
  induction slots generalizing n slots' with
  | nil =>
    rw [rebuildSlots, numbers_pure] at h
    obtain ⟨rfl, rfl⟩ := h
    exact .nil n
  | cons s rest ihs =>
    cases s with
    | literal name text =>
      obtain ⟨-, rest', hrest, rfl⟩ := numbers_rebuildSlots_literal.mp h
      rw [Slots.blocks_literal]
      exact ihs ih hrest
    | reporter name b =>
      obtain ⟨-, -, b', k, hb, rest', hrest, rfl⟩ := numbers_rebuildSlots_reporter.mp h
      -- the block of the slot is numbered before those of the slots that follow
      have hfirst := ih b List.mem_cons_self _ _ _ _ _ hb
      exact hfirst.append (ihs (fun c hc => ih c (List.mem_cons_of_mem b hc)) hrest)

theorem rebuildAll_numbered {index : Nat} {bs : List (Block Unit)} {bs' : List PlacedBlock}
    {n m : BlockId} (ih : ∀ c ∈ bs, Numbered r c)
    (h : Numbers (rebuildAll r path depth index bs) n bs' m) :
    Consecutive n m (Block.idsAll bs') := by
  induction bs generalizing index n bs' with
  | nil =>
    rw [rebuildAll, numbers_pure] at h
    obtain ⟨rfl, rfl⟩ := h
    exact .nil n
  | cons b rest ihs =>
    obtain ⟨-, b', k, hb, rest', hrest, rfl⟩ := numbers_rebuildAll_cons.mp h
    have hfirst := ih b List.mem_cons_self _ _ _ _ _ hb
    exact hfirst.append (ihs (fun c hc => ih c (List.mem_cons_of_mem b hc)) hrest)

/-- **A rebuilt tree has consecutive identifiers.** -/
theorem rebuild_numbered (b : Block Unit) : Numbered r b := by
  induction b using Block.induction with
  | step b ih =>
    obtain ⟨i, type, slots, children⟩ := b
    intro path depth n b' m h
    obtain ⟨-, slots', k, hslots, -, children', hchildren, rfl⟩ := numbers_rebuild.mp h
    have hreporters := rebuildSlots_numbered (fun c hc => ih c (List.mem_append_left _ hc)) hslots
    have hcommands := rebuildAll_numbered (fun c hc => ih c (List.mem_append_right _ hc)) hchildren
    rw [Block.ids_eq, Block.parts_mk, List.flatMap_append]
    exact (hreporters.append hcommands).cons

theorem rebuildRoots_numbered {index : Nat} {saved : List (Root Unit)}
    {roots : List (Root BlockId)} {n m : BlockId}
    (h : Numbers (rebuildRoots r index saved) n roots m) :
    Consecutive n m (Block.idsAll (roots.map Root.block)) := by
  induction saved generalizing index n roots with
  | nil =>
    rw [rebuildRoots, numbers_pure] at h
    obtain ⟨rfl, rfl⟩ := h
    exact .nil n
  | cons s rest ih =>
    obtain ⟨-, b, k, hb, rest', hrest, rfl⟩ := numbers_rebuildRoots_cons.mp h
    exact (rebuild_numbered s.block _ _ _ _ _ hb).append (ih hrest)

end Snapshot

open Snapshot

/-- **Restoring hands out identifiers without a gap**, from the next one on. -/
theorem Workspace.consecutive_of_restore {ws ws' : Workspace} {s : Snapshot}
    (h : ws.restore s = .ok ws') : Consecutive ws.nextId ws'.nextId ws'.ids := by
  unfold restore at h
  dsimp only at h
  split at h
  · cases h
  · obtain ⟨assets, -, h⟩ := except_bind_eq_ok h
    obtain ⟨⟨roots, nextId⟩, hroots, h⟩ := except_bind_eq_ok h
    cases h
    exact rebuildRoots_numbered hroots

/-- Each placed block has one identifier. -/
theorem Workspace.length_ids (ws : Workspace) : ws.ids.length = ws.blockCount := by
  have hlength : ws.blocks.map (List.length ∘ Block.ids) = ws.blocks.map Block.count :=
    List.map_congr_left fun b _ => b.length_ids
  unfold ids blockCount
  rw [List.length_flatMap, ← hlength]
  rfl

end Blockwork
