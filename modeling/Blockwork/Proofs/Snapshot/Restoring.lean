import Mathlib
import Blockwork.Proofs.Snapshot.Numbering
import Blockwork.Proofs.Text.Base64
import Blockwork.Proofs.Workspace.Mutation

/-!
# Which snapshots are restored

A snapshot is restored if it is `Snapshot.Accepted`: it is of the current version, its assets are
encodings, and its trees obey the rules of placement, where the rules are said of a block at any
place of a tree and the depth of the block is the length of its place. There is no other way to
fail, and what comes of a snapshot that is restored is known up to the last identifier
(`Workspace.restore_iff_accepted`).
-/

namespace Blockwork

variable {ι : Type}

/-! ### Depth by places -/

/-- **The height of a tree** bounds its places. -/
theorem Block.height_le_iff_place {b : Block ι} {n : Nat} :
    b.height ≤ n ↔ ∀ (p : Place ι) (c : Block ι), p.fill c = b → p.length < n := by
  constructor
  · rintro h p c rfl
    have hplace := p.length_add_height_le c
    have hpos := c.height_pos
    omega
  · intro h
    induction b using Block.induction generalizing n with
    | step b ih =>
      obtain ⟨m, rfl⟩ := Nat.exists_eq_succ_of_ne_zero (Nat.ne_zero_of_lt (h [] b rfl))
      refine height_le_succ.mpr fun c hc => ih c hc fun p d hd => ?_
      obtain ⟨a, rfl⟩ := exists_around hc
      have hdeeper := h (a :: p) d (congrArg a.fill hd)
      rw [List.length_cons] at hdeeper
      omega

/-! ### Assets -/

namespace Snapshot

/-- The asset is the saved one, decoded. -/
def Decoded (saved : String × String) (a : Run.Asset) : Prop :=
  a.name = saved.1 ∧ saved.2 = Base64.encode .standard a.data

/-- **The assets of a snapshot** are restored one by one. -/
theorem assetStore_eq_ok {saved : List (String × String)} {store : Run.AssetStore} :
    assetStore saved = .ok store ↔ List.Forall₂ Decoded saved store := by
  induction saved generalizing store with
  | nil =>
    rw [assetStore, List.forall₂_nil_left_iff]
    exact ⟨fun h => (Except.ok.inj h).symm, fun h => congrArg Except.ok h.symm⟩
  | cons first rest ih =>
    obtain ⟨name, text⟩ := first
    rw [List.forall₂_cons_left_iff]
    unfold assetStore
    constructor
    · intro h
      split at h
      · cases h
      · next data hdata =>
        obtain ⟨others, hothers, h⟩ := except_bind_eq_ok h
        cases h
        exact ⟨_, others, ⟨rfl, Base64.decode_text_eq_ok.mp hdata⟩, ih.mp hothers, rfl⟩
    · rintro ⟨⟨_, data⟩, others, ⟨rfl, hdata⟩, hothers, rfl⟩
      rw [Base64.decode_text_eq_ok.mpr hdata, ih.mpr hothers]
      rfl

theorem exists_assetStore {saved : List (String × String)}
    (h : ∀ p ∈ saved, ∃ data, p.2 = Base64.encode .standard data) :
    ∃ store, assetStore saved = .ok store := by
  induction saved with
  | nil => exact ⟨[], rfl⟩
  | cons p rest ih =>
    obtain ⟨⟨data, hdata⟩, hrest⟩ := List.forall_mem_cons.mp h
    obtain ⟨store, hstore⟩ := ih hrest
    refine ⟨⟨p.1, data⟩ :: store, assetStore_eq_ok.mpr (.cons ⟨rfl, hdata⟩ ?_)⟩
    exact assetStore_eq_ok.mp hstore

theorem exists_encode_of_decoded {saved : List (String × String)} {store : Run.AssetStore}
    (h : List.Forall₂ Decoded saved store) :
    ∀ p ∈ saved, ∃ data, p.2 = Base64.encode .standard data := by
  induction h with
  | nil => exact List.forall_mem_nil _
  | cons hfirst _ ih => exact List.forall_mem_cons.mpr ⟨⟨_, hfirst.2⟩, ih⟩

/-! ### What is accepted -/

/-- **What a snapshot has to be** to be restored over a registry. -/
structure Accepted (r : Registry) (s : Snapshot) : Prop where
  version : s.version = 1
  assets : ∀ p ∈ s.assets, ∃ data, p.2 = Base64.encode .standard data
  root_shape : ∀ root ∈ s.roots, root.block.shape? r ≠ some .reporter
  /-- No block is too deep. -/
  depth_lt : ∀ root ∈ s.roots, ∀ (p : Place Unit) (b : Block Unit), p.fill b = root.block →
    p.length < 32
  /-- Every block obeys the rules. -/
  obeys : ∀ root ∈ s.roots, ∀ (p : Place Unit) (b : Block Unit), p.fill b = root.block → b.Obeys r

variable {r : Registry} {s : Snapshot}

/-- The rules at all places of a root. -/
theorem rootFits_iff {b : Block Unit} :
    RootFits r b ↔ b.shape? r ≠ some .reporter ∧
      (∀ (p : Place Unit) (c : Block Unit), p.fill c = b → p.length < heightLimit) ∧
      ∀ (p : Place Unit) (c : Block Unit), p.fill c = b → c.Obeys r := by
  unfold RootFits Fits Block.WellFormed
  rw [Nat.zero_add, Block.height_le_iff_place, and_comm (b := _ ∧ _)]
  simp only [Block.mem_subtrees_iff_place, forall_exists_index]
  constructor
  · rintro ⟨⟨hobeys, hdepth⟩, hshape⟩
    exact ⟨hshape, hdepth, fun p c h => hobeys c p h⟩
  · rintro ⟨hshape, hdepth, hobeys⟩
    exact ⟨⟨fun c p h => hobeys p c h, hdepth⟩, hshape⟩

end Snapshot

open Snapshot

namespace Workspace

variable {ws ws' : Workspace} {s : Snapshot}

theorem accepted_of_restore (h : ws.restore s = .ok ws') : s.Accepted ws.registry := by
  have hrestored := restored_of_restore h
  have hroot := fun root hroot => rootFits_iff.mp (hrestored.fits root hroot)
  exact {
    version := hrestored.version
    assets := exists_encode_of_decoded (assetStore_eq_ok.mp hrestored.assets)
    root_shape := fun root h => (hroot root h).1
    depth_lt := fun root h => (hroot root h).2.1
    obeys := fun root h => (hroot root h).2.2 }

theorem exists_restore_of_accepted (h : s.Accepted ws.registry) :
    ∃ ws', ws.restore s = .ok ws' := by
  obtain ⟨store, hstore⟩ := exists_assetStore h.assets
  refine exists_restore h.version hstore fun root hroot => ?_
  exact rootFits_iff.mpr ⟨h.root_shape root hroot, h.depth_lt root hroot, h.obeys root hroot⟩

/-- **Restoring takes exactly the snapshots that obey the rules.** What is restored are the saved
trees in their order, at the nearest points of the grid, with the next identifiers from the top
down, and the decoded assets. If the snapshot is not accepted, restoring it in place fails and
leaves the workspace as it was. -/
theorem restore_iff_accepted (ws : Workspace) (s : Snapshot) :
    ((∃ ws', ws.restore s = .ok ws') ↔ s.Accepted ws.registry) ∧
    (∀ ws', ws.restore s = .ok ws' →
      List.Forall₂ (fun saved root => root.block.saved = saved.block ∧
        root.x = snapToGrid (Float.ofInt saved.x.toInt) ∧
        root.y = snapToGrid (Float.ofInt saved.y.toInt)) s.roots ws'.roots ∧
      ws'.ids = List.range' ws.nextId ws'.blockCount ∧
      ws'.nextId = ws.nextId + ws'.blockCount ∧
      List.Forall₂ (fun saved a => a.name = saved.1 ∧ saved.2 = Base64.encode .standard a.data)
        s.assets ws'.assets ∧
      ws'.registry = ws.registry) ∧
    (¬ s.Accepted ws.registry →
      ∃ problem, ws.restore s = .error problem ∧ outcome (restoring s) ws = (.error problem, ws)) := by
  refine ⟨⟨fun ⟨_, h⟩ => accepted_of_restore h, exists_restore_of_accepted⟩, ?_, ?_⟩
  · intro ws' h
    have hrestored := restored_of_restore h
    have hids := consecutive_of_restore h
    have hnext : ws'.nextId = ws.nextId + ws'.blockCount := by
      rw [← ws'.length_ids]
      exact hids.length
    refine ⟨?_, ?_, hnext, assetStore_eq_ok.mp hrestored.assets, hrestored.registry⟩
    · refine hrestored.roots.imp fun saved root hroot => ⟨hroot.1, ?_, ?_⟩
      · exact congrArg Root.x hroot.2
      · exact congrArg Root.y hroot.2
    · -- identifiers are given out one after the other, and only to blocks
      rw [hids.2, hnext, Nat.add_sub_cancel_left]
  · intro hrejected
    cases h : ws.restore s with
    | error problem =>
      refine ⟨problem, rfl, ?_⟩
      rw [outcome_restoring, h]
      rfl
    | ok ws' => exact absurd (accepted_of_restore h) hrejected

end Workspace

end Blockwork
