import Mathlib
import Blockwork.Proofs.Float.Grid
import Blockwork.Proofs.Snapshot.Restoring
import Blockwork.Proofs.Workspace.Desk
import Blockwork.Workspace.Outline

/-!
# A saved workspace comes back

Whatever editing leads to can be saved and restored (`Workspace.reload`). The rules of placement
that restoring checks are those that editing keeps. The roots are at points of the grid, which stay
where they are. Of the assets with one name only the first is saved, but it is also the only one
that is ever looked up, and saving what has been restored gives the same assets again
(`Snapshot.savedAssets_of_decoded`). What identifiers the blocks have plays no part in what a
workspace is compiled to or reads like (`Block.fold_mapId`).
-/

namespace Blockwork

variable {ι κ α : Type} {r : Registry}

/-! ### What does not depend on identifiers -/

namespace Block

/-- **A fold over other identifiers.** -/
theorem fold_mapId (g : ι → κ) (f : κ → String → List (Slot α) → List α → α) (b : Block ι) :
    fold f (b.mapId g) = fold (fun i => f (g i)) b := by
  induction b using Block.induction with
  | step b ih =>
    obtain ⟨i, t, slots, children⟩ := b
    rw [mapId_mk, fold_mk, fold_mk, List.map_map, List.map_map]
    congr 1
    · refine List.map_congr_left fun s hs => ?_
      cases s with
      | literal n text => rfl
      | reporter n c =>
        have hc : c ∈ (mk i t slots children).parts :=
          List.mem_append_left _ (Slots.mem_blocks.mpr ⟨n, hs⟩)
        exact congrArg (Slot.reporter n) (ih c hc)
    · exact List.map_congr_left fun c hc => ih c (List.mem_append_right _ hc)

theorem count_mapId (g : ι → κ) (b : Block ι) : (b.mapId g).count = b.count :=
  fold_mapId g _ b

theorem label_mapId (g : ι → κ) (b : Block ι) : (b.mapId g).label r = b.label r :=
  fold_mapId g _ b

theorem compile_mapId (g : ι → κ) (b : Block ι) : (b.mapId g).compile r = b.compile r := by
  funext depth
  exact congrFun (fold_mapId g _ b) depth

theorem outlineAll_eq (level : Nat) (bs : List (Block ι)) :
    outlineAll r level bs = bs.flatMap (outline r level) := by
  induction bs with
  | nil => rfl
  | cons b rest ih => rw [outlineAll, ih, List.flatMap_cons]

theorem outline_mapId (g : ι → κ) (level : Nat) (b : Block ι) :
    (b.mapId g).outline r level = b.outline r level := by
  induction b using Block.induction generalizing level with
  | step b ih =>
    obtain ⟨i, t, slots, children⟩ := b
    have hlabel := label_mapId (r := r) g (mk i t slots children)
    rw [mapId_mk] at hlabel ⊢
    rw [outline, outline, hlabel, outlineAll_eq, outlineAll_eq, List.flatMap_map]
    congr 1
    exact List.flatMap_congr fun c hc => ih c (List.mem_append_right _ hc) (level + 1)

/-- What two trees that are saved alike have in common. -/
theorem outlineAll_children_mapId (g : ι → κ) (level : Nat) (b : Block ι) :
    outlineAll r level (b.mapId g).children = outlineAll r level b.children := by
  rw [children_mapId, outlineAll_eq, outlineAll_eq, List.flatMap_map]
  exact List.flatMap_congr fun c _ => outline_mapId g level c

end Block

/-- What is saved of a root. -/
def Root.saved (root : Root ι) : Root Unit :=
  ⟨root.x, root.y, root.block.saved⟩

theorem compileRoots_saved (bs : List (Block ι)) :
    compileRoots r (bs.map Block.saved) = compileRoots r bs := by
  have hcompile : ∀ b ∈ bs, ((fun b => b.compile r 0) ∘ Block.saved) b = b.compile r 0 := by
    intro b _
    exact congrFun (Block.compile_mapId _ b) 0
  unfold compileRoots
  rw [List.map_map, List.map_congr_left hcompile]

theorem Root.outline_saved (root : Root ι) : root.saved.outline r = root.outline r := by
  unfold Root.outline Root.saved Block.saved
  rw [Block.label_mapId, Block.outlineAll_children_mapId]

namespace Workspace

variable {ws ws' : Workspace}

theorem blocks_saved (hroots : ws'.roots.map Root.saved = ws.roots.map Root.saved) :
    ws'.blocks.map Block.saved = ws.blocks.map Block.saved := by
  have h := congrArg (List.map Root.block) hroots
  rw [List.map_map, List.map_map] at h
  unfold blocks
  rw [List.map_map, List.map_map]
  exact h

/-- **Two workspaces that are saved alike** cannot be told apart by what they are compiled to, what
they read like and how many blocks they have. -/
theorem congr_saved (hregistry : ws'.registry = ws.registry)
    (hroots : ws'.roots.map Root.saved = ws.roots.map Root.saved) :
    ws'.compile = ws.compile ∧ ws'.outline = ws.outline ∧ ws'.blockCount = ws.blockCount := by
  have hblocks := blocks_saved hroots
  have hcount : ∀ bs : List PlacedBlock,
      bs.map Block.count = (bs.map Block.saved).map Block.count := by
    intro bs
    rw [List.map_map]
    exact List.map_congr_left fun b _ => (Block.count_mapId _ b).symm
  -- an outline does not show identifiers, so it is that of the saved roots
  have houtline : ∀ roots : List (Root BlockId), roots.flatMap (Root.outline ws.registry)
      = (roots.map Root.saved).flatMap (Root.outline ws.registry) := by
    intro roots
    rw [List.flatMap_map]
    exact List.flatMap_congr fun root _ => (root.outline_saved).symm
  refine ⟨?_, ?_, ?_⟩
  · unfold compile
    rw [← compileRoots_saved, hblocks, hregistry, compileRoots_saved]
  · unfold outline
    rw [hregistry, houtline, hroots, ← houtline]
  · unfold blockCount
    rw [hcount, hblocks, ← hcount]

end Workspace

/-! ### Assets -/

namespace Snapshot

theorem encode_injective {v : Base64.Variant} : Function.Injective (Base64.encode v) := by
  intro xs ys h
  have hx := Base64.decode_text_eq_ok.mpr (rfl : Base64.encode v xs = Base64.encode v xs)
  rw [Base64.decode_text_eq_ok.mpr h] at hx
  exact (Except.ok.inj hx).symm

theorem savedAssets_cons (a : Run.Asset) (store : Run.AssetStore) :
    savedAssets (a :: store)
      = putNamed a.name (Base64.encode .standard a.data) (savedAssets store) := by
  unfold savedAssets
  rw [List.foldl_reverse, List.foldl_reverse, List.foldr_cons]

/-- The pairs are in the order of their names, each name once. -/
def Ascending {β : Type} (pairs : List (String × β)) : Prop :=
  pairs.Pairwise fun p q => p.1 < q.1

section PutNamed

variable {β : Type} {name : String} {value : β} {pairs : List (String × β)}

theorem lookup_putNamed (name key : String) (value : β) (pairs : List (String × β)) :
    (putNamed name value pairs).lookup key
      = if key = name then some value else pairs.lookup key := by
  have hcons : ∀ (p : String × β) (rest : List (String × β)),
      (p :: rest).lookup key = if key = p.1 then some p.2 else rest.lookup key := by
    intro p rest
    rw [List.lookup_cons]
    by_cases h : key = p.1
    · rw [if_pos h, beq_iff_eq.mpr h]
    · rw [if_neg h, beq_eq_false_iff_ne.mpr h]
  induction pairs with
  | nil => rw [putNamed, hcons]
  | cons p rest ih =>
    obtain ⟨n, v⟩ := p
    rw [putNamed]
    split
    · next hlt =>
      rw [hcons, hcons, ih]
      by_cases hn : key = n
      · -- the names that are passed over are smaller, so none of them is the new one
        have hne : key ≠ name := by
          rintro rfl
          exact String.lt_irrefl key (hn ▸ hlt)
        rw [if_pos hn, if_pos hn, if_neg hne]
      · rw [if_neg hn, if_neg hn]
    · split
      · next heq =>
        rw [hcons, hcons, heq]
        by_cases hn : key = name
        · rw [if_pos hn, if_pos hn]
        · rw [if_neg hn, if_neg hn, if_neg hn]
      · rw [hcons, hcons]

theorem mem_putNamed {p : String × β} (h : p ∈ putNamed name value pairs) :
    p = (name, value) ∨ p ∈ pairs := by
  induction pairs with
  | nil => exact Or.inl (List.mem_singleton.mp h)
  | cons q rest ih =>
    obtain ⟨n, v⟩ := q
    rw [putNamed] at h
    split at h
    · rcases List.mem_cons.mp h with rfl | h
      · exact Or.inr List.mem_cons_self
      · exact (ih h).imp_right (List.mem_cons_of_mem _)
    · split at h
      · rcases List.mem_cons.mp h with rfl | h
        · exact Or.inl rfl
        · exact Or.inr (List.mem_cons_of_mem _ h)
      · exact List.mem_cons.mp h

theorem Ascending.putNamed (h : Ascending pairs) : Ascending (putNamed name value pairs) := by
  induction pairs with
  | nil => exact List.pairwise_singleton _ _
  | cons q rest ih =>
    obtain ⟨n, v⟩ := q
    obtain ⟨hfirst, hrest⟩ := List.pairwise_cons.mp h
    rw [Snapshot.putNamed]
    split
    · next hlt =>
      refine List.pairwise_cons.mpr ⟨fun p hp => ?_, ih hrest⟩
      rcases mem_putNamed hp with rfl | hp
      · exact hlt
      · exact hfirst p hp
    · next hnot =>
      split
      · next heq =>
        subst heq
        exact List.pairwise_cons.mpr ⟨hfirst, hrest⟩
      · next hne =>
        -- the new name is neither above nor equal to the first, so it comes before all
        have hlt : name < n := lt_of_le_of_ne (not_lt.mp hnot) (Ne.symm hne)
        refine List.pairwise_cons.mpr ⟨fun p hp => ?_, h⟩
        rcases List.mem_cons.mp hp with rfl | hp
        · exact hlt
        · exact hlt.trans (hfirst p hp)

theorem putNamed_of_lt (h : ∀ p ∈ pairs, name < p.1) :
    putNamed name value pairs = (name, value) :: pairs := by
  cases pairs with
  | nil => rfl
  | cons p rest =>
    have hlt : name < p.1 := h p List.mem_cons_self
    rw [putNamed, if_neg (not_lt.mpr hlt.le), if_neg hlt.ne']

end PutNamed

theorem savedAssets_ascending (store : Run.AssetStore) : Ascending (savedAssets store) := by
  induction store with
  | nil => exact List.Pairwise.nil
  | cons a rest ih =>
    rw [savedAssets_cons]
    exact ih.putNamed

theorem savedAssets_encoded (store : Run.AssetStore) :
    ∀ p ∈ savedAssets store, ∃ data, p.2 = Base64.encode .standard data := by
  induction store with
  | nil => exact List.forall_mem_nil _
  | cons a rest ih =>
    intro p hp
    rw [savedAssets_cons] at hp
    rcases mem_putNamed hp with rfl | hp
    · exact ⟨a.data, rfl⟩
    · exact ih p hp

/-- **Of each name the first asset is saved.** -/
theorem lookup_savedAssets (store : Run.AssetStore) (name : String) :
    (savedAssets store).lookup name
      = (store.get? name).map fun a => Base64.encode .standard a.data := by
  unfold Run.AssetStore.get?
  induction store with
  | nil => rfl
  | cons a rest ih =>
    rw [savedAssets_cons, lookup_putNamed, ih, List.find?_cons]
    by_cases h : name = a.name
    · rw [if_pos h, decide_eq_true h.symm]
      rfl
    · rw [if_neg h, decide_eq_false (Ne.symm h)]

/-- **Saving what has been restored** gives the same again. -/
theorem savedAssets_of_decoded {saved : List (String × String)} {store : Run.AssetStore}
    (h : List.Forall₂ Decoded saved store) (hsaved : Ascending saved) :
    savedAssets store = saved := by
  induction h with
  | nil => rfl
  | @cons p a saved store hfirst _ ih =>
    obtain ⟨hlt, hrest⟩ := List.pairwise_cons.mp hsaved
    rw [savedAssets_cons, ih hrest, hfirst.1, ← hfirst.2]
    exact putNamed_of_lt hlt

/-- What is found under a name is what is saved under it. -/
theorem data_of_savedAssets_eq {store store' : Run.AssetStore} (name : String)
    (h : savedAssets store' = savedAssets store) :
    (store'.get? name).map Run.Asset.data = (store.get? name).map Run.Asset.data := by
  have hlookup : ((store'.get? name).map Run.Asset.data).map (Base64.encode .standard)
      = ((store.get? name).map Run.Asset.data).map (Base64.encode .standard) := by
    rw [Option.map_map, Option.map_map]
    exact (lookup_savedAssets store' name).symm.trans (h ▸ lookup_savedAssets store name)
  exact Option.map_injective encode_injective hlookup

/-! ### Roots -/

/-- Roots at points of the grid are restored as they were. -/
theorem saved_of_replaced {roots roots' : List (Root BlockId)}
    (h : Replaced (roots.map Root.saved) roots')
    (hsnapped : ∀ root ∈ roots, snapToGrid (Float.ofInt root.x.toInt) = root.x ∧
      snapToGrid (Float.ofInt root.y.toInt) = root.y) :
    roots'.map Root.saved = roots.map Root.saved := by
  induction roots generalizing roots' with
  | nil =>
    obtain rfl := List.forall₂_nil_left_iff.mp h
    rfl
  | cons root rest ih =>
    obtain ⟨root', rest', ⟨hblock, hplace⟩, hrest, rfl⟩ := List.forall₂_cons_left_iff.mp h
    obtain ⟨⟨hx, hy⟩, hsnapped⟩ := List.forall_mem_cons.mp hsnapped
    have hroot : root'.saved = root.saved := by
      rw [hplace]
      unfold placeAgain Root.saved
      dsimp only [Root.saved] at hblock ⊢
      -- placing again snaps the coordinates, and these are at points of the grid
      rw [hx, hy, hblock]
    rw [List.map_cons, List.map_cons, hroot, ih hrest hsnapped]

end Snapshot

open Snapshot

namespace Workspace

theorem snapshot_eq (ws : Workspace) :
    ws.snapshot = ⟨currentVersion, ws.roots.map Root.saved, savedAssets ws.assets⟩ :=
  rfl

/-- **Every saved workspace comes back as it was**, up to identifiers and up to assets that are
never looked up. -/
theorem reload {d : Desk} (h : Desk.Reachable r d)
    (hbound : ∀ root ∈ d.workspace.roots,
      root.x.toInt.natAbs < 2 ^ 53 ∧ root.y.toInt.natAbs < 2 ^ 53)
    (target : Workspace) (htarget : target.registry = r) :
    ∃ ws', target.restore d.workspace.snapshot = .ok ws' ∧
      ws'.snapshot = d.workspace.snapshot ∧
      ws'.compile = d.workspace.compile ∧
      ws'.outline = d.workspace.outline ∧
      ws'.blockCount = d.workspace.blockCount ∧
      ws'.blocks.map Block.saved = d.workspace.blocks.map Block.saved ∧
      ∀ name, (ws'.assets.get? name).map Run.Asset.data
        = (d.workspace.assets.get? name).map Run.Asset.data := by
  obtain ⟨hregistry, hroots⟩ := (Desk.sound_of_reachable h).workspace
  obtain ⟨store, hstore⟩ := exists_assetStore (savedAssets_encoded d.workspace.assets)
  have hfits : ∀ root ∈ d.workspace.snapshot.roots, RootFits target.registry root.block := by
    intro saved hsaved
    obtain ⟨root, hroot, rfl⟩ := List.mem_map.mp hsaved
    obtain ⟨hwellFormed, hshape, hheight, -⟩ := hroots root hroot
    rw [htarget]
    refine ⟨?_, Block.wellFormed_mapId.mpr hwellFormed, ?_⟩
    · rw [Block.shape?_mapId]
      exact hshape
    · rw [Block.height_mapId, Nat.zero_add]
      exact hheight
  obtain ⟨ws', hws'⟩ := exists_restore rfl hstore hfits
  have hrestored := restored_of_restore hws'
  -- the places are on the grid already; below `2 ^ 53` saving and snapping do not move them
  have hsnapped : ∀ root ∈ d.workspace.roots, snapToGrid (Float.ofInt root.x.toInt) = root.x ∧
      snapToGrid (Float.ofInt root.y.toInt) = root.y := by
    intro root hroot
    obtain ⟨x, y, hx, hy⟩ := (hroots root hroot).snapped
    obtain ⟨hsmall, hsmall'⟩ := hbound root hroot
    rw [hx, hy] at *
    exact ⟨snapToGrid_snapToGrid hsmall, snapToGrid_snapToGrid hsmall'⟩
  have hsaved : ws'.roots.map Root.saved = d.workspace.roots.map Root.saved :=
    saved_of_replaced hrestored.roots hsnapped
  have hassets : savedAssets ws'.assets = savedAssets d.workspace.assets :=
    savedAssets_of_decoded (assetStore_eq_ok.mp hrestored.assets)
      (savedAssets_ascending d.workspace.assets)
  obtain ⟨hcompile, houtline, hcount⟩ :=
    congr_saved (hrestored.registry.trans (htarget.trans hregistry.symm)) hsaved
  refine ⟨ws', hws', ?_, hcompile, houtline, hcount, blocks_saved hsaved,
    fun name => data_of_savedAssets_eq name hassets⟩
  rw [snapshot_eq, snapshot_eq, hsaved, hassets]

/-- A root with two assets of one name. -/
theorem reload_two_assets :
    ∃ (d : Desk) (ws' : Workspace), Desk.Reachable .standard d ∧ d.workspace.blockCount = 1 ∧
      d.workspace.assets = [⟨"cat.png", [1]⟩, ⟨"cat.png", [2]⟩] ∧
      (Workspace.empty .standard).restore d.workspace.snapshot = .ok ws' ∧
      ws'.snapshot = d.workspace.snapshot := by
  have hnone : Desk.Unduplicated .standard (Desk.empty .standard) := .refl
  have hforever := hnone.run (.instantiate "forever") rfl (.refl _)
  have hroot := hforever.run (.addRoot (.bare 1 "forever") 60 (-90)) rfl (.refl _)
  have hassets := hroot.run (.setAssets [⟨"cat.png", [1]⟩, ⟨"cat.png", [2]⟩]) rfl (.refl _)
  have hsmall : (snapToGrid 60).toInt.natAbs < 2 ^ 53 ∧
      (snapToGrid (-90)).toInt.natAbs < 2 ^ 53 := by
    decide +kernel
  obtain ⟨ws', hrestore, hsnapshot, -⟩ := reload hassets.reachable
    (List.forall_mem_singleton.mpr hsmall) (.empty .standard) rfl
  exact ⟨_, ws', hassets.reachable, rfl, rfl, hrestore, hsnapshot⟩

end Workspace

end Blockwork
