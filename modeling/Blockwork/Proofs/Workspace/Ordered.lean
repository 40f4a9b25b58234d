import Mathlib
import Blockwork.Proofs.Snapshot.Ordering
import Blockwork.Proofs.Workspace.Locality

/-!
# The slots stay in order

The slots of a block are a list that stands for a map, and every operation keeps it in the order of
names, with each name once: an edit puts a slot in its place (`Edit.sorted`), what is taken out of a
tree or copied is as it was, and what is loaded from a text comes in order. The one way to blocks
with slots out of order is to restore a snapshot that has been made by hand from lists which are
those of no map (`Desk.orderly_iff`). So on every desk that is reached without such a snapshot, all
slots are in order (`Desk.sorted_of_orderly`).
-/

namespace Blockwork

open scoped List

/-! ### Trees -/

namespace Block

variable {ι κ : Type} {b b' c found rest : Block ι}

theorem Sorted.part (h : b.Sorted) (hc : c ∈ b.parts) : c.Sorted :=
  (sorted_iff.mp h).2 c hc

theorem Sorted.subtree (h : b.Sorted) (hc : c ∈ b.subtrees) : c.Sorted :=
  fun p hp => h p (subtrees_trans hc hp)

theorem sorted_mapId {g : ι → κ} : (b.mapId g).Sorted ↔ b.Sorted := by
  have hname : ∀ s : Slot (Block ι), (s.map (mapId g)).name = s.name := by
    intro s
    cases s <;> rfl
  induction b using Block.induction with
  | step b ih =>
    rw [sorted_iff, sorted_iff (b := b), slots_mapId, List.pairwise_map, parts_mapId,
      List.forall_mem_map]
    simp only [hname]
    exact and_congr_right fun _ => forall₂_congr ih

end Block

/-- The names do not change with what is in the slots. -/
theorem Slots.ascending_iff {β : Type} {slots : List (Slot β)} :
    Ascending slots ↔ (slots.map Slot.name).Pairwise (· < ·) :=
  List.pairwise_map.symm

namespace Around

variable {ι : Type} {a : Around ι} {b c : Block ι}

theorem sorted_fill (h : (a.fill b).Sorted) (hc : c.Sorted) : (a.fill c).Sorted := by
  obtain ⟨hslots, hparts⟩ := Block.sorted_iff.mp h
  refine Block.sorted_iff.mpr ⟨?_, fun p hp => ?_⟩
  · cases a with
    | child i t slots before after => exact hslots
    | slot i t before name after children =>
      have hnames := Slots.ascending_iff.mp hslots
      refine Slots.ascending_iff.mpr ?_
      dsimp only [fill, Block.slots] at hnames ⊢
      rwa [List.map_append, List.map_cons] at hnames ⊢
  · rcases mem_parts_fill.mp hp with rfl | hp
    · exact hc
    · exact hparts p (mem_parts_of_others hp)

theorem sorted_leave (h : (a.fill b).Sorted) : a.leave.Sorted := by
  obtain ⟨hslots, hparts⟩ := Block.sorted_iff.mp h
  refine Block.sorted_iff.mpr ⟨?_, fun p hp => ?_⟩
  · cases a with
    | child i t slots before after => exact hslots
    | slot i t before name after children =>
      exact List.Pairwise.sublist ((List.sublist_cons_self _ after).append_left before) hslots
  · exact hparts p (mem_parts_of_others (mem_parts_leave.mp hp))

end Around

namespace Place

variable {ι : Type} {p : Place ι} {b c : Block ι}

theorem sorted_of_fill (h : (p.fill b).Sorted) : b.Sorted :=
  h.subtree (Block.mem_subtrees_iff_place.mpr ⟨p, rfl⟩)

/-- **A filled place** is in order as before if the new block is in order. -/
theorem sorted_fill (h : (p.fill b).Sorted) (hc : c.Sorted) : (p.fill c).Sorted := by
  induction p with
  | nil => exact hc
  | cons a p ih =>
    have hpart : (Place.fill b p).Sorted := h.part (Around.mem_parts_self _ _)
    exact Around.sorted_fill h (ih hpart)

end Place

theorem Block.Detached.sorted {ι : Type} {b found rest : Block ι} (h : Detached b found rest)
    (hb : b.Sorted) : found.Sorted ∧ rest.Sorted := by
  obtain ⟨p, a, rfl, rfl⟩ := h
  have habove : (a.fill found).Sorted := Place.sorted_of_fill hb
  exact ⟨habove.part (Around.mem_parts_self _ _),
    Place.sorted_fill hb (Around.sorted_leave habove)⟩

/-! ### Edits -/

theorem Block.Does.given_subset {ι : Type} {b b' : Block ι} {slot? : Option String}
    {dropped taken given : List (Block ι)} (h : Does b slot? dropped taken given b') :
    given ⊆ dropped := by
  cases h with
  | put s => exact List.nil_subset _
  | clear slot => exact List.Subset.refl _
  | change _ _ hgiven => exact hgiven

/-- **An edit keeps the slots in order**, in the block and in what it gives back. -/
theorem Edit.sorted {r : Registry} {b b' : PlacedBlock} {e : Edit} {given : List PlacedBlock}
    (h : e.ofBlock r b = .ok (b', given)) (hb : b.Sorted) (htaken : ∀ c ∈ e.taken, c.Sorted) :
    b'.Sorted ∧ ∀ c ∈ given, c.Sorted := by
  have hdoes := does h
  obtain ⟨-, kept, hold, hnew⟩ := hdoes.exchange hb.slots
  have hslots : Slots.Ascending b'.slots := by
    generalize e.slot? = slot? at hdoes
    generalize e.dropped b = dropped at hdoes
    generalize e.taken = taken at hdoes
    cases hdoes with
    | put s => exact hb.slots.put s
    | clear slot => exact hb.slots.erase slot
    | change _ _ _ => exact hb.slots
  refine ⟨Block.sorted_iff.mpr ⟨hslots, fun c hc => ?_⟩, fun c hc => ?_⟩
  · rcases List.mem_append.mp (hnew.mem_iff.mp hc) with hc | hc
    · exact htaken c hc
    · exact hb.part (hold.mem_iff.mpr (List.mem_append_right _ hc))
  · exact hb.part (hold.mem_iff.mpr (List.mem_append_left _ (hdoes.given_subset hc)))

/-! ### Operations -/

theorem Workspace.sorted_instantiate (ws : Workspace) (type : String) :
    (ws.instantiate type).1.Sorted := by
  refine Block.sorted_iff.mpr ⟨?_, ?_⟩
  · unfold instantiate
    dsimp only [Block.slots]
    cases ws.registry.kind? type with
    | none => exact List.Pairwise.nil
    | some kind =>
      refine List.foldlRecOn (motive := Slots.Ascending) kind.slots _ List.Pairwise.nil ?_
      intro slots hslots p _
      split
      · exact hslots
      · exact hslots.put _
  · rw [ws.parts_instantiate type]
    exact List.forall_mem_nil _

namespace Operation

variable {ws ws' : Workspace} {given : List PlacedBlock}

/-- The slots in all trees of the roots are in order. -/
def RootsSorted (roots : List (Root BlockId)) : Prop :=
  ∀ root ∈ roots, root.block.Sorted

theorem sorted_remove {id : BlockId} {found : PlacedBlock} (h : RootsSorted ws.roots)
    (hok : ws.remove id = .ok (found, ws')) : RootsSorted ws'.roots ∧ found.Sorted := by
  obtain ⟨before, root, rest, after, hroots, rfl, hcase⟩ := Workspace.remove_ok hok
  unfold RootsSorted at h
  rw [hroots] at h
  have hroot := h root (List.mem_append_right _ List.mem_cons_self)
  rcases hcase with ⟨rfl, rfl⟩ | ⟨block, rfl, hdetached⟩
  · exact ⟨forall_mem_replace h (List.forall_mem_nil _), hroot⟩
  · obtain ⟨hfound, hrest⟩ := hdetached.sorted hroot
    exact ⟨forall_mem_replace h (List.forall_mem_singleton.mpr hrest), hfound⟩

theorem sorted_edit {id : BlockId} {e : Edit} (h : RootsSorted ws.roots)
    (htaken : ∀ c ∈ e.taken, c.Sorted) (hok : e.ofPlaced ws id = .ok (ws', given)) :
    RootsSorted ws'.roots ∧ ∀ c ∈ given, c.Sorted := by
  obtain ⟨s, b, b', hroots, hedit, rfl, -⟩ := Edit.ofPlaced_ok hok
  unfold RootsSorted at h
  rw [hroots] at h
  have hroot := h ⟨s.x, s.y, s.place.fill b⟩ (List.mem_append_right _ List.mem_cons_self)
  obtain ⟨hb', hgiven⟩ := Edit.sorted hedit (Place.sorted_of_fill hroot) htaken
  have hfilled : (s.place.fill b').Sorted := Place.sorted_fill hroot hb'
  exact ⟨forall_mem_replace h (List.forall_mem_singleton.mpr hfilled), hgiven⟩

/-- What has been restored is in order where the snapshot is. -/
theorem rootsSorted_iff {saved : List (Root Unit)} {roots : List (Root BlockId)}
    (h : Snapshot.Replaced saved roots) :
    RootsSorted roots ↔ ∀ root ∈ saved, root.block.Sorted := by
  induction h with
  | nil => exact ⟨fun _ => List.forall_mem_nil _, fun _ => List.forall_mem_nil _⟩
  | cons hfirst _ ih =>
    unfold RootsSorted at ih ⊢
    rw [List.forall_mem_cons, List.forall_mem_cons, ih, ← hfirst.1]
    exact and_congr_left fun _ => Block.sorted_mapId.symm

theorem sorted_restore_iff {s : Snapshot} (hok : ws.restore s = .ok ws') :
    RootsSorted ws'.roots ↔ ∀ root ∈ s.roots, root.block.Sorted :=
  rootsSorted_iff (Workspace.restored_of_restore hok).roots

theorem sorted_moveRoot {id : BlockId} {x y : Float} (h : RootsSorted ws.roots)
    (hok : ws.moveRoot id x y = .ok ws') : RootsSorted ws'.roots := by
  obtain ⟨before, root, after, hroots, rfl⟩ := Workspace.moveRoot_ok hok
  unfold RootsSorted at h
  rw [hroots] at h
  have hroot := h root (List.mem_append_right _ List.mem_cons_self)
  have hmoved : Block.Sorted { root with x := snapToGrid x, y := snapToGrid y }.block := hroot
  exact forall_mem_replace h (List.forall_mem_singleton.mpr hmoved)

/-- The operation restores no lists that are those of no map. -/
def Orderly (op : Operation) : Prop :=
  ∀ s, op = .restore s → ∀ root ∈ s.roots, root.block.Sorted

/-- **An operation keeps the slots in order.** -/
theorem sorted {op : Operation} (hop : op.Orderly) (h : RootsSorted ws.roots)
    (htaken : ∀ b ∈ op.taken, b.Sorted) (hok : op.run? ws = some (ws', given)) :
    RootsSorted ws'.roots ∧ ∀ b ∈ given, b.Sorted := by
  cases op with
  | instantiate type =>
    cases hok
    exact ⟨h, List.forall_mem_singleton.mpr (ws.sorted_instantiate type)⟩
  | addRoot b x y =>
    obtain ⟨_, hadd, ⟨⟩⟩ := some_of_toOption hok
    obtain ⟨-, rfl⟩ := Workspace.addRoot_ok hadd
    refine ⟨List.forall_mem_append.mpr ⟨h, ?_⟩, List.forall_mem_nil _⟩
    exact List.forall_mem_singleton.mpr (htaken b List.mem_cons_self)
  | moveRoot id x y =>
    obtain ⟨_, hmove, ⟨⟩⟩ := some_of_toOption hok
    exact ⟨sorted_moveRoot h hmove, List.forall_mem_nil _⟩
  | remove id =>
    obtain ⟨⟨b, _⟩, hremove, ⟨⟩⟩ := some_of_toOption hok
    obtain ⟨hroots, hfound⟩ := sorted_remove h hremove
    exact ⟨hroots, List.forall_mem_singleton.mpr hfound⟩
  | edit id e => exact sorted_edit h htaken (ok_of_toOption hok)
  | clear =>
    cases hok
    exact ⟨List.forall_mem_nil _, List.forall_mem_nil _⟩
  | setAssets assets =>
    cases hok
    exact ⟨h, List.forall_mem_nil _⟩
  | restore s =>
    obtain ⟨_, hrestore, ⟨⟩⟩ := some_of_toOption hok
    exact ⟨(sorted_restore_iff hrestore).mpr (hop s rfl), List.forall_mem_nil _⟩
  | loadText text =>
    obtain ⟨_, hload, ⟨⟩⟩ := some_of_toOption hok
    obtain ⟨s, hs, hrestore⟩ := except_bind_eq_ok hload
    exact ⟨(sorted_restore_iff hrestore).mpr (Snapshot.ordered_of_ofText hs).slots,
      List.forall_mem_nil _⟩
  | loadShareToken token =>
    obtain ⟨_, hload, ⟨⟩⟩ := some_of_toOption hok
    obtain ⟨s, hs, hrestore⟩ := except_bind_eq_ok hload
    exact ⟨(sorted_restore_iff hrestore).mpr (Snapshot.ordered_of_ofShareToken hs).slots,
      List.forall_mem_nil _⟩

end Operation

/-! ### Desks -/

theorem Block.sorted_bare {ι : Type} (id : ι) (type : String) : (Block.bare id type).Sorted :=
  sorted_iff.mpr ⟨List.Pairwise.nil, List.forall_mem_nil _⟩

namespace Desk

variable {d d' : Desk}

/-- All slots on the desk are in order. -/
structure Sorted (d : Desk) : Prop where
  workspace : Operation.RootsSorted d.workspace.roots
  hand : ∀ b ∈ d.hand, b.Sorted

/-- A step that restores no lists but those of maps. -/
def Orderly (d d' : Desk) : Prop :=
  Step d d' ∧
    ∀ s, d.workspace.restore s = .ok d'.workspace → ∀ root ∈ s.roots, root.block.Sorted

/-- An operation with blocks from the hand. -/
theorem Sorted.run {ws ws' : Workspace} {hand given rest : List PlacedBlock} {op : Operation}
    (h : Sorted ⟨ws, hand⟩) (hop : op.Orderly) (hok : op.run? ws = some (ws', given))
    (hperm : hand ~ op.taken ++ rest) : Sorted ⟨ws', given ++ rest⟩ := by
  obtain ⟨htaken, hrest⟩ := forall_hand h.hand hperm
  obtain ⟨hroots, hgiven⟩ := Operation.sorted hop h.workspace htaken hok
  exact ⟨hroots, List.forall_mem_append.mpr ⟨hgiven, hrest⟩⟩

theorem Move.sorted (h : d.Sorted) (hmove : Move d d')
    (hrestore : ∀ s, d.workspace.restore s = .ok d'.workspace →
      ∀ root ∈ s.roots, root.block.Sorted) : d'.Sorted := by
  have ⟨hworkspace, hhand⟩ := h
  cases hmove with
  | @run ws ws' hand given rest op hok hperm =>
    -- of a snapshot that is given as such, the order has to be asked for
    have hop : op.Orderly := by
      rintro s rfl
      obtain ⟨_, hs, ⟨⟩⟩ := Operation.some_of_toOption hok
      exact hrestore s hs
    exact h.run hop hok hperm
  | runFails hfails hperm =>
    rw [Operation.after_of_fails hfails]
    exact ⟨hworkspace, (forall_hand hhand hperm).2⟩
  | edit hok hperm =>
    obtain ⟨hb, hhand⟩ := List.forall_mem_cons.mp fun c hc => hhand c (hperm.mem_iff.mpr hc)
    obtain ⟨htaken, hrest⟩ := List.forall_mem_append.mp hhand
    obtain ⟨hb', hgiven⟩ := Edit.sorted hok hb htaken
    exact ⟨hworkspace, List.forall_mem_cons.mpr ⟨hb', List.forall_mem_append.mpr ⟨hgiven, hrest⟩⟩⟩
  | editFails hfails hperm =>
    rw [Edit.acting_of_fails hfails]
    obtain ⟨hb, hhand⟩ := List.forall_mem_cons.mp fun c hc => hhand c (hperm.mem_iff.mpr hc)
    exact ⟨hworkspace, List.forall_mem_cons.mpr ⟨hb, (List.forall_mem_append.mp hhand).2⟩⟩
  | detach hdetach hperm =>
    obtain ⟨hb, hrest⟩ := List.forall_mem_cons.mp fun c hc => hhand c (hperm.mem_iff.mpr hc)
    obtain ⟨hfound, hb'⟩ := (Block.detached_of_detach? hdetach).sorted hb
    exact ⟨hworkspace, List.forall_mem_cons.mpr ⟨hfound, List.forall_mem_cons.mpr ⟨hb', hrest⟩⟩⟩
  | drop hperm =>
    exact ⟨hworkspace, (List.forall_mem_cons.mp fun c hc => hhand c (hperm.mem_iff.mpr hc)).2⟩

theorem Duplicate.sorted (h : d.Sorted) (hduplicate : Duplicate d d') : d'.Sorted := by
  obtain ⟨hworkspace, hhand⟩ := h
  cases hduplicate with
  | make id type => exact ⟨hworkspace, List.forall_mem_cons.mpr ⟨Block.sorted_bare id type, hhand⟩⟩
  | @copy ws hand b c hb hc =>
    refine ⟨hworkspace, List.forall_mem_cons.mpr ⟨?_, hhand⟩⟩
    rcases List.mem_append.mp hb with hb | hb
    · obtain ⟨root, hroot, rfl⟩ := List.mem_map.mp hb
      exact (hworkspace root hroot).subtree hc
    · exact (hhand b hb).subtree hc

/-- **The order is lost in no other way**: of the steps from a desk in order, those that restore no
lists but those of maps are the ones after which the desk is in order. -/
theorem orderly_iff (h : d.Sorted) (hstep : Step d d') : Orderly d d' ↔ d'.Sorted := by
  constructor
  · rintro ⟨_, hrestore⟩
    exact hstep.elim (fun hmove => Move.sorted h hmove hrestore) (Duplicate.sorted h)
  · intro h'
    exact ⟨hstep, fun s hs => (Operation.sorted_restore_iff hs).mp h'.workspace⟩

/-- **Whatever is done, the slots stay in order.** -/
theorem sorted_of_orderly {r : Registry} (h : Relation.ReflTransGen Orderly (empty r) d) :
    d.Sorted := by
  induction h with
  | refl => exact ⟨List.forall_mem_nil _, List.forall_mem_nil _⟩
  | tail _ hstep ih => exact (orderly_iff ih hstep.1).mp hstep

end Desk

end Blockwork
