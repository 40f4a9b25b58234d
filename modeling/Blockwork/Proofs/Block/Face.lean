import Mathlib
import Blockwork.Proofs.Block.Finding

/-!
# What an exchange of parts leaves alone

An edit of a block, and the removal of a block below it, come to the same: some of the parts of one
block go, and others come (`Block.Exchange`). What this leaves alone is said of the *face* of a
block, which is the block with nothing of what is below its parts but their identifiers. In a tree
in which one block is exchanged for another, every other block that stays keeps its face
(`Block.Exchange.exists_face`), though nothing above the exchange keeps its subtree.
-/

namespace Blockwork

open scoped List

variable {ι : Type}

/-- A block by itself: of the blocks directly below it there are only the identifiers. -/
structure Face (ι : Type) where
  id : ι
  type : String
  slots : List (Slot ι)
  children : List ι
deriving DecidableEq

namespace Block

def face (b : Block ι) : Face ι :=
  ⟨b.id, b.type, b.slots.map (Slot.map id), b.children.map id⟩

variable {b c x y : Block ι} {dropped added : List (Block ι)}

/-! ### Exchanges -/

/-- **An exchange of parts**: some are dropped and others added, and the identifier stays. -/
structure Exchange (x y : Block ι) (dropped added : List (Block ι)) : Prop where
  id : y.id = x.id
  exists_kept : ∃ kept, x.parts ~ dropped ++ kept ∧ y.parts ~ added ++ kept

theorem Exchange.ids_perm (h : Exchange x y dropped added) :
    y.ids ++ idsAll dropped ~ x.ids ++ idsAll added := by
  classical
  obtain ⟨hid, kept, hx, hy⟩ := h
  rw [ids_eq x, ids_eq y, hid, List.perm_iff_count]
  intro i
  have hx := (hx.flatMap_right ids).count_eq i
  have hy := (hy.flatMap_right ids).count_eq i
  simp only [idsAll, List.flatMap_append, List.count_append, List.count_cons] at hx hy ⊢
  omega

theorem Exchange.dropped_subset (h : Exchange x y dropped added) : idsAll dropped ⊆ x.ids := by
  obtain ⟨-, kept, hx, -⟩ := h
  intro i hi
  obtain ⟨p, hp, hi⟩ := List.mem_flatMap.mp hi
  exact mem_ids_of_mem_parts (hx.mem_iff.mpr (List.mem_append_left _ hp)) hi

/-- What is below a block that loses parts: it is below one that is dropped, or stays. -/
theorem Exchange.mem_subtrees (h : Exchange x y dropped added) (hc : c ∈ x.subtrees) :
    c = x ∨ c.id ∈ idsAll dropped ∨ c ∈ y.subtrees := by
  obtain ⟨-, kept, hx, hy⟩ := h
  rcases Block.mem_subtrees.mp hc with rfl | ⟨p, hp, hcp⟩
  · exact Or.inl rfl
  · rcases List.mem_append.mp (hx.mem_iff.mp hp) with hp | hp
    · refine Or.inr (Or.inl (List.mem_flatMap.mpr ⟨p, hp, ?_⟩))
      rw [ids_eq_map]
      exact List.mem_map_of_mem hcp
    · have hpart : p ∈ y.parts := hy.mem_iff.mpr (List.mem_append_right _ hp)
      exact Or.inr (Or.inr (Block.mem_subtrees.mpr (Or.inr ⟨p, hpart, hcp⟩)))

end Block

/-! ### Around an exchange -/

/-- Taking a block out of a place is an exchange of the block above. -/
theorem Around.exchange_leave (a : Around ι) (b : Block ι) :
    Block.Exchange (a.fill b) a.leave [b] [] := by
  refine ⟨(a.id_fill b).symm, a.others, a.parts_fill_perm b, ?_⟩
  rw [a.parts_leave]
  exact .refl _

/-- The block above sees only the identifier. -/
theorem Around.face_fill (a : Around ι) {b c : Block ι} (h : c.id = b.id) :
    (a.fill c).face = (a.fill b).face := by
  cases a with
  | slot i t before name after children =>
    change Face.mk i t (List.map _ (before ++ .reporter name c :: after)) (children.map Block.id)
      = Face.mk i t (List.map _ (before ++ .reporter name b :: after)) (children.map Block.id)
    rw [List.map_append, List.map_append, List.map_cons, List.map_cons, Slot.map, Slot.map, h]
  | child i t slots before after =>
    change Face.mk i t (slots.map (Slot.map Block.id)) (List.map _ (before ++ c :: after))
      = Face.mk i t (slots.map (Slot.map Block.id)) (List.map _ (before ++ b :: after))
    rw [List.map_append, List.map_append, List.map_cons, List.map_cons, h]

namespace Place

variable {p : Place ι} {x y c : Block ι}

theorem id_fill (h : y.id = x.id) : (p.fill y).id = (p.fill x).id := by
  cases p with
  | nil => exact h
  | cons a p => rw [fill_cons, fill_cons, a.id_fill, a.id_fill]

theorem mem_subtrees_fill (hc : c ∈ x.subtrees) : c ∈ (p.fill x).subtrees :=
  Block.subtrees_trans (Block.mem_subtrees_iff_place.mpr ⟨p, rfl⟩) hc

/-- **Around a block that is exchanged**, each block keeps its face. -/
theorem exists_face (h : y.id = x.id) (hc : c ∈ (p.fill x).subtrees) :
    c ∈ x.subtrees ∨ ∃ c' ∈ (p.fill y).subtrees, c'.face = c.face := by
  induction p with
  | nil => exact Or.inl hc
  | cons a p ih =>
    rw [fill_cons] at hc ⊢
    rcases Block.mem_subtrees.mp hc with rfl | ⟨d, hd, hcd⟩
    · -- a block above the place
      exact Or.inr ⟨_, Block.self_mem_subtrees _, a.face_fill (id_fill h)⟩
    · rcases Around.mem_parts_fill.mp hd with rfl | hd
      · -- further in along the place
        refine (ih hcd).imp_right fun ⟨c', hc', hface⟩ => ⟨c', ?_, hface⟩
        have hpart : Place.fill y p ∈ (a.fill (Place.fill y p)).parts :=
          Around.mem_parts_self _ _
        exact Block.mem_subtrees.mpr (Or.inr ⟨_, hpart, hc'⟩)
      · -- a block beside it
        have hpart : d ∈ (a.fill (Place.fill y p)).parts := Around.mem_parts_of_others hd
        exact Or.inr ⟨c, Block.mem_subtrees.mpr (Or.inr ⟨d, hpart, hcd⟩), rfl⟩

end Place

/-- **What an exchange leaves of a tree**: the exchanged block itself, the blocks that have been
dropped, and for the rest their faces. -/
theorem Block.Exchange.exists_face {x y c : Block ι} {dropped added : List (Block ι)}
    (h : Exchange x y dropped added) {p : Place ι} (hc : c ∈ (p.fill x).subtrees) :
    c = x ∨ c.id ∈ idsAll dropped ∨ ∃ c' ∈ (p.fill y).subtrees, c'.face = c.face := by
  rcases Place.exists_face h.id hc with hc | hface
  · exact (h.mem_subtrees hc).imp_right
      (Or.imp_right fun hc => ⟨c, Place.mem_subtrees_fill hc, rfl⟩)
  · exact Or.inr (Or.inr hface)

end Blockwork
