import Mathlib
import Blockwork.Proofs.Block.Identifiers

/-!
# Slots in the order of their names

The slots of a block are a list here that stands for a map, in the order of their names
(`Slots.Ascending`). In such a list a name stands once, so the slot of a name has its one place,
with everything before it smaller and everything behind it greater. A slot is put where it has been
taken out (`Slots.erase_middle`, `Slots.put_between`), and of the blocks in the slots only the one of
that name comes or goes (`Slots.blocks_perm`, `Slots.blocks_put_perm`). Some of what is said of
writing a slot does not need the order, and then it is not asked for.

`Block.Sorted` says this of every block in a tree.
-/

namespace Blockwork

open scoped List

variable {ι β : Type}

namespace Slots

/-- The slots are in the order of their names, and no two have one name. -/
abbrev Ascending (slots : List (Slot β)) : Prop :=
  slots.Pairwise fun s t => s.name < t.name

variable {s : Slot β} {slots before after : List (Slot β)} {name : String}

/-! ### The place of a slot -/

theorem Ascending.before_lt (h : Ascending (before ++ s :: after)) :
    ∀ t ∈ before, t.name < s.name :=
  fun t ht => (List.pairwise_append.mp h).2.2 t ht s List.mem_cons_self

theorem Ascending.lt_after (h : Ascending (before ++ s :: after)) :
    ∀ t ∈ after, s.name < t.name :=
  (List.pairwise_cons.mp (List.pairwise_append.mp h).2.1).1

theorem exists_of_get? (h : get? slots name = some s) :
    s.name = name ∧ ∃ before after, slots = before ++ s :: after := by
  obtain ⟨hname, before, after, rfl, -⟩ := List.find?_eq_some_iff_append.mp h
  exact ⟨of_decide_eq_true hname, before, after, rfl⟩

/-- What is smaller is passed by. -/
theorem put_append (h : ∀ t ∈ before, t.name < s.name) (rest : List (Slot β)) :
    put s (before ++ rest) = before ++ put s rest := by
  induction before with
  | nil => rfl
  | cons t before ih =>
    obtain ⟨ht, hbefore⟩ := List.forall_mem_cons.mp h
    rw [List.cons_append, put, if_pos ht, ih hbefore, List.cons_append]

theorem put_of_lt (h : ∀ t ∈ slots, t.name < s.name) : put s slots = slots ++ [s] := by
  have hput := put_append h []
  rwa [List.append_nil] at hput

/-- **A slot that is not there** is put in its place. -/
theorem put_between (h : Ascending (before ++ s :: after)) :
    put s (before ++ after) = before ++ s :: after := by
  rw [put_append h.before_lt]
  cases after with
  | nil => rfl
  | cons t after =>
    have ht : s.name < t.name := h.lt_after t List.mem_cons_self
    rw [put, if_neg ht.not_gt, if_neg ht.ne']

theorem erase_of_ne (h : ∀ t ∈ slots, t.name ≠ name) : erase slots name = slots :=
  List.filter_eq_self.mpr fun t ht => decide_eq_true (h t ht)

/-- **A slot that is emptied** leaves the others. -/
theorem erase_middle (h : Ascending (before ++ s :: after)) :
    erase (before ++ s :: after) s.name = before ++ after := by
  have hbefore : erase before s.name = before := erase_of_ne fun t ht => (h.before_lt t ht).ne
  have hafter : erase after s.name = after := erase_of_ne fun t ht => (h.lt_after t ht).ne'
  unfold erase at hbefore hafter ⊢
  rw [List.filter_append, List.filter_cons_of_neg (by simp), hbefore, hafter]

/-! ### What writing a slot leaves alone -/

/-- The slot that has been written is there, whatever the order. -/
theorem get?_put_self (s : Slot β) (slots : List (Slot β)) :
    get? (put s slots) s.name = some s := by
  have hhead : ∀ rest : List (Slot β), get? (s :: rest) s.name = some s :=
    fun rest => List.find?_cons_of_pos (decide_eq_true rfl)
  induction slots with
  | nil => exact hhead []
  | cons t rest ih =>
    rw [put]
    split
    · next ht =>
      have hskip : get? (t :: put s rest) s.name = get? (put s rest) s.name :=
        List.find?_cons_of_neg (by simpa using ht.ne)
      rw [hskip, ih]
    · split
      · exact hhead rest
      · exact hhead (t :: rest)

/-- **The slots of other names** are the same, whatever the order. -/
theorem erase_put (s : Slot β) (slots : List (Slot β)) :
    erase (put s slots) s.name = erase slots s.name := by
  have hhead : ∀ (t : Slot β) (rest : List (Slot β)), t.name = s.name →
      erase (t :: rest) s.name = erase rest s.name :=
    fun t rest ht => List.filter_cons_of_neg (by simpa using ht)
  induction slots with
  | nil => exact hhead s [] rfl
  | cons t rest ih =>
    rw [put]
    split
    · next ht =>
      have hkeep : ∀ rest : List (Slot β), erase (t :: rest) s.name = t :: erase rest s.name :=
        fun rest => List.filter_cons_of_pos (decide_eq_true ht.ne)
      rw [hkeep, hkeep, ih]
    · split
      · next ht => rw [hhead s rest rfl, hhead t rest ht]
      · exact hhead s (t :: rest) rfl

theorem erase_erase (slots : List (Slot β)) (name : String) :
    erase (erase slots name) name = erase slots name := by
  unfold erase
  rw [List.filter_filter]
  simp

/-! ### The order is kept -/

theorem Ascending.put (h : Ascending slots) (s : Slot β) : Ascending (put s slots) := by
  induction slots with
  | nil => exact List.pairwise_singleton _ _
  | cons t rest ih =>
    obtain ⟨ht, hrest⟩ := List.pairwise_cons.mp h
    rw [Slots.put]
    split
    · next hlt =>
      refine List.pairwise_cons.mpr ⟨?_, ih hrest⟩
      intro u hu
      rcases mem_put hu with rfl | hu
      · exact hlt
      · exact ht u hu
    · next hge =>
      split
      · next heq =>
        rw [heq] at ht
        exact List.pairwise_cons.mpr ⟨ht, hrest⟩
      · next hne =>
        -- what is in front of the next name is in front of all that follow it
        have hgt : s.name < t.name := (not_lt.mp hge).lt_of_ne' hne
        refine List.pairwise_cons.mpr ⟨?_, h⟩
        exact List.forall_mem_cons.mpr ⟨hgt, fun u hu => hgt.trans (ht u hu)⟩

theorem Ascending.erase (h : Ascending slots) (name : String) : Ascending (erase slots name) :=
  List.Pairwise.filter _ h

/-- Slots that are put in their order come out as they were. -/
theorem foldl_put (front : List (Slot β)) (h : Ascending (front ++ slots)) :
    slots.foldl (fun slots s => Slots.put s slots) front = front ++ slots := by
  induction slots generalizing front with
  | nil => rw [List.append_nil]; rfl
  | cons s rest ih =>
    rw [List.foldl_cons, put_of_lt h.before_lt, ih, List.append_assoc, List.singleton_append]
    rwa [List.append_assoc]

/-! ### The blocks in the slots -/

/-- **The blocks in the slots** are the one in the slot of a name and those in the others. -/
theorem blocks_perm (h : Ascending slots) (name : String) :
    blocks slots ~ ((get? slots name).bind Slot.block?).toList ++ blocks (erase slots name) := by
  cases hget : get? slots name with
  | none =>
    have hne : ∀ t ∈ slots, t.name ≠ name :=
      fun t ht => of_decide_eq_false (eq_false_of_ne_true (List.find?_eq_none.mp hget t ht))
    rw [erase_of_ne hne]
    exact .refl _
  | some s =>
    obtain ⟨rfl, before, after, rfl⟩ := exists_of_get? hget
    rw [erase_middle h, blocks_append, blocks_append]
    cases s with
    | literal n text => exact .refl _
    | reporter n b => exact List.perm_middle

/-- **Writing a slot** takes the place of the block that was in it. -/
theorem blocks_put_perm (h : Ascending slots) (s : Slot β) :
    blocks (put s slots) ~ s.block?.toList ++ blocks (erase slots s.name) := by
  have hput := blocks_perm (h.put s) s.name
  rwa [get?_put_self, erase_put] at hput

end Slots

/-! ### Trees -/

/-- The slots of every block are in the order of their names, and no two have one name. -/
def Block.Sorted (b : Block ι) : Prop :=
  ∀ p ∈ b.subtrees, p.slots.Pairwise fun s t => s.name < t.name

instance (b : Block ι) : Decidable b.Sorted :=
  inferInstanceAs (Decidable (∀ p ∈ b.subtrees, _))

theorem Block.sorted_iff {b : Block ι} :
    b.Sorted ↔ (b.slots.Pairwise fun s t => s.name < t.name) ∧ ∀ p ∈ b.parts, p.Sorted := by
  constructor
  · intro h
    exact ⟨h b b.self_mem_subtrees, fun p hp q hq => h q (mem_subtrees.mpr (Or.inr ⟨p, hp, hq⟩))⟩
  · rintro ⟨hslots, hparts⟩ p hp
    rcases mem_subtrees.mp hp with rfl | ⟨q, hq, hp⟩
    · exact hslots
    · exact hparts q hq p hp

theorem Block.Sorted.slots {b : Block ι} (h : b.Sorted) : Slots.Ascending b.slots :=
  h b b.self_mem_subtrees

end Blockwork
