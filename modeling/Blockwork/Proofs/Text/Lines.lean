import Mathlib
import Blockwork.Text.Lines

/-!
# Lines that are joined and cut again

A program is written line by line, and the lines of a body are cut apart again to be moved in. For
lines that are not empty and have no control character (`IsLine`), cutting undoes joining
(`lines_joinLines`). `broken` is the text of lines with a line feed before each of them, in which
lists of lines can be put together without a case for the first line.
-/

namespace Blockwork.Text

/-- The characters of a text take the bytes of its UTF-8 form. -/
theorem size_toList (s : String) : size s.toList = s.utf8ByteSize := by
  have hsize (cs : List Char) : size cs = (String.ofList cs).utf8ByteSize := by
    rw [String.utf8ByteSize_ofList]
    induction cs with
    | nil => rfl
    | cons c cs ih => rw [size_cons, String.utf8Len_cons, ih, Nat.add_comm]
  rw [hsize, String.ofList_toList]

theorem eq_nil_of_size_eq_zero {cs : List Char} (h : size cs = 0) : cs = [] := by
  cases cs with
  | nil => rfl
  | cons c cs =>
    have := c.utf8Size_pos
    rw [size_cons] at h
    omega

/-- A line that is kept as it is when it is joined with others and cut off again. -/
structure IsLine (l : String) : Prop where
  ne_empty : l ≠ ""
  printable : ∀ c ∈ l.toList, 0x20 ≤ c.toNat

theorem IsLine.not_mem {l : String} (h : IsLine l) {c : Char} (hc : c.toNat < 0x20) :
    c ∉ l.toList := by
  intro hmem
  have := h.printable c hmem
  omega

/-- Whatever is written before a line keeps it a line. -/
theorem IsLine.append {s l : String} (hs : ∀ c ∈ s.toList, 0x20 ≤ c.toNat) (h : IsLine l) :
    IsLine (s ++ l) where
  ne_empty := by
    intro he
    exact h.ne_empty (String.append_eq_empty_iff.mp he).2
  printable c hc := by
    rw [String.toList_append, List.mem_append] at hc
    exact hc.elim (hs c) (h.printable c)

theorem dropReturn_of_isLine {l : String} (h : IsLine l) : dropReturn l.toList = l.toList := by
  unfold dropReturn
  rw [if_neg]
  intro hlast
  exact h.not_mem (by decide) (List.mem_of_getLast? hlast)

/-- **Cutting undoes joining.** -/
theorem lines_joinLines {ls : List String} (h : ∀ l ∈ ls, IsLine l) : lines (joinLines ls) = ls := by
  rcases List.eq_nil_or_concat ls with rfl | ⟨init, last, rfl⟩
  · rfl
  rw [List.concat_eq_append] at h ⊢
  have hsplit : (joinLines (init ++ [last])).toList.splitOn '\n'
      = (init ++ [last]).map String.toList := by
    unfold joinLines
    rw [String.toList_intercalate]
    refine List.splitOn_intercalate '\n' ?_ (by simp)
    intro cs hcs
    obtain ⟨l, hl, rfl⟩ := List.mem_map.mp hcs
    exact (h l hl).not_mem (by decide)
  have hreturn : (init.map String.toList).map dropReturn = init.map String.toList := by
    rw [List.map_map]
    refine List.map_congr_left fun l hl => ?_
    exact dropReturn_of_isLine (h l (List.mem_append_left _ hl))
  -- the last line is not empty, so it is not taken for what stands behind the last line feed
  obtain ⟨c, cs, hlast⟩ : ∃ c cs, last.toList = c :: cs := by
    rcases hcs : last.toList with _ | ⟨c, cs⟩
    · exact absurd (String.toList_eq_nil_iff.mp hcs) (h last (by simp)).ne_empty
    · exact ⟨c, cs, rfl⟩
  unfold lines linesOfChars
  rw [hsplit, List.map_append, List.map_singleton]
  dsimp only
  rw [List.dropLast_concat, List.getLast?_concat, hreturn, hlast]
  dsimp only
  rw [← hlast, List.map_append, List.map_singleton, List.map_map, String.ofList_toList]
  congr 1
  exact List.map_id'' (fun l => String.ofList_toList) init

/-! ### Putting lines together -/

/-- Lines with a line feed before each. -/
def broken (ls : List String) : List Char :=
  ls.flatMap fun l => '\n' :: l.toList

@[simp] theorem broken_nil : broken [] = [] := rfl

@[simp] theorem broken_cons (l : String) (ls : List String) :
    broken (l :: ls) = '\n' :: (l.toList ++ broken ls) := rfl

@[simp] theorem broken_append (ls ms : List String) : broken (ls ++ ms) = broken ls ++ broken ms :=
  List.flatMap_append

theorem toList_joinLines_cons (l : String) (ls : List String) :
    (joinLines (l :: ls)).toList = l.toList ++ broken ls := by
  induction ls generalizing l with
  | nil => simp [joinLines]
  | cons m ls ih =>
    unfold joinLines at ih ⊢
    rw [String.intercalate_cons_cons, String.toList_append, String.toList_append, ih,
      List.append_assoc]
    rfl

/-- Lines with the same line feeds are the same text. -/
theorem joinLines_congr {ls ms : List String} (h : broken ls = broken ms) :
    joinLines ls = joinLines ms := by
  cases ls with
  | nil =>
    cases ms with
    | nil => rfl
    | cons m ms => cases h
  | cons l ls =>
    cases ms with
    | nil => cases h
    | cons m ms =>
      rw [broken_cons, broken_cons] at h
      rw [← String.toList_inj, toList_joinLines_cons, toList_joinLines_cons]
      exact List.tail_eq_of_cons_eq h

theorem broken_joinLines {ls : List String} (h : ls ≠ []) : broken [joinLines ls] = broken ls := by
  obtain ⟨l, rest, rfl⟩ := List.exists_cons_of_ne_nil h
  rw [broken_cons, toList_joinLines_cons, broken_nil, List.append_nil, broken_cons]

end Blockwork.Text
