import Mathlib
import Blockwork.Proofs.Script.Words

/-!
# Where lexemes lie

Scanning cuts a text into words with gaps between them (`Cut`): the place of a lexeme is that of its
word, and no word is empty. So the lexemes lie one behind the other, within the text, and each of
them starts and ends between two characters (`cut_of_scan`, `Cut.ordered`, `Cut.boundaries`).
-/

namespace Blockwork

namespace Text

/-- The offset lies between two characters of the text, or at one of its ends. -/
def IsBoundary (text : String) (n : Nat) : Prop :=
  ∃ before after, text = before ++ after ∧ before.utf8ByteSize = n

theorem IsBoundary.le {text : String} {n : Nat} (h : IsBoundary text n) :
    n ≤ text.utf8ByteSize := by
  obtain ⟨before, after, rfl, rfl⟩ := h
  rw [String.utf8ByteSize_append]
  exact Nat.le_add_right _ _

theorem isBoundary_of_toList {text : String} {before after : List Char}
    (h : text.toList = before ++ after) : IsBoundary text (size before) := by
  refine ⟨String.ofList before, String.ofList after, ?_, ?_⟩
  · rw [← String.ofList_append, ← h, String.ofList_toList]
  · rw [← size_toList, String.toList_ofList]

end Text

namespace Script

open Text (size IsBoundary)

/-- **The text is cut into these lexemes**, from this offset on: before each of them stands a gap,
and it covers its word. Behind the last one the rest of the text is a gap. -/
inductive Cut : Nat → List Char → List Lexeme → Prop
  | nil {offset : Nat} {gap : List Char} : IsGap true gap → Cut offset gap []
  | cons {offset : Nat} {gap word rest : List Char} {t : Token} {ls : List Lexeme} :
      IsGap false gap → IsWord word t → Cut (offset + size gap + size word) rest ls →
      Cut offset (gap ++ (word ++ rest))
        (⟨t, ⟨offset + size gap, offset + size gap + size word⟩⟩ :: ls)

variable {offset : Nat} {cs : List Char} {ls : List Lexeme}

theorem size_pos_of_ne_nil {word : List Char} (h : word ≠ []) : 0 < size word := by
  rw [Nat.pos_iff_ne_zero]
  intro hsize
  exact h (Text.eq_nil_of_size_eq_zero hsize)

theorem Cut.ordered (h : Cut offset cs ls) : Ordered offset ls (offset + size cs) := by
  induction h with
  | nil => exact Nat.le_add_right _ _
  | @cons offset gap word rest t ls _ hword _ ih =>
    have hpos := size_pos_of_ne_nil hword.ne_nil
    refine ⟨Nat.le_add_right _ _, Nat.lt_add_of_pos_right hpos, ?_⟩
    rw [Text.size_append, Text.size_append, ← Nat.add_assoc, ← Nat.add_assoc]
    exact ih

theorem Cut.boundaries {text : String} {before : List Char} (h : Cut offset cs ls)
    (htext : text.toList = before ++ cs) (hbefore : size before = offset) :
    ∀ l ∈ ls, IsBoundary text l.span.start ∧ IsBoundary text l.span.stop := by
  induction h generalizing before with
  | nil => exact List.forall_mem_nil _
  | @cons offset gap word rest t ls _ _ _ ih =>
    subst hbefore
    rw [← List.append_assoc] at htext
    have hstart : IsBoundary text (size before + size gap) := by
      rw [← Text.size_append]
      exact Text.isBoundary_of_toList htext
    rw [← List.append_assoc] at htext
    have hsize : size ((before ++ gap) ++ word) = size before + size gap + size word := by
      rw [Text.size_append, Text.size_append]
    have hstop : IsBoundary text (size before + size gap + size word) := by
      rw [← hsize]
      exact Text.isBoundary_of_toList htext
    exact List.forall_mem_cons.mpr ⟨⟨hstart, hstop⟩, ih htext hsize⟩

/-! ### Scanning -/

/-- Scanning cuts a text, if the bound is large enough for all of it. -/
theorem cut_of_scanFrom {bound : Nat} (hbound : cs.length ≤ bound)
    (h : scanFrom bound offset cs = .ok ls) : Cut offset cs ls := by
  induction bound generalizing offset cs ls with
  | zero =>
    obtain rfl := List.length_eq_zero_iff.mp (Nat.le_zero.mp hbound)
    cases h
    exact .nil .nil
  | succ bound ih =>
    rw [scanFrom] at h
    rcases hskip : skipBlank false cs with ⟨n, _ | ⟨c, rest⟩⟩
    · rw [hskip] at h
      cases h
      obtain ⟨gap, rfl, -, hgap⟩ := isGap_of_skipBlank false hskip
      rw [List.append_nil]
      exact .nil hgap
    · rw [hskip] at h
      obtain ⟨gap, rfl, rfl, hgap⟩ := isGap_of_skipBlank false hskip
      obtain ⟨⟨t, after, rest'⟩, htoken, h⟩ := except_bind_eq_ok h
      obtain ⟨ls', hrest, h⟩ := except_bind_eq_ok h
      cases h
      obtain ⟨word, hcs, rfl, hword⟩ := isWord_of_scanToken htoken
      rw [hcs] at hbound ⊢
      -- the word takes one unit of the bound at least
      have hlength := List.length_pos_iff.mpr hword.ne_nil
      rw [List.length_append, List.length_append] at hbound
      exact .cons hgap hword (ih (by omega) hrest)

/-- **Scanning cuts the text.** -/
theorem cut_of_scan {text : String} (h : scan text = .ok ls) : Cut 0 text.toList ls :=
  cut_of_scanFrom le_rfl h

end Script

end Blockwork
