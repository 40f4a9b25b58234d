import Mathlib
import Blockwork.Text.Blank

/-!
# Blank characters around a text

Two texts are the same but for blank characters around them if both are one text between blank
characters (`SameInside`). Trimming tells exactly such texts apart from others
(`sameInside_iff`), since what it leaves of a text is the same with any blank characters around it
(`trim_of_pads`), and nothing but blank characters is cut (`pads_trim`). What it leaves is the core
of the text (`isCore_iff`).
-/

namespace Blockwork.Text

/-- The second text is the first one between blank characters. -/
def Pads (core text : String) : Prop :=
  ∃ front back : List Char, (∀ c ∈ front, isBlank c = true) ∧ (∀ c ∈ back, isBlank c = true) ∧
    text.toList = front ++ (core.toList ++ back)

/-- **The same text but for blank characters around it.** -/
def SameInside (s t : String) : Prop :=
  ∃ core, Pads core s ∧ Pads core t

theorem trimChars_around {front back : List Char} (hfront : ∀ c ∈ front, isBlank c = true)
    (hback : ∀ c ∈ back, isBlank c = true) (cs : List Char) :
    trimChars (front ++ (cs ++ back)) = trimChars cs := by
  unfold trimChars trimFront
  rw [List.dropWhile_append_of_pos hfront, List.dropWhile_append]
  split
  · next hblank =>
    -- there is nothing else in the text, so all of it is cut at the front
    rw [List.isEmpty_iff.mp hblank, List.dropWhile_eq_nil_iff.mpr hback]
  · unfold trimBack
    have hback' : ∀ c ∈ back.reverse, isBlank c = true := fun c hc =>
      hback c (List.mem_reverse.mp hc)
    rw [List.reverse_append, List.dropWhile_append_of_pos hback']

theorem trim_of_pads {core text : String} (h : Pads core text) : trim text = trim core := by
  obtain ⟨front, back, hfront, hback, htext⟩ := h
  unfold trim
  rw [htext, trimChars_around hfront hback]

/-- Only blank characters are cut at the back. -/
theorem exists_trimBack_append (cs : List Char) :
    ∃ back, (∀ c ∈ back, isBlank c = true) ∧ cs = trimBack cs ++ back := by
  refine ⟨(cs.reverse.takeWhile isBlank).reverse, fun c hc => ?_, ?_⟩
  · exact List.mem_takeWhile_imp (List.mem_reverse.mp hc)
  · rw [trimBack, ← List.reverse_append, List.takeWhile_append_dropWhile, List.reverse_reverse]

/-- **Nothing but blank characters is cut.** -/
theorem pads_trim (s : String) : Pads (trim s) s := by
  obtain ⟨back, hback, hrest⟩ := exists_trimBack_append (trimFront s.toList)
  refine ⟨s.toList.takeWhile isBlank, back, fun _ => List.mem_takeWhile_imp, hback, ?_⟩
  rw [toList_trim, trimChars, ← hrest, trimFront, List.takeWhile_append_dropWhile]

theorem trim_trim (s : String) : trim (trim s) = trim s :=
  (trim_of_pads (pads_trim s)).symm

theorem sameInside_iff {s t : String} : SameInside s t ↔ trim s = trim t := by
  constructor
  · rintro ⟨core, hs, ht⟩
    rw [trim_of_pads hs, trim_of_pads ht]
  · intro h
    refine ⟨trim s, pads_trim s, ?_⟩
    rw [h]
    exact pads_trim t

/-! ### Cores -/

/-- **The core of a text**: the text without the blank characters around it. -/
structure IsCore (core text : String) : Prop where
  pads : Pads core text
  front : ∀ c ∈ core.toList.head?, isBlank c = false
  back : ∀ c ∈ core.toList.getLast?, isBlank c = false

theorem not_blank_of_head?_trimFront {cs : List Char} {c : Char} (h : c ∈ (trimFront cs).head?) :
    isBlank c = false := by
  have hhead := List.head?_dropWhile_not isBlank cs
  rw [show (cs.dropWhile isBlank).head? = some c from h] at hhead
  exact hhead

theorem not_blank_of_getLast?_trimBack {cs : List Char} {c : Char}
    (h : c ∈ (trimBack cs).getLast?) : isBlank c = false := by
  unfold trimBack at h
  rw [List.getLast?_reverse] at h
  exact not_blank_of_head?_trimFront h

/-- What is left begins like the whole, unless nothing is left. -/
theorem head?_of_trimBack {cs : List Char} {c : Char} (h : c ∈ (trimBack cs).head?) :
    c ∈ cs.head? := by
  obtain ⟨back, -, hcs⟩ := exists_trimBack_append cs
  rw [hcs, List.head?_append, Option.mem_def.mp h]
  rfl

theorem trimFront_of_head? {cs : List Char} (h : ∀ c ∈ cs.head?, isBlank c = false) :
    trimFront cs = cs := by
  cases cs with
  | nil => rfl
  | cons c cs =>
    rw [trimFront, List.dropWhile_cons, h c rfl, if_neg Bool.false_ne_true]

theorem trimBack_of_getLast? {cs : List Char} (h : ∀ c ∈ cs.getLast?, isBlank c = false) :
    trimBack cs = cs := by
  have hreverse : trimFront cs.reverse = cs.reverse := by
    refine trimFront_of_head? fun c hc => h c ?_
    rwa [← List.head?_reverse]
  rw [trimBack, ← trimFront, hreverse, List.reverse_reverse]

/-- A text without blank characters at its ends stays as it is. -/
theorem trimChars_of_ends {cs : List Char} (hfront : ∀ c ∈ cs.head?, isBlank c = false)
    (hback : ∀ c ∈ cs.getLast?, isBlank c = false) : trimChars cs = cs := by
  rw [trimChars, trimFront_of_head? hfront, trimBack_of_getLast? hback]

/-- **Trimming leaves the core.** -/
theorem isCore_iff {core text : String} : IsCore core text ↔ core = trim text := by
  constructor
  · rintro ⟨hpads, hfront, hback⟩
    rw [trim_of_pads hpads, trim, trimChars_of_ends hfront hback, String.ofList_toList]
  · rintro rfl
    refine ⟨pads_trim text, ?_, ?_⟩
    · rw [toList_trim]
      exact fun c hc => not_blank_of_head?_trimFront (head?_of_trimBack hc)
    · rw [toList_trim]
      exact fun c hc => not_blank_of_getLast?_trimBack hc

end Blockwork.Text
