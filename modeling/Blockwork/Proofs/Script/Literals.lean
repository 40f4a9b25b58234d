import Mathlib
import Blockwork.Proofs.Computation
import Blockwork.Proofs.Script.Quoting
import Blockwork.Proofs.Text.Lines

/-!
# String literals and JSON

The strings of JSON as a grammar, said without any reader: a character is spelled as itself, by a
backslash and a letter, by the code unit that it is, or by the two code units of a surrogate pair
(`Json.Spells`), and a string denotes the characters that are spelled in it one behind the other
(`Json.Denotes`).

The automaton of string literals is compared with it one character at a time. What spells a
character takes the automaton from the plain state to the plain state, with that character as its
value (`run_spells`). Conversely, an automaton that closes has taken the spelling of a character or
the closing quote (`spelling_of_run`), but for one thing: of the second code unit of a pair it looks
at the lower ten bits only, so it takes any code unit there (`Json.Masks`). With these for further
spellings the grammar is the one that the automaton reads (`Json.Taken`).

## Main result

* `scan_quoted_iff`: a text in quotes is read as one token exactly when it is a string of JSON,
  unless it has an escape for the first half of a pair with an escape for something else behind it.
  Whatever escapes it has, it is read exactly when it is taken with the second of them masked.
-/

namespace Blockwork.Json

/-! ### The grammar of strings -/

/-- The character is the hexadecimal digit of this value, in either case. -/
def Hex (c : Char) (d : Nat) : Prop :=
  d < 16 ∧ (c = hexDigit d ∨ c = (hexDigit d).toUpper)

instance (c : Char) (d : Nat) : Decidable (Hex c d) :=
  inferInstanceAs (Decidable (d < 16 ∧ (c = hexDigit d ∨ c = (hexDigit d).toUpper)))

/-- The characters are the four digits of this code unit. -/
def CodeUnit (ds : List Char) (n : Nat) : Prop :=
  ∃ c₁ c₂ c₃ c₄ d₁ d₂ d₃ d₄, ds = [c₁, c₂, c₃, c₄] ∧ Hex c₁ d₁ ∧ Hex c₂ d₂ ∧ Hex c₃ d₃ ∧ Hex c₄ d₄ ∧
    n = d₁ * 0x1000 + d₂ * 0x100 + d₃ * 0x10 + d₄

/-- The code units that are the first half of a pair. -/
def IsFirstHalf (n : Nat) : Prop :=
  0xD800 ≤ n ∧ n < 0xDC00

/-- The code units that are the second half of a pair. -/
def IsSecondHalf (n : Nat) : Prop :=
  0xDC00 ≤ n ∧ n < 0xE000

/-- The letters behind a backslash, with what they stand for. -/
def letters : List (Char × Char) :=
  [('"', '"'), ('\\', '\\'), ('/', '/'), ('b', '\x08'), ('f', '\x0c'), ('n', '\n'), ('r', '\r'),
    ('t', '\t')]

/-- **How a character may be spelled in a string.** A character is never a code unit of a pair, so
those are spelled in pairs only. -/
inductive Spells : List Char → Char → Prop
  | itself {c : Char} : 0x20 ≤ c.toNat → c ≠ '"' → c ≠ '\\' → Spells [c] c
  | letter {l c : Char} : (l, c) ∈ letters → Spells ['\\', l] c
  | unit {ds : List Char} {c : Char} : CodeUnit ds c.toNat → Spells ('\\' :: 'u' :: ds) c
  | pair {ds es : List Char} {high low : Nat} {c : Char} :
      CodeUnit ds high → IsFirstHalf high → CodeUnit es low → IsSecondHalf low →
      c.toNat = 0x10000 + (high - 0xD800) * 0x400 + (low - 0xDC00) →
      Spells ('\\' :: 'u' :: (ds ++ '\\' :: 'u' :: es)) c

/-- **The characters between the quotes of a string denote this text.** -/
inductive Denotes : List Char → List Char → Prop
  | nil : Denotes [] []
  | cons {s cs v : List Char} {c : Char} : Spells s c → Denotes cs v → Denotes (s ++ cs) (c :: v)

/-- An escape for the first half of a pair, and behind it one that is not for a second half. -/
def IsMispaired (s : List Char) : Prop :=
  ∃ ds es high low, CodeUnit ds high ∧ IsFirstHalf high ∧ CodeUnit es low ∧ ¬ IsSecondHalf low ∧
    s = '\\' :: 'u' :: (ds ++ '\\' :: 'u' :: es)

/-- Two escapes that do not make a pair, and the character of the first one and the lower ten bits of
the second. -/
inductive Masks : List Char → Char → Prop
  | intro {ds es : List Char} {high low : Nat} {c : Char} :
      CodeUnit ds high → IsFirstHalf high → CodeUnit es low → ¬ IsSecondHalf low →
      c.toNat = 0x10000 + (high - 0xD800) * 0x400 + low % 0x400 →
      Masks ('\\' :: 'u' :: (ds ++ '\\' :: 'u' :: es)) c

/-- **Strings of JSON, but with the second escape of a pair masked**: any escape may stand there. -/
inductive Taken : List Char → List Char → Prop
  | nil : Taken [] []
  | cons {s cs v : List Char} {c : Char} :
      Spells s c ∨ Masks s c → Taken cs v → Taken (s ++ cs) (c :: v)

theorem Masks.isMispaired {s : List Char} {c : Char} (h : Masks s c) : IsMispaired s := by
  obtain ⟨hds, hhigh, hes, hlow, -⟩ := h
  exact ⟨_, _, _, _, hds, hhigh, hes, hlow, rfl⟩

theorem Denotes.taken {cs v : List Char} (h : Denotes cs v) : Taken cs v := by
  induction h with
  | nil => exact .nil
  | cons hs _ ih => exact .cons (.inl hs) ih

/-- The characters are those of a string up to two escapes that do not make a pair. -/
def Mispairs (cs : List Char) : Prop :=
  ∃ before s rest v, cs = before ++ (s ++ rest) ∧ Denotes before v ∧ IsMispaired s

/-- Two escapes take twelve characters. -/
theorem Mispairs.length_le {cs : List Char} (h : Mispairs cs) : 12 ≤ cs.length := by
  obtain ⟨before, _, rest, _, rfl, -, ds, es, high, low, ⟨c₁, c₂, c₃, c₄, _, _, _, _, rfl, -⟩, -,
    ⟨e₁, e₂, e₃, e₄, _, _, _, _, rfl, -⟩, -, rfl⟩ := h
  simp only [List.length_append, List.length_cons]
  omega

theorem Mispairs.cons {s cs : List Char} {c : Char} (hs : Spells s c) (h : Mispairs cs) :
    Mispairs (s ++ cs) := by
  obtain ⟨before, t, rest, v, rfl, hbefore, ht⟩ := h
  exact ⟨s ++ before, t, rest, c :: v, (List.append_assoc _ _ _).symm, .cons hs hbefore, ht⟩

/-- What is taken and is no string of JSON has two escapes that do not make a pair. -/
theorem Taken.denotes_or_mispairs {cs v : List Char} (h : Taken cs v) :
    Denotes cs v ∨ Mispairs cs := by
  induction h with
  | nil => exact .inl .nil
  | @cons s cs v c hs _ ih =>
    rcases hs with hs | hs
    · exact ih.imp (.cons hs) (.cons hs)
    · exact .inr ⟨[], s, cs, [], rfl, .nil, hs.isMispaired⟩

end Blockwork.Json

namespace Blockwork.Script

open Json (Hex CodeUnit IsFirstHalf IsSecondHalf letters Spells Denotes Masks Taken IsMispaired
  Mispairs hexDigit)
open Text (size)

namespace Literal

/-! ### Digits -/

theorem hex_of_hexValue? {c : Char} {d : Nat} (h : hexValue? c = some d) : Hex c d := by
  have hascii : c.toNat < 128 := by
    -- the digits lie between characters that are all ASCII
    by_contra hc
    have hnone : hexValue? c = none := by
      unfold hexValue?
      simp only [Char.le_def, UInt32.le_iff_toNat_le]
      change (if 48 ≤ c.toNat ∧ c.toNat ≤ 57 then _ else if 97 ≤ c.toNat ∧ c.toNat ≤ 102 then _
        else if 65 ≤ c.toNat ∧ c.toNat ≤ 70 then _ else none) = none
      rw [if_neg (by omega), if_neg (by omega), if_neg (by omega)]
    rw [hnone] at h
    cases h
  have hall : ∀ n < 128,
      (hexValue? (Char.ofNat n)).all (fun d => decide (Hex (Char.ofNat n) d)) = true := by
    decide
  have hc := hall c.toNat hascii
  rw [Char.ofNat_toNat, h] at hc
  exact of_decide_eq_true hc

theorem hexValue?_of_hex {c : Char} {d : Nat} (h : Hex c d) : hexValue? c = some d := by
  obtain ⟨hd, rfl | rfl⟩ := h
  · exact hexValue?_hexDigit hd
  · have hall : ∀ e < 16, hexValue? (hexDigit e).toUpper = some e := by decide
    exact hall d hd

/-! ### Steps of the automaton -/

variable {quote backslash offset : Nat} {state state' : State} {value cs : List Char} {c : Char}
  {r : String × Nat × List Char}

/-- One step, with what it adds to the value. -/
theorem exists_run_next {v : Option Char} (h : step state c = .next state' v) :
    ∃ backslash', run quote state backslash offset value (c :: cs)
      = run quote state' backslash' (offset + c.utf8Size) (v.toList ++ value) cs := by
  cases v with
  | none => exact ⟨_, run_next h⟩
  | some v => exact ⟨_, run_value h⟩

/-- An automaton that closes has taken a step: to the end, or to another state from which it
closes. -/
theorem step_of_run (h : run quote state backslash offset value cs = .ok r) :
    ∃ c rest, cs = c :: rest ∧
      (step state c = .closed ∧ r = (String.ofList value.reverse, offset + c.utf8Size, rest) ∨
        ∃ state' v backslash', step state c = .next state' v ∧
          run quote state' backslash' (offset + c.utf8Size) (v.toList ++ value) rest = .ok r) := by
  cases cs with
  | nil => cases h
  | cons c rest =>
    refine ⟨c, rest, rfl, ?_⟩
    rcases hstep : step state c with ⟨state', v⟩ | _ | ⟨cause, included⟩
    · right
      obtain ⟨backslash', hrun⟩ := exists_run_next hstep
      rw [hrun] at h
      exact ⟨state', v, backslash', rfl, h⟩
    · left
      rw [run] at h
      simp only [hstep] at h
      exact ⟨rfl, (Except.ok.inj h).symm⟩
    · rw [run] at h
      simp only [hstep] at h
      cases h

/-! ### Code units -/

variable {high : Option Nat} {digits : List Nat} {ds : List Char} {n : Nat}

theorem stepUnit_ne_closed : stepUnit high n ≠ .closed := by
  unfold stepUnit
  split
  · exact nofun
  · split
    · exact nofun
    · split <;> exact nofun

/-- The digits of a code unit, read last digit first. -/
theorem unitOfDigits_eq (d₁ d₂ d₃ d₄ : Nat) :
    unitOfDigits [d₄, d₃, d₂, d₁] = d₁ * 0x1000 + d₂ * 0x100 + d₃ * 0x10 + d₄ := by
  simp only [unitOfDigits, List.foldr_cons, List.foldr_nil]
  omega

/-- A digit that is not the last of its code unit. -/
theorem digit_of_run (hlength : digits.length < 3)
    (h : run quote (.unit high digits) backslash offset value cs = .ok r) :
    ∃ c d rest backslash', cs = c :: rest ∧ Hex c d ∧
      run quote (.unit high (d :: digits)) backslash' (offset + c.utf8Size) value rest = .ok r := by
  obtain ⟨c, rest, rfl, ⟨hstep, -⟩ | ⟨state', v, backslash', hstep, hrun⟩⟩ := step_of_run h
  · rw [step_unit_eq] at hstep
    split at hstep
    · cases hstep
    · -- a code unit that lacks digits does not close
      rw [if_pos hlength] at hstep
      cases hstep
  · rw [step_unit_eq] at hstep
    split at hstep
    · cases hstep
    · next d hd =>
      rw [if_pos hlength] at hstep
      cases hstep
      exact ⟨c, d, rest, backslash', rfl, hex_of_hexValue? hd, hrun⟩

/-- The last digit of a code unit. -/
theorem lastDigit_of_run (hlength : 3 ≤ digits.length)
    (h : run quote (.unit high digits) backslash offset value cs = .ok r) :
    ∃ c d rest state' v backslash', cs = c :: rest ∧ Hex c d ∧
      stepUnit high (unitOfDigits (d :: digits)) = .next state' v ∧
      run quote state' backslash' (offset + c.utf8Size) (v.toList ++ value) rest = .ok r := by
  obtain ⟨c, rest, rfl, ⟨hstep, -⟩ | ⟨state', v, backslash', hstep, hrun⟩⟩ := step_of_run h
  · rw [step_unit_eq] at hstep
    split at hstep
    · cases hstep
    · rw [if_neg (Nat.not_lt.mpr hlength)] at hstep
      exact absurd hstep stepUnit_ne_closed
  · rw [step_unit_eq] at hstep
    split at hstep
    · cases hstep
    · next d hd =>
      rw [if_neg (Nat.not_lt.mpr hlength)] at hstep
      exact ⟨c, d, rest, state', v, backslash', rfl, hex_of_hexValue? hd, hstep, hrun⟩

/-- **An automaton that closes from the beginning of a code unit has taken four digits.** -/
theorem codeUnit_of_run (h : run quote (.unit high []) backslash offset value cs = .ok r) :
    ∃ ds n rest state' v backslash', cs = ds ++ rest ∧ CodeUnit ds n ∧
      stepUnit high n = .next state' v ∧
      run quote state' backslash' (offset + size ds) (v.toList ++ value) rest = .ok r := by
  obtain ⟨c₁, d₁, _, _, rfl, h₁, hrun⟩ := digit_of_run (by decide) h
  obtain ⟨c₂, d₂, _, _, rfl, h₂, hrun⟩ := digit_of_run (by simp) hrun
  obtain ⟨c₃, d₃, _, _, rfl, h₃, hrun⟩ := digit_of_run (by simp) hrun
  obtain ⟨c₄, d₄, rest, state', v, backslash', rfl, h₄, hstep, hrun⟩ :=
    lastDigit_of_run (by simp) hrun
  rw [unitOfDigits_eq] at hstep
  refine ⟨[c₁, c₂, c₃, c₄], _, rest, state', v, backslash', rfl,
    ⟨c₁, c₂, c₃, c₄, d₁, d₂, d₃, d₄, rfl, h₁, h₂, h₃, h₄, rfl⟩, hstep, ?_⟩
  simpa only [Text.size_cons, Text.size_nil, add_zero, Nat.add_assoc] using hrun

/-- The digits of a code unit take the automaton where the code unit does. -/
theorem exists_run_codeUnit {v : Option Char} (hds : CodeUnit ds n)
    (hstep : stepUnit high n = .next state' v) :
    ∃ backslash', run quote (.unit high []) backslash offset value (ds ++ cs)
      = run quote state' backslash' (offset + size ds) (v.toList ++ value) cs := by
  obtain ⟨c₁, c₂, c₃, c₄, d₁, d₂, d₃, d₄, rfl, h₁, h₂, h₃, h₄, rfl⟩ := hds
  have hdigit {c : Char} {d : Nat} {digits : List Nat} (hd : Hex c d)
      (hlength : digits.length < 3) :
      step (.unit high digits) c = .next (.unit high (d :: digits)) none := by
    rw [step_unit_eq, hexValue?_of_hex hd]
    exact if_pos hlength
  have hlast : step (.unit high [d₃, d₂, d₁]) c₄ = .next state' v := by
    rw [step_unit_eq, hexValue?_of_hex h₄]
    change stepUnit high (unitOfDigits [d₄, d₃, d₂, d₁]) = _
    rw [unitOfDigits_eq, hstep]
  obtain ⟨backslash', hrun⟩ := exists_run_next hlast
  refine ⟨backslash', ?_⟩
  rw [List.cons_append, run_next (hdigit h₁ (by simp)), List.cons_append,
    run_next (hdigit h₂ (by simp)), List.cons_append, run_next (hdigit h₃ (by simp)),
    List.cons_append, hrun]
  simp only [Text.size_cons, Text.size_nil, add_zero, Nat.add_assoc, List.nil_append]

/-! ### Characters -/

theorem isHighSurrogate_iff : isHighSurrogate n = true ↔ IsFirstHalf n := by
  unfold isHighSurrogate IsFirstHalf
  rw [Bool.and_eq_true, decide_eq_true_eq, decide_eq_true_eq]

theorem not_letter_u : ('u', c) ∉ letters := by
  have hall : ∀ p ∈ letters, p.1 ≠ 'u' := by decide
  intro h
  exact hall ('u', c) h rfl

theorem simpleEscape?_eq_some_iff {l : Char} : simpleEscape? l = some c ↔ (l, c) ∈ letters := by
  constructor
  · intro h
    unfold simpleEscape? at h
    split at h
    -- one of the letters, or none
    iterate 8
      · obtain rfl := Option.some.inj h
        decide
    cases h
  · intro h
    have hall : ∀ p ∈ letters, simpleEscape? p.1 = some p.2 := by decide
    exact hall (l, c) h

/-- A character is no half of a pair. -/
theorem not_isFirstHalf_toNat (c : Char) : ¬ IsFirstHalf c.toNat := by
  rintro ⟨hlow, hhigh⟩
  have hvalid : c.toNat.isValidChar := c.valid
  rcases hvalid with h | ⟨h, -⟩ <;> omega

/-- The code unit of a character that is spelled by it alone. -/
theorem stepUnit_toNat (c : Char) : stepUnit none c.toNat = .next .plain (some c) := by
  have hvalid : c.toNat.isValidChar := c.valid
  have hfirst : isHighSurrogate c.toNat = false := by
    rw [Bool.eq_false_iff, Ne, isHighSurrogate_iff]
    exact not_isFirstHalf_toNat c
  unfold stepUnit
  rw [hfirst, if_neg Bool.false_ne_true, if_pos hvalid, Char.ofNat_toNat]

/-- The character of a first half and any other code unit. -/
theorem toNat_pairedChar {high : Nat} (hfirst : IsFirstHalf high) (low : Nat) :
    (pairedChar high low).toNat = 0x10000 + (high - 0xD800) * 0x400 + low % 0x400 := by
  obtain ⟨h₁, h₂⟩ := hfirst
  have hvalid : (0x10000 + (high - 0xD800) * 1024 + low % 1024).isValidChar :=
    Or.inr ⟨by omega, by omega⟩
  unfold pairedChar
  rw [Char.toNat_ofNat, if_pos hvalid]

/-- Of a second half the lower ten bits are all that counts. -/
theorem secondHalf_mod {low : Nat} (h : IsSecondHalf low) : low % 0x400 = low - 0xDC00 := by
  obtain ⟨h₁, h₂⟩ := h
  omega

theorem step_escape {l : Char} (hl : l ≠ 'u') :
    step .escape l = match simpleEscape? l with
      | some c => .next .plain (some c)
      | none => .fault .unknownEscape true :=
  if_neg hl

theorem step_plain_backslash : step .plain '\\' = .next .escape none := by
  decide

theorem step_escape_u : step .escape 'u' = .next (.unit none []) none := by
  decide

/-- Two escapes of which the first is for the first half of a pair. The second one is not tested. -/
theorem run_pair {es : List Char} {low : Nat} (hds : CodeUnit ds n) (hfirst : IsFirstHalf n)
    (hes : CodeUnit es low) (value cs : List Char) :
    ∃ backslash',
      run quote .plain backslash offset value ('\\' :: 'u' :: (ds ++ '\\' :: 'u' :: es) ++ cs)
      = run quote .plain backslash' (offset + size ('\\' :: 'u' :: (ds ++ '\\' :: 'u' :: es)))
          (pairedChar n low :: value) cs := by
  -- the value of a pair is known at its second half only; the state keeps the first
  have hstep : stepUnit none n = .next (.secondBackslash n) none := by
    unfold stepUnit
    exact if_pos (isHighSurrogate_iff.mpr hfirst)
  have hback : step (.secondBackslash n) '\\' = .next (.secondLetter n) none := rfl
  have hu : step (.secondLetter n) 'u' = .next (.unit (some n) []) none := rfl
  have hpair : stepUnit (some n) low = .next .plain (some (pairedChar n low)) := rfl
  obtain ⟨backslash₁, hrun₁⟩ := exists_run_codeUnit hds hstep
  obtain ⟨backslash₂, hrun₂⟩ := exists_run_codeUnit hes hpair
  refine ⟨backslash₂, ?_⟩
  rw [List.cons_append, run_next step_plain_backslash, List.cons_append, run_next step_escape_u,
    List.append_assoc, hrun₁, List.cons_append, run_next hback, List.cons_append, run_next hu,
    hrun₂]
  simp only [Text.size_cons, Text.size_append, Nat.add_assoc]
  rfl

/-- **What spells a character takes the automaton from the plain state to the plain state**, with
that character as its value. -/
theorem run_spells {s : List Char} (hs : Spells s c) (value cs : List Char) :
    ∃ backslash', run quote .plain backslash offset value (s ++ cs)
      = run quote .plain backslash' (offset + size s) (c :: value) cs := by
  cases hs with
  | itself _ hquote hbackslash => exact exists_run_next (step_plain hquote hbackslash)
  | @letter l _ hl =>
    have hne : l ≠ 'u' := by
      rintro rfl
      exact not_letter_u hl
    have hstep : step .escape l = .next .plain (some c) := by
      rw [step_escape hne, simpleEscape?_eq_some_iff.mpr hl]
    obtain ⟨backslash', hrun⟩ := exists_run_next hstep
    refine ⟨backslash', ?_⟩
    rw [List.cons_append, run_next step_plain_backslash, List.cons_append, hrun]
    simp only [Text.size_cons, Text.size_nil, add_zero, Nat.add_assoc]
    rfl
  | @unit ds _ hds =>
    obtain ⟨backslash', hrun⟩ := exists_run_codeUnit hds (stepUnit_toNat c)
    refine ⟨backslash', ?_⟩
    rw [List.cons_append, run_next step_plain_backslash, List.cons_append, run_next step_escape_u,
      hrun]
    simp only [Text.size_cons, Nat.add_assoc]
    rfl
  | pair hds hhigh hes hlow hc =>
    rw [← secondHalf_mod hlow] at hc
    rw [Char.toNat_inj.mp (hc.trans (toNat_pairedChar hhigh _).symm)]
    exact run_pair hds hhigh hes value cs

/-- So do two escapes that do not make a pair. -/
theorem run_masks {s : List Char} (hs : Masks s c) (value cs : List Char) :
    ∃ backslash', run quote .plain backslash offset value (s ++ cs)
      = run quote .plain backslash' (offset + size s) (c :: value) cs := by
  obtain ⟨hds, hhigh, hes, -, hc⟩ := hs
  rw [Char.toNat_inj.mp (hc.trans (toNat_pairedChar hhigh _).symm)]
  exact run_pair hds hhigh hes value cs

/-! ### What a closing automaton has taken -/

/-- From the plain state: the closing quote, a backslash, or a character that is its own value. -/
theorem plain_of_run (h : run quote .plain backslash offset value cs = .ok r) :
    ∃ c rest backslash', cs = c :: rest ∧
      (c = '"' ∧ r = (String.ofList value.reverse, offset + 1, rest) ∨
        c = '\\' ∧ run quote .escape backslash' (offset + 1) value rest = .ok r ∨
        c ≠ '"' ∧ c ≠ '\\' ∧
          run quote .plain backslash' (offset + c.utf8Size) (c :: value) rest = .ok r) := by
  obtain ⟨c, rest, rfl, hcases⟩ := step_of_run h
  by_cases hquote : c = '"'
  · subst hquote
    rcases hcases with ⟨-, hr⟩ | ⟨_, _, _, hstep, -⟩
    · exact ⟨'"', rest, offset, rfl, .inl ⟨rfl, hr⟩⟩
    · cases hstep
  by_cases hback : c = '\\'
  · subst hback
    rcases hcases with ⟨hstep, -⟩ | ⟨_, _, backslash', hstep, hrun⟩
    · cases hstep
    · cases hstep
      exact ⟨'\\', rest, backslash', rfl, .inr (.inl ⟨rfl, hrun⟩)⟩
  · -- any other character keeps the state and stands for itself
    rw [step_plain hquote hback] at hcases
    rcases hcases with ⟨hstep, -⟩ | ⟨_, _, backslash', hstep, hrun⟩
    · cases hstep
    · cases hstep
      exact ⟨c, rest, backslash', rfl, .inr (.inr ⟨hquote, hback, hrun⟩)⟩

/-- Behind a backslash: the letter of a character, or the letter of code units. -/
theorem escape_of_run (h : run quote .escape backslash offset value cs = .ok r) :
    ∃ l rest backslash', cs = l :: rest ∧
      ((∃ c, (l, c) ∈ letters ∧
          run quote .plain backslash' (offset + l.utf8Size) (c :: value) rest = .ok r) ∨
        l = 'u' ∧ run quote (.unit none []) backslash' (offset + 1) value rest = .ok r) := by
  obtain ⟨l, rest, rfl, hcases⟩ := step_of_run h
  by_cases hl : l = 'u'
  · subst hl
    rcases hcases with ⟨hstep, -⟩ | ⟨_, _, backslash', hstep, hrun⟩
    · cases hstep
    · cases hstep
      exact ⟨'u', rest, backslash', rfl, .inr ⟨rfl, hrun⟩⟩
  · rw [step_escape hl] at hcases
    rcases hletter : simpleEscape? l with _ | c
    · rw [hletter] at hcases
      rcases hcases with ⟨hstep, -⟩ | ⟨_, _, _, hstep, -⟩ <;> cases hstep
    · rw [hletter] at hcases
      rcases hcases with ⟨hstep, -⟩ | ⟨_, _, backslash', hstep, hrun⟩
      · cases hstep
      · cases hstep
        exact ⟨l, rest, backslash', rfl, .inl ⟨c, simpleEscape?_eq_some_iff.mp hletter, hrun⟩⟩

/-- Behind the first half of a pair: the backslash and the letter of another code unit. -/
theorem second_of_run {high : Nat}
    (h : run quote (.secondBackslash high) backslash offset value cs = .ok r) :
    ∃ rest backslash', cs = '\\' :: 'u' :: rest ∧
      run quote (.unit (some high) []) backslash' (offset + 2) value rest = .ok r := by
  obtain ⟨c, rest, rfl, hcases⟩ := step_of_run h
  have hc : step (.secondBackslash high) c
      = if c = '\\' then .next (.secondLetter high) none else .fault .unpairedSurrogate false := rfl
  rw [hc] at hcases
  -- anything but a backslash and the letter is a fault here
  by_cases hback : c = '\\'
  · subst hback
    rcases hcases with ⟨hstep, -⟩ | ⟨_, _, _, hstep, hrun⟩
    · cases hstep
    cases hstep
    obtain ⟨l, rest, rfl, hcases⟩ := step_of_run hrun
    have hl : step (.secondLetter high) l
        = if l = 'u' then .next (.unit (some high) []) none else .fault .unpairedSurrogate false :=
      rfl
    rw [hl] at hcases
    by_cases hu : l = 'u'
    · subst hu
      rcases hcases with ⟨hstep, -⟩ | ⟨_, _, backslash', hstep, hrun⟩
      · cases hstep
      · cases hstep
        exact ⟨rest, backslash', rfl, hrun⟩
    · rw [if_neg hu] at hcases
      rcases hcases with ⟨hstep, -⟩ | ⟨_, _, _, hstep, -⟩ <;> cases hstep
  · rw [if_neg hback] at hcases
    rcases hcases with ⟨hstep, -⟩ | ⟨_, _, _, hstep, -⟩ <;> cases hstep

/-- **Code units**: one that is a character, a pair of halves, or a first half with another code
unit behind it. -/
theorem units_of_run (h : run quote (.unit none []) backslash offset value cs = .ok r) :
    ∃ s c rest backslash', cs = s ++ rest ∧
      (Spells ('\\' :: 'u' :: s) c ∨ Masks ('\\' :: 'u' :: s) c) ∧
      run quote .plain backslash' (offset + size s) (c :: value) rest = .ok r := by
  obtain ⟨ds, n, rest, state', v, backslash', rfl, hds, hstep, hrun⟩ := codeUnit_of_run h
  have hn : stepUnit none n = if isHighSurrogate n then .next (.secondBackslash n) none
      else if n.isValidChar then .next .plain (some (Char.ofNat n))
      else .fault .badCodeUnit true := rfl
  rw [hn] at hstep
  -- a first half waits for another unit; any other unit is a character or a fault
  by_cases hfirst : isHighSurrogate n = true
  · rw [if_pos hfirst] at hstep
    cases hstep
    have hfirst := isHighSurrogate_iff.mp hfirst
    obtain ⟨rest, _, rfl, hrun⟩ := second_of_run hrun
    obtain ⟨es, low, rest, state', v, backslash', rfl, hes, hstep, hrun⟩ := codeUnit_of_run hrun
    cases hstep
    refine ⟨ds ++ '\\' :: 'u' :: es, pairedChar n low, rest, backslash', ?_, ?_, ?_⟩
    · rw [List.append_assoc]
      rfl
    · -- the second unit is not tested: where it is no second half, the value is still made of both
      have hvalue := toNat_pairedChar hfirst low
      by_cases hsecond : IsSecondHalf low
      · rw [secondHalf_mod hsecond] at hvalue
        exact .inl (.pair hds hfirst hes hsecond hvalue)
      · exact .inr ⟨hds, hfirst, hes, hsecond, hvalue⟩
    · have hsize : offset + size (ds ++ '\\' :: 'u' :: es) = offset + size ds + 2 + size es := by
        have hletters : '\\'.utf8Size + 'u'.utf8Size = 2 := rfl
        simp only [Text.size_append, Text.size_cons]
        omega
      rw [hsize]
      exact hrun
  · rw [if_neg hfirst] at hstep
    by_cases hvalid : n.isValidChar
    · rw [if_pos hvalid] at hstep
      cases hstep
      have hn : (Char.ofNat n).toNat = n := by rw [Char.toNat_ofNat, if_pos hvalid]
      refine ⟨ds, Char.ofNat n, rest, backslash', rfl, .inl (.unit ?_), hrun⟩
      rw [hn]
      exact hds
    · rw [if_neg hvalid] at hstep
      cases hstep

/-- **An automaton that closes from the plain state has taken the closing quote or the spelling of
a character**, or else two escapes that do not make a pair. -/
theorem spelling_of_run (hcontrol : ∀ d ∈ cs, 0x20 ≤ d.toNat)
    (h : run quote .plain backslash offset value cs = .ok r) :
    (∃ rest, cs = '"' :: rest ∧ r = (String.ofList value.reverse, offset + 1, rest)) ∨
      ∃ s c rest backslash', cs = s ++ rest ∧ (Spells s c ∨ Masks s c) ∧
        run quote .plain backslash' (offset + size s) (c :: value) rest = .ok r := by
  obtain ⟨c, rest, _, rfl, ⟨rfl, hr⟩ | ⟨rfl, hrun⟩ | ⟨hquote, hback, hrun⟩⟩ := plain_of_run h
  · exact .inl ⟨rest, rfl, hr⟩
  · right
    obtain ⟨l, rest, _, rfl, ⟨c, hl, hrun⟩ | ⟨rfl, hrun⟩⟩ := escape_of_run hrun
    · rw [Nat.add_assoc] at hrun
      exact ⟨['\\', l], c, rest, _, rfl, .inl (.letter hl), hrun⟩
    · obtain ⟨s, c, rest, _, rfl, hs, hrun⟩ := units_of_run hrun
      rw [Nat.add_assoc, Nat.add_assoc] at hrun
      exact ⟨'\\' :: 'u' :: s, c, rest, _, rfl, hs, hrun⟩
  · exact .inr ⟨[c], c, rest, _, rfl,
      .inl (.itself (hcontrol c List.mem_cons_self) hquote hback), hrun⟩

/-- What spells a character is not empty. -/
theorem length_pos_of_spelling {s : List Char} (h : Spells s c ∨ Masks s c) : 0 < s.length := by
  rcases h with (_ | _ | _ | _) | ⟨_, _, _, _, _⟩ <;> exact Nat.succ_pos _

/-- **An automaton that closes has taken a string** up to the closing quote, and has its text. -/
theorem taken_of_run (hcontrol : ∀ d ∈ cs, 0x20 ≤ d.toNat)
    (h : run quote .plain backslash offset value cs = .ok r) :
    ∃ w u rest, cs = w ++ '"' :: rest ∧
      r = (String.ofList (value.reverse ++ u), offset + size w + 1, rest) ∧ Taken w u := by
  -- by the length: what spells a character is taken at once
  induction hn : cs.length using Nat.strong_induction_on generalizing cs backslash offset value with
  | _ n ih =>
    subst hn
    rcases spelling_of_run hcontrol h with ⟨rest, rfl, rfl⟩ | ⟨s, c, rest, _, rfl, hs, hrun⟩
    · exact ⟨[], [], rest, rfl, by simp, .nil⟩
    have hshorter : rest.length < (s ++ rest).length := by
      have := length_pos_of_spelling hs
      rw [List.length_append]
      omega
    obtain ⟨w, u, rest, rfl, rfl, hw⟩ :=
      ih _ hshorter (fun d hd => hcontrol d (List.mem_append_right s hd)) hrun rfl
    refine ⟨s ++ w, c :: u, rest, (List.append_assoc _ _ _).symm, ?_, .cons hs hw⟩
    rw [List.reverse_cons, List.append_assoc, List.singleton_append, Text.size_append,
      Nat.add_assoc offset]

/-- The automaton reads a string up to the closing quote. -/
theorem run_taken {w u : List Char} (h : Taken w u) (value rest : List Char) :
    run quote .plain backslash offset value (w ++ '"' :: rest)
      = .ok (String.ofList (value.reverse ++ u), offset + size w + 1, rest) := by
  induction h generalizing backslash offset value with
  | nil =>
    rw [List.append_nil]
    rfl
  | @cons s cs v c hs _ ih =>
    obtain ⟨backslash', hrun⟩ := hs.elim (fun hs => run_spells hs value (cs ++ '"' :: rest))
      fun hs => run_masks hs value (cs ++ '"' :: rest)
    rw [List.append_assoc, hrun, ih, List.reverse_cons, List.append_assoc, List.singleton_append,
      Text.size_append, Nat.add_assoc offset]

/-- A code unit is four digits. -/
theorem length_of_codeUnit (h : CodeUnit ds n) : ds.length = 4 := by
  obtain ⟨_, _, _, _, _, _, _, _, rfl, -⟩ := h
  rfl

theorem codeUnit_unique {m : Nat} (hn : CodeUnit ds n) (hm : CodeUnit ds m) : n = m := by
  have hhex {c : Char} {d e : Nat} (hd : Hex c d) (he : Hex c e) : d = e :=
    Option.some.inj ((hexValue?_of_hex hd).symm.trans (hexValue?_of_hex he))
  obtain ⟨_, _, _, _, _, _, _, _, rfl, h₁, h₂, h₃, h₄, rfl⟩ := hn
  obtain ⟨_, _, _, _, _, _, _, _, hds, h₁', h₂', h₃', h₄', rfl⟩ := hm
  cases hds
  rw [hhex h₁ h₁', hhex h₂ h₂', hhex h₃ h₃', hhex h₄ h₄']

/-- Two escapes that do not make a pair spell no character. -/
theorem not_spells_of_mispaired {s t a b : List Char} (hs : IsMispaired s)
    (happend : s ++ a = t ++ b) : ¬ Spells t c := by
  obtain ⟨ds, es, high, low, hds, hfirst, hes, hsecond, rfl⟩ := hs
  intro ht
  have hlength := length_of_codeUnit hds
  cases ht with
  | itself _ _ hback =>
    obtain ⟨rfl, -⟩ := List.cons.inj happend
    exact hback rfl
  | letter hl =>
    obtain ⟨-, happend⟩ := List.cons.inj happend
    obtain ⟨rfl, -⟩ := List.cons.inj happend
    exact not_letter_u hl
  | unit hds' =>
    simp only [List.cons_append, List.append_assoc, List.cons.injEq, true_and] at happend
    -- all escapes of a code unit are of one length, so the digits are the same
    obtain ⟨rfl, -⟩ := List.append_inj happend (hlength.trans (length_of_codeUnit hds').symm)
    rw [codeUnit_unique hds hds'] at hfirst
    exact not_isFirstHalf_toNat c hfirst
  | pair hds' _ hes' hsecond' _ =>
    simp only [List.cons_append, List.append_assoc, List.cons.injEq, true_and] at happend
    obtain ⟨-, hrest⟩ := List.append_inj happend (hlength.trans (length_of_codeUnit hds').symm)
    simp only [List.cons.injEq, true_and] at hrest
    obtain ⟨rfl, -⟩ := List.append_inj hrest
      ((length_of_codeUnit hes).trans (length_of_codeUnit hes').symm)
    rw [codeUnit_unique hes hes'] at hsecond
    exact hsecond hsecond'

/-- Two escapes that do not make a pair are in no string of JSON that begins with them. -/
theorem not_denotes_of_mispaired {s rest v : List Char} (hs : IsMispaired s) :
    ¬ Denotes (s ++ rest) v := by
  generalize hcs : s ++ rest = cs
  intro h
  cases h with
  | nil =>
    obtain ⟨_, _, _, _, -, -, -, -, rfl⟩ := hs
    cases hcs
  | cons ht _ => exact not_spells_of_mispaired hs hcs ht

end Literal

/-! ### Texts in quotes -/

variable {b v : String}

theorem toList_quoted (b : String) : ("\"" ++ b ++ "\"").toList = '"' :: (b.toList ++ ['"']) := by
  rw [String.toList_append, String.toList_append]
  rfl

theorem size_quoted (b : String) : ("\"" ++ b ++ "\"").utf8ByteSize = 1 + (size b.toList + 1) := by
  rw [← Text.size_toList, toList_quoted, Text.size_cons, Text.size_append]
  rfl

/-- A text in quotes is scanned by the automaton first. -/
theorem scan_quoted (b : String) : scan ("\"" ++ b ++ "\"") = do
    let (value, after, rest) ← Literal.run 0 .plain 0 1 [] (b.toList ++ ['"'])
    let lexemes ← scanFrom (b.toList.length + 1) after rest
    return ⟨.text value, ⟨0, after⟩⟩ :: lexemes := by
  have hbegins : Begins '"' := ⟨by decide, by decide⟩
  unfold scan
  simp only [toList_quoted, List.length_cons, List.length_append, List.length_nil, scanFrom]
  rw [skipBlank_begins hbegins]
  simp only [scanToken, if_true]
  cases Literal.run 0 .plain 0 1 [] (b.toList ++ ['"']) <;> rfl

/-- A text in quotes is one token exactly when the automaton takes all of it. -/
theorem scan_quoted_eq_iff (hcontrol : ∀ c ∈ b.toList, 0x20 ≤ c.toNat) :
    scan ("\"" ++ b ++ "\"") = .ok [⟨.text v, ⟨0, ("\"" ++ b ++ "\"").utf8ByteSize⟩⟩] ↔
      Taken b.toList v.toList := by
  constructor
  · intro hscan
    rw [scan_quoted, size_quoted] at hscan
    obtain ⟨⟨value, after, rest⟩, hrun, hscan⟩ := except_bind_eq_ok hscan
    obtain ⟨lexemes, -, hscan⟩ := except_bind_eq_ok hscan
    obtain ⟨hlexeme, -⟩ := List.cons.inj (Except.ok.inj hscan)
    obtain rfl : value = v := Token.text.inj (congrArg Lexeme.token hlexeme)
    obtain rfl : after = 1 + (size b.toList + 1) := congrArg (·.span.stop) hlexeme
    have hcontrol' : ∀ c ∈ b.toList ++ ['"'], 0x20 ≤ c.toNat := by
      intro c hc
      rcases List.mem_append.mp hc with hc | hc
      · exact hcontrol c hc
      · obtain rfl := List.mem_singleton.mp hc
        decide
    obtain ⟨w, u, rest, hw, hr, htaken⟩ := Literal.taken_of_run hcontrol' hrun
    obtain ⟨hvalue, hend⟩ := Prod.mk.inj hr
    obtain ⟨hafter, -⟩ := Prod.mk.inj hend
    -- the token reaches to the end, so the closing quote is the last one
    have hrest : rest = [] := by
      have hsize := congrArg size hw
      simp only [Text.size_append, Text.size_cons, Text.size_nil] at hsize
      exact Text.eq_nil_of_size_eq_zero (by omega)
    subst hrest
    obtain rfl : b.toList = w := List.append_cancel_right hw
    rwa [hvalue, String.toList_ofList]
  · intro htaken
    rw [scan_quoted, Literal.run_taken htaken, size_quoted, Nat.add_assoc]
    simp only [List.reverse_nil, List.nil_append, String.ofList_toList]
    rfl

/-- **Strings of JSON.** What denotes a text in JSON is read as this text, and nothing else is,
unless it has an escape for the first half of a pair with an escape for something else behind it. In
any case it is one token exactly when it can be taken for a text with the second of two such escapes
masked, and it is read as this text. -/
theorem scan_quoted_iff (b : String) (hcontrol : ∀ c ∈ b.toList, 0x20 ≤ c.toNat) (v : String) :
    (Denotes b.toList v.toList →
      scan ("\"" ++ b ++ "\"") = .ok [⟨.text v, ⟨0, ("\"" ++ b ++ "\"").utf8ByteSize⟩⟩]) ∧
    (¬ Mispairs b.toList →
      (scan ("\"" ++ b ++ "\"") = .ok [⟨.text v, ⟨0, ("\"" ++ b ++ "\"").utf8ByteSize⟩⟩] ↔
        Denotes b.toList v.toList)) ∧
    (scan ("\"" ++ b ++ "\"") = .ok [⟨.text v, ⟨0, ("\"" ++ b ++ "\"").utf8ByteSize⟩⟩] ↔
      Taken b.toList v.toList) := by
  have hiff := scan_quoted_eq_iff (v := v) hcontrol
  have hreads (h : Denotes b.toList v.toList) := hiff.mpr h.taken
  refine ⟨hreads, fun hpairs => ⟨fun hscan => ?_, hreads⟩, hiff⟩
  exact (hiff.mp hscan).denotes_or_mispairs.resolve_right hpairs

/-- A letter, and a character that is spelled by a pair; and a text that is too short for a pair. -/
theorem scan_quoted_iff_pair :
    scan ("\"" ++ "\\n\\ud83d\\ude00" ++ "\"")
        = .ok [⟨.text "\n😀", ⟨0, ("\"" ++ "\\n\\ud83d\\ude00" ++ "\"").utf8ByteSize⟩⟩] ∧
      ¬ Mispairs "\\u0041".toList ∧
      (scan ("\"" ++ "\\u0041" ++ "\"")
          = .ok [⟨.text "A", ⟨0, ("\"" ++ "\\u0041" ++ "\"").utf8ByteSize⟩⟩] ↔
        Denotes "\\u0041".toList "A".toList) := by
  have hdenotes : Denotes "\\n\\ud83d\\ude00".toList "\n😀".toList := by
    have hhigh : CodeUnit ['d', '8', '3', 'd'] 0xD83D :=
      ⟨_, _, _, _, 13, 8, 3, 13, rfl, by decide, by decide, by decide, by decide, rfl⟩
    have hlow : CodeUnit ['d', 'e', '0', '0'] 0xDE00 :=
      ⟨_, _, _, _, 13, 14, 0, 0, rfl, by decide, by decide, by decide, by decide, rfl⟩
    have hpair : Spells "\\ud83d\\ude00".toList '😀' :=
      .pair hhigh ⟨by decide, by decide⟩ hlow ⟨by decide, by decide⟩ rfl
    exact .cons (.letter (l := 'n') (by decide)) (.cons hpair .nil)
  have hshort : ¬ Mispairs "\\u0041".toList := by
    intro h
    -- a pair takes more characters than the text has
    have := h.length_le
    revert this
    decide
  exact ⟨(scan_quoted_iff _ (by simp) _).1 hdenotes, hshort,
    (scan_quoted_iff _ (by simp) _).2.1 hshort⟩

/-- **No string of JSON, and a token all the same**: behind the first half of a pair stands the
escape of a letter, of which the lower ten bits are taken. -/
theorem scan_mispaired :
    scan ("\"" ++ "\\ud800\\u0041" ++ "\"")
        = .ok [⟨.text "𐁁", ⟨0, ("\"" ++ "\\ud800\\u0041" ++ "\"").utf8ByteSize⟩⟩] ∧
      ∀ v, ¬ Denotes "\\ud800\\u0041".toList v := by
  constructor
  · rfl
  intro v
  have hfirst : CodeUnit ['d', '8', '0', '0'] 0xD800 :=
    ⟨_, _, _, _, 13, 8, 0, 0, rfl, by decide, by decide, by decide, by decide, rfl⟩
  have hletter : CodeUnit ['0', '0', '4', '1'] 0x41 :=
    ⟨_, _, _, _, 0, 0, 4, 1, rfl, by decide, by decide, by decide, by decide, rfl⟩
  have hmispaired : IsMispaired "\\ud800\\u0041".toList :=
    ⟨_, _, _, _, hfirst, ⟨by decide, by decide⟩, hletter, fun h => absurd h.1 (by decide), rfl⟩
  rw [← List.append_nil "\\ud800\\u0041".toList]
  exact Literal.not_denotes_of_mispaired hmispaired

end Blockwork.Script
