import Mathlib
import Blockwork.Json.Quote
import Blockwork.Proofs.Script.Scanning

/-!
# Quoted texts are read back

The automaton of string literals undoes `Json.escape` one character at a time (`run_escape`), so a
quoted text is read back as it was (`scans_quoted`). A quoted text has no character below the blank
(`blank_le_of_mem_quoteChars`), so it never reaches over the end of its line.
-/

namespace Blockwork.Script

open Json (escape hexDigit quoteChars)
open Text (size)

namespace Literal

theorem hexValue?_hexDigit {d : Nat} (h : d < 16) : hexValue? (hexDigit d) = some d := by
  have hall : ∀ e < 16, hexValue? (hexDigit e) = some e := by decide
  exact hall d h

theorem step_unit_eq (high : Option Nat) (digits : List Nat) (c : Char) :
    step (.unit high digits) c = match hexValue? c with
      | none => .fault .badCodeUnit true
      | some d =>
        if digits.length < 3 then .next (.unit high (d :: digits)) none
        else stepUnit high (unitOfDigits (d :: digits)) :=
  rfl

theorem step_unit {high : Option Nat} {digits : List Nat} {d : Nat} (hd : d < 16)
    (hlen : digits.length < 3) :
    step (.unit high digits) (hexDigit d) = .next (.unit high (d :: digits)) none := by
  rw [step_unit_eq, hexValue?_hexDigit hd]
  simp only [hlen, if_true]

theorem step_plain {c : Char} (hquote : c ≠ '"') (hback : c ≠ '\\') :
    step .plain c = .next .plain (some c) := by
  simp only [step, hquote, hback, if_false]

/-- The four digits of a control character give the character. -/
theorem step_unit_last {c : Char} (h : c.toNat < 0x20) :
    step (.unit none [c.toNat / 16, 0, 0]) (hexDigit (c.toNat % 16)) = .next .plain (some c) := by
  have hunit : unitOfDigits [c.toNat % 16, c.toNat / 16, 0, 0] = c.toNat := by
    simp only [unitOfDigits, List.foldr_cons, List.foldr_nil]
    omega
  have hsurrogate : isHighSurrogate c.toNat = false := by
    simp only [isHighSurrogate, Bool.and_eq_false_iff, decide_eq_false_iff_not]
    omega
  have hvalid : c.toNat.isValidChar := Or.inl (by omega)
  rw [step_unit_eq, hexValue?_hexDigit (by omega)]
  simp only [List.length_cons, List.length_nil, Nat.lt_irrefl, if_false, stepUnit, hunit,
    hsurrogate, hvalid, Bool.false_eq_true, if_true, Char.ofNat_toNat]

theorem run_next {quote backslash offset : Nat} {state state' : State} {value cs : List Char}
    {c : Char} (h : step state c = .next state' none) :
    run quote state backslash offset value (c :: cs)
      = run quote state' (if state = .plain then offset else backslash) (offset + c.utf8Size)
          value cs := by
  rw [run]
  simp only [h]

theorem run_value {quote backslash offset : Nat} {state state' : State} {value cs : List Char}
    {c v : Char} (h : step state c = .next state' (some v)) :
    run quote state backslash offset value (c :: cs)
      = run quote state' (if state = .plain then offset else backslash) (offset + c.utf8Size)
          (v :: value) cs := by
  rw [run]
  simp only [h]

/-- **One character.** The automaton reads what a character is written as, and has its value. -/
theorem run_escape (quote backslash offset : Nat) (value : List Char) (c : Char) (cs : List Char) :
    ∃ backslash', run quote .plain backslash offset value (escape c ++ cs)
      = run quote .plain backslash' (offset + size (escape c)) (c :: value) cs := by
  unfold escape
  split
  -- the letters for one character
  iterate 7 exact ⟨_, rfl⟩
  next h1 h2 h3 h4 h5 h6 h7 =>
  by_cases hc : c.toNat < 0x20
  · -- four hexadecimal digits
    rw [if_pos hc]
    have h0 : step (.unit none []) '0' = .next (.unit none [0]) none :=
      step_unit (d := 0) (by decide) (by decide)
    have h00 : step (.unit none [0]) '0' = .next (.unit none [0, 0]) none :=
      step_unit (d := 0) (by decide) (by decide)
    have h16 : step (.unit none [0, 0]) (hexDigit (c.toNat / 16))
        = .next (.unit none [c.toNat / 16, 0, 0]) none :=
      step_unit (by omega) (by decide)
    have hback : step .plain '\\' = .next .escape none := by decide
    have hletter : step .escape 'u' = .next (.unit none []) none := by decide
    refine ⟨offset, ?_⟩
    rw [List.cons_append, run_next hback, List.cons_append, run_next hletter, List.cons_append,
      run_next h0, List.cons_append, run_next h00, List.cons_append, run_next h16,
      List.cons_append, run_value (step_unit_last hc), List.nil_append]
    simp only [reduceCtorEq, if_true, if_false, Text.size_cons, Text.size_nil, Nat.add_assoc,
      add_zero]
  · refine ⟨offset, ?_⟩
    rw [if_neg hc, List.cons_append, run_value (step_plain (fun h => h1 h) (fun h => h2 h)),
      List.nil_append, if_pos rfl, Text.size_cons, Text.size_nil, add_zero]

/-- The automaton reads what characters are written as, up to the closing quote. -/
theorem run_quoted (quote backslash offset : Nat) (value cs rest : List Char) :
    run quote .plain backslash offset value (cs.flatMap escape ++ '"' :: rest)
      = .ok (String.ofList (value.reverse ++ cs), offset + size (cs.flatMap escape) + 1, rest) := by
  induction cs generalizing backslash offset value with
  | nil =>
    simp only [List.flatMap_nil, List.nil_append, List.append_nil, Text.size_nil, add_zero]
    rfl
  | cons c cs ih =>
    obtain ⟨backslash', h⟩ :=
      run_escape quote backslash offset value c (cs.flatMap escape ++ '"' :: rest)
    rw [List.flatMap_cons, List.append_assoc, h, ih, Text.size_append, List.reverse_cons,
      List.append_assoc, List.singleton_append]
    simp only [Nat.add_assoc]

end Literal

/-- A quoted text is read up to its closing quote. -/
theorem scanToken_quoted (offset : Nat) (cs rest : List Char) :
    scanToken offset '"' (cs.flatMap escape ++ ['"'] ++ rest)
      = .ok (.text (String.ofList cs), offset + size (quoteChars cs), rest) := by
  have hsize : size (quoteChars cs) = 1 + (size (cs.flatMap escape) + 1) := by
    rw [quoteChars, Text.size_cons, Text.size_append]
    rfl
  unfold scanToken
  rw [if_pos rfl, List.append_assoc, List.singleton_append, Literal.run_quoted, hsize]
  simp only [Except.map, List.reverse_nil, List.nil_append, Nat.add_assoc]

/-- **A quoted text** is one token, with the text as its value. -/
theorem scans_quoted (cs rest : List Char) :
    Scans (quoteChars cs) [.text (String.ofList cs)] rest :=
  scans_token ⟨by decide, by decide⟩ fun offset => scanToken_quoted offset cs rest

/-- What a character is written as has no control characters. -/
theorem blank_le_of_mem_escape {c d : Char} (h : d ∈ escape c) : 0x20 ≤ d.toNat := by
  unfold escape at h
  split at h
  -- the letters for one character
  iterate 7
    · rcases List.mem_pair.mp h with rfl | rfl <;> decide
  split at h
  · next hc =>
    have hdigit : ∀ e < 16, 0x20 ≤ (hexDigit e).toNat := by decide
    simp only [List.mem_cons, List.not_mem_nil, or_false] at h
    rcases h with rfl | rfl | rfl | rfl | rfl | rfl
    · decide
    · decide
    · decide
    · decide
    · exact hdigit _ (by omega)
    · exact hdigit _ (by omega)
  · next hc =>
    obtain rfl := List.mem_singleton.mp h
    omega

/-- A quoted text has no control characters. -/
theorem blank_le_of_mem_quoteChars {cs : List Char} {d : Char} (h : d ∈ quoteChars cs) :
    0x20 ≤ d.toNat := by
  rcases List.mem_cons.mp h with rfl | h
  · decide
  rcases List.mem_append.mp h with h | h
  · obtain ⟨c, -, hc⟩ := List.mem_flatMap.mp h
    exact blank_le_of_mem_escape hc
  · obtain rfl := List.mem_singleton.mp h
    decide

end Blockwork.Script
