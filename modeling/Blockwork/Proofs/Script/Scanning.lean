import Mathlib
import Blockwork.Proofs.Float.Whole
import Blockwork.Script.Scan

/-!
# Scanning a text piece by piece

`Scans cs ts rest` says that scanning `cs`, where `rest` follows, gives the tokens `ts` and goes on
with `rest`. Pieces are put together by `Scans.append`, blank characters give no token
(`scans_blank`), and there is one lemma for each sort of token, which says what may not follow it:
`scans_word`, `scans_digits`, `scans_mark`. `scans_space`, `scans_keyword`, `scans_name` and
`scans_symbol` put one token in front of what has been scanned. Of the places of the tokens only
their order is kept (`Ordered`).
-/

namespace Blockwork.Script

open Text (size isBlank)

/-- Lexemes that lie one behind the other between two offsets, none of them empty. -/
def Ordered : Nat → List Lexeme → Nat → Prop
  | low, [], high => low ≤ high
  | low, l :: ls, high =>
    low ≤ l.span.start ∧ l.span.start < l.span.stop ∧ Ordered l.span.stop ls high

theorem Ordered.le {low high : Nat} {ls : List Lexeme} (h : Ordered low ls high) : low ≤ high := by
  induction ls generalizing low with
  | nil => exact h
  | cons l ls ih =>
    obtain ⟨h1, h2, h3⟩ := h
    have h4 := ih h3
    omega

theorem Ordered.append {low mid high : Nat} {ls ms : List Lexeme} (h₁ : Ordered low ls mid)
    (h₂ : Ordered mid ms high) : Ordered low (ls ++ ms) high := by
  induction ls generalizing low with
  | nil =>
    cases ms with
    | nil => exact h₁.le.trans h₂.le
    | cons m ms => exact ⟨Nat.le_trans h₁ h₂.1, h₂.2⟩
  | cons l ls ih => exact ⟨h₁.1, h₁.2.1, ih h₁.2.2⟩

/-- Lexemes in order start at different places. -/
theorem Ordered.starts_lt {low high : Nat} {ls : List Lexeme} (h : Ordered low ls high) :
    (ls.map (·.span.start)).Pairwise (· < ·) ∧ ∀ l ∈ ls, low ≤ l.span.start := by
  induction ls generalizing low with
  | nil => simp
  | cons l ls ih =>
    obtain ⟨h1, h2, h3⟩ := h
    obtain ⟨hp, hlow⟩ := ih h3
    refine ⟨?_, ?_⟩
    · rw [List.map_cons, List.pairwise_cons]
      refine ⟨?_, hp⟩
      intro start hstart
      obtain ⟨m, hm, rfl⟩ := List.mem_map.mp hstart
      exact Nat.lt_of_lt_of_le h2 (hlow m hm)
    · intro m hm
      rcases List.mem_cons.mp hm with rfl | hm
      · exact h1
      · have := hlow m hm
        omega

/-- **Scanning a piece.** Behind the piece, scanning goes on with what follows it. Each token takes
one unit of the bound. -/
structure Scans (cs : List Char) (ts : List Token) (rest : List Char) : Prop where
  /-- A token takes at least one character. -/
  length_le : ts.length ≤ cs.length
  scan_eq : ∀ bound offset, ∃ ls, ls.map Lexeme.token = ts ∧
    Ordered offset ls (offset + size cs) ∧
    scanFrom (bound + ts.length) offset (cs ++ rest)
      = (scanFrom bound (offset + size cs) rest).map (ls ++ ·)

theorem scans_nil (rest : List Char) : Scans [] [] rest where
  length_le := le_rfl
  scan_eq bound offset := by
    refine ⟨[], rfl, le_rfl, ?_⟩
    simp only [List.nil_append, List.length_nil, add_zero, size]
    cases scanFrom bound offset rest <;> rfl

theorem Scans.append {cs ds rest : List Char} {ts us : List Token} (h₁ : Scans cs ts (ds ++ rest))
    (h₂ : Scans ds us rest) : Scans (cs ++ ds) (ts ++ us) rest where
  length_le := by
    have := h₁.length_le
    have := h₂.length_le
    simp only [List.length_append]
    omega
  scan_eq bound offset := by
    obtain ⟨ls, hls, hordl, hscanl⟩ := h₁.scan_eq (bound + us.length) offset
    obtain ⟨ms, hms, hordm, hscanm⟩ := h₂.scan_eq bound (offset + size cs)
    have hsize : offset + size (cs ++ ds) = offset + size cs + size ds := by
      rw [Text.size_append, Nat.add_assoc]
    refine ⟨ls ++ ms, by rw [List.map_append, hls, hms], ?_, ?_⟩
    · rw [hsize]
      exact hordl.append hordm
    · rw [List.length_append, List.append_assoc, show bound + (ts.length + us.length)
        = bound + us.length + ts.length by omega, hscanl, hscanm, hsize]
      cases scanFrom bound (offset + size cs + size ds) rest with
      | error e => rfl
      | ok ns => simp [Except.map]

/-- **Scanning a whole text.** -/
theorem Scans.scan {s : String} {ts : List Token} (h : Scans s.toList ts []) :
    ∃ ls, scan s = .ok ls ∧ ls.map Lexeme.token = ts ∧ Ordered 0 ls (size s.toList) := by
  obtain ⟨ls, hls, hord, hscan⟩ := h.scan_eq (s.toList.length - ts.length) 0
  have hlen := h.length_le
  have hend : ∀ bound offset, scanFrom bound offset [] = .ok [] := by
    intro bound offset
    cases bound <;> rfl
  refine ⟨ls, ?_, hls, by simpa using hord⟩
  rw [List.append_nil, Nat.sub_add_cancel hlen, hend] at hscan
  unfold Script.scan
  rw [hscan]
  simp [Except.map]

/-! ### Blank characters -/

theorem skipBlank_append {cs : List Char} (h : ∀ c ∈ cs, isBlank c = true) (rest : List Char) :
    skipBlank false (cs ++ rest)
      = (size cs + (skipBlank false rest).1, (skipBlank false rest).2) := by
  induction cs with
  | nil => simp
  | cons c cs ih =>
    have hc := h c List.mem_cons_self
    have hrest := ih fun d hd => h d (List.mem_cons_of_mem c hd)
    rw [List.cons_append, skipBlank]
    simp only [hc, hrest, if_true, Bool.false_eq_true, if_false, Text.size_cons, Nat.add_assoc]

/-- Blank characters give no token. -/
theorem scans_blank {cs : List Char} (h : ∀ c ∈ cs, isBlank c = true) (rest : List Char) :
    Scans cs [] rest where
  length_le := Nat.zero_le _
  scan_eq bound offset := by
    refine ⟨[], rfl, Nat.le_add_right _ _, ?_⟩
    have hmap : ∀ r : Except ScanFault (List Lexeme), r.map ([] ++ ·) = r := by
      intro r
      cases r <;> rfl
    rw [hmap, List.length_nil, add_zero]
    cases bound with
    | zero => rfl
    | succ bound =>
      rw [scanFrom, scanFrom, skipBlank_append h]
      rcases skipBlank false rest with ⟨n, _ | ⟨c, r⟩⟩
      · rfl
      · simp only [Nat.add_assoc]

/-! ### Tokens -/

/-- A character that begins a token and neither blank space nor a comment. -/
structure Begins (c : Char) : Prop where
  not_blank : isBlank c = false
  not_slash : c ≠ '/'

theorem skipBlank_begins {c : Char} (h : Begins c) (cs : List Char) :
    skipBlank false (c :: cs) = (0, c :: cs) := by
  rw [skipBlank]
  simp [h.not_blank, h.not_slash]

/-- One token, in front of which nothing is skipped. -/
theorem scans_token_of_skipBlank {c : Char} {cs rest : List Char} {t : Token}
    (hskip : skipBlank false (c :: (cs ++ rest)) = (0, c :: (cs ++ rest)))
    (h : ∀ offset, scanToken offset c (cs ++ rest) = .ok (t, offset + size (c :: cs), rest)) :
    Scans (c :: cs) [t] rest where
  length_le := by simp
  scan_eq bound offset := by
    have hpos : 0 < size (c :: cs) := by
      rw [Text.size_cons]
      exact Nat.add_pos_left c.utf8Size_pos _
    have hend : offset < offset + size (c :: cs) := Nat.lt_add_of_pos_right hpos
    refine ⟨[⟨t, ⟨offset, offset + size (c :: cs)⟩⟩], rfl, ⟨le_rfl, hend, le_rfl⟩, ?_⟩
    rw [List.length_singleton, List.cons_append, scanFrom, hskip]
    simp only [add_zero, h, bind, Except.bind]
    cases scanFrom bound (offset + size (c :: cs)) rest <;> rfl

/-- One token. -/
theorem scans_token {c : Char} {cs rest : List Char} {t : Token} (hc : Begins c)
    (h : ∀ offset, scanToken offset c (cs ++ rest) = .ok (t, offset + size (c :: cs), rest)) :
    Scans (c :: cs) [t] rest :=
  scans_token_of_skipBlank (skipBlank_begins hc _) h

theorem span_append {p : Char → Bool} {cs rest : List Char} (h : ∀ c ∈ cs, p c = true)
    (hrest : rest.head?.all (!p ·) = true) : (cs ++ rest).span p = (cs, rest) := by
  have hdrop : rest.takeWhile p = [] ∧ rest.dropWhile p = rest := by
    cases rest with
    | nil => exact ⟨rfl, rfl⟩
    | cons d ds =>
      have hd : p d = false := by simpa using hrest
      simp [hd]
  rw [List.span_eq_takeWhile_dropWhile, List.takeWhile_append_of_pos h, hdrop.1,
    List.dropWhile_append_of_pos h, hdrop.2, List.append_nil]

/-- A character that may begin a name begins no other token. -/
theorem startsName_cases {c : Char} (h : startsName c = true) :
    c ≠ '"' ∧ c.isDigit = false ∧ Begins c ∧ c.utf8Size = 1 := by
  -- letters, the underscore and the dollar sign, as ranges for `omega`
  have hrange : (65 ≤ c.toNat ∧ c.toNat ≤ 90) ∨ (97 ≤ c.toNat ∧ c.toNat ≤ 122)
      ∨ c.toNat = 95 ∨ c.toNat = 36 := by
    simp only [startsName, Char.isAlpha, Char.isUpper, Char.isLower, Bool.or_eq_true,
      Bool.and_eq_true, decide_eq_true_eq, beq_iff_eq, UInt32.le_iff_toNat_le, ge_iff_le] at h
    rcases h with ((h | h) | rfl) | rfl
    · exact Or.inl h
    · exact Or.inr (Or.inl h)
    · exact Or.inr (Or.inr (Or.inl rfl))
    · exact Or.inr (Or.inr (Or.inr rfl))
  refine ⟨?_, ?_, ⟨?_, ?_⟩, ?_⟩
  · rintro rfl
    revert hrange
    decide
  · simp only [Char.isDigit, Bool.and_eq_false_iff, decide_eq_false_iff_not, ge_iff_le,
      UInt32.le_iff_toNat_le]
    change ¬ 48 ≤ c.toNat ∨ ¬ c.toNat ≤ 57
    omega
  · simp only [isBlank, Bool.or_eq_false_iff, Bool.and_eq_false_iff, decide_eq_false_iff_not,
      beq_eq_false_iff_ne]
    omega
  · rintro rfl
    revert hrange
    decide
  · rw [Char.utf8Size_eq_one_iff, UInt32.le_iff_toNat_le]
    change c.toNat ≤ 127
    omega

theorem continuesName_of_startsName {c : Char} (h : startsName c = true) :
    continuesName c = true := by
  simp only [startsName, Bool.or_eq_true] at h
  simp only [continuesName, Bool.or_eq_true]
  rcases h with (h | h) | h
  · exact Or.inl (Or.inl (Text.isAlphanumeric_of_isAlphanum (by simp [Char.isAlphanum, h])))
  · exact Or.inl (Or.inr h)
  · exact Or.inr h

/-- A name or a keyword ends where no more of its characters follow. -/
theorem scans_word {c : Char} {cs rest : List Char} (hc : startsName c = true)
    (hcs : ∀ d ∈ cs, continuesName d = true) (hrest : rest.head?.all (!continuesName ·) = true) :
    Scans (c :: cs) [wordToken (String.ofList (c :: cs))] rest := by
  obtain ⟨hquote, hdigit, hbegins, -⟩ := startsName_cases hc
  refine scans_token hbegins fun offset => ?_
  have hall : ∀ d ∈ c :: cs, continuesName d = true := by
    intro d hd
    rcases List.mem_cons.mp hd with rfl | hd
    · exact continuesName_of_startsName hc
    · exact hcs d hd
  have hspan := span_append hall hrest
  rw [List.cons_append] at hspan
  unfold scanToken
  rw [if_neg hquote, hdigit, if_neg (by simp), if_pos hc, hspan]

/-- A digit begins no other token. -/
theorem isDigit_cases {c : Char} (h : c.isDigit = true) : c ≠ '"' ∧ Begins c := by
  have hrange : 48 ≤ c.toNat ∧ c.toNat ≤ 57 := by
    simp only [Char.isDigit, Bool.and_eq_true, decide_eq_true_eq, ge_iff_le,
      UInt32.le_iff_toNat_le] at h
    exact h
  refine ⟨?_, ?_, ?_⟩
  · rintro rfl
    revert hrange
    decide
  · simp only [isBlank, Bool.or_eq_false_iff, Bool.and_eq_false_iff, decide_eq_false_iff_not,
      beq_eq_false_iff_ne]
    omega
  · rintro rfl
    revert hrange
    decide

/-- A number ends where no more digits and points follow. -/
theorem scans_numeral {c : Char} {cs rest : List Char} (hc : c.isDigit = true)
    (hcs : ∀ d ∈ cs, inNumber d = true) (hrest : rest.head?.all (!inNumber ·) = true) :
    Scans (c :: cs) [.number (Number.read (String.ofList (c :: cs)))] rest := by
  obtain ⟨hquote, hbegins⟩ := isDigit_cases hc
  refine scans_token hbegins fun offset => ?_
  have hc' : inNumber c = true := by rw [inNumber, hc, Bool.true_or]
  have hspan := span_append (List.forall_mem_cons.mpr ⟨hc', hcs⟩) hrest
  rw [List.cons_append] at hspan
  unfold scanToken
  rw [if_neg hquote, if_pos hc, hspan]

/-- **A numeral** of decimal digits gives the float of its number. -/
theorem scans_digits (n : Nat) {rest : List Char} (hrest : rest.head?.all (!inNumber ·) = true) :
    Scans (Nat.toDigits 10 n) [.number (Float.ofNat n)] rest := by
  have hdigits : ∀ d ∈ Nat.toDigits 10 n, d.isDigit = true :=
    fun d hd => Nat.isDigit_of_mem_toDigits (by decide) (by decide) hd
  have hread := Number.read_digits n
  rcases hcs : Nat.toDigits 10 n with _ | ⟨c, cs⟩
  · exact absurd hcs Nat.toDigits_ne_nil
  rw [hcs] at hread hdigits
  obtain ⟨hc, hcs'⟩ := List.forall_mem_cons.mp hdigits
  rw [← hread]
  refine scans_numeral hc (fun d hd => ?_) hrest
  rw [inNumber, hcs' d hd, Bool.true_or]

/-- **A mark** is read as the longest one. -/
theorem scans_mark {c : Char} {cs rest : List Char} (m : Mark)
    (hc : c ≠ '"' ∧ c.isDigit = false ∧ startsName c = false ∧ isBlank c = false ∧ c ≠ '/')
    (h : Mark.scan? (c :: cs ++ rest) = some (m, rest))
    (hsize : m.spelling.utf8ByteSize = size (c :: cs)) : Scans (c :: cs) [.mark m] rest := by
  obtain ⟨hquote, hdigit, hname, hblank, hslash⟩ := hc
  refine scans_token ⟨hblank, hslash⟩ fun offset => ?_
  rw [List.cons_append] at h
  unfold scanToken
  rw [if_neg hquote, hdigit, hname, if_neg (by simp), if_neg (by simp), h]
  simp only [hsize]

/-! ### In front of what has been scanned -/

variable {cs rest : List Char} {ts : List Token}

theorem scans_space (h : Scans cs ts rest) : Scans (' ' :: cs) ts rest := by
  have hblank : ∀ c ∈ [' '], isBlank c = true := by
    intro c hc
    obtain rfl := List.mem_singleton.mp hc
    rfl
  have hspace : Scans [' '] [] (cs ++ rest) := scans_blank hblank _
  exact hspace.append h

/-- The characters of the words that programs are made of. -/
def isPlain (c : Char) : Bool :=
  c.isAlphanum || c == '_'

theorem continuesName_of_isPlain {c : Char} (h : isPlain c = true) : continuesName c = true := by
  unfold isPlain at h
  unfold continuesName
  rcases Bool.or_eq_true_iff.mp h with h | h
  · rw [Text.isAlphanumeric_of_isAlphanum h, Bool.true_or, Bool.true_or]
  · rw [h, Bool.or_true, Bool.true_or]

/-- A word of plain letters, digits and underscores. -/
theorem scans_plain {w : List Char} (hw : w.head?.any startsName = true)
    (hchars : w.all isPlain = true)
    (hnext : (cs ++ rest).head?.all (!continuesName ·) = true) (h : Scans cs ts rest) :
    Scans (w ++ cs) (wordToken (String.ofList w) :: ts) rest := by
  cases w with
  | nil => cases hw
  | cons c ds =>
    have hcont : ∀ d ∈ ds, continuesName d = true := fun d hd =>
      continuesName_of_isPlain (List.all_eq_true.mp hchars d (List.mem_cons_of_mem c hd))
    exact (scans_word hw hcont hnext).append h

theorem scans_keyword (k : Keyword) (hnext : (cs ++ rest).head?.all (!continuesName ·) = true)
    (h : Scans cs ts rest) : Scans (k.spelling.toList ++ cs) (.keyword k :: ts) rest := by
  have htoken : wordToken (String.ofList k.spelling.toList) = .keyword k := by
    rw [String.ofList_toList]
    cases k <;> rfl
  rw [← htoken]
  cases k <;> exact scans_plain (by decide +kernel) (by decide +kernel) hnext h

theorem scans_name {s : String} (hw : s.toList.head?.any startsName = true)
    (hchars : s.toList.all isPlain = true) (hkeyword : Keyword.ofSpelling? s = none)
    (hnext : (cs ++ rest).head?.all (!continuesName ·) = true) (h : Scans cs ts rest) :
    Scans (s.toList ++ cs) (.name s :: ts) rest := by
  have htoken : wordToken (String.ofList s.toList) = .name s := by
    rw [String.ofList_toList, wordToken, hkeyword]
  rw [← htoken]
  exact scans_plain hw hchars hnext h

/-- A mark that no longer one begins with, or that is followed by something else. -/
theorem scans_symbol {c : Char} (m : Mark)
    (hc : c ≠ '"' ∧ c.isDigit = false ∧ startsName c = false ∧ isBlank c = false ∧ c ≠ '/')
    (hsize : m.spelling.utf8ByteSize = size [c])
    (hnext : Mark.scan? (c :: (cs ++ rest)) = some (m, cs ++ rest)) (h : Scans cs ts rest) :
    Scans (c :: cs) (.mark m :: ts) rest := by
  have hmark : Scans [c] [.mark m] (cs ++ rest) := scans_mark m hc hnext hsize
  exact hmark.append h

/-! The marks that no longer mark begins with, whatever follows them. -/

theorem scans_openParen (h : Scans cs ts rest) : Scans ('(' :: cs) (.mark .openParen :: ts) rest :=
  scans_symbol .openParen (by decide) (by decide) rfl h

theorem scans_closeParen (h : Scans cs ts rest) :
    Scans (')' :: cs) (.mark .closeParen :: ts) rest :=
  scans_symbol .closeParen (by decide) (by decide) rfl h

theorem scans_openBrace (h : Scans cs ts rest) :
    Scans ('\x7b' :: cs) (.mark .openBrace :: ts) rest :=
  scans_symbol .openBrace (by decide) (by decide) rfl h

theorem scans_closeBrace (h : Scans cs ts rest) :
    Scans ('\x7d' :: cs) (.mark .closeBrace :: ts) rest :=
  scans_symbol .closeBrace (by decide) (by decide) rfl h

theorem scans_semicolon (h : Scans cs ts rest) :
    Scans (';' :: cs) (.mark .semicolon :: ts) rest :=
  scans_symbol .semicolon (by decide) (by decide) rfl h

end Blockwork.Script
