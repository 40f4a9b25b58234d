import Mathlib
import Blockwork.Block.Fragment
import Blockwork.Proofs.Float.Whole
import Blockwork.Proofs.Json.Token
import Blockwork.Proofs.Text.Trimming

/-!
# Counts that texts stand for

A count is typed by the user, so it can be any text. `readCount?` takes the integer that the text
begins with: blank characters, at most one sign, and as many digits as there are
(`BeginsWithCount`). Digits may be any number, and integers have 64 bits; what is too great stands
for the greatest of them.

The characters of a text are cut here, and integers have no bound. A program cuts bytes and counts
in words, where a byte could be part of a character, and where a step of the arithmetic could
overflow. `countOfBytes?` does it that way, and gives the same counts
(`readCount?_eq_countOfBytes?`): only the first byte of a character can look like a sign or a digit,
a number that leaves the 64 bits on its way does not come back to them, and the sign is put on last,
so that it meets no integer without an opposite.

## Main result

* `readCount?_saturates`: which texts have a count, and which count it is.
-/

namespace Blockwork

open Text (utf8 isBlank trim trimBack trimChars asciiByte IsCore)
open Json (code isDigitByte)

/-- The sign in front of a count. -/
inductive CountSign where
  | none | plus | minus
deriving DecidableEq

namespace CountSign

def spelling : CountSign → List Char
  | none => []
  | plus => ['+']
  | minus => ['-']

/-- The integer of this sign and magnitude. -/
def apply : CountSign → Nat → Int
  | none, n | plus, n => n
  | minus, n => -n

end CountSign

/-- The number that decimal digits stand for. -/
def decimalValue (digits : List Char) : Nat :=
  -- the digits of the library begin with the last one
  Nat.ofDigits 10 (digits.reverse.map fun c => c.toNat - '0'.toNat)

/-- **The text begins with a count**: at most one sign, and as many digits as there are. -/
structure BeginsWithCount (sign : CountSign) (digits rest cs : List Char) : Prop where
  eq : cs = sign.spelling ++ (digits ++ rest)
  ne_nil : digits ≠ []
  digits : ∀ c ∈ digits, c.isDigit = true
  ends : ∀ c ∈ rest.head?, c.isDigit = false

variable {sign : CountSign} {digits front rest cs : List Char} {core text : String}

theorem isDigit_iff (c : Char) : c.isDigit = true ↔ 48 ≤ c.toNat ∧ c.toNat ≤ 57 := by
  simp [Char.isDigit, UInt32.le_iff_toNat_le]

theorem isBlank_of_isDigit {c : Char} (h : c.isDigit = true) : isBlank c = false := by
  have hrange := (isDigit_iff c).mp h
  simp only [isBlank, Bool.or_eq_false_iff, Bool.and_eq_false_iff, decide_eq_false_iff_not,
    beq_eq_false_iff_ne]
  omega

theorem ofDigits_eq_decimalValue (digits : List Char) :
    Number.ofDigits digits = decimalValue digits := by
  unfold Number.ofDigits decimalValue
  rw [List.foldl_eq_foldr_reverse]
  generalize digits.reverse = ds
  induction ds with
  | nil => rfl
  | cons d ds ih =>
    rw [List.foldr_cons, ih, List.map_cons, Nat.ofDigits_cons]
    exact Nat.add_comm _ _

/-! ### The sign and the digits -/

/-- Whether the text begins with a minus, and what stands behind at most one sign. -/
def splitSign : List Char → Bool × List Char
  | '-' :: cs => (true, cs)
  | '+' :: cs => (false, cs)
  | cs => (false, cs)

/-- The digits that the count is read from. -/
def leadingDigits (cs : List Char) : List Char :=
  (splitSign cs).2.takeWhile Char.isDigit

theorem readCount?_eq (text : String) :
    readCount? text = if leadingDigits (trimChars text.toList) = [] then none
      else
        let magnitude := min (Number.ofDigits (leadingDigits (trimChars text.toList))) countLimit
        some (if (splitSign (trimChars text.toList)).1 then -(magnitude : Int) else magnitude) :=
  rfl

theorem splitSign_spelling (sign : CountSign) {d : Char} (hd : d.isDigit = true) (cs : List Char) :
    splitSign (sign.spelling ++ d :: cs) = (decide (sign = .minus), d :: cs) := by
  cases sign with
  | none =>
    have hsign : d ≠ '-' ∧ d ≠ '+' := by
      constructor <;>
      · rintro rfl
        cases hd
    change splitSign (d :: cs) = (false, d :: cs)
    simp [splitSign, hsign]
  | plus => rfl
  | minus => rfl

theorem exists_spelling (cs : List Char) :
    ∃ sign : CountSign, cs = sign.spelling ++ (splitSign cs).2 := by
  unfold splitSign
  split
  · exact ⟨.minus, rfl⟩
  · exact ⟨.plus, rfl⟩
  · exact ⟨.none, rfl⟩

theorem BeginsWithCount.splitSign_eq (h : BeginsWithCount sign digits rest cs) :
    splitSign cs = (decide (sign = .minus), digits ++ rest) := by
  obtain ⟨d, ds, rfl⟩ := List.exists_cons_of_ne_nil h.ne_nil
  rw [h.eq, List.cons_append, splitSign_spelling sign (h.digits d List.mem_cons_self)]

/-- No digit is left out. -/
theorem BeginsWithCount.leadingDigits_eq (h : BeginsWithCount sign digits rest cs) :
    leadingDigits cs = digits := by
  have hrest : rest.takeWhile Char.isDigit = [] := by
    cases rest with
    | nil => rfl
    | cons c rest => rw [List.takeWhile_cons, h.ends c rfl, if_neg Bool.false_ne_true]
  rw [leadingDigits, h.splitSign_eq, List.takeWhile_append_of_pos h.digits, hrest,
    List.append_nil]

theorem leadingDigits_eq_nil_iff : leadingDigits cs = [] ↔
    ¬ ∃ (sign : CountSign) (d : Char) (rest : List Char),
      cs = sign.spelling ++ d :: rest ∧ d.isDigit = true := by
  constructor
  · rintro h ⟨sign, d, rest, rfl, hd⟩
    rw [leadingDigits, splitSign_spelling sign hd, List.takeWhile_cons, hd, if_pos rfl] at h
    cases h
  · intro h
    obtain ⟨sign, hsign⟩ := exists_spelling cs
    unfold leadingDigits
    rcases hrest : (splitSign cs).2 with _ | ⟨d, rest⟩
    · rfl
    · have hd : d.isDigit = false := by
        rw [Bool.eq_false_iff]
        exact fun hd => h ⟨sign, d, rest, hrest ▸ hsign, hd⟩
      rw [List.takeWhile_cons, hd, if_neg Bool.false_ne_true]

/-- **The count that a text begins with.** -/
theorem readCount?_of_beginsWith (h : BeginsWithCount sign digits rest (trimChars text.toList)) :
    readCount? text = some (sign.apply (min (decimalValue digits) countLimit)) := by
  rw [readCount?_eq, h.leadingDigits_eq, h.splitSign_eq, if_neg h.ne_nil,
    ofDigits_eq_decimalValue]
  cases sign <;> rfl

/-! ### Decimals -/

theorem exists_spelling_toString (n : Int) : ∃ sign : CountSign,
    (toString n).toList = sign.spelling ++ Nat.toDigits 10 n.natAbs ∧ sign.apply n.natAbs = n := by
  cases n with
  | ofNat m =>
    refine ⟨.none, ?_, rfl⟩
    change m.repr.toList = Nat.toDigits 10 m
    rw [Nat.repr, String.toList_ofList]
  | negSucc m =>
    refine ⟨.minus, ?_, rfl⟩
    change ("-" ++ (m + 1).repr).toList = '-' :: Nat.toDigits 10 (m + 1)
    rw [String.toList_append, Nat.repr]
    exact congrArg ('-' :: ·) String.toList_ofList

theorem decimalValue_toDigits (n : Nat) : decimalValue (Nat.toDigits 10 n) = n := by
  rw [← ofDigits_eq_decimalValue, Number.ofDigits_toDigits]

/-- The text of an integer begins with its digits, in front of anything but a digit. -/
theorem exists_beginsWith_toString (n : Int) (hrest : ∀ c ∈ rest.head?, c.isDigit = false) :
    ∃ sign, BeginsWithCount sign (Nat.toDigits 10 n.natAbs) rest ((toString n).toList ++ rest) ∧
      sign.apply n.natAbs = n := by
  obtain ⟨sign, htext, hn⟩ := exists_spelling_toString n
  refine ⟨sign, ⟨?_, Nat.toDigits_ne_nil, fun c hc => ?_, hrest⟩, hn⟩
  · rw [htext, List.append_assoc]
  · exact Nat.isDigit_of_mem_toDigits (by decide) (by decide) hc

/-- Blank characters around a text do not matter to the count that it begins with. -/
theorem BeginsWithCount.exists_trimChars (h : BeginsWithCount sign digits rest cs)
    (hfront : ∀ c ∈ front, isBlank c = true) :
    ∃ rest', BeginsWithCount sign digits rest' (trimChars (front ++ cs)) := by
  obtain ⟨back, hback, hrest⟩ := Text.exists_trimBack_append rest
  have hhead : ∀ c ∈ (sign.spelling ++ (digits ++ trimBack rest)).head?, isBlank c = false := by
    obtain ⟨d, ds, rfl⟩ := List.exists_cons_of_ne_nil h.ne_nil
    intro c hc
    cases sign with
    | none =>
      cases hc
      exact isBlank_of_isDigit (h.digits _ List.mem_cons_self)
    | plus | minus =>
      cases hc
      rfl
  have hlast : ∀ c ∈ (sign.spelling ++ (digits ++ trimBack rest)).getLast?,
      isBlank c = false := by
    intro c hc
    -- if nothing is left of the rest, the last character is a digit
    by_cases hnil : trimBack rest = []
    · rw [hnil, List.append_nil, List.getLast?_append_of_ne_nil _ h.ne_nil] at hc
      exact isBlank_of_isDigit (h.digits c (List.mem_of_getLast? hc))
    · rw [← List.append_assoc, List.getLast?_append_of_ne_nil _ hnil] at hc
      exact Text.not_blank_of_getLast?_trimBack hc
  have hcs : front ++ cs = front ++ ((sign.spelling ++ (digits ++ trimBack rest)) ++ back) := by
    rw [h.eq, List.append_assoc, List.append_assoc, ← hrest]
  refine ⟨trimBack rest, ?_, h.ne_nil, h.digits, fun c hc => ?_⟩
  · rw [hcs, Text.trimChars_around hfront hback, Text.trimChars_of_ends hhead hlast]
  · exact h.ends c (Text.head?_of_trimBack hc)

/-- **Decimals of integers** are read back, as far as the greatest count. -/
theorem readCount?_toString {n : Int} (hn : n.natAbs ≤ countLimit)
    (hfront : ∀ c ∈ front, isBlank c = true) (hrest : ∀ c ∈ rest.head?, c.isDigit = false) :
    readCount? (String.ofList (front ++ ((toString n).toList ++ rest))) = some n := by
  obtain ⟨sign, hbegins, hsign⟩ := exists_beginsWith_toString n hrest
  obtain ⟨rest', hbegins⟩ := hbegins.exists_trimChars hfront
  rw [← String.toList_ofList (l := front ++ _)] at hbegins
  rw [readCount?_of_beginsWith hbegins, decimalValue_toDigits, Nat.min_eq_left hn, hsign]

/-! ### Bytes and words -/

/-- Whether the bytes begin with a minus, and what stands behind at most one sign. -/
def splitSignByte : List UInt8 → Bool × List UInt8
  | [] => (false, [])
  | b :: bs =>
    if b = code '-' then (true, bs)
    else if b = code '+' then (false, bs)
    else (false, b :: bs)

/-- The number that digits behind `n` stand for, in 64 bits. There is none if a step leaves them. -/
def wordOfBytes? : (n : Int64) → List UInt8 → Option Int64
  | n, [] => some n
  | n, b :: bs =>
    let next := 10 * n.toInt + (b.toNat - 48 : Nat)
    if next ≤ Int64.maxValue.toInt then wordOfBytes? (.ofInt next) bs else none

/-- The count of a text, from its bytes and in 64 bits. -/
def countOfBytes? (bytes : List UInt8) : Option Int64 :=
  let (negative, rest) := splitSignByte bytes
  let digits := rest.takeWhile isDigitByte
  if digits = [] then none
  else
    -- the opposite of the greatest integer fits, that of the least one would not
    let magnitude := (wordOfBytes? 0 digits).getD Int64.maxValue
    some (if negative then -magnitude else magnitude)

theorem isDigitByte_iff (b : UInt8) : isDigitByte b = true ↔ 48 ≤ b.toNat ∧ b.toNat ≤ 57 := by
  simp [isDigitByte, UInt8.le_iff_toNat_le]

theorem splitSignByte_utf8 (cs : List Char) :
    splitSignByte (utf8 cs) = ((splitSign cs).1, utf8 (splitSign cs).2) := by
  cases cs with
  | nil => rfl
  | cons c cs =>
    by_cases hminus : c = '-'
    · subst hminus
      rfl
    by_cases hplus : c = '+'
    · subst hplus
      rfl
    obtain ⟨b, bs, hbytes, hb⟩ := Text.exists_utf8EncodeChar c
    -- the first byte of another character is none of the two signs
    have hne {d : Char} (hcd : c ≠ d) (hd : (code d).toNat = d.toNat ∧ d.toNat < 128) :
        b ≠ code d := by
      rintro rfl
      have : c.toNat ≠ d.toNat := fun h => hcd (Char.toNat_inj.mp h)
      omega
    have hsplit : splitSign (c :: cs) = (false, c :: cs) := by simp [splitSign, hminus, hplus]
    rw [hsplit, Text.utf8_cons, hbytes, List.cons_append, splitSignByte,
      if_neg (hne hminus (by decide)), if_neg (hne hplus (by decide))]

/-- The digits of a text are the bytes that are digits. -/
theorem takeWhile_isDigitByte_utf8 (cs : List Char) :
    (utf8 cs).takeWhile isDigitByte = (cs.takeWhile Char.isDigit).map asciiByte := by
  induction cs with
  | nil => rfl
  | cons c cs ih =>
    obtain ⟨b, bs, hbytes, hb⟩ := Text.exists_utf8EncodeChar c
    rw [Text.utf8_cons, hbytes, List.cons_append, List.takeWhile_cons, List.takeWhile_cons]
    by_cases hc : c.isDigit = true
    · have hrange := (isDigit_iff c).mp hc
      -- a digit is one byte; the bytes of longer characters are no digits
      obtain ⟨hbc, rfl⟩ | hgreat := hb
      · have hascii : b = asciiByte c := by
          rw [Text.utf8EncodeChar_ascii (by omega)] at hbytes
          exact (List.cons.inj hbytes).1.symm
        rw [if_pos hc, if_pos ((isDigitByte_iff b).mpr (by omega)), List.nil_append, ih,
          List.map_cons, hascii]
      · omega
    · have hb' : ¬ isDigitByte b = true := by
        rw [isDigitByte_iff]
        rw [isDigit_iff] at hc
        omega
      rw [if_neg hc, if_neg hb', List.map_nil]

/-- **Words** hold the value of the digits, or it is beyond the greatest one. -/
theorem toInt_wordOfBytes? {n : Int64} (hn : 0 ≤ n.toInt) (bs : List UInt8) :
    ((wordOfBytes? n bs).getD Int64.maxValue).toInt
      = (min (bs.foldl (fun n b => 10 * n + (b.toNat - 48)) n.toInt.toNat) countLimit : Nat) := by
  have hmax : Int64.maxValue.toInt = (countLimit : Int) := by decide
  induction bs generalizing n with
  | nil =>
    have hle := n.toInt_lt
    rw [wordOfBytes?, List.foldl_nil, Option.getD_some, Nat.min_eq_left, Int.toNat_of_nonneg hn]
    have hlimit : countLimit = 2 ^ 63 - 1 := by decide
    omega
  | cons b bs ih =>
    rw [wordOfBytes?, List.foldl_cons]
    have hnext : 10 * n.toInt + (b.toNat - 48 : Nat)
        = (10 * n.toInt.toNat + (b.toNat - 48) : Nat) := by
      omega
    rw [hnext]
    split
    · next hle =>
      have hword : (Int64.ofInt (10 * n.toInt.toNat + (b.toNat - 48) : Nat)).toInt
          = (10 * n.toInt.toNat + (b.toNat - 48) : Nat) := by
        refine Int64.toInt_ofInt_of_le (by omega) ?_
        have hlimit : countLimit < 2 ^ 63 := by decide
        omega
      rw [ih (by omega), hword, Int.toNat_natCast]
    · next hgreat =>
      -- more digits make no smaller number, so the whole value is too great as well
      have hfold := Json.Reader.le_foldl_digits (10 * n.toInt.toNat + (b.toNat - 48)) bs
      rw [Option.getD_none, hmax, Nat.min_eq_right]
      omega

theorem foldl_asciiByte {ds : List Char} (h : ∀ c ∈ ds, c.isDigit = true) :
    (ds.map asciiByte).foldl (fun n b => 10 * n + (b.toNat - 48)) 0 = Number.ofDigits ds := by
  rw [List.foldl_map, Number.ofDigits]
  refine List.foldl_ext _ _ _ fun m c hc => ?_
  rw [Json.Reader.toNat_digitByte (h c hc)]
  rfl

/-- An integer that is not negative has an opposite. -/
theorem toInt_neg_of_nonneg {n : Int64} (hn : 0 ≤ n.toInt) : (-n).toInt = -n.toInt := by
  have hlt := n.toInt_lt
  rw [Int64.toInt_neg, Int.bmod_eq_of_le (by omega) (by omega)]

/-- **Bytes and words give the same counts.** -/
theorem readCount?_eq_countOfBytes? (text : String) :
    readCount? text = (countOfBytes? (utf8 (trim text).toList)).map Int64.toInt := by
  rw [readCount?_eq, countOfBytes?, Text.toList_trim, splitSignByte_utf8]
  generalize trimChars text.toList = cs
  have hdigits : ∀ c ∈ leadingDigits cs, c.isDigit = true := fun c hc => List.mem_takeWhile_imp hc
  have hbytes : (utf8 (splitSign cs).2).takeWhile isDigitByte = (leadingDigits cs).map asciiByte :=
    takeWhile_isDigitByte_utf8 _
  have hword := toInt_wordOfBytes? (n := 0) le_rfl ((leadingDigits cs).map asciiByte)
  rw [show Int.toNat (Int64.toInt 0) = 0 from rfl, foldl_asciiByte hdigits] at hword
  dsimp only
  rw [hbytes]
  by_cases hnil : leadingDigits cs = []
  · rw [hnil]
    rfl
  · rw [if_neg hnil, if_neg fun h => hnil (List.map_eq_nil_iff.mp h), ← hword]
    cases (splitSign cs).1 with
    | false => rfl
    | true =>
      -- the value is not negative yet, so taking the opposite does not overflow
      have hneg := toInt_neg_of_nonneg (hword ▸ Int.natCast_nonneg _)
      exact congrArg some hneg.symm

/-! ### All counts -/

theorem natAbs_toInt_le {n : Int64} (hn : n ≠ Int64.minValue) : n.toInt.natAbs ≤ countLimit := by
  have hlimit : countLimit = 2 ^ 63 - 1 := by decide
  have hlow := n.le_toInt
  have hhigh := n.toInt_lt
  have hne : n.toInt ≠ -2 ^ 63 := by
    rw [← Int64.toInt_minValue]
    exact fun h => hn (Int64.toInt_inj.mp h)
  omega

/-- **Counts are the integers that texts begin with**, as far as they fit. A text has no count if it
begins with no digit, after blank characters and at most one sign. Otherwise the count has that sign
and the value of all digits that follow, or the greatest integer of 64 bits if that is smaller; what
follows the digits does not matter. Bytes and words of 64 bits give the same count, so no step
overflows unnoticed. Every integer of 64 bits but the least is read back from its decimal, with any
blank characters in front of it and with anything but a digit behind it. -/
theorem readCount?_saturates :
    (∀ core text : String, IsCore core text →
      (readCount? text = none ↔ ¬ ∃ (sign : CountSign) (d : Char) (rest : List Char),
          core.toList = sign.spelling ++ d :: rest ∧ d.isDigit = true) ∧
        (∀ sign digits rest, BeginsWithCount sign digits rest core.toList →
          readCount? text = some (sign.apply (min (decimalValue digits) (2 ^ 63 - 1)))) ∧
        readCount? text = (countOfBytes? (utf8 core.toList)).map Int64.toInt) ∧
      ∀ (n : Int64) (front rest : List Char), n ≠ Int64.minValue →
        (∀ c ∈ front, isBlank c = true) → (∀ c ∈ rest.head?, c.isDigit = false) →
        readCount? (String.ofList (front ++ ((toString n).toList ++ rest))) = some n.toInt := by
  refine ⟨fun core text hcore => ?_, fun n front rest hn hfront hrest => ?_⟩
  · obtain rfl := Text.isCore_iff.mp hcore
    refine ⟨?_, fun sign digits rest h => ?_, readCount?_eq_countOfBytes? text⟩
    · rw [Text.toList_trim, ← leadingDigits_eq_nil_iff, readCount?_eq, ite_eq_left_iff]
      exact ⟨fun h => by_contra fun hne => Option.some_ne_none _ (h hne), fun h hne => absurd h hne⟩
    · rw [Text.toList_trim] at h
      have hlimit : countLimit = 2 ^ 63 - 1 := by decide
      rw [readCount?_of_beginsWith h, hlimit]
  · exact readCount?_toString (natAbs_toInt_le hn) hfront hrest

/-- A negative count between blank characters, digits beyond the greatest integer, and the opposite
of the greatest integer. -/
theorem readCount?_saturates_negative :
    IsCore "-42.5" "\u00a0 -42.5\n" ∧
      readCount? "\u00a0 -42.5\n" = some (-42) ∧
      readCount? "+99999999999999999999" = some 9223372036854775807 ∧
      readCount? "\u2003-9223372036854775807e9" = some (-9223372036854775807) := by
  have hcore : IsCore "-42.5" "\u00a0 -42.5\n" := Text.isCore_iff.mpr (by decide +kernel)
  have hgreat : IsCore "+99999999999999999999" "+99999999999999999999" :=
    Text.isCore_iff.mpr (by decide +kernel)
  have hbegins : BeginsWithCount .minus ['4', '2'] ['.', '5'] "-42.5".toList :=
    { eq := by decide +kernel
      ne_nil := by decide
      digits := List.forall_mem_cons.mpr ⟨rfl, List.forall_mem_singleton.mpr rfl⟩
      ends := fun c hc => by cases hc; rfl }
  have hbegins' :
      BeginsWithCount .plus (List.replicate 20 '9') [] "+99999999999999999999".toList :=
    { eq := by decide +kernel
      ne_nil := by decide
      digits := fun c hc => List.eq_of_mem_replicate hc ▸ rfl
      ends := fun c hc => nomatch hc }
  have hread := readCount?_saturates.2 (-9223372036854775807) ['\u2003'] ['e', '9']
    (by decide) (List.forall_mem_singleton.mpr rfl) fun c hc => by cases hc; rfl
  have htext : String.ofList (['\u2003'] ++ ((toString (-9223372036854775807 : Int64)).toList
      ++ ['e', '9'])) = "\u2003-9223372036854775807e9" := by
    decide +kernel
  refine ⟨hcore, ?_, ?_, ?_⟩
  · have hvalue : CountSign.minus.apply (min (decimalValue ['4', '2']) (2 ^ 63 - 1)) = -42 := by
      decide +kernel
    rw [← hvalue]
    exact (readCount?_saturates.1 _ _ hcore).2.1 _ _ _ hbegins
  · have hvalue : CountSign.plus.apply (min (decimalValue (List.replicate 20 '9')) (2 ^ 63 - 1))
        = 9223372036854775807 := by
      decide +kernel
    rw [← hvalue]
    exact (readCount?_saturates.1 _ _ hgreat).2.1 _ _ _ hbegins'
  · rw [← htext, hread]
    decide +kernel

/-- The least integer of 64 bits is one that no text stands for. -/
example : readCount? (toString Int64.minValue) = some (-9223372036854775807) := by decide +kernel

end Blockwork
