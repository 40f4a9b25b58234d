import Mathlib
import Blockwork.Decimal.Reading
import Blockwork.Proofs.Float.Rounding

/-!
# Floats that are whole numbers

Below `2 ^ 53` the floats of whole numbers compute like the numbers: `ofNat_add_one` and
`compare_ofNat` say so of the two operations that a counting loop needs, and `truncateWithin_ofNat`
reads the number back. A numeral of decimal digits is read as the float of its number
(`read_digits`); beyond `2 ^ 53` that float is rounded, but it stays above all smaller ones
(`ofNat_lt_ofNat_great`).
-/

namespace Blockwork.Number

open Float.Model Float.Model.UnpackedFloat

/-- The parts of the float of a whole number with a sign. -/
def wholeParts (s : Sign) (n : Nat) : UnpackedFloat :=
  if h : n = 0 then .zero s else .finite s (digitsOf n) (scaleOf n) (digitsOf_pos h)

theorem wholeParts_zero (s : Sign) : wholeParts s 0 = .zero s := rfl

theorem wholeParts_of_ne {s : Sign} {n : Nat} (h : n ≠ 0) :
    wholeParts s n = .finite s (digitsOf n) (scaleOf n) (digitsOf_pos h) :=
  dif_neg h

theorem scaleOf_bounds {n : Nat} (hn : n ≠ 0) (h : n < 2 ^ 53) :
    -52 ≤ scaleOf n ∧ scaleOf n ≤ 0 := by
  have hl := log2_lt_of_lt hn h
  unfold scaleOf
  omega

theorem isNormal_whole {n : Nat} (hn : n ≠ 0) (h : n < 2 ^ 53) :
    IsNormal (digitsOf n) (scaleOf n) := by
  have hb := scaleOf_bounds hn h
  exact ⟨log2_digitsOf hn h, by omega, by omega⟩

theorem parts_ofParts_whole {s : Sign} {n : Nat} (h : n < 2 ^ 53) :
    parts (ofParts (wholeParts s n)) = wholeParts s n := by
  by_cases hn : n = 0
  · subst hn
    exact parts_ofParts_zero s
  · rw [wholeParts_of_ne hn]
    exact parts_ofParts (isNormal_whole hn h)

/-! ### From numbers to floats -/

theorem normalize_natCast {m : Nat} {e : Int} {s : Sign} (hm : m ≠ 0) :
    UnpackedFloat.normalize Format.binary64 (m : Int) e s
      = UnpackedFloat.round Format.binary64 .positive m e := by
  unfold UnpackedFloat.normalize
  rw [show compare (m : Int) 0 = .gt from Int.compare_eq_gt.mpr (by omega), Int.toNat_natCast]

theorem toFloat_ofNat {n : Nat} (h : n < 2 ^ 53) :
    (UInt64.ofNat n).toFloat = ofParts (wholeParts .positive n) := by
  change ofParts (UnpackedFloat.normalize Format.binary64 ((UInt64.ofNat n).toNat : Int) 0 .positive)
    = _
  rw [UInt64.toNat_ofNat_of_lt' (by simp only [UInt64.size]; omega)]
  congr 1
  by_cases hn : n = 0
  · subst hn
    rfl
  · have hl := scaleOf_bounds hn h
    rw [normalize_natCast hn, wholeParts_of_ne hn,
      round_exact hn h (k := 0) (by simp) (by push_cast; omega)]
    exact finite_congr rfl (by push_cast; omega)

/-- The parts of the float that core takes for ten to the power of zero. -/
theorem parts_one : parts (Float.ofBits 0x3FF0000000000000)
    = .finite .positive (2 ^ 52) (-52) (by decide) := by
  have hfield : field (Float.ofBits 0x3FF0000000000000) = 1023 := by decide +kernel
  have hfraction : fraction (Float.ofBits 0x3FF0000000000000) = 0 := by decide +kernel
  have hsign : signOf (Float.ofBits 0x3FF0000000000000) = .positive := by
    unfold signOf
    rw [if_pos (by decide +kernel)]
  rw [parts_eq, if_neg (by omega), if_neg (by omega)]
  simp only [hfield, hfraction, hsign]
  exact finite_congr (by omega) (by omega)

/-- **The float of a whole number** below `2 ^ 53` has its digits. -/
theorem ofNat_eq {n : Nat} (h : n < 2 ^ 53) : Float.ofNat n = ofParts (wholeParts .positive n) := by
  have hone := parts_one
  -- up to `2 ^ 53` a number is converted as an integer and multiplied by one
  have hmul : Float.ofNat n = (UInt64.ofNat n).toFloat * Float.ofBits 0x3FF0000000000000 := by
    unfold Float.ofNat
    change Float.ofScientific n false 0 = _
    unfold Float.ofScientific
    rw [dif_pos ⟨h, by omega⟩]
    rfl
  rw [hmul, toFloat_ofNat h]
  change ofParts (UnpackedFloat.mul Format.binary64 (parts (ofParts (wholeParts .positive n)))
    (parts (Float.ofBits 0x3FF0000000000000))) = _
  rw [parts_ofParts_whole h, hone]
  congr 1
  by_cases hn : n = 0
  · subst hn
    rfl
  · have hl := scaleOf_bounds hn h
    rw [wholeParts_of_ne hn]
    change roundWithAccuracy Format.binary64 .positive (digitsOf n * 2 ^ 52) (scaleOf n + -52)
      .exact = _
    have hlog := log2_lt_of_lt hn h
    rw [roundWithAccuracy_exact hn h (k := 52 - n.log2 + 52)
      (by rw [digitsOf, mul_assoc, ← Nat.pow_add]) (by omega)
      (by unfold scaleOf at *; push_cast [hlog]; omega)]
    exact finite_congr rfl (by unfold scaleOf at *; push_cast [hlog]; omega)

theorem parts_ofNat {n : Nat} (h : n < 2 ^ 53) :
    parts (Float.ofNat n) = wholeParts .positive n := by
  rw [ofNat_eq h, parts_ofParts_whole h]

/-! ### Counting and comparing -/

theorem add_eq (x y : Float) :
    x + y = ofParts (UnpackedFloat.add Format.binary64 (parts x) (parts y)) :=
  rfl

theorem add_finite {m₁ m₂ : Nat} {e₁ e₂ : Int} {h₁ : 0 < m₁} {h₂ : 0 < m₂} :
    UnpackedFloat.add Format.binary64 (.finite .positive m₁ e₁ h₁) (.finite .positive m₂ e₂ h₂)
      = UnpackedFloat.normalize Format.binary64
          ((m₁ <<< (e₁ - min e₁ e₂).toNat + m₂ <<< (e₂ - min e₁ e₂).toNat : Nat) : Int)
          (min e₁ e₂) .positive :=
  rfl

theorem one_eq_ofNat : (1 : Float) = Float.ofNat 1 :=
  rfl

/-- **Counting is exact.** -/
theorem ofNat_add_one {n : Nat} (h : n + 1 < 2 ^ 53) :
    Float.ofNat n + 1 = Float.ofNat (n + 1) := by
  rw [one_eq_ofNat, add_eq, parts_ofNat (by omega), parts_ofNat (by omega), ofNat_eq h]
  congr 1
  by_cases hn : n = 0
  · subst hn
    rw [wholeParts_zero, zero_add, wholeParts_of_ne one_ne_zero]
    rfl
  · have hl := scaleOf_bounds hn (by omega)
    have hlog := log2_lt_of_lt hn (by omega)
    have h1 : digitsOf 1 = 2 ^ 52 := by decide
    have hs1 : scaleOf 1 = -52 := by decide
    rw [wholeParts_of_ne hn, wholeParts_of_ne (by omega : 1 ≠ 0),
      wholeParts_of_ne (by omega : n + 1 ≠ 0)]
    have he : (scaleOf n - -52).toNat = n.log2 := by
      unfold scaleOf
      omega
    have hd : digitsOf n <<< n.log2 = n * 2 ^ 52 := by
      rw [Nat.shiftLeft_eq, digitsOf, mul_assoc, ← Nat.pow_add]
      congr 2
      omega
    -- both numbers are brought to the exponent of one, where the sum is `(n + 1) · 2 ^ 52`
    have hmin : min (scaleOf n) (-52) = -52 := by omega
    rw [add_finite, hs1, hmin, he, hd, h1, sub_self, Int.toNat_zero, Nat.shiftLeft_zero,
      ← Nat.succ_mul, normalize_natCast (Nat.mul_ne_zero (by omega) (by positivity)),
      round_exact (by omega) h rfl (by unfold scaleOf; omega)]
    exact finite_congr rfl (by omega)

theorem log2_le_log2 {a b : Nat} (ha : a ≠ 0) (h : a ≤ b) : a.log2 ≤ b.log2 := by
  rw [Nat.le_log2 (by omega)]
  exact (Nat.log2_self_le ha).trans h

/-- The order of floats, first by exponent and then by mantissa, is that of the numbers. -/
theorem compare_parts {a b : Nat} (ha : a ≠ 0) (hb : b ≠ 0) :
    (compare (scaleOf a) (scaleOf b)).then (compare (digitsOf a) (digitsOf b)) = compare a b := by
  unfold scaleOf
  -- more digits make the greater number; with as many digits the mantissas decide
  rcases lt_trichotomy a.log2 b.log2 with hlt | heq | hgt
  · have hab : a < b := by
      by_contra hc
      have := log2_le_log2 hb (Nat.le_of_not_lt hc)
      omega
    rw [Int.compare_eq_lt.mpr (by omega), Nat.compare_eq_lt.mpr hab]
    rfl
  · rw [heq, digitsOf, digitsOf, heq, show compare ((b.log2 : Int) - 52) ((b.log2 : Int) - 52) = .eq
      from Int.compare_eq_eq.mpr rfl]
    rcases lt_trichotomy a b with h | rfl | h
    · rw [Nat.compare_eq_lt.mpr h,
        Nat.compare_eq_lt.mpr (Nat.mul_lt_mul_of_pos_right h (by positivity))]
      rfl
    · simp
    · rw [Nat.compare_eq_gt.mpr h,
        Nat.compare_eq_gt.mpr (Nat.mul_lt_mul_of_pos_right h (by positivity))]
      rfl
  · have hab : b < a := by
      by_contra hc
      have := log2_le_log2 ha (Nat.le_of_not_lt hc)
      omega
    rw [Int.compare_eq_gt.mpr (by omega), Nat.compare_eq_gt.mpr hab]
    rfl

/-- **Comparing is exact.** -/
theorem compare_ofNat {a b : Nat} (ha : a < 2 ^ 53) (hb : b < 2 ^ 53) :
    (parts (Float.ofNat a)).compare (parts (Float.ofNat b)) = some (compare a b) := by
  rw [parts_ofNat ha, parts_ofNat hb]
  by_cases ha0 : a = 0
  · subst ha0
    by_cases hb0 : b = 0
    · subst hb0
      rfl
    · rw [wholeParts_zero, wholeParts_of_ne hb0, Nat.compare_eq_lt.mpr (by omega)]
      rfl
  · by_cases hb0 : b = 0
    · subst hb0
      rw [wholeParts_zero, wholeParts_of_ne ha0, Nat.compare_eq_gt.mpr (by omega)]
      rfl
    · rw [wholeParts_of_ne ha0, wholeParts_of_ne hb0, ← compare_parts ha0 hb0]
      rfl

theorem lt_iff (x y : Float) : x < y ↔ (parts x).compare (parts y) = some .lt := by
  have h : (x < y) = (((parts x).compare (parts y) == some .lt) = true) := by
    change ((decide (((parts x).compare (parts y) == some .lt) = true)) = true) = _
    simp
  rw [h, beq_iff_eq]

theorem beq_eq (x y : Float) : (x == y) = ((parts x).compare (parts y) == some .eq) :=
  rfl

theorem ofNat_lt_ofNat {a b : Nat} (ha : a < 2 ^ 53) (hb : b < 2 ^ 53) :
    Float.ofNat a < Float.ofNat b ↔ a < b := by
  rw [lt_iff, compare_ofNat ha hb, Option.some_inj, Nat.compare_eq_lt]

theorem ofNat_beq_ofNat {a b : Nat} (ha : a < 2 ^ 53) (hb : b < 2 ^ 53) :
    (Float.ofNat a == Float.ofNat b) = (a == b) := by
  rw [beq_eq, compare_ofNat ha hb, Bool.eq_iff_iff, beq_iff_eq, beq_iff_eq, Option.some_inj,
    Nat.compare_eq_eq]

/-! ### Beyond exactness -/

/-- **The float of a great number** has an exponent that no smaller one has. -/
theorem parts_ofNat_great {n : Nat} (hlow : 2 ^ 53 ≤ n) (hhigh : n < 2 ^ 64) :
    ∃ (q : Nat) (e : Int) (hq : 0 < q), IsNormal q e ∧ 1 ≤ e ∧
      parts (Float.ofNat n) = .finite .positive q e hq := by
  have hn : n ≠ 0 := by omega
  have hlog : 53 ≤ n.log2 := (Nat.le_log2 hn).mpr hlow
  have hlog' : n.log2 < 64 := (Nat.log2_lt hn).mpr hhigh
  -- from `2 ^ 53` on the number is rounded, as a decimal without a fraction
  have hmul : Float.ofNat n = ofParts (roundWithAccuracy Format.binary64 .positive
      (n <<< 53 * 10 ^ (0 : Int).toNat) (-53 + 0) .exact) := by
    unfold Float.ofNat
    change Float.ofScientific n false 0 = _
    unfold Float.ofScientific
    rw [dif_neg (by omega)]
    change ofParts (UnpackedFloat.ofScientific Format.binary64 n 0) = _
    unfold UnpackedFloat.ofScientific
    rw [dif_neg hn, if_neg (by norm_num), if_neg (by norm_num), if_pos le_rfl]
    rfl
  have hm : n <<< 53 * 10 ^ (0 : Int).toNat = n * 2 ^ 53 := by
    rw [Nat.shiftLeft_eq, Int.toNat_zero, Nat.pow_zero, mul_one]
  rw [hm] at hmul
  have hmlog : (n * 2 ^ 53).log2 = n.log2 + 53 := log2_mul_two_pow hn 53
  obtain ⟨q, e, hq, hqlog, he1, he2, hround⟩ :=
    roundWithAccuracy_great (s := .positive) (m := n * 2 ^ 53) (e := -53 + 0) (a := .exact)
      (by omega) (by omega)
  have hnormal : IsNormal q e := ⟨hqlog, by omega, by omega⟩
  refine ⟨q, e, hq, hnormal, by omega, ?_⟩
  rw [hmul, hround, parts_ofParts hnormal]

/-- A number below `2 ^ 53` stays below one that is not. -/
theorem ofNat_lt_ofNat_great {a n : Nat} (ha : a < 2 ^ 53) (hlow : 2 ^ 53 ≤ n)
    (hhigh : n < 2 ^ 64) : Float.ofNat a < Float.ofNat n := by
  obtain ⟨q, e, hq, -, he, hparts⟩ := parts_ofNat_great hlow hhigh
  rw [lt_iff, parts_ofNat ha, hparts]
  by_cases ha0 : a = 0
  · subst ha0
    rfl
  · have hl := scaleOf_bounds ha0 ha
    rw [wholeParts_of_ne ha0]
    change some ((compare (scaleOf a) e).then (compare (digitsOf a) q)) = _
    rw [Int.compare_eq_lt.mpr (by omega)]
    rfl

/-- **Comparing a count.** A number below `2 ^ 53` is compared rightly with every number of 64
bits, exact or not. -/
theorem ofNat_lt_iff {a n : Nat} (ha : a < 2 ^ 53) (hn : n < 2 ^ 64) :
    Float.ofNat a < Float.ofNat n ↔ a < n := by
  rcases Nat.lt_or_ge n (2 ^ 53) with h | h
  · exact ofNat_lt_ofNat ha h
  · exact iff_of_true (ofNat_lt_ofNat_great ha h hn) (by omega)

/-- The float of a number is not negative, so no negated one is above another. -/
theorem not_ofNat_lt_neg {a n : Nat} (ha : a < 2 ^ 53) (hn : n < 2 ^ 64) :
    ¬ Float.ofNat a < -Float.ofNat n := by
  have hneg : ∀ x : Float, parts (-x) = parts (ofParts (parts x).neg) := fun _ => rfl
  have hzero : ∀ s, ¬ (wholeParts .positive a).compare (.zero s) = some .lt := by
    intro s
    by_cases ha0 : a = 0
    · subst ha0
      simp [wholeParts_zero, UnpackedFloat.compare]
    · simp [wholeParts_of_ne ha0, UnpackedFloat.compare]
  have hfinite : ∀ (q : Nat) (e : Int) (hq : 0 < q),
      ¬ (wholeParts .positive a).compare (.finite .negative q e hq) = some .lt := by
    intro q e hq
    by_cases ha0 : a = 0
    · subst ha0
      simp [wholeParts_zero, UnpackedFloat.compare]
    · simp [wholeParts_of_ne ha0, UnpackedFloat.compare]
  rw [lt_iff, hneg, parts_ofNat ha]
  -- the negated number is exact, or rounded; its sign is the same in both
  rcases Nat.lt_or_ge n (2 ^ 53) with h | h
  · rw [parts_ofNat h]
    by_cases hn0 : n = 0
    · subst hn0
      rw [wholeParts_zero]
      change ¬ (wholeParts .positive a).compare (parts (ofParts (.zero .negative))) = _
      rw [parts_ofParts_zero]
      exact hzero _
    · rw [wholeParts_of_ne hn0]
      change ¬ (wholeParts .positive a).compare
        (parts (ofParts (.finite .negative (digitsOf n) (scaleOf n) _))) = _
      rw [parts_ofParts (isNormal_whole hn0 h)]
      exact hfinite _ _ _
  · obtain ⟨q, e, hq, hnormal, -, hparts⟩ := parts_ofNat_great h hn
    rw [hparts]
    change ¬ (wholeParts .positive a).compare (parts (ofParts (.finite .negative q e hq))) = _
    rw [parts_ofParts hnormal]
    exact hfinite _ _ _

/-! ### Back to numbers -/

theorem isNaN_eq (x : Float) : x.isNaN = (parts x).isNaN :=
  rfl

theorem isInf_eq (x : Float) : x.isInf = (parts x).isInf :=
  rfl

/-- The digits of a number below `2 ^ 53`, moved back to their places. -/
theorem magnitude_whole {b : Bool} {n : Nat} (hn : n ≠ 0) (h : n < 2 ^ 53) :
    (Dyadic.mk b (digitsOf n) (scaleOf n)).magnitude = n := by
  have hlog := log2_lt_of_lt hn h
  unfold Dyadic.magnitude digitsOf scaleOf
  dsimp only
  split
  · rw [show ((n.log2 : Int) - 52).toNat = 52 - n.log2 by omega,
      show 52 - n.log2 = 0 by omega]
    simp
  · rw [show (-((n.log2 : Int) - 52)).toNat = 52 - n.log2 by omega, Nat.pow_eq]
    exact Nat.mul_div_cancel _ (by positivity)

theorem truncate_whole {b : Bool} {n : Nat} (hn : n ≠ 0) (h : n < 2 ^ 53) :
    (Dyadic.mk b (digitsOf n) (scaleOf n)).truncate = if b then -(n : Int) else n := by
  unfold Dyadic.truncate Dyadic.signed
  rw [magnitude_whole hn h]

/-- A zero is cut to zero. -/
theorem truncate_of_zero {x : Float} {s : Sign} (h : parts x = .zero s) :
    (Dyadic.ofFloat x).truncate = 0 := by
  obtain ⟨hm, he⟩ := ofFloat_of_zero h
  unfold Dyadic.truncate Dyadic.signed Dyadic.magnitude
  rw [hm, he, Nat.zero_mul, Nat.zero_div, ite_self, Nat.cast_zero, neg_zero, ite_self]

/-- **The number is read back.** -/
theorem truncateWithin_ofNat {n : Nat} {high : Int} (h : n < 2 ^ 53) (hhigh : n ≤ high) :
    truncateWithin 0 high (Float.ofNat n) = n := by
  have hparts := parts_ofNat h
  unfold truncateWithin
  rw [isNaN_eq, isInf_eq, hparts]
  by_cases hn : n = 0
  · subst hn
    rw [truncate_of_zero hparts]
    simp only [wholeParts_zero, UnpackedFloat.isNaN, UnpackedFloat.isInf]
    simp
  · rw [wholeParts_of_ne hn] at hparts ⊢
    rw [ofFloat_of_finite hparts, truncate_whole hn h]
    simp only [UnpackedFloat.isNaN, UnpackedFloat.isInf, isNegative]
    simp
    omega

/-! ### Numerals -/

theorem takeWhile_isDigit_toDigits (n : Nat) :
    (Nat.toDigits 10 n).takeWhile Char.isDigit = Nat.toDigits 10 n :=
  List.takeWhile_eq_self_iff.mpr fun _ hc => Nat.isDigit_of_mem_toDigits (by omega) (by omega) hc

theorem dropWhile_isDigit_toDigits (n : Nat) :
    (Nat.toDigits 10 n).dropWhile Char.isDigit = [] :=
  List.dropWhile_eq_nil_iff.mpr fun _ hc => Nat.isDigit_of_mem_toDigits (by omega) (by omega) hc

/-- A word that begins with a letter is not one of digits. -/
theorem map_toLower_toDigits_ne (n : Nat) {word : List Char}
    (hw : word.head?.any (!·.isDigit) = true) :
    (Nat.toDigits 10 n).map Char.toLower ≠ word := by
  obtain ⟨d, ds, hds⟩ := List.exists_cons_of_ne_nil (Nat.toDigits_ne_nil (n := n) (b := 10))
  have hd : d.isDigit = true := by
    refine Nat.isDigit_of_mem_toDigits (b := 10) (n := n) (by omega) (by omega) ?_
    rw [hds]
    exact List.mem_cons_self
  -- digits come before the capital letters
  have hlower : d.toLower = d := by
    unfold Char.toLower
    rw [dif_neg]
    simp only [Char.isDigit, Bool.and_eq_true, decide_eq_true_eq, UInt32.le_iff_toNat_le] at hd
    have h9 : '9'.val.toNat < 'A'.val.toNat := by decide
    rintro ⟨h1, -⟩
    have h1' := UInt32.le_iff_toNat_le.mp h1
    omega
  rw [hds, List.map_cons, hlower]
  rintro rfl
  simp [hd] at hw

theorem ofDigits_toDigits (n : Nat) : ofDigits (Nat.toDigits 10 n) = n := by
  have h : ∀ (cs : List Char) (i : Nat),
      cs.foldl (fun n c => 10 * n + (c.toNat - '0'.toNat)) i = Nat.ofDigitChars 10 cs i := by
    intro cs i
    rw [Nat.ofDigitChars_eq_foldl]
  unfold ofDigits
  rw [h, Nat.ofDigitChars_ten_toDigits]

/-- **A run of decimal digits is read as the float of its number.** -/
theorem read_digits (n : Nat) : read (String.ofList (Nat.toDigits 10 n)) = Float.ofNat n := by
  have hdec : ofDecimal n 0 = Float.ofNat n := by
    unfold ofDecimal
    by_cases hn : n = 0
    · rw [if_pos (Or.inl hn), hn]
      rfl
    · rw [if_neg (by omega), if_neg (by omega), if_neg (by omega)]
      rfl
  -- no sign stands in front, because the first character is a digit
  have hhead : ∀ c cs, Nat.toDigits 10 n ≠ c :: cs ∨ c.isDigit = true := by
    intro c cs
    by_cases h : Nat.toDigits 10 n = c :: cs
    · right
      refine Nat.isDigit_of_mem_toDigits (b := 10) (n := n) (by omega) (by omega) ?_
      rw [h]
      exact List.mem_cons_self
    · exact Or.inl h
  have hunsigned : readUnsigned? (Nat.toDigits 10 n) = some (Float.ofNat n) := by
    have hne := Nat.toDigits_ne_nil (n := n) (b := 10)
    unfold readUnsigned?
    simp only [takeWhile_isDigit_toDigits, dropWhile_isDigit_toDigits]
    -- nor are the digits the name of an infinity or of no number
    rw [if_neg, if_neg (map_toLower_toDigits_ne n (by decide +kernel))]
    · simp only [List.isEmpty_eq_false_iff.mpr hne, Bool.false_and, Bool.false_eq_true, if_false]
      simp only [readExponent?, List.append_nil, ofDigits_toDigits, Option.map_some,
        List.length_nil, Nat.cast_zero, sub_zero, hdec]
    · rintro (h | h)
      · exact map_toLower_toDigits_ne n (by decide +kernel) h
      · exact map_toLower_toDigits_ne n (by decide +kernel) h
  unfold read
  rw [String.toList_ofList]
  unfold read?
  split
  · next cs h => exact ((hhead '-' cs).resolve_left (not_not.mpr h) |> absurd <| by decide)
  · next cs h => exact ((hhead '+' cs).resolve_left (not_not.mpr h) |> absurd <| by decide)
  · rw [hunsigned]
    rfl

end Blockwork.Number
