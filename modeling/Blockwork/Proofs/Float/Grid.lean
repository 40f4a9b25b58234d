import Mathlib
import Blockwork.Proofs.Float.Whole
import Blockwork.Workspace.Grid

/-!
# Points of the grid

Snapping a coordinate divides it by the distance of two grid lines, adds a half, goes down to a
whole number and multiplies again. On the points of the grid below `2 ^ 53` each of these operations
is exact, so that a point stays where it is (`snapToGrid_point`), and whatever coordinate is snapped
to a number below `2 ^ 53`, this number is such a point (`point_of_snapToGrid`). So snapping once
more changes nothing (`snapToGrid_snapToGrid`).
-/

namespace Blockwork

open Number Float.Model Float.Model.UnpackedFloat

namespace Number

/-! ### Floats of integers -/

/-- The sign of an integer. -/
def signOfInt (z : Int) : Sign :=
  if z < 0 then .negative else .positive

theorem parts_neg (x : Float) : parts (-x) = parts (ofParts (parts x).neg) :=
  rfl

/-- **The float of an integer** below `2 ^ 53` has its sign and digits. -/
theorem parts_ofInt {z : Int} (h : z.natAbs < 2 ^ 53) :
    parts (Float.ofInt z) = wholeParts (signOfInt z) z.natAbs := by
  cases z with
  | ofNat n =>
    have hsign : signOfInt (Int.ofNat n) = .positive := if_neg (by simp)
    rw [hsign]
    exact parts_ofNat h
  | negSucc n =>
    have hsign : signOfInt (Int.negSucc n) = .negative := if_pos (Int.negSucc_lt_zero n)
    have hn : n + 1 < 2 ^ 53 := h
    rw [hsign]
    change parts (-(Float.ofNat (n + 1))) = wholeParts .negative (n + 1)
    rw [parts_neg, parts_ofNat hn, wholeParts_of_ne (Nat.succ_ne_zero n)]
    change parts (ofParts (.finite .negative (digitsOf (n + 1)) (scaleOf (n + 1)) _)) = _
    rw [parts_ofParts (isNormal_whole (Nat.succ_ne_zero n) hn),
      wholeParts_of_ne (Nat.succ_ne_zero n)]

/-! ### Multiplying and dividing by the size of the grid -/

theorem gridSize_eq : gridSize = Float.ofNat 40 :=
  rfl

theorem parts_gridSize : parts gridSize = .finite .positive (40 * 2 ^ 47) (-47) (by decide) := by
  rw [gridSize_eq, parts_ofNat (by decide), wholeParts_of_ne (by decide)]
  exact finite_congr (by decide) (by decide)

theorem mul_eq (x y : Float) :
    x * y = ofParts (UnpackedFloat.mul Format.binary64 (parts x) (parts y)) :=
  rfl

theorem div_eq (x y : Float) :
    x / y = ofParts (UnpackedFloat.div Format.binary64 (parts x) (parts y)) :=
  rfl

theorem sign_mul_positive (s : Sign) : s * Sign.positive = s := by
  cases s <;> rfl

theorem sign_div_positive (s : Sign) : s / Sign.positive = s := by
  cases s <;> rfl

theorem log2_forty_mul {n : Nat} (hn : n ≠ 0) :
    n.log2 + 5 ≤ (40 * n).log2 ∧ (40 * n).log2 ≤ n.log2 + 6 := by
  have hlow := Nat.log2_self_le hn
  have hhigh := Nat.lt_log2_self (n := n)
  have hne : 40 * n ≠ 0 := by omega
  constructor
  · rw [Nat.le_log2 hne, Nat.pow_add]
    omega
  · rw [← Nat.lt_succ_iff, Nat.log2_lt hne, Nat.succ_eq_add_one,
      show n.log2 + 6 + 1 = (n.log2 + 1) + 6 by omega, Nat.pow_add]
    omega

/-- The digits of a number times those of the size of the grid. -/
theorem digitsOf_mul_forty (n : Nat) :
    digitsOf n * (40 * 2 ^ 47) = 40 * n * 2 ^ (52 - n.log2 + 47) := by
  rw [digitsOf, Nat.pow_add]
  ring

/-- **Multiplying is exact.** -/
theorem mul_gridSize {x : Float} {s : Sign} {n : Nat} (hx : parts x = wholeParts s n)
    (h : 40 * n < 2 ^ 53) : x * gridSize = ofParts (wholeParts s (40 * n)) := by
  rw [mul_eq, hx, parts_gridSize]
  congr 1
  by_cases hn : n = 0
  · subst hn
    rw [Nat.mul_zero, wholeParts_zero]
    change UnpackedFloat.zero (s * .positive) = _
    rw [sign_mul_positive]
  · have hlog := log2_lt_of_lt hn (by omega)
    have hforty := log2_forty_mul hn
    rw [wholeParts_of_ne hn, wholeParts_of_ne (by omega)]
    change roundWithAccuracy Format.binary64 (s * .positive) (digitsOf n * (40 * 2 ^ 47))
      (scaleOf n + -47) .exact = _
    rw [digitsOf_mul_forty, sign_mul_positive, roundWithAccuracy_exact (by omega) h rfl (by omega)
      (by unfold scaleOf; push_cast [hlog]; omega)]
    exact finite_congr rfl (by unfold scaleOf; push_cast [hlog]; omega)

/-- **Dividing a multiple is exact.** -/
theorem div_gridSize {x : Float} {s : Sign} {n : Nat} (hx : parts x = wholeParts s (40 * n))
    (h : 40 * n < 2 ^ 53) : x / gridSize = ofParts (wholeParts s n) := by
  rw [div_eq, hx, parts_gridSize]
  congr 1
  by_cases hn : n = 0
  · subst hn
    rw [Nat.mul_zero, wholeParts_zero]
    change UnpackedFloat.zero (s / .positive) = _
    rw [sign_div_positive]
  · have hne : 40 * n ≠ 0 := by omega
    have hlog := log2_lt_of_lt hne h
    have hforty := log2_forty_mul hn
    rw [wholeParts_of_ne hn, wholeParts_of_ne hne]
    -- the quotient is computed with so many digits that it has no remainder
    have hcore : divCore Format.binary64 (digitsOf (40 * n)) (scaleOf (40 * n)) (40 * 2 ^ 47) (-47)
        = (n * 2 ^ (58 - (40 * n).log2), ((40 * n).log2 : Int) - 58, .exact) := by
      have hm : digitsOf (40 * n) <<< 53 = n * 2 ^ (58 - (40 * n).log2) * (40 * 2 ^ 47) := by
        rw [Nat.shiftLeft_eq, digitsOf, show 58 - (40 * n).log2 = (52 - (40 * n).log2) + 6 by omega,
          Nat.pow_add]
        ring
      have htarget : min (scaleOf (40 * n) - -47)
          (Format.binary64.targetExponent (totalExponent (digitsOf (40 * n)) (scaleOf (40 * n))
            - totalExponent (40 * 2 ^ 47) (-47))) = ((40 * n).log2 : Int) - 58 := by
        have hforty' : (40 * 2 ^ 47 : Nat).log2 = 52 := by decide
        simp only [Format.targetExponent, totalExponent, Format.mantissaBits, Format.minExponent,
          log2_digitsOf hne h, hforty', scaleOf]
        norm_num
        omega
      have hshift : (scaleOf (40 * n) - -47 - (((40 * n).log2 : Int) - 58)).toNat = 53 := by
        unfold scaleOf
        omega
      unfold divCore
      simp only [htarget, hshift, hm]
      rw [Nat.mul_div_cancel _ (by decide), Nat.mul_mod_left]
      rfl
    unfold UnpackedFloat.div
    simp only [hcore]
    rw [sign_div_positive, roundWithAccuracy_exact hn (by omega) rfl (by omega)
      (by unfold scaleOf; omega)]
    exact finite_congr rfl (by unfold scaleOf; omega)

/-! ### The nearest line -/

/-- The parts of half an odd number. -/
def halfParts (z : Int) (h : z.natAbs ≠ 0) : UnpackedFloat :=
  .finite (signOfInt z) (digitsOf z.natAbs) (scaleOf z.natAbs + -1) (digitsOf_pos h)

theorem odd_ne_zero (z : Int) : (2 * z + 1).natAbs ≠ 0 := by
  omega

theorem isNormal_half {n : Nat} (hn : n ≠ 0) (h : n < 2 ^ 53) :
    IsNormal (digitsOf n) (scaleOf n + -1) := by
  have hb := scaleOf_bounds hn h
  exact isNormal_digitsOf hn h (by omega) (by omega)

theorem parts_half : parts 0.5 = .finite .positive (2 ^ 52) (-53) (by decide) := by
  have hfield : field 0.5 = 1022 := by decide +kernel
  have hfraction : fraction 0.5 = 0 := by decide +kernel
  have hsign : signOf 0.5 = .positive := by
    unfold signOf
    rw [if_pos (by decide +kernel)]
  rw [parts_eq, if_neg (by omega), if_neg (by omega)]
  simp only [hfield, hfraction, hsign]
  exact finite_congr (by omega) (by omega)

theorem normalize_odd {z : Int} (h : (2 * z + 1).natAbs < 2 ^ 53) :
    UnpackedFloat.normalize Format.binary64 ((2 * z + 1) * 2 ^ 52) (-53) .positive
      = halfParts (2 * z + 1) (odd_ne_zero z) := by
  have hround : ∀ s, UnpackedFloat.round Format.binary64 s ((2 * z + 1).natAbs * 2 ^ 52) (-53)
      = .finite s (digitsOf (2 * z + 1).natAbs) (scaleOf (2 * z + 1).natAbs + -1)
        (digitsOf_pos (odd_ne_zero z)) := by
    intro s
    have hb := scaleOf_bounds (odd_ne_zero z) h
    rw [round_exact (odd_ne_zero z) h rfl (by omega)]
    exact finite_congr rfl (by omega)
  unfold UnpackedFloat.normalize halfParts signOfInt
  -- the sign goes with the number, and the magnitude is rounded alike
  rcases Int.lt_or_gt_of_ne (show 2 * z + 1 ≠ 0 by omega) with hneg | hpos
  · have hlt : (2 * z + 1) * 2 ^ 52 < 0 := by omega
    have hnat : (-((2 * z + 1) * 2 ^ 52)).toNat = (2 * z + 1).natAbs * 2 ^ 52 := by omega
    rw [Int.compare_eq_lt.mpr hlt, if_pos hneg, hnat]
    exact hround .negative
  · have hgt : 0 < (2 * z + 1) * 2 ^ 52 := by omega
    have hnat : ((2 * z + 1) * 2 ^ 52).toNat = (2 * z + 1).natAbs * 2 ^ 52 := by omega
    rw [Int.compare_eq_gt.mpr hgt, if_neg (by omega), hnat]
    exact hround .positive

/-- **Adding a half is exact.** -/
theorem add_half {x : Float} {z : Int} (hx : parts x = wholeParts (signOfInt z) z.natAbs)
    (h : z.natAbs < 2 ^ 51) : x + 0.5 = ofParts (halfParts (2 * z + 1) (odd_ne_zero z)) := by
  rw [add_eq, hx, parts_half, ← normalize_odd (by omega)]
  congr 1
  -- zero has no exponent to be brought in line, so it is added by itself
  by_cases hz : z = 0
  · subst hz
    rw [normalize_odd (by decide)]
    exact finite_congr (by decide) (by decide)
  · have hn : z.natAbs ≠ 0 := by omega
    have hlog := log2_lt_of_lt hn (by omega)
    rw [wholeParts_of_ne hn]
    -- the half has the lower exponent, and the sum is made there without rounding
    have hmin : min (scaleOf z.natAbs) (-53) = -53 := by
      unfold scaleOf
      omega
    have hshift : (scaleOf z.natAbs - -53).toNat = z.natAbs.log2 + 1 := by
      unfold scaleOf
      omega
    have hdigits : digitsOf z.natAbs <<< (z.natAbs.log2 + 1) = z.natAbs * 2 ^ 53 := by
      rw [Nat.shiftLeft_eq, digitsOf, mul_assoc, ← Nat.pow_add]
      congr 2
      omega
    have hsum : (signOfInt z).apply ((z.natAbs * 2 ^ 53 : Nat) : Int)
        + Sign.positive.apply ((2 ^ 52 : Nat) : Int) = (2 * z + 1) * 2 ^ 52 := by
      unfold signOfInt
      split
      · change -((z.natAbs * 2 ^ 53 : Nat) : Int) + ((2 ^ 52 : Nat) : Int) = _
        omega
      · change ((z.natAbs * 2 ^ 53 : Nat) : Int) + ((2 ^ 52 : Nat) : Int) = _
        omega
    unfold UnpackedFloat.add
    simp only [decreaseExponent, hmin, hshift, hdigits, sub_self, Int.toNat_zero,
      Nat.shiftLeft_zero, hsum]

/-- Half an odd number is not whole, and what is before the point is half the even number below. -/
theorem dyadic_half {b : Bool} {n : Nat} (hodd : n % 2 = 1) (h : n < 2 ^ 53) :
    (Dyadic.mk b (digitsOf n) (scaleOf n + -1)).isWhole = false ∧
      (Dyadic.mk b (digitsOf n) (scaleOf n + -1)).magnitude = n / 2 := by
  have hlog := log2_lt_of_lt (by omega : n ≠ 0) h
  -- the last digit of the mantissa stands for a half
  have hscale : -(scaleOf n + -1) = ((52 - n.log2 + 1 : Nat) : Int) := by
    unfold scaleOf
    omega
  have hmod : digitsOf n % 2 ^ (52 - n.log2 + 1) = 2 ^ (52 - n.log2) := by
    rw [digitsOf, Nat.pow_succ, mul_comm, Nat.mul_mod_mul_left, hodd, mul_one]
  have hdiv : digitsOf n / 2 ^ (52 - n.log2 + 1) = n / 2 := by
    rw [digitsOf, Nat.pow_succ, mul_comm, Nat.mul_div_mul_left _ _ (by positivity)]
  constructor
  · unfold Dyadic.isWhole
    dsimp only
    rw [hscale, Int.toNat_natCast, Nat.pow_eq, hmod]
    have hpos : 0 < 2 ^ (52 - n.log2) := by positivity
    simp only [Bool.or_eq_false_iff, decide_eq_false_iff_not, beq_eq_false_iff_ne]
    exact ⟨by omega, hpos.ne'⟩
  · unfold Dyadic.magnitude
    dsimp only
    rw [if_neg (by omega), hscale, Int.toNat_natCast, Nat.pow_eq, hdiv]

/-- **Going down from half an odd number.** -/
theorem floor_half {x : Float} {z : Int} (hx : parts x = halfParts (2 * z + 1) (odd_ne_zero z))
    (h : (2 * z + 1).natAbs < 2 ^ 53) : Number.floor x = Float.ofInt z := by
  have hdyadic := ofFloat_of_finite hx
  obtain ⟨hwhole, hmagnitude⟩ := @dyadic_half (isNegative (signOfInt (2 * z + 1))) _
    (by omega : (2 * z + 1).natAbs % 2 = 1) h
  rw [← hdyadic] at hwhole hmagnitude
  have hfloor : (Dyadic.ofFloat x).floor = z := by
    unfold Dyadic.floor Dyadic.truncate Dyadic.signed
    rw [hwhole, hmagnitude, hdyadic]
    dsimp only
    -- below zero the half that is cut off has to be taken away once more
    unfold signOfInt
    split
    · change -((((2 * z + 1).natAbs / 2 : Nat) : Int) + 1) = z
      omega
    · change (((2 * z + 1).natAbs / 2 : Nat) : Int) = z
      omega
  have hnan : x.isNaN = false := by
    rw [isNaN_eq, hx]
    rfl
  have hinf : x.isInf = false := by
    rw [isInf_eq, hx]
    rfl
  unfold Number.floor
  rw [hnan, hinf, hwhole, hfloor]
  rfl

/-! ### Back to an integer -/

/-- The integer of a sign and a magnitude. -/
def signed (s : Sign) (n : Nat) : Int :=
  if isNegative s then -(n : Int) else n

theorem natAbs_signed (s : Sign) (n : Nat) : (signed s n).natAbs = n := by
  cases s with
  | positive => exact Int.natAbs_natCast n
  | negative => exact (Int.natAbs_neg _).trans (Int.natAbs_natCast n)

theorem signed_signOfInt (z : Int) : signed (signOfInt z) z.natAbs = z := by
  unfold signOfInt
  split
  · change -(z.natAbs : Int) = z
    omega
  · change (z.natAbs : Int) = z
    omega

/-- An integer below `2 ^ 53` is read back. -/
theorem truncateWithin_whole {x : Float} {s : Sign} {n : Nat} {low high : Int}
    (hx : parts x = wholeParts s n) (h : n < 2 ^ 53) (hlow : low ≤ -n) (hhigh : n ≤ high) :
    truncateWithin low high x = signed s n := by
  have htruncate : (Dyadic.ofFloat x).truncate = signed s n := by
    by_cases hn : n = 0
    · subst hn
      rw [truncate_of_zero hx]
      cases s <;> rfl
    · rw [wholeParts_of_ne hn] at hx
      rw [ofFloat_of_finite hx, truncate_whole hn h]
      rfl
  have hfinite : (wholeParts s n).isNaN = false ∧ (wholeParts s n).isInf = false := by
    unfold wholeParts
    split <;> exact ⟨rfl, rfl⟩
  have habs := natAbs_signed s n
  unfold truncateWithin
  rw [isNaN_eq, isInf_eq, hx, hfinite.1, hfinite.2, htruncate]
  simp only [Bool.false_eq_true, if_false]
  omega

/-! ### Numbers too great for the grid -/

theorem parts_ofParts_infinity (s : Sign) : parts (ofParts (.infinity s)) = .infinity s := by
  cases s <;> rfl

/-- An infinite float is cut to one of the bounds. -/
theorem truncateWithin_infinity {x : Float} {s : Sign} {low high : Int}
    (hx : parts x = .infinity s) (hlow : low ≤ -2 ^ 53) (hhigh : 2 ^ 53 ≤ high) :
    2 ^ 53 ≤ (truncateWithin low high x).natAbs := by
  unfold truncateWithin
  rw [isNaN_eq, isInf_eq, hx]
  simp only [UnpackedFloat.isNaN, UnpackedFloat.isInf, Bool.false_eq_true, if_false, if_true]
  split <;> omega

/-- A float with so great an exponent is cut to no small number. -/
theorem truncateWithin_great {s : Sign} {q : Nat} {e low high : Int} {hq : 0 < q}
    (hdigits : q.log2 = 52) (he : 1 ≤ e) (hlow : low ≤ -2 ^ 53) (hhigh : 2 ^ 53 ≤ high) :
    2 ^ 53 ≤ (truncateWithin low high (ofParts (.finite s q e hq))).natAbs := by
  by_cases hhuge : e ≤ 971
  · have hnormal : IsNormal q e := ⟨hdigits, by omega, hhuge⟩
    have hparts := @parts_ofParts s q e hq hnormal
    have hq52 := hnormal.mantissa_bounds.1
    have hpow : 2 ≤ 2 ^ e.toNat := by
      have : 2 ^ 1 ≤ 2 ^ e.toNat := Nat.pow_le_pow_right (by decide) (by omega)
      omega
    have hgreat : 2 ^ 53 ≤ q * 2 ^ e.toNat := Nat.mul_le_mul hq52 hpow
    have htruncate : (Dyadic.ofFloat (ofParts (.finite s q e hq))).truncate
        = signed s (q * 2 ^ e.toNat) := by
      rw [ofFloat_of_finite hparts]
      unfold Dyadic.truncate Dyadic.magnitude
      dsimp only
      rw [if_pos (by omega)]
      rfl
    unfold truncateWithin
    rw [isNaN_eq, isInf_eq, hparts, htruncate]
    simp only [UnpackedFloat.isNaN, UnpackedFloat.isInf, Bool.false_eq_true, if_false]
    have habs := natAbs_signed s (q * 2 ^ e.toNat)
    generalize q * 2 ^ e.toNat = n at hgreat habs
    omega
  · -- beyond the greatest exponent the number is packed as infinite
    have hbits : UnpackedFloat.pack Format.binary64 (.finite s q e hq)
        = UnpackedFloat.pack Format.binary64 (.infinity s) := by
      have hbiased : 2 ^ 11 ≤ (e + ((1023 : Nat) : Int) + ((52 : Nat) : Int)).toNat + 1 := by omega
      unfold UnpackedFloat.pack
      exact if_pos hbiased
    have hpack : ofParts (.finite s q e hq) = ofParts (.infinity s) := by
      unfold ofParts Float.Model.pack
      simp only [hbits]
    rw [hpack]
    exact truncateWithin_infinity (parts_ofParts_infinity s) hlow hhigh

/-- A great number times the size of the grid. -/
theorem mul_gridSize_great {x : Float} {s : Sign} {m : Nat} {e : Int} {hm : 0 < m}
    (hx : parts x = .finite s m e hm)
    (h : 53 ≤ ((m * (40 * 2 ^ 47)).log2 : Int) + (e - 47)) (hlog : 52 ≤ (m * (40 * 2 ^ 47)).log2) :
    ∃ (q : Nat) (e' : Int) (hq : 0 < q), q.log2 = 52 ∧ 1 ≤ e' ∧
      x * gridSize = ofParts (.finite s q e' hq) := by
  rw [mul_eq, hx, parts_gridSize]
  obtain ⟨q, e', hq, hdigits, hlow, -, hround⟩ :=
    @roundWithAccuracy_great s (m * (40 * 2 ^ 47)) (e + -47) .exact hlog (by omega)
  refine ⟨q, e', hq, hdigits, by omega, ?_⟩
  change ofParts (roundWithAccuracy Format.binary64 (s * .positive) (m * (40 * 2 ^ 47)) (e + -47)
    .exact) = _
  rw [sign_mul_positive, hround]

/-! ### Whole floats -/

/-- A whole float with an exponent that is not positive is below `2 ^ 53`. -/
theorem wholeParts_of_isWhole {s : Sign} {m : Nat} {e : Int} {hm : 0 < m} (h : IsNormal m e)
    (he : e ≤ 0) (hwhole : (Dyadic.mk (isNegative s) m e).isWhole = true) :
    ∃ n, n < 2 ^ 53 ∧ UnpackedFloat.finite s m e hm = wholeParts s n := by
  obtain ⟨k, rfl⟩ : ∃ k : Nat, e = -(k : Int) := ⟨(-e).toNat, by omega⟩
  have hmod : m % 2 ^ k = 0 := by
    unfold Dyadic.isWhole at hwhole
    dsimp only at hwhole
    rw [neg_neg, Int.toNat_natCast, Nat.pow_eq, Bool.or_eq_true, decide_eq_true_iff,
      beq_iff_eq] at hwhole
    rcases hwhole with hzero | hmod
    · obtain rfl : k = 0 := by omega
      exact Nat.mod_one m
    · exact hmod
  -- the digits below the point are zeros, so the mantissa is the number with zeros behind it
  obtain ⟨n, rfl⟩ := Nat.dvd_of_mod_eq_zero hmod
  have hn : n ≠ 0 := by
    rintro rfl
    exact absurd hm (by simp)
  have hbound := h.mantissa_bounds.2
  have hlog := h.digits
  rw [mul_comm, log2_mul_two_pow hn] at hlog
  have hle : n ≤ 2 ^ k * n := Nat.le_mul_of_pos_left n (by positivity)
  refine ⟨n, by omega, ?_⟩
  rw [wholeParts_of_ne hn]
  refine finite_congr ?_ ?_
  · rw [digitsOf, mul_comm, show 52 - n.log2 = k by omega]
  · unfold scaleOf
    omega

theorem not_isWhole_of_lt {b : Bool} {m k : Nat} {e : Int} (hm : 0 < m) (hlt : m < 2 ^ 52)
    (hk : 52 ≤ k) (he : e = -(k : Int)) : ¬ (Dyadic.mk b m e).isWhole = true := by
  have hmod : m % 2 ^ k = m :=
    Nat.mod_eq_of_lt (hlt.trans_le (Nat.pow_le_pow_right (by decide) hk))
  unfold Dyadic.isWhole
  dsimp only
  rw [he, neg_neg, Int.toNat_natCast, Nat.pow_eq, hmod, Bool.or_eq_true, decide_eq_true_iff,
    beq_iff_eq]
  omega

/-- A float with nothing behind the point stays as it is. -/
theorem floor_of_whole {x : Float}
    (h : (x.isNaN || x.isInf || (Dyadic.ofFloat x).isWhole) = true) : floor x = x := by
  unfold floor
  rw [if_pos h]

/-- A number with something behind the point has few digits before it. -/
theorem natAbs_floor_lt {b : Bool} {m : Nat} {e : Int} (hm : m < 2 ^ 53)
    (hwhole : ¬ (Dyadic.mk b m e).isWhole = true) : (Dyadic.mk b m e).floor.natAbs < 2 ^ 53 := by
  have he : e < 0 := by
    by_contra hc
    refine hwhole ?_
    unfold Dyadic.isWhole
    simp
    omega
  -- at least one digit is behind the point
  have hhalf : (Dyadic.mk b m e).magnitude ≤ m / 2 := by
    unfold Dyadic.magnitude
    dsimp only
    rw [if_neg (by omega)]
    refine Nat.div_le_div_left ?_ (by decide)
    exact Nat.pow_le_pow_right (by decide : 0 < 2) (by omega : 1 ≤ (-e).toNat)
  have hfloor : (Dyadic.mk b m e).floor.natAbs ≤ (Dyadic.mk b m e).magnitude + 1 := by
    unfold Dyadic.floor Dyadic.truncate Dyadic.signed
    split
    · omega
    · split <;> omega
  omega

/-- **What going down gives**: no number, or a whole one. -/
theorem floor_cases (x : Float) :
    parts (floor x) = .notANumber ∨ (∃ s, parts (floor x) = .infinity s) ∨
      (∃ s n, n < 2 ^ 53 ∧ parts (floor x) = wholeParts s n) ∨
      ∃ s m e hm, parts (floor x) = .finite s m e hm ∧ IsNormal m e ∧ 1 ≤ e := by
  cases hparts : parts x with
  | notANumber =>
    rw [floor_of_whole (by rw [isNaN_eq, hparts]; rfl)]
    exact Or.inl hparts
  | infinity s =>
    rw [floor_of_whole (by rw [isInf_eq, hparts]; simp [UnpackedFloat.isInf])]
    exact Or.inr (Or.inl ⟨s, hparts⟩)
  | zero s =>
    obtain ⟨hm, he⟩ := ofFloat_of_zero hparts
    have hwhole : (Dyadic.ofFloat x).isWhole = true := by
      unfold Dyadic.isWhole
      rw [hm, Nat.zero_mod]
      simp
    rw [floor_of_whole (by rw [hwhole, Bool.or_true])]
    exact Or.inr (Or.inr (Or.inl ⟨s, 0, by decide, hparts⟩))
  | finite s m e hm =>
    have hdyadic := ofFloat_of_finite hparts
    obtain ⟨-, hcase⟩ := parts_finite hparts
    by_cases hwhole : (Dyadic.ofFloat x).isWhole = true
    · rw [floor_of_whole (by rw [hwhole, Bool.or_true]), hparts]
      rw [hdyadic] at hwhole
      rcases hcase with ⟨-, -, rfl, hlt⟩ | ⟨-, -, -, hnormal⟩
      · -- a number without the hidden digit is below one
        exact absurd hwhole (not_isWhole_of_lt hm hlt (by decide) rfl)
      · by_cases he : 1 ≤ e
        · exact Or.inr (Or.inr (Or.inr ⟨s, m, e, hm, rfl, hnormal, he⟩))
        · obtain ⟨n, hn, hparts'⟩ := @wholeParts_of_isWhole s m e hm hnormal (by omega) hwhole
          exact Or.inr (Or.inr (Or.inl ⟨s, n, hn, hparts'⟩))
    · -- a number that is not whole goes down to an integer, which is small
      have hlt : m < 2 ^ 53 := by
        rcases hcase with ⟨-, -, -, hlt⟩ | ⟨-, -, -, hnormal⟩
        · omega
        · exact hnormal.mantissa_bounds.2
      have hbound : (Dyadic.ofFloat x).floor.natAbs < 2 ^ 53 := by
        rw [hdyadic] at hwhole ⊢
        exact natAbs_floor_lt hlt hwhole
      have hfloor : floor x = Float.ofInt (Dyadic.ofFloat x).floor := by
        unfold floor
        rw [isNaN_eq, isInf_eq, hparts, if_neg]
        simpa [UnpackedFloat.isNaN, UnpackedFloat.isInf] using hwhole
      rw [hfloor, parts_ofInt hbound]
      exact Or.inr (Or.inr (Or.inl ⟨_, _, hbound, rfl⟩))

end Number

/-! ### Snapping -/

theorem minValue_toInt : Int64.minValue.toInt = -2 ^ 63 := by decide

theorem maxValue_toInt : Int64.maxValue.toInt = 2 ^ 63 - 1 := by decide

/-- **A point of the grid stays where it is.** -/
theorem snapToGrid_point {z : Int} (h : (40 * z).natAbs < 2 ^ 53) :
    snapToGrid (Float.ofInt (40 * z)) = Int64.ofInt (40 * z) := by
  have hn : z.natAbs < 2 ^ 53 := by omega
  have hsign : signOfInt (40 * z) = signOfInt z := by
    unfold signOfInt
    congr 1
    exact propext (by omega)
  have habs : (40 * z).natAbs = 40 * z.natAbs := by omega
  have hforty : parts (Float.ofInt (40 * z)) = wholeParts (signOfInt z) (40 * z.natAbs) := by
    rw [parts_ofInt h, hsign, habs]
  have hdiv : parts (Float.ofInt (40 * z) / gridSize) = wholeParts (signOfInt z) z.natAbs := by
    rw [div_gridSize hforty (by omega), parts_ofParts_whole hn]
  -- adding a half and going down gives `z` again, so nothing is moved
  have hhalf : (2 * z + 1).natAbs < 2 ^ 53 := by omega
  have hadd : parts (Float.ofInt (40 * z) / gridSize + 0.5)
      = halfParts (2 * z + 1) (odd_ne_zero z) := by
    rw [add_half hdiv (by omega)]
    exact parts_ofParts (isNormal_half (odd_ne_zero z) hhalf)
  have hmul : parts (Float.ofInt z * gridSize)
      = wholeParts (signOfInt (40 * z)) (40 * z).natAbs := by
    rw [mul_gridSize (parts_ofInt hn) (by omega), parts_ofParts_whole (by omega), hsign, habs]
  unfold snapToGrid
  rw [floor_half hadd hhalf, minValue_toInt, maxValue_toInt,
    truncateWithin_whole hmul h (by omega) (by omega), signed_signOfInt]

/-- What is cut to 64 bits before it is snapped to the grid. -/
theorem truncateWithin_mul_gridSize (x : Float) {low high : Int} (hlow : low ≤ -2 ^ 53)
    (hhigh : 2 ^ 53 ≤ high)
    (h : (truncateWithin low high (Number.floor x * gridSize)).natAbs < 2 ^ 53) :
    ∃ z : Int, truncateWithin low high (Number.floor x * gridSize) = 40 * z := by
  -- a product with a positive exponent is too great for the hypothesis on the result
  have hgreat : ∀ {q : Nat} {e : Int} {hq : 0 < q} {s : Sign}, q.log2 = 52 → 1 ≤ e →
      Number.floor x * gridSize = ofParts (.finite s q e hq) → False := by
    intro q e hq s hdigits he hmul
    have hlarge := @truncateWithin_great s q e low high hq hdigits he hlow hhigh
    rw [← hmul] at hlarge
    omega
  rcases floor_cases x with hnan | ⟨s, hinf⟩ | ⟨s, n, hn, hwhole⟩ | ⟨s, m, e, hm, hfin, hnormal, he⟩
  · refine ⟨0, ?_⟩
    have hmul : Number.floor x * gridSize = ofParts .notANumber := by
      rw [mul_eq, hnan]
      rfl
    rw [hmul]
    rfl
  · exfalso
    have hmul : parts (Number.floor x * gridSize) = .infinity s := by
      rw [mul_eq, hinf, parts_gridSize]
      change parts (ofParts (.infinity (s * .positive))) = _
      rw [sign_mul_positive, parts_ofParts_infinity]
    have hlarge := truncateWithin_infinity hmul hlow hhigh
    omega
  · -- the product is exact as long as it fits into the mantissa
    by_cases hsmall : 40 * n < 2 ^ 53
    · refine ⟨signed s n, ?_⟩
      have hmul : parts (Number.floor x * gridSize) = wholeParts s (40 * n) := by
        rw [mul_gridSize hwhole hsmall, parts_ofParts_whole hsmall]
      rw [truncateWithin_whole hmul hsmall (by omega) (by omega)]
      unfold signed
      split <;> omega
    · exfalso
      have hn0 : n ≠ 0 := by omega
      have hlog := log2_lt_of_lt hn0 hn
      have hforty : 53 ≤ (40 * n).log2 := (Nat.le_log2 (by omega)).mpr (by omega)
      have hproduct : (digitsOf n * (40 * 2 ^ 47)).log2 = (40 * n).log2 + (52 - n.log2 + 47) := by
        rw [digitsOf_mul_forty, log2_mul_two_pow (by omega)]
      rw [wholeParts_of_ne hn0] at hwhole
      obtain ⟨q, e', hq, hdigits, he', hmul⟩ := mul_gridSize_great hwhole
        (by rw [hproduct]; unfold scaleOf; push_cast [hlog]; omega) (by omega)
      exact hgreat hdigits he' hmul
  · exfalso
    have hlog : 104 ≤ (m * (40 * 2 ^ 47)).log2 := by
      have hbound := hnormal.mantissa_bounds.1
      exact (Nat.le_log2 (by omega)).mpr (by omega)
    obtain ⟨q, e', hq, hdigits, he', hmul⟩ := mul_gridSize_great hfin (by omega) (by omega)
    exact hgreat hdigits he' hmul

/-- The integer that a coordinate is snapped to. -/
theorem toInt_snapToGrid (x : Float) :
    (snapToGrid x).toInt = truncateWithin (-2 ^ 63) (2 ^ 63 - 1)
      (Number.floor (x / gridSize + 0.5) * gridSize) := by
  have hbounds : ∀ y : Float, -2 ^ 63 ≤ truncateWithin (-2 ^ 63) (2 ^ 63 - 1) y ∧
      truncateWithin (-2 ^ 63) (2 ^ 63 - 1) y < 2 ^ 63 := by
    intro y
    unfold truncateWithin
    split
    · decide
    · split
      · split <;> decide
      · omega
  obtain ⟨hlow, hhigh⟩ := hbounds (Number.floor (x / gridSize + 0.5) * gridSize)
  unfold snapToGrid
  rw [minValue_toInt, maxValue_toInt]
  exact Int64.toInt_ofInt_of_le hlow hhigh

/-- **Every coordinate goes to a point of the grid**, if it goes to a number below `2 ^ 53`. -/
theorem point_of_snapToGrid {x : Float} (h : (snapToGrid x).toInt.natAbs < 2 ^ 53) :
    ∃ z : Int, (snapToGrid x).toInt = 40 * z := by
  rw [toInt_snapToGrid] at h ⊢
  exact truncateWithin_mul_gridSize _ (by decide) (by decide) h

/-- **Snapping once more changes nothing.** -/
theorem snapToGrid_snapToGrid {x : Float} (h : (snapToGrid x).toInt.natAbs < 2 ^ 53) :
    snapToGrid (Float.ofInt (snapToGrid x).toInt) = snapToGrid x := by
  obtain ⟨z, hz⟩ := point_of_snapToGrid h
  rw [hz] at h ⊢
  rw [snapToGrid_point h, ← hz, Int64.ofInt_toInt]

end Blockwork
