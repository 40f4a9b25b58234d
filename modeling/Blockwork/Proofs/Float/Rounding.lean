import Mathlib
import Blockwork.Proofs.Float.Parts

/-!
# Rounding of exact and of great results

An operation on floats computes an exact mantissa and exponent and rounds them to 53 digits. Two
facts about that rounding are enough for everything the program computes:

* a result that has at most 53 digits is kept (`roundWithAccuracy_exact`, `round_exact`);
* a result with more digits keeps its order of magnitude (`roundWithAccuracy_great`).

The digits of a number below `2 ^ 53` are moved up to the 53 of a float by `digitsOf`; the exponent
that makes up for it is `scaleOf`.
-/

namespace Blockwork.Number

open Float.Model Float.Model.UnpackedFloat

/-- The mantissa of the float of a number: its digits, moved up to 53 places. -/
def digitsOf (n : Nat) : Nat :=
  n * 2 ^ (52 - n.log2)

/-- The exponent of the float of a number. -/
def scaleOf (n : Nat) : Int :=
  (n.log2 : Int) - 52

theorem log2_lt_of_lt {n : Nat} (hn : n ≠ 0) (h : n < 2 ^ 53) : n.log2 ≤ 52 := by
  have h1 := (Nat.log2_lt hn).mpr h
  omega

theorem log2_mul_two_pow {n : Nat} (hn : n ≠ 0) (k : Nat) :
    (n * 2 ^ k).log2 = n.log2 + k := by
  have hlow := Nat.log2_self_le hn
  have hhigh := Nat.lt_log2_self (n := n)
  have hpos : 0 < n * 2 ^ k := Nat.mul_pos (Nat.pos_of_ne_zero hn) (by positivity)
  rw [Nat.log2_eq_iff hpos.ne']
  constructor
  · rw [Nat.pow_add]
    exact Nat.mul_le_mul_right _ hlow
  · rw [show n.log2 + k + 1 = (n.log2 + 1) + k by omega, Nat.pow_add]
    exact Nat.mul_lt_mul_of_pos_right hhigh (by positivity)

theorem log2_digitsOf {n : Nat} (hn : n ≠ 0) (h : n < 2 ^ 53) : (digitsOf n).log2 = 52 := by
  have hl := log2_lt_of_lt hn h
  unfold digitsOf
  rw [log2_mul_two_pow hn]
  omega

theorem digitsOf_pos {n : Nat} (hn : n ≠ 0) : 0 < digitsOf n :=
  Nat.mul_pos (Nat.pos_of_ne_zero hn) (by positivity)

/-- A number below `2 ^ 53`, scaled by a power of two that floats have, is normal. -/
theorem isNormal_digitsOf {n : Nat} {k : Int} (hn : n ≠ 0) (h : n < 2 ^ 53)
    (hlow : -1074 ≤ scaleOf n + k) (hhigh : scaleOf n + k ≤ 971) :
    IsNormal (digitsOf n) (scaleOf n + k) :=
  ⟨log2_digitsOf hn h, hlow, hhigh⟩

/-! ### Shifting -/

theorem shiftRight_succ (em : ExtendedMantissa) (k : Nat) :
    em >>> (k + 1) = (em >>> k).shiftRightOne :=
  rfl

theorem mantissa_shiftRight (em : ExtendedMantissa) (k : Nat) :
    (em >>> k).mantissa = em.mantissa / 2 ^ k := by
  induction k with
  | zero =>
    change em.mantissa = _
    simp
  | succ k ih =>
    rw [shiftRight_succ]
    change (em >>> k).mantissa / 2 = _
    rw [ih, Nat.div_div_eq_div_mul, Nat.pow_succ]

/-- Zeros can be shifted out without a trace. -/
theorem shiftRight_zeros (q k : Nat) :
    (⟨q * 2 ^ k, false, false⟩ : ExtendedMantissa) >>> k = ⟨q, false, false⟩ := by
  induction k generalizing q with
  | zero =>
    rw [Nat.pow_zero, Nat.mul_one]
    rfl
  | succ k ih =>
    rw [shiftRight_succ, show q * 2 ^ (k + 1) = (q * 2) * 2 ^ k by rw [Nat.pow_succ]; ring, ih]
    simp [ExtendedMantissa.shiftRightOne]

/-- Rounding moves a mantissa up by at most one. -/
theorem roundedMantissa_bounds (em : ExtendedMantissa) :
    em.mantissa ≤ em.roundedMantissa ∧ em.roundedMantissa ≤ em.mantissa + 1 := by
  obtain ⟨m, r, s⟩ := em
  cases r <;> cases s <;>
    simp [ExtendedMantissa.roundedMantissa, ExtendedMantissa.accuracy,
      Accuracy.roundToNearestEven]
  omega

/-- The exponent that a number of a given size gets. -/
theorem targetExponent_eq (m : Nat) (e : Int) :
    Format.binary64.targetExponent (totalExponent m e) = max ((m.log2 : Int) + e - 52) (-1074) := by
  simp only [Format.targetExponent, totalExponent, Format.mantissaBits, Format.minExponent]
  norm_num
  omega

/-- A number of 53 digits stays as it is. -/
theorem shiftToTargetExponent_normal {m : Nat} {e : Int} (hm : m.log2 = 52) (he : -1074 ≤ e) :
    shiftToTargetExponent Format.binary64 m e .exact = (⟨m, false, false⟩, e) := by
  have ht : Format.binary64.targetExponent (totalExponent m e) = e := by
    rw [targetExponent_eq, hm]
    omega
  unfold shiftToTargetExponent
  rw [ht]
  simp only [shiftToExponent, sub_self, Int.toNat_zero]
  change ((⟨m, false, false⟩ : ExtendedMantissa), e + 0) = _
  rw [add_zero]

/-- A number of 53 digits, followed by zeros, loses the zeros. -/
theorem shiftToTargetExponent_zeros {q k : Nat} {e : Int} (hq : q.log2 = 52)
    (he : -1074 ≤ e + k) :
    shiftToTargetExponent Format.binary64 (q * 2 ^ k) e .exact = (⟨q, false, false⟩, e + k) := by
  have hq0 : q ≠ 0 := by
    rintro rfl
    simp at hq
  have ht : Format.binary64.targetExponent (totalExponent (q * 2 ^ k) e) = e + k := by
    rw [targetExponent_eq, log2_mul_two_pow hq0, hq]
    push_cast
    omega
  unfold shiftToTargetExponent
  rw [ht]
  simp only [shiftToExponent, add_sub_cancel_left, Int.toNat_natCast]
  rw [show ExtendedMantissa.ofMantissaAndAccuracy (q * 2 ^ k) .exact
    = ⟨q * 2 ^ k, false, false⟩ from rfl, shiftRight_zeros]

/-! ### Results that are kept -/

theorem roundWithAccuracy_zeros {s : Sign} {q k : Nat} {e : Int} (hq0 : 0 < q)
    (hq : q.log2 = 52) (he : -1074 ≤ e + k) :
    roundWithAccuracy Format.binary64 s (q * 2 ^ k) e .exact = .finite s q (e + k) hq0 := by
  unfold roundWithAccuracy
  rw [shiftToTargetExponent_zeros hq he]
  dsimp only
  rw [show ExtendedMantissa.roundedMantissa ⟨q, false, false⟩ = q from rfl,
    shiftToTargetExponent_normal hq he]
  dsimp only
  rw [dif_neg hq0.ne']

/-- **A result of at most 53 digits is kept**, when at least 53 digits have been computed. -/
theorem roundWithAccuracy_exact {s : Sign} {n m k : Nat} {e : Int} (hn : n ≠ 0)
    (hlt : n < 2 ^ 53) (hm : m = n * 2 ^ k) (hlog : 52 ≤ n.log2 + k)
    (he : -1074 ≤ scaleOf n + (k + e)) :
    roundWithAccuracy Format.binary64 s m e .exact
      = .finite s (digitsOf n) (scaleOf n + (k + e)) (digitsOf_pos hn) := by
  have hl := log2_lt_of_lt hn hlt
  obtain ⟨j, hj⟩ : ∃ j, n.log2 + k = 52 + j := ⟨n.log2 + k - 52, by omega⟩
  have hmq : m = digitsOf n * 2 ^ j := by
    rw [hm, digitsOf, mul_assoc, ← Nat.pow_add]
    congr 2
    omega
  unfold scaleOf at he ⊢
  rw [hmq, roundWithAccuracy_zeros (digitsOf_pos hn) (log2_digitsOf hn hlt) (by omega)]
  exact finite_congr rfl (by omega)

/-- **A result of at most 53 digits is kept**, however it is written. -/
theorem round_exact {s : Sign} {n m k : Nat} {e : Int} (hn : n ≠ 0) (hlt : n < 2 ^ 53)
    (hm : m = n * 2 ^ k) (he : -1074 ≤ scaleOf n + (k + e)) :
    UnpackedFloat.round Format.binary64 s m e
      = .finite s (digitsOf n) (scaleOf n + (k + e)) (digitsOf_pos hn) := by
  have hl := log2_lt_of_lt hn hlt
  have hlog : m.log2 = n.log2 + k := by rw [hm, log2_mul_two_pow hn]
  unfold scaleOf at he
  unfold UnpackedFloat.round
  rw [targetExponent_eq, hlog]
  simp only [decreaseExponent]
  -- nothing is moved if enough digits are there already
  obtain ⟨j, hj⟩ : ∃ j : Nat,
      (e - max (((n.log2 + k : Nat) : Int) + e - 52) (-1074)).toNat = j := ⟨_, rfl⟩
  rw [hj, Nat.shiftLeft_eq, hm, mul_assoc, ← Nat.pow_add,
    roundWithAccuracy_exact hn hlt rfl (by omega) (by unfold scaleOf; push_cast; omega)]
  exact finite_congr rfl (by push_cast; omega)

/-! ### Results that are great -/

/-- **A result of more digits keeps its order of magnitude.** -/
theorem roundWithAccuracy_great {s : Sign} {m : Nat} {e : Int} {a : Accuracy}
    (hlog : 52 ≤ m.log2) (he : -1074 ≤ (m.log2 : Int) + e - 52) :
    ∃ (q : Nat) (e' : Int) (hq : 0 < q), q.log2 = 52 ∧ (m.log2 : Int) + e - 52 ≤ e' ∧
      e' ≤ (m.log2 : Int) + e - 51 ∧
      roundWithAccuracy Format.binary64 s m e a = .finite s q e' hq := by
  have hm0 : m ≠ 0 := by
    rintro rfl
    simp at hlog
  obtain ⟨k, hk⟩ : ∃ k, m.log2 = 52 + k := ⟨m.log2 - 52, by omega⟩
  -- the first shift leaves 53 digits, and rounding can only add a carry to them
  have hfirst : shiftToTargetExponent Format.binary64 m e a
      = (ExtendedMantissa.ofMantissaAndAccuracy m a >>> k, e + k) := by
    unfold shiftToTargetExponent
    rw [targetExponent_eq, hk, show max (((52 + k : Nat) : Int) + e - 52) (-1074) = e + k by
      push_cast; omega]
    simp only [shiftToExponent, add_sub_cancel_left, Int.toNat_natCast]
  have hmant : (ExtendedMantissa.ofMantissaAndAccuracy m a >>> k).mantissa = m / 2 ^ k := by
    rw [mantissa_shiftRight]
    cases a with
    | exact => rfl
    | inexact o => cases o <;> rfl
  have hlow : 2 ^ 52 ≤ m / 2 ^ k := by
    rw [Nat.le_div_iff_mul_le (by positivity), ← Nat.pow_add, ← hk]
    exact Nat.log2_self_le hm0
  have hhigh : m / 2 ^ k < 2 ^ 53 := by
    rw [Nat.div_lt_iff_lt_mul (by positivity), ← Nat.pow_add]
    have h := Nat.lt_log2_self (n := m)
    rwa [hk, show 52 + k + 1 = 53 + k by omega] at h
  obtain ⟨hr1, hr2⟩ := roundedMantissa_bounds (ExtendedMantissa.ofMantissaAndAccuracy m a >>> k)
  rw [hmant] at hr1 hr2
  unfold roundWithAccuracy
  rw [hfirst]
  dsimp only
  generalize (ExtendedMantissa.ofMantissaAndAccuracy m a >>> k).roundedMantissa = r at hr1 hr2
  rcases Nat.lt_or_ge r (2 ^ 53) with hr | hr
  · have hrlog : r.log2 = 52 := by
      rw [Nat.log2_eq_iff (by omega)]
      omega
    rw [shiftToTargetExponent_normal hrlog (by omega)]
    dsimp only
    rw [dif_neg (by omega)]
    exact ⟨r, e + k, by omega, hrlog, by omega, by omega, rfl⟩
  · -- the carry makes a digit more, which is a zero at the end
    obtain rfl : r = 2 ^ 52 * 2 ^ 1 := by omega
    rw [shiftToTargetExponent_zeros (by decide) (by push_cast; omega)]
    dsimp only
    rw [dif_neg (by decide)]
    exact ⟨2 ^ 52, _, by decide, by decide, by push_cast; omega, by push_cast; omega, rfl⟩

end Blockwork.Number
