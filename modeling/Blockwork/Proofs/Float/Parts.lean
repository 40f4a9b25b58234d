import Mathlib
import Blockwork.Decimal.Dyadic

/-!
# What a float is made of

Core gives a float a logical model: its 64 bits stand for a sign, a mantissa and an exponent
(`UnpackedFloat`), operations are defined on these, and a result is packed into bits again. This
module says what unpacking and packing do to the floats that the program computes with:

* `parts` — the float unpacked, and `parts_cases`, which reads it off the bits as numbers;
* `parts_ofParts` — packing loses nothing of a normal number;
* `ofFloat_of_finite`, `ofFloat_of_zero` — the dyadic number of a float has the same parts.
-/

namespace Blockwork.Number

open Float.Model Float.Model.UnpackedFloat

/-- The sign, mantissa and exponent of a float. -/
def parts (x : Float) : UnpackedFloat :=
  x.toModel.unpack

/-- The float with the given parts, if it has a float with them. -/
def ofParts (u : UnpackedFloat) : Float :=
  .ofModel (.pack u)

/-- Whether a sign is the one of negative numbers. -/
def isNegative : Sign → Bool
  | .negative => true
  | .positive => false

/-- A mantissa with all its 53 digits, and an exponent that floats have. -/
structure IsNormal (mantissa : Nat) (exponent : Int) : Prop where
  digits : mantissa.log2 = 52
  low : -1074 ≤ exponent
  high : exponent ≤ 971

theorem IsNormal.mantissa_pos {m : Nat} {e : Int} (h : IsNormal m e) : 0 < m := by
  have hd := h.digits
  rcases Nat.eq_zero_or_pos m with rfl | hm
  · simp at hd
  · exact hm

/-- A mantissa with 53 digits is `2 ^ 52` and a fraction. -/
theorem IsNormal.mantissa_bounds {m : Nat} {e : Int} (h : IsNormal m e) :
    2 ^ 52 ≤ m ∧ m < 2 ^ 53 := by
  have hm := h.mantissa_pos.ne'
  have hlow := Nat.log2_self_le hm
  have hhigh := Nat.lt_log2_self (n := m)
  rw [h.digits] at hlow hhigh
  exact ⟨hlow, hhigh⟩

/-- Numbers of one sign, mantissa and exponent are equal. -/
theorem finite_congr {s : Sign} {m m' : Nat} {e e' : Int} {hm : 0 < m} {hm' : 0 < m'}
    (h₁ : m = m') (h₂ : e = e') :
    (UnpackedFloat.finite s m e hm) = .finite s m' e' hm' := by
  subst h₁
  subst h₂
  rfl

/-! ### Bits as numbers -/

section Bits

variable (b : BitVec Format.binary64.numBits)

theorem toNat_unpackMantissa : (unpackMantissa b).toNat = b.toNat % 2 ^ 52 := by
  simp [unpackMantissa, BitVec.extractLsb, BitVec.extractLsb']

theorem toNat_unpackExponent : (unpackExponent b).toNat = b.toNat / 2 ^ 52 % 2 ^ 11 := by
  simp [unpackExponent, BitVec.extractLsb, BitVec.extractLsb', Nat.shiftRight_eq_div_pow]

theorem toNat_unpackSign : (unpackSign b).toNat = b.toNat / 2 ^ 63 := by
  have hb := b.isLt
  simp only [Format.numBits, Format.binary64] at hb
  simp [unpackSign, BitVec.extractLsb, BitVec.extractLsb', Nat.shiftRight_eq_div_pow]
  omega

end Bits

theorem toNat_packComponents (s : Sign) (e : BitVec 11) (m : BitVec 52) :
    (packComponents Format.binary64 s e m).toNat
      = (if isNegative s then 2 ^ 63 else 0) + e.toNat * 2 ^ 52 + m.toNat := by
  have he := e.isLt
  have hm := m.isLt
  have happ : ∀ {v w : Nat} (x : BitVec v) (y : BitVec w),
      (x ++ y).toNat = x.toNat * 2 ^ w + y.toNat := by
    intro v w x y
    rw [BitVec.toNat_append, ← Nat.shiftLeft_add_eq_or_of_lt y.isLt, Nat.shiftLeft_eq]
  simp only [packComponents, Format.binary64, happ]
  cases s <;> simp [Sign.toBitVec, isNegative]
  omega

/-- The number that the bits of a float are. -/
def bits (x : Float) : Nat :=
  x.toBits.toNat

theorem bits_lt (x : Float) : bits x < 2 ^ 64 :=
  x.toBits.toNat_lt

/-- The exponent field of a float. -/
def field (x : Float) : Nat :=
  bits x / 2 ^ 52 % 2 ^ 11

/-- The digits of the mantissa that a float keeps. -/
def fraction (x : Float) : Nat :=
  bits x % 2 ^ 52

/-- The sign of a float. -/
def signOf (x : Float) : Sign :=
  if bits x / 2 ^ 63 = 0 then .positive else .negative

theorem isNegative_signOf (x : Float) : isNegative (signOf x) = (bits x / 2 ^ 63 == 1) := by
  have hx := bits_lt x
  unfold signOf
  split
  · next h =>
    rw [h]
    rfl
  · next h =>
    have h1 : bits x / 2 ^ 63 = 1 := by omega
    rw [h1]
    rfl

theorem field_lt (x : Float) : field x < 2 ^ 11 :=
  Nat.mod_lt _ (by decide)

theorem fraction_lt (x : Float) : fraction x < 2 ^ 52 :=
  Nat.mod_lt _ (by decide)

/-- **Unpacking, in numbers.** The field with all bits set is for the infinities and for "not a
number", and the field zero for numbers without the hidden digit. -/
theorem parts_eq (x : Float) :
    parts x =
      if field x = 2047 then
        if fraction x = 0 then .infinity (signOf x) else .notANumber
      else if field x = 0 then
        if h : fraction x = 0 then .zero (signOf x)
        else .finite (signOf x) (fraction x) (-1074) (Nat.pos_of_ne_zero h)
      else .finite (signOf x) (2 ^ 52 + fraction x) ((field x : Int) - 1075) (by omega) := by
  -- the model compares fields of bits; here each is said as a number
  set b : BitVec Format.binary64.numBits := x.toModel.toBits.toBitVec with hb
  have hbits : b.toNat = bits x := rfl
  have hm : (unpackMantissa b).toNat = fraction x := toNat_unpackMantissa b
  have he : (unpackExponent b).toNat = field x := toNat_unpackExponent b
  have hs : Sign.ofBitVec (unpackSign b) = signOf x := by
    have h := toNat_unpackSign b
    rw [hbits] at h
    unfold Sign.ofBitVec signOf
    rw [← h]
    congr 1
    rw [← BitVec.toNat_inj]
    simp
  have hones : unpackExponent b = -1#_ ↔ field x = 2047 := by
    rw [← BitVec.toNat_inj, he]
    simp [BitVec.neg_one_eq_allOnes]
  have hzero : unpackExponent b = 0#_ ↔ field x = 0 := by
    rw [← BitVec.toNat_inj, he]
    simp
  have hfrac : unpackMantissa b = 0#_ ↔ fraction x = 0 := by
    rw [← BitVec.toNat_inj, hm]
    simp
  have happ : (1#1 ++ unpackMantissa b).toNat = 2 ^ 52 + fraction x := by
    rw [BitVec.toNat_append, ← Nat.shiftLeft_add_eq_or_of_lt (unpackMantissa b).isLt, hm,
      Nat.shiftLeft_eq]
    simp
  change UnpackedFloat.unpack Format.binary64 b = _
  unfold UnpackedFloat.unpack
  simp only [hones, hzero, hfrac, hs, hm, he, happ, Format.exponentBias]
  split
  · rfl
  · split
    · split
      · rfl
      · congr 1
        omega
    · congr 1

/-- The parts of a float that is a number other than zero. -/
theorem parts_finite {x : Float} {s : Sign} {m : Nat} {e : Int} {hm : 0 < m}
    (h : parts x = .finite s m e hm) :
    s = signOf x ∧
      ((field x = 0 ∧ m = fraction x ∧ e = -1074 ∧ m < 2 ^ 52) ∨
        (field x ≠ 0 ∧ m = 2 ^ 52 + fraction x ∧ e = (field x : Int) - 1075 ∧ IsNormal m e)) := by
  have hf := fraction_lt x
  have hlt := field_lt x
  rw [parts_eq] at h
  split at h
  · split at h <;> cases h
  · next hones =>
    split at h
    · next hzero =>
      split at h
      · cases h
      · cases h
        exact ⟨rfl, Or.inl ⟨hzero, rfl, rfl, hf⟩⟩
    · next hzero =>
      cases h
      -- the hidden digit makes 53 digits
      refine ⟨rfl, Or.inr ⟨hzero, rfl, rfl, ?_, by omega, by omega⟩⟩
      rw [Nat.log2_eq_iff (by omega)]
      omega

/-! ### The dyadic number of a float -/

/-- The dyadic number of a float other than zero has the parts of the float. -/
theorem ofFloat_of_finite {x : Float} {s : Sign} {m : Nat} {e : Int} {hm : 0 < m}
    (h : parts x = .finite s m e hm) : Dyadic.ofFloat x = ⟨isNegative s, m, e⟩ := by
  obtain ⟨rfl, hcase⟩ := parts_finite h
  rw [isNegative_signOf]
  have hfield : x.toBits.toNat / Nat.pow 2 52 % Nat.pow 2 11 = field x := rfl
  have hfraction : x.toBits.toNat % Nat.pow 2 52 = fraction x := rfl
  unfold Dyadic.ofFloat
  simp only [hfield, hfraction]
  rcases hcase with ⟨hz, rfl, rfl, -⟩ | ⟨hz, rfl, rfl, -⟩
  · rw [if_pos hz, if_pos hz]
    rfl
  · rw [if_neg hz, if_neg hz]
    rfl

/-- The dyadic number of a zero. -/
theorem ofFloat_of_zero {x : Float} {s : Sign} (h : parts x = .zero s) :
    (Dyadic.ofFloat x).mantissa = 0 ∧ (Dyadic.ofFloat x).exponent = -1074 := by
  rw [parts_eq] at h
  split at h
  · split at h <;> cases h
  · split at h
    · next hzero =>
      split at h
      · next hfrac =>
        have hfield : x.toBits.toNat / Nat.pow 2 52 % Nat.pow 2 11 = 0 := hzero
        have hfraction : x.toBits.toNat % Nat.pow 2 52 = 0 := hfrac
        unfold Dyadic.ofFloat
        simp only [hfield, hfraction]
        exact ⟨rfl, rfl⟩
      · cases h
    · cases h

/-! ### Packing -/

theorem bits_ofParts_finite {s : Sign} {m : Nat} {e : Int} {hm : 0 < m} (h : IsNormal m e) :
    bits (ofParts (.finite s m e hm))
      = (if isNegative s then 2 ^ 63 else 0) + (e + 1075).toNat * 2 ^ 52 + (m - 2 ^ 52) := by
  obtain ⟨hlow, hhigh⟩ := h.mantissa_bounds
  have hd := h.digits
  have h1 := h.low
  have h2 := h.high
  change (UnpackedFloat.pack Format.binary64 (.finite s m e hm)).toNat = _
  unfold UnpackedFloat.pack
  simp only [Format.exponentBias, Format.mantissaBits, hd]
  rw [if_neg (by omega), if_pos trivial, toNat_packComponents, BitVec.toNat_ofNat,
    BitVec.toNat_ofNat]
  have he : (e + ((2 ^ (11 - 1) - 1 : Nat) : Int) + ((52 : Nat) : Int)).toNat % 2 ^ 11
      = (e + 1075).toNat := by
    omega
  have hm' : m % 2 ^ 52 = m - 2 ^ 52 := by
    omega
  rw [he, hm']

/-- **Packing keeps normal numbers.** -/
theorem parts_ofParts {s : Sign} {m : Nat} {e : Int} {hm : 0 < m} (h : IsNormal m e) :
    parts (ofParts (.finite s m e hm)) = .finite s m e hm := by
  obtain ⟨hlow, hhigh⟩ := h.mantissa_bounds
  have h1 := h.low
  have h2 := h.high
  have hbits := @bits_ofParts_finite s m e hm h
  -- the three fields are read back from the bits one by one
  have hfield : field (ofParts (.finite s m e hm)) = (e + 1075).toNat := by
    unfold field
    rw [hbits]
    split <;> omega
  have hfraction : fraction (ofParts (.finite s m e hm)) = m - 2 ^ 52 := by
    unfold fraction
    rw [hbits]
    split <;> omega
  have hsign : signOf (ofParts (.finite s m e hm)) = s := by
    unfold signOf
    rw [hbits]
    cases s <;> simp [isNegative] <;> omega
  rw [parts_eq, if_neg (by omega), if_neg (by omega)]
  simp only [hsign, hfraction, hfield]
  exact finite_congr (by omega) (by omega)

theorem parts_ofParts_zero (s : Sign) : parts (ofParts (.zero s)) = .zero s := by
  cases s <;> rfl

end Blockwork.Number
