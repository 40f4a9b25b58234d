import Mathlib
import Blockwork.Proofs.Float.Whole
import Blockwork.Workspace.Report

/-!
# The loop counter

A program counts the turns of its loops in a float. The counter is exact up to `2 ^ 53`
(`counter_eq`) and stays there (`counter_great`), so that it is compared rightly with the limit of
the guard however many turns there were (`compares_counter`). The counter of a `for` loop never gets
that far, and is compared rightly with every count that a block can have (`compares_index`).
-/

namespace Blockwork.Run

open Fragment (guardLimit guardVariable)

/-- The float that has been counted up `n` times from zero. -/
def counter : Nat → Float
  | 0 => Float.ofNat 0
  | n + 1 => counter n + 1

/-- The last number up to which all whole numbers are floats. -/
def exactLimit : Nat := 2 ^ 53

/-- The float of `exactLimit`. -/
def lastCount : Float := Float.ofBits 0x4340000000000000

/-- **The counter is exact** as long as all whole numbers are floats. -/
theorem counter_eq {n : Nat} (h : n < exactLimit) : counter n = Float.ofNat n := by
  induction n with
  | zero => rfl
  | succ n ih =>
    rw [counter, ih (by omega), Number.ofNat_add_one h]

/-- **The counter stays** at the limit. -/
theorem counter_great {n : Nat} (h : exactLimit ≤ n) : counter n = lastCount := by
  induction n with
  | zero => exact absurd h (by decide)
  | succ n ih =>
    rw [counter]
    rcases Nat.lt_or_ge n exactLimit with hn | hn
    · have hlast : n = 9007199254740991 := by
        unfold exactLimit at h hn
        omega
      rw [counter_eq hn, hlast]
      decide +kernel
    · rw [ih hn]
      decide +kernel

/-! ### Comparing -/

theorem isLT_order (x y : Float) :
    (Value.number x).compares (.number y) Ordering.isLT = .bool (decide (x < y)) := by
  unfold Value.compares Value.order?
  dsimp only [Value.toNumber]
  by_cases h : x < y
  · simp [h]
  · by_cases he : (x == y) = true
    · simp [h, he]
    · by_cases hg : y < x
      · simp [h, he, hg]
      · simp [h, he, hg]

theorem isGT_order {x y : Float} (h₁ : y < x → ¬ x < y) (h₂ : y < x → (x == y) = false) :
    (Value.number x).compares (.number y) Ordering.isGT = .bool (decide (y < x)) := by
  unfold Value.compares Value.order?
  dsimp only [Value.toNumber]
  by_cases hg : y < x
  · simp [hg, h₁ hg, h₂ hg]
  · by_cases h : x < y
    · simp [h, hg]
    · by_cases he : (x == y) = true
      · simp [h, hg, he]
      · simp [h, hg, he]

/-- **The guard compares rightly.** -/
theorem compares_counter (n : Nat) :
    (Value.number (counter n)).compares (.number (Float.ofNat guardLimit)) Ordering.isGT
      = .bool (decide (guardLimit < n)) := by
  rcases Nat.lt_or_ge n exactLimit with h | h
  · have hlimit : guardLimit < 2 ^ 53 := by decide
    rw [counter_eq h, isGT_order]
    · rw [decide_eq_decide.mpr (Number.ofNat_lt_ofNat hlimit h)]
    · rw [Number.ofNat_lt_ofNat hlimit h, Number.ofNat_lt_ofNat h hlimit]
      omega
    · rw [Number.ofNat_lt_ofNat hlimit h, Number.ofNat_beq_ofNat h hlimit, beq_eq_false_iff_ne]
      omega
  · have hn : guardLimit < n := Nat.lt_of_lt_of_le (by decide) h
    rw [counter_great h, decide_eq_true hn]
    decide +kernel

/-- The value of a count. -/
def countValue : Int → Float
  | .ofNat n => Float.ofNat n
  | .negSucc n => -Float.ofNat (n + 1)

/-- **A loop compares its index rightly** with its count. -/
theorem compares_index {k : Nat} {n : Int} (hk : k < exactLimit) (hn : n.natAbs < 2 ^ 64) :
    (Value.number (Float.ofNat k)).compares (.number (countValue n)) Ordering.isLT
      = .bool (decide (k < n.toNat)) := by
  rw [isLT_order]
  cases n with
  | ofNat n =>
    exact congrArg Value.bool (decide_eq_decide.mpr (Number.ofNat_lt_iff hk hn))
  | negSucc n =>
    have hneg := Number.not_ofNat_lt_neg (n := n + 1) hk hn
    exact congrArg Value.bool (decide_eq_decide.mpr (iff_of_false hneg (Nat.not_lt_zero k)))

/-- **The counter is read back**, as long as it is exact. -/
theorem countedTurns_counter (n : Nat) (inner : List Scope) :
    countedTurns ⟨inner, [(guardVariable, .number (counter n))]⟩ = min n exactLimit := by
  have hget : Scope.get? [(guardVariable, .number (counter n))] guardVariable
      = some (.number (counter n)) := by
    unfold Scope.get?
    rw [List.lookup_cons_self]
  unfold countedTurns
  rw [hget]
  dsimp only
  -- below the limit the counter is the float of its number; from there on it stays where it is
  rcases Nat.lt_or_ge n exactLimit with h | h
  · have hpositive : (0 : Float) < counter n ↔ 0 < n := by
      rw [counter_eq h]
      exact Number.ofNat_lt_ofNat (by decide) h
    rw [Nat.min_eq_left h.le]
    by_cases hn : 0 < n
    · have hsize : (n : Int) ≤ UInt64.size - 1 := by
        have : n < 2 ^ 53 := h
        simp only [UInt64.size]
        omega
      rw [if_pos (hpositive.mpr hn), counter_eq h, Number.truncateWithin_ofNat h hsize,
        Int.toNat_natCast]
    · rw [if_neg (fun hc => hn (hpositive.mp hc))]
      omega
  · rw [counter_great h, Nat.min_eq_right h]
    decide +kernel

end Blockwork.Run
