import Mathlib.Data.Int.ModEq
import ActionScript.Proofs.Rounding

/-! # Words of numbers

The conversions to integers of 32 bits go through a remainder among the numbers, an integer of 64
bits and its low 32. Of every finite number they keep the residue of its exact value without the
fraction (`Number.toInt32_iff`). -/

namespace ActionScript.Number

/-- A value without its fraction. -/
def truncated (q : ℚ) : Int := if 0 ≤ q then ⌊q⌋ else ⌈q⌉

variable {x : Number} {n : Int} {k : Nat}

theorem truncated_of_nonneg {q : ℚ} (hq : 0 ≤ q) : truncated q = ⌊q⌋ := if_pos hq

theorem truncated_neg {q : ℚ} (hq : 0 ≤ q) : truncated (-q) = -⌊q⌋ := by
  rw [truncated]
  split
  · have hzero : q = 0 := by linarith
    rw [hzero, neg_zero, Int.floor_zero, neg_zero]
  · exact Int.ceil_neg

theorem floor_units (u : Nat) : ⌊(u : ℚ) / unitsPerOne⌋ = (u / unitsPerOne : Nat) := by
  rw [← Int.natCast_floor_eq_floor (div_nonneg (Nat.cast_nonneg u) cast_unitsPerOne_pos.le),
    Nat.floor_div_eq_div]

theorem toInt_eq_truncated (x : Number) : x.toInt = truncated x.value := by
  have hnonneg : (0 : ℚ) ≤ x.magnitude / unitsPerOne :=
    div_nonneg (Nat.cast_nonneg _) cast_unitsPerOne_pos.le
  rw [value_eq]
  cases x with
  | nan | infinite => simp [toInt, magnitude, truncated]
  | finite negative m p h =>
    cases negative with
    | false =>
      rw [isNegative, if_neg Bool.false_ne_true, truncated_of_nonneg hnonneg, floor_units]
      rfl
    | true =>
      rw [isNegative, if_pos rfl, neg_div, truncated_neg hnonneg, floor_units]
      rfl

theorem toInt_of_not_isFinite (hx : x.isFinite = false) : x.toInt = 0 := by
  cases x with
  | nan | infinite => rfl
  | finite => cases hx

/-- The signed word is the one integer in its range that is congruent to the exact value without
the fraction, and so is the unsigned one; both are zero for what is not finite. -/
theorem toInt32_iff (x : Number) (n : Int) (k : Nat) :
    (x.toInt32 = n ↔ if x.isFinite then
        -2 ^ 31 ≤ n ∧ n < 2 ^ 31 ∧ n ≡ truncated x.value [ZMOD 2 ^ 32] else n = 0) ∧
      (x.toUInt32 = k ↔ if x.isFinite then
        k < 2 ^ 32 ∧ (k : Int) ≡ truncated x.value [ZMOD 2 ^ 32] else k = 0) := by
  rw [toInt32_eq, toUInt32_eq, ← toInt_eq_truncated]
  cases hx : x.isFinite with
  | false =>
    rw [toInt_of_not_isFinite hx, if_neg Bool.false_ne_true, if_neg Bool.false_ne_true]
    exact ⟨eq_comm, eq_comm⟩
  | true =>
    rw [if_pos rfl, if_pos rfl, Int.bmod_eq_iff (by decide)]
    constructor
    · have hcongr : ((0x100000000 : Nat) : Int) ∣ n - x.toInt ↔ n ≡ x.toInt [ZMOD 2 ^ 32] := by
        rw [Int.modEq_comm, Int.modEq_iff_dvd]
        rfl
      rw [hcongr]
      rfl
    · rw [Int.ModEq]
      omega

end ActionScript.Number
