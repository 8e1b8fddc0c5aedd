import ActionScript.Number.Decimal
import ActionScript.Proofs.Rounding

/-! # Decimals and the numbers that they are read as

A decimal is read as the number nearest to its value (`Decimal.toNumber_eq_nearest`). Factors ten
of the coefficient do not count (`Decimal.toNumber_strip`), and without them the value has one
decimal (`Decimal.eq_of_value_eq`). -/

namespace ActionScript

namespace Decimal

variable {d d' : Decimal} {c n : Nat} {e k : Int}

/-- The exact value. -/
def value (d : Decimal) : ℚ := d.coefficient * 10 ^ d.exponent

theorem ten_zpow_pos (k : Int) : (0 : ℚ) < 10 ^ k := zpow_pos (by norm_num) k

theorem value_nonneg (d : Decimal) : 0 ≤ d.value :=
  mul_nonneg (Nat.cast_nonneg _) (ten_zpow_pos _).le

theorem zpow_toNat (hk : 0 ≤ k) : (10 : ℚ) ^ k = 10 ^ k.toNat := by
  rw [← zpow_natCast, Int.toNat_of_nonneg hk]

theorem zpow_neg_toNat (hk : k ≤ 0) : (10 : ℚ) ^ k = (10 ^ (-k).toNat)⁻¹ := by
  rw [← zpow_natCast, Int.toNat_of_nonneg (by omega), zpow_neg, inv_inv]

/-! ## Digits -/

theorem length_digits_pos (d : Decimal) : 0 < d.digits.length := Nat.length_toDigits_pos

theorem length_digits_le_iff (hn : 0 < n) : d.digits.length ≤ n ↔ d.coefficient < 10 ^ n :=
  Nat.length_toDigits_le_iff (by decide) hn

theorem coefficient_lt (d : Decimal) : d.coefficient < 10 ^ d.digits.length :=
  (length_digits_le_iff d.length_digits_pos).mp le_rfl

theorem le_coefficient (hd : d.coefficient ≠ 0) : 10 ^ (d.digits.length - 1) ≤ d.coefficient := by
  rcases Nat.eq_zero_or_pos (d.digits.length - 1) with hzero | hpos
  · rw [hzero]
    omega
  · by_contra hlt
    have := (length_digits_le_iff hpos).mpr (Nat.not_le.mp hlt)
    omega

theorem exists_length_toDigits (hn : n ≠ 0) :
    ∃ l, (Nat.toDigits 10 n).length = l + 1 ∧ 10 ^ l ≤ n ∧ n < 10 ^ (l + 1) := by
  have hpos : 0 < (Nat.toDigits 10 n).length := Nat.length_toDigits_pos
  exact ⟨(Nat.toDigits 10 n).length - 1, by omega, le_coefficient (d := ⟨n, 0⟩) hn,
    (Nat.length_toDigits_le_iff (by decide) (by omega)).mp (by omega)⟩

/-- The value lies between the power of ten of the first digit and the next one. -/
theorem zpow_leading_le (hd : d.coefficient ≠ 0) : (10 : ℚ) ^ d.leading ≤ d.value := by
  have hle : (10 : ℚ) ^ (d.digits.length - 1) ≤ d.coefficient := by exact_mod_cast le_coefficient hd
  have hexp : d.leading = (d.digits.length - 1 : Nat) + d.exponent := by
    have := d.length_digits_pos
    rw [leading]
    omega
  rw [hexp, zpow_add₀ (by norm_num), zpow_natCast]
  exact mul_le_mul_of_nonneg_right hle (ten_zpow_pos _).le

theorem lt_zpow_leading (d : Decimal) : d.value < 10 ^ (d.leading + 1) := by
  have hlt : (d.coefficient : ℚ) < 10 ^ d.digits.length := by exact_mod_cast d.coefficient_lt
  have hexp : d.leading + 1 = (d.digits.length : Nat) + d.exponent := by
    rw [leading]
    omega
  rw [hexp, zpow_add₀ (by norm_num), zpow_natCast]
  exact mul_lt_mul_of_pos_right hlt (ten_zpow_pos _)

/-! ## Reading -/

theorem eight_pow_le (n : Nat) : (2 : ℚ) ^ (3 * n) ≤ 10 ^ n := by
  rw [pow_mul]
  exact pow_le_pow_left₀ (by norm_num) (by norm_num) n

theorem nearest_of_large (hd : d.coefficient ≠ 0) (hlarge : 400 < d.leading) :
    Number.nearest d.value = .infinite false := by
  have hpow : (2 : ℚ) ^ (3 * 401) ≤ d.value :=
    calc (2 : ℚ) ^ (3 * 401) ≤ 10 ^ 401 := eight_pow_le 401
      _ = 10 ^ (401 : Int) := (zpow_natCast 10 401).symm
      _ ≤ 10 ^ d.leading := zpow_le_zpow_right₀ (by norm_num) (by omega)
      _ ≤ d.value := zpow_leading_le hd
  exact Number.nearest_of_large (by decide) hpow

theorem nearest_of_small (hsmall : d.leading < -400) :
    Number.nearest d.value = .zero false := by
  obtain ⟨k, hk, hunit⟩ := Number.exists_unitsPerOne
  have hpow : d.value < ((10 : ℚ) ^ 400)⁻¹ :=
    calc d.value < 10 ^ (d.leading + 1) := d.lt_zpow_leading
      _ ≤ 10 ^ (-400 : Int) := zpow_le_zpow_right₀ (by norm_num) (by omega)
      _ = (10 ^ 400)⁻¹ := zpow_neg_toNat (by decide)
  have hhalf : ((10 : ℚ) ^ 400)⁻¹ ≤ 1 / 2 / Number.unitsPerOne := by
    rw [hunit, div_div, one_div, Nat.cast_pow, Nat.cast_two, ← pow_succ']
    exact inv_anti₀ (by positivity)
      ((pow_le_pow_right₀ (by norm_num) (by omega)).trans (eight_pow_le 400))
  exact Number.nearest_of_small d.value_nonneg (hpow.trans_le hhalf)

/-- The bounds at four hundred digits lie beyond all numbers. -/
theorem toNumber_eq_nearest (d : Decimal) : d.toNumber = Number.nearest d.value := by
  rw [toNumber]
  split_ifs with hzero hlarge hsmall hexp
  · have hvalue : d.value = 0 := by rw [value, hzero, Nat.cast_zero, zero_mul]
    refine (Number.nearest_of_small d.value_nonneg ?_).symm
    rw [hvalue]
    exact div_pos (by norm_num) Number.cast_unitsPerOne_pos
  · exact (nearest_of_large hzero hlarge).symm
  · exact (nearest_of_small hsmall).symm
  · refine Number.round_eq_nearest Nat.one_pos ?_
    show ((d.coefficient * 10 ^ d.exponent.toNat * Number.unitsPerOne : Nat) : ℚ) / (1 : Nat) = _
    rw [value, zpow_toNat hexp]
    push_cast
    ring
  · refine Number.round_eq_nearest (Nat.pow_pos (by decide)) ?_
    show ((d.coefficient * Number.unitsPerOne : Nat) : ℚ) / (10 ^ (-d.exponent).toNat : Nat) = _
    rw [value, zpow_neg_toNat (by omega)]
    push_cast
    ring

/-- Equal values are read alike. -/
theorem toNumber_congr (h : d.value = d'.value) : d.toNumber = d'.toNumber := by
  rw [toNumber_eq_nearest, toNumber_eq_nearest, h]

/-! ## Factors ten -/

theorem strip_go_spec (hc : c ≠ 0) (hlt : c < 2 ^ (n + 1)) :
    ∃ j : Nat, c = (strip.go n c e).coefficient * 10 ^ j ∧ (strip.go n c e).exponent = e + j ∧
      (strip.go n c e).coefficient % 10 ≠ 0 := by
  induction n generalizing c e with
  | zero =>
    obtain rfl : c = 1 := by omega
    exact ⟨0, rfl, (Int.add_zero e).symm, Nat.one_ne_zero⟩
  | succ n ih =>
    rw [strip.go]
    split
    · rename_i hten
      have hlt' : c / 10 < 2 ^ (n + 1) := by
        rw [pow_succ] at hlt
        omega
      obtain ⟨j, hj, he, hstripped⟩ := ih (c := c / 10) (e := e + 1) (by omega) hlt'
      refine ⟨j + 1, ?_, ?_, hstripped⟩
      · rw [pow_succ, ← Nat.mul_assoc, ← hj]
        omega
      · rw [he]
        push_cast
        ring
    · rename_i hten
      exact ⟨0, (Nat.mul_one c).symm, (Int.add_zero e).symm, hten⟩

/-- What is stripped is a power of ten, and all of it. -/
theorem strip_spec (hd : d.coefficient ≠ 0) :
    ∃ j : Nat, d.coefficient = d.strip.coefficient * 10 ^ j ∧ d.strip.exponent = d.exponent + j ∧
      d.strip.coefficient % 10 ≠ 0 :=
  strip_go_spec hd Nat.lt_log2_self

theorem value_strip (hd : d.coefficient ≠ 0) : d.strip.value = d.value := by
  obtain ⟨j, hc, he, -⟩ := strip_spec hd
  rw [value, value, he, hc, zpow_add₀ (by norm_num), zpow_natCast]
  push_cast
  ring

theorem toNumber_strip (hd : d.coefficient ≠ 0) : d.strip.toNumber = d.toNumber :=
  toNumber_congr (value_strip hd)

theorem stripped_strip (hd : d.coefficient ≠ 0) : d.strip.coefficient % 10 ≠ 0 := by
  obtain ⟨-, -, -, hstripped⟩ := strip_spec hd
  exact hstripped

/-- A coefficient up to a power of ten has no more digits without its factors ten than that power
has zeros. -/
theorem length_digits_strip_le (hd : d.coefficient ≠ 0) (hn : 0 < n) (h : d.coefficient ≤ 10 ^ n) :
    d.strip.digits.length ≤ n := by
  obtain ⟨j, hc, -, hstripped⟩ := strip_spec hd
  rw [length_digits_le_iff hn]
  have hle : d.strip.coefficient ≤ d.coefficient := by
    rw [hc]
    exact Nat.le_mul_of_pos_right _ (Nat.pow_pos (by decide))
  refine lt_of_le_of_ne (hle.trans h) fun heq => hstripped ?_
  obtain ⟨k, rfl⟩ := Nat.exists_eq_add_of_lt hn
  rw [heq, Nat.zero_add, pow_succ]
  omega

/-- A value has one decimal without factors ten. -/
theorem eq_of_value_eq (hd : d.coefficient % 10 ≠ 0) (hd' : d'.coefficient % 10 ≠ 0)
    (h : d.value = d'.value) : d = d' := by
  wlog hle : d.exponent ≤ d'.exponent generalizing d d' with hswap
  · exact (hswap hd' hd h.symm (by omega)).symm
  obtain ⟨j, hj⟩ := Int.le.dest hle
  have hcoefficient : d.coefficient = d'.coefficient * 10 ^ j := by
    rw [value, value, ← hj, zpow_add₀ (by norm_num), zpow_natCast] at h
    have hcast : (d.coefficient : ℚ) * 10 ^ d.exponent =
        (d'.coefficient * 10 ^ j : Nat) * 10 ^ d.exponent := by
      rw [h]
      push_cast
      ring
    exact_mod_cast mul_right_cancel₀ (ten_zpow_pos _).ne' hcast
  cases j with
  | zero =>
    cases d
    cases d'
    simp_all
  | succ j =>
    rw [pow_succ, ← Nat.mul_assoc] at hcoefficient
    omega

/-- On the grid of `count` digits from a power of ten lie all decimals of as many digits that are
not below it. -/
theorem exists_on_grid {count : Nat} (hlow : (10 : ℚ) ^ e ≤ d.value)
    (hd : d.digits.length ≤ count) : ∃ n : Nat, d.value = n * 10 ^ (e - count + 1) := by
  have hlt : (10 : ℚ) ^ e < 10 ^ (d.leading + 1) := hlow.trans_lt d.lt_zpow_leading
  have hleading : e < d.leading + 1 := (zpow_lt_zpow_iff_right₀ (by norm_num)).mp hlt
  obtain ⟨j, hj⟩ := Int.le.dest (a := e - count + 1) (b := d.exponent)
    (by rw [leading] at hleading; omega)
  refine ⟨d.coefficient * 10 ^ j, ?_⟩
  rw [value, ← hj, zpow_add₀ (by norm_num), zpow_natCast]
  push_cast
  ring

end Decimal

end ActionScript
