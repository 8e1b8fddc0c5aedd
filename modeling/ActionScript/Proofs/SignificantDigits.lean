import ActionScript.Proofs.ShortestDigits

/-! # Rounding to significant digits

`Decimal.Rounds` says what the rounding of a value to some number of significant digits is. There
is at most one (`Decimal.Rounds.unique`), and what is kept of the exact value of a number is it
(`Number.Positive.rounds_rounded`). -/

namespace ActionScript

namespace Decimal

variable {d d' : Decimal} {count : Nat} {q : ℚ}

/-- A value rounded to `count` significant digits, without factors ten: no decimal of as many
digits is nearer, and if another one is as near the last digit is even. -/
structure Rounds (d : Decimal) (count : Nat) (q : ℚ) : Prop where
  stripped : d.coefficient % 10 ≠ 0
  fits : d.digits.length ≤ count
  nearest : ∀ d' : Decimal, d'.digits.length ≤ count → |q - d.value| ≤ |q - d'.value|
  even : d.digits.length = count → ∀ d' : Decimal, d'.digits.length ≤ count → d'.value ≠ d.value →
    |q - d'.value| = |q - d.value| → d.coefficient % 2 = 0

/-- Zeros behind the coefficient. -/
theorem value_eq_padded (d : Decimal) (j : Nat) :
    d.value = (d.coefficient * 10 ^ j : Nat) * 10 ^ (d.exponent - j) := by
  rw [value, zpow_sub₀ (by norm_num), zpow_natCast]
  push_cast
  field_simp

/-- What lies between two values is nearer to their middle. -/
theorem abs_sub_lt_of_between {r s t : ℚ} (hr : r < s) (hs : s < t)
    (h : |q - t| = |q - r|) : |q - s| < |q - r| := by
  have hq := Number.two_mul_eq_of_abs_sub_eq (hr.trans hs).ne' h
  rw [abs_sub_lt_iff, abs_of_pos (by linarith)]
  constructor <;> linarith

/-- With zeros behind it a coefficient has `count` digits. -/
theorem exists_coefficient (hd : d.coefficient ≠ 0) (hfits : d.digits.length ≤ count) :
    ∃ n : Nat, d.value = n * 10 ^ (d.leading - count + 1) ∧ 10 ^ (count - 1) ≤ n ∧
      n < 10 ^ count := by
  obtain ⟨j, hj⟩ := Nat.exists_eq_add_of_le hfits
  have hdigits := d.length_digits_pos
  have hexp : d.leading - count + 1 = d.exponent - j := by
    rw [leading, hj]
    omega
  have hcount : count - 1 = d.digits.length - 1 + j := by omega
  refine ⟨d.coefficient * 10 ^ j, ?_, ?_, ?_⟩
  · rw [hexp]
    exact d.value_eq_padded j
  · rw [hcount, pow_add]
    exact Nat.mul_le_mul_right _ (le_coefficient hd)
  · rw [hj, pow_add]
    exact Nat.mul_lt_mul_of_pos_right d.coefficient_lt (Nat.pow_pos (by decide))

namespace Rounds

variable (h : d.Rounds count q)
include h

theorem coefficient_ne_zero : d.coefficient ≠ 0 := fun hzero => h.stripped (by rw [hzero])

/-- If another decimal is as near, the last of `count` digits is even, zeros included. -/
theorem even_of_tie (hfits : d'.digits.length ≤ count) (hne : d'.value ≠ d.value)
    (htie : |q - d'.value| = |q - d.value|) {n : Nat} {k : Int} (hgrid : d.value = n * 10 ^ k)
    (hlow : 10 ^ (count - 1) ≤ n) : n % 2 = 0 := by
  by_contra hodd
  have hd : d = ⟨n, k⟩ := eq_of_value_eq h.stripped (by show n % 10 ≠ 0; omega) hgrid
  have hcoefficient : d.coefficient = n := by rw [hd]
  have hlength : d.digits.length = count := by
    by_contra hshort
    have hle : d.digits.length ≤ count - 1 := by
      have := h.fits
      omega
    have := (length_digits_le_iff (d.length_digits_pos.trans_le hle)).mp hle
    omega
  have := h.even hlength d' hfits hne htie
  omega

theorem unique (h' : d'.Rounds count q) : d = d' := by
  by_contra hne
  have hvalue : d.value ≠ d'.value := fun heq => hne (eq_of_value_eq h.stripped h'.stripped heq)
  wlog hlt : d.value < d'.value generalizing d d' with hswap
  · exact hswap h' h (Ne.symm hne) hvalue.symm (lt_of_le_of_ne (not_lt.mp hlt) hvalue.symm)
  have htie : |q - d'.value| = |q - d.value| :=
    le_antisymm (h'.nearest d h.fits) (h.nearest d' h'.fits)
  -- Both lie on the grid of `count` digits that starts at the first digit of the lower one.
  obtain ⟨n, hgrid, hlow, hhigh⟩ := exists_coefficient h.coefficient_ne_zero h.fits
  obtain ⟨n', hgrid'⟩ := exists_on_grid
    ((zpow_leading_le h.coefficient_ne_zero).trans hlt.le) h'.fits
  have hpos := ten_zpow_pos (d.leading - count + 1)
  have hnn' : n < n' := by
    rw [hgrid, hgrid', mul_lt_mul_iff_of_pos_right hpos] at hlt
    exact_mod_cast hlt
  have heven := h.even_of_tie h'.fits hvalue.symm htie hgrid hlow
  have heven' := h'.even_of_tie h.fits hvalue htie.symm hgrid' (hlow.trans hnn'.le)
  -- What lies between them is nearer than both.
  have hcount : 0 < count := d.length_digits_pos.trans_le h.fits
  have hbetween := h.nearest _ (length_digits_strip_le (d := ⟨n + 1, d.leading - count + 1⟩)
    (Nat.succ_ne_zero n) hcount hhigh)
  rw [value_strip (Nat.succ_ne_zero n)] at hbetween
  have hnn'' : n + 1 < n' := by omega
  refine absurd hbetween (not_le.mpr (abs_sub_lt_of_between ?_ ?_ htie))
  · rw [hgrid, value]
    exact mul_lt_mul_of_pos_right (by exact_mod_cast Nat.lt_succ_self n) hpos
  · rw [hgrid', value]
    exact mul_lt_mul_of_pos_right (by exact_mod_cast hnn'') hpos

end Rounds

end Decimal

namespace Number

variable {x : Number} {count : Nat} {d : Decimal}

/-- The coefficient on the grid of `count` digits that a number is rounded to. -/
def roundedCoefficient (x : Number) (count : Nat) : Nat :=
  roundDiv (x.inSteps (x.gridExponent count)).1 (x.inSteps (x.gridExponent count)).2

theorem rounded_eq (x : Number) (count : Nat) :
    x.rounded count = Decimal.strip ⟨x.roundedCoefficient count, x.gridExponent count⟩ := rfl

namespace Positive

variable (hx : x.Positive)
include hx

/-- Distances to a number are those on its grid in other units. -/
theorem abs_sub_mul (k : Int) (n : Nat) :
    |x.value - n * 10 ^ k| = |((x.inSteps k).1 : ℚ) / (x.inSteps k).2 - n| * 10 ^ k := by
  have hpos := Decimal.ten_zpow_pos k
  rw [(hx.inSteps_spec k).2, ← abs_of_pos hpos, ← abs_mul, abs_of_pos hpos, sub_mul,
    div_mul_cancel₀ _ hpos.ne']

/-- The rounding is one of the neighbours on the grid. -/
theorem roundedCoefficient_eq (count : Nat) :
    ∃ d, x.Neighbour count d ∧ x.roundedCoefficient count = d.coefficient := by
  have hfloor : (x.below count).coefficient =
      (x.inSteps (x.gridExponent count)).1 / (x.inSteps (x.gridExponent count)).2 := by
    rw [← Nat.floor_div_eq_div (K := ℚ), (hx.inSteps_spec _).2]
    rfl
  rw [roundedCoefficient, roundDiv]
  split
  · exact ⟨_, .inr rfl, congrArg (· + 1) hfloor.symm⟩
  · exact ⟨_, .inl rfl, hfloor.symm⟩

theorem roundedCoefficient_bounds (hcount : 0 < count) :
    10 ^ (count - 1) ≤ x.roundedCoefficient count ∧
      x.roundedCoefficient count ≤ 10 ^ count ∧ x.roundedCoefficient count ≠ 0 := by
  obtain ⟨d, hd, heq⟩ := hx.roundedCoefficient_eq count
  rw [heq]
  exact hx.coefficient_neighbour hcount hd

theorem value_rounded (hcount : 0 < count) :
    (x.rounded count).value = x.roundedCoefficient count * 10 ^ x.gridExponent count := by
  rw [rounded_eq, Decimal.value_strip (hx.roundedCoefficient_bounds hcount).2.2, Decimal.value]

theorem abs_sub_rounded_le (hcount : 0 < count) :
    |x.value - (x.rounded count).value| ≤ 10 ^ x.gridExponent count / 2 := by
  have hpos := Decimal.ten_zpow_pos (x.gridExponent count)
  rw [hx.value_rounded hcount, hx.abs_sub_mul]
  have hhalf := abs_sub_roundDiv_le (x.inSteps (x.gridExponent count)).1
    (hx.inSteps_spec (x.gridExponent count)).1
  exact (mul_le_mul_of_nonneg_right hhalf hpos.le).trans_eq (by ring)

theorem abs_sub_rounded_le_neighbour (hcount : 0 < count) (hd : x.Neighbour count d) :
    |x.value - (x.rounded count).value| ≤ |x.value - d.value| := by
  rw [hd.value_eq, hx.value_rounded hcount, hx.abs_sub_mul, hx.abs_sub_mul]
  exact mul_le_mul_of_nonneg_right (abs_sub_roundDiv_le_abs_sub (hx.inSteps_spec _).1 _)
    (Decimal.ten_zpow_pos _).le

/-- Of `count` digits none was stripped: with a zero behind them they would be more, but for a power
of ten, which ends with a zero itself. -/
theorem coefficient_rounded (hcount : 1 < count)
    (hlength : (x.rounded count).digits.length = count) :
    (x.rounded count).coefficient = x.roundedCoefficient count := by
  obtain ⟨-, hhigh, hnonzero⟩ := hx.roundedCoefficient_bounds (show 0 < count by omega)
  obtain ⟨i, (hcoefficient : x.roundedCoefficient count = _), -, hstripped⟩ := Decimal.strip_spec
    (d := ⟨x.roundedCoefficient count, x.gridExponent count⟩) hnonzero
  rw [← rounded_eq] at hcoefficient hstripped
  cases i with
  | zero => rw [hcoefficient, pow_zero, Nat.mul_one]
  | succ i =>
    exfalso
    have hdigits := Decimal.le_coefficient (d := x.rounded count) (by omega)
    have hzeros := Nat.le_mul_of_pos_right (x.rounded count).coefficient
      (Nat.pow_pos (n := i) (show 0 < 10 by decide))
    obtain ⟨j, rfl⟩ : ∃ j, count = j + 2 := ⟨count - 2, by omega⟩
    rw [hlength, show j + 2 - 1 = j + 1 from rfl] at hdigits
    rw [hcoefficient, pow_succ 10 (j + 1), pow_succ 10 i, ← Nat.mul_assoc] at hhigh
    have hpower : (x.rounded (j + 2)).coefficient = 10 ^ (j + 1) := by omega
    rw [hpower, pow_succ] at hstripped
    omega

/-- From the middle of two neighbours on the grid a number is rounded to the even one. -/
theorem roundedCoefficient_even (hcount : 0 < count) (hd : x.Neighbour count d)
    (hne : d.value ≠ (x.rounded count).value)
    (htie : |x.value - d.value| = |x.value - (x.rounded count).value|) :
    x.roundedCoefficient count % 2 = 0 := by
  rw [hd.value_eq, hx.value_rounded hcount] at hne htie
  have hother : d.coefficient ≠ x.roundedCoefficient count := fun hsame => hne (by rw [hsame])
  rw [hx.abs_sub_mul, hx.abs_sub_mul] at htie
  exact roundDiv_even (hx.inSteps_spec _).1 hother
    (mul_right_cancel₀ (Decimal.ten_zpow_pos _).ne' htie)

/-- What is kept of the exact value is its rounding. -/
theorem rounds_rounded (hcount : 1 < count) : (x.rounded count).Rounds count x.value := by
  have hpos : 0 < count := by omega
  obtain ⟨-, hhigh, hnonzero⟩ := hx.roundedCoefficient_bounds hpos
  refine ⟨Decimal.stripped_strip hnonzero, Decimal.length_digits_strip_le hnonzero hpos hhigh,
    fun d' hd' => ?_, fun hlength d' hd' hne htie => ?_⟩
  · obtain ⟨g, hg, hbetween⟩ := hx.exists_neighbour hd'
    exact (hx.abs_sub_rounded_le_neighbour hpos hg).trans (abs_sub_le_of_between hbetween).1
  · obtain ⟨g, hg, hbetween⟩ := hx.exists_neighbour hd'
    obtain ⟨hle, heq⟩ := abs_sub_le_of_between hbetween
    have hnear : |x.value - g.value| = |x.value - (x.rounded count).value| :=
      le_antisymm (hle.trans_eq htie) (hx.abs_sub_rounded_le_neighbour hpos hg)
    have hvalue : d'.value = g.value := heq (hnear.trans htie.symm)
    rw [hx.coefficient_rounded hcount hlength]
    exact hx.roundedCoefficient_even hpos hg (hvalue ▸ hne) hnear

/-- A decimal on the grid less than half a step away is the rounding. -/
theorem rounded_eq_of_near (hcount : 0 < count) (hd : d.coefficient % 10 ≠ 0) {n : Nat}
    (hgrid : d.value = n * 10 ^ x.gridExponent count)
    (hnear : |x.value - d.value| < 10 ^ x.gridExponent count / 2) : x.rounded count = d := by
  have hpos := Decimal.ten_zpow_pos (x.gridExponent count)
  have hround : x.roundedCoefficient count = n := by
    refine roundDiv_eq_of_abs_lt (hx.inSteps_spec _).1 ?_
    rw [hgrid, hx.abs_sub_mul] at hnear
    exact lt_of_mul_lt_mul_right (hnear.trans_eq (by ring)) hpos.le
  refine Decimal.eq_of_value_eq ?_ hd ?_
  · exact Decimal.stripped_strip (hx.roundedCoefficient_bounds hcount).2.2
  · rw [hgrid, hx.value_rounded hcount, hround]

end Positive

end Number

end ActionScript
