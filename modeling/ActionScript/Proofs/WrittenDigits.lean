import ActionScript.Proofs.SignificantDigits

/-! # The digits that are written

The digits that are written are the shortest ones that are read back if these are at most fifteen,
and else the exact value rounded to fifteen (`Number.decimal_eq_of_isShortest`). Both are the same
from `10 ^ -309` on, where numbers are nearer to each other than decimals of fifteen digits. Below,
numbers are farther apart, and fewer digits than those of the rounding may do
(`Number.decimal_ne_rounded_iff`). -/

namespace ActionScript.Number

variable {x : Number} {count : Nat} {d d' g g' s : Decimal}

/-! ## How far numbers are apart -/

theorem unitsPerOne_bounds : 10 ^ 323 < unitsPerOne ∧ unitsPerOne < 10 ^ 324 := by
  decide +kernel

theorem unit_lt {n : Nat} (h : 10 ^ n < unitsPerOne) :
    (1 : ℚ) / unitsPerOne < 10 ^ (-n : Int) := by
  rw [zpow_neg, zpow_natCast, one_div, inv_lt_inv₀ cast_unitsPerOne_pos (by positivity)]
  exact_mod_cast h

theorem lt_unit {n : Nat} (h : unitsPerOne < 10 ^ n) :
    (10 : ℚ) ^ (-n : Int) < 1 / unitsPerOne := by
  rw [zpow_neg, zpow_natCast, one_div, inv_lt_inv₀ (by positivity) cast_unitsPerOne_pos]
  exact_mod_cast h

/-- The least positive number lies between these powers of ten. -/
theorem unit_bounds :
    (10 : ℚ) ^ (-324 : Int) < 1 / unitsPerOne ∧ (1 : ℚ) / unitsPerOne < 10 ^ (-323 : Int) :=
  ⟨lt_unit (n := 324) unitsPerOne_bounds.2, unit_lt (n := 323) unitsPerOne_bounds.1⟩

theorem ten_pow_le : (10 : ℚ) ^ 15 ≤ 2 ^ 52 := by norm_num

theorem value_finite {m p : Nat} (h : Canonical m p) :
    (finite false m p h).value = m * 2 ^ p / unitsPerOne := by
  rw [value_of_positive rfl, magnitude, cast_shiftLeft]

/-- From `10 ^ -309` on the last place of a number is less than one of fifteen digits. -/
theorem last_place_lt {m p : Nat} {h : Canonical m p} (hx : (finite false m p h).Positive)
    (hlarge : 10 ^ (-309 : Int) ≤ (finite false m p h).value) :
    (2 : ℚ) ^ p / unitsPerOne < 10 ^ (finite false m p h).gridExponent precision := by
  have hhigh := hx.lt_zpow_decimalExponent
  rcases h.normal with hnormal | rfl
  · have hm : (2 : ℚ) ^ 52 ≤ m := by exact_mod_cast hnormal
    have hplace : (0 : ℚ) ≤ 2 ^ p / unitsPerOne :=
      div_nonneg (by positivity) cast_unitsPerOne_pos.le
    rw [value_finite, zpow_gridExponent_succ _ precision] at hhigh
    have hprecision : ((10 ^ precision : Nat) : ℚ) = 10 ^ 15 := by norm_num [precision]
    rw [hprecision] at hhigh
    refine lt_of_mul_lt_mul_right ?_ (by positivity : (0 : ℚ) ≤ 10 ^ 15)
    calc (2 : ℚ) ^ p / unitsPerOne * 10 ^ 15 ≤ 2 ^ p / unitsPerOne * m :=
          mul_le_mul_of_nonneg_left (ten_pow_le.trans hm) hplace
      _ = m * 2 ^ p / unitsPerOne := by ring
      _ < 10 ^ (finite false m p h).gridExponent precision * 10 ^ 15 :=
          hhigh.trans_eq (mul_comm _ _)
  · have hexp : -309 < (finite false m 0 h).decimalExponent + 1 :=
      (zpow_lt_zpow_iff_right₀ (by norm_num)).mp (hlarge.trans_lt hhigh)
    rw [pow_zero]
    refine unit_bounds.2.trans_le (zpow_le_zpow_right₀ (by norm_num) ?_)
    rw [gridExponent]
    have hprecision : ((precision : Nat) : Int) = 15 := rfl
    omega

/-- From `10 ^ -309` on what is read back is less than half a place of fifteen digits away. -/
theorem abs_sub_lt_of_toNumber (hx : x.Positive) (hlarge : 10 ^ (-309 : Int) ≤ x.value)
    (hread : d.toNumber = x) : |x.value - d.value| < 10 ^ x.gridExponent precision / 2 := by
  rw [Decimal.toNumber_eq_nearest] at hread
  cases x with
  | nan | infinite => cases hx.isFinite
  | finite negative m p h =>
    obtain rfl : negative = false := hx.sign
    rw [abs_sub_comm]
    refine (abs_sub_value_le d.value_nonneg hread).trans_lt ?_
    rw [div_right_comm]
    exact div_lt_div_of_pos_right (last_place_lt hx hlarge) two_pos

/-- Below `10 ^ -309` numbers have the least last place. -/
theorem exists_subnormal (hx : x.Positive) (hsmall : x.value < 10 ^ (-309 : Int)) :
    ∃ m, ∃ h : Canonical m 0, x = finite false m 0 h := by
  cases x with
  | nan | infinite => cases hx.isFinite
  | finite negative m p h =>
    obtain rfl : negative = false := hx.sign
    rcases h.normal with hnormal | rfl
    · have hm : (2 : ℚ) ^ 52 ≤ m := by exact_mod_cast hnormal
      have hone : (1 : ℚ) ≤ 2 ^ p := one_le_pow₀ (by norm_num)
      have hlarge : (10 : ℚ) ^ (-309 : Int) < m * 2 ^ p / unitsPerOne :=
        calc (10 : ℚ) ^ (-309 : Int) = 10 ^ 15 * 10 ^ (-324 : Int) := by
              rw [← zpow_natCast, ← zpow_add₀ (by norm_num)]
              rfl
          _ < 10 ^ 15 * (1 / unitsPerOne) :=
              mul_lt_mul_of_pos_left unit_bounds.1 (by positivity)
          _ ≤ m * 2 ^ p * (1 / unitsPerOne) := by
              refine mul_le_mul_of_nonneg_right ?_ (one_div_nonneg.mpr cast_unitsPerOne_pos.le)
              exact (ten_pow_le.trans hm).trans
                (le_mul_of_one_le_right (Nat.cast_nonneg m) hone)
          _ = m * 2 ^ p / unitsPerOne := by ring
      rw [value_finite] at hsmall
      exact absurd hsmall (not_lt.mpr hlarge.le)
    · exact ⟨m, h, rfl⟩

theorem decimalExponent_of_small (hx : x.Positive) (hsmall : x.value < 10 ^ (-309 : Int)) :
    x.decimalExponent < -309 :=
  (zpow_lt_zpow_iff_right₀ (by norm_num)).mp (hx.zpow_decimalExponent_le.trans_lt hsmall)

/-- Below `10 ^ -309` the rounding to fifteen digits is read back. -/
theorem toNumber_rounded (hx : x.Positive) (hsmall : x.value < 10 ^ (-309 : Int)) :
    (x.rounded precision).toNumber = x := by
  have hexp := decimalExponent_of_small hx hsmall
  have hround : |x.value - (x.rounded precision).value| ≤ _ := hx.abs_sub_rounded_le (by decide)
  have hstep : (10 : ℚ) ^ x.gridExponent precision ≤ 10 ^ (-324 : Int) := by
    refine zpow_le_zpow_right₀ (by norm_num) ?_
    have hprecision : ((precision : Nat) : Int) = 15 := rfl
    rw [gridExponent]
    omega
  obtain ⟨m, h, rfl⟩ := exists_subnormal hx hsmall
  rw [Decimal.toNumber_eq_nearest]
  refine nearest_eq_of_abs_lt (Decimal.value_nonneg _) ?_
  rw [abs_sub_comm]
  have hunit := unit_bounds.1
  refine hround.trans_lt ?_
  rw [div_right_comm]
  linarith

/-- A high power of two does not divide what has few digits but for powers of ten. -/
theorem two_mul_ne_odd {m c j k : Nat} (hm : 0 < m) (hlt : m < 2 ^ 53) (hk : j + 54 ≤ k) :
    2 * m * 10 ^ j ≠ (2 * c + 1) * 2 ^ k := by
  intro heq
  obtain ⟨i, rfl⟩ : ∃ i, k = i + (j + 1) := ⟨k - (j + 1), by omega⟩
  have hten : 2 * m * 10 ^ j = m * 5 ^ j * 2 ^ (j + 1) := by
    rw [show 10 = 5 * 2 from rfl, mul_pow, pow_succ]
    ring
  rw [hten, pow_add 2 i, ← mul_assoc] at heq
  have hfive : m * 5 ^ j = (2 * c + 1) * 2 ^ i :=
    Nat.eq_of_mul_eq_mul_right (Nat.two_pow_pos (j + 1)) heq
  have hdvd : 2 ^ i ∣ m := by
    refine Nat.Coprime.dvd_of_dvd_mul_right (Nat.Coprime.pow i j (by decide)) (n := 5 ^ j) ?_
    rw [hfive]
    exact Nat.dvd_mul_left _ _
  have hle : 2 ^ 53 ≤ m :=
    (Nat.pow_le_pow_right Nat.two_pos (by omega)).trans (Nat.le_of_dvd hm hdvd)
  omega

/-- Below `10 ^ -309` no number is in the middle of its neighbours on a grid of at most fifteen
digits. -/
theorem not_middle (hx : x.Positive) (hsmall : x.value < 10 ^ (-309 : Int))
    (hcount : count ≤ precision) :
    2 * x.value ≠ (x.below count).value + (x.above count).value := by
  intro hmiddle
  have hexp := decimalExponent_of_small hx hsmall
  obtain ⟨m, h, rfl⟩ := exists_subnormal hx hsmall
  have hm : 0 < m := Nat.pos_of_ne_zero hx.nonzero
  have hexp' : -324 < (finite false m 0 h).decimalExponent + 1 := by
    refine (zpow_lt_zpow_iff_right₀ (by norm_num)).mp
      (unit_bounds.1.trans_le (le_trans ?_ hx.lt_zpow_decimalExponent.le))
    rw [value_finite, pow_zero, mul_one]
    exact div_le_div_of_nonneg_right (by exact_mod_cast hm) cast_unitsPerOne_pos.le
  obtain ⟨j, hj⟩ : ∃ j : Nat, (finite false m 0 h).gridExponent count = -j :=
    ⟨(-(finite false m 0 h).gridExponent count).toNat, by rw [gridExponent]; omega⟩
  have hbound : j ≤ 338 := by
    have hprecision : precision = 15 := rfl
    rw [gridExponent] at hj
    omega
  obtain ⟨c, hc⟩ : ∃ c, (below (finite false m 0 h) count).coefficient = c := ⟨_, rfl⟩
  have hbelow : (below (finite false m 0 h) count).value = c * 10 ^ (-j : Int) := by
    rw [← hj, ← hc]
    rfl
  have habove : (above (finite false m 0 h) count).value = (c + 1 : Nat) * 10 ^ (-j : Int) := by
    rw [← hj, ← hc]
    rfl
  obtain ⟨k, hk, hunit⟩ := exists_unitsPerOne
  have hcast : 2 * (m : ℚ) * 10 ^ j = (2 * c + 1) * 2 ^ k := by
    rw [hbelow, habove, value_finite, hunit, zpow_neg, zpow_natCast, pow_zero, mul_one] at hmiddle
    push_cast at hmiddle
    field_simp at hmiddle
    linarith
  have hnat : 2 * m * 10 ^ j = (2 * c + 1) * 2 ^ k := by exact_mod_cast hcast
  exact two_mul_ne_odd hm h.lt (by omega) hnat

/-- Below `10 ^ -309` neighbours that are as near to a number as each other have one value. -/
theorem value_eq_of_tie (hx : x.Positive) (hsmall : x.value < 10 ^ (-309 : Int))
    (hcount : count ≤ precision) (hg : x.Neighbour count g) (hg' : x.Neighbour count g')
    (htie : |x.value - g.value| = |x.value - g'.value|) : g.value = g'.value := by
  have hmiddle := not_middle hx hsmall hcount
  have hdiffer : (x.below count).value ≠ (x.above count).value :=
    ((hx.below_le count).trans_lt (Positive.lt_above x count)).ne
  rcases hg with rfl | rfl <;> rcases hg' with rfl | rfl
  · rfl
  · exact absurd (two_mul_eq_of_abs_sub_eq hdiffer htie) hmiddle
  · exact absurd (two_mul_eq_of_abs_sub_eq hdiffer htie.symm) hmiddle
  · rfl

/-! ## The shortest decimal -/

/-- The shortest decimal has the value of a neighbour on the grid of its digits. -/
theorem exists_neighbour_of_isShortest (hx : x.Positive) (h : d.IsShortest x) :
    ∃ g, x.Neighbour d.digits.length g ∧ d.value = g.value := by
  obtain ⟨g, hg, hbetween⟩ := hx.exists_neighbour d.digits.length.le_refl
  obtain ⟨hle, heq⟩ := Positive.abs_sub_le_of_between hbetween
  have hpos := d.length_digits_pos
  obtain ⟨-, -, hne⟩ := hx.coefficient_neighbour hpos hg
  have hread : g.strip.toNumber = x := by
    rw [Decimal.toNumber_strip hne, hx.toNumber_of_between h.read hbetween]
  have hnearest := h.nearest g.strip hread (hx.length_strip_neighbour hpos hg)
  rw [Decimal.value_strip hne] at hnearest
  exact ⟨g, hg, heq (le_antisymm hle hnearest)⟩

/-- From `10 ^ -309` on the shortest decimal is the rounding, if it has at most fifteen digits. -/
theorem rounded_eq_of_isShortest (hx : x.Positive) (hlarge : 10 ^ (-309 : Int) ≤ x.value)
    (h : d.IsShortest x) (hfits : d.digits.length ≤ precision) : x.rounded precision = d := by
  obtain ⟨g, hg, hvalue⟩ := exists_neighbour_of_isShortest hx h
  have hgrid : d.value = (g.coefficient * 10 ^ (precision - d.digits.length) : Nat) *
      10 ^ x.gridExponent precision := by
    have hexp : x.gridExponent d.digits.length =
        (precision - d.digits.length : Nat) + x.gridExponent precision := by
      rw [gridExponent, gridExponent]
      omega
    rw [hvalue, hg.value_eq, hexp, zpow_add₀ (by norm_num), zpow_natCast]
    push_cast
    ring
  exact hx.rounded_eq_of_near (by decide) h.stripped hgrid
    (abs_sub_lt_of_toNumber hx hlarge h.read)

/-- A number has one shortest decimal, if that has at most fifteen digits. -/
theorem eq_of_isShortest (hx : x.Positive) (h : d.IsShortest x) (h' : d'.IsShortest x)
    (hfits : d.digits.length ≤ precision) : d = d' := by
  have hlength : d'.digits.length = d.digits.length :=
    le_antisymm (h'.fewest d h.read) (h.fewest d' h'.read)
  rcases le_or_gt (10 ^ (-309 : Int)) x.value with hlarge | hsmall
  · rw [← rounded_eq_of_isShortest hx hlarge h hfits,
      ← rounded_eq_of_isShortest hx hlarge h' (hlength.trans_le hfits)]
  · have htie : |x.value - d.value| = |x.value - d'.value| :=
      le_antisymm (h.nearest d' h'.read hlength.le) (h'.nearest d h.read hlength.ge)
    obtain ⟨g, hg, hvalue⟩ := exists_neighbour_of_isShortest hx h
    obtain ⟨g', hg', hvalue'⟩ := exists_neighbour_of_isShortest hx h'
    rw [hvalue, hvalue'] at htie
    rw [hlength] at hg'
    refine Decimal.eq_of_value_eq h.stripped h'.stripped ?_
    rw [hvalue, hvalue', value_eq_of_tie hx hsmall hfits hg hg' htie]

/-- The digits that are written, by the shortest decimal. -/
theorem decimal_eq_of_isShortest (hx : x.Positive) (h : s.IsShortest x) :
    x.decimal = if s.digits.length ≤ precision then s else x.rounded precision := by
  rw [decimal]
  split
  · rename_i hfits
    obtain ⟨s', hs'⟩ := hx.exists_shortest? hfits h.read
    rw [hs', eq_of_isShortest hx h (hx.isShortest_of_shortest? hs').1 hfits]
    rfl
  · rename_i hlong
    cases hs' : x.shortest? precision with
    | none => rfl
    | some s' =>
      obtain ⟨hshort, hfits⟩ := hx.isShortest_of_shortest? hs'
      exact absurd ((h.fewest s' hshort.read).trans hfits) hlong

/-! ## The shortest decimal and the rounding -/

/-- Below `10 ^ -309` the rounding is the shortest decimal, if none of fewer digits is read
back. -/
theorem isShortest_rounded (hx : x.Positive) (hsmall : x.value < 10 ^ (-309 : Int))
    (hleast : ∀ d : Decimal, d.toNumber = x →
      (x.rounded precision).digits.length ≤ d.digits.length) :
    (x.rounded precision).IsShortest x := by
  have hrounds : (x.rounded precision).Rounds precision x.value := hx.rounds_rounded (by decide)
  exact ⟨hrounds.stripped, toNumber_rounded hx hsmall, hleast,
    fun d _ hfits => hrounds.nearest d (hfits.trans hrounds.fits)⟩

/-- From `10 ^ -309` on the digits that are written are the rounding to fifteen digits. -/
theorem decimal_eq_rounded (hx : x.Positive) (hlarge : 10 ^ (-309 : Int) ≤ x.value) :
    x.decimal = x.rounded precision := by
  rw [decimal]
  cases hs : x.shortest? precision with
  | none => rfl
  | some s =>
    obtain ⟨hshort, hfits⟩ := hx.isShortest_of_shortest? hs
    exact (rounded_eq_of_isShortest hx hlarge hshort hfits).symm

/-- The digits that are written are not the rounding exactly if fewer digits than it has are read
back. -/
theorem decimal_ne_iff_exists_fewer (hx : x.Positive) : x.decimal ≠ x.rounded precision ↔
    ∃ d : Decimal, d.toNumber = x ∧ d.digits.length < (x.rounded precision).digits.length := by
  have hrounds : (x.rounded precision).Rounds precision x.value := hx.rounds_rounded (by decide)
  constructor
  · intro hne
    by_contra hnone
    push Not at hnone
    refine hne ?_
    rcases le_or_gt (10 ^ (-309 : Int)) x.value with hlarge | hsmall
    · exact decimal_eq_rounded hx hlarge
    · rw [decimal_eq_of_isShortest hx (isShortest_rounded hx hsmall hnone), if_pos hrounds.fits]
  · rintro ⟨d, hread, hfewer⟩ heq
    obtain ⟨s, hs⟩ := hx.exists_shortest? (hfewer.le.trans hrounds.fits) hread
    have hfewest := (hx.isShortest_of_shortest? hs).1.fewest d hread
    rw [decimal, hs, Option.getD_some] at heq
    rw [heq] at hfewest
    omega

/-- The digits that are written are the shortest ones or the exact value rounded to fifteen digits.
They are the latter but for some numbers below `10 ^ -309`: those that a decimal with fewer digits
than the rounding is read as. -/
theorem decimal_ne_rounded_iff (hx : x.Positive) :
    (∀ s : Decimal, s.IsShortest x →
        x.decimal = if s.digits.length ≤ precision then s else x.rounded precision) ∧
      (x.rounded precision).Rounds precision x.value ∧
      (10 ^ (-309 : Int) ≤ x.value → x.decimal = x.rounded precision) ∧
      (x.decimal ≠ x.rounded precision ↔
        ∃ d : Decimal, d.toNumber = x ∧ d.digits.length < (x.rounded precision).digits.length) :=
  ⟨fun _ => decimal_eq_of_isShortest hx, hx.rounds_rounded (by decide), decimal_eq_rounded hx,
    decimal_ne_iff_exists_fewer hx⟩

/-- The sum of `0.1` and `0.2` is written `0.3`. -/
theorem decimal_rounded_tenths :
    (Decimal.mk 3 (-1)).Rounds precision
        (value (finite false 0x13333333333334 1020 ⟨by decide, .inl (by decide), by decide⟩)) ∧
      decimal (finite false 0x13333333333334 1020 ⟨by decide, .inl (by decide), by decide⟩) =
        ⟨3, -1⟩ := by
  obtain ⟨x, hx⟩ : ∃ x,
      x = finite false 0x13333333333334 1020 ⟨by decide, .inl (by decide), by decide⟩ := ⟨_, rfl⟩
  obtain ⟨hnonzero, hexp, hrounded⟩ : x.magnitude ≠ 0 ∧ x.decimalExponent = -1 ∧
      x.rounded precision = ⟨3, -1⟩ := by
    rw [hx]
    decide +kernel
  have hpositive : x.Positive := ⟨by rw [hx]; rfl, by rw [hx]; rfl, hnonzero⟩
  have hlarge : (10 : ℚ) ^ (-309 : Int) ≤ x.value :=
    (zpow_le_zpow_right₀ (by norm_num) (by omega)).trans hpositive.zpow_decimalExponent_le
  obtain ⟨-, hrounds, heq, -⟩ := decimal_ne_rounded_iff hpositive
  rw [← hx, ← hrounded]
  exact ⟨hrounds, heq hlarge⟩

/-- The least positive number, `4.94065645841247e-324` to fifteen digits, is written `5e-324`. -/
theorem decimal_not_rounded_least :
    Positive (finite false 1 0 ⟨by decide, .inr rfl, by decide⟩) ∧
      decimal (finite false 1 0 ⟨by decide, .inr rfl, by decide⟩) = ⟨5, -324⟩ ∧
      (Decimal.mk 494065645841247 (-338)).Rounds precision
        (value (finite false 1 0 ⟨by decide, .inr rfl, by decide⟩)) ∧
      ¬ (Decimal.mk 5 (-324)).Rounds precision
        (value (finite false 1 0 ⟨by decide, .inr rfl, by decide⟩)) := by
  have hpositive : Positive (finite false 1 0 ⟨by decide, .inr rfl, by decide⟩) :=
    ⟨rfl, rfl, by decide⟩
  obtain ⟨hdecimal, hrounded⟩ :
      decimal (finite false 1 0 ⟨by decide, .inr rfl, by decide⟩) = ⟨5, -324⟩ ∧
        rounded precision (finite false 1 0 ⟨by decide, .inr rfl, by decide⟩) =
          ⟨494065645841247, -338⟩ := by decide +kernel
  have hrounds : (rounded precision _).Rounds precision _ := hpositive.rounds_rounded (by decide)
  rw [hrounded] at hrounds
  refine ⟨hpositive, hdecimal, hrounds, fun hother => ?_⟩
  exact absurd (hrounds.unique hother) (by decide)

end ActionScript.Number
