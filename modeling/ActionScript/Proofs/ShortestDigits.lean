import ActionScript.Proofs.Decimal

/-! # The shortest decimal of a number

The grid of `count` digits of a number is that of its first `count` places. A decimal of as many
digits has one of the two neighbours of the number on the grid between itself and the number
(`Number.Positive.exists_neighbour`), so it is enough to search the neighbours on each grid. What
the search finds is read back, no decimal that is read back has fewer digits, and none of as many
is nearer (`Number.Positive.isShortest_of_shortest?`). -/

namespace ActionScript

/-- A decimal without factors ten that is read as a number, of the fewest digits, and of those
decimals the nearest. -/
structure Decimal.IsShortest (d : Decimal) (x : Number) : Prop where
  stripped : d.coefficient % 10 ≠ 0
  read : d.toNumber = x
  fewest : ∀ d' : Decimal, d'.toNumber = x → d.digits.length ≤ d'.digits.length
  nearest : ∀ d' : Decimal, d'.toNumber = x → d'.digits.length ≤ d.digits.length →
    |x.value - d.value| ≤ |x.value - d'.value|

namespace Number

/-- A finite number above zero. -/
structure Positive (x : Number) : Prop where
  isFinite : x.isFinite
  sign : x.isNegative = false
  nonzero : x.magnitude ≠ 0

/-- The exponent of the last of `count` places. -/
def gridExponent (x : Number) (count : Nat) : Int := x.decimalExponent - count + 1

/-- The decimal on the grid of `count` digits below a number. -/
def below (x : Number) (count : Nat) : Decimal :=
  ⟨⌊x.value / 10 ^ x.gridExponent count⌋₊, x.gridExponent count⟩

/-- The decimal on the grid of `count` digits above a number. -/
def above (x : Number) (count : Nat) : Decimal :=
  ⟨⌊x.value / 10 ^ x.gridExponent count⌋₊ + 1, x.gridExponent count⟩

/-- One of the two neighbours on the grid of `count` digits. -/
def Neighbour (x : Number) (count : Nat) (d : Decimal) : Prop :=
  d = x.below count ∨ d = x.above count

variable {x : Number} {count limit : Nat} {d g : Decimal}

theorem Neighbour.value_eq (hd : x.Neighbour count d) :
    d.value = d.coefficient * 10 ^ x.gridExponent count := by
  rcases hd with rfl | rfl <;> rfl

theorem zpow_gridExponent (x : Number) (hcount : 0 < count) :
    (10 : ℚ) ^ x.decimalExponent = (10 ^ (count - 1) : Nat) * 10 ^ x.gridExponent count := by
  rw [gridExponent, Nat.cast_pow, Nat.cast_ofNat, ← zpow_natCast, ← zpow_add₀ (by norm_num)]
  congr 1
  omega

theorem zpow_gridExponent_succ (x : Number) (count : Nat) :
    (10 : ℚ) ^ (x.decimalExponent + 1) = (10 ^ count : Nat) * 10 ^ x.gridExponent count := by
  rw [gridExponent, Nat.cast_pow, Nat.cast_ofNat, ← zpow_natCast, ← zpow_add₀ (by norm_num)]
  congr 1
  omega

namespace Positive

variable (hx : x.Positive)
include hx

theorem value_eq : x.value = x.magnitude / unitsPerOne := value_of_positive hx.sign

theorem value_pos : 0 < x.value := by
  rw [hx.value_eq]
  exact div_pos (by exact_mod_cast Nat.pos_of_ne_zero hx.nonzero) cast_unitsPerOne_pos

theorem nearest_value : nearest x.value = x := Number.nearest_value hx.isFinite hx.sign

/-- The value lies between the power of ten of the first digit and the next one. -/
theorem decimalExponent_spec :
    (10 : ℚ) ^ x.decimalExponent ≤ x.value ∧ x.value < 10 ^ (x.decimalExponent + 1) := by
  have hpos := Nat.pos_of_ne_zero hx.nonzero
  rw [hx.value_eq, decimalExponent]
  split
  · -- The first digit is that of the integer part.
    rename_i hle
    have hne : x.magnitude / unitsPerOne ≠ 0 := (Nat.div_pos hle unitsPerOne_pos).ne'
    obtain ⟨l, hlength, hlow, hhigh⟩ := Decimal.exists_length_toDigits hne
    rw [Nat.le_div_iff_mul_le unitsPerOne_pos] at hlow
    rw [Nat.div_lt_iff_lt_mul unitsPerOne_pos] at hhigh
    have hexp : ((l + 1 : Nat) : Int) - 1 = (l : Nat) := by omega
    have hexp' : ((l + 1 : Nat) : Int) - 1 + 1 = (l + 1 : Nat) := by omega
    rw [hlength, hexp', hexp, zpow_natCast, zpow_natCast, le_div_iff₀ cast_unitsPerOne_pos,
      div_lt_iff₀ cast_unitsPerOne_pos]
    exact ⟨by exact_mod_cast hlow, by exact_mod_cast hhigh⟩
  · -- As many zeros stand before the first digit as the reciprocal has digits.
    rename_i hlt
    have hunit := unitsPerOne_pos
    have hne : (unitsPerOne - 1) / x.magnitude ≠ 0 := (Nat.div_pos (by omega) hpos).ne'
    obtain ⟨l, hlength, hlow, hhigh⟩ := Decimal.exists_length_toDigits hne
    rw [Nat.le_div_iff_mul_le hpos] at hlow
    rw [Nat.div_lt_iff_lt_mul hpos] at hhigh
    have hexp : -((l + 1 : Nat) : Int) + 1 = -(l : Nat) := by omega
    rw [hlength, hexp, zpow_neg, zpow_neg, zpow_natCast, zpow_natCast,
      le_div_iff₀ cast_unitsPerOne_pos, div_lt_iff₀ cast_unitsPerOne_pos,
      inv_mul_le_iff₀ (by positivity), lt_inv_mul_iff₀ (by positivity)]
    have hlow' : 10 ^ l * x.magnitude < unitsPerOne := by omega
    have hhigh' : unitsPerOne ≤ 10 ^ (l + 1) * x.magnitude := by omega
    exact ⟨by exact_mod_cast hhigh', by exact_mod_cast hlow'⟩

theorem zpow_decimalExponent_le : (10 : ℚ) ^ x.decimalExponent ≤ x.value :=
  hx.decimalExponent_spec.1

theorem lt_zpow_decimalExponent : x.value < 10 ^ (x.decimalExponent + 1) :=
  hx.decimalExponent_spec.2

theorem inSteps_spec (k : Int) :
    0 < (x.inSteps k).2 ∧ ((x.inSteps k).1 : ℚ) / (x.inSteps k).2 = x.value / 10 ^ k := by
  rw [inSteps, hx.value_eq]
  split
  · rename_i hk
    refine ⟨Nat.mul_pos unitsPerOne_pos (Nat.pow_pos (by decide)), ?_⟩
    rw [Decimal.zpow_toNat hk, div_div]
    show (x.magnitude : ℚ) / (unitsPerOne * 10 ^ k.toNat : Nat) = _
    push_cast
    rfl
  · rename_i hk
    refine ⟨unitsPerOne_pos, ?_⟩
    rw [Decimal.zpow_neg_toNat (by omega)]
    show ((x.magnitude * 10 ^ (-k).toNat : Nat) : ℚ) / unitsPerOne = _
    push_cast
    rw [div_inv_eq_mul]
    ring

/-! ## Neighbours on a grid -/

theorem below_le (count : Nat) : (x.below count).value ≤ x.value := by
  have hpos := Decimal.ten_zpow_pos (x.gridExponent count)
  rw [below, Decimal.value, ← le_div_iff₀ hpos]
  exact Nat.floor_le (div_pos hx.value_pos hpos).le

omit hx in
theorem lt_above (x : Number) (count : Nat) : x.value < (x.above count).value := by
  have hpos := Decimal.ten_zpow_pos (x.gridExponent count)
  rw [above, Decimal.value, ← div_lt_iff₀ hpos]
  push_cast
  exact Nat.lt_floor_add_one _

theorem le_below (hd : d.digits.length ≤ count) (hle : d.value ≤ x.value) :
    d.value ≤ (x.below count).value := by
  have hpos := Decimal.ten_zpow_pos (x.gridExponent count)
  have hgrid (n : Nat) (hn : n * (10 : ℚ) ^ x.gridExponent count ≤ x.value) :
      n * (10 : ℚ) ^ x.gridExponent count ≤ (x.below count).value := by
    rw [below, Decimal.value]
    rw [← le_div_iff₀ hpos] at hn
    have hfloor : n ≤ ⌊x.value / 10 ^ x.gridExponent count⌋₊ := Nat.le_floor hn
    exact mul_le_mul_of_nonneg_right (by exact_mod_cast hfloor) hpos.le
  rcases le_or_gt ((10 : ℚ) ^ x.decimalExponent) d.value with hlow | hlow
  · obtain ⟨n, hn⟩ := Decimal.exists_on_grid hlow hd
    rw [← gridExponent] at hn
    rw [hn] at hle ⊢
    exact hgrid n hle
  · have hpower := zpow_gridExponent x (d.length_digits_pos.trans_le hd)
    refine hlow.le.trans ?_
    rw [hpower]
    exact hgrid _ (hpower ▸ hx.zpow_decimalExponent_le)

theorem above_le (hd : d.digits.length ≤ count) (hlt : x.value < d.value) :
    (x.above count).value ≤ d.value := by
  have hpos := Decimal.ten_zpow_pos (x.gridExponent count)
  obtain ⟨n, hn⟩ := Decimal.exists_on_grid (hx.zpow_decimalExponent_le.trans hlt.le) hd
  rw [← gridExponent] at hn
  rw [hn, ← div_lt_iff₀ hpos] at hlt
  have hfloor : ⌊x.value / 10 ^ x.gridExponent count⌋₊ + 1 ≤ n :=
    (Nat.floor_lt (div_pos hx.value_pos hpos).le).mpr hlt
  rw [hn, above, Decimal.value]
  exact mul_le_mul_of_nonneg_right (by exact_mod_cast hfloor) hpos.le

/-- Between a number and a decimal of `count` digits lies a neighbour on the grid. -/
theorem exists_neighbour (hd : d.digits.length ≤ count) : ∃ g, x.Neighbour count g ∧
    (d.value ≤ g.value ∧ g.value ≤ x.value ∨ x.value ≤ g.value ∧ g.value ≤ d.value) := by
  rcases le_or_gt d.value x.value with hle | hlt
  · exact ⟨_, .inl rfl, .inl ⟨hx.le_below hd hle, hx.below_le count⟩⟩
  · exact ⟨_, .inr rfl, .inr ⟨(lt_above x count).le, hx.above_le hd hlt⟩⟩

/-- What lies between a number and a decimal that is read as it is read as it too. -/
theorem toNumber_of_between (hread : d.toNumber = x)
    (hg : d.value ≤ g.value ∧ g.value ≤ x.value ∨ x.value ≤ g.value ∧ g.value ≤ d.value) :
    g.toNumber = x := by
  rw [Decimal.toNumber_eq_nearest] at hread ⊢
  rcases hg with ⟨hlow, hhigh⟩ | ⟨hlow, hhigh⟩
  · exact nearest_between hx.isFinite hread hx.nearest_value d.value_nonneg hlow hhigh
  · exact nearest_between hx.isFinite hx.nearest_value hread hx.value_pos.le hlow hhigh

omit hx in
/-- What lies between is nearer, or the same. -/
theorem abs_sub_le_of_between
    (hg : d.value ≤ g.value ∧ g.value ≤ x.value ∨ x.value ≤ g.value ∧ g.value ≤ d.value) :
    |x.value - g.value| ≤ |x.value - d.value| ∧
      (|x.value - g.value| = |x.value - d.value| → d.value = g.value) := by
  rcases hg with ⟨hlow, hhigh⟩ | ⟨hlow, hhigh⟩
  · rw [abs_of_nonneg (by linarith), abs_of_nonneg (by linarith)]
    exact ⟨by linarith, fun h => by linarith⟩
  · rw [abs_of_nonpos (by linarith), abs_of_nonpos (by linarith)]
    exact ⟨by linarith, fun h => by linarith⟩

/-- The neighbours on the grid have `count` digits, but for a power of ten above. -/
theorem coefficient_neighbour (hcount : 0 < count) (hd : x.Neighbour count d) :
    10 ^ (count - 1) ≤ d.coefficient ∧ d.coefficient ≤ 10 ^ count ∧ d.coefficient ≠ 0 := by
  have hten := Decimal.ten_zpow_pos (x.gridExponent count)
  have hlow : 10 ^ (count - 1) ≤ (x.below count).coefficient := by
    refine Nat.le_floor ?_
    rw [le_div_iff₀ hten, ← zpow_gridExponent x hcount]
    exact hx.zpow_decimalExponent_le
  have hhigh : (x.below count).coefficient < 10 ^ count := by
    refine (Nat.floor_lt (div_pos hx.value_pos hten).le).mpr ?_
    rw [div_lt_iff₀ hten, ← zpow_gridExponent_succ]
    exact hx.lt_zpow_decimalExponent
  have hpos : 0 < 10 ^ (count - 1) := Nat.pow_pos (by decide)
  have habove : (x.above count).coefficient = (x.below count).coefficient + 1 := rfl
  rcases hd with rfl | rfl <;> omega

theorem length_strip_neighbour (hcount : 0 < count) (hd : x.Neighbour count d) :
    d.strip.digits.length ≤ count := by
  obtain ⟨-, hle, hne⟩ := hx.coefficient_neighbour hcount hd
  exact Decimal.length_digits_strip_le hne hcount hle

/-! ## The search -/

/-- Which neighbour is taken: of two that are both read back, the nearer. -/
theorem readBack?_eq (count : Nat) :
    x.readBack? count =
      if (x.below count).toNumber = x then
        if (x.above count).toNumber = x then
          some (if (x.above count).value - x.value < x.value - (x.below count).value then
            x.above count else x.below count)
        else some (x.below count)
      else if (x.above count).toNumber = x then some (x.above count) else none := by
  obtain ⟨hden, hvalue⟩ := hx.inSteps_spec (x.gridExponent count)
  obtain ⟨num, den, hsteps⟩ : ∃ num den, x.inSteps (x.gridExponent count) = (num, den) :=
    ⟨_, _, rfl⟩
  rw [hsteps] at hden hvalue
  have hnearer : (x.above count).value - x.value < x.value - (x.below count).value ↔
      den < 2 * (num % den) := by
    have hpos : (0 : ℚ) < den := by exact_mod_cast hden
    have hten := Decimal.ten_zpow_pos (x.gridExponent count)
    have hnum : (num : ℚ) = den * (num / den : Nat) + (num % den : Nat) := by
      exact_mod_cast (Nat.div_add_mod num den).symm
    have hmiddle : (x.above count).value - x.value < x.value - (x.below count).value ↔
        2 * ((num / den : Nat) : ℚ) + 1 < 2 * (x.value / 10 ^ x.gridExponent count) := by
      rw [above, below, Decimal.value, Decimal.value, ← hvalue, Nat.floor_div_eq_div, hvalue,
        mul_div_assoc', lt_div_iff₀ hten]
      push_cast
      constructor <;> intro h <;> linarith
    rw [hmiddle, ← hvalue, mul_div_assoc', lt_div_iff₀ hpos, ← Nat.cast_lt (α := ℚ)]
    push_cast
    constructor <;> intro h <;> linarith
  simp only [hnearer]
  rw [readBack?, ← gridExponent, below, above]
  simp only [hsteps, ← hvalue, Nat.floor_div_eq_div]
  generalize Decimal.toNumber ⟨num / den, _⟩ = y
  generalize Decimal.toNumber ⟨num / den + 1, _⟩ = z
  rw [beq_eq_decide, beq_eq_decide]
  by_cases hy : y = x <;> by_cases hz : z = x <;> simp [hy, hz]

/-- If a neighbour is read back, one is taken. -/
theorem exists_readBack? (hd : x.Neighbour count d) (hread : d.toNumber = x) :
    ∃ g, x.readBack? count = some g := by
  rw [hx.readBack?_eq]
  rcases hd with rfl | rfl
  · rw [if_pos hread]
    split <;> exact ⟨_, rfl⟩
  · rw [if_pos hread, if_pos hread]
    split <;> exact ⟨_, rfl⟩

theorem readBack?_spec (h : x.readBack? count = some g) :
    g.toNumber = x ∧ x.Neighbour count g := by
  rw [hx.readBack?_eq] at h
  split at h
  · rename_i hbelow
    split at h
    · rename_i habove
      split at h <;> cases h
      · exact ⟨habove, .inr rfl⟩
      · exact ⟨hbelow, .inl rfl⟩
    · cases h
      exact ⟨hbelow, .inl rfl⟩
  · split at h
    · rename_i habove
      cases h
      exact ⟨habove, .inr rfl⟩
    · cases h

/-- Of two neighbours that are read back the nearer is taken. -/
theorem abs_sub_readBack?_le (h : x.readBack? count = some g) (hd : x.Neighbour count d)
    (hread : d.toNumber = x) : |x.value - g.value| ≤ |x.value - d.value| := by
  have hbelow : |x.value - (x.below count).value| = x.value - (x.below count).value :=
    abs_of_nonneg (sub_nonneg.mpr (hx.below_le count))
  have habove : |x.value - (x.above count).value| = (x.above count).value - x.value := by
    rw [abs_sub_comm]
    exact abs_of_pos (sub_pos.mpr (lt_above x count))
  rw [hx.readBack?_eq] at h
  rcases hd with rfl | rfl
  · rw [if_pos hread] at h
    split at h
    · split at h <;> cases h
      · rw [hbelow, habove]
        exact le_of_lt ‹_›
      · exact le_rfl
    · cases h
      exact le_rfl
  · rw [if_pos hread, if_pos hread] at h
    split at h
    · split at h <;> cases h
      · exact le_rfl
      · rw [hbelow, habove]
        exact not_lt.mp ‹_›
    · cases h
      exact le_rfl

omit hx in
/-- The grids are searched from the coarsest on. -/
theorem shortest?_spec (h : x.shortest? limit = some d) :
    ∃ n < limit, ∃ g, x.readBack? (n + 1) = some g ∧ g.strip = d ∧
      ∀ j < n, x.readBack? (j + 1) = none := by
  rw [shortest?, Option.map_eq_some_iff] at h
  obtain ⟨g, hfind, hstrip⟩ := h
  obtain ⟨before, n, after, hsplit, hg, hnone⟩ := List.findSome?_eq_some_iff.mp hfind
  have hmem (j : Nat) : j < limit ↔ j ∈ before ∨ j = n ∨ j ∈ after := by
    rw [← List.mem_range, hsplit, List.mem_append, List.mem_cons]
  have hsorted : (before ++ n :: after).Pairwise (· < ·) := hsplit ▸ List.pairwise_lt_range
  have hafter := (List.pairwise_cons.mp (List.pairwise_append.mp hsorted).2.1).1
  have hn : n < limit := (hmem n).mpr (.inr (.inl rfl))
  refine ⟨n, hn, g, hg, hstrip, fun j hj => ?_⟩
  rcases (hmem j).mp (hj.trans hn) with hbefore | rfl | hlater
  · exact hnone j hbefore
  · exact absurd hj (Nat.lt_irrefl j)
  · exact absurd (hafter j hlater) (Nat.not_lt.mpr hj.le)

/-- If a decimal is read back, so is one on the grid of as many digits. -/
theorem exists_readBack?_length (hread : d.toNumber = x) :
    ∃ n, d.digits.length = n + 1 ∧ ∃ g, x.readBack? (n + 1) = some g := by
  have hpos := d.length_digits_pos
  have hn : d.digits.length = d.digits.length - 1 + 1 := by omega
  obtain ⟨g, hg, hbetween⟩ := hx.exists_neighbour hn.le
  exact ⟨_, hn, hx.exists_readBack? hg (hx.toNumber_of_between hread hbetween)⟩

/-- The search finds the shortest decimal. -/
theorem isShortest_of_shortest? (h : x.shortest? limit = some d) :
    d.IsShortest x ∧ d.digits.length ≤ limit := by
  obtain ⟨n, hn, g, hg, rfl, hnone⟩ := shortest?_spec h
  obtain ⟨hread, hneighbour⟩ := hx.readBack?_spec hg
  obtain ⟨-, -, hne⟩ := hx.coefficient_neighbour n.succ_pos hneighbour
  have hlength := hx.length_strip_neighbour n.succ_pos hneighbour
  refine ⟨⟨Decimal.stripped_strip hne, ?_, fun d' hread' => ?_, fun d' hread' hfits => ?_⟩,
    hlength.trans hn⟩
  · rw [Decimal.toNumber_strip hne, hread]
  · obtain ⟨j, hj, g', hg'⟩ := hx.exists_readBack?_length hread'
    have hle : n ≤ j := by
      by_contra hlt
      rw [hnone j (by omega)] at hg'
      cases hg'
    omega
  · obtain ⟨g', hg', hbetween⟩ := hx.exists_neighbour (hfits.trans hlength)
    rw [Decimal.value_strip hne]
    exact (hx.abs_sub_readBack?_le hg hg' (hx.toNumber_of_between hread' hbetween)).trans
      (abs_sub_le_of_between hbetween).1

/-- The search finds a decimal if there is one of at most `limit` digits. -/
theorem exists_shortest? (hd : d.digits.length ≤ limit) (hread : d.toNumber = x) :
    ∃ s, x.shortest? limit = some s := by
  obtain ⟨n, hn, g, hg⟩ := hx.exists_readBack?_length hread
  refine Option.isSome_iff_exists.mp ?_
  rw [shortest?, Option.isSome_map, List.findSome?_isSome_iff]
  exact ⟨n, List.mem_range.mpr (by omega), by rw [hg]; rfl⟩

end Positive

end Number

end ActionScript
