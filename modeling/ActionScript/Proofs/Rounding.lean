import Mathlib.Algebra.Order.Field.Basic
import Mathlib.Algebra.Order.Floor.Semifield
import Mathlib.Algebra.Order.Ring.Abs
import Mathlib.Data.Nat.Log
import Mathlib.Data.Rat.Floor
import Mathlib.Tactic.FieldSimp
import Mathlib.Tactic.Linarith
import Mathlib.Tactic.Positivity
import Mathlib.Tactic.Ring
import ActionScript.Proofs.Number

/-! # Rounding to the nearest number

The number that an exact fraction is rounded to depends on the value of the fraction alone
(`Number.round_eq_nearest`). It grows with that value (`Number.roundUnits_mono`), so all values
between two that are rounded to one number are rounded to it as well (`Number.nearest_between`),
and it is off by half a unit of the last place of the number at most (`Number.abs_sub_value_le`). -/

namespace ActionScript.Number

variable {x : Number} {negative : Bool} {num den num' den' k m p u : Nat} {q r s : ℚ}

/-! ## Rounding to an integer -/

/-- The integers that a fraction is not rounded above, without a division. -/
theorem roundDiv_le_iff_mul (hden : 0 < den) :
    roundDiv num den ≤ k ↔
      2 * num < (2 * k + 1) * den ∨ 2 * num = (2 * k + 1) * den ∧ k % 2 = 0 := by
  have hlt := Nat.mod_lt num hden
  have hnum := Nat.div_add_mod num den
  rw [roundDiv]
  generalize num / den = i at *
  generalize num % den = j at *
  rcases Nat.lt_trichotomy k i with hk | rfl | hk
  · have hmul : (k + 1) * den ≤ den * i := by
      rw [Nat.mul_comm den]
      exact Nat.mul_le_mul_right den hk
    have hpart : (2 * k + 1) * den + den = 2 * ((k + 1) * den) := by ring
    split <;> omega
  · have hpart : (2 * k + 1) * den = 2 * (den * k) + den := by ring
    split <;> omega
  · have hmul : den * i + den ≤ k * den := by
      rw [← Nat.mul_succ, Nat.mul_comm]
      exact Nat.mul_le_mul_right den hk
    have hpart : (2 * k + 1) * den = 2 * (k * den) + den := by ring
    split <;> omega

theorem roundDiv_le_iff (hden : 0 < den) :
    roundDiv num den ≤ k ↔
      (num : ℚ) / den < k + 1 / 2 ∨ (num : ℚ) / den = k + 1 / 2 ∧ k % 2 = 0 := by
  have hpos : (0 : ℚ) < den := by exact_mod_cast hden
  rw [roundDiv_le_iff_mul hden, div_lt_iff₀ hpos, div_eq_iff hpos.ne', ← Nat.cast_lt (α := ℚ),
    ← Nat.cast_inj (R := ℚ)]
  push_cast
  have hlt : (2 : ℚ) * num < (2 * k + 1) * den ↔ (num : ℚ) < (k + 1 / 2) * den := by
    constructor <;> intro h <;> linarith
  have heq : (2 : ℚ) * num = (2 * k + 1) * den ↔ (num : ℚ) = (k + 1 / 2) * den := by
    constructor <;> intro h <;> linarith
  rw [hlt, heq]

theorem roundDiv_mono (hden : 0 < den) (hden' : 0 < den')
    (h : (num : ℚ) / den ≤ num' / den') : roundDiv num den ≤ roundDiv num' den' := by
  rw [roundDiv_le_iff hden]
  rcases (roundDiv_le_iff hden').mp le_rfl with hlt | ⟨heq, heven⟩
  · exact .inl (h.trans_lt hlt)
  · exact (h.trans_eq heq).lt_or_eq.imp_right fun heq => ⟨heq, heven⟩

/-- Rounding moves a fraction by a half at most. -/
theorem abs_sub_roundDiv_le (num : Nat) (hden : 0 < den) :
    |(num : ℚ) / den - roundDiv num den| ≤ 1 / 2 := by
  have hupper : (num : ℚ) / den ≤ roundDiv num den + 1 / 2 := by
    rcases (roundDiv_le_iff hden).mp le_rfl with hlt | ⟨heq, -⟩
    · exact hlt.le
    · exact heq.le
  have hlower : (roundDiv num den : ℚ) - 1 / 2 ≤ num / den := by
    cases hround : roundDiv num den with
    | zero =>
      have hnonneg : (0 : ℚ) ≤ num / den := by positivity
      push_cast
      linarith
    | succ k =>
      have hnot : ¬ roundDiv num den ≤ k := by omega
      rw [roundDiv_le_iff hden, not_or, not_lt] at hnot
      push_cast
      linarith [hnot.1]
  rw [abs_le]
  constructor <;> linarith

theorem roundDiv_eq_of_abs_lt (hden : 0 < den) (h : |(num : ℚ) / den - k| < 1 / 2) :
    roundDiv num den = k := by
  rw [abs_lt] at h
  refine le_antisymm ((roundDiv_le_iff hden).mpr (.inl (by linarith))) ?_
  by_contra hlt
  obtain ⟨j, rfl⟩ : ∃ j, k = j + 1 := ⟨k - 1, by omega⟩
  have hle : roundDiv num den ≤ j := by omega
  push_cast at h
  rcases (roundDiv_le_iff hden).mp hle with hlt | ⟨heq, -⟩ <;> linarith

/-- No integer is nearer to a fraction than the one that it is rounded to. -/
theorem abs_sub_roundDiv_le_abs_sub (hden : 0 < den) (k : Nat) :
    |(num : ℚ) / den - roundDiv num den| ≤ |(num : ℚ) / den - k| := by
  by_cases hk : |(num : ℚ) / den - k| < 1 / 2
  · rw [roundDiv_eq_of_abs_lt hden hk]
  · exact (abs_sub_roundDiv_le num hden).trans (not_lt.mp hk)

/-- What is as far from one value as from another is in the middle. -/
theorem two_mul_eq_of_abs_sub_eq (hne : r ≠ s) (h : |q - r| = |q - s|) : 2 * q = r + s := by
  rcases abs_eq_abs.mp h with heq | heq
  · exact absurd (sub_right_injective heq) hne
  · linarith

/-- From the middle of two integers a fraction is rounded to the even one. -/
theorem roundDiv_even (hden : 0 < den) (hk : k ≠ roundDiv num den)
    (h : |(num : ℚ) / den - k| = |(num : ℚ) / den - roundDiv num den|) :
    roundDiv num den % 2 = 0 := by
  have hmiddle : (num : ℚ) / den = (k + roundDiv num den) / 2 := by
    have := two_mul_eq_of_abs_sub_eq (by exact_mod_cast hk) h
    linarith
  have hhalf := abs_sub_roundDiv_le num hden
  rw [hmiddle, abs_le] at hhalf
  have hupper : (k : ℚ) ≤ roundDiv num den + 1 := by linarith [hhalf.1]
  have hlower : (roundDiv num den : ℚ) ≤ k + 1 := by linarith [hhalf.2]
  norm_cast at hupper hlower
  obtain habove | hbelow : k = roundDiv num den + 1 ∨ roundDiv num den = k + 1 := by omega
  · rw [habove] at hmiddle
    push_cast at hmiddle
    have hself : roundDiv num den ≤ roundDiv num den := le_rfl
    rcases (roundDiv_le_iff hden).mp hself with hlt | ⟨-, heven⟩
    · linarith
    · exact heven
  · have hnot : ¬ roundDiv num den ≤ k := by omega
    rw [roundDiv_le_iff hden, not_or] at hnot
    have hodd : k % 2 ≠ 0 := fun heven => by
      refine hnot.2 ⟨?_, heven⟩
      rw [hmiddle, hbelow]
      push_cast
      ring
    omega

/-! ## Rounding to a significand -/

/-- The unit exponent that a fraction of units is rounded at. -/
def unitExponent (num den : Nat) : Nat := (num / den).log2 - 52

/-- The significand that a fraction of units is rounded to; it may have a digit too many. -/
def significand (num den : Nat) : Nat := roundDiv num (den <<< unitExponent num den)

/-- The units that a fraction of units is rounded to, also those above the largest number. -/
def roundUnits (num den : Nat) : Nat := significand num den <<< unitExponent num den

theorem cast_shiftLeft (m p : Nat) : ((m <<< p : Nat) : ℚ) = m * 2 ^ p := by
  rw [Nat.shiftLeft_eq]
  push_cast
  rfl

theorem shiftLeft_pos (hden : 0 < den) (p : Nat) : 0 < den <<< p := by
  rw [Nat.shiftLeft_eq]
  exact Nat.mul_pos hden (Nat.two_pow_pos p)

theorem lt_two_pow_unitExponent (num den : Nat) :
    (num : ℚ) / den < 2 ^ (53 + unitExponent num den) := by
  have hfloor : (num : ℚ) / den < (num / den : Nat) + 1 := by
    rw [← Nat.floor_div_eq_div (K := ℚ)]
    exact Nat.lt_floor_add_one _
  have hlog : num / den + 1 ≤ 2 ^ ((num / den).log2 + 1) := Nat.lt_log2_self
  have hpow : 2 ^ ((num / den).log2 + 1) ≤ 2 ^ (53 + unitExponent num den) :=
    Nat.pow_le_pow_right Nat.two_pos (by rw [unitExponent]; omega)
  have hcast : ((num / den : Nat) : ℚ) + 1 ≤ 2 ^ (53 + unitExponent num den) := by
    exact_mod_cast hlog.trans hpow
  exact hfloor.trans_le hcast

theorem two_pow_unitExponent_le (hp : unitExponent num den ≠ 0) :
    (2 : ℚ) ^ (52 + unitExponent num den) ≤ num / den := by
  have hlog : 52 + unitExponent num den = (num / den).log2 := by
    rw [unitExponent] at hp ⊢
    omega
  have hne : num / den ≠ 0 := by
    intro hzero
    rw [hzero] at hlog
    exact absurd hlog (by simp)
  have hle : 2 ^ (num / den).log2 ≤ num / den := Nat.log2_self_le hne
  rw [hlog]
  calc (2 : ℚ) ^ (num / den).log2 ≤ (num / den : Nat) := by exact_mod_cast hle
    _ ≤ num / den := by
      rw [← Nat.floor_div_eq_div (K := ℚ)]
      exact Nat.floor_le (by positivity)

theorem unitExponent_mono (h : (num : ℚ) / den ≤ num' / den') :
    unitExponent num den ≤ unitExponent num' den' := by
  have hfloor : num / den ≤ num' / den' := by
    rw [← Nat.floor_div_eq_div (K := ℚ), ← Nat.floor_div_eq_div (K := ℚ)]
    exact Nat.floor_mono h
  rw [unitExponent, unitExponent, Nat.log2_eq_log_two, Nat.log2_eq_log_two]
  exact Nat.sub_le_sub_right (Nat.log_mono_right hfloor) 52

theorem div_shiftLeft (num den p : Nat) :
    (num : ℚ) / (den <<< p : Nat) = num / den / 2 ^ p := by
  rw [cast_shiftLeft, div_div]

theorem significand_le (num : Nat) (hden : 0 < den) : significand num den ≤ 2 ^ 53 := by
  rw [significand, roundDiv_le_iff (shiftLeft_pos hden _), div_shiftLeft]
  have hlt := lt_two_pow_unitExponent num den
  rw [pow_add, ← div_lt_iff₀ (by positivity)] at hlt
  push_cast
  exact .inl (hlt.trans (by norm_num))

theorem le_significand (hden : 0 < den) (hp : unitExponent num den ≠ 0) :
    2 ^ 52 ≤ significand num den := by
  have hle := two_pow_unitExponent_le hp
  rw [pow_add, ← le_div_iff₀ (by positivity)] at hle
  by_contra hlt
  have hbelow : significand num den ≤ 2 ^ 52 - 1 := by omega
  rw [significand, roundDiv_le_iff (shiftLeft_pos hden _), div_shiftLeft] at hbelow
  push_cast at hbelow
  rcases hbelow with hlt | ⟨heq, -⟩
  · exact absurd (hle.trans_lt hlt) (by norm_num)
  · exact absurd (hle.trans_eq heq) (by norm_num)

/-- Larger fractions are not rounded to fewer units. -/
theorem roundUnits_mono (hden : 0 < den) (hden' : 0 < den')
    (h : (num : ℚ) / den ≤ num' / den') : roundUnits num den ≤ roundUnits num' den' := by
  rw [roundUnits, roundUnits, Nat.shiftLeft_eq, Nat.shiftLeft_eq]
  rcases (unitExponent_mono h).eq_or_lt with hexp | hexp
  · rw [← hexp]
    refine Nat.mul_le_mul_right _ ?_
    rw [significand, significand, ← hexp]
    refine roundDiv_mono (shiftLeft_pos hden _) (shiftLeft_pos hden' _) ?_
    rw [div_shiftLeft, div_shiftLeft]
    gcongr
  · -- The significands of the two do not meet: the one is at most the least normal one doubled.
    calc significand num den * 2 ^ unitExponent num den
        ≤ 2 ^ 53 * 2 ^ unitExponent num den := Nat.mul_le_mul_right _ (significand_le num hden)
      _ = 2 ^ 52 * 2 ^ (unitExponent num den + 1) := by rw [pow_succ 2 52, pow_succ]; ring
      _ ≤ significand num' den' * 2 ^ unitExponent num' den' :=
        Nat.mul_le_mul (le_significand hden' (by omega))
          (Nat.pow_le_pow_right Nat.two_pos hexp)

/-- Rounding moves a fraction of units by half a step at most. -/
theorem abs_sub_roundUnits_le (num : Nat) (hden : 0 < den) :
    |(num : ℚ) / den - roundUnits num den| ≤ 2 ^ unitExponent num den / 2 := by
  have herror := abs_sub_roundDiv_le num (shiftLeft_pos hden (unitExponent num den))
  rw [div_shiftLeft, ← significand] at herror
  have hpos : (0 : ℚ) < 2 ^ unitExponent num den := by positivity
  rw [roundUnits, cast_shiftLeft]
  calc |(num : ℚ) / den - significand num den * 2 ^ unitExponent num den|
      = |(num : ℚ) / den / 2 ^ unitExponent num den - significand num den| *
          2 ^ unitExponent num den := by
        rw [← abs_of_pos hpos, ← abs_mul, abs_of_pos hpos, sub_mul, div_mul_cancel₀ _ hpos.ne']
    _ ≤ 1 / 2 * 2 ^ unitExponent num den := by gcongr
    _ = 2 ^ unitExponent num den / 2 := by ring

/-- Below `2 ^ 53` units no step is longer than one of them. -/
theorem roundUnits_eq_of_abs_lt (hden : 0 < den) (hu : u < 2 ^ 53)
    (h : |(num : ℚ) / den - u| < 1 / 2) : roundUnits num den = u := by
  have hfloor : num / den ≤ u := by
    rw [← Nat.floor_div_eq_div (K := ℚ), ← Nat.lt_add_one_iff]
    refine (Nat.floor_lt (by positivity)).mpr ?_
    push_cast
    linarith [(abs_lt.mp h).2]
  have hexp : unitExponent num den = 0 := by
    have hlog : (num / den).log2 < 53 := by
      rcases Nat.eq_zero_or_pos (num / den) with hzero | hpos
      · rw [hzero]
        decide
      · exact (Nat.log2_lt hpos.ne').mpr (hfloor.trans_lt hu)
    rw [unitExponent]
    omega
  rw [roundUnits, significand, hexp, Nat.shiftLeft_zero, Nat.shiftLeft_zero]
  exact roundDiv_eq_of_abs_lt hden h

/-! ## Numbers and their units -/

theorem Has.eq {y : Number} (hx : x.Has negative u) (hy : y.Has negative u) : x = y := by
  obtain ⟨hfinite, hsign, hunits⟩ := hx
  obtain ⟨hfinite', hsign', hunits'⟩ := hy
  cases x with
  | nan | infinite => cases hfinite
  | finite negative m p h =>
    cases y with
    | nan | infinite => cases hfinite'
    | finite negative' m' p' h' =>
      obtain rfl : negative = negative' := hsign.trans hsign'.symm
      obtain ⟨rfl, rfl⟩ := h.eq_of_units h' (hunits.trans hunits'.symm)
      rfl

/-- A significand with a digit too many stands for the least normal one a step higher. -/
theorem round_eq_ofParts (num : Nat) (hden : 0 < den) (negative : Bool) :
    ∃ m p, round negative num den = ofParts negative m p ∧ m <<< p = roundUnits num den ∧
      m < 2 ^ 53 ∧ (2 ^ 52 ≤ m ∨ p = 0) ∧ unitExponent num den ≤ p := by
  have hle := significand_le num hden
  have hround : round negative num den =
      if significand num den = 0x20000000000000 then
        ofParts negative 0x10000000000000 (unitExponent num den + 1)
      else ofParts negative (significand num den) (unitExponent num den) := rfl
  rw [hround]
  split
  · rename_i hfull
    refine ⟨_, _, rfl, ?_, by decide, .inl (by decide), Nat.le_succ _⟩
    rw [roundUnits, hfull, Nat.shiftLeft_eq, Nat.shiftLeft_eq, pow_succ]
    ring
  · rename_i hfull
    refine ⟨_, _, rfl, rfl, lt_of_le_of_ne hle hfull, ?_, le_rfl⟩
    by_cases hp : unitExponent num den = 0
    · exact .inr hp
    · exact .inl (le_significand hden hp)

/-- A fraction is rounded to the number with the units that it is rounded to. -/
theorem round_eq_iff (hden : 0 < den) (hx : x.isFinite) :
    round negative num den = x ↔ x.Has negative (roundUnits num den) := by
  obtain ⟨m, p, hround, hunits, hlt, hnormal, -⟩ := round_eq_ofParts num hden negative
  rw [hround, ← hunits, ofParts]
  split
  · rename_i hcanonical
    have hhas : (finite negative m p hcanonical).Has negative (m <<< p) := ⟨rfl, rfl, rfl⟩
    exact ⟨fun h => h ▸ hhas, hhas.eq⟩
  · -- Every number has fewer units than what is rounded above the largest one.
    rename_i hcanonical
    have hp : 2045 < p := by
      by_contra hp
      exact hcanonical ⟨hlt, hnormal, by omega⟩
    refine ⟨fun h => ?_, fun h => ?_⟩
    · subst h
      cases hx
    · obtain ⟨m', p', hcanonical', hunits'⟩ := representable_magnitude x
      have hlow : 2 ^ 52 ≤ m := by omega
      have hexp : p' + 1 ≤ p := by
        have := hcanonical'.le
        omega
      have hlt : m' <<< p' < m <<< p := by
        rw [Nat.shiftLeft_eq, Nat.shiftLeft_eq]
        calc m' * 2 ^ p' < 2 ^ 53 * 2 ^ p' :=
              Nat.mul_lt_mul_of_pos_right hcanonical'.lt (Nat.two_pow_pos p')
          _ = 2 ^ 52 * 2 ^ (p' + 1) := by rw [pow_succ 2 52, pow_succ]; ring
          _ ≤ m * 2 ^ p := Nat.mul_le_mul hlow (Nat.pow_le_pow_right Nat.two_pos hexp)
      exact absurd (hunits'.trans h.magnitude) hlt.ne

theorem round_congr (hden : 0 < den) (hden' : 0 < den') (h : (num : ℚ) / den = num' / den')
    (negative : Bool) : round negative num den = round negative num' den' := by
  have hexp : unitExponent num den = unitExponent num' den' :=
    le_antisymm (unitExponent_mono h.le) (unitExponent_mono h.ge)
  have hparts : significand num den = significand num' den' := by
    have hdiv : (num : ℚ) / (den <<< unitExponent num den : Nat) =
        num' / (den' <<< unitExponent num' den' : Nat) := by
      rw [div_shiftLeft, div_shiftLeft, h, hexp]
    exact le_antisymm (roundDiv_mono (shiftLeft_pos hden _) (shiftLeft_pos hden' _) hdiv.le)
      (roundDiv_mono (shiftLeft_pos hden' _) (shiftLeft_pos hden _) hdiv.ge)
  show (if significand num den = 0x20000000000000 then
      ofParts negative 0x10000000000000 (unitExponent num den + 1)
    else ofParts negative (significand num den) (unitExponent num den)) = _
  rw [hparts, hexp]
  rfl

/-! ## Exact values -/

/-- The exact value; zero for what is not finite. -/
def value (x : Number) : ℚ := x.scaled / unitsPerOne

/-- The number nearest to a value that is not negative; from the middle of two the one with an even
significand. -/
def nearest (q : ℚ) : Number := round false (q * unitsPerOne).num.toNat (q * unitsPerOne).den

theorem cast_unitsPerOne_pos : (0 : ℚ) < unitsPerOne := by exact_mod_cast unitsPerOne_pos

theorem value_eq (x : Number) :
    x.value = (if x.isNegative then -(x.magnitude : ℚ) else x.magnitude) / unitsPerOne := by
  rw [value]
  cases x with
  | nan | infinite => simp [scaled, magnitude]
  | finite negative m p h =>
    rw [scaled, magnitude, isNegative]
    cases negative with
    | true => rw [cond_true, if_pos rfl, Int.cast_neg, Int.cast_natCast]
    | false => rw [cond_false, if_neg Bool.false_ne_true, Int.cast_natCast]

theorem value_of_positive (hx : x.isNegative = false) : x.value = x.magnitude / unitsPerOne := by
  rw [value_eq, hx, if_neg Bool.false_ne_true]

theorem value_ofNat {n : Nat} (hn : n < 2 ^ 53) : (ofNat n).value = n := by
  have hhas := ofNat_has hn
  rw [value_of_positive hhas.sign, hhas.magnitude, Nat.cast_mul,
    mul_div_cancel_right₀ _ cast_unitsPerOne_pos.ne']

theorem num_div_den (hq : 0 ≤ q) :
    ((q * unitsPerOne).num.toNat : ℚ) / (q * unitsPerOne).den = q * unitsPerOne := by
  have hnonneg : 0 ≤ q * unitsPerOne := mul_nonneg hq cast_unitsPerOne_pos.le
  have hnum : ((q * unitsPerOne).num.toNat : ℚ) = (q * unitsPerOne).num := by
    exact_mod_cast Int.toNat_of_nonneg (Rat.num_nonneg.mpr hnonneg)
  rw [hnum, Rat.num_div_den]

/-- Rounding looks at the value of a fraction of units alone. -/
theorem round_eq_nearest (hden : 0 < den) (h : (num : ℚ) / den = q * unitsPerOne) :
    round false num den = nearest q := by
  have hq : 0 ≤ q := by
    refine nonneg_of_mul_nonneg_left ?_ cast_unitsPerOne_pos
    rw [← h]
    positivity
  refine round_congr hden (q * unitsPerOne).den_pos ?_ false
  rw [h, num_div_den hq]

/-- The units that a value is rounded to. -/
def nearestUnits (q : ℚ) : Nat :=
  roundUnits (q * unitsPerOne).num.toNat (q * unitsPerOne).den

theorem nearest_eq_iff (hx : x.isFinite) : nearest q = x ↔ x.Has false (nearestUnits q) :=
  round_eq_iff (q * unitsPerOne).den_pos hx

theorem nearestUnits_mono (hq : 0 ≤ q) (h : q ≤ r) : nearestUnits q ≤ nearestUnits r := by
  refine roundUnits_mono (Rat.den_pos _) (Rat.den_pos _) ?_
  rw [num_div_den hq, num_div_den (hq.trans h)]
  exact mul_le_mul_of_nonneg_right h cast_unitsPerOne_pos.le

/-- What lies between two values that are rounded to one number is rounded to it. -/
theorem nearest_between (hx : x.isFinite) (hq : nearest q = x) (hs : nearest s = x) (hpos : 0 ≤ q)
    (hqr : q ≤ r) (hrs : r ≤ s) : nearest r = x := by
  have hlow := (nearest_eq_iff hx).mp hq
  have hhigh := (nearest_eq_iff hx).mp hs
  have hunits : nearestUnits r = nearestUnits q := by
    refine le_antisymm ?_ (nearestUnits_mono hpos hqr)
    rw [← hlow.magnitude, hhigh.magnitude]
    exact nearestUnits_mono (hpos.trans hqr) hrs
  rw [nearest_eq_iff hx, hunits]
  exact hlow

/-- A number is the one nearest to its value. -/
theorem nearest_value (hx : x.isFinite) (hpos : x.isNegative = false) : nearest x.value = x := by
  have hunits : (x.magnitude : ℚ) / (1 : Nat) = x.value * unitsPerOne := by
    rw [value_of_positive hpos, div_mul_cancel₀ _ cast_unitsPerOne_pos.ne', Nat.cast_one, div_one]
  rw [← round_eq_nearest Nat.one_pos hunits]
  exact (round_has (representable_magnitude x) false).eq ⟨hx, hpos, rfl⟩

/-- A value is at most half a unit of the last place away from the number that it is rounded
to. -/
theorem abs_sub_value_le {h : Canonical m p} (hq : 0 ≤ q)
    (hround : nearest q = .finite false m p h) :
    |q - value (.finite false m p h)| ≤ 2 ^ p / 2 / unitsPerOne := by
  have hhas := (nearest_eq_iff rfl).mp hround
  obtain ⟨m', p', hparts, hunits, hlt, hnormal, hexp⟩ :=
    round_eq_ofParts (q * unitsPerOne).num.toNat (q * unitsPerOne).den_pos false
  have hp : p' = p := by
    have hof : ofParts false m' p' = .finite false m p h := hparts.symm.trans hround
    rw [ofParts] at hof
    split at hof
    · cases hof
      rfl
    · cases hof
  have herror := abs_sub_roundUnits_le (q * unitsPerOne).num.toNat
    (q * unitsPerOne).den_pos
  rw [num_div_den hq] at herror
  have hpow : (2 : ℚ) ^ unitExponent (q * unitsPerOne).num.toNat (q * unitsPerOne).den ≤ 2 ^ p :=
    pow_le_pow_right₀ (by norm_num) (hp ▸ hexp)
  rw [value_of_positive rfl, hhas.magnitude, le_div_iff₀ cast_unitsPerOne_pos,
    ← abs_of_pos cast_unitsPerOne_pos, ← abs_mul, abs_of_pos cast_unitsPerOne_pos, sub_mul,
    div_mul_cancel₀ _ cast_unitsPerOne_pos.ne']
  exact herror.trans (by linarith)

/-- Less than half of the least positive number away, a value is rounded to a number whose last
place is that one. -/
theorem nearest_eq_of_abs_lt {h : Canonical m 0} (hq : 0 ≤ q)
    (hnear : |q - value (.finite false m 0 h)| < 1 / 2 / unitsPerOne) :
    nearest q = .finite false m 0 h := by
  rw [value_of_positive rfl, lt_div_iff₀ cast_unitsPerOne_pos,
    ← abs_of_pos cast_unitsPerOne_pos, ← abs_mul, abs_of_pos cast_unitsPerOne_pos, sub_mul,
    div_mul_cancel₀ _ cast_unitsPerOne_pos.ne'] at hnear
  have hunits : nearestUnits q = m <<< 0 := by
    refine roundUnits_eq_of_abs_lt (Rat.den_pos _) h.lt ?_
    rw [num_div_den hq]
    exact hnear
  rw [nearest_eq_iff rfl, hunits]
  exact ⟨rfl, rfl, rfl⟩

theorem nearest_of_small (hq : 0 ≤ q) (h : q < 1 / 2 / unitsPerOne) : nearest q = zero false := by
  have hzero : value (.finite false 0 0 canonical_zero) = 0 := by
    rw [value_of_positive rfl, magnitude, Nat.zero_shiftLeft, Nat.cast_zero, zero_div]
  refine nearest_eq_of_abs_lt hq ?_
  rwa [hzero, sub_zero, abs_of_nonneg hq]

theorem nearest_of_large {j : Nat} (hj : 1024 ≤ j) (h : 2 ^ j ≤ q) :
    nearest q = .infinite false := by
  obtain ⟨k, hk, hunit⟩ := exists_unitsPerOne
  have hq : 0 ≤ q := le_trans (by positivity) h
  obtain ⟨m, p, hround, -, -, -, hexp⟩ :=
    round_eq_ofParts (q * unitsPerOne).num.toNat (q * unitsPerOne).den_pos false
  have hfloor : 2 ^ (j + k) ≤ (q * unitsPerOne).num.toNat / (q * unitsPerOne).den := by
    rw [← Nat.floor_div_eq_div (K := ℚ), num_div_den hq]
    refine Nat.le_floor ?_
    rw [hunit]
    push_cast
    rw [pow_add]
    exact mul_le_mul_of_nonneg_right h (by positivity)
  have hlog := (Nat.le_log2 (Nat.ne_of_gt (lt_of_lt_of_le (Nat.two_pow_pos _) hfloor))).mpr hfloor
  have hp : ¬ Canonical m p := fun hcanonical => by
    have := hcanonical.le
    rw [unitExponent] at hexp
    omega
  rw [nearest, hround, ofParts, dif_neg hp]

end ActionScript.Number
