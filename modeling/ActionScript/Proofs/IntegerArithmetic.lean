import ActionScript.Number.Integer
import ActionScript.Proofs.Rounding

/-! # Exact arithmetic of integers

Sums, differences and products of integers among the numbers are exact as long as the result is
among them too, as all integers below `2 ^ 53` are (`IsInt.add`, `IsInt.sub`, `IsInt.mul`). A
quotient may be rounded, but for a dividend below `2 ^ 53` never up to the next integer, so that it
is exact once its fraction is cut off (`Has.trunc_div`). -/

namespace ActionScript.Number

variable {x y : Number} {negative sign : Bool} {a b z : Int} {n k u v num den : Nat}

/-- The number is an integer; zero is either of the two zeros. -/
structure IsInt (x : Number) (a : Int) : Prop where
  isFinite : x.isFinite
  scaled : x.scaled = a * unitsPerOne

/-- The integer is among the numbers. -/
def HasInt (a : Int) : Prop := ∃ x : Number, x.IsInt a

theorem magnitude_eq_natAbs (x : Number) : x.magnitude = x.scaled.natAbs := by
  cases x with
  | nan | infinite => rfl
  | finite negative m p h =>
    cases negative with
    | false => exact (Int.natAbs_natCast _).symm
    | true => exact ((Int.natAbs_neg _).trans (Int.natAbs_natCast _)).symm

theorem Has.scaled_eq (hx : x.Has negative u) : x.scaled = if negative then -(u : Int) else u := by
  obtain ⟨hfinite, rfl, rfl⟩ := hx
  cases x with
  | nan | infinite => cases hfinite
  | finite negative m p h =>
    show cond negative (-((m <<< p : Nat) : Int)) (m <<< p : Nat) =
      if negative then -((m <<< p : Nat) : Int) else (m <<< p : Nat)
    cases negative with
    | false => rw [cond_false, if_neg Bool.false_ne_true]
    | true => rw [cond_true, if_pos rfl]

theorem Has.isZero_iff (hx : x.Has negative u) : x.isZero ↔ u = 0 := by
  obtain ⟨hfinite, rfl, rfl⟩ := hx
  cases x with
  | nan | infinite => cases hfinite
  | finite negative m p h =>
    show (m == 0) = true ↔ m <<< p = 0
    rw [beq_iff_eq, Nat.shiftLeft_eq, Nat.mul_eq_zero]
    exact (or_iff_left (Nat.two_pow_pos p).ne').symm

/-- The product of two values has the product of the magnitudes. -/
theorem Has.scaled_mul (hx : x.Has negative u) (hy : y.Has sign v) :
    x.scaled * y.scaled = if (negative != sign) then -((u * v : Nat) : Int) else (u * v : Nat) := by
  rw [hx.scaled_eq, hy.scaled_eq, Int.natCast_mul]
  cases negative <;> cases sign <;> simp

/-- An integral number of units that is one of a number is not rounded. -/
theorem round_scaled (hz : Representable z.natAbs) :
    (round (decide (z < 0)) z.natAbs 1).isFinite ∧
      (round (decide (z < 0)) z.natAbs 1).scaled = z := by
  have hround := round_has hz (decide (z < 0))
  refine ⟨hround.isFinite, ?_⟩
  rw [hround.scaled_eq]
  by_cases hneg : z < 0
  · rw [decide_eq_true hneg, if_pos rfl]
    omega
  · rw [decide_eq_false hneg, if_neg Bool.false_ne_true]
    omega

/-- Integers of 53 bits are representable. -/
theorem representable_int (ha : a.natAbs < 2 ^ 53) : Representable (a * unitsPerOne).natAbs := by
  rw [Int.natAbs_mul, Int.natAbs_natCast]
  exact exists_canonical ha

/-- Integers of 53 bits are represented exactly. -/
theorem isInt_ofInt (ha : a.natAbs < 2 ^ 53) : (ofInt a).IsInt a := by
  have hunit : (0 : Int) < unitsPerOne := by exact_mod_cast unitsPerOne_pos
  have hsign : decide (a < 0) = decide (a * unitsPerOne < 0) := by
    rw [decide_eq_decide, ← not_le, ← not_le, mul_nonneg_iff_of_pos_right hunit]
  have hround : ofInt a = round (decide (a * unitsPerOne < 0)) (a * unitsPerOne).natAbs 1 := by
    rw [ofInt, hsign, Int.natAbs_mul, Int.natAbs_natCast]
  obtain ⟨hfinite, hscaled⟩ := round_scaled (representable_int ha)
  rw [← hround] at hfinite hscaled
  exact ⟨hfinite, hscaled⟩

theorem Has.isInt_signed (hx : x.Has negative (n * unitsPerOne)) :
    x.IsInt (if negative then -(n : Int) else n) := by
  refine ⟨hx.isFinite, ?_⟩
  rw [hx.scaled_eq, Int.natCast_mul]
  split
  · exact (Int.neg_mul ..).symm
  · rfl

theorem Has.isInt (hx : x.Has false (n * unitsPerOne)) : x.IsInt n := hx.isInt_signed

theorem zero_isInt (negative : Bool) : (zero negative).IsInt 0 := by
  have hhas : (zero negative).Has negative 0 := ⟨rfl, rfl, Nat.zero_shiftLeft 0⟩
  refine ⟨rfl, ?_⟩
  rw [hhas.scaled_eq]
  simp

theorem isInt_ofNat (hn : n < 2 ^ 53) : (ofNat n).IsInt n := (ofNat_has hn).isInt

theorem isInt_zero : (0 : Number).IsInt 0 := isInt_ofNat (by decide)

theorem hasInt_of_lt (ha : a.natAbs < 2 ^ 53) : HasInt a := ⟨_, isInt_ofInt ha⟩

/-- A whole number is its own integer. -/
theorem isInt_of_isInteger (hx : x.isInteger) : x.IsInt x.toInt :=
  ⟨isFinite_of_isInteger hx, scaled_of_isInteger hx⟩

namespace IsInt

/-- The magnitude of a whole number counts units of one. -/
theorem has (hx : x.IsInt a) : x.Has x.isNegative (a.natAbs * unitsPerOne) := by
  refine ⟨hx.isFinite, rfl, ?_⟩
  rw [magnitude_eq_natAbs, hx.scaled, Int.natAbs_mul, Int.natAbs_natCast]

theorem isInteger (hx : x.IsInt a) : x.isInteger := by
  have hmagnitude := hx.has.magnitude
  have hfinite := hx.isFinite
  cases x with
  | nan | infinite => cases hfinite
  | finite =>
    rw [Number.isInteger, hmagnitude, Nat.mul_mod_left]
    rfl

theorem toInt_eq (hx : x.IsInt a) : x.toInt = a := by
  have hunit : (unitsPerOne : Int) ≠ 0 := by exact_mod_cast unitsPerOne_pos.ne'
  refine Int.eq_of_mul_eq_mul_right hunit ?_
  rw [← scaled_of_isInteger hx.isInteger, hx.scaled]

/-- Whole numbers of 53 bits fit in the wider words. -/
theorem toInt64_eq (hx : x.IsInt a) (ha : a.natAbs < 2 ^ 53) : x.toInt64 = a := by
  have hint := hx.has.toInt_eq
  rw [Nat.mul_div_cancel _ unitsPerOne_pos, hx.toInt_eq] at hint
  exact (hx.has.toInt64_eq ha).trans hint.symm

/-- Whole numbers are ordered as their integers. -/
theorem lt_iff (hx : x.IsInt a) (hy : y.IsInt b) : lt x y ↔ a < b := by
  rw [lt_iff_toInt_lt hx.isInteger hy.isInteger, hx.toInt_eq, hy.toInt_eq]

theorem le_iff (hx : x.IsInt a) (hy : y.IsInt b) : le x y ↔ a ≤ b := by
  rw [le_iff_toInt_le hx.isInteger hy.isInteger, hx.toInt_eq, hy.toInt_eq]

/-- Both zeros are the integer zero. -/
theorem isZero_iff (hx : x.IsInt a) : x.isZero ↔ a = 0 := by
  rw [hx.has.isZero_iff, Nat.mul_eq_zero, Int.natAbs_eq_zero]
  exact or_iff_left unitsPerOne_pos.ne'

theorem representable (hx : x.IsInt a) : Representable (a * unitsPerOne).natAbs := by
  rw [← hx.scaled, ← magnitude_eq_natAbs]
  exact representable_magnitude x

/-! ## Sums and products -/

/-- Negation is exact on whole numbers. -/
theorem neg (hx : x.IsInt a) : (-x).IsInt (-a) := by
  obtain ⟨hfinite, hscaled⟩ := hx
  cases x with
  | nan | infinite => cases hfinite
  | finite negative m p h =>
    refine ⟨rfl, ?_⟩
    rw [Int.neg_mul, ← hscaled]
    cases negative with
    | false => rfl
    | true => exact (Int.neg_neg _).symm

theorem abs (hx : x.IsInt a) : x.abs.Has false (a.natAbs * unitsPerOne) := by
  have hmagnitude := hx.has.magnitude
  have hfinite := hx.isFinite
  cases x with
  | nan | infinite => cases hfinite
  | finite => exact ⟨rfl, rfl, hmagnitude⟩

/-- Whole numbers are their own truncations. -/
theorem trunc (hx : x.IsInt a) : x.trunc.IsInt a := by
  have htrunc := hx.has.trunc
  rw [Nat.mul_div_cancel _ unitsPerOne_pos] at htrunc
  refine ⟨htrunc.isFinite, ?_⟩
  rw [htrunc.scaled_eq, ← hx.has.scaled_eq, hx.scaled]

/-- A sum of whole numbers is exact when it is representable. -/
theorem add (hx : x.IsInt a) (hy : y.IsInt b) (hsum : HasInt (a + b)) :
    (x + y).IsInt (a + b) := by
  obtain ⟨z, hz⟩ := hsum
  have hscaled : x.scaled + y.scaled = (a + b) * unitsPerOne := by
    rw [hx.scaled, hy.scaled, Int.add_mul]
  have hxfinite := hx.isFinite
  have hyfinite := hy.isFinite
  cases x with
  | nan | infinite => cases hxfinite
  | finite s m p h =>
    cases y with
    | nan | infinite => cases hyfinite
    | finite t m' p' h' =>
      show (if (finite s m p h).scaled + (finite t m' p' h').scaled = 0 then zero (s && t)
        else round (decide ((finite s m p h).scaled + (finite t m' p' h').scaled < 0))
          ((finite s m p h).scaled + (finite t m' p' h').scaled).natAbs 1).IsInt (a + b)
      rw [hscaled]
      split
      · rename_i hzero
        refine ⟨rfl, ?_⟩
        rw [(zero_isInt _).scaled, hzero, Int.zero_mul]
      · obtain ⟨hfinite, hround⟩ := round_scaled hz.representable
        exact ⟨hfinite, hround⟩

/-- A difference of whole numbers is exact when it is representable. -/
theorem sub (hx : x.IsInt a) (hy : y.IsInt b) (hdiff : HasInt (a - b)) :
    (x - y).IsInt (a - b) := by
  rw [Int.sub_eq_add_neg] at hdiff ⊢
  exact hx.add hy.neg hdiff

/-- A product of whole numbers is exact when it is representable. -/
theorem mul (hx : x.IsInt a) (hy : y.IsInt b) (hproduct : HasInt (a * b)) :
    (x * y).IsInt (a * b) := by
  obtain ⟨z, hz⟩ := hproduct
  have hunits : Representable ((a * b).natAbs * unitsPerOne) :=
    hz.has.magnitude ▸ representable_magnitude z
  have hround := round_has hunits (x.isNegative != y.isNegative)
  have hmul : x * y = round (x.isNegative != y.isNegative) ((a * b).natAbs * unitsPerOne) 1 := by
    have hxmagnitude := hx.has.magnitude
    have hymagnitude := hy.has.magnitude
    have hxfinite := hx.isFinite
    have hyfinite := hy.isFinite
    cases x with
    | nan | infinite => cases hxfinite
    | finite s m p h =>
      cases y with
      | nan | infinite => cases hyfinite
      | finite t m' p' h' =>
        show round (s != t) ((finite s m p h).magnitude * (finite t m' p' h').magnitude)
          unitsPerOne = _
        have hunit := cast_unitsPerOne_pos.ne'
        rw [hxmagnitude, hymagnitude]
        refine round_congr unitsPerOne_pos Nat.one_pos ?_ _
        rw [Int.natAbs_mul]
        push_cast
        field_simp
  -- The signs of the factors make that of the product, and do not matter where it is zero.
  have hscaled : (x * y).scaled * unitsPerOne = a * b * unitsPerOne * unitsPerOne := by
    have hfactors := hx.has.scaled_mul hy.has
    rw [hx.scaled, hy.scaled] at hfactors
    rw [hmul, hround.scaled_eq, Int.natAbs_mul]
    calc _ = if (x.isNegative != y.isNegative) then
          -((a.natAbs * unitsPerOne * (b.natAbs * unitsPerOne) : Nat) : Int)
          else (a.natAbs * unitsPerOne * (b.natAbs * unitsPerOne) : Nat) := by
          push_cast
          split <;> ring
      _ = a * unitsPerOne * (b * unitsPerOne) := hfactors.symm
      _ = a * b * unitsPerOne * unitsPerOne := by ring
  have hunit : (unitsPerOne : Int) ≠ 0 := by exact_mod_cast unitsPerOne_pos.ne'
  refine ⟨?_, Int.eq_of_mul_eq_mul_right hunit hscaled⟩
  rw [hmul]
  exact hround.isFinite

end IsInt

/-! ## Quotients -/

/-- Rounding is off by half a unit or by the `2 ^ 53`-rd part at most. -/
theorem abs_sub_roundUnits_le_or (num : Nat) (hden : 0 < den) :
    |(num : ℚ) / den - roundUnits num den| ≤ 1 / 2 ∨
      |(num : ℚ) / den - roundUnits num den| ≤ num / den / 2 ^ 53 := by
  have herror := abs_sub_roundUnits_le num hden
  by_cases hexp : unitExponent num den = 0
  · rw [hexp, pow_zero] at herror
    exact .inl herror
  · have hle := two_pow_unitExponent_le hexp
    rw [pow_add] at hle
    refine .inr (herror.trans ?_)
    rw [le_div_iff₀ (by positivity)]
    linarith

/-- Representable magnitudes round to themselves. -/
theorem roundUnits_of_representable (hu : Representable u) : roundUnits u 1 = u := by
  have hhas := round_has hu false
  have hround := (round_eq_iff Nat.one_pos hhas.isFinite).mp (rfl : round false u 1 = _)
  exact hround.magnitude.symm.trans hhas.magnitude

theorem Representable.lt (hu : Representable u) : ∃ j ≤ 2098, u < 2 ^ j := by
  obtain ⟨m, p, h, rfl⟩ := hu
  have hp := h.le
  refine ⟨53 + p, by omega, ?_⟩
  rw [Nat.shiftLeft_eq, Nat.pow_add]
  exact Nat.mul_lt_mul_of_pos_right h.lt (Nat.two_pow_pos p)

/-- What a fraction is rounded to is the magnitude of a number unless it is too large. -/
theorem representable_roundUnits {j : Nat} (hden : 0 < den) (hj : j ≤ 2098)
    (hsmall : roundUnits num den < 2 ^ j) : Representable (roundUnits num den) := by
  obtain ⟨m, p, -, hunits, hlt, hnormal, -⟩ := round_eq_ofParts num hden false
  refine ⟨m, p, ⟨hlt, hnormal, ?_⟩, hunits⟩
  rcases hnormal with hlow | hp
  · rw [← hunits, Nat.shiftLeft_eq] at hsmall
    have hpow : 2 ^ (52 + p) < 2 ^ j := by
      rw [Nat.pow_add]
      exact (Nat.mul_le_mul_right _ hlow).trans_lt hsmall
    have hexp := (Nat.pow_lt_pow_iff_right (by decide)).mp hpow
    omega
  · omega

theorem lt_unitsPerOne : 2 ^ 53 < unitsPerOne := by
  obtain ⟨k, hk, hunit⟩ := exists_unitsPerOne
  rw [hunit]
  exact Nat.pow_lt_pow_right (by decide) (by omega)

/-- No quotient of integers below `2 ^ 53` is rounded up to the next integer: it is below it by the
reciprocal of the divisor, and rounding is off by less. -/
theorem roundUnits_quotient (hn : n < 2 ^ 53) (hpos : 0 < k) (hk : k < 2 ^ 53) :
    n / k * unitsPerOne ≤ roundUnits (n * unitsPerOne * unitsPerOne) (k * unitsPerOne) ∧
      roundUnits (n * unitsPerOne * unitsPerOne) (k * unitsPerOne) < (n / k + 1) * unitsPerOne := by
  have hden : 0 < k * unitsPerOne := Nat.mul_pos hpos unitsPerOne_pos
  have hcast : (0 : ℚ) < k := by exact_mod_cast hpos
  have hunit := cast_unitsPerOne_pos
  have hvalue : ((n * unitsPerOne * unitsPerOne : Nat) : ℚ) / (k * unitsPerOne : Nat) =
      n * unitsPerOne / k := by
    push_cast
    field_simp
  constructor
  · have hwhole : Representable (n / k * unitsPerOne) :=
      exists_canonical ((Nat.div_le_self n k).trans_lt hn)
    rw [← roundUnits_of_representable hwhole]
    refine roundUnits_mono Nat.one_pos hden ?_
    rw [hvalue, Nat.cast_one, div_one, le_div_iff₀ hcast]
    have hle := Nat.mul_le_mul_right unitsPerOne (Nat.div_mul_le_self n k)
    rw [Nat.mul_right_comm] at hle
    exact_mod_cast hle
  · have hbelow : (n : ℚ) * unitsPerOne / k + unitsPerOne / k ≤
        (n / k + 1 : Nat) * unitsPerOne := by
      have hnext : (n : ℚ) + 1 ≤ (n / k + 1 : Nat) * k := by
        rw [mul_comm]
        exact_mod_cast Nat.lt_mul_div_succ n hpos
      rw [← add_div, div_le_iff₀ hcast]
      calc (n : ℚ) * unitsPerOne + unitsPerOne = (n + 1) * unitsPerOne := by ring
        _ ≤ (n / k + 1 : Nat) * k * unitsPerOne := mul_le_mul_of_nonneg_right hnext hunit.le
        _ = (n / k + 1 : Nat) * unitsPerOne * k := by ring
    have herror : |(n : ℚ) * unitsPerOne / k -
        roundUnits (n * unitsPerOne * unitsPerOne) (k * unitsPerOne)| < unitsPerOne / k := by
      have hsmall := abs_sub_roundUnits_le_or (n * unitsPerOne * unitsPerOne) hden
      rw [hvalue] at hsmall
      rcases hsmall with hhalf | hpart
      · refine hhalf.trans_lt ?_
        rw [lt_div_iff₀ hcast]
        have hlt : (k : ℚ) < unitsPerOne := by exact_mod_cast hk.trans lt_unitsPerOne
        linarith
      · refine hpart.trans_lt ?_
        have hlt : (n : ℚ) < 2 ^ 53 := by exact_mod_cast hn
        rw [div_right_comm]
        refine div_lt_div_of_pos_right ?_ hcast
        rw [div_lt_iff₀ (by positivity), mul_comm]
        exact mul_lt_mul_of_pos_left hlt hunit
    have hlt := (abs_lt.mp herror).1
    have hresult : (roundUnits (n * unitsPerOne * unitsPerOne) (k * unitsPerOne) : ℚ) <
        ((n / k + 1) * unitsPerOne : Nat) := by
      rw [Nat.cast_mul]
      linarith
    exact_mod_cast hresult

/-- A fraction that is rounded to the magnitude of a number is rounded to that number. -/
theorem round_has_roundUnits (hden : 0 < den) (hunits : Representable (roundUnits num den))
    (negative : Bool) : (round negative num den).Has negative (roundUnits num den) := by
  have hexact := round_has hunits negative
  have hround : round negative num den = round negative (roundUnits num den) 1 :=
    (round_eq_iff hden hexact.isFinite).mpr hexact
  rwa [← hround] at hexact

/-- Rounding takes no natural number past one that is among the numbers. -/
theorem ofNat_le (hx : x.IsInt k) (h : n ≤ k) : le (ofNat n) x := by
  have hmagnitude : x.magnitude = k * unitsPerOne := hx.has.magnitude
  have hunits := representable_magnitude x
  rw [hmagnitude] at hunits
  have hround : roundUnits (n * unitsPerOne) 1 ≤ k * unitsPerOne := by
    rw [← roundUnits_of_representable hunits]
    refine roundUnits_mono Nat.one_pos Nat.one_pos ?_
    rw [Nat.cast_one, div_one, div_one]
    exact_mod_cast Nat.mul_le_mul_right unitsPerOne h
  obtain ⟨j, hj, hlt⟩ := hunits.lt
  have hhas : (ofNat n).Has false (roundUnits (n * unitsPerOne) 1) :=
    round_has_roundUnits Nat.one_pos
      (representable_roundUnits Nat.one_pos hj (hround.trans_lt hlt)) false
  have hscaled : (ofNat n).scaled = roundUnits (n * unitsPerOne) 1 := by
    rw [hhas.scaled_eq, if_neg Bool.false_ne_true]
  have hnot : ¬ lt x (ofNat n) := by
    rw [lt_iff_scaled_lt hx.isFinite hhas.isFinite, hscaled, hx.scaled, not_lt]
    exact_mod_cast hround
  rw [le, isNaN_of_isFinite hhas.isFinite, isNaN_of_isFinite hx.isFinite,
    Bool.eq_false_iff.mpr hnot]
  rfl

namespace Has

/-- A quotient is rounded once, from the quotient of the magnitudes. -/
theorem div_eq (hx : x.Has negative u) (hy : y.Has sign v) (hv : v ≠ 0) :
    x / y = round (negative != sign) (u * unitsPerOne) v := by
  have hzero : y.isZero = false := Bool.eq_false_iff.mpr (hy.isZero_iff.not.mpr hv)
  obtain ⟨hfinite, rfl, rfl⟩ := hx
  obtain ⟨hfinite', rfl, rfl⟩ := hy
  cases x with
  | nan | infinite => cases hfinite
  | finite s m p h =>
    cases y with
    | nan | infinite => cases hfinite'
    | finite t m' p' h' =>
      show (if (finite t m' p' h').isZero then
          if (finite s m p h).isZero then nan else infinite _
        else round _ _ _) = _
      rw [hzero, if_neg Bool.false_ne_true]

variable (hx : x.Has false (n * unitsPerOne)) (hy : y.Has false (k * unitsPerOne))
  (hn : n < 2 ^ 53) (hpos : 0 < k)
include hx hy hn hpos

/-- The integral part of a quotient is exact. -/
theorem trunc_div (hk : k < 2 ^ 53) : (x / y).trunc.Has false (n / k * unitsPerOne) := by
  have hden : 0 < k * unitsPerOne := Nat.mul_pos hpos unitsPerOne_pos
  obtain ⟨hlow, hhigh⟩ := roundUnits_quotient hn hpos hk
  have hunits : Representable
      (roundUnits (n * unitsPerOne * unitsPerOne) (k * unitsPerOne)) := by
    obtain ⟨j, hj, hunit⟩ := exists_unitsPerOne
    refine representable_roundUnits hden (show 53 + j ≤ 2098 by omega) (hhigh.trans_le ?_)
    rw [hunit, Nat.pow_add]
    exact Nat.mul_le_mul_right _ ((Nat.succ_le_succ (Nat.div_le_self n k)).trans hn)
  have hquotient := round_has_roundUnits hden hunits false
  have htrunc := hquotient.trunc
  rw [Nat.div_eq_of_lt_le hlow hhigh] at htrunc
  rw [hx.div_eq hy hden.ne']
  exact htrunc

/-- The remainder of integers is exact. -/
theorem mod_int : (x % y).Has false (n % k * unitsPerOne) := by
  have hmod : n * unitsPerOne % (k * unitsPerOne) = n % k * unitsPerOne :=
    Nat.mul_mod_mul_right ..
  have hne : k * unitsPerOne ≠ 0 := (Nat.mul_pos hpos unitsPerOne_pos).ne'
  have hunits : Representable (n * unitsPerOne % (k * unitsPerOne)) := by
    rw [hmod]
    exact exists_canonical ((Nat.mod_le n k).trans_lt hn)
  have hrest := hx.mod hy hne hunits
  rwa [hmod] at hrest

end Has

end ActionScript.Number
