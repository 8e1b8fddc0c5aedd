import Mathlib.Algebra.Group.Nat.Defs
import Mathlib.Order.Nat
import Mathlib.Tactic.WLOG
import ActionScript.Movie.Arrays

/-! # Integers among the numbers

A natural number below `2 ^ 53` is a number exactly (`Number.ofNat_eq`), and comparisons
with it are those of integers. Array indices and lengths are such numbers, and the key of an index
stands for no other index (`eq_of_arrayIndex?_indexKey`). -/

namespace ActionScript

namespace Number

variable {x : Number} {n : Nat}

theorem unitsPerOne_pos : 0 < unitsPerOne := by
  decide +kernel

/-- The exponent stands apart so that nothing computes the power. -/
theorem exists_unitsPerOne : ∃ k, k = 1074 ∧ unitsPerOne = 2 ^ k := by
  obtain ⟨k, hk⟩ : ∃ k, k = 1074 := ⟨_, rfl⟩
  exact ⟨k, hk, by rw [unitsPerOne, ← hk, Nat.one_shiftLeft]⟩

theorem mul_unitsPerOne {j k : Nat} (h : j + k = 1074) (n : Nat) :
    n * unitsPerOne = n * 2 ^ j * 2 ^ k := by
  rw [unitsPerOne, ← h, Nat.one_shiftLeft, Nat.pow_add, Nat.mul_assoc]

/-- A quotient without remainder is not rounded. -/
theorem roundDiv_mul {den : Nat} (hden : 0 < den) (q : Nat) : roundDiv (q * den) den = q := by
  simp [roundDiv, Nat.mul_div_cancel _ hden]
  omega

/-- The units of a positive integer below `2 ^ 53` are a significand of 53 digits and a power of
two. -/
theorem units_of_pos (hpos : 0 < n) (hn : n < 2 ^ 53) :
    ∃ m, n * unitsPerOne = m * 2 ^ (n.log2 + 1022) ∧ 2 ^ 52 ≤ m ∧ m < 2 ^ 53 := by
  have hlow : 2 ^ n.log2 ≤ n := Nat.log2_self_le hpos.ne'
  have hhigh : n < 2 ^ (n.log2 + 1) := Nat.lt_log2_self
  have hlog : n.log2 ≤ 52 := by
    have := (Nat.log2_lt hpos.ne').mpr hn
    omega
  obtain ⟨k, hk⟩ := Nat.exists_eq_add_of_le hlog
  refine ⟨n * 2 ^ k, ?_, ?_, ?_⟩
  · exact mul_unitsPerOne (by omega) n
  · rw [hk, Nat.pow_add]
    exact Nat.mul_le_mul_right _ hlow
  · have hexp : 53 = n.log2 + 1 + k := by omega
    rw [hexp, Nat.pow_add]
    exact Nat.mul_lt_mul_of_pos_right hhigh (Nat.two_pow_pos k)

theorem log2_significand {m e : Nat} (hlow : 2 ^ 52 ≤ m) (hhigh : m < 2 ^ 53) :
    (m * 2 ^ e).log2 = 52 + e := by
  have hpos : m * 2 ^ e ≠ 0 := Nat.mul_ne_zero (by omega) (Nat.two_pow_pos e).ne'
  refine (Nat.log2_eq_iff hpos).mpr ⟨?_, ?_⟩
  · rw [Nat.pow_add]
    exact Nat.mul_le_mul_right _ hlow
  · rw [Nat.add_right_comm, Nat.pow_add]
    exact Nat.mul_lt_mul_of_pos_right hhigh (Nat.two_pow_pos e)

/-- The magnitude of a number is not rounded. -/
theorem round_of_canonical {m p den : Nat} (h : Canonical m p) (hden : 0 < den)
    (negative : Bool) : round negative (m <<< p * den) den = .finite negative m p h := by
  have hexp : (m <<< p * den / den).log2 - 52 = p := by
    rw [Nat.mul_div_cancel _ hden, Nat.shiftLeft_eq]
    rcases h.normal with hlow | rfl
    · rw [log2_significand hlow h.lt, Nat.add_sub_cancel_left]
    · rcases Nat.eq_zero_or_pos m with rfl | hpos
      · rfl
      · have := (Nat.log2_lt hpos.ne').mpr (show m < 2 ^ 53 from h.lt)
        rw [Nat.pow_zero, Nat.mul_one]
        omega
  have hround : roundDiv (m <<< p * den) (den <<< p) = m := by
    have hnum : m <<< p * den = m * den <<< p := by
      rw [Nat.shiftLeft_eq, Nat.shiftLeft_eq, Nat.mul_assoc, Nat.mul_comm (2 ^ p)]
    have hpos : 0 < den <<< p := by
      rw [Nat.shiftLeft_eq]
      exact Nat.mul_pos hden (Nat.two_pow_pos p)
    rw [hnum, roundDiv_mul hpos]
  have hsmall : m ≠ 0x20000000000000 := h.lt.ne
  rw [round, hexp, hround, if_neg hsmall, ofParts_of_canonical h]

/-- The units of a natural number below `2 ^ 53` are those of a number. -/
theorem exists_canonical (hn : n < 2 ^ 53) :
    ∃ m p, Canonical m p ∧ m <<< p = n * unitsPerOne := by
  rcases Nat.eq_zero_or_pos n with rfl | hpos
  · exact ⟨0, 0, canonical_zero, by simp⟩
  · obtain ⟨m, hunits, hlow, hhigh⟩ := units_of_pos hpos hn
    have hlog : n.log2 < 53 := (Nat.log2_lt hpos.ne').mpr hn
    exact ⟨m, n.log2 + 1022, ⟨hhigh, .inl hlow, by omega⟩, by rw [Nat.shiftLeft_eq, hunits]⟩

/-- A natural number below `2 ^ 53` is not rounded. -/
theorem ofNat_eq (hn : n < 2 ^ 53) :
    ∃ m p, ∃ h : Canonical m p, ofNat n = .finite false m p h ∧ m <<< p = n * unitsPerOne := by
  obtain ⟨m, p, h, hunits⟩ := exists_canonical hn
  have hround := round_of_canonical h Nat.one_pos false
  rw [Nat.mul_one, hunits] at hround
  exact ⟨m, p, h, hround, hunits⟩

theorem isInteger_ofNat (hn : n < 2 ^ 53) : (ofNat n).isInteger := by
  obtain ⟨m, p, h, heq, hunits⟩ := ofNat_eq hn
  rw [heq, isInteger, magnitude, hunits, Nat.mul_mod_left]
  rfl

theorem toInt_ofNat (hn : n < 2 ^ 53) : (ofNat n).toInt = n := by
  obtain ⟨m, p, h, heq, hunits⟩ := ofNat_eq hn
  rw [heq, toInt, magnitude, hunits, Nat.mul_div_cancel _ unitsPerOne_pos]
  rfl

/-- The units of an integer. -/
theorem scaled_of_isInteger (hx : x.isInteger) : x.scaled = x.toInt * unitsPerOne := by
  cases x with
  | nan => cases hx
  | infinite => cases hx
  | finite negative m p h =>
    have hmod : m <<< p % unitsPerOne = 0 := eq_of_beq hx
    have hunits : m <<< p / unitsPerOne * unitsPerOne = m <<< p :=
      Nat.div_mul_cancel (Nat.dvd_of_mod_eq_zero hmod)
    have hint : ((m <<< p / unitsPerOne : Nat) : Int) * unitsPerOne = (m <<< p : Nat) := by
      rw [← Int.natCast_mul, hunits]
    cases negative with
    | true =>
      show -((m <<< p : Nat) : Int) = -((m <<< p / unitsPerOne : Nat) : Int) * unitsPerOne
      rw [Int.neg_mul, hint]
    | false => exact hint.symm

/-- Finite numbers are ordered by their values in the smallest unit. -/
theorem lt_iff_scaled_lt {y : Number} (hx : x.isFinite) (hy : y.isFinite) :
    lt x y ↔ x.scaled < y.scaled := by
  cases x <;> cases hx
  cases y <;> cases hy
  simp [lt]

theorem isFinite_of_isInteger (hx : x.isInteger) : x.isFinite := by
  cases x <;> first | rfl | cases hx

theorem isNaN_of_isFinite (hx : x.isFinite) : x.isNaN = false := by
  cases x <;> first | rfl | cases hx

/-- Integers compare as integers. -/
theorem lt_iff_toInt_lt {y : Number} (hx : x.isInteger) (hy : y.isInteger) :
    lt x y ↔ x.toInt < y.toInt := by
  rw [lt_iff_scaled_lt (isFinite_of_isInteger hx) (isFinite_of_isInteger hy),
    scaled_of_isInteger hx, scaled_of_isInteger hy]
  exact Int.mul_lt_mul_right (by exact_mod_cast unitsPerOne_pos)

/-- Whole numbers are ordered as integers. -/
theorem le_iff_toInt_le {y : Number} (hx : x.isInteger) (hy : y.isInteger) :
    le x y ↔ x.toInt ≤ y.toInt := by
  have hlt := lt_iff_toInt_lt hy hx
  rw [le, isNaN_of_isFinite (isFinite_of_isInteger hx),
    isNaN_of_isFinite (isFinite_of_isInteger hy)]
  simp only [Bool.not_false, Bool.true_and, Bool.not_eq_true', Bool.eq_false_iff, ne_eq, hlt]
  omega

theorem lt_ofNat_iff (hx : x.isInteger) (hn : n < 2 ^ 53) : lt x (ofNat n) ↔ x.toInt < n := by
  rw [lt_iff_toInt_lt hx (isInteger_ofNat hn), toInt_ofNat hn]

theorem le_ofNat_iff (hx : x.isInteger) (hn : n < 2 ^ 53) : le x (ofNat n) ↔ x.toInt ≤ n := by
  rw [le_iff_toInt_le hx (isInteger_ofNat hn), toInt_ofNat hn]

theorem ofNat_le_iff (hx : x.isInteger) (hn : n < 2 ^ 53) : le (ofNat n) x ↔ n ≤ x.toInt := by
  rw [le_iff_toInt_le (isInteger_ofNat hn) hx, toInt_ofNat hn]

/-- A magnitude has one normalised form. -/
theorem Canonical.eq_of_units {m p m' p' : Nat} (h : Canonical m p) (h' : Canonical m' p')
    (hunits : m <<< p = m' <<< p') : m = m' ∧ p = p' := by
  rw [Nat.shiftLeft_eq, Nat.shiftLeft_eq] at hunits
  wlog hle : p ≤ p' generalizing m p m' p' with hswap
  · obtain ⟨hm, hp⟩ := hswap h' h hunits.symm (by omega)
    exact ⟨hm.symm, hp.symm⟩
  obtain ⟨k, rfl⟩ := Nat.exists_eq_add_of_le hle
  have hm : m = m' * 2 ^ k := by
    rw [Nat.pow_add, Nat.mul_comm (2 ^ p), ← Nat.mul_assoc] at hunits
    exact Nat.eq_of_mul_eq_mul_right (Nat.two_pow_pos p) hunits
  cases k with
  | zero => exact ⟨by simpa using hm, rfl⟩
  | succ k =>
    -- The other one is normal, and twice a normal significand is none.
    have hnormal := h'.normal
    have hlt := h.lt
    have hpow := Nat.two_pow_pos k
    rw [Nat.pow_succ, ← Nat.mul_assoc] at hm
    have hmul : m' ≤ m' * 2 ^ k := Nat.le_mul_of_pos_right m' hpow
    omega

/-- Only the negative zero is an integer that is not the one with its value. -/
theorem eq_ofNat (hx : x.isInteger) (hnegative : x.isNegative = false) (hint : x.toInt = n)
    (hn : n < 2 ^ 53) : x = ofNat n := by
  obtain ⟨m', p', h', heq, hunits'⟩ := ofNat_eq hn
  have hscaled := scaled_of_isInteger hx
  rw [hint] at hscaled
  cases x with
  | nan => cases hx
  | infinite => cases hx
  | finite negative m p h =>
    cases hnegative
    have hunits : m <<< p = m' <<< p' := by
      rw [hunits']
      exact_mod_cast (show ((m <<< p : Nat) : Int) = n * unitsPerOne from hscaled)
    obtain ⟨rfl, rfl⟩ := h.eq_of_units h' hunits
    rw [heq]

/-! ## Integers of 32 bits -/

/-- A finite number with the given sign and units. -/
structure Has (x : Number) (negative : Bool) (u : Nat) : Prop where
  isFinite : x.isFinite
  sign : x.isNegative = negative
  magnitude : x.magnitude = u

/-- Units that a number has. -/
def Representable (u : Nat) : Prop := ∃ m p, Canonical m p ∧ m <<< p = u

variable {negative sign : Bool} {u v : Nat}

/-- A finite number has its own sign and magnitude. -/
theorem has_of_isFinite (hx : x.isFinite) : x.Has x.isNegative x.magnitude := ⟨hx, rfl, rfl⟩

/-- The magnitude of any number is representable. -/
theorem representable_magnitude (x : Number) : Representable x.magnitude := by
  cases x with
  | nan | infinite => exact ⟨0, 0, canonical_zero, rfl⟩
  | finite negative m p h => exact ⟨m, p, h, rfl⟩

/-- Rounding a representable magnitude changes nothing. -/
theorem round_has (hu : Representable u) (negative : Bool) :
    (round negative u 1).Has negative u := by
  obtain ⟨m, p, h, rfl⟩ := hu
  have hround := round_of_canonical h Nat.one_pos negative
  rw [Nat.mul_one] at hround
  rw [hround]
  exact ⟨rfl, rfl, rfl⟩

/-- A natural number below the bound is represented exactly. -/
theorem ofNat_has (hn : n < 2 ^ 53) : (ofNat n).Has false (n * unitsPerOne) :=
  round_has (exists_canonical hn) false

/-- The units without their fraction are those of a number: below `2 ^ 53` of an integer, and from
there on a number has no fraction. -/
theorem representable_whole (x : Number) :
    Representable (x.magnitude / unitsPerOne * unitsPerOne) := by
  rcases Nat.lt_or_ge (x.magnitude / unitsPerOne) (2 ^ 53) with hlt | hge
  · exact exists_canonical hlt
  · obtain ⟨m, p, h, hunits⟩ := representable_magnitude x
    obtain ⟨k, hk, hunit⟩ := exists_unitsPerOne
    have hp : k ≤ p := by
      by_contra hp
      have hpow : 2 ^ p ≤ unitsPerOne := by
        rw [hunit]
        exact Nat.pow_le_pow_right Nat.two_pos (Nat.le_of_not_le hp)
      have hlt : x.magnitude < 2 ^ 53 * unitsPerOne := by
        rw [← hunits, Nat.shiftLeft_eq]
        exact Nat.mul_lt_mul_of_lt_of_le h.lt hpow unitsPerOne_pos
      exact absurd (Nat.div_lt_of_lt_mul (by rwa [Nat.mul_comm])) (Nat.not_lt.mpr hge)
    have hdvd : unitsPerOne ∣ x.magnitude := by
      rw [← hunits, Nat.shiftLeft_eq, hunit]
      exact Nat.dvd_mul_left_of_dvd (Nat.pow_dvd_pow 2 hp) m
    rw [Nat.div_mul_cancel hdvd]
    exact representable_magnitude x

namespace Has

variable {y : Number}

/-- The integer of a number is its magnitude cut to whole units, with its sign. -/
theorem toInt_eq (hx : x.Has negative u) :
    x.toInt = if negative then -((u / unitsPerOne : Nat) : Int) else (u / unitsPerOne : Nat) := by
  obtain ⟨hfinite, rfl, rfl⟩ := hx
  cases x with
  | nan | infinite => cases hfinite
  | finite => rfl

/-- Truncation keeps the sign and the whole units. -/
theorem trunc (hx : x.Has negative u) :
    x.trunc.Has negative (u / unitsPerOne * unitsPerOne) := by
  have hwhole := representable_whole x
  obtain ⟨hfinite, rfl, rfl⟩ := hx
  cases x with
  | nan | infinite => cases hfinite
  | finite negative => exact round_has hwhole negative

/-- A remainder has the sign of the dividend and the remainder of the magnitudes. -/
theorem mod (hx : x.Has negative u) (hy : y.Has sign v) (hv : v ≠ 0)
    (hu : Representable (u % v)) : (x % y).Has negative (u % v) := by
  obtain ⟨hfinite, rfl, rfl⟩ := hx
  obtain ⟨hfinite', rfl, rfl⟩ := hy
  cases x with
  | nan | infinite => cases hfinite
  | finite negative m p h =>
    cases y with
    | nan | infinite => cases hfinite'
    | finite sign m' p' h' =>
      have hzero : (finite sign m' p' h').isZero = false := by
        show (m' == 0) = false
        rw [beq_eq_false_iff_ne]
        rintro rfl
        exact hv (Nat.zero_shiftLeft p')
      show (rem _ _).Has _ _
      rw [rem, hzero, if_neg Bool.false_ne_true]
      · exact round_has hu negative
      all_goals simp

/-- An integer of less than 53 bits fits in 64. -/
theorem toInt64_eq (hx : x.Has negative (n * unitsPerOne)) (hn : n < 2 ^ 53) :
    x.toInt64 = if negative then -(n : Int) else n := by
  have hint := hx.toInt_eq
  rw [Nat.mul_div_cancel _ unitsPerOne_pos] at hint
  have hfinite := hx.isFinite
  cases x with
  | nan | infinite => cases hfinite
  | finite =>
    rw [toInt64, hint]
    · split <;> omega
    all_goals simp

end Has

/-- The balanced remainder depends on the remainder alone. -/
theorem bmod_congr {i j : Int} {k : Nat} (h : i % k = j % k) : i.bmod k = j.bmod k := by
  rw [Int.bmod_def, Int.bmod_def, h]

/-- The remainder by `2 ^ 32` loses no bits of the truncated value that are kept. -/
theorem toInt32_eq (x : Number) : x.toInt32 = x.toInt.bmod 0x100000000 := by
  rw [toInt32]
  split
  · rename_i h
    rw [Bool.and_eq_true] at h
    have hx := has_of_isFinite h.1
    have hpower : (0x100000000 : Number).Has false (0x100000000 * unitsPerOne) :=
      ofNat_has (by decide)
    have hsmall : x.magnitude / unitsPerOne % 0x100000000 < 2 ^ 53 := by omega
    have hmod : x.magnitude / unitsPerOne * unitsPerOne % (0x100000000 * unitsPerOne) =
        x.magnitude / unitsPerOne % 0x100000000 * unitsPerOne := Nat.mul_mod_mul_right ..
    have hne : 0x100000000 * unitsPerOne ≠ 0 := Nat.mul_ne_zero (by decide) unitsPerOne_pos.ne'
    have hrest := hx.trunc.mod hpower hne (by rw [hmod]; exact exists_canonical hsmall)
    rw [hmod] at hrest
    rw [BitVec.toInt_ofInt, hrest.toInt64_eq hsmall, hx.toInt_eq]
    split
    all_goals
      refine bmod_congr ?_
      omega
  · rename_i h
    have hzero : x.toInt = 0 := by
      cases x with
      | nan | infinite => rfl
      | finite negative m p =>
        have hm : m = 0 := by simpa [isFinite, isZero] using h
        subst hm
        rw [toInt, magnitude, Nat.zero_shiftLeft, Nat.zero_div]
        split <;> rfl
    rw [hzero]
    rfl

/-- The word of a number is its integer modulo the number of words. -/
theorem toUInt32_eq (x : Number) : x.toUInt32 = (x.toInt % 0x100000000).toNat := by
  rw [toUInt32, toInt32_eq, BitVec.toNat_ofInt]
  exact congrArg Int.toNat Int.bmod_emod

theorem toUInt32_lt (x : Number) : x.toUInt32 < 2 ^ 32 := by
  rw [toUInt32_eq]
  omega

theorem toUInt32_of_toInt (hx : x.toInt = n) (hn : n < 2 ^ 32) : x.toUInt32 = n := by
  rw [toUInt32_eq, hx]
  omega

/-! ## Numerals -/

theorem digitValue?_digitChar {d : Nat} (hd : d < 10) : digitValue? d.digitChar = some d := by
  revert d
  decide

/-- One digit more multiplies by ten and adds it. -/
theorem digitsValue_append_singleton (cs : List Char) (c : Char) :
    digitsValue (cs ++ [c]) = digitsValue cs * 10 + (digitValue? c).getD 0 := by
  rw [digitsValue, List.foldl_append]
  rfl

/-- The value of a numeral is the number that it was written for. -/
theorem digitsValue_toDigits (n : Nat) : digitsValue (Nat.toDigits 10 n) = n := by
  induction n using Nat.strongRecOn with
  | ind n ih =>
    rw [Nat.toDigits_eq_if (by omega)]
    split
    · rename_i hn
      simp [digitsValue, digitValue?_digitChar hn]
    · rename_i hn
      rw [digitsValue_append_singleton, ih (n / 10) (by omega),
        digitValue?_digitChar (Nat.mod_lt n (by omega)), Option.getD_some]
      omega

theorem isDigit_eq (c : Char) : isDigit c = c.isDigit := by
  rw [isDigit, digitValue?]
  split
  · rename_i h
    exact h.symm
  · rename_i h
    exact (Bool.eq_false_iff.mpr h).symm

end Number

/-- Indices stay below the largest word, which is not one itself. -/
theorem lt_of_arrayIndex? {key : String} {i : Nat} (h : arrayIndex? key = some i) :
    i < 0xffffffff := by
  rw [arrayIndex?] at h
  dsimp only at h
  split at h
  · cases h
  · split at h
    · rename_i hlt
      cases h
      exact hlt
    · cases h

theorem toList_indexKey (i : Nat) : (indexKey i).toList = Nat.toDigits 10 i := String.toList_ofList

/-- The key of an index is that of no other index. -/
theorem eq_of_arrayIndex?_indexKey {i j : Nat} (h : arrayIndex? (indexKey i) = some j) :
    j = i := by
  rw [arrayIndex?] at h
  dsimp only at h
  rw [toList_indexKey, Number.digitsValue_toDigits] at h
  split at h
  · cases h
  · split at h
    · cases h
      rfl
    · cases h

/-- The only numeral without a value is that of zero. -/
theorem indexKey_ne {key : String} (hvalue : Number.digitsValue key.toList = 0) (hkey : key ≠ "0")
    (i : Nat) : indexKey i ≠ key := by
  rintro rfl
  rw [toList_indexKey, Number.digitsValue_toDigits] at hvalue
  subst hvalue
  exact hkey rfl

/-- No index is spelled as the length. -/
theorem indexKey_ne_lengthKey (i : Nat) : indexKey i ≠ Movie.lengthKey :=
  indexKey_ne (by decide) (by decide) i

theorem indexKey_ne_protoKey (i : Nat) : indexKey i ≠ Heap.protoKey :=
  indexKey_ne (by decide) (by decide) i

/-- The key of the length is not read as an index. -/
theorem arrayIndex?_lengthKey : arrayIndex? Movie.lengthKey = none := by
  decide

end ActionScript
