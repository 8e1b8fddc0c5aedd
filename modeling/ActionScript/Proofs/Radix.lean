import Mathlib.Data.Nat.Digits.Lemmas
import Mathlib.Logic.Function.Iterate
import ActionScript.Number.Radix
import ActionScript.Proofs.IntegerArithmetic

/-! # Numerals of integers in a radix

The text of an integer below `2 ^ 53` in a radix other than ten is its numeral, behind a sign if it
is negative (`Number.textInRadix_of_isInteger`). Each round of the loop splits off one digit
exactly: the quotient is rounded, but never up to the next integer. -/

namespace ActionScript.Number

variable {x : Number} {cs : List Char} {c : Char} {d n radix : Nat}

/-! ## Numerals -/

/-- The digits of all radices, in the order of their values. -/
def letters : List Char := "0123456789abcdefghijklmnopqrstuvwxyz".toList

/-- A numeral without a sign: digits of the radix, of which the first is zero only in that of
zero. -/
structure IsNumeral (radix : Nat) (cs : List Char) : Prop where
  ne_nil : cs ≠ []
  mem : ∀ c ∈ cs, c ∈ letters.take radix
  head : cs.head? = some '0' → cs = ['0']

/-- The value of a numeral. -/
def numeralValue (radix : Nat) (cs : List Char) : Nat :=
  Nat.ofDigits radix (cs.reverse.map letters.idxOf)

/-- The value of a numeral that may have a sign. -/
def signedValue (radix : Nat) : List Char → Int
  | '-' :: cs => -numeralValue radix cs
  | cs => numeralValue radix cs

/-- The numeral of a natural number, its digits by division. -/
def numeral (radix n : Nat) : List Char :=
  if n = 0 then ['0'] else ((Nat.digits radix n).map digitChar).reverse

theorem getElem?_letters (hd : d < 36) : letters[d]? = some (digitChar d) := by
  revert d
  decide

theorem idxOf_digitChar (hd : d < 36) : letters.idxOf (digitChar d) = d := by
  revert d
  decide

theorem mem_take_letters_iff (hhigh : radix ≤ 36) :
    c ∈ letters.take radix ↔ ∃ d < radix, c = digitChar d := by
  rw [List.mem_iff_getElem?]
  constructor
  · rintro ⟨d, hget⟩
    rw [List.getElem?_take] at hget
    split at hget
    · rename_i hd
      rw [getElem?_letters (by omega)] at hget
      exact ⟨d, hd, (Option.some.inj hget).symm⟩
    · cases hget
  · rintro ⟨d, hd, rfl⟩
    exact ⟨d, by rw [List.getElem?_take, if_pos hd, getElem?_letters (by omega)]⟩

theorem digitChar_eq_zero_iff (hd : d < 36) : digitChar d = '0' ↔ d = 0 := by
  revert d
  decide

section Numerals

variable (hlow : 2 ≤ radix) (hhigh : radix ≤ 36)
include hlow hhigh

theorem isNumeral_numeral (n : Nat) : IsNumeral radix (numeral radix n) := by
  rw [numeral]
  split
  · have hzero : '0' ∈ letters.take radix :=
      (mem_take_letters_iff hhigh).mpr ⟨0, by omega, rfl⟩
    exact ⟨by simp, by simpa using hzero, fun _ => rfl⟩
  · rename_i hn
    have hne : Nat.digits radix n ≠ [] := Nat.digits_ne_nil_iff_ne_zero.mpr hn
    refine ⟨by simpa using hne, fun c hc => ?_, fun hhead => ?_⟩
    · rw [List.mem_reverse, List.mem_map] at hc
      obtain ⟨d, hd, rfl⟩ := hc
      exact (mem_take_letters_iff hhigh).mpr ⟨d, Nat.digits_lt_base (by omega) hd, rfl⟩
    · -- The first digit is the last one to be split off, which is not zero.
      have hlast := Nat.getLast_digit_ne_zero radix hn
      have hlt := Nat.digits_lt_base (by omega) (List.getLast_mem hne)
      rw [List.head?_reverse, List.getLast?_map, List.getLast?_eq_some_getLast hne,
        Option.map_some, Option.some_inj, digitChar_eq_zero_iff (by omega)] at hhead
      exact absurd hhead hlast

theorem numeralValue_numeral (n : Nat) : numeralValue radix (numeral radix n) = n := by
  rw [numeralValue, numeral]
  split
  · rename_i hn
    rw [hn]
    rfl
  · have hdigits : ((Nat.digits radix n).map digitChar).map letters.idxOf =
        Nat.digits radix n := by
      rw [List.map_map]
      refine (List.map_congr_left fun d hd => ?_).trans (List.map_id _)
      have hlt := Nat.digits_lt_base (by omega) hd
      exact idxOf_digitChar (by omega)
    rw [List.reverse_reverse, hdigits, Nat.ofDigits_digits]

/-- A number has one numeral. -/
theorem IsNumeral.eq_numeral (h : IsNumeral radix cs) :
    cs = numeral radix (numeralValue radix cs) := by
  have hletters : ∀ c ∈ cs, letters.idxOf c < radix ∧ digitChar (letters.idxOf c) = c := by
    intro c hc
    obtain ⟨d, hd, rfl⟩ := (mem_take_letters_iff hhigh).mp (h.mem c hc)
    rw [idxOf_digitChar (by omega)]
    exact ⟨hd, rfl⟩
  by_cases hhead : cs.head? = some '0'
  · rw [h.head hhead]
    rfl
  · have hdigits : Nat.digits radix (numeralValue radix cs) = cs.reverse.map letters.idxOf := by
      refine Nat.digits_ofDigits radix (by omega) _ (fun d hd => ?_) fun hne => ?_
      · rw [List.mem_map] at hd
        obtain ⟨c, hc, rfl⟩ := hd
        exact (hletters c (List.mem_reverse.mp hc)).1
      · obtain ⟨c, rest, rfl⟩ := List.exists_cons_of_ne_nil h.ne_nil
        have hc := (hletters c List.mem_cons_self).2
        have hlast : (((c :: rest).reverse.map letters.idxOf).getLast hne) = letters.idxOf c := by
          simp
        rw [hlast]
        intro hzero
        rw [hzero] at hc
        exact hhead (by rw [List.head?_cons, ← hc]; rfl)
    have hne : numeralValue radix cs ≠ 0 := by
      intro hzero
      rw [hzero, Nat.digits_zero] at hdigits
      exact h.ne_nil (by simpa using hdigits.symm)
    rw [numeral, if_neg hne, hdigits, List.map_map, ← List.map_reverse, List.reverse_reverse]
    exact ((List.map_congr_left fun c hc => (hletters c hc).2).trans (List.map_id cs)).symm

end Numerals

/-! ## The digits of an integer -/

/-- What is left of an integral number after one round of the loop. -/
def quotient (radix x : Number) : Number := (x / radix).trunc

section Loop

variable (hlow : 2 ≤ radix) (hhigh : radix ≤ 36)
include hlow hhigh

theorem quotient_has (hx : x.Has false (n * unitsPerOne)) (hn : n < 2 ^ 53) :
    (quotient (ofNat radix) x).Has false (n / radix * unitsPerOne) :=
  hx.trunc_div (ofNat_has (by omega)) hn (by omega) (by omega)

/-- After some rounds of the loop the integer has lost as many digits. -/
theorem iterate_quotient_has (hx : x.Has false (n * unitsPerOne)) (hn : n < 2 ^ 53) (k : Nat) :
    ((quotient (ofNat radix))^[k] x).Has false (n / radix ^ k * unitsPerOne) := by
  induction k with
  | zero => simpa using hx
  | succ k ih =>
    rw [Function.iterate_succ_apply', Nat.pow_succ, ← Nat.div_div_eq_div_mul]
    exact quotient_has hlow hhigh ih ((Nat.div_le_self _ _).trans_lt hn)

theorem integerDigits_eq {fuel : Nat} (hx : x.Has false (n * unitsPerOne)) (hn : n < 2 ^ 53)
    (hfuel : n < 2 ^ fuel) (cs : List Char) :
    integerDigits (ofNat radix) fuel x cs = ((Nat.digits radix n).map digitChar).reverse ++ cs := by
  induction fuel generalizing x n cs with
  | zero =>
    obtain rfl : n = 0 := by omega
    rw [integerDigits, Nat.digits_zero]
    rfl
  | succ fuel ih =>
    have hone : le 1 x ↔ (1 : Int) ≤ n := by
      have hone : (1 : Number).IsInt 1 := isInt_ofNat (by decide)
      exact hone.le_iff hx.isInt
    by_cases hpos : 0 < n
    · have hrest : n / radix < 2 ^ fuel := by
        rw [Nat.div_lt_iff_lt_mul (by omega)]
        rw [Nat.pow_succ] at hfuel
        exact hfuel.trans_le (Nat.mul_le_mul_left _ hlow)
      have hdigit : (x % ofNat radix).toInt.toNat = n % radix := by
        have hrest := (hx.mod_int (ofNat_has (n := radix) (by omega)) hn (by omega)).isInt
        rw [hrest.toInt_eq, Int.toNat_natCast]
      show (if le 1 x then integerDigits (ofNat radix) fuel (quotient (ofNat radix) x) _
        else cs) = _
      rw [if_pos (hone.mpr (by omega)), hdigit, ih (quotient_has hlow hhigh hx hn)
        ((Nat.div_le_self _ _).trans_lt hn) hrest, Nat.digits_def' (by omega) hpos, List.map_cons,
        List.reverse_cons, List.append_assoc, List.singleton_append]
    · obtain rfl : n = 0 := by omega
      rw [integerDigits, if_neg (by rw [hone]; omega), Nat.digits_zero]
      rfl

/-- No integer below `2 ^ 53` has more than 53 digits. -/
theorem integerDigits_of_le {fuel : Nat} (hx : x.Has false (n * unitsPerOne)) (hn : n < 2 ^ 53)
    (hfuel : 53 ≤ fuel) :
    integerDigits (ofNat radix) fuel x [] = ((Nat.digits radix n).map digitChar).reverse := by
  have hlt : n < 2 ^ fuel := hn.trans_le (Nat.pow_le_pow_right (by decide) hfuel)
  rw [integerDigits_eq hlow hhigh hx hn hlt, List.append_nil]

end Loop

/-! ## Texts -/

theorem signedValue_of_unsigned (hcs : '-' ∉ cs) (radix : Nat) :
    signedValue radix cs = numeralValue radix cs := by
  rw [signedValue]
  rintro cs rfl
  exact hcs List.mem_cons_self

theorem IsNumeral.minus_not_mem (h : IsNumeral radix cs) : '-' ∉ cs := by
  intro hmem
  have hletter := List.mem_of_mem_take (h.mem _ hmem)
  revert hletter
  decide

theorem toList_textInRadix (hx : x.isInteger) (hsmall : x.toInt.natAbs < 2 ^ 53)
    (hlow : 2 ≤ radix) (hhigh : radix ≤ 36) (hten : radix ≠ 10) :
    (x.textInRadix radix).toList =
      if x.toInt < 0 then '-' :: numeral radix x.toInt.natAbs
      else numeral radix x.toInt.natAbs := by
  have hint := isInt_of_isInteger hx
  have habs := hint.abs.isInt
  have hwhole := hint.abs.trunc
  rw [Nat.mul_div_cancel _ unitsPerOne_pos] at hwhole
  have hfraction : (x.abs - x.abs.trunc).isZero := by
    have hsub := habs.sub hwhole.isInt (hasInt_of_lt (by rw [Int.sub_self]; decide))
    exact hsub.isZero_iff.mpr (Int.sub_self _)
  have hdigits : (if x.abs.trunc.isZero then ['0']
      else integerDigits (ofNat radix) 1024 x.abs.trunc []) = numeral radix x.toInt.natAbs := by
    rw [numeral]
    refine if_congr (hwhole.isInt.isZero_iff.trans Int.natCast_eq_zero) rfl ?_
    exact integerDigits_of_le hlow hhigh hwhole hsmall (by decide)
  have hsign : lt x 0 ↔ x.toInt < 0 := hint.lt_iff isInt_zero
  have hradix : ¬ (radix = 10 ∨ radix < 2 ∨ 36 < radix ∨ x.isFinite = false) := by
    rintro (h | h | h | h)
    · exact hten h
    · exact absurd hlow (Nat.not_le.mpr h)
    · exact absurd hhigh (Nat.not_le.mpr h)
    · exact absurd (hint.isFinite.symm.trans h) (by decide)
  rw [textInRadix, if_neg hradix]
  dsimp only
  rw [hdigits, if_pos hfraction, String.toList_ofList]
  exact if_congr hsign rfl rfl

/-- The text of an integer below `2 ^ 53` either way is, behind a sign if it is negative, its one
numeral in the radix, and reading it back gives the integer. The loop that splits off the digits
ends by itself. -/
theorem textInRadix_of_isInteger (hx : x.isInteger) (hsmall : x.toInt.natAbs < 2 ^ 53)
    (hlow : 2 ≤ radix) (hhigh : radix ≤ 36) (hten : radix ≠ 10) :
    (∃ rounds ≤ 53, le 1 ((quotient (ofNat radix))^[rounds] x.abs.trunc) = false) ∧
    (∃ cs, (x.textInRadix radix).toList = (if x.toInt < 0 then '-' :: cs else cs) ∧
      ∀ ds, IsNumeral radix ds ∧ numeralValue radix ds = x.toInt.natAbs ↔ ds = cs) ∧
    signedValue radix (x.textInRadix radix).toList = x.toInt := by
  have htext := toList_textInRadix hx hsmall hlow hhigh hten
  have hnumeral := isNumeral_numeral hlow hhigh x.toInt.natAbs
  have hvalue := numeralValue_numeral hlow hhigh x.toInt.natAbs
  refine ⟨⟨53, le_rfl, ?_⟩, ⟨_, htext, fun ds => ⟨fun ⟨hds, heq⟩ => ?_, fun heq => ?_⟩⟩, ?_⟩
  · have hwhole := (isInt_of_isInteger hx).abs.trunc
    rw [Nat.mul_div_cancel _ unitsPerOne_pos] at hwhole
    have hrest := iterate_quotient_has hlow hhigh hwhole hsmall 53
    have hend : x.toInt.natAbs / radix ^ 53 = 0 :=
      Nat.div_eq_of_lt (hsmall.trans_le (Nat.pow_le_pow_left hlow 53))
    rw [hend] at hrest
    have hone : (1 : Number).IsInt 1 := isInt_ofNat (by decide)
    exact Bool.eq_false_iff.mpr ((hone.le_iff hrest.isInt).not.mpr (by decide))
  · rw [hds.eq_numeral hlow hhigh, heq]
  · rw [heq]
    exact ⟨hnumeral, hvalue⟩
  · rw [htext]
    split
    · rw [signedValue, hvalue]
      omega
    · rw [signedValue_of_unsigned hnumeral.minus_not_mem, hvalue]
      omega

/-- The greatest such integer in the greatest radix, negated. -/
theorem textInRadix_greatest : (-ofNat (2 ^ 53 - 1)).isInteger ∧
    (-ofNat (2 ^ 53 - 1)).toInt.natAbs < 2 ^ 53 ∧
    signedValue 36 ((-ofNat (2 ^ 53 - 1)).textInRadix 36).toList = -(2 ^ 53 - 1) ∧
    ((-ofNat (2 ^ 53 - 1)).textInRadix 36) = "-2gosa7pa2gv" := by
  have hint : (-ofNat (2 ^ 53 - 1)).IsInt (-(2 ^ 53 - 1)) :=
    (isInt_ofNat (n := 2 ^ 53 - 1) (by decide)).neg
  have hsmall : (-ofNat (2 ^ 53 - 1)).toInt.natAbs < 2 ^ 53 := by
    rw [hint.toInt_eq]
    decide
  obtain ⟨-, ⟨cs, htext, hcs⟩, hvalue⟩ :=
    textInRadix_of_isInteger hint.isInteger hsmall (show 2 ≤ 36 by decide) (by decide) (by decide)
  refine ⟨hint.isInteger, hsmall, hvalue.trans hint.toInt_eq, ?_⟩
  rw [hint.toInt_eq] at htext hcs
  have hnumeral : numeral 36 (2 ^ 53 - 1) = cs :=
    (hcs _).mp ⟨isNumeral_numeral (by decide) (by decide) _,
      numeralValue_numeral (by decide) (by decide) _⟩
  rw [← hnumeral] at htext
  exact String.toList_inj.mp (htext.trans (by decide +kernel))

end ActionScript.Number
