import ActionScript.Number.Significant
import ActionScript.Proofs.IntegerArithmetic
import ActionScript.Proofs.NumberText
import ActionScript.Proofs.WrittenDigits

/-! # Digits are taken out of the literals that they are laid out in

From every layout of digits without zeros at the ends, the same digits and the same power of ten of
the first are taken out (`Decimal.decompose_layout`). So the texts that come of the shortest
literals of a printer are those of the shortest digits, whichever layouts the printer chooses
(`Number.textBy?_eq`). With any such printer numbers are read back from their texts
(`Number.exists_textBy?_ofText`), and their digits are those of the rounding to fifteen digits but
for the least numbers (`Number.PrintsShortest.significant?_ne_rounded_iff`). -/

namespace ActionScript

theorem int32?_of_natAbs {n : Int} (h : n.natAbs < 2 ^ 31) : int32? n = some n := by
  rw [int32?, if_pos (by omega)]

theorem lowInt32_of_lt {n : Nat} (h : n < 2 ^ 31) : lowInt32 n = n := by
  rw [lowInt32, BitVec.toInt_ofNat', Int.bmod_eq_of_le] <;> omega

namespace Decimal

open Number

/-- Digits of which neither the first nor the last is a zero. -/
structure Significant (ds : List Char) : Prop where
  isDigit : ∀ c ∈ ds, Number.isDigit c
  ne_nil : ds ≠ []
  head : ∀ c ∈ ds.head?, c ≠ '0'
  last : ∀ c ∈ ds.getLast?, c ≠ '0'

variable {ds ws fs middle rest cs : List Char} {i j : Nat} {e leading : Int}

/-! ## Zeros at the ends -/

theorem span_zeros (hcs : ∀ c ∈ cs.head?, c ≠ '0') (i : Nat) :
    (List.replicate i '0' ++ cs).takeWhile (· = '0') = List.replicate i '0' ∧
      dropZeros (List.replicate i '0' ++ cs) = cs :=
  span_append (fun _ hc => decide_eq_true (List.eq_of_mem_replicate hc))
    fun c hc => decide_eq_false (hcs c hc)

theorem dropZerosEnd_append (hcs : ∀ c ∈ cs.getLast?, c ≠ '0') (j : Nat) :
    dropZerosEnd (cs ++ List.replicate j '0') = cs := by
  rw [← List.head?_reverse] at hcs
  rw [dropZerosEnd, List.reverse_append, List.reverse_replicate, (span_zeros hcs j).2,
    List.reverse_reverse]

theorem Significant.trimmed (hds : Significant ds) (i j : Nat) :
    (List.replicate i '0' ++ (ds ++ List.replicate j '0')).takeWhile (· = '0') =
        List.replicate i '0' ∧
      dropZerosEnd (dropZeros (List.replicate i '0' ++ (ds ++ List.replicate j '0'))) = ds := by
  have hhead : ∀ c ∈ (ds ++ List.replicate j '0').head?, c ≠ '0' := by
    rw [List.head?_append_of_ne_nil _ hds.ne_nil]
    exact hds.head
  obtain ⟨htake, hdrop⟩ := span_zeros hhead i
  exact ⟨htake, by rw [hdrop, dropZerosEnd_append hds.last]⟩

/-! ## The parts of a literal -/

theorem not_isExponentMark_of_isDigit {c : Char} (h : Number.isDigit c) :
    isExponentMark c = false := by
  obtain ⟨d, hd, rfl⟩ := exists_digitChar h
  revert d
  decide

theorem ne_point_of_isDigit {c : Char} (h : Number.isDigit c) : c ≠ '.' := by
  rintro rfl
  exact absurd h (by decide)

/-- The text is empty or begins with an exponent mark. -/
def BeginsExponent (rest : List Char) : Prop := ∀ c ∈ rest.head?, isExponentMark c

theorem span_mantissa (hcs : ∀ c ∈ cs, isExponentMark c = false) (hrest : BeginsExponent rest) :
    mantissa (cs ++ rest) = cs ∧ (cs ++ rest).dropWhile (!isExponentMark ·) = rest :=
  span_append (fun c hc => by rw [hcs c hc]; rfl) fun c hc => by rw [hrest c hc]; rfl

/-- A fraction behind the digits of the whole part: a point and digits, or nothing. -/
inductive Fraction : List Char → List Char → Prop
  | none : Fraction [] []
  | point (fs : List Char) : Fraction ('.' :: fs) fs

theorem Fraction.mantissa_spec (h : Fraction middle fs) (hws : ∀ c ∈ ws, Number.isDigit c)
    (hfs : ∀ c ∈ fs, Number.isDigit c) :
    (∀ c ∈ ws ++ middle, isExponentMark c = false) ∧
      (ws ++ middle).takeWhile (· ≠ '.') = ws ∧
      (ws ++ middle).filter Number.isDigit = ws ++ fs := by
  have hwhole : ∀ c ∈ ws, decide (c ≠ '.') := fun c hc =>
    decide_eq_true (ne_point_of_isDigit (hws c hc))
  have hmark : ∀ c ∈ ws, isExponentMark c = false := fun c hc =>
    not_isExponentMark_of_isDigit (hws c hc)
  rw [List.forall_mem_append, List.takeWhile_append_of_pos hwhole, List.filter_append,
    List.filter_eq_self.mpr hws]
  cases h with
  | none => exact ⟨⟨hmark, nofun⟩, by simp, rfl⟩
  | point =>
    refine ⟨⟨hmark, List.forall_mem_cons.mpr ⟨by decide, fun c hc => ?_⟩⟩, by simp, ?_⟩
    · exact not_isExponentMark_of_isDigit (hfs c hc)
    · rw [List.filter_cons_of_neg (by decide), List.filter_eq_self.mpr hfs]

/-- The digits around the point are the significant ones with `i` zeros before and `j` behind. -/
theorem decompose?_parts (hds : Significant ds) (hpoint : Fraction middle fs)
    (hall : ws ++ fs = List.replicate i '0' ++ (ds ++ List.replicate j '0'))
    (hrest : BeginsExponent rest) (hread : readExponent? rest = some e)
    (hi : i < 2 ^ 31 - 1) (hwhole : ws.length < 2 ^ 31) (he : e.natAbs < 2 ^ 31)
    (hleading : (ws.length - 1 - i + e : Int) = leading) (hfits : leading.natAbs < 2 ^ 31) :
    decompose? (ws ++ (middle ++ rest)) = some (ds, leading) := by
  have hdigits : ∀ c ∈ ws ++ fs, Number.isDigit c := by
    rw [hall, List.forall_mem_append, List.forall_mem_append]
    exact ⟨fun _ => isDigit_of_mem_zeros, hds.isDigit, fun _ => isDigit_of_mem_zeros⟩
  obtain ⟨hws, hfs⟩ := List.forall_mem_append.mp hdigits
  obtain ⟨hmark, hbefore, hfilter⟩ := hpoint.mantissa_spec hws hfs
  obtain ⟨hmantissa, hexponent⟩ := span_mantissa hmark hrest
  obtain ⟨hzeros, htrimmed⟩ := hds.trimmed i j
  have hempty : ds.isEmpty = false := by simp [hds.ne_nil]
  have hbehind : int32? (ws.length - 1) = some (ws.length - 1 : Int) :=
    int32?_of_natAbs (by omega)
  have hfirst : int32? (ws.length - 1 - i) = some (ws.length - 1 - i : Int) :=
    int32?_of_natAbs (by omega)
  rw [← List.append_assoc, decompose?, literalExponent, hmantissa, hexponent, hbefore, hfilter,
    hall, hread, Option.bind_some, int32?_of_natAbs he, Option.getD_some, hzeros, htrimmed, hempty,
    if_neg Bool.false_ne_true, List.length_replicate, lowInt32_of_lt hwhole,
    lowInt32_of_lt (by omega)]
  simp only [hbehind, hfirst, hleading, int32?_of_natAbs hfits, Option.bind_eq_bind,
    Option.bind_some]
  rfl

/-! ## The layouts -/

theorem beginsExponent_nil : BeginsExponent [] := nofun

theorem beginsExponent_cons (cs : List Char) : BeginsExponent ('e' :: cs) := by
  rintro c ⟨rfl⟩
  rfl

theorem decompose?_positional (hds : Significant ds) (he : e.natAbs < 2 ^ 31 - 1) :
    decompose? (positional ds e) = some (ds, e) := by
  have hend : readExponent? [] = some 0 := rfl
  rw [positional]
  split
  · rename_i hnegative
    obtain ⟨n, rfl⟩ : ∃ n : Nat, e = -(n + 1) := ⟨(-e - 1).toNat, by omega⟩
    have hzeros : (- -((n : Int) + 1) - 1).toNat = n := by omega
    have hall : ['0'] ++ (List.replicate n '0' ++ ds) =
        List.replicate (n + 1) '0' ++ (ds ++ List.replicate 0 '0') := by
      simp [List.replicate_succ]
    have hsum : (['0'].length - 1 - (n + 1 : Nat) + 0 : Int) = -(n + 1) := by simp
    have hparts := decompose?_parts hds (.point _) hall beginsExponent_nil hend (by omega)
      (by decide) (by decide) hsum (by omega)
    rw [hzeros]
    simpa using hparts
  · rename_i hnonneg
    obtain ⟨n, rfl⟩ := Int.eq_ofNat_of_zero_le (Int.not_lt.mp hnonneg)
    have hwhole : ((n : Int) + 1).toNat = n + 1 := rfl
    simp only [hwhole]
    split
    · rename_i hfits
      have hall : (ds ++ List.replicate (n + 1 - ds.length) '0') ++ [] =
          List.replicate 0 '0' ++ (ds ++ List.replicate (n + 1 - ds.length) '0') := by simp
      have hlength : (ds ++ List.replicate (n + 1 - ds.length) '0').length = n + 1 := by
        rw [List.length_append, List.length_replicate]
        omega
      have hsum : ((ds ++ List.replicate (n + 1 - ds.length) '0').length - 1 - (0 : Nat) + 0 :
          Int) = n := by omega
      have hparts := decompose?_parts hds .none hall beginsExponent_nil hend (by decide) (by omega)
        (by decide) hsum (by omega)
      simpa using hparts
    · rename_i hlong
      have hall : ds.take (n + 1) ++ ds.drop (n + 1) =
          List.replicate 0 '0' ++ (ds ++ List.replicate 0 '0') := by simp
      have hlength : (ds.take (n + 1)).length = n + 1 := by
        rw [List.length_take]
        omega
      have hsum : ((ds.take (n + 1)).length - 1 - (0 : Nat) + 0 : Int) = n := by omega
      have hparts := decompose?_parts hds (.point _) hall beginsExponent_nil hend (by decide)
        (by omega) (by decide) hsum (by omega)
      simpa using hparts

theorem decompose?_scientific (hds : Significant ds) (he : e.natAbs < 2 ^ 31) :
    decompose? (scientific ds e) = some (ds, e) := by
  obtain ⟨c, cs, rfl⟩ := List.exists_cons_of_ne_nil hds.ne_nil
  have hread := readExponent?_mark e
  have hpoint : ∃ middle, Fraction middle cs ∧
      (if cs.isEmpty then [c] else [c] ++ '.' :: cs) = [c] ++ middle := by
    cases cs with
    | nil => exact ⟨_, .none, rfl⟩
    | cons d cs => exact ⟨_, .point _, rfl⟩
  obtain ⟨middle, hpoint, hmantissa⟩ := hpoint
  have hall : [c] ++ cs = List.replicate 0 '0' ++ (c :: cs ++ List.replicate 0 '0') := by simp
  have hsum : (([c].length : Int) - 1 - (0 : Nat) + e) = e := by simp
  have hparts := decompose?_parts hds hpoint hall (beginsExponent_cons _) hread (by decide)
    (by simp) he hsum he
  have htake : (c :: cs).take 1 = [c] := rfl
  have hdrop : (c :: cs).drop 1 = cs := rfl
  rw [scientific, htake, hdrop, hmantissa, List.append_assoc]
  exact hparts

/-- Digits without zeros at the ends are taken out of the literal that they are laid out in,
together with the power of ten of the first, as long as that and the number of digits are within 32
bits. -/
theorem decompose_layout (hds : Significant ds) (he : |e| < 2 ^ 31 - 1 - ds.length) :
    decompose? (layout ds e) = some (ds, e) := by
  have hfits : e.natAbs < 2 ^ 31 - 1 := by
    rw [Int.abs_eq_natAbs] at he
    omega
  rw [layout]
  split
  · exact decompose?_positional hds hfits
  · exact decompose?_scientific hds (by omega)

/-- The least exponent that is written with a mark, and its literal. -/
theorem decompose_layout_marked :
    Significant ['1', '5'] ∧ |(-6 : Int)| < 2 ^ 31 - 1 - (['1', '5'].length : Int) ∧
      layout ['1', '5'] (-6) = "1.5e-6".toList ∧
      decompose? "1.5e-6".toList = some (['1', '5'], -6) := by
  have hds : Significant ['1', '5'] :=
    ⟨by simp; decide, by decide, by rintro c ⟨rfl⟩; decide, by rintro c ⟨rfl⟩; decide⟩
  have he : |(-6 : Int)| < 2 ^ 31 - 1 - (['1', '5'].length : Int) := by decide
  have hlayout : layout ['1', '5'] (-6) = "1.5e-6".toList := by decide
  exact ⟨hds, he, hlayout, hlayout ▸ decompose_layout hds he⟩

/-! ## The digits that are written -/

variable {d : Decimal} {x : Number}

theorem significant_digits (hd : d.coefficient % 10 ≠ 0) : Significant d.digits where
  isDigit _ := isDigit_of_mem_digits
  ne_nil := d.digits_ne_nil
  head := head?_toDigits (by omega)
  last := by
    rw [digits, getLast?_toDigits]
    rintro c ⟨rfl⟩
    exact (nat_digitChar_eq_zero_iff (Nat.mod_lt _ (by decide))).not.mpr hd

/-- Decimals that are read as positive numbers have small exponents. -/
theorem natAbs_leading_le (hx : x.Positive) (h : d.toNumber = x) : d.leading.natAbs ≤ 400 := by
  rw [toNumber] at h
  split_ifs at h with hzero hlarge hsmall
  · exact absurd (congrArg magnitude h).symm hx.nonzero
  · exact absurd hx.isFinite (by rw [← h]; decide)
  · exact absurd (congrArg magnitude h).symm hx.nonzero
  all_goals omega

end Decimal

namespace Number

open Decimal

variable {x : Number} {count : Nat} {literal : Number → List Char}

namespace Positive

variable (hx : x.Positive)
include hx

/-- A coarse bound, with powers of ten for those of two. -/
theorem natAbs_decimalExponent_le : x.decimalExponent.natAbs ≤ 2098 := by
  obtain ⟨k, hk, hunits⟩ := exists_unitsPerOne
  obtain ⟨j, hj, hlt⟩ := (representable_magnitude x).lt
  have htwo (n : Nat) : (2 : ℚ) ^ n ≤ 10 ^ n := pow_le_pow_left₀ (by norm_num) (by norm_num) n
  have hupper : x.value < 10 ^ (j : Int) := by
    rw [hx.value_eq, zpow_natCast]
    refine (div_le_self (Nat.cast_nonneg _) ?_).trans_lt (lt_of_lt_of_le ?_ (htwo j))
    · exact_mod_cast unitsPerOne_pos
    · exact_mod_cast hlt
  have hlower : (10 : ℚ) ^ (-k : Int) ≤ x.value := by
    have hone : (1 : ℚ) ≤ x.magnitude := by exact_mod_cast Nat.pos_of_ne_zero hx.nonzero
    have hunit : (unitsPerOne : ℚ) = 2 ^ k := by exact_mod_cast hunits
    calc (10 : ℚ) ^ (-k : Int) = (10 ^ k)⁻¹ := by rw [zpow_neg, zpow_natCast]
      _ ≤ (2 ^ k)⁻¹ := inv_anti₀ (by positivity) (htwo k)
      _ = 1 / unitsPerOne := by rw [hunit, one_div]
      _ ≤ x.magnitude / unitsPerOne := div_le_div_of_nonneg_right hone cast_unitsPerOne_pos.le
      _ = x.value := hx.value_eq.symm
  have hbelow := (zpow_lt_zpow_iff_right₀ (by norm_num)).mp
    (hx.zpow_decimalExponent_le.trans_lt hupper)
  have habove := (zpow_lt_zpow_iff_right₀ (by norm_num)).mp
    (hlower.trans_lt hx.lt_zpow_decimalExponent)
  omega

/-- Rounding may add a digit in front, as from 9.6 to 10. -/
theorem leading_rounded (hcount : 1 < count) :
    x.decimalExponent ≤ (x.rounded count).leading ∧
      (x.rounded count).leading ≤ x.decimalExponent + 1 := by
  have hpos : 0 < count := by omega
  obtain ⟨hlow, hhigh, -⟩ := hx.roundedCoefficient_bounds hpos
  have hgrid := Decimal.ten_zpow_pos (x.gridExponent count)
  have hnonzero := (hx.rounds_rounded hcount).coefficient_ne_zero
  have hle : (10 : ℚ) ^ x.decimalExponent ≤ (x.rounded count).value := by
    rw [zpow_gridExponent x hpos, hx.value_rounded hpos]
    exact mul_le_mul_of_nonneg_right (by exact_mod_cast hlow) hgrid.le
  have hge : (x.rounded count).value ≤ 10 ^ (x.decimalExponent + 1) := by
    rw [zpow_gridExponent_succ x count, hx.value_rounded hpos]
    exact mul_le_mul_of_nonneg_right (by exact_mod_cast hhigh) hgrid.le
  have hbelow := (zpow_lt_zpow_iff_right₀ (by norm_num)).mp (hle.trans_lt (lt_zpow_leading _))
  have habove := (zpow_le_zpow_iff_right₀ (by norm_num)).mp
    ((zpow_leading_le hnonzero).trans hge)
  omega

end Positive

theorem readExponent?_toString (e : Int) : readExponent? ('e' :: (toString e).toList) = some e := by
  cases e with
  | ofNat n =>
    rw [toList_toString_ofNat, readExponent?_digits (.inl rfl) Nat.toDigits_ne_nil
      fun _ => isDigit_of_mem_toDigits, digitsValue_toDigits]
    rfl
  | negSucc n =>
    rw [toList_toString_negSucc, readExponent?_minus (.inl rfl) Nat.toDigits_ne_nil
      fun _ => isDigit_of_mem_toDigits, digitsValue_toDigits]
    rfl

/-- The digits of the rounding are taken out of its literal. -/
theorem Positive.decompose?_exactLiteral (hx : x.Positive) (hcount : 1 < count) :
    decompose? (x.exactLiteral count) =
      some ((x.rounded count).digits, (x.rounded count).leading) := by
  have hds := significant_digits (hx.rounds_rounded hcount).stripped
  obtain ⟨hlow, hhigh⟩ := hx.leading_rounded hcount
  have hexp := hx.natAbs_decimalExponent_le
  obtain ⟨c, cs, hcs⟩ := List.exists_cons_of_ne_nil hds.ne_nil
  have hzeros : ∃ j, x.exactLiteral count =
      [c] ++ (('.' :: (cs ++ List.replicate j '0')) ++
        'e' :: (toString (x.rounded count).leading).toList) := by
    refine ⟨count - (x.rounded count).digits.length, ?_⟩
    rw [exactLiteral, hcs]
    simp
  obtain ⟨j, hliteral⟩ := hzeros
  have hall : [c] ++ (cs ++ List.replicate j '0') =
      List.replicate 0 '0' ++ ((x.rounded count).digits ++ List.replicate j '0') := by
    simp [hcs]
  rw [hliteral]
  exact decompose?_parts hds (.point _) hall (beginsExponent_cons _) (readExponent?_toString _)
    (by decide) (by simp) (by omega) (by simp) (by omega)

/-- A printer writes a positive number with the digits of its shortest decimal, with or without an
exponent. -/
def PrintsShortest (literal : Number → List Char) (x : Number) : Prop :=
  ∃ s : Decimal, s.IsShortest x ∧
    (literal x = positional s.digits s.leading ∨ literal x = scientific s.digits s.leading)

theorem PrintsShortest.decompose?_eq (hx : x.Positive) (h : PrintsShortest literal x) :
    ∃ s : Decimal, s.IsShortest x ∧ decompose? (literal x) = some (s.digits, s.leading) := by
  obtain ⟨s, hs, hliteral⟩ := h
  have hds := significant_digits hs.stripped
  have hleading := natAbs_leading_le hx hs.read
  refine ⟨s, hs, ?_⟩
  rcases hliteral with hliteral | hliteral <;> rw [hliteral]
  · exact decompose?_positional hds (by omega)
  · exact decompose?_scientific hds (by omega)

/-- The digits taken out of the literals are those that are written. -/
theorem PrintsShortest.significant?_eq (hx : x.Positive) (h : PrintsShortest literal x) :
    significant? literal x = some (x.decimal.digits, x.decimal.leading) := by
  obtain ⟨s, hs, hdecompose⟩ := h.decompose?_eq hx
  simp only [significant?, hdecompose, decimal_eq_of_isShortest hx hs, Option.bind_eq_bind,
    Option.bind_some]
  split
  · rfl
  · exact hx.decompose?_exactLiteral (by decide)

/-- With a printer of shortest literals, the texts of numbers are those of their shortest digits. -/
theorem textBy?_eq (h : x.isFinite → x.isZero = false → PrintsShortest literal x.abs) :
    textBy? literal x = some x.text := by
  cases x with
  | nan => rfl
  | infinite negative => rfl
  | finite negative m p hcanonical =>
    rw [textBy?, text]
    split
    · rfl
    · rename_i hm
      have hzero : (finite negative m p hcanonical).isZero = false := by
        rw [isZero, beq_eq_false_iff_ne]
        exact hm
      have hprints := h rfl hzero
      rw [hprints.significant?_eq (positive_abs rfl hzero)]
      cases negative with
      | false => rfl
      | true =>
        have hminus (cs : List Char) : "-" ++ String.ofList cs = String.ofList ('-' :: cs) :=
          (@String.ofList_append ['-'] cs).symm
        rw [if_pos rfl, Decimal.text, hminus]
        rfl

/-! ## Texts and digits of any printer -/

/-- The digits and the power of ten of the first one tell decimals apart. -/
theorem eq_of_digits_eq {d d' : Decimal} (hdigits : d.digits = d'.digits)
    (hleading : d.leading = d'.leading) : d = d' := by
  have hcoefficient : d.coefficient = d'.coefficient := by
    rw [← digitsValue_digits, hdigits, digitsValue_digits]
  have hexponent : d.exponent = d'.exponent := by
    rw [leading, leading, hdigits] at hleading
    omega
  cases d
  cases d'
  cases hcoefficient
  cases hexponent
  rfl

/-- With a printer of shortest literals, a finite number of which the shortest decimal has at most
fifteen digits has a text, and is read back from it; a zero loses its sign. -/
theorem exists_textBy?_ofText (hx : x.isFinite)
    (hprints : x.isZero = false → PrintsShortest literal x.abs)
    (hfits : ∀ s : Decimal, s.IsShortest x.abs → s.digits.length ≤ precision) :
    ∃ text, textBy? literal x = some text ∧
      ofText text = if x.isZero then zero false else x := by
  refine ⟨x.text, textBy?_eq fun _ => hprints, ofText_text_of_read hx fun hzero => ?_⟩
  obtain ⟨s, hs, -⟩ := hprints hzero
  rw [decimal_eq_of_isShortest (positive_abs hx hzero) hs, if_pos (hfits s hs)]
  exact hs.read

/-- With a printer of shortest literals, the digits that are written are those of the rounding to
fifteen digits from `10 ^ -309` on. Below, they are others exactly if a decimal with fewer digits
than the rounding is read as the number. -/
theorem PrintsShortest.significant?_ne_rounded_iff (hx : x.Positive)
    (h : PrintsShortest literal x) :
    (10 ^ (-309 : Int) ≤ x.value → significant? literal x =
      some ((x.rounded precision).digits, (x.rounded precision).leading)) ∧
    (significant? literal x ≠ some ((x.rounded precision).digits, (x.rounded precision).leading) ↔
      ∃ d : Decimal, d.toNumber = x ∧ d.digits.length < (x.rounded precision).digits.length) := by
  rw [h.significant?_eq hx, ← decimal_ne_iff_exists_fewer hx]
  refine ⟨fun hlarge => by rw [decimal_eq_rounded hx hlarge],
    not_congr ⟨fun heq => ?_, fun heq => ?_⟩⟩
  · obtain ⟨hdigits, hleading⟩ := Prod.mk.inj (Option.some.inj heq)
    exact eq_of_digits_eq hdigits hleading
  · rw [heq]

end Number

end ActionScript
