import ActionScript.Proofs.Numeral
import ActionScript.Proofs.ShortestDigits

/-! # Texts of numbers are read back

In each of its layouts the text of a decimal is read as a decimal of the same value
(`Decimal.readDecimal?_text`), so a number that some decimal of at most fifteen digits is read as
is read from its own text (`Number.ofText_text`). -/

namespace ActionScript

namespace Number

variable {ds fs : List Char}

theorem digitsValue_append (ds fs : List Char) :
    digitsValue (ds ++ fs) = digitsValue ds * 10 ^ fs.length + digitsValue fs := by
  induction fs using List.reverseRecOn with
  | nil => simp [digitsValue]
  | append_singleton fs c ih =>
    rw [← List.append_assoc, digitsValue_append_singleton, digitsValue_append_singleton, ih,
      List.length_append, List.length_singleton, pow_succ]
    ring

theorem digitsValue_zeros (n : Nat) : digitsValue (List.replicate n '0') = 0 := by
  induction n with
  | zero => rfl
  | succ n ih =>
    rw [List.replicate_succ', digitsValue_append_singleton, ih]
    rfl

theorem isDigit_of_mem_zeros {n : Nat} {c : Char} (h : c ∈ List.replicate n '0') : isDigit c := by
  rw [List.eq_of_mem_replicate h]
  decide

end Number

namespace Decimal

open Number

variable {d : Decimal}

theorem isDigit_of_mem_digits {c : Char} (h : c ∈ d.digits) : isDigit c :=
  isDigit_of_mem_toDigits h

theorem digitsValue_digits (d : Decimal) : digitsValue d.digits = d.coefficient :=
  digitsValue_toDigits d.coefficient

theorem digits_ne_nil (d : Decimal) : d.digits ≠ [] := Nat.toDigits_ne_nil

theorem toList_text (d : Decimal) : d.text.toList =
    if isPositional d.leading then
      if d.leading < 0 then
        '0' :: '.' :: List.replicate (-d.leading - 1).toNat '0' ++ d.digits
      else if d.digits.length ≤ (d.leading + 1).toNat then
        d.digits ++ List.replicate ((d.leading + 1).toNat - d.digits.length) '0'
      else d.digits.take (d.leading + 1).toNat ++ '.' :: d.digits.drop (d.leading + 1).toNat
    else
      (if (d.digits.drop 1).isEmpty then d.digits.take 1
        else d.digits.take 1 ++ '.' :: d.digits.drop 1) ++
      'e' :: (if d.leading < 0 then '-' else '+') :: Nat.toDigits 10 d.leading.natAbs := by
  rw [text, String.toList_ofList, layout, positional, scientific]

/-- The mark, sign and digits of an exponent. -/
theorem readExponent?_mark (e : Int) :
    readExponent? ('e' :: (if e < 0 then '-' else '+') :: Nat.toDigits 10 e.natAbs) = some e := by
  have hdigits : ∀ c ∈ Nat.toDigits 10 e.natAbs, isDigit c := fun _ => isDigit_of_mem_toDigits
  split
  · rw [readExponent?_minus (.inl rfl) Nat.toDigits_ne_nil hdigits, digitsValue_toDigits]
    congr 1
    omega
  · rw [readExponent?_plus (.inl rfl) Nat.toDigits_ne_nil hdigits, digitsValue_toDigits]
    congr 1
    omega

/-! ### The layouts -/

/-- Digits behind a point and zeros. -/
theorem readDecimal?_behind (d : Decimal) (n : Nat) :
    readDecimal? ('0' :: '.' :: List.replicate n '0' ++ d.digits) =
      some ⟨d.coefficient, 0 - ((n + d.digits.length : Nat) : Int)⟩ := by
  have hdigits : ∀ c ∈ List.replicate n '0' ++ d.digits, isDigit c := by
    rw [List.forall_mem_append]
    exact ⟨fun _ => isDigit_of_mem_zeros, fun _ => isDigit_of_mem_digits⟩
  have hzero : ∀ c ∈ ['0'], isDigit c := List.forall_mem_singleton.mpr (by decide)
  have hread := @readDecimal?_point ['0'] _ [] hzero hdigits (.inl (by simp)) endsDigits_nil
  have hzeros : digitsValue (['0'] ++ (List.replicate n '0' ++ d.digits)) = d.coefficient := by
    rw [digitsValue_append, digitsValue_append, digitsValue_zeros, digitsValue_digits]
    simp [digitsValue, digitValue?]
  rw [hzeros, List.append_nil, List.length_append, List.length_replicate] at hread
  exact hread

/-- Digits with zeros behind them. -/
theorem readDecimal?_padded (d : Decimal) (n : Nat) :
    readDecimal? (d.digits ++ List.replicate n '0') = some ⟨d.coefficient * 10 ^ n, 0⟩ := by
  have hdigits : ∀ c ∈ d.digits ++ List.replicate n '0', isDigit c := by
    rw [List.forall_mem_append]
    exact ⟨fun _ => isDigit_of_mem_digits, fun _ => isDigit_of_mem_zeros⟩
  rw [readDecimal?_of_isDigit (by simp [d.digits_ne_nil]) hdigits, digitsValue_append,
    digitsValue_zeros, digitsValue_digits, List.length_replicate]
  rfl

/-- Digits with a point among them, and what stands for the exponent. -/
theorem readDecimal?_pointed {n : Nat} (hpos : 0 < n) {rest : List Char}
    (hrest : EndsDigits rest) {e : Int} (hread : readExponent? rest = some e) :
    readDecimal? (d.digits.take n ++ '.' :: (d.digits.drop n ++ rest)) =
      some ⟨d.coefficient, e - ((d.digits.length - n : Nat) : Int)⟩ := by
  have htake : ∀ c ∈ d.digits.take n, isDigit c := fun c hc =>
    isDigit_of_mem_digits (List.mem_of_mem_take hc)
  have hdrop : ∀ c ∈ d.digits.drop n, isDigit c := fun c hc =>
    isDigit_of_mem_digits (List.mem_of_mem_drop hc)
  have hne : d.digits.take n ≠ [] := by
    simp [d.digits_ne_nil, hpos.ne']
  rw [readDecimal?_point htake hdrop (.inl hne) hrest, hread, List.take_append_drop,
    digitsValue_digits, List.length_drop]
  rfl

/-- The text is read as a decimal of the same value; it is another one if zeros stand behind the
digits. -/
theorem readDecimal?_text (d : Decimal) :
    ∃ r, readDecimal? d.text.toList = some r ∧ r.value = d.value := by
  have hexp : d.exponent = d.leading + 1 - d.digits.length := by
    rw [leading]
    omega
  have hsame {e : Int} (he : e = d.exponent) : value ⟨d.coefficient, e⟩ = d.value := by
    rw [he]
  rw [toList_text]
  split
  · split
    · exact ⟨_, d.readDecimal?_behind _, hsame (by omega)⟩
    · split
      · rename_i hle
        refine ⟨_, d.readDecimal?_padded _, ?_⟩
        have hzeros : ((d.leading + 1).toNat - d.digits.length : Nat) = d.exponent := by omega
        rw [value, value, ← hzeros, zpow_natCast]
        push_cast
        ring
      · have hread := readDecimal?_pointed (d := d) (n := (d.leading + 1).toNat) (by omega)
          endsDigits_nil rfl
        rw [List.append_nil] at hread
        exact ⟨_, hread, hsame (by omega)⟩
  · have hmark := endsDigits_cons (c := 'e') (by decide)
      ((if d.leading < 0 then '-' else '+') :: Nat.toDigits 10 d.leading.natAbs)
    split
    · rename_i hempty
      have hone : d.digits.length = 1 := by
        have := d.length_digits_pos
        rw [List.isEmpty_iff, List.drop_eq_nil_iff] at hempty
        omega
      have hread := readDecimal?_whole (fun _ => isDigit_of_mem_digits) d.digits_ne_nil hmark
        (by simp)
      rw [readExponent?_mark, digitsValue_digits] at hread
      rw [List.take_of_length_le hone.le]
      exact ⟨_, hread, hsame (by omega)⟩
    · have hread := readDecimal?_pointed (d := d) Nat.one_pos hmark (readExponent?_mark d.leading)
      rw [List.append_assoc, List.cons_append]
      have := d.length_digits_pos
      exact ⟨_, hread, hsame (by omega)⟩

/-- What a text consists of. -/
theorem of_mem_text {c : Char} (h : c ∈ d.text.toList) :
    isDigit c ∨ c = '.' ∨ c = 'e' ∨ c = '+' ∨ c = '-' := by
  have hdigits (h : c ∈ d.digits) : isDigit c := isDigit_of_mem_digits h
  have htake {n : Nat} (h : c ∈ d.digits.take n) : isDigit c := hdigits (List.mem_of_mem_take h)
  have hdrop {n : Nat} (h : c ∈ d.digits.drop n) : isDigit c := hdigits (List.mem_of_mem_drop h)
  have hzeros {n : Nat} (h : c ∈ List.replicate n '0') : isDigit c := isDigit_of_mem_zeros h
  have hpower (h : c ∈ Nat.toDigits 10 d.leading.natAbs) : isDigit c := isDigit_of_mem_toDigits h
  have hzero : isDigit '0' := by decide
  rw [toList_text] at h
  split at h
  · split at h <;> grind
  · grind

/-- A text is a decimal numeral of its decimal. -/
theorem readMagnitude_text (d : Decimal) : readMagnitude d.text.toList = d.toNumber := by
  have hletter {c : Char} (hdigit : isDigit c = false)
      (hc : ¬ (c = '.' ∨ c = 'e' ∨ c = '+' ∨ c = '-')) : c ∉ d.text.toList := fun hmem =>
    (of_mem_text hmem).elim (fun h => by simp [hdigit] at h) hc
  obtain ⟨r, hread, hvalue⟩ := d.readDecimal?_text
  rw [readMagnitude_eq (hletter (by decide) (by decide)) (hletter (by decide) (by decide))
    (hletter (by decide) (by decide)), hread, ← toNumber_congr hvalue]
  rfl

theorem not_isBlank_of_mem_text {c : Char} (h : c ∈ d.text.toList) : Text.isBlank c = false := by
  rcases of_mem_text h with hdigit | rfl | rfl | rfl | rfl
  · exact not_isBlank_of_isDigit hdigit
  all_goals decide

/-- A text starts with no sign. -/
theorem ofText_eq_toNumber (d : Decimal) : ofText d.text = d.toNumber := by
  have htrim := Text.trim_of_not_isBlank fun _ => not_isBlank_of_mem_text (d := d)
  obtain ⟨r, hread, -⟩ := d.readDecimal?_text
  rw [← readMagnitude_text]
  cases htext : d.text.toList with
  | nil =>
    rw [htext] at hread
    cases hread
  | cons c cs =>
    have hsign (sign : Char) (hnone : readDecimal? (sign :: cs) = none) : c ≠ sign := by
      rintro rfl
      rw [htext, hnone] at hread
      cases hread
    exact ofText_of_unsigned (htrim.trans htext) (hsign '-' rfl) (hsign '+' rfl)

theorem ofText_minus_eq_neg (d : Decimal) : ofText ("-" ++ d.text) = -d.toNumber := by
  have hblank : ∀ c ∈ ("-" ++ d.text).toList, Text.isBlank c = false := by
    rw [String.toList_append, List.forall_mem_append]
    exact ⟨List.forall_mem_singleton.mpr (by decide), fun _ => not_isBlank_of_mem_text⟩
  have htrim := Text.trim_of_not_isBlank hblank
  rw [String.toList_append] at htrim
  have hread : ofText ("-" ++ d.text) = -readMagnitude d.text.toList :=
    ofText_of_minus (by rw [String.toList_append, htrim]; rfl)
  rw [hread, readMagnitude_text]

end Decimal

namespace Number

variable {x : Number} {d : Decimal}

theorem positive_abs (hx : x.isFinite) (hne : x.isZero = false) : x.abs.Positive := by
  cases x with
  | nan | infinite => cases hx
  | finite negative m p h =>
    refine ⟨rfl, rfl, fun hzero => ?_⟩
    rw [abs, magnitude, Nat.shiftLeft_eq, Nat.mul_eq_zero] at hzero
    have hm : m ≠ 0 := by simpa [isZero] using hne
    exact hm (hzero.resolve_right (Nat.two_pow_pos p).ne')

/-- The digits that are written are the shortest ones, if any decimal of fifteen digits is read
back. -/
theorem Positive.isShortest_decimal (hx : x.Positive) (hd : d.digits.length ≤ precision)
    (hread : d.toNumber = x) : x.decimal.IsShortest x := by
  obtain ⟨s, hs⟩ := hx.exists_shortest? hd hread
  rw [decimal, hs]
  exact (hx.isShortest_of_shortest? hs).1

/-- What is written of a number is read back as it if the digits that are written of its magnitude
are read back as that; a zero loses its sign. -/
theorem ofText_text_of_read (hx : x.isFinite)
    (hread : x.isZero = false → x.abs.decimal.toNumber = x.abs) :
    ofText x.text = if x.isZero then zero false else x := by
  cases x with
  | nan | infinite => cases hx
  | finite negative m p h =>
    by_cases hm : m = 0
    · have hzero : (finite negative m p h).isZero := beq_iff_eq.mpr hm
      have htext : (finite negative m p h).text = Decimal.text ⟨0, 0⟩ := if_pos hm
      rw [if_pos hzero, htext, Decimal.ofText_eq_toNumber]
      rfl
    · have hzero : (finite negative m p h).isZero = false := beq_eq_false_iff_ne.mpr hm
      have hback := hread hzero
      rw [text, if_neg hm, hzero, if_neg Bool.false_ne_true]
      cases negative with
      | true =>
        rw [if_pos rfl, Decimal.ofText_minus_eq_neg, hback]
        rfl
      | false => rw [if_neg Bool.false_ne_true, Decimal.ofText_eq_toNumber, ← abs, hback]

/-- A finite number that some decimal of at most fifteen digits is read as is read back from its
text; a zero loses its sign. -/
theorem ofText_text (hx : x.isFinite) (hd : d.digits.length ≤ precision)
    (hread : d.toNumber = x.abs) : ofText x.text = if x.isZero then zero false else x :=
  ofText_text_of_read hx fun hzero => ((positive_abs hx hzero).isShortest_decimal hd hread).read

/-- The text of the greatest negative number has one digit. -/
theorem ofText_text_least :
    Decimal.toNumber ⟨5, -324⟩ = .finite false 1 0 ⟨by decide, .inr rfl, by decide⟩ ∧
      ofText (text (.finite true 1 0 ⟨by decide, .inr rfl, by decide⟩)) =
        .finite true 1 0 ⟨by decide, .inr rfl, by decide⟩ := by
  have hread : Decimal.toNumber ⟨5, -324⟩ = .finite false 1 0 ⟨by decide, .inr rfl, by decide⟩ := by
    decide +kernel
  exact ⟨hread, ofText_text rfl (by decide) hread⟩

end Number

end ActionScript
