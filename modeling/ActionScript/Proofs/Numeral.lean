import Mathlib.Data.List.DropRight
import ActionScript.Number.Literal
import ActionScript.Proofs.Number

/-! # Reading numerals

Blanks at the ends of a text do not count, and the text of an integer is read as that integer
(`Number.ofText_toString`). -/

namespace ActionScript

namespace Text

theorem trimStart_cons_of_isBlank {c : Char} (hc : isBlank c) (cs : List Char) :
    trimStart (c :: cs) = trimStart cs := List.dropWhile_cons_of_pos hc

theorem trimStart_cons_of_not_isBlank {c : Char} (hc : isBlank c = false) (cs : List Char) :
    trimStart (c :: cs) = c :: cs := List.dropWhile_cons_of_neg (by simp [hc])

/-- Trimming twice is trimming once. -/
theorem trimStart_trimStart (cs : List Char) : trimStart (trimStart cs) = trimStart cs :=
  List.dropWhile_idempotent _ cs

/-- A text is its blanks at the start and what is left without them. -/
theorem takeWhile_append_trimStart (cs : List Char) :
    cs.takeWhile isBlank ++ trimStart cs = cs := List.takeWhile_append_dropWhile

/-- Blanks put before a text are trimmed away. -/
theorem trimStart_append_of_isBlank {before : List Char} (h : ∀ c ∈ before, isBlank c)
    (cs : List Char) : trimStart (before ++ cs) = trimStart cs := by
  induction before with
  | nil => rfl
  | cons c before ih =>
    rw [List.cons_append, trimStart_cons_of_isBlank (h c List.mem_cons_self)]
    exact ih fun c hc => h c (List.mem_cons_of_mem _ hc)

/-- Blanks put after a text are trimmed away. -/
theorem trimEnd_append_of_isBlank (cs : List Char) {after : List Char}
    (h : ∀ c ∈ after, isBlank c) : trimEnd (cs ++ after) = trimEnd cs := by
  have hreverse : ∀ c ∈ after.reverse, isBlank c := fun c hc => h c (List.mem_reverse.mp hc)
  have htrim := trimStart_append_of_isBlank hreverse cs.reverse
  rw [trimStart, trimStart] at htrim
  rw [trimEnd, List.reverse_append, htrim]
  rfl

theorem trimEnd_of_getLast? {cs : List Char} (h : ∀ c ∈ cs.getLast?, isBlank c = false) :
    trimEnd cs = cs := by
  rw [trimEnd]
  cases hcs : cs.reverse with
  | nil => simpa using hcs.symm
  | cons c rest =>
    have hc : isBlank c = false := h c (by rw [List.getLast?_eq_head?_reverse, hcs]; rfl)
    rw [List.dropWhile_cons_of_neg (by simp [hc]), ← hcs, List.reverse_reverse]

theorem trimEnd_of_not_isBlank {cs : List Char} (h : ∀ c ∈ cs, isBlank c = false) :
    trimEnd cs = cs := trimEnd_of_getLast? fun c hc => h c (List.mem_of_getLast? hc)

/-- A text without blanks is left as it is. -/
theorem trim_of_not_isBlank {cs : List Char} (h : ∀ c ∈ cs, isBlank c = false) : trim cs = cs := by
  cases cs with
  | nil => rfl
  | cons c cs =>
    rw [trim, trimStart_cons_of_not_isBlank (h c List.mem_cons_self), trimEnd_of_not_isBlank h]

end Text

/-! ## Decimal numerals -/

/-- A span ends where what follows no longer belongs to it. -/
theorem span_append {α : Type} {p : α → Bool} {xs rest : List α} (hxs : ∀ x ∈ xs, p x)
    (hrest : ∀ x ∈ rest.head?, p x = false) :
    (xs ++ rest).takeWhile p = xs ∧ (xs ++ rest).dropWhile p = rest := by
  rw [List.takeWhile_append_of_pos hxs, List.dropWhile_append_of_pos hxs]
  cases rest with
  | nil => exact ⟨List.append_nil xs, rfl⟩
  | cons x rest =>
    have hx : p x = false := hrest x rfl
    simp [hx]

namespace Number

theorem isDigit_of_mem_toDigits {n : Nat} {c : Char} (h : c ∈ Nat.toDigits 10 n) : isDigit c := by
  rw [isDigit_eq]
  exact Nat.isDigit_of_mem_toDigits (by decide) (by decide) h

theorem toNat_of_isDigit {c : Char} (h : isDigit c) : 48 ≤ c.toNat ∧ c.toNat ≤ 57 := by
  rw [isDigit_eq] at h
  simpa [Char.isDigit, UInt32.le_iff_toNat_le] using h

/-- A digit is the character of a number below ten. -/
theorem exists_digitChar {c : Char} (h : isDigit c) : ∃ d < 10, c = Nat.digitChar d := by
  have hbounds := toNat_of_isDigit h
  have hlt : c.toNat - 48 < 10 := by omega
  refine ⟨c.toNat - 48, hlt, Char.toNat_inj.mp ?_⟩
  rw [Nat.toNat_digitChar_of_lt_ten hlt]
  omega

theorem nat_digitChar_eq_zero_iff {d : Nat} (hd : d < 10) : Nat.digitChar d = '0' ↔ d = 0 := by
  revert d
  decide

/-- The numeral of a number that is not zero does not begin with a zero. -/
theorem head?_toDigits {n : Nat} (hn : n ≠ 0) : ∀ c ∈ (Nat.toDigits 10 n).head?, c ≠ '0' := by
  induction n using Nat.strongRecOn with
  | ind n ih =>
    by_cases hlt : n < 10
    · rw [Nat.toDigits_of_lt_base hlt]
      rintro c ⟨rfl⟩
      exact (nat_digitChar_eq_zero_iff hlt).not.mpr hn
    · rw [Nat.toDigits_of_base_le (by decide) (by omega),
        List.head?_append_of_ne_nil _ Nat.toDigits_ne_nil]
      exact ih (n / 10) (by omega) (by omega)

/-- The last digit written is the remainder by ten. -/
theorem getLast?_toDigits (n : Nat) :
    (Nat.toDigits 10 n).getLast? = some (Nat.digitChar (n % 10)) := by
  rw [Nat.toDigits_eq_if (by decide)]
  split
  · rename_i hlt
    rw [Nat.mod_eq_of_lt hlt]
    rfl
  · exact List.getLast?_concat

/-- Digits of which the first is no zero are the numeral of their value. -/
theorem toDigits_digitsValue {cs : List Char} (h : ∀ c ∈ cs, isDigit c)
    (hhead : ∀ c ∈ cs.head?, c ≠ '0') (hne : cs ≠ []) :
    digitsValue cs ≠ 0 ∧ Nat.toDigits 10 (digitsValue cs) = cs := by
  induction cs using List.reverseRecOn with
  | nil => exact absurd rfl hne
  | append_singleton ds c ih =>
    obtain ⟨d, hd, rfl⟩ := exists_digitChar (h c (by simp))
    rw [digitsValue_append_singleton, digitValue?_digitChar hd, Option.getD_some]
    rcases eq_or_ne ds [] with rfl | hds
    · have hzero : d ≠ 0 := (nat_digitChar_eq_zero_iff hd).not.mp (hhead _ rfl)
      simp [digitsValue, hzero, Nat.toDigits_of_lt_base hd]
    · rw [List.head?_append_of_ne_nil _ hds] at hhead
      obtain ⟨hpos, hdigits⟩ := ih (fun c hc => h c (List.mem_append_left _ hc)) hhead hds
      have hdiv : (digitsValue ds * 10 + d) / 10 = digitsValue ds := by omega
      have hmod : (digitsValue ds * 10 + d) % 10 = d := by omega
      refine ⟨by omega, ?_⟩
      rw [Nat.toDigits_of_base_le (by decide) (by omega), hdiv, hmod, hdigits]

theorem not_isBlank_of_isDigit {c : Char} (h : isDigit c) : Text.isBlank c = false := by
  have := toNat_of_isDigit h
  simp [Text.isBlank]
  omega

/-- The text does not go on with a digit. -/
def EndsDigits (rest : List Char) : Prop := ∀ c ∈ rest.head?, isDigit c = false

theorem endsDigits_nil : EndsDigits [] := fun _ h => nomatch h

theorem endsDigits_cons {c : Char} (hc : isDigit c = false) (cs : List Char) :
    EndsDigits (c :: cs) := by
  intro d hd
  cases hd
  exact hc

/-- Digits followed by something else are split off exactly. -/
theorem span_digits {ds rest : List Char} (hds : ∀ c ∈ ds, isDigit c) (hrest : EndsDigits rest) :
    (ds ++ rest).takeWhile isDigit = ds ∧ (ds ++ rest).dropWhile isDigit = rest :=
  span_append hds hrest

/-- Digits with a point among them, and what stands for the exponent. -/
theorem readDecimal?_point {ds fs rest : List Char} (hds : ∀ c ∈ ds, isDigit c)
    (hfs : ∀ c ∈ fs, isDigit c) (hne : ds ≠ [] ∨ fs ≠ []) (hrest : EndsDigits rest) :
    readDecimal? (ds ++ '.' :: (fs ++ rest)) =
      (readExponent? rest).map fun e => ⟨digitsValue (ds ++ fs), e - fs.length⟩ := by
  obtain ⟨htake, hdrop⟩ := span_digits hds (endsDigits_cons (c := '.') (by decide) (fs ++ rest))
  obtain ⟨htake', hdrop'⟩ := span_digits hfs hrest
  have hempty : (ds.isEmpty && fs.isEmpty) = false := by
    rcases hne with hne | hne <;> simp [hne]
  rw [readDecimal?, htake, hdrop]
  simp only [htake', hdrop', hempty]
  rfl

/-- Digits without a point, and what stands for the exponent. -/
theorem readDecimal?_whole {ds rest : List Char} (hds : ∀ c ∈ ds, isDigit c) (hne : ds ≠ [])
    (hrest : EndsDigits rest) (hpoint : ∀ c ∈ rest.head?, c ≠ '.') :
    readDecimal? (ds ++ rest) = (readExponent? rest).map fun e => ⟨digitsValue ds, e⟩ := by
  obtain ⟨htake, hdrop⟩ := span_digits hds hrest
  have hempty : ds.isEmpty = false := by simp [hne]
  rw [readDecimal?, htake, hdrop]
  cases rest with
  | nil => simp [hempty, readExponent?]
  | cons c rest =>
    have hc : c ≠ '.' := hpoint c rfl
    simp [hempty, hc]

/-- A run of digits reads as the whole number it writes. -/
theorem readDecimal?_of_isDigit {cs : List Char} (hne : cs ≠ []) (h : ∀ c ∈ cs, isDigit c) :
    readDecimal? cs = some ⟨digitsValue cs, 0⟩ := by
  have hread := readDecimal?_whole h hne endsDigits_nil fun _ h => nomatch h
  rwa [List.append_nil] at hread

/-- An exponent after a minus sign is the negative of its digits. -/
theorem readExponent?_minus {mark : Char} {ds : List Char} (hmark : mark = 'e' ∨ mark = 'E')
    (hne : ds ≠ []) (hds : ∀ c ∈ ds, isDigit c) :
    readExponent? (mark :: '-' :: ds) = some (-(digitsValue ds : Int)) := by
  have hall : ds.all isDigit := List.all_eq_true.mpr hds
  simp [readExponent?, hmark, hne, hall]

theorem readExponent?_plus {mark : Char} {ds : List Char} (hmark : mark = 'e' ∨ mark = 'E')
    (hne : ds ≠ []) (hds : ∀ c ∈ ds, isDigit c) :
    readExponent? (mark :: '+' :: ds) = some (digitsValue ds : Int) := by
  have hall : ds.all isDigit := List.all_eq_true.mpr hds
  simp [readExponent?, hmark, hne, hall]

/-- An exponent needs no sign. -/
theorem readExponent?_digits {mark : Char} {ds : List Char} (hmark : mark = 'e' ∨ mark = 'E')
    (hne : ds ≠ []) (hds : ∀ c ∈ ds, isDigit c) :
    readExponent? (mark :: ds) = some (digitsValue ds : Int) := by
  have hall : ds.all isDigit := List.all_eq_true.mpr hds
  have hsign (c : Char) (hc : isDigit c = false) (rest : List Char) : ds ≠ c :: rest := by
    rintro rfl
    rw [hds c List.mem_cons_self] at hc
    cases hc
  rw [readExponent?, if_pos hmark]
  · simp [hne, hall]
  · exact hsign '-' (by decide)
  · exact hsign '+' (by decide)

/-- A text without the letters of the other forms is read as a decimal. -/
theorem readMagnitude_eq {cs : List Char} (hI : 'I' ∉ cs) (hx : 'x' ∉ cs) (hX : 'X' ∉ cs) :
    readMagnitude cs = ((readDecimal? cs).map Decimal.toNumber).getD .nan := by
  rw [readMagnitude.eq_def]
  split
  · exact absurd List.mem_cons_self hI
  · rename_i mark digits
    have hmark : ¬ (mark = 'x' ∨ mark = 'X') := by
      rintro (rfl | rfl)
      · exact hx (by simp)
      · exact hX (by simp)
    rw [if_neg hmark]
  · rfl

theorem readMagnitude_of_isDigit {cs : List Char} (hne : cs ≠ []) (h : ∀ c ∈ cs, isDigit c) :
    readMagnitude cs = Decimal.toNumber ⟨digitsValue cs, 0⟩ := by
  have hletter (c : Char) (hc : isDigit c = false) : c ∉ cs := fun hmem => by
    rw [h c hmem] at hc
    cases hc
  rw [readMagnitude_eq (hletter 'I' (by decide)) (hletter 'x' (by decide))
    (hletter 'X' (by decide)), readDecimal?_of_isDigit hne h]
  rfl

theorem toNumber_of_exponent_zero {n : Nat} (hn : n < 10 ^ 15) :
    Decimal.toNumber ⟨n, 0⟩ = ofNat n := by
  have hlength : (Nat.toDigits 10 n).length ≤ 15 :=
    (Nat.length_toDigits_le_iff (by decide) (by decide)).mpr hn
  rw [Decimal.toNumber]
  split
  · rename_i h
    dsimp only at h
    subst h
    decide +kernel
  · have hleading : (Decimal.mk n 0).leading = (Nat.toDigits 10 n).length - 1 := by
      rw [Decimal.leading, Decimal.digits, Int.zero_add]
    rw [hleading, if_neg (by omega), if_neg (by omega), if_pos (Int.le_refl 0), ofNat]
    show round false (n * 1 * unitsPerOne) 1 = _
    rw [Nat.mul_one]

/-- Whole numbers of at most fifteen digits read back as themselves. -/
theorem readMagnitude_toDigits {n : Nat} (hn : n < 10 ^ 15) :
    readMagnitude (Nat.toDigits 10 n) = ofNat n := by
  rw [readMagnitude_of_isDigit Nat.toDigits_ne_nil fun _ => isDigit_of_mem_toDigits,
    digitsValue_toDigits, toNumber_of_exponent_zero hn]

/-- Rounding is symmetric in the sign. -/
theorem neg_round (negative : Bool) (num den : Nat) :
    -round negative num den = round (!negative) num den := by
  have hparts (m p : Nat) : -ofParts negative m p = ofParts (!negative) m p := by
    rw [ofParts, ofParts]
    split <;> rfl
  rw [round, round]
  split <;> exact hparts ..

/-- Rounding keeps the sign, also where it gives zero. -/
theorem isNegative_round (negative : Bool) (num den : Nat) :
    (round negative num den).isNegative = negative := by
  have hparts (m p : Nat) : (ofParts negative m p).isNegative = negative := by
    rw [ofParts]
    split <;> rfl
  rw [round]
  split <;> exact hparts ..

/-- Rounding always gives a number. -/
theorem isNaN_round (negative : Bool) (num den : Nat) : (round negative num den).isNaN = false := by
  have hparts (m p : Nat) : (ofParts negative m p).isNaN = false := by
    rw [ofParts]
    split <;> rfl
  rw [round]
  split <;> exact hparts ..

theorem isNaN_toNumber (d : Decimal) : d.toNumber.isNaN = false := by
  rw [Decimal.toNumber]
  split_ifs
  · rfl
  · rfl
  · rfl
  · exact isNaN_round ..
  · exact isNaN_round ..

theorem isNaN_ofInt (n : Int) : (ofInt n).isNaN = false := isNaN_round ..

theorem toList_toString_ofNat (n : Nat) :
    (toString (Int.ofNat n)).toList = Nat.toDigits 10 n := String.toList_ofList

/-- A negative number is written as a minus sign and its magnitude. -/
theorem toList_toString_negSucc (n : Nat) :
    (toString (Int.negSucc n)).toList = '-' :: Nat.toDigits 10 (n + 1) := by
  have h : toString (Int.negSucc n) = "-" ++ Nat.repr (n + 1) := rfl
  rw [h, String.toList_append]
  exact congrArg _ String.toList_ofList

/-- What a decimal numeral consists of. -/
theorem of_mem_toString {n : Int} {c : Char} (h : c ∈ (toString n).toList) :
    c = '-' ∨ isDigit c := by
  cases n with
  | ofNat n =>
    rw [toList_toString_ofNat] at h
    exact .inr (isDigit_of_mem_toDigits h)
  | negSucc n =>
    rw [toList_toString_negSucc] at h
    exact (List.mem_cons.mp h).imp_right isDigit_of_mem_toDigits

/-- No whole number is written with blanks. -/
theorem not_isBlank_of_mem_toString {n : Int} {c : Char} (h : c ∈ (toString n).toList) :
    Text.isBlank c = false := by
  rcases of_mem_toString h with rfl | h
  · decide
  · exact not_isBlank_of_isDigit h

/-- A text that starts with a minus sign reads as the negative of the rest. -/
theorem ofText_of_minus {s : String} {cs : List Char} (h : Text.trim s.toList = '-' :: cs) :
    ofText s = -readMagnitude cs := by
  rw [ofText, h]
  rfl

/-- A plus sign is read over. -/
theorem ofText_of_plus {s : String} {cs : List Char} (h : Text.trim s.toList = '+' :: cs) :
    ofText s = readMagnitude cs := by
  rw [ofText, h]
  rfl

/-- Without a sign the whole trimmed text is the magnitude. -/
theorem ofText_of_unsigned {s : String} {c : Char} {cs : List Char}
    (h : Text.trim s.toList = c :: cs) (hminus : c ≠ '-') (hplus : c ≠ '+') :
    ofText s = readMagnitude (c :: cs) := by
  rw [ofText, h]
  split
  · rename_i heq
    cases heq
  · rename_i heq
    exact absurd (List.cons.inj heq).1 hminus
  · rename_i heq
    exact absurd (List.cons.inj heq).1 hplus
  · rfl

/-- An integer of at most fifteen digits is read back from its decimal numeral. -/
theorem ofText_toString {n : Int} (hn : n.natAbs < 10 ^ 15) : ofText (toString n) = ofInt n := by
  have htrim := Text.trim_of_not_isBlank fun _ => not_isBlank_of_mem_toString (n := n)
  cases n with
  | ofNat n =>
    rw [toList_toString_ofNat] at htrim
    obtain ⟨c, cs, hcs⟩ := List.exists_cons_of_ne_nil (Nat.toDigits_ne_nil (n := n) (b := 10))
    have hc : isDigit c := isDigit_of_mem_toDigits (hcs ▸ List.mem_cons_self)
    have hne (d : Char) (hd : isDigit d = false) : c ≠ d := by
      rintro rfl
      rw [hc] at hd
      cases hd
    rw [hcs] at htrim
    rw [ofText_of_unsigned (by rwa [toList_toString_ofNat, hcs]) (hne '-' (by decide))
      (hne '+' (by decide)), ← hcs]
    exact readMagnitude_toDigits hn
  | negSucc n =>
    have hread : readMagnitude (Nat.toDigits 10 (n + 1)) = ofNat (n + 1) :=
      readMagnitude_toDigits hn
    rw [toList_toString_negSucc] at htrim
    rw [ofText_of_minus (by rwa [toList_toString_negSucc]), hread, ofNat, neg_round, ofInt,
      decide_eq_true (Int.negSucc_lt_zero n)]
    rfl

end Number

end ActionScript
