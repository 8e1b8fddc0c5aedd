import Mathlib.Data.Nat.Digits.Defs
import ActionScript.Proofs.Numeral
import ActionScript.Proofs.Rounding

/-! # The grammar of numerals

`Number.Numeral` says which texts between blanks have a number: after at most one sign they are the
word `Infinity`, a hexadecimal integer or a decimal fraction. All others but the blank ones are read
as no number (`Number.ofText_spec`). Decimals are rounded; hexadecimal integers are accumulated in
numbers, without rounding below `2 ^ 53`. -/

namespace ActionScript

namespace Text

variable {cs body b : List Char}

/-- A text without the blanks at its ends. -/
structure Trims (cs body : List Char) : Prop where
  split : ∃ before after, cs = before ++ body ++ after ∧
    (∀ c ∈ before, isBlank c) ∧ ∀ c ∈ after, isBlank c
  head : ∀ c ∈ body.head?, isBlank c = false
  last : ∀ c ∈ body.getLast?, isBlank c = false

theorem not_isBlank_of_head?_trimStart {c : Char} (h : c ∈ (trimStart cs).head?) :
    isBlank c = false := by
  have hnot := List.head?_dropWhile_not isBlank cs
  rw [trimStart] at h
  rw [Option.mem_def.mp h] at hnot
  exact hnot

theorem trimEnd_append (cs : List Char) :
    trimEnd cs ++ (cs.reverse.takeWhile isBlank).reverse = cs := by
  rw [trimEnd, ← List.reverse_append, List.takeWhile_append_dropWhile, List.reverse_reverse]

/-- What is trimmed off a text is blank, and what is left has no blank at its ends. -/
theorem trims_trim (cs : List Char) : Trims cs (trim cs) := by
  have hend := trimEnd_append (trimStart cs)
  refine ⟨⟨cs.takeWhile isBlank, ((trimStart cs).reverse.takeWhile isBlank).reverse, ?_,
    fun c hc => List.mem_takeWhile_imp hc,
    fun c hc => List.mem_takeWhile_imp (List.mem_reverse.mp hc)⟩, fun c hc => ?_, fun c hc => ?_⟩
  · rw [List.append_assoc, trim, hend, takeWhile_append_trimStart]
  · refine @not_isBlank_of_head?_trimStart cs _ ?_
    rw [← hend]
    exact List.mem_head?_append_of_mem_head? hc
  · rw [trim, trimEnd, List.getLast?_reverse] at hc
    exact not_isBlank_of_head?_trimStart hc

/-- There is one such text. -/
theorem trims_iff : Trims cs body ↔ body = trim cs := by
  refine ⟨fun h => ?_, fun h => h ▸ trims_trim cs⟩
  obtain ⟨before, after, rfl, hbefore, hafter⟩ := h.split
  rw [trim, List.append_assoc, trimStart_append_of_isBlank hbefore]
  cases body with
  | nil =>
    rw [List.nil_append, ← List.append_nil after, trimStart_append_of_isBlank hafter]
    rfl
  | cons c body =>
    rw [List.cons_append, trimStart_cons_of_not_isBlank (h.head c rfl), ← List.cons_append,
      trimEnd_append_of_isBlank _ hafter, trimEnd_of_getLast? h.last]

end Text

namespace Number

/-! ## The grammar -/

/-- One sign or none. -/
inductive OptionalSign : List Char → Prop
  | none : OptionalSign []
  | plus : OptionalSign ['+']
  | minus : OptionalSign ['-']

/-- At least one decimal digit. -/
def IsDigits (cs : List Char) : Prop := cs ≠ [] ∧ ∀ c ∈ cs, c.isDigit

/-- Digits before a point, which may be missing, or a point before digits. -/
inductive Mantissa : List Char → Prop
  | whole {ds : List Char} (hds : IsDigits ds) : Mantissa ds
  | pointed {ds fs : List Char} (hds : IsDigits ds) (hfs : ∀ c ∈ fs, c.isDigit) :
      Mantissa (ds ++ '.' :: fs)
  | fraction {fs : List Char} (hfs : IsDigits fs) : Mantissa ('.' :: fs)

/-- Nothing, or a mark before an integer with a sign. -/
inductive ExponentPart : List Char → Prop
  | none : ExponentPart []
  | marked {mark : Char} {sign ds : List Char} (hmark : mark = 'e' ∨ mark = 'E')
      (hsign : OptionalSign sign) (hds : IsDigits ds) : ExponentPart (mark :: (sign ++ ds))

/-- The decimal digits and the first six letters, in the order of their values. -/
def hexDigits : List Char := "0123456789abcdef".toList

/-- At least one hexadecimal digit, with letters of either case. -/
def IsHexDigits (cs : List Char) : Prop := cs ≠ [] ∧ ∀ c ∈ cs, c.toLower ∈ hexDigits

/-- The integer of a sequence of hexadecimal digits. -/
def hexadecimal (cs : List Char) : Nat :=
  Nat.ofDigits 16 (cs.reverse.map fun c => hexDigits.idxOf c.toLower)

/-- What may stand after the sign. -/
inductive Magnitude : List Char → Prop
  | infinity : Magnitude "Infinity".toList
  | hexadecimal {mark : Char} {ds : List Char} (hmark : mark = 'x' ∨ mark = 'X')
      (hds : IsHexDigits ds) : Magnitude ('0' :: mark :: ds)
  | decimal {m e : List Char} (hm : Mantissa m) (he : ExponentPart e) : Magnitude (m ++ e)

/-- A text that has a number. -/
def Numeral (cs : List Char) : Prop :=
  ∃ sign body, cs = sign ++ body ∧ OptionalSign sign ∧ Magnitude body

/-! ## Decimals -/

variable {cs ds fs m e : List Char} {c mark : Char}

theorem IsDigits.isDigit (hds : IsDigits ds) : ∀ c ∈ ds, isDigit c := fun c hc => by
  rw [isDigit_eq]
  exact hds.2 c hc

theorem isDigits_of_isDigit (hne : ds ≠ []) (hds : ∀ c ∈ ds, isDigit c) : IsDigits ds :=
  ⟨hne, fun c hc => by rw [← isDigit_eq]; exact hds c hc⟩

/-- An exponent is read from exactly the texts that are one. -/
theorem isSome_readExponent?_iff : (readExponent? cs).isSome ↔ ExponentPart cs := by
  constructor
  · intro h
    cases cs with
    | nil => exact .none
    | cons mark rest =>
      have hdigits {ds : List Char} (h : ¬ (ds.isEmpty || !ds.all Number.isDigit) = true) :
          IsDigits ds := by
        rw [Bool.or_eq_true, not_or, Bool.not_eq_true, Bool.not_eq_true, Bool.not_eq_false'] at h
        exact isDigits_of_isDigit (by simpa using h.1) (List.all_eq_true.mp h.2)
      rw [readExponent?.eq_def] at h
      dsimp only at h
      split at h
      · rename_i hmark
        split at h
        all_goals
          dsimp only at h
          split at h
          · cases h
        · exact .marked hmark .minus (hdigits ‹_›)
        · exact .marked hmark .plus (hdigits ‹_›)
        · exact .marked hmark .none (hdigits ‹_›)
      · cases h
  · intro h
    cases h with
    | none => rfl
    | marked hmark hsign hds =>
      cases hsign with
      | none => rw [List.nil_append, readExponent?_digits hmark hds.1 hds.isDigit]; rfl
      | plus => rw [List.singleton_append, readExponent?_plus hmark hds.1 hds.isDigit]; rfl
      | minus => rw [List.singleton_append, readExponent?_minus hmark hds.1 hds.isDigit]; rfl

theorem ExponentPart.endsDigits (he : ExponentPart e) : EndsDigits e := by
  cases he with
  | none => exact endsDigits_nil
  | marked hmark => rcases hmark with rfl | rfl <;> exact endsDigits_cons (by decide) _

theorem ExponentPart.head_ne_point (he : ExponentPart e) : ∀ c ∈ e.head?, c ≠ '.' := by
  rintro c hc rfl
  cases he with
  | none => cases hc
  | marked hmark => rcases hmark with rfl | rfl <;> cases hc

/-- The decimals are the texts of the grammar. -/
theorem isSome_readDecimal?_iff :
    (readDecimal? cs).isSome ↔ ∃ m e, cs = m ++ e ∧ Mantissa m ∧ ExponentPart e := by
  constructor
  · intro h
    have hsplit : cs.takeWhile Number.isDigit ++ cs.dropWhile Number.isDigit = cs :=
      List.takeWhile_append_dropWhile
    have htake (cs : List Char) : ∀ c ∈ cs.takeWhile Number.isDigit, c.isDigit := fun c hc => by
      rw [← isDigit_eq]
      exact List.mem_takeWhile_imp hc
    have hwhole := htake cs
    rw [readDecimal?] at h
    split at h
    rename_i fraction rest heq
    split at h
    · cases h
    · rename_i hempty
      rw [Option.isSome_map, isSome_readExponent?_iff] at h
      split at heq
      · rename_i behind hdrop
        cases heq
        rw [hdrop, ← List.takeWhile_append_dropWhile (p := Number.isDigit) (l := behind),
          ← List.cons_append, ← List.append_assoc] at hsplit
        refine ⟨_, _, hsplit.symm, ?_, h⟩
        by_cases hne : cs.takeWhile Number.isDigit = []
        · rw [hne, List.nil_append]
          exact .fraction ⟨by simpa [hne] using hempty, htake behind⟩
        · exact .pointed ⟨hne, hwhole⟩ (htake behind)
      · cases heq
        refine ⟨_, _, hsplit.symm, .whole ⟨?_, hwhole⟩, h⟩
        simpa using hempty
  · rintro ⟨m, e, rfl, hm, he⟩
    have hsome : (readExponent? e).isSome := isSome_readExponent?_iff.mpr he
    cases hm with
    | whole hds =>
      rw [readDecimal?_whole hds.isDigit hds.1 he.endsDigits he.head_ne_point, Option.isSome_map]
      exact hsome
    | @pointed ds fs hds hfs =>
      have hfs' : ∀ c ∈ fs, isDigit c := fun c hc => by
        rw [isDigit_eq]
        exact hfs c hc
      rw [List.append_assoc, List.cons_append,
        readDecimal?_point hds.isDigit hfs' (.inl hds.1) he.endsDigits, Option.isSome_map]
      exact hsome
    | fraction hfs =>
      have hread := @readDecimal?_point [] _ _ (List.forall_mem_nil _) hfs.isDigit (.inr hfs.1)
        he.endsDigits
      rw [List.nil_append] at hread
      rw [List.cons_append, hread, Option.isSome_map]
      exact hsome

/-! ## Hexadecimal integers -/

/-- The value of a hexadecimal digit is its place among them, in either case. -/
theorem hexValue?_eq (c : Char) : hexValue? c =
    if c.toLower ∈ hexDigits then some (hexDigits.idxOf c.toLower) else none := by
  by_cases hc : c.toNat < 128
  · have hall : ∀ n < 128, hexValue? (Char.ofNat n) =
        if (Char.ofNat n).toLower ∈ hexDigits then some (hexDigits.idxOf (Char.ofNat n).toLower)
        else none := by decide +kernel
    simpa only [Char.ofNat_toNat] using hall c.toNat hc
  · have hlower : c.toLower = c := by
      refine dif_neg ?_
      rintro ⟨-, hle⟩
      have hle' : c.toNat ≤ 90 := hle
      omega
    have hsmall : hexDigits.all (·.toNat < 128) := by decide
    have hmem : c ∉ hexDigits := fun hmem =>
      hc (of_decide_eq_true (List.all_eq_true.mp hsmall c hmem))
    have habove (d : Char) (hd : d.toNat < 128) : ¬ c ≤ d := fun hle => by
      have hle' : c.toNat ≤ d.toNat := hle
      omega
    rw [hlower, if_neg hmem, hexValue?, digitValue?]
    simp [habove 'f' (by decide), habove 'F' (by decide), habove '9' (by decide)]

/-- Neither negative nor `nan`. -/
structure Unsigned (x : Number) : Prop where
  isNaN : x.isNaN = false
  sign : x.isNegative = false

theorem unsigned_round (num den : Nat) : Unsigned (round false num den) := by
  have hparts (m p : Nat) : Unsigned (ofParts false m p) := by
    rw [ofParts]
    split <;> exact ⟨rfl, rfl⟩
  rw [round]
  split <;> exact hparts ..

theorem unsigned_ofNat (n : Nat) : (ofNat n).Unsigned := unsigned_round ..

theorem Unsigned.mul {x y : Number} (hx : x.Unsigned) (hy : y.Unsigned) (hfinite : y.isFinite)
    (hzero : y.isZero = false) : (x * y).Unsigned := by
  cases y with
  | nan | infinite => cases hfinite
  | finite negative m p h =>
    obtain rfl : negative = false := hy.sign
    cases x with
    | nan => cases hx.isNaN
    | infinite negative =>
      obtain rfl : negative = false := hx.sign
      show Unsigned (if isZero (finite false m p h) then nan else infinite false)
      rw [hzero]
      exact ⟨rfl, rfl⟩
    | finite negative m' p' h' =>
      obtain rfl : negative = false := hx.sign
      exact unsigned_round ..

/-- A sum of magnitudes. -/
theorem add_unsigned {m p m' p' : Nat} (h : Canonical m p) (h' : Canonical m' p') :
    finite false m p h + finite false m' p' h' = round false (m <<< p + m' <<< p') 1 := by
  show (if ((m <<< p : Nat) : Int) + (m' <<< p' : Nat) = 0 then zero false
    else round (decide (((m <<< p : Nat) : Int) + (m' <<< p' : Nat) < 0))
      (((m <<< p : Nat) : Int) + (m' <<< p' : Nat)).natAbs 1) = _
  generalize m <<< p = u
  generalize m' <<< p' = v
  split
  · rename_i hzero
    have hsum : u + v = 0 := by omega
    rw [hsum]
    rfl
  · have hsign : ¬ (u : Int) + (v : Int) < 0 := by omega
    rw [decide_eq_false hsign]
    rfl

/-- A sum of unsigned numbers is unsigned. -/
theorem Unsigned.add {x y : Number} (hx : x.Unsigned) (hy : y.Unsigned) : (x + y).Unsigned := by
  cases x with
  | nan => cases hx.isNaN
  | infinite s =>
    obtain rfl : s = false := hx.sign
    cases y with
    | nan => cases hy.isNaN
    | infinite t =>
      obtain rfl : t = false := hy.sign
      exact ⟨rfl, rfl⟩
    | finite => exact ⟨rfl, rfl⟩
  | finite s m p h =>
    obtain rfl : s = false := hx.sign
    cases y with
    | nan => cases hy.isNaN
    | infinite t => exact hy
    | finite t m' p' h' =>
      obtain rfl : t = false := hy.sign
      rw [add_unsigned]
      exact unsigned_round ..

/-- The product of two exact naturals is their product, rounded. -/
theorem ofNat_mul {a b : Nat} (ha : a < 2 ^ 53) (hb : b < 2 ^ 53) :
    ofNat a * ofNat b = ofNat (a * b) := by
  obtain ⟨m, p, h, heq, hunits⟩ := ofNat_eq ha
  obtain ⟨m', p', h', heq', hunits'⟩ := ofNat_eq hb
  have hunit := cast_unitsPerOne_pos.ne'
  rw [heq, heq']
  show round false (m <<< p * m' <<< p') unitsPerOne = _
  rw [hunits, hunits', ofNat]
  refine round_congr unitsPerOne_pos Nat.one_pos ?_ false
  push_cast
  field_simp

theorem ofNat_add {a b : Nat} (ha : a < 2 ^ 53) (hb : b < 2 ^ 53) :
    ofNat a + ofNat b = ofNat (a + b) := by
  obtain ⟨m, p, h, heq, hunits⟩ := ofNat_eq ha
  obtain ⟨m', p', h', heq', hunits'⟩ := ofNat_eq hb
  rw [heq, heq', add_unsigned, hunits, hunits', ← Nat.add_mul, ofNat]

theorem hexDigitsValue_append_singleton (cs : List Char) (c : Char) :
    hexDigitsValue (cs ++ [c]) = hexDigitsValue cs * 16 + ofNat ((hexValue? c).getD 0) := by
  rw [hexDigitsValue, List.foldl_append]
  rfl

theorem hexadecimal_append_singleton (cs : List Char) (c : Char) :
    hexadecimal (cs ++ [c]) = hexDigits.idxOf c.toLower + 16 * hexadecimal cs := by
  rw [hexadecimal, List.reverse_append, List.reverse_singleton, List.singleton_append,
    List.map_cons, Nat.ofDigits_cons]
  rfl

/-- Without a bound the digits are a number as well, or infinite. -/
theorem unsigned_hexDigitsValue (cs : List Char) : (hexDigitsValue cs).Unsigned := by
  induction cs using List.reverseRecOn with
  | nil => exact unsigned_ofNat 0
  | append_singleton cs c ih =>
    rw [hexDigitsValue_append_singleton]
    exact (ih.mul (unsigned_ofNat 16) (ofNat_has (by decide)).isFinite (by decide +kernel)).add
      (unsigned_ofNat _)

/-- Below `2 ^ 53` nothing is rounded. -/
theorem hexDigitsValue_eq (hcs : ∀ c ∈ cs, c.toLower ∈ hexDigits)
    (hlt : hexadecimal cs < 2 ^ 53) : hexDigitsValue cs = ofNat (hexadecimal cs) := by
  induction cs using List.reverseRecOn with
  | nil => rfl
  | append_singleton cs c ih =>
    rw [hexadecimal_append_singleton] at hlt ⊢
    have hc := hcs c (by simp)
    have hindex : hexDigits.idxOf c.toLower < 16 := List.idxOf_lt_length_of_mem hc
    rw [hexDigitsValue_append_singleton, ih (fun c hc => hcs c (by simp [hc])) (by omega),
      hexValue?_eq, if_pos hc, Option.getD_some]
    have hsixteen : (16 : Number) = ofNat 16 := rfl
    rw [hsixteen, ofNat_mul (by omega) (by decide), ofNat_add (by omega) (by omega), Nat.add_comm,
      Nat.mul_comm]

/-! ## Magnitudes -/

/-- What a decimal consists of. -/
theorem of_mem_decimal (hm : Mantissa m) (he : ExponentPart e) (hc : c ∈ m ++ e) :
    c.isDigit ∨ c = '.' ∨ c = 'e' ∨ c = 'E' ∨ c = '+' ∨ c = '-' := by
  rcases List.mem_append.mp hc with hc | hc
  · cases hm with
    | whole hds => exact .inl (hds.2 c hc)
    | pointed hds hfs =>
      rw [List.mem_append, List.mem_cons] at hc
      rcases hc with hc | rfl | hc
      · exact .inl (hds.2 c hc)
      · exact .inr (.inl rfl)
      · exact .inl (hfs c hc)
    | fraction hfs =>
      rcases List.mem_cons.mp hc with rfl | hc
      · exact .inr (.inl rfl)
      · exact .inl (hfs.2 c hc)
  · cases he with
    | none => cases hc
    | marked hmark hsign hds =>
      rw [List.mem_cons, List.mem_append] at hc
      rcases hc with rfl | hc | hc
      · rcases hmark with rfl | rfl <;> simp
      · cases hsign <;> simp_all
      · exact .inl (hds.2 c hc)

theorem Mantissa.exists_cons (hm : Mantissa m) :
    ∃ c cs, m = c :: cs ∧ (c.isDigit ∨ c = '.') := by
  cases hm with
  | whole hds =>
    obtain ⟨c, cs, rfl⟩ := List.exists_cons_of_ne_nil hds.1
    exact ⟨c, cs, rfl, .inl (hds.2 c List.mem_cons_self)⟩
  | pointed hds hfs =>
    obtain ⟨c, cs, rfl⟩ := List.exists_cons_of_ne_nil hds.1
    exact ⟨c, _, rfl, .inl (hds.2 c List.mem_cons_self)⟩
  | fraction hfs => exact ⟨_, _, rfl, .inr rfl⟩

/-- How a magnitude starts. -/
theorem Magnitude.exists_cons (h : Magnitude cs) :
    ∃ c t, cs = c :: t ∧ c ≠ '-' ∧ c ≠ '+' ∧ Text.isBlank c = false := by
  cases h with
  | infinity => exact ⟨_, _, rfl, by decide, by decide, by decide⟩
  | hexadecimal => exact ⟨_, _, rfl, by decide, by decide, by decide⟩
  | decimal hm he =>
    obtain ⟨c, cs, rfl, hc⟩ := hm.exists_cons
    refine ⟨c, _, rfl, ?_, ?_, ?_⟩
    · rintro rfl
      revert hc
      decide
    · rintro rfl
      revert hc
      decide
    · rcases hc with hc | rfl
      · exact not_isBlank_of_isDigit (by rwa [isDigit_eq])
      · decide

/-- After the mark, hexadecimal digits are read by their value. -/
theorem readMagnitude_hexadecimal (hmark : mark = 'x' ∨ mark = 'X') (hds : IsHexDigits ds) :
    readMagnitude ('0' :: mark :: ds) = hexDigitsValue ds := by
  have hdigits : (ds.isEmpty || ds.any (hexValue? · |>.isNone)) = false := by
    rw [Bool.or_eq_false_iff, List.isEmpty_eq_false_iff, List.any_eq_false]
    refine ⟨hds.1, fun c hc => ?_⟩
    rw [hexValue?_eq, if_pos (hds.2 c hc)]
    exact Bool.false_ne_true
  show (if mark = 'x' ∨ mark = 'X' then
    if ds.isEmpty || ds.any (hexValue? · |>.isNone) then .nan else hexDigitsValue ds
    else _) = _
  rw [if_pos hmark, hdigits, if_neg Bool.false_ne_true]

/-- The magnitudes are the texts of the grammar. -/
theorem readMagnitude_eq_nan_iff : readMagnitude cs = .nan ↔ ¬ Magnitude cs := by
  constructor
  · rintro hnan h
    cases h with
    | infinity => cases hnan
    | @hexadecimal mark ds hmark hds =>
      have hvalue := (unsigned_hexDigitsValue ds).isNaN
      rw [← readMagnitude_hexadecimal hmark hds, hnan] at hvalue
      cases hvalue
    | @decimal m e hm he =>
      have hletter {c : Char}
          (hc : ¬ (c.isDigit ∨ c = '.' ∨ c = 'e' ∨ c = 'E' ∨ c = '+' ∨ c = '-')) : c ∉ m ++ e :=
        fun hmem => hc (of_mem_decimal hm he hmem)
      have hsome := isSome_readDecimal?_iff.mpr ⟨m, e, rfl, hm, he⟩
      obtain ⟨d, hd⟩ := Option.isSome_iff_exists.mp hsome
      rw [readMagnitude_eq (hletter (by decide)) (hletter (by decide)) (hletter (by decide)), hd]
        at hnan
      have hvalue := isNaN_toNumber d
      rw [show d.toNumber = .nan from hnan] at hvalue
      cases hvalue
  · intro h
    have hdecimal : readDecimal? cs = none := by
      rw [← Option.not_isSome_iff_eq_none, isSome_readDecimal?_iff]
      rintro ⟨m, e, rfl, hm, he⟩
      exact h (.decimal hm he)
    rw [readMagnitude.eq_def]
    split
    · exact absurd .infinity h
    · split
      · rename_i hmark
        split
        · rfl
        · rename_i digits hdigits
          rw [Bool.or_eq_true, not_or, List.isEmpty_iff, Bool.not_eq_true, List.any_eq_false]
            at hdigits
          refine absurd (.hexadecimal hmark ⟨hdigits.1, fun c hc => ?_⟩) h
          by_contra hnot
          refine hdigits.2 c hc ?_
          rw [hexValue?_eq, if_neg hnot]
          rfl
      · rw [hdecimal]
        rfl
    · rw [hdecimal]
      rfl

/-! ## Texts -/

/-- A sign makes a numeral of a magnitude. -/
theorem numeral_signed_iff (hc : OptionalSign [c]) : Numeral (c :: cs) ↔ Magnitude cs := by
  refine ⟨fun ⟨sign, body, heq, hsign, hbody⟩ => ?_, fun h => ⟨[c], cs, rfl, hc, h⟩⟩
  obtain ⟨d, t, rfl, hminus, hplus, -⟩ := hbody.exists_cons
  cases hsign with
  | none =>
    obtain ⟨rfl, -⟩ := List.cons.inj heq
    cases hc
    · exact absurd rfl hplus
    · exact absurd rfl hminus
  | plus | minus =>
    obtain ⟨-, rfl⟩ := List.cons.inj heq
    exact hbody

theorem numeral_unsigned_iff (hminus : c ≠ '-') (hplus : c ≠ '+') :
    Numeral (c :: cs) ↔ Magnitude (c :: cs) := by
  refine ⟨fun ⟨sign, body, heq, hsign, hbody⟩ => ?_, fun h => ⟨[], _, rfl, .none, h⟩⟩
  cases hsign with
  | none => rwa [heq]
  | plus => exact absurd (List.cons.inj heq).1 hplus
  | minus => exact absurd (List.cons.inj heq).1 hminus

theorem neg_eq_nan_iff {x : Number} : -x = .nan ↔ x = .nan := by
  cases x with
  | nan => exact Iff.rfl
  | infinite | finite => constructor <;> intro h <;> cases h

/-- A text without number is one outside the grammar. -/
theorem ofText_eq_nan_iff {s : String} :
    ofText s = .nan ↔ Text.trim s.toList ≠ [] ∧ ¬ Numeral (Text.trim s.toList) := by
  cases htrim : Text.trim s.toList with
  | nil =>
    rw [ofText, htrim]
    constructor
    · intro h
      cases h
    · intro h
      exact absurd rfl h.1
  | cons c cs =>
    rw [and_iff_right (List.cons_ne_nil c cs)]
    by_cases hminus : c = '-'
    · subst hminus
      rw [ofText_of_minus htrim, neg_eq_nan_iff, readMagnitude_eq_nan_iff,
        numeral_signed_iff .minus]
    · by_cases hplus : c = '+'
      · subst hplus
        rw [ofText_of_plus htrim, readMagnitude_eq_nan_iff, numeral_signed_iff .plus]
      · rw [ofText_of_unsigned htrim hminus hplus, readMagnitude_eq_nan_iff,
          numeral_unsigned_iff hminus hplus]

/-- A magnitude is read as the text that it is, if it has no blanks at the end. -/
theorem ofText_of_magnitude {s : String} (htrim : Text.trim s.toList = cs) (h : Magnitude cs) :
    ofText s = readMagnitude cs := by
  obtain ⟨c, t, rfl, hminus, hplus, -⟩ := h.exists_cons
  exact ofText_of_unsigned htrim hminus hplus

/-- Behind a sign a magnitude has no blanks at its ends. -/
theorem trim_magnitude (htrim : Text.trim cs = c :: ds) (h : Magnitude ds) :
    Text.trim ds = ds := by
  have hlast := (Text.trims_trim cs).last
  obtain ⟨d, t, rfl, -, -, hblank⟩ := h.exists_cons
  rw [htrim, List.getLast?_cons_cons] at hlast
  refine (Text.trims_iff.mp ⟨⟨[], [], by simp, by simp, by simp⟩, fun b hb => ?_, hlast⟩).symm
  cases hb
  exact hblank

/-- A magnitude after a minus sign reads as its negative. -/
theorem ofText_minus_magnitude {s : String} (htrim : Text.trim s.toList = '-' :: ds)
    (h : Magnitude ds) : ofText s = -ofText (String.ofList ds) := by
  have hread := ofText_of_magnitude (s := String.ofList ds)
    (by rw [String.toList_ofList]; exact trim_magnitude htrim h) h
  rw [ofText_of_minus htrim, hread]

theorem value_neg (x : Number) : (-x).value = -x.value := by
  rw [value, value, ← neg_div, ← Int.cast_neg]
  congr 2
  cases x with
  | nan | infinite => rfl
  | finite negative m p h =>
    cases negative with
    | false => rfl
    | true => exact (neg_neg _).symm

theorem isFinite_neg (x : Number) : (-x).isFinite = x.isFinite := by
  cases x <;> rfl

theorem readMagnitude_hexadecimal_eq (hmark : mark = 'x' ∨ mark = 'X') (hds : IsHexDigits ds)
    (hlt : hexadecimal ds < 2 ^ 53) :
    readMagnitude ('0' :: mark :: ds) = ofNat (hexadecimal ds) := by
  rw [readMagnitude_hexadecimal hmark hds, hexDigitsValue_eq hds.2 hlt]

/-- Which texts are no number, and what the others are. -/
theorem ofText_spec (s : String) : ∃ body, (∀ b, Text.Trims s.toList b ↔ b = body) ∧
    (ofText s = .nan ↔ body ≠ [] ∧ ¬ Numeral body) ∧
    (body = [] → ofText s = zero false) ∧
    (∀ u, body = '-' :: u → Magnitude u → ofText s = -ofText (String.ofList u)) ∧
    ∀ sign mark ds, body = sign ++ '0' :: mark :: ds → OptionalSign sign → mark = 'x' ∨ mark = 'X' →
      IsHexDigits ds → hexadecimal ds < 2 ^ 53 →
      (ofText s).isFinite ∧
        (ofText s).value = if sign = ['-'] then -(hexadecimal ds : ℚ) else hexadecimal ds := by
  refine ⟨Text.trim s.toList, fun b => Text.trims_iff, ofText_eq_nan_iff, fun hempty => ?_,
    fun u htrim h => ofText_minus_magnitude htrim h,
    fun sign mark ds htrim hsign hmark hds hlt => ?_⟩
  · rw [ofText, hempty]
  · have hread := readMagnitude_hexadecimal_eq hmark hds hlt
    have hfinite := (ofNat_has hlt).isFinite
    cases hsign with
    | none =>
      rw [ofText_of_magnitude htrim (.hexadecimal hmark hds), List.nil_append, hread]
      exact ⟨hfinite, value_ofNat hlt⟩
    | plus =>
      have htrim' : Text.trim s.toList = '+' :: '0' :: mark :: ds := htrim
      rw [ofText_of_plus htrim', hread]
      exact ⟨hfinite, value_ofNat hlt⟩
    | minus =>
      have htrim' : Text.trim s.toList = '-' :: '0' :: mark :: ds := htrim
      rw [ofText_of_minus htrim', hread, isFinite_neg, value_neg, value_ofNat hlt]
      exact ⟨hfinite, rfl⟩

/-- Blanks, a sign and a prefix around two digits. -/
theorem ofText_spec_signedHexadecimal :
    (ofText " -0x1F ").isFinite ∧ (ofText " -0x1F ").value = -31 := by
  obtain ⟨body, hbody, -, -, -, hhexadecimal⟩ := ofText_spec " -0x1F "
  have hsplit : body = ['-'] ++ '0' :: 'x' :: ['1', 'F'] :=
    ((hbody _).mp (Text.trims_iff.mpr (by decide))).symm
  have hdigits : IsHexDigits ['1', 'F'] :=
    ⟨by decide, List.forall_mem_cons.mpr ⟨by decide, List.forall_mem_singleton.mpr (by decide)⟩⟩
  obtain ⟨hfinite, hvalue⟩ := hhexadecimal _ _ _ hsplit .minus (.inl rfl) hdigits (by decide)
  exact ⟨hfinite, hvalue⟩

end Number

end ActionScript
