import ActionScript.Proofs.ArgumentList
import ActionScript.Proofs.Naming.Movie
import ActionScript.Proofs.SignificantLiteral

/-! # Keys of indices

An index has one spelling, its plain decimal numeral: the recogniser of indices takes no other
(`arrayIndex?_eq_some`), and the text of an integer of at most fifteen digits is no other
(`Number.text_ofNat`). So a number that is used as a key, an appended value and an element of a new
array have the same slot for the same index (`Machine.index_keys`). -/

namespace ActionScript

open Number Decimal

/-! ## Recognised indices -/

/-- Digits that begin with no zero, but for that of zero itself. -/
def IsPlain (cs : List Char) : Prop :=
  cs ≠ [] ∧ (∀ c ∈ cs, isDigit c) ∧ (cs.head? = some '0' → cs.length ≤ 1)

theorem isPlain_toDigits (n : Nat) : IsPlain (Nat.toDigits 10 n) := by
  refine ⟨Nat.toDigits_ne_nil, fun _ => isDigit_of_mem_toDigits, fun hhead => ?_⟩
  rcases eq_or_ne n 0 with rfl | hn
  · decide
  · exact absurd rfl (head?_toDigits hn '0' hhead)

theorem IsPlain.toDigits_digitsValue {cs : List Char} (h : IsPlain cs) :
    Nat.toDigits 10 (digitsValue cs) = cs := by
  obtain ⟨hne, hdigits, hzero⟩ := h
  by_cases hhead : cs.head? = some '0'
  · obtain ⟨c, rest, rfl⟩ := List.exists_cons_of_ne_nil hne
    obtain rfl : rest = [] := by simpa using hzero hhead
    cases hhead
    decide
  · refine (Number.toDigits_digitsValue hdigits ?_ hne).2
    rintro c hc rfl
    exact hhead hc

theorem isPlain_iff {cs : List Char} : IsPlain cs ↔
    ¬ (cs.isEmpty || (1 < cs.length && cs.head? == some '0') || !cs.all isDigit) = true := by
  simp only [IsPlain, Bool.or_eq_true, Bool.and_eq_true, Bool.not_eq_true', List.all_eq_false,
    List.isEmpty_iff, beq_iff_eq, decide_eq_true_eq]
  grind

/-- The keys that are recognised are the plain decimal numerals of indices. -/
theorem arrayIndex?_eq_some {key : String} {i : Nat} :
    arrayIndex? key = some i ↔ i < 2 ^ 32 - 1 ∧ key = toString i := by
  have hrecognised : arrayIndex? key = some i ↔
      IsPlain key.toList ∧ digitsValue key.toList = i ∧ i < 2 ^ 32 - 1 := by
    rw [isPlain_iff, arrayIndex?]
    dsimp only
    split
    · simp_all
    · rename_i hshape
      rw [Option.ite_none_right_eq_some, Option.some_inj]
      constructor
      · rintro ⟨hlt, rfl⟩
        exact ⟨hshape, rfl, hlt⟩
      · rintro ⟨-, rfl, hlt⟩
        exact ⟨hlt, rfl⟩
  have hlist : (toString i).toList = Nat.toDigits 10 i := toList_indexKey i
  rw [hrecognised, ← String.toList_inj, hlist]
  constructor
  · rintro ⟨hplain, rfl, hi⟩
    exact ⟨hi, hplain.toDigits_digitsValue.symm⟩
  · rintro ⟨hi, hkey⟩
    rw [hkey, digitsValue_toDigits]
    exact ⟨isPlain_toDigits i, rfl, hi⟩

/-! ## Texts of integers -/

namespace Number

theorem toDigits_mul_pow {c : Nat} (hc : 0 < c) (j : Nat) :
    Nat.toDigits 10 (c * 10 ^ j) = Nat.toDigits 10 c ++ List.replicate j '0' := by
  induction j with
  | zero => simp
  | succ j ih =>
    have hpos : 0 < c * 10 ^ j := Nat.mul_pos hc (Nat.pow_pos (by decide))
    have hstep := Nat.toDigits_append_toDigits (b := 10) (d := 0) (by decide) hpos (by decide)
    have hmul : 10 * (c * 10 ^ j) + 0 = c * 10 ^ (j + 1) := by ring
    rw [ih, hmul] at hstep
    rw [← hstep, List.replicate_succ', ← List.append_assoc]
    rfl

variable {n : Nat} {literal : Number → List Char}

theorem positive_ofNat (hpos : 0 < n) (hn : n < 2 ^ 53) : (ofNat n).Positive := by
  obtain ⟨hfinite, hsign, hmagnitude⟩ := ofNat_has hn
  exact ⟨hfinite, hsign, by rw [hmagnitude]; exact (Nat.mul_pos hpos unitsPerOne_pos).ne'⟩

/-- The digits of an integer of at most fifteen digits are those of its numeral. -/
theorem decimal_ofNat (hpos : 0 < n) (hn : n < 10 ^ 15) :
    (ofNat n).decimal = Decimal.strip ⟨n, 0⟩ := by
  have hx := positive_ofNat hpos (by omega)
  have hvalue := value_ofNat (n := n) (by omega)
  have hone : (1 : ℚ) ≤ n := by exact_mod_cast hpos
  have hlarge : (10 : ℚ) ^ (-309 : Int) ≤ (ofNat n).value := by
    rw [hvalue]
    exact (zpow_le_one_of_nonpos₀ (by norm_num) (by norm_num)).trans hone
  have hgrid : (ofNat n).gridExponent precision ≤ 0 := by
    have hlt : (10 : ℚ) ^ (ofNat n).decimalExponent < 10 ^ (15 : Int) := by
      refine hx.zpow_decimalExponent_le.trans_lt ?_
      rw [hvalue]
      exact_mod_cast hn
    have hexp := (zpow_lt_zpow_iff_right₀ (by norm_num)).mp hlt
    rw [gridExponent, precision]
    omega
  have hsame : (Decimal.strip ⟨n, 0⟩).value = n := by
    rw [Decimal.value_strip hpos.ne', Decimal.value, zpow_zero, mul_one]
  rw [decimal_eq_rounded hx hlarge]
  refine hx.rounded_eq_of_near (n := n * 10 ^ (-(ofNat n).gridExponent precision).toNat) (by decide)
    (Decimal.stripped_strip hpos.ne') ?_ ?_
  · rw [hsame, Nat.cast_mul, Nat.cast_pow, Nat.cast_ofNat, mul_assoc, ← zpow_natCast,
      ← zpow_add₀ (by norm_num)]
    simp [hgrid]
  · rw [hvalue, hsame, sub_self, abs_zero]
    exact half_pos (Decimal.ten_zpow_pos _)

theorem text_digits (hpos : 0 < n) (hn : n < 10 ^ 15) :
    (Decimal.strip ⟨n, 0⟩).text = toString n := by
  obtain ⟨j, hcoefficient, hexponent, hstripped⟩ :=
    Decimal.strip_spec (d := ⟨n, 0⟩) (show n ≠ 0 by omega)
  dsimp only at hcoefficient hexponent
  generalize Decimal.strip ⟨n, 0⟩ = s at *
  have hdigits : Nat.toDigits 10 n = s.digits ++ List.replicate j '0' := by
    rw [hcoefficient, toDigits_mul_pow (by omega), Decimal.digits]
  have hlength : (Nat.toDigits 10 n).length ≤ 15 :=
    (Nat.length_toDigits_le_iff (by decide) (by decide)).mpr hn
  rw [hdigits, List.length_append, List.length_replicate] at hlength
  have hleading : s.leading = (s.digits.length + j : Nat) - 1 := by
    rw [Decimal.leading, hexponent]
    omega
  have hone := s.length_digits_pos
  have hwhole : (s.leading + 1).toNat = s.digits.length + j := by omega
  have hpositional : isPositional s.leading := by
    rw [isPositional, Bool.and_eq_true, decide_eq_true_iff, decide_eq_true_iff]
    omega
  rw [Decimal.text, layout, if_pos hpositional, positional, if_neg (by omega), hwhole]
  dsimp only
  rw [if_pos (by omega), Nat.add_sub_cancel_left, ← hdigits]
  rfl

theorem Positive.text_eq {x : Number} (hx : x.Positive) : x.text = x.decimal.text := by
  obtain ⟨hfinite, hsign, hnonzero⟩ := hx
  cases x with
  | nan | infinite => cases hfinite
  | finite negative m p h =>
    have hm : m ≠ 0 := by
      rintro rfl
      exact hnonzero (Nat.zero_shiftLeft p)
    cases hsign
    rw [text, if_neg hm, if_neg Bool.false_ne_true]

/-- The text of an integer of at most fifteen digits is its numeral. -/
theorem text_ofNat (hn : n < 10 ^ 15) : (ofNat n).text = toString n := by
  rcases Nat.eq_zero_or_pos n with rfl | hpos
  · decide +kernel
  · rw [(positive_ofNat hpos (by omega)).text_eq, decimal_ofNat hpos hn, text_digits hpos hn]

theorem textBy?_ofNat (hliteral : 0 < n → PrintsShortest literal (ofNat n)) (hn : n < 10 ^ 15) :
    textBy? literal (ofNat n) = some (toString n) := by
  rw [textBy?_eq, text_ofNat hn]
  intro hfinite hnonzero
  have habs : (ofNat n).abs = ofNat n := by
    obtain ⟨m, p, h, heq, -⟩ := ofNat_eq (n := n) (by omega)
    rw [heq, abs]
  rw [habs]
  refine hliteral (Nat.pos_of_ne_zero ?_)
  rintro rfl
  exact absurd hnonzero (by decide +kernel)

/-- The literal of the digits that are written, with an exponent below `10 ^ -6` and from `10 ^ 21`
on. -/
def scriptLiteral (x : Number) : List Char :=
  if -7 < x.decimal.leading ∧ x.decimal.leading < 21 then
    positional x.decimal.digits x.decimal.leading
  else scientific x.decimal.digits x.decimal.leading

theorem printsShortest_scriptLiteral (hpos : 0 < n) (hn : n < 10 ^ 15) :
    PrintsShortest scriptLiteral (ofNat n) := by
  have hread : (Decimal.strip ⟨n, 0⟩).toNumber = ofNat n := by
    rw [Decimal.toNumber_strip hpos.ne', toNumber_of_exponent_zero hn]
  have hfits : (Decimal.strip ⟨n, 0⟩).digits.length ≤ precision :=
    Decimal.length_digits_strip_le hpos.ne' (by decide) hn.le
  refine ⟨(ofNat n).decimal, (positive_ofNat hpos (by omega)).isShortest_decimal hfits hread, ?_⟩
  rw [scriptLiteral]
  split
  · exact .inl rfl
  · exact .inr rfl

theorem IsInt.isNegative_of_pos {x : Number} {a : Int} (hx : x.IsInt a) (ha : 0 < a) :
    x.isNegative = false := by
  have hscaled := hx.has.scaled_eq
  rw [hx.scaled] at hscaled
  cases hnegative : x.isNegative with
  | false => rfl
  | true =>
    have hpos : 0 < a * unitsPerOne := Int.mul_pos ha (Int.natCast_pos.mpr unitsPerOne_pos)
    rw [hnegative, if_pos rfl] at hscaled
    exact absurd hpos (by rw [hscaled, not_lt]; exact Int.neg_natCast_le_natCast _ 0)

theorem isInt_one : (1 : Number).IsInt 1 := isInt_ofNat (by decide)

/-- Counting is exact below `2 ^ 53`. -/
theorem ofNat_add_one (hn : n + 1 < 2 ^ 53) : ofNat n + 1 = ofNat (n + 1) := by
  have hsum : (ofNat n + 1).IsInt (n + 1) :=
    (isInt_ofNat (by omega)).add isInt_one (hasInt_of_lt (by omega))
  exact eq_ofNat hsum.isInteger (hsum.isNegative_of_pos (by omega)) hsum.toInt_eq hn

end Number

/-! ## Appended values -/

namespace Builtin

variable {σ : Type} [Journal σ] (machine : Machine σ)

/-- Writes values at the numbers from `x` on, and gives the number after the last. -/
def writeCounting (a : ObjectId) : Number → List Value → Run σ Number
  | x, [] => return x
  | x, v :: rest => do
    machine.writeAt a (.number x) v
    writeCounting a (x + 1) rest

/-- Appends values, counting in numbers and writing by numbers as keys. -/
def pushCounting (this : Value) (args : List Value) : Run σ Value := do
  let (a, length) ← receiverAndLength machine this
  let length ← writeCounting machine a (.ofNat length) args
  machine.write a Movie.lengthKey (.number length)
  return .number length

end Builtin

namespace Machine

variable {σ : Type} [Journal σ] (machine : Machine σ) {n : Nat}

theorem writeAt_number (o : ObjectId) (x : Number) (v : Value) :
    machine.writeAt o (.number x) v = machine.writeKey o x.text x.text v := rfl

theorem readAt_number (o : ObjectId) (x : Number) :
    machine.readAt o (.number x) = machine.readKey o x.text := rfl

theorem writeAt_ofNat (hn : n < 10 ^ 15) (o : ObjectId) (v : Value) :
    machine.writeAt o (.number (.ofNat n)) v =
      machine.writeKey o (toString n) (toString n) v := by
  rw [writeAt_number, Number.text_ofNat hn]

theorem readAt_ofNat (hn : n < 10 ^ 15) (o : ObjectId) :
    machine.readAt o (.number (.ofNat n)) = machine.readKey o (toString n) := by
  rw [readAt_number, Number.text_ofNat hn]

end Machine

namespace Builtin

variable {σ : Type} [Journal σ] (machine : Machine σ)

/-- The values are written under the numerals of the indices from the first on. -/
theorem writeFrom_eq (a : ObjectId) (n : Nat) (vs : List Value) :
    writeFrom machine a n vs =
      (vs.zipIdx n).forM fun e => machine.writeKey a (toString e.2) (toString e.2) e.1 := by
  induction vs generalizing n with
  | nil => rfl
  | cons v vs ih =>
    rw [writeFrom, ih]
    rfl

theorem writeCounting_ofNat {n : Nat} {vs : List Value} (hn : n + vs.length ≤ 10 ^ 15)
    (a : ObjectId) : writeCounting machine a (.ofNat n) vs = (do
      writeFrom machine a n vs
      return .ofNat (n + vs.length)) := by
  induction vs generalizing n with
  | nil => rfl
  | cons v vs ih =>
    rw [List.length_cons] at hn ⊢
    rw [writeCounting, writeFrom, machine.writeAt_ofNat (by omega), Number.ofNat_add_one (by omega),
      ih (by omega), bind_assoc, Nat.add_assoc, Nat.add_comm 1]
    rfl

/-- Appending at indices of at most fifteen digits, counted in numbers, is appending at their
numerals. -/
theorem pushAll_eq {args : List Value} (hargs : 2 ^ 32 + args.length ≤ 10 ^ 15) (this : Value) :
    pushAll machine this args = pushCounting machine this args := by
  have hfrom (a : ObjectId) (length : Nat) (hlength : length < 2 ^ 32) :
      (do
        writeFrom machine a length args
        let length : Value := .number (.ofNat (length + args.length))
        machine.write a Movie.lengthKey length
        return length : Run σ Value) = (do
        let length ← writeCounting machine a (.ofNat length) args
        machine.write a Movie.lengthKey (.number length)
        return .number length) := by
    rw [writeCounting_ofNat machine (by omega), bind_assoc]
    rfl
  simp only [pushAll, pushCounting, receiverAndLength, Machine.toUInt32, bind_assoc, pure_bind]
  refine bind_congr fun a => bind_congr fun length => bind_congr fun x => ?_
  exact hfrom a x.toUInt32 x.toUInt32_lt

end Builtin

/-! ## One spelling -/

/-- Apart from the length, the slots of a new array are those of its elements. -/
theorem Movie.Created.slot?_eq_some {m : Movie} {a : ObjectId} {vs : List Value}
    (ha : m.Created a vs) {key : String} (hkey : key ≠ lengthKey) {p : Property} :
    m.heap.slot? a key = some p ↔
      ∃ i, ∃ h : i < vs.length, key = toString i ∧ p = .data vs[i] {} := by
  constructor
  · intro hslot
    have hsome : ((elementSlots vs).find? key).isSome := by
      rw [Heap.slot?_eq ha, arrayOf, Table.find?_insert, if_neg hkey] at hslot
      rw [hslot]
      rfl
    obtain ⟨i, hi, rfl⟩ := isSome_find?_elementSlots hsome
    rw [ha.slot?_indexKey hi] at hslot
    exact ⟨i, hi, rfl, (Option.some.inj hslot).symm⟩
  · rintro ⟨i, hi, rfl, rfl⟩
    exact ha.slot?_indexKey hi

namespace Machine

variable {σ : Type} [Journal σ] (machine : Machine σ)

/-- An index has one spelling. The keys that are recognised as indices are their plain decimal
numerals. With a printer of shortest literals, the text of an integer of at most fifteen digits is
its numeral, which as a name is its own key. So by such a number the slot of the numeral is written
and read; appended values are written there, as if they were counted in numbers and written by them;
and there stand the elements of a new array. -/
theorem index_keys {literal : Number → List Char}
    (hliteral : ∀ n, 0 < n → n < 10 ^ 15 → Number.PrintsShortest literal (.ofNat n)) {m : Movie}
    (hm : Session.Reached m) :
    (∀ key i, arrayIndex? key = some i ↔ i < 2 ^ 32 - 1 ∧ key = toString i) ∧
    (∀ n < 10 ^ 15, Number.textBy? literal (.ofNat n) = some (toString n) ∧
      (Number.ofNat n).text = toString n ∧ m.normalize (toString n) = toString n) ∧
    (∀ n < 10 ^ 15, ∀ o v,
      machine.writeAt o (.number (.ofNat n)) v = machine.writeKey o (toString n) (toString n) v ∧
      machine.readAt o (.number (.ofNat n)) = machine.readKey o (toString n)) ∧
    (∀ a n vs, Builtin.writeFrom machine a n vs =
      (vs.zipIdx n).forM fun e => machine.writeKey a (toString e.2) (toString e.2) e.1) ∧
    (∀ this args, 2 ^ 32 + args.length ≤ 10 ^ 15 →
      Builtin.pushAll machine this args = Builtin.pushCounting machine this args) ∧
    ∀ vs array m', Movie.createArray vs m = (array, m') → ∀ key p, key ≠ Movie.lengthKey →
      (m'.heap.slot? array key = some p ↔
        ∃ i, ∃ h : i < vs.length, key = toString i ∧ p = .data vs[i] {}) := by
  refine ⟨fun _ _ => arrayIndex?_eq_some, fun n hn => ⟨?_, Number.text_ofNat hn, ?_⟩,
    fun n hn o v => ⟨machine.writeAt_ofNat hn o v, machine.readAt_ofNat hn o⟩,
    Builtin.writeFrom_eq machine, fun this args hargs => Builtin.pushAll_eq machine hargs this, ?_⟩
  · exact Number.textBy?_ofNat (fun hpos => hliteral n hpos hn) hn
  · exact m.settings.normalize_of_isNumeral (isNumeral_indexKey n)
  · intro vs array m' hnew key p hkey
    have hcreated := Movie.created_createArray hm.arena vs
    rw [hnew] at hcreated
    exact hcreated.slot?_eq_some hkey

/-- The greatest index, and the first element of a new array. -/
theorem index_keys_greatest :
    (∀ n, 0 < n → n < 10 ^ 15 → Number.PrintsShortest Number.scriptLiteral (.ofNat n)) ∧
    Session.Reached (Movie.new {}) ∧
    arrayIndex? "4294967294" = some 4294967294 ∧
    Number.textBy? Number.scriptLiteral (.ofNat 4294967294) = some "4294967294" ∧
    ∃ array m', Movie.createArray [.null] (Movie.new {}) = (array, m') ∧
      m'.heap.slot? array "0" = some (.data .null {}) := by
  have hliteral (n : Nat) (hpos : 0 < n) (hn : n < 10 ^ 15) :=
    Number.printsShortest_scriptLiteral hpos hn
  have hreached := Session.reached_new {}
  obtain ⟨hrecognised, htexts, -, -, -, hslots⟩ :=
    ((Host.bare Unit).machine 1).index_keys hliteral hreached
  obtain ⟨array, m', hnew, -, -⟩ := Movie.exists_created hreached.arena [.null]
  have hslot := (hslots _ _ _ hnew "0" (.data .null {}) (by decide)).mpr
    ⟨0, by decide, rfl, rfl⟩
  exact ⟨hliteral, hreached, (hrecognised _ _).mpr ⟨by decide, by decide⟩,
    (htexts 4294967294 (by decide)).1, array, m', hnew, hslot⟩

end Machine

end ActionScript
