import Mathlib.Order.Bounds.Basic
import ActionScript.Text.Units

/-! # Searches among UTF-16 units

A text is read back from its units (`ofUnits_units`), since no unit of a character is taken for half
of a surrogate pair with one of its neighbour. The search for a part gives the first position at
which the units of the part stand (`findUnits_firstFrom`). It can also be made by comparing slices
at the positions at which the part fits, and then reads no unit outside the text (`search?_eq`). -/

namespace ActionScript.Text

/-! ## Reading units -/

theorem isHighSurrogate_iff (u : UInt16) :
    isHighSurrogate u ↔ 0xd800 ≤ u.toNat ∧ u.toNat < 0xdc00 := by
  rw [isHighSurrogate, Bool.and_eq_true, decide_eq_true_eq, decide_eq_true_eq,
    UInt16.le_iff_toNat_le, UInt16.lt_iff_toNat_lt]
  rfl

theorem isLowSurrogate_iff (u : UInt16) :
    isLowSurrogate u ↔ 0xdc00 ≤ u.toNat ∧ u.toNat < 0xe000 := by
  rw [isLowSurrogate, Bool.and_eq_true, decide_eq_true_eq, decide_eq_true_eq,
    UInt16.le_iff_toNat_le, UInt16.lt_iff_toNat_lt]
  rfl

/-- A unit that is no high surrogate is read by itself. -/
theorem charsOfUnits_cons {u : UInt16} (hu : isHighSurrogate u = false) (us : List UInt16) :
    charsOfUnits (u :: us) = unitChar u :: charsOfUnits us := by
  cases us with
  | nil => rfl
  | cons v rest => rw [charsOfUnits, hu, Bool.false_and, if_neg Bool.false_ne_true]

theorem charsOfUnits_pair {u v : UInt16} (hu : isHighSurrogate u) (hv : isLowSurrogate v)
    (us : List UInt16) : charsOfUnits (u :: v :: us) = pairChar u v :: charsOfUnits us := by
  rw [charsOfUnits, hu, hv, Bool.true_and, if_pos rfl]

/-- The units of a character are read as that character. -/
theorem charsOfUnits_charUnits (c : Char) (us : List UInt16) :
    charsOfUnits (charUnits c ++ us) = c :: charsOfUnits us := by
  have hvalid : c.toNat < 0xd800 ∨ 0xdfff < c.toNat ∧ c.toNat < 0x110000 := c.valid
  rw [charUnits]
  split
  · rename_i hsmall
    have htoNat := UInt16.toNat_ofNat_of_lt' hsmall
    have hhigh : isHighSurrogate (.ofNat c.toNat) = false := by
      rw [Bool.eq_false_iff, ne_eq, isHighSurrogate_iff, htoNat]
      omega
    have hlow : isLowSurrogate (.ofNat c.toNat) = false := by
      rw [Bool.eq_false_iff, ne_eq, isLowSurrogate_iff, htoNat]
      omega
    rw [List.singleton_append, charsOfUnits_cons hhigh, unitChar, hhigh, hlow, Bool.or_self,
      if_neg Bool.false_ne_true, htoNat, Char.ofNat_toNat]
  · rename_i hlarge
    have hsize : UInt16.size = 0x10000 := rfl
    have hhigh := UInt16.toNat_ofNat_of_lt'
      (show 0xd800 + (c.toNat - 0x10000) / 0x400 < UInt16.size by omega)
    have hlow := UInt16.toNat_ofNat_of_lt'
      (show 0xdc00 + (c.toNat - 0x10000) % 0x400 < UInt16.size by omega)
    rw [List.cons_append, List.singleton_append,
      charsOfUnits_pair ((isHighSurrogate_iff _).mpr (by omega))
        ((isLowSurrogate_iff _).mpr (by omega)), pairChar, hhigh, hlow]
    have hvalue : 0x10000 + (0xd800 + (c.toNat - 0x10000) / 0x400 - 0xd800) * 0x400 +
        (0xdc00 + (c.toNat - 0x10000) % 0x400 - 0xdc00) = c.toNat := by omega
    rw [hvalue, Char.ofNat_toNat]

/-- A text is what its units are read as. -/
theorem ofUnits_units (s : String) : ofUnits (units s) = s := by
  have hchars (cs : List Char) : charsOfUnits (cs.flatMap charUnits) = cs := by
    induction cs with
    | nil => rfl
    | cons c cs ih => rw [List.flatMap_cons, charsOfUnits_charUnits, ih]
  rw [ofUnits, units, hchars, String.ofList_toList]

/-! ## Occurrences -/

variable {part whole : List UInt16} {start count i : Nat} {found : Option Nat}

/-- The units of a part stand in the whole at a position. -/
def OccursAt (part whole : List UInt16) (i : Nat) : Prop :=
  ∃ before after, whole = before ++ part ++ after ∧ before.length = i

/-- The units of a slice; none unless the whole slice lies among the units. -/
def slice? (us : List UInt16) (start count : Nat) : Option (List UInt16) :=
  if start + count ≤ us.length then some ((us.drop start).take count) else none

theorem slice?_eq {us : List UInt16} (h : start + count ≤ us.length) :
    slice? us start count = some ((us.drop start).take count) := if_pos h

/-- A part stands where the slice of its length is that part. -/
theorem occursAt_iff_slice? : OccursAt part whole i ↔ slice? whole i part.length = some part := by
  constructor
  · rintro ⟨before, after, rfl, rfl⟩
    have hfits : before.length + part.length ≤ (before ++ part ++ after).length := by
      rw [List.length_append, List.length_append]
      omega
    rw [slice?_eq hfits, List.append_assoc, List.drop_left, List.take_left]
  · intro h
    rw [slice?] at h
    split at h
    · rename_i hfits
      refine ⟨whole.take i, (whole.drop i).drop part.length, ?_, ?_⟩
      · have hpart := List.take_append_drop part.length (whole.drop i)
        rw [Option.some.inj h] at hpart
        rw [List.append_assoc, hpart, List.take_append_drop]
      · rw [List.length_take]
        omega
    · cases h

theorem OccursAt.add_length_le (h : OccursAt part whole i) : i + part.length ≤ whole.length := by
  obtain ⟨before, after, rfl, rfl⟩ := h
  rw [List.length_append, List.length_append]
  omega

/-- The first position from `start` on at which a part stands, if there is one. -/
inductive FirstFrom (part whole : List UInt16) (start : Nat) : Option Nat → Prop
  | found {i : Nat} (h : IsLeast {j | start ≤ j ∧ OccursAt part whole j} i) :
      FirstFrom part whole start (some i)
  | missing (h : ∀ j, start ≤ j → ¬ OccursAt part whole j) : FirstFrom part whole start none

namespace FirstFrom

theorem here (h : OccursAt part whole start) : FirstFrom part whole start (some start) :=
  .found ⟨⟨le_rfl, h⟩, fun _ hj => hj.1⟩

theorem later (h : ¬ OccursAt part whole start) (hrest : FirstFrom part whole (start + 1) found) :
    FirstFrom part whole start found := by
  have hnext {j : Nat} (hj : start ≤ j ∧ OccursAt part whole j) : start + 1 ≤ j := by
    refine Nat.lt_of_le_of_ne hj.1 ?_
    rintro rfl
    exact h hj.2
  cases hrest with
  | found hleast =>
    obtain ⟨⟨hle, hoccurs⟩, hlower⟩ := hleast
    exact .found ⟨⟨by omega, hoccurs⟩, fun j hj => hlower ⟨hnext hj, hj.2⟩⟩
  | missing hnone => exact .missing fun j hle hoccurs => hnone j (hnext ⟨hle, hoccurs⟩) hoccurs

/-- Beyond the last position at which it fits a part does not stand. -/
theorem beyond (h : whole.length < start + part.length) : FirstFrom part whole start none := by
  refine .missing fun j hle hoccurs => ?_
  have hfits := hoccurs.add_length_le
  omega

theorem unique {found' : Option Nat} (h : FirstFrom part whole start found)
    (h' : FirstFrom part whole start found') : found = found' := by
  cases h with
  | found hleast =>
    cases h' with
    | found hleast' => rw [hleast.unique hleast']
    | missing hnone => exact absurd hleast.1.2 (hnone _ hleast.1.1)
  | missing hnone =>
    cases h' with
    | found hleast' => exact absurd hleast'.1.2 (hnone _ hleast'.1.1)
    | missing => rfl

theorem occursAt (h : FirstFrom part whole start (some i)) : OccursAt part whole i := by
  cases h with
  | found hleast => exact hleast.1.2

end FirstFrom

/-! ## Searches -/

theorem isPrefixOf_drop_iff (part : List UInt16) (h : i ≤ whole.length) :
    part.isPrefixOf (whole.drop i) ↔ OccursAt part whole i := by
  rw [List.isPrefixOf_iff_prefix]
  constructor
  · rintro ⟨after, hafter⟩
    refine ⟨whole.take i, after, ?_, ?_⟩
    · rw [List.append_assoc, hafter, List.take_append_drop]
    · rw [List.length_take]
      omega
  · rintro ⟨before, after, rfl, rfl⟩
    rw [List.append_assoc, List.drop_left]
    exact List.prefix_append part after

/-- The search goes through the units position by position. -/
theorem findUnits_firstFrom (h : start ≤ whole.length) :
    FirstFrom part whole start (findUnits whole part start) := by
  rw [findUnits]
  generalize hunits : whole.drop start = us
  induction us generalizing start with
  | nil =>
    have hoccurs := isPrefixOf_drop_iff part h
    rw [hunits] at hoccurs
    have hlength := List.drop_eq_nil_iff.mp hunits
    rw [findUnitsFrom]
    cases part with
    | nil => exact .here (hoccurs.mp rfl)
    | cons u part =>
      refine .later (mt hoccurs.mpr Bool.false_ne_true) (.beyond ?_)
      omega
  | cons u rest ih =>
    have hlt : start < whole.length := by
      rw [← not_le, ← List.drop_eq_nil_iff, hunits]
      exact List.cons_ne_nil u rest
    have hoccurs := isPrefixOf_drop_iff part h
    rw [hunits] at hoccurs
    rw [findUnitsFrom]
    split
    · rename_i hprefix
      exact .here (hoccurs.mp hprefix)
    · rename_i hprefix
      refine .later (mt hoccurs.mpr hprefix) (ih hlt ?_)
      rw [← List.drop_drop, hunits, List.drop_one, List.tail_cons]

/-- The first of the positions at which the slice is the part. A slice is only read where the part
fits; none if one that is read does not lie among the units. -/
def search? (whole part : List UInt16) : List Nat → Option (Option Nat)
  | [] => some none
  | i :: rest =>
    if i + part.length ≤ whole.length then
      (slice? whole i part.length).bind fun here =>
        if here = part then some (some i) else search? whole part rest
    else search? whole part rest

/-- The positions from `start` on up to the last at which the part fits, or to the first of the
text if it is too long. -/
def positions (whole part : List UInt16) (start : Nat) : List Nat :=
  List.range' start (whole.length - part.length + 1 - start)

theorem search?_range' (part : List UInt16) {n : Nat}
    (h : whole.length - part.length + 1 ≤ start + n) :
    ∃ found, search? whole part (List.range' start n) = some found ∧
      FirstFrom part whole start found := by
  induction n generalizing start with
  | zero => exact ⟨none, rfl, .beyond (by omega)⟩
  | succ n ih =>
    have hrest : whole.length - part.length + 1 ≤ start + 1 + n := by omega
    obtain ⟨found, hsearch, hfound⟩ := ih hrest
    rw [List.range'_succ, search?]
    split
    · rename_i hfits
      have hslice := slice?_eq hfits
      rw [hslice, Option.bind_some]
      split
      · rename_i hhere
        rw [hhere] at hslice
        exact ⟨some start, rfl, .here (occursAt_iff_slice?.mpr hslice)⟩
      · rename_i hhere
        refine ⟨found, hsearch, .later (fun hoccurs => hhere ?_) hfound⟩
        exact Option.some.inj (hslice.symm.trans (occursAt_iff_slice?.mp hoccurs))
    · rename_i hfits
      exact ⟨found, hsearch, .later (mt OccursAt.add_length_le hfits) hfound⟩

/-- The slices at these positions find what the search through the units finds. -/
theorem search?_eq (h : start ≤ whole.length) :
    search? whole part (positions whole part start) = some (findUnits whole part start) := by
  have hcover : whole.length - part.length + 1 ≤
      start + (whole.length - part.length + 1 - start) := by omega
  obtain ⟨found, hsearch, hfound⟩ := search?_range' part hcover
  rw [positions, hsearch, hfound.unique (findUnits_firstFrom h)]

end ActionScript.Text
