import ActionScript.Host
import ActionScript.Movie.Setup
import ActionScript.Proofs.Evaluation
import ActionScript.Proofs.IntegerArithmetic
import ActionScript.Proofs.Numeral
import ActionScript.Proofs.UnitSearch

/-! # Positions in texts

The routines that find and cut parts of texts count in units and take their positions from numbers.
What `indexOf` finds, `substr` cuts out again, and whatever numbers the positions are, the routines
read slices that lie among the units (`Builtin.text_positions`). -/

namespace ActionScript

/-! ## Positions from numbers -/

namespace Number

variable {x y : Number} {a : Int} {n k bound : Nat}

theorem ofNat_ne_neg (n k : Nat) : ofNat n ≠ -ofNat k := by
  intro h
  have hsign := congrArg isNegative h
  rw [ofNat, ofNat, neg_round, isNegative_round, isNegative_round] at hsign
  cases hsign

theorem infinite_lt (hy : y.isFinite) : lt (.infinite true) y := by
  cases y with
  | nan | infinite => cases hy
  | finite => rfl

theorem le_infinite (hx : x.isNaN = false) : le x (.infinite false) := by
  cases x with
  | nan => cases hx
  | infinite negative => cases negative <;> rfl
  | finite => rfl

/-- What is converted to an integer is one unless it is infinite. -/
theorem toInteger_cases (y : Number) :
    (∃ negative, y.toInteger = .infinite negative) ∨ ∃ a, y.toInteger.IsInt a := by
  cases y with
  | nan => exact .inr ⟨0, zero_isInt false⟩
  | infinite negative => exact .inl ⟨negative, rfl⟩
  | finite negative m p h =>
    exact .inr ⟨_, (has_of_isFinite (x := .finite negative m p h) rfl).trunc.isInt_signed⟩

theorem IsInt.toInteger (hx : x.IsInt a) : x.toInteger.IsInt a := by
  have htrunc := hx.trunc
  have hfinite := hx.isFinite
  cases x with
  | nan | infinite => cases hfinite
  | finite => exact htrunc

/-- The integer in `[0, bound]` that is closest to an integer or an infinity. -/
inductive ClampsTo (bound : Nat) (x : Number) : Nat → Prop
  | below (h : lt x 0) : ClampsTo bound x 0
  | within {k : Nat} (hx : x.IsInt k) (h : k ≤ bound) : ClampsTo bound x k
  | above {k : Nat} (hx : x.IsInt k) (h : bound ≤ k) : ClampsTo bound x bound
  | endless (hx : x = .infinite false) : ClampsTo bound x bound

/-- An integer is clamped to one position only. -/
theorem ClampsTo.eq (h : ClampsTo bound x k) (hx : x.IsInt n) : k = Min.min n bound := by
  cases h with
  | below hlt =>
    rw [hx.lt_iff isInt_zero] at hlt
    omega
  | within hk hle =>
    have hint := hx.toInt_eq.symm.trans hk.toInt_eq
    omega
  | above hk hge =>
    have hint := hx.toInt_eq.symm.trans hk.toInt_eq
    omega
  | endless hinfinite =>
    have hfinite := hx.isFinite
    rw [hinfinite] at hfinite
    cases hfinite

theorem IsInt.toNatUpTo_eq (hx : x.IsInt a) (bound : Nat) :
    x.toNatUpTo bound = Min.min a.toNat bound := by
  have hint := hx.toInt_eq
  have hfinite := hx.isFinite
  cases x with
  | nan | infinite => cases hfinite
  | finite => exact congrArg (fun i : Int => Min.min i.toNat bound) hint

theorem clampsTo_toNatUpTo (y : Number) (bound : Nat) :
    ClampsTo bound y.toInteger (y.toInteger.toNatUpTo bound) := by
  rcases toInteger_cases y with ⟨negative, hy⟩ | ⟨a, ha⟩
  · rw [hy]
    cases negative with
    | false => exact .endless rfl
    | true =>
      have hzero : toNatUpTo bound (.infinite true) = 0 := Nat.zero_min bound
      rw [hzero]
      exact .below (infinite_lt isInt_zero.isFinite)
  · rw [ha.toNatUpTo_eq]
    rcases lt_or_ge a 0 with hneg | hpos
    · rw [Int.toNat_of_nonpos hneg.le, Nat.zero_min]
      exact .below ((ha.lt_iff isInt_zero).mpr hneg)
    · obtain ⟨k, rfl⟩ := Int.eq_ofNat_of_zero_le hpos
      rw [Int.toNat_natCast]
      rcases Nat.le_total k bound with hle | hge
      · rw [Nat.min_eq_left hle]
        exact .within ha hle
      · rw [Nat.min_eq_right hge]
        exact .above ha hge

theorem toNatUpTo_le (x : Number) (bound : Nat) : x.toNatUpTo bound ≤ bound := by
  rw [toNatUpTo.eq_def]
  split
  · exact le_rfl
  · exact Nat.min_le_right ..

end Number

/-! ## Receivers and arguments -/

/-- The value is a text or a box of one. -/
inductive Movie.ShowsText (m : Movie) : Value → String → Prop
  | text (s : String) : m.ShowsText (.string s) s
  | box {o : ObjectId} {x : Object} {s : String} (ho : m.heap.get? o = some x)
      (hx : x.kind = .string s) : m.ShowsText (.object o) s

variable {σ : Type} [Journal σ] {m : Movie} {this : Value} {s : String}

namespace Builtin

open Text (units ofUnits slice? search? positions FirstFrom OccursAt)

theorem receiverText_yields (machine : Machine σ) (h : m.ShowsText this s) :
    (receiverText machine this).Yields m s m := by
  refine .movie ?_
  cases h with
  | text => exact machine.toText_yields s
  | @box o x _ ho hx =>
    have hkind : ((Value.object o).object?.bind m.heap.get?).map Object.kind =
        some (.string s) := by
      rw [Value.object?, Option.bind_some, ho, Option.map_some, hx]
    rw [hkind]
    exact .pure

/-- The number of an argument that may be missing. -/
def optionalNumber (machine : Machine σ) (v : Value) : Run σ (Option Number) :=
  match v with
  | .undefined => return none
  | v => return some (← machine.toNumber v)

/-- The value of a position, if one has been found. -/
def foundAt (found : Option Nat) : Value := .number (found.elim (-1) .ofNat)

/-- The slice that `charAt` reads. -/
def unitSlice? (us : List UInt16) (index : Number) : Option (List UInt16) :=
  if Number.lt index 0 || Number.le (.ofNat us.length) index then some []
  else slice? us index.toInt.toNat 1

/-- The slice that `substr` reads; without a count all units from the start on. -/
def cutSlice? (us : List UInt16) (start : Number) (count : Option Number) : Option (List UInt16) :=
  slice? us (startPosition start us.length)
    (count.elim (us.length - startPosition start us.length)
      fun n => n.toNatUpTo (us.length - startPosition start us.length))

/-! ## Slices among the units -/

/-- An index that is not out of range is that of a unit. -/
theorem unitSlice?_eq (us : List UInt16) (y : Number) :
    unitSlice? us y.toInteger =
      some (if Number.lt y.toInteger 0 || Number.le (.ofNat us.length) y.toInteger then []
        else (us.drop y.toInteger.toInt.toNat).take 1) := by
  rw [unitSlice?]
  split
  · rfl
  · rename_i hrange
    rw [Bool.or_eq_true, not_or] at hrange
    refine Text.slice?_eq ?_
    obtain ⟨hlow, hhigh⟩ := hrange
    rcases Number.toInteger_cases y with ⟨negative, hy⟩ | ⟨a, ha⟩
    · rw [hy] at hlow hhigh
      cases negative with
      | true => exact absurd (Number.infinite_lt Number.isInt_zero.isFinite) hlow
      | false => exact absurd (Number.le_infinite (Number.isNaN_round ..)) hhigh
    · rw [ha.lt_iff Number.isInt_zero, not_lt] at hlow
      obtain ⟨k, rfl⟩ := Int.eq_ofNat_of_zero_le hlow
      -- The length may be rounded up, but not past an integer that is a number.
      have hk : k < us.length := by
        by_contra hk
        exact hhigh (Number.ofNat_le ha (not_lt.mp hk))
      rw [ha.toInt_eq, Int.toNat_natCast]
      omega

theorem startPosition_le (x : Number) (length : Nat) : startPosition x length ≤ length := by
  rw [startPosition]
  split <;> exact Number.toNatUpTo_le ..

theorem cutSlice?_eq (us : List UInt16) (start : Number) (count : Option Number) :
    cutSlice? us start count = some ((us.drop (startPosition start us.length)).take
      (count.elim (us.length - startPosition start us.length)
        fun n => n.toNatUpTo (us.length - startPosition start us.length))) := by
  refine Text.slice?_eq ?_
  have hstart := startPosition_le start us.length
  cases count with
  | none =>
    rw [Option.elim_none]
    omega
  | some n =>
    have hcount := Number.toNatUpTo_le n (us.length - startPosition start us.length)
    rw [Option.elim_some]
    omega

/-! ## The routines -/

theorem charAt_run (machine : Machine σ) (h : m.ShowsText this s) (args : List Value) (e : σ) :
    ∃ e', run machine (.string .charAt) this args ⟨m, e⟩ = (do
      let y ← machine.toNumber (argument args 0)
      return .string (ofUnits ((unitSlice? (units s) y.toInteger).getD [])) : Run σ Value)
        ⟨m, e'⟩ := by
  obtain ⟨seen, -, hreceiver⟩ := receiverText_yields machine h e
  refine ⟨_, (Run.bind_ok hreceiver).trans (congrFun ?_ _)⟩
  rw [Machine.toInteger, bind_assoc]
  refine bind_congr fun y => ?_
  rw [pure_bind, unitSlice?_eq]
  split <;> rfl

theorem indexOf_run (machine : Machine σ) (h : m.ShowsText this s) (t : String) (rest : List Value)
    (e : σ) : ∃ e', run machine (.string .indexOf) this (.string t :: rest) ⟨m, e⟩ = (do
      let y ← machine.toNumber (argument rest 0)
      return foundAt (Text.findUnits (units s) (units t) (y.toInteger.toNatUpTo (units s).length)) :
        Run σ Value) ⟨m, e'⟩ := by
  obtain ⟨seen, -, hreceiver⟩ := receiverText_yields machine h e
  obtain ⟨seen', -, hpart⟩ := machine.toText_yields t (seen.foldr Journal.record e)
  refine ⟨_, (Run.bind_ok hreceiver).trans ((Run.bind_ok hpart).trans (congrFun ?_ _))⟩
  rw [position, Machine.toInteger]
  simp only [bind_assoc, pure_bind]
  refine bind_congr fun y => ?_
  split
  · rename_i i hfound
    rw [hfound, foundAt, Option.elim_some]
  · rename_i hfound
    rw [hfound, foundAt, Option.elim_none]

theorem substr_run (machine : Machine σ) (h : m.ShowsText this s) (args : List Value) (e : σ) :
    ∃ e', run machine (.string .substr) this args ⟨m, e⟩ = (do
      let x ← machine.toNumber (argument args 0)
      let count ← optionalNumber machine (argument args 1)
      return .string (ofUnits
        ((cutSlice? (units s) x.toInteger (count.map Number.toInteger)).getD [])) : Run σ Value)
          ⟨m, e'⟩ := by
  obtain ⟨seen, -, hreceiver⟩ := receiverText_yields machine h e
  refine ⟨_, (Run.bind_ok hreceiver).trans (congrFun ?_ _)⟩
  dsimp only
  rw [Machine.toInteger, bind_assoc]
  refine bind_congr fun x => ?_
  rw [pure_bind]
  simp only [cutSlice?_eq, Option.getD_some]
  cases argument args 1 with
  | undefined => rfl
  | _ =>
    simp only [optionalNumber, position, Machine.toInteger, bind_assoc, pure_bind]
    rfl

/-- The slice that starts at an integer below the length and has an integer of units. -/
theorem cutSlice?_of_isInt {us : List UInt16} {x n : Number} {i k : Nat} (hx : x.IsInt i)
    (hn : n.IsInt k) (h : i + k ≤ us.length) :
    cutSlice? us x.toInteger (some n.toInteger) = slice? us i k := by
  have hnonneg : ¬ Number.lt x.toInteger 0 := by
    rw [hx.toInteger.lt_iff Number.isInt_zero, not_lt]
    exact Int.natCast_nonneg i
  have hstart : startPosition x.toInteger us.length = i := by
    rw [startPosition, if_neg hnonneg, hx.toInteger.toNatUpTo_eq, Int.toNat_natCast]
    omega
  rw [cutSlice?, hstart, Option.elim_some, hn.toInteger.toNatUpTo_eq, Int.toNat_natCast,
    Nat.min_eq_left (by omega)]

/-- Where a part stands, `substr` cuts it out. -/
theorem substr_occurrence (machine : Machine σ) (h : m.ShowsText this s) {t : String} {i : Nat}
    (ht : OccursAt (units t) (units s) i) {x n : Number} (hx : x.IsInt i)
    (hn : n.IsInt (units t).length) (rest : List Value) :
    (run machine (.string .substr) this (.number x :: .number n :: rest)).Leads m (.string t)
      m := by
  intro e
  obtain ⟨e₁, hrun⟩ := substr_run machine h (.number x :: .number n :: rest) e
  have hslice := cutSlice?_of_isInt hx hn ht.add_length_le
  rw [Text.occursAt_iff_slice?.mp ht] at hslice
  have hnumber (y : Number) : (machine.toNumber (.number y)).Leads m y m :=
    .of_yields (machine.toNumber_yields rfl)
  have hleads : Run.Leads (do
      let x ← machine.toNumber (argument (.number x :: .number n :: rest) 0)
      let count ← optionalNumber machine (argument (.number x :: .number n :: rest) 1)
      return .string (ofUnits
        ((cutSlice? (units s) x.toInteger (count.map Number.toInteger)).getD [])) : Run σ Value)
      m (.string t) m := by
    refine .bind (hnumber x) (.bind (.bind (hnumber n) .pure) ?_)
    rw [Option.map_some, hslice, Option.getD_some, Text.ofUnits_units]
    exact .pure
  rw [hrun]
  exact hleads e₁

theorem foundAt_eq_neg_one_iff (found : Option Nat) :
    foundAt found = .number (-1) ↔ found = none := by
  cases found with
  | none => rw [foundAt, Option.elim_none, eq_self, eq_self]
  | some i =>
    rw [foundAt, Option.elim_some, Value.number.injEq]
    exact iff_of_false (Number.ofNat_ne_neg i 1) (Option.some_ne_none i)

/-- In a text, `indexOf` finds the first position of a part from a start on, which is the number of
its second argument, clamped. It compares only slices that lie among the units, and where it has
found the part, `substr` cuts it out. -/
structure FindsFirst (machine : Machine σ) (m : Movie) (this : Value) (s t : String)
    (found : Number → Option Nat) : Prop where
  run_eq : ∀ rest e, ∃ e', run machine (.string .indexOf) this (.string t :: rest) ⟨m, e⟩ = (do
    return foundAt (found (← machine.toNumber (argument rest 0))) : Run σ Value) ⟨m, e'⟩
  first : ∀ y, ∃ start, Number.ClampsTo (units s).length y.toInteger start ∧
    FirstFrom (units t) (units s) start (found y) ∧
    search? (units s) (units t) (positions (units s) (units t) start) = some (found y)
  missing : ∀ y, foundAt (found y) = .number (-1) ↔ found y = none
  cut : ∀ y i, found y = some i → ∀ x n rest, x.IsInt i → n.IsInt (units t).length →
    (run machine (.string .substr) this (.number x :: .number n :: rest)).Leads m (.string t) m
  /-- What `indexOf` gives is the position itself unless that is too large to be a number. -/
  cut_found : ∀ y i, found y = some i → (units s).length < 2 ^ 53 → ∀ rest,
    (run machine (.string .substr) this
      (foundAt (found y) :: .number (.ofNat (units t).length) :: rest)).Leads m (.string t) m

theorem findsFirst (machine : Machine σ) (h : m.ShowsText this s) (t : String) :
    FindsFirst machine m this s t fun y =>
      Text.findUnits (units s) (units t) (y.toInteger.toNatUpTo (units s).length) := by
  have hfirst (y : Number) : FirstFrom (units t) (units s) (y.toInteger.toNatUpTo (units s).length)
      (Text.findUnits (units s) (units t) (y.toInteger.toNatUpTo (units s).length)) :=
    Text.findUnits_firstFrom (Number.toNatUpTo_le ..)
  have hoccurs {y : Number} {i : Nat}
      (hi : Text.findUnits (units s) (units t) (y.toInteger.toNatUpTo (units s).length) = some i) :
      OccursAt (units t) (units s) i := (hi ▸ hfirst y).occursAt
  refine ⟨indexOf_run machine h t, fun y => ⟨_, Number.clampsTo_toNatUpTo y _, hfirst y,
    Text.search?_eq (Number.toNatUpTo_le ..)⟩, fun y => foundAt_eq_neg_one_iff _,
    fun y i hi x n rest hx hn => substr_occurrence machine h (hoccurs hi) hx hn rest,
    fun y i hi hlength rest => ?_⟩
  have hfits := (hoccurs hi).add_length_le
  rw [hi, foundAt, Option.elim_some]
  exact substr_occurrence machine h (hoccurs hi) (Number.isInt_ofNat (by omega))
    (Number.isInt_ofNat (by omega)) rest

/-- The routines that search and cut a text agree on its units, and read none outside of it,
whatever the numbers of their arguments are. -/
theorem text_positions (machine : Machine σ) (h : m.ShowsText this s) :
    (∀ t, ∃ found, FindsFirst machine m this s t found) ∧
    (∃ part : Number → List UInt16,
      (∀ args e, ∃ e', run machine (.string .charAt) this args ⟨m, e⟩ = (do
        return .string (ofUnits (part (← machine.toNumber (argument args 0)))) : Run σ Value)
          ⟨m, e'⟩) ∧
      ∀ y, unitSlice? (units s) y.toInteger = some (part y)) ∧
    ∃ part : Number → Option Number → List UInt16,
      (∀ args e, ∃ e', run machine (.string .substr) this args ⟨m, e⟩ = (do
        let x ← machine.toNumber (argument args 0)
        let count ← optionalNumber machine (argument args 1)
        return .string (ofUnits (part x count)) : Run σ Value) ⟨m, e'⟩) ∧
      ∀ x count, cutSlice? (units s) x.toInteger (count.map Number.toInteger) =
        some (part x count) := by
  refine ⟨fun t => ⟨_, findsFirst machine h t⟩, ⟨_, charAt_run machine h, fun y => ?_⟩,
    ⟨_, substr_run machine h, fun x count => ?_⟩⟩
  · rw [unitSlice?_eq, Option.getD_some]
  · rw [cutSlice?_eq, Option.getD_some]

/-- The second of two faces is found from the units of the first on, and counts two units. -/
theorem text_positions_faces :
    ∃ found, FindsFirst ((Host.bare Unit).machine 1) (Movie.new {}) (.string "a😀b😀") "a😀b😀" "😀"
      found ∧ found 2 = some 4 := by
  obtain ⟨hfinds, -⟩ := text_positions ((Host.bare Unit).machine 1)
    (Movie.ShowsText.text (m := Movie.new {}) "a😀b😀")
  obtain ⟨found, hfound⟩ := hfinds "😀"
  refine ⟨found, hfound, ?_⟩
  obtain ⟨start, hclamps, hfirst, -⟩ := hfound.first 2
  have htwo : (2 : Number).IsInt (2 : Nat) := Number.isInt_ofNat (by decide)
  obtain rfl : start = 2 := hclamps.eq htwo.toInteger
  exact hfirst.unique (Text.findUnits_firstFrom (by decide))

end Builtin

end ActionScript
