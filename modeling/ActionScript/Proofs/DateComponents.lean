import ActionScript.Proofs.Gregorian
import ActionScript.Proofs.IntegerArithmetic

/-! # Times of date components

The fields of a date carry into the larger ones, so that any integers name a time: months carry
into years with the remainder from 0 to 11, and what exceeds the first of the month is added in
milliseconds. The time is exact as long as no integer on the way is rounded
(`Calendar.ofComponents_isInt`), and what calendar the days are looked up in makes no difference
(`Calendar.Almanac.Counts.isInt_ofComponents`). -/

namespace ActionScript.Calendar

open Number (IsInt HasInt hasInt_of_lt isInt_of_isInteger isInt_ofInt isInt_ofNat isInt_zero)

/-- The integer of a component, or what it is if missing. -/
def intField (parts : List Number) (i : Nat) (default : Int) : Int :=
  (parts[i]?.map Number.toInt).getD default

/-- The fields of a date, as integers that may exceed their ranges. Months count from 0. -/
structure Fields where
  year : Int
  month : Int
  day : Int
  hour : Int
  minute : Int
  second : Int
  millisecond : Int
deriving DecidableEq

namespace Fields

/-- Missing fields are zero, but the day is the first. -/
def ofParts (parts : List Number) : Fields where
  year := intField parts 0 0
  month := intField parts 1 0
  day := intField parts 2 1
  hour := intField parts 3 0
  minute := intField parts 4 0
  second := intField parts 5 0
  millisecond := intField parts 6 0

variable (f : Fields)

def fullYear : Int := if 0 ≤ f.year ∧ f.year < 100 then f.year + 1900 else f.year

def months : Int := 12 * f.fullYear + f.month

/-- The year that the months carry into. -/
def carriedYear : Int := f.months / 12

/-- The month that remains. -/
def remainingMonth : Int := f.months % 12

def hours : Int := (f.day - 1) * 24 + f.hour

def minutes : Int := f.hours * 60 + f.minute

/-- The milliseconds from the first of the month on. -/
def offset : Int := f.minutes * 60000 + f.second * 1000 + f.millisecond

/-- The time of the fields, for a count of the days to the first of each month. -/
def time (count : Int → Int → Int) : Int :=
  86400000 * count f.carriedYear f.remainingMonth + f.offset

/-- The first of the month and the time itself lie in the years from -200000 to 200000. -/
structure InYears (count : Int → Int → Int) : Prop where
  first : -200000 ≤ f.carriedYear ∧ f.carriedYear ≤ 200000
  start : 86400000 * count (-200000) 0 ≤ f.time count
  finish : f.time count < 86400000 * count 200001 0

/-- The amounts of milliseconds on the way are below `2 ^ 53`. -/
structure SmallAmounts : Prop where
  minutes : (f.minutes * 60000).natAbs < 2 ^ 53
  seconds : (f.second * 1000).natAbs < 2 ^ 53
  sum : (f.minutes * 60000 + f.second * 1000).natAbs < 2 ^ 53
  offset : f.offset.natAbs < 2 ^ 53

/-- The amounts of months, days, hours and minutes on the way are among the numbers. -/
structure ExactAmounts : Prop where
  months : HasInt (12 * f.fullYear)
  days : HasInt (f.day - 1)
  dayHours : HasInt ((f.day - 1) * 24)
  hours : HasInt f.hours
  hourMinutes : HasInt (f.hours * 60)

variable {f : Fields} {count : Int → Int → Int}

theorem time_eq (hcount : CountsDays count) : f.time count = f.time monthDays := by
  have hmonth : 0 ≤ f.remainingMonth ∧ f.remainingMonth < 12 := by
    rw [remainingMonth]
    omega
  rw [time, time, hcount.eq countsDays_days hmonth.1 hmonth.2]

namespace InYears

theorem congr (hcount : CountsDays count) (h : f.InYears count) : f.InYears monthDays := by
  have hstart (year : Int) := hcount.eq countsDays_days le_rfl (by decide) year
  obtain ⟨hfirst, hlow, hhigh⟩ := h
  rw [time_eq hcount, hstart] at hlow hhigh
  exact ⟨hfirst, hlow, hhigh⟩

variable (h : f.InYears monthDays)
include h

theorem natAbs_months_lt : f.months.natAbs < 2 ^ 53 := by
  obtain ⟨hlow, hhigh⟩ := h.first
  rw [carriedYear] at hlow hhigh
  omega

theorem bounds_time : -6373557619200000 ≤ f.time monthDays ∧
    f.time monthDays < 6249254803200000 := by
  have hdays : monthDays (-200000) 0 = -73768028 ∧
      monthDays 200001 0 = 72329338 := by decide
  have hlow := h.start
  have hhigh := h.finish
  rw [hdays.1] at hlow
  rw [hdays.2] at hhigh
  omega

theorem covers_time : Covers (f.time monthDays) := by
  obtain ⟨hlow, hhigh⟩ := h.bounds_time
  have hdays : days minYear 1 1 = -96465292 ∧ days maxYear 12 31 = 95026236 := by decide
  rw [Covers, hdays.1, hdays.2, millisecondsPerDay]
  omega

theorem inCalendar : minYear ≤ f.carriedYear ∧ f.carriedYear ≤ maxYear := by
  obtain ⟨hlow, hhigh⟩ := h.first
  rw [minYear, maxYear]
  omega

end InYears

end Fields

/-- The calendar has the first of the month and reaches to the time. -/
theorem Almanac.Counts.time_found {c : Almanac} {count : Int → Int → Int} (hc : c.Counts count)
    {f : Fields} (h : f.InYears monthDays) :
    (c.monthStart? f.carriedYear (f.remainingMonth + 1)).bind (c.later? · f.offset) =
      some (f.time monthDays) := by
  have hlow : 0 ≤ f.remainingMonth := Int.emod_nonneg _ (by decide)
  have hhigh : f.remainingMonth < 12 := Int.emod_lt_of_pos _ (by decide)
  have htime : f.time monthDays =
      monthDays f.carriedYear f.remainingMonth * millisecondsPerDay + f.offset := by
    rw [Fields.time, Int.mul_comm, millisecondsPerDay]
  have hcovers := h.covers_time
  rw [htime] at hcovers ⊢
  rw [hc.monthStart?_eq h.inCalendar.1 h.inCalendar.2 hlow hhigh,
    hc.countsDays.eq countsDays_days hlow hhigh, Option.bind_some, hc.later?_eq hcovers]

/-! ## Fields as numbers -/

variable {parts : List Number} {x d : Number} {a t : Int} {count : Int → Int → Int}

theorem component_isInt (hparts : ∀ x ∈ parts, x.isInteger) (i : Nat) (hd : d.IsInt a) :
    (component parts i d).IsInt (intField parts i a) := by
  rw [component, intField]
  cases hpart : parts[i]? with
  | none => exact hd
  | some x => exact (isInt_of_isInteger (hparts x (List.mem_of_getElem? hpart))).trunc

theorem component_zero_isInt (hne : parts ≠ []) (hparts : ∀ x ∈ parts, x.isInteger) :
    (component parts 0 .nan).IsInt (Fields.ofParts parts).year := by
  cases parts with
  | nil => exact absurd rfl hne
  | cons x rest => exact (isInt_of_isInteger (hparts x List.mem_cons_self)).trunc

theorem fullYear_isInt (hx : x.IsInt a) :
    (fullYear x).IsInt (if 0 ≤ a ∧ a < 100 then a + 1900 else a) := by
  have hhundred : (100 : Number).IsInt 100 := isInt_ofNat (by decide)
  have hcentury : (1900 : Number).IsInt 1900 := isInt_ofNat (by decide)
  have htest : (Number.le 0 x && Number.lt x 100) = true ↔ 0 ≤ a ∧ a < 100 := by
    rw [Bool.and_eq_true, isInt_zero.le_iff hx, hx.lt_iff hhundred]
  rw [fullYear]
  by_cases hrange : 0 ≤ a ∧ a < 100
  · rw [if_pos (htest.mpr hrange), if_pos hrange]
    exact hx.add hcentury (hasInt_of_lt (by omega))
  · rw [if_neg (mt htest.mp hrange), if_neg hrange]
    exact hx

/-- A time of years far from the limit is kept. -/
theorem clip_isInt (ht : t.natAbs ≤ 8640000000000000) : (clip (.ofInt t)).IsInt t := by
  have hint : (Number.ofInt t).IsInt t := isInt_ofInt (by omega)
  have hlimit : (Number.ofNat 8640000000000000).IsInt 8640000000000000 :=
    isInt_ofNat (by decide)
  have hlt : ¬ Number.lt (.ofNat 8640000000000000) (Number.ofInt t).abs := by
    rw [hlimit.lt_iff hint.abs.isInt]
    omega
  rw [clip, hint.isFinite, Bool.eq_false_iff.mpr hlt, Bool.not_true, Bool.or_self,
    if_neg Bool.false_ne_true]
  have hsum := hint.trunc.add isInt_zero (hasInt_of_lt (by rw [Int.add_zero]; omega))
  rwa [Int.add_zero] at hsum

theorem months_isInt (hne : parts ≠ []) (hparts : ∀ x ∈ parts, x.isInteger)
    (hexact : HasInt (12 * (Fields.ofParts parts).fullYear))
    (hsmall : (Fields.ofParts parts).months.natAbs < 2 ^ 53) :
    (fullYear (component parts 0 .nan) * 12 + component parts 1 0).IsInt
      (Fields.ofParts parts).months := by
  have htwelve : (12 : Number).IsInt 12 := isInt_ofNat (by decide)
  have hyear := fullYear_isInt (component_zero_isInt hne hparts)
  rw [Int.mul_comm] at hexact
  rw [Fields.months, Int.mul_comm] at hsmall ⊢
  exact (hyear.mul htwelve hexact).add (component_isInt hparts 1 isInt_zero)
    (hasInt_of_lt hsmall)

theorem offset_isInt (hparts : ∀ x ∈ parts, x.isInteger)
    (hexact : (Fields.ofParts parts).ExactAmounts) (hsmall : (Fields.ofParts parts).SmallAmounts) :
    ((((component parts 2 1 - 1) * 24 + component parts 3 0) * 60 + component parts 4 0) * 60000 +
      component parts 5 0 * 1000 + component parts 6 0).IsInt (Fields.ofParts parts).offset := by
  have hone : (1 : Number).IsInt 1 := isInt_ofNat (by decide)
  have hday : (24 : Number).IsInt 24 := isInt_ofNat (by decide)
  have hhour : (60 : Number).IsInt 60 := isInt_ofNat (by decide)
  have hminute : (60000 : Number).IsInt 60000 := isInt_ofNat (by decide)
  have hsecond : (1000 : Number).IsInt 1000 := isInt_ofNat (by decide)
  have hfield (i : Nat) := component_isInt hparts i isInt_zero
  have hdays := (component_isInt hparts 2 hone).sub hone hexact.days
  have hhours := (hdays.mul hday hexact.dayHours).add (hfield 3) hexact.hours
  have hsmallMinutes : (Fields.ofParts parts).minutes.natAbs < 2 ^ 53 := by
    have hminutes := hsmall.minutes
    omega
  have hminutes := (hhours.mul hhour hexact.hourMinutes).add (hfield 4)
    (hasInt_of_lt hsmallMinutes)
  have hseconds := (hfield 5).mul hsecond (hasInt_of_lt hsmall.seconds)
  have hsum := (hminutes.mul hminute (hasInt_of_lt hsmall.minutes)).add hseconds
    (hasInt_of_lt hsmall.sum)
  exact hsum.add (hfield 6) (hasInt_of_lt hsmall.offset)

/-- Over any calendar with such a count, the time of fields in these years is the days to the first
of the month and what exceeds it. -/
theorem Almanac.Counts.isInt_ofComponents {c : Almanac} (hc : c.Counts count) (hne : parts ≠ [])
    (hparts : ∀ x ∈ parts, x.isInteger) (hyears : (Fields.ofParts parts).InYears count)
    (hsmall : (Fields.ofParts parts).SmallAmounts) (hexact : (Fields.ofParts parts).ExactAmounts) :
    (c.ofComponents parts).IsInt ((Fields.ofParts parts).time count) := by
  have hcount := hc.countsDays
  rw [Fields.time_eq hcount]
  replace hyears := hyears.congr hcount
  -- The months and the offset are exact, so both parts of the sum are those of the integers.
  have hmonths := months_isInt hne hparts hexact.months hyears.natAbs_months_lt
  have hoffset := offset_isInt hparts hexact hsmall
  have hfinite : parts.all Number.isFinite := List.all_eq_true.mpr fun x hx =>
    Number.isFinite_of_isInteger (hparts x hx)
  have hnear : ((Fields.ofParts parts).months / 12).natAbs ≤ 300000 := by
    obtain ⟨hlow, hhigh⟩ := hyears.first
    rw [Fields.carriedYear] at hlow hhigh
    omega
  have hfound : (c.monthStart? ((Fields.ofParts parts).months / 12)
      ((Fields.ofParts parts).months % 12 + 1)).bind (c.later? · (Fields.ofParts parts).offset) =
        some ((Fields.ofParts parts).time monthDays) := hc.time_found hyears
  rw [Almanac.ofComponents, hmonths.toInt_eq, hoffset.toInt64_eq hsmall.offset, hfinite,
    hmonths.isFinite, hfound, decide_eq_true hnear]
  simp only [Bool.and_self, ↓reduceIte]
  have hbounds := hyears.bounds_time
  exact clip_isInt (by omega)

/-- The time of fields in these years is the days to the first of the month and what exceeds it. -/
theorem ofComponents_isInt (hcount : CountsDays count) (hne : parts ≠ [])
    (hparts : ∀ x ∈ parts, x.isInteger) (hyears : (Fields.ofParts parts).InYears count)
    (hsmall : (Fields.ofParts parts).SmallAmounts) (hexact : (Fields.ofParts parts).ExactAmounts) :
    (ofComponents parts).IsInt ((Fields.ofParts parts).time count) := by
  rw [Fields.time_eq hcount]
  exact counts_gregorian.isInt_ofComponents hne hparts (hyears.congr hcount) hsmall hexact

/-- Fourteen months before January of 99, and all later fields out of their ranges. -/
def carryingParts : List Number := [99, -14, 32, -5, 61, -1, 1500]

theorem ofComponents_carrying :
    CountsDays monthDays ∧ carryingParts ≠ [] ∧ (∀ x ∈ carryingParts, x.isInteger) ∧
    (Fields.ofParts carryingParts).InYears monthDays ∧
    (Fields.ofParts carryingParts).SmallAmounts ∧ (Fields.ofParts carryingParts).ExactAmounts ∧
    (ofComponents carryingParts).IsInt 881006460500 := by
  have hfields : Fields.ofParts carryingParts = ⟨99, -14, 32, -5, 61, -1, 1500⟩ := by
    decide +kernel
  have hne : carryingParts ≠ [] := List.cons_ne_nil _ _
  have hint : ∀ x ∈ carryingParts, x.isInteger := List.all_eq_true.mp (by decide +kernel)
  have hyears : (Fields.ofParts carryingParts).InYears monthDays := by
    rw [hfields]
    exact ⟨by decide, by decide, by decide⟩
  have hsmall : (Fields.ofParts carryingParts).SmallAmounts := by
    rw [hfields]
    exact ⟨by decide, by decide, by decide, by decide⟩
  have hexact : (Fields.ofParts carryingParts).ExactAmounts := by
    rw [hfields]
    exact ⟨hasInt_of_lt (by decide), hasInt_of_lt (by decide), hasInt_of_lt (by decide),
      hasInt_of_lt (by decide), hasInt_of_lt (by decide)⟩
  have htime : (Fields.ofParts carryingParts).time monthDays = 881006460500 := by
    rw [hfields]
    decide
  have hresult := ofComponents_isInt countsDays_days hne hint hyears hsmall hexact
  rw [htime] at hresult
  exact ⟨countsDays_days, hne, hint, hyears, hsmall, hexact, hresult⟩

/-- Twelve times the year is not among the numbers; the months take off all but 8 of it. -/
def roundedParts : List Number := [.ofInt 9007199254740994, .ofInt (-108086391056891920)]

/-- September of the year 0 is taken for May of the year 1. -/
theorem ofComponents_rounded :
    CountsDays monthDays ∧ roundedParts ≠ [] ∧ (∀ x ∈ roundedParts, x.isInteger) ∧
    (Fields.ofParts roundedParts).InYears monthDays ∧
    (Fields.ofParts roundedParts).SmallAmounts ∧
    ¬ (ofComponents roundedParts).IsInt ((Fields.ofParts roundedParts).time monthDays) := by
  have hfields : Fields.ofParts roundedParts =
      ⟨9007199254740994, -108086391056891920, 1, 0, 0, 0, 0⟩ := by
    decide +kernel
  have hresult : (ofComponents roundedParts).toInt = -62125228800000 := by decide +kernel
  refine ⟨countsDays_days, List.cons_ne_nil _ _, List.all_eq_true.mp (by decide +kernel), ?_⟩
  rw [hfields]
  refine ⟨⟨by decide, by decide, by decide⟩, ⟨by decide, by decide, by decide, by decide⟩,
    fun hint => ?_⟩
  have htime := hresult.symm.trans hint.toInt_eq
  revert htime
  decide

end ActionScript.Calendar
