import ActionScript.Proofs.DateComponents
import ActionScript.Proofs.Session.ArrayLength

/-! # Texts of dates

A date holds an integer of milliseconds that the limit on times lets pass, or no time. The limit
reaches beyond the years of the calendar, so a date is invalid in its text not only if it has no
time, but also if the calendar does not cover the time that it has (`Builtin.dates_print`). That is
so with any calendar that shows the times that it covers (`Builtin.datesBy_print`). -/

namespace ActionScript

namespace Calendar

variable {time : Int}

theorem colon_mem_timeText (time : Int) : ':' ∈ (timeText time).toList := by
  simp [timeText]

/-- The calendar shows the times that it covers, and does not take them for invalid. -/
structure Almanac.Prints (c : Almanac) : Prop where
  isSome_text? : ∀ time, (c.text? time).isSome ↔ Covers time
  text?_ne : ∀ {time text}, c.text? time = some text → text ≠ "Invalid Date"

theorem text?_gregorian (time : Int) :
    gregorian.text? time = if inRange time then some (timeText time) else none := rfl

theorem prints_gregorian : gregorian.Prints where
  isSome_text? time := by
    rw [← inRange_iff, text?_gregorian]
    cases inRange time <;> simp
  text?_ne {time text} htext := by
    rw [text?_gregorian, Option.ite_none_right_eq_some, Option.some.injEq] at htext
    rintro rfl
    have hcolon := colon_mem_timeText time
    rw [htext.2] at hcolon
    revert hcolon
    decide

/-- A date is invalid in its text if it has no time or one that the calendar does not cover. -/
theorem Almanac.Prints.text_eq_invalid_iff {c : Almanac} (hc : c.Prints) (x : Number) :
    c.text x = "Invalid Date" ↔ x.isNaN ∨ ¬ Covers x.toInt64 := by
  rw [Almanac.text, ← hc.isSome_text?]
  cases hnan : x.isNaN with
  | true => exact iff_of_true rfl (.inl rfl)
  | false =>
    cases htext : c.text? x.toInt64 with
    | none => exact iff_of_true rfl (.inr (by simp))
    | some text => exact iff_of_false (hc.text?_ne htext) (by simp)

/-- The times that the calendar covers are far from the ends of the integers of 64 bits. -/
theorem covers_toInt64_iff {x : Number} (hx : x.isFinite) : Covers x.toInt64 ↔ Covers x.toInt := by
  have hdays : days minYear 1 1 = -96465292 ∧ days maxYear 12 31 = 95026236 := by decide
  rw [Covers, Covers, hdays.1, hdays.2, millisecondsPerDay]
  cases x with
  | nan | infinite => cases hx
  | finite =>
    rw [Number.toInt64]
    · omega
    · intro hnan
      cases hnan
    · intro negative hinfinite
      cases hinfinite

/-- What a date holds is an integer or not a number. -/
theorem clip_cases (x : Number) : clip x = .nan ∨ ∃ a, (clip x).IsInt a := by
  rw [clip]
  split
  · exact .inl rfl
  · rename_i hvalid
    rw [Bool.or_eq_true, not_or, Bool.not_eq_true', Bool.not_eq_false] at hvalid
    have htrunc := (Number.has_of_isFinite hvalid.1).trunc.isInt_signed
    have hsum := htrunc.add Number.isInt_zero (by rw [Int.add_zero]; exact ⟨_, htrunc⟩)
    exact .inr ⟨_, hsum⟩

theorem isFinite_clip (x : Number) : (clip x).isFinite = !(clip x).isNaN := by
  rcases clip_cases x with hnan | ⟨a, ha⟩
  · rw [hnan]
    rfl
  · rw [ha.isFinite, Number.isNaN_of_isFinite ha.isFinite]
    rfl

/-- A date is invalid in its text if it holds no time or one that the calendar does not cover. -/
theorem Almanac.Prints.text_clip_eq_invalid_iff {c : Almanac} (hc : c.Prints) (x : Number) :
    c.text (clip x) = "Invalid Date" ↔ (clip x).isNaN ∨ ¬ Covers (clip x).toInt := by
  rw [hc.text_eq_invalid_iff]
  cases hnan : (clip x).isNaN with
  | true => exact iff_of_true (.inl rfl) (.inl rfl)
  | false => rw [covers_toInt64_iff (by rw [isFinite_clip, hnan]; rfl)]

end Calendar

namespace Movie

/-- The object is a date of the given time. -/
def HoldsDate (m : Movie) (o : ObjectId) (time : Number) : Prop :=
  (m.heap.get? o).map Object.kind = some (.date time)

variable {m : Movie} {o : ObjectId} {time : Number}

theorem holdsDate_createDate (hm : m.heap.Arena) (x : Number) :
    (createDate x m).2.HoldsDate (createDate x m).1 (Calendar.clip x) := by
  have hget := hm.get?_allocate
    { prototype := some m.intrinsics.datePrototype, kind := .date (Calendar.clip x) }
  have hnew := (hget _).trans (if_pos rfl)
  exact congrArg (Option.map Object.kind) hnew

theorem HoldsDate.setPrototype (h : m.HoldsDate o time) (p : ObjectId)
    (prototype : Option ObjectId) : (Movie.setPrototype p prototype m).2.HoldsDate o time := by
  have hheap : (Movie.setPrototype p prototype m).2.heap =
      (m.heap.setPrototype p prototype).2 := rfl
  rw [HoldsDate, hheap, Heap.setPrototype]
  split
  · exact h
  · rw [Heap.get?_modify]
    split
    · rw [Option.map_map]
      exact h
    · exact h

end Movie

namespace Builtin

variable {σ : Type} [Journal σ] {m m₂ : Movie} {o : ObjectId} {time : Number}

theorem receiverTime_of_holdsDate (h : m.HoldsDate o time) : receiverTime m (.object o) = time := by
  have hkind : ((Value.object o).object?.bind m.heap.get?).map Object.kind = some (.date time) := h
  rw [receiverTime, hkind]

section Calendars

variable (c : Calendar.Almanac) (machine : Machine σ)

theorem getTime_leads (h : m.HoldsDate o time) (args : List Value) :
    (OfDate.runBy c machine (.object o) args .time).Leads m (.number time) m := by
  refine .movie ?_
  rw [receiverTime_of_holdsDate h]
  exact .pure

theorem dateText_leads (h : m.HoldsDate o time) (args : List Value) :
    (OfDate.runBy c machine (.object o) args .text).Leads m (.string (c.text time)) m := by
  refine .movie ?_
  rw [receiverTime_of_holdsDate h]
  exact .pure

/-- The constructor makes a date, and then asks for the prototype. -/
theorem constructDate_leads (x : Number) {this : Value} {p : ObjectId}
    (hprototype : (machine.instancePrototype this m.intrinsics.datePrototype).Leads
      (Movie.createDate x m).2 p m₂) :
    (OfDate.runBy c machine this [.number x] .construct).Leads m
      (.object (Movie.createDate x m).1)
      (Movie.setPrototype (Movie.createDate x m).1 (some p) m₂).2 := by
  have hnumber : (machine.toNumber (.number x)).Leads m x m :=
    .of_yields (machine.toNumber_yields rfl)
  refine .bind hnumber (.bind (.of_yields (.edit (Movie.createDate x))) (.movie ?_))
  refine .bind hprototype ?_
  exact .bind (.bind (.of_yields (.edit (Movie.setPrototype _ _))) .pure) .pure

variable {c}

/-- Over any calendar that shows the times that it covers, a date that is made of a number holds it
as the limit lets it pass, by whichever way it is made, and shows it as long as it lives. Its text
is that of an invalid date if it has no time or one that the calendar does not cover. -/
theorem datesBy_print (hc : c.Prints) {m : Movie} (hm : Session.Reached m) (x : Number) :
    (Movie.createDate x m).2.HoldsDate (Movie.createDate x m).1 (Calendar.clip x) ∧
    (∀ this p m₂,
      (machine.instancePrototype this m.intrinsics.datePrototype).Leads
        (Movie.createDate x m).2 p m₂ →
      m₂.HoldsDate (Movie.createDate x m).1 (Calendar.clip x) →
      ∃ m₃, (OfDate.runBy c machine this [.number x] .construct).Leads m
          (.object (Movie.createDate x m).1) m₃ ∧
        m₃.HoldsDate (Movie.createDate x m).1 (Calendar.clip x)) ∧
    ∀ m' o, m'.HoldsDate o (Calendar.clip x) → ∃ text,
      (OfDate.runBy c machine (.object o) [] .time).Leads m' (.number (Calendar.clip x)) m' ∧
      (OfDate.runBy c machine (.object o) [] .text).Leads m' (.string text) m' ∧
      (text = "Invalid Date" ↔
        (Calendar.clip x).isNaN ∨ ¬ Calendar.Covers (Calendar.clip x).toInt) := by
  refine ⟨Movie.holdsDate_createDate hm.arena x, fun this p m₂ hprototype hholds =>
    ⟨_, constructDate_leads c machine x hprototype, hholds.setPrototype _ _⟩, fun m' o hholds =>
    ⟨_, getTime_leads c machine hholds [], dateText_leads c machine hholds [], ?_⟩⟩
  exact hc.text_clip_eq_invalid_iff x

end Calendars

/-- A date that is made of a number holds it as the limit lets it pass, by whichever way it is made,
and shows it as long as it lives. Its text is that of an invalid date if it has no time or one that
the calendar does not cover. -/
theorem dates_print (machine : Machine σ) {m : Movie} (hm : Session.Reached m) (x : Number) :
    (Movie.createDate x m).2.HoldsDate (Movie.createDate x m).1 (Calendar.clip x) ∧
    (∀ this p m₂,
      (machine.instancePrototype this m.intrinsics.datePrototype).Leads
        (Movie.createDate x m).2 p m₂ →
      m₂.HoldsDate (Movie.createDate x m).1 (Calendar.clip x) →
      ∃ m₃, (run machine (.date .construct) this [.number x]).Leads m
          (.object (Movie.createDate x m).1) m₃ ∧
        m₃.HoldsDate (Movie.createDate x m).1 (Calendar.clip x)) ∧
    ∀ m' o, m'.HoldsDate o (Calendar.clip x) → ∃ text,
      (run machine (.date .time) (.object o) []).Leads m' (.number (Calendar.clip x)) m' ∧
      (run machine (.date .text) (.object o) []).Leads m' (.string text) m' ∧
      (text = "Invalid Date" ↔
        (Calendar.clip x).isNaN ∨ ¬ Calendar.Covers (Calendar.clip x).toInt) :=
  datesBy_print machine Calendar.prints_gregorian hm x

/-- A date whose time the calendar covers has a text. -/
theorem dates_print_epoch :
    Session.Reached (Movie.new {}) ∧ ∃ o movie text,
      (run ((Host.bare Unit).machine 1) (.date .construct) .undefined [.number 0]).Leads
        (Movie.new {}) (.object o) movie ∧
      (run ((Host.bare Unit).machine 1) (.date .text) (.object o) []).Leads movie (.string text)
        movie ∧
      text ≠ "Invalid Date" := by
  have hreached := Session.reached_new {}
  obtain ⟨hmade, hconstruct, hprint⟩ := dates_print ((Host.bare Unit).machine 1) hreached 0
  obtain ⟨movie, hrun, hholds⟩ :=
    hconstruct .undefined (Movie.new {}).intrinsics.datePrototype _ .pure hmade
  obtain ⟨text, -, htext, hinvalid⟩ := hprint movie _ hholds
  refine ⟨hreached, _, movie, text, hrun, htext, fun heq => ?_⟩
  have hvalid : (Calendar.clip 0).isNaN = false ∧ (Calendar.clip 0).toInt = 0 := by decide +kernel
  rcases hinvalid.mp heq with hnan | huncovered
  · rw [hvalid.1] at hnan
    cases hnan
  · rw [hvalid.2] at huncovered
    exact huncovered ⟨by decide, by decide⟩

/-- The date of the last time that the limit lets pass has that time and is invalid in its text. -/
theorem lastDate_prints_invalid :
    ∃ o movie time, Movie.createDate (.ofInt 8640000000000000) (Movie.new {}) = (o, movie) ∧
      (run ((Host.bare Unit).machine 1) (.date .time) (.object o) []).Leads movie (.number time)
        movie ∧
      time.IsInt 8640000000000000 ∧ time.isNaN = false ∧
      (run ((Host.bare Unit).machine 1) (.date .text) (.object o) []).Leads movie
        (.string "Invalid Date") movie := by
  have hint : (Calendar.clip (.ofInt 8640000000000000)).IsInt 8640000000000000 :=
    Calendar.clip_isInt (by decide)
  have htext : Calendar.gregorian.text (Calendar.clip (.ofInt 8640000000000000)) =
      "Invalid Date" := by
    rw [Calendar.prints_gregorian.text_clip_eq_invalid_iff, hint.toInt_eq]
    exact .inr fun hcovers => absurd hcovers.2 (by decide)
  have hholds := Movie.holdsDate_createDate (Session.reached_new {}).arena (.ofInt 8640000000000000)
  have htime := getTime_leads Calendar.gregorian ((Host.bare Unit).machine 1) hholds []
  have hprints := dateText_leads Calendar.gregorian ((Host.bare Unit).machine 1) hholds []
  rw [htext] at hprints
  exact ⟨_, _, _, Prod.mk.eta.symm, htime, hint,
    Number.isNaN_of_isFinite hint.isFinite, hprints⟩

end Builtin

end ActionScript
