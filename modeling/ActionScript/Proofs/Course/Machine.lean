import ActionScript.Machine.Construct
import ActionScript.Proofs.Course.Protection
import ActionScript.Proofs.Trend.Machine

/-! # The course of runs

A course is a trend that the edits of a machine follow: those that spare protected slots, those that
may strip them, the shortening of an array, and the storing of a slot that was found missing. A
course is lenient if every edit that passes is a step. What a machine runs keeps to a course if its
services and its routines do (`Course.Guides`). -/

namespace ActionScript

/-- An object without an own data slot has no own slot if the nearest one is no accessor. -/
theorem Heap.slot?_eq_none_of_find? {h : Heap} {o : ObjectId} {key : String}
    (hdata : (h.slot? o key).filter Property.isData = none)
    (hfound : ((h.find? o key).map Prod.snd).any Property.isAccessor = false) :
    h.slot? o key = none := by
  cases hslot : h.slot? o key with
  | none => rfl
  | some p =>
    rw [find?_of_slot? hslot, Option.map_some, Option.any_some, Property.isAccessor] at hfound
    rw [hslot, Option.filter_some, if_pos (by simpa using hfound)] at hdata
    cases hdata

structure Course (σ : Type) [Journal σ] extends Trend σ where
  edit : s.movie.Spares m → leads s (s.after m)
  strip : s.movie.Strips m → leads s (s.after m)
  /-- What was an array earlier is shortened. -/
  truncate : s.movie.heap.isArray a → leads s t →
    leads s (t.after (Movie.truncate a n t.movie).2)
  /-- A slot is stored that was missing earlier. -/
  store : s.movie.heap.slot? o key = none → leads s t →
    leads s (t.after (Movie.storeAs o key name p t.movie).2)
  look := fun s => edit (.refl s.movie)

variable {σ α β : Type} [Journal σ] {C : Course σ}

namespace Course

variable (C) in
/-- Every edit that passes is a step. -/
def Lenient : Prop := ∀ {s : State σ} {m : Movie}, s.movie.Passes m → C.leads s (s.after m)

/-- The lenient course of a relation between states. -/
def ofPasses (leads : State σ → State σ → Prop) (refl : ∀ s, leads s s)
    (trans : ∀ {s t u}, leads s t → leads t u → leads s u)
    (edit : ∀ {s m}, s.movie.Passes m → leads s (s.after m)) : Course σ where
  leads := leads
  refl := refl
  trans := trans
  edit h := edit h.toPasses
  strip h := edit h.passes
  truncate _ h := trans h (edit (Edit.Passes.modify _ (.truncate _) _))
  store _ h := trans h (edit (Edit.Passes.storeAs _ _ _ _ _))

end Course

/-! ## Edits -/

namespace Trend

theorem Updates.edit {x : Edit α} (hx : x.Spares) : C.Updates (liftM x) :=
  fun s => C.edit (hx s.movie)

namespace Runs

theorem edit {x : Edit α} (hx : x.Spares) : C.Runs (liftM x) := lift (.edit hx)

theorem strip {x : Edit α} (hx : ∀ m : Movie, m.Strips (x m).2) : C.Runs (liftM x) :=
  fun s => C.strip (hx s.movie)

/-- An edit on a lenient course. -/
theorem pass (hC : C.Lenient) {x : Edit α} (hx : x.Passes) : C.Runs (liftM x) :=
  fun s => hC (hx s.movie)

end Runs

end Trend

namespace Course

open Trend

/-- Everything that the machine calls keeps to the course. -/
abbrev Guides (C : Course σ) (m : Machine σ) : Prop := Trend.Guides C.toTrend True m

namespace Guides

variable {m : Machine σ} (h : C.Guides m)
include h

/-! ## Writes -/

theorem syncLength {s : State σ} {a : ObjectId} (ha : s.movie.heap.isArray a) (key : String) :
    C.RunsFrom s (m.syncLength a key) :=
  Trend.Guides.syncLength h (fun n => .edit (.setLength a n)) (fun _ ht => C.truncate ha ht) key

theorem afterWrite (o : ObjectId) (key : String) : C.Runs (m.afterWrite o key) :=
  Trend.Guides.afterWrite h fun _ ha => h.syncLength ha key

theorem watched (o : ObjectId) (watcher : Option Watcher) (old new : Value) :
    C.Runs (m.watched o watcher old new) := by
  cases watcher with
  | none => exact .pure
  | some w => exact h.call w.callback _ (.inl trivial)

theorem writeOwn (o : ObjectId) (key name : String) (p : Property) (v : Value) :
    C.Runs (m.writeOwn o key name p v) := by
  refine .bind (h.watched o _ _ v) fun v => .look fun s => ?_
  dsimp only
  split
  · have hmodified : C.Runs (liftM (Movie.modifyHeap
        (·.modifySlot o key fun p => { p with value := v }))) :=
        .edit (.modifySlot o (.assign key v) fun _ => rfl)
    exact hmodified.bind (fun _ => h.afterWrite o key) _
  · rename_i hnone
    have hmissing := Option.not_isSome_iff_eq_none.mp hnone
    exact C.trans (C.store (s := s.after s.movie) hmissing (C.refl _)) (h.afterWrite o key _)

theorem writeThrough (o : ObjectId) (p : Property) (v : Value) :
    C.Runs (m.writeThrough o p v) := by
  unfold Machine.writeThrough
  split
  · exact .bind .pure fun v => h.callSetter o _ v
  · split
    · refine .bind (h.call _ _ admits_nil) fun old => .bind (h.watched o _ old v) fun v => ?_
      exact h.callSetter o _ v
    · refine .bind .pure fun old => .bind (h.watched o _ old v) fun v => ?_
      exact h.callSetter o _ v

/-- A slot that is missing is added, though the watcher of the inherited one may have added it
before. -/
theorem writeNew {s : State σ} {o : ObjectId} {key : String}
    (hnone : s.movie.heap.slot? o key = none) (name : String) (found : Option Property)
    (v : Value) : C.RunsFrom s (m.writeNew o key name found v) := by
  have hstore : ∀ v {t}, C.leads s t → C.RunsSince s t (do
      Movie.storeAs o key name (.data v ((found.map Property.flags).getD {}))
      m.afterWrite o key) :=
    fun v _ ht => C.trans (C.store hnone ht) (h.afterWrite o key _)
  cases found with
  | some p => exact Runs.bindSince (C.refl s) (h.watched o _ _ v s) hstore
  | none => exact Runs.bindSince (C.refl s) (C.refl s) hstore

theorem writeKey (o : ObjectId) (key name : String) (v : Value) :
    C.Runs (m.writeKey o key name v) := by
  refine .look fun s => ?_
  dsimp only
  split
  · exact Runs.discard (.edit (.setPrototype o _)) _
  split
  · exact C.refl _
  split
  · exact h.writeOwn o key name _ v _
  rename_i hdata
  split
  · exact C.refl _
  split
  · rename_i p hp
    split
    · exact h.writeThrough o _ v _
    · rename_i haccessor
      have hnone := Heap.slot?_eq_none_of_find? hdata (by rw [hp]; simpa using haccessor)
      exact h.writeNew (s := s.after s.movie) hnone name _ v
  · rename_i hp
    have hnone := Heap.slot?_eq_none_of_find? hdata (by rw [hp]; rfl)
    exact h.writeNew (s := s.after s.movie) hnone name none v

theorem write (o : ObjectId) (name : String) (v : Value) : C.Runs (m.write o name v) :=
  .movie fun _ => h.writeKey o _ name v

theorem writeAt (o : ObjectId) (key v : Value) : C.Runs (m.writeAt o key v) := by
  have hkeyed : C.Runs (do let key ← m.toKey key; m.writeKey o key key v) :=
    .bind (h.toKey key) fun key => h.writeKey o key key v
  cases key with
  | string name => exact h.write o name v
  | _ => exact hkeyed

theorem deleteKey (o : ObjectId) (key : String) : C.Updates (m.deleteKey o key) := by
  refine Trend.Guides.deleteKey h fun s p hown hdeletable => ?_
  have hspared : s.movie.heap.isProtected o key = false := by
    rw [Heap.own?] at hown
    rw [Heap.isProtected]
    split at hown
    · rename_i hslot
      cases hown
      rw [hslot]
      simpa [Property.isDeletable] using hdeletable
    · rename_i hslot
      rw [hslot]
      rfl
  exact C.edit (Movie.Spares.remove hspared)

theorem delete (o : ObjectId) (name : String) : C.Updates (m.delete o name) :=
  .movie fun _ => h.deleteKey o _

/-! ## Construction -/

theorem instantiate (c : ObjectId) {body : Value → Run σ Value} (hbody : ∀ v, C.Runs (body v)) :
    C.Runs (m.instantiate c body) := by
  refine .movie fun movie => .bind (h.instancePrototype _ _) fun p s => ?_
  have hdefined : (Movie.create (some p) .plain s.movie).2.Spares (Movie.define
      (Movie.create (some p) .plain s.movie).1 "__constructor__" (.data (.object c) .hidden)
        (Movie.create (some p) .plain s.movie).2).2 := by
    refine .storeAs ?_ _ _
    rw [Heap.isProtected, Movie.slot?_create]
    rfl
  refine C.trans (C.edit (Edit.Spares.create (some p) .plain s.movie)) ?_
  exact C.trans (C.edit hdefined) (Runs.bind (hbody _) (fun _ => .pure) _)

theorem construct (f : ObjectId) (args : List Value) : C.Runs (m.construct f args) := by
  refine .movie fun movie => ?_
  split
  · exact .throw
  · exact h.invoke _ _ (.inl trivial)
  · exact .throw
  · exact h.instantiate f fun this => h.call f this (.inl trivial)

end Guides

end Course

end ActionScript
