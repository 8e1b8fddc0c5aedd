import ActionScript.Proofs.Broadcast
import ActionScript.Proofs.Course.Machine
import ActionScript.Proofs.Naming.Movie
import ActionScript.Proofs.Nearest
import ActionScript.Proofs.Trend.Builtin

/-! # Machines that keep names

Where no slot is watched, a write runs no code but setters, and those are handed one argument. So no
routine adds accessors or watchers, and the machine of an embedder without functions keeps movies
tidy (`Machine.keepsTidy_bare`). A write itself stores one slot at most, under the name it is given
(`Machine.KeepsTidy.writeKey`). -/

namespace ActionScript

variable {σ α : Type} [Journal σ]

variable (σ) in
/-- Movies stay tidy, and their slots keep their names. -/
def Trend.tidy : Trend σ where
  leads s t := s.movie.KeepsTidy t.movie
  refl s := .refl s.movie
  trans := .trans
  look s := .refl s.movie

theorem Trend.Runs.tidy {x : Edit α} (hx : x.KeepsTidy) : (Trend.tidy σ).Runs (liftM x) :=
  fun s => hx s.movie

/-- Whether a write under the key is passed on to an accessor. -/
def Heap.passesOn (h : Heap) (o : ObjectId) (key : String) : Bool :=
  ((h.find? o key).map Prod.snd).any Property.isAccessor

/-- What a write under a key leaves. -/
inductive Movie.WrittenAs (m : Movie) (o : ObjectId) (key name : String) (n : Movie) : Prop
  /-- A slot of the key is only added by a setter. -/
  | kept (keeps : m.KeepsTidy n)
    (added : m.heap.slot? o key = none → n.heap.slot? o key ≠ none → m.heap.passesOn o key)
  /-- The write stores the slot. -/
  | stored {p : Property} (missing : m.heap.slot? o key = none)
    (data : m.heap.passesOn o key = false) (fresh : p.Fresh)
    (keeps : (storeAs o key name p m).2.KeepsTidy n)

/-- Everything that the machine calls keeps movies tidy, as long as it is handed no more than one
argument. -/
abbrev Machine.KeepsTidy (m : Machine σ) : Prop := (Trend.tidy σ).Guides False m

namespace Machine.KeepsTidy

open Trend

variable {m : Machine σ} (h : m.KeepsTidy)
include h

/-! ## Writes -/

theorem afterWrite (o : ObjectId) (key : String) : (Trend.tidy σ).Runs (m.afterWrite o key) :=
  Trend.Guides.afterWrite h fun _ _ => Trend.Guides.syncLength h
    (fun n => .tidy (.setLength o n)) (fun n ht => ht.trans (Edit.KeepsTidy.truncate o n _)) key

/-- The own slot of a key takes the value. -/
theorem writeOwn {s : State σ} {o : ObjectId} {key : String} {p : Property}
    (hslot : s.movie.heap.slot? o key = some p) (hwatcher : p.watcher = none) (name : String)
    (v : Value) : (Trend.tidy σ).RunsFrom s (m.writeOwn o key name p v) := by
  have hmodified : (Trend.tidy σ).Runs (do
      Movie.modifyHeap (·.modifySlot o key fun p => { p with value := v })
      m.afterWrite o key) :=
    .bind (.tidy fun _ => .modifySlot fun _ => ⟨rfl, id⟩) fun _ => h.afterWrite o key
  rw [Machine.writeOwn, hwatcher, Machine.watched, pure_bind]
  rw [RunsFrom, RunsSince, Run.look_apply, hslot, Option.isSome_some, if_pos rfl]
  exact hmodified (s.looked 1)

theorem writeThrough {p : Property} (hwatcher : p.watcher = none) (o : ObjectId) (v : Value) :
    (Trend.tidy σ).Runs (m.writeThrough o p v) := by
  unfold Machine.writeThrough
  rw [hwatcher]
  exact .bind .pure fun v => h.callSetter o _ v

/-- A slot of the key is stored and nothing else. -/
theorem writeNew {s : State σ} {found : Option Property} (hwatcher : ∀ p ∈ found, p.watcher = none)
    (o : ObjectId) (key name : String) (v : Value) :
    ∃ p : Property, p.Fresh ∧ (Movie.storeAs o key name p s.movie).2.KeepsTidy
      (m.writeNew o key name found v s).2.movie := by
  refine ⟨.data v ((found.map Property.flags).getD {}), Property.fresh_data _ _, ?_⟩
  have hrun : m.writeNew o key name found v s = (do
      Movie.storeAs o key name (.data v ((found.map Property.flags).getD {}))
      m.afterWrite o key : Run σ Unit) s := by
    cases found with
    | none => rfl
    | some p =>
      rw [Machine.writeNew]
      dsimp only
      rw [hwatcher p rfl, Machine.watched, pure_bind]
  rw [hrun]
  exact h.afterWrite o key (s.after _)

/-- A write stores a slot where one is missing and no accessor is met, and else keeps all names. -/
theorem writeKey {s : State σ} (hs : s.movie.Tidy) (o : ObjectId) (key name : String) (v : Value) :
    s.movie.WrittenAs o key name (m.writeKey o key name v s).2.movie := by
  have hunwatched : ∀ p ∈ (s.movie.heap.find? o key).map Prod.snd, p.watcher = none := by
    intro p hp
    obtain ⟨⟨owner, _⟩, hfound, rfl⟩ := Option.map_eq_some_iff.mp hp
    exact hs.watcher_of_find? hfound
  have hignored : s.movie.WrittenAs o key name s.movie :=
    .kept (.refl _) fun hnone hsome => (hsome hnone).elim
  have hstored : (s.movie.heap.slot? o key).filter Property.isData = none →
      s.movie.heap.passesOn o key = false → s.movie.WrittenAs o key name
        (m.writeNew o key name ((s.movie.heap.find? o key).map Prod.snd) v
          (s.looked 1)).2.movie := by
    intro hdata hpasses
    obtain ⟨q, hfresh, hkeeps⟩ := h.writeNew (s := s.looked 1) hunwatched o key name v
    exact .stored (Heap.slot?_eq_none_of_find? hdata hpasses) hpasses hfresh hkeeps
  rw [Machine.writeKey, Run.look_apply]
  split
  · refine .kept (Edit.KeepsTidy.setPrototype o v.object? s.movie) fun hnone hsome => ?_
    exact (hsome ((s.movie.slot?_setPrototype o v.object? o key).trans hnone)).elim
  split
  · exact hignored
  cases hdata : (s.movie.heap.slot? o key).filter Property.isData with
  | some p =>
    obtain ⟨hslot, _⟩ := Option.filter_eq_some_iff.mp hdata
    refine .kept (h.writeOwn (s := s.looked 1) hslot (hs.suits hslot).unwatched name v)
      fun hnone _ => ?_
    rw [hslot] at hnone
    cases hnone
  | none =>
    dsimp only
    split
    · exact hignored
    have hpasses : s.movie.heap.passesOn o key =
        ((s.movie.heap.find? o key).map Prod.snd).any Property.isAccessor := rfl
    cases hfound : (s.movie.heap.find? o key).map Prod.snd with
    | none =>
      rw [hfound] at hpasses hstored
      exact hstored hdata hpasses
    | some p =>
      rw [hfound, Option.any_some] at hpasses
      dsimp only
      split
      · rename_i haccessor
        exact .kept (h.writeThrough (hunwatched p hfound) o v (s.looked 1)) fun _ _ =>
          hpasses.trans haccessor
      · rename_i haccessor
        rw [hfound] at hstored
        exact hstored hdata (hpasses.trans (Bool.eq_false_iff.mpr haccessor))

/-- Under a name that is its own key a write shows the slot by its key. -/
theorem writeAsKey {key : String} (hkey : Text.lower key = key) (o : ObjectId) (v : Value) :
    (Trend.tidy σ).Runs (m.writeKey o key key v) := by
  intro s
  refine .of_tidy fun hs => ?_
  cases h.writeKey hs o key key v with
  | kept hkeeps _ => exact hkeeps
  | stored hnone _ hfresh hkeeps =>
    have hnormal : s.movie.normalize key = key := Settings.normalize_of_lower hkey s.movie.settings
    exact ((Movie.KeepsTidy.refl s.movie).store (fun _ => hnone) hnormal hfresh).trans hkeeps

theorem writeNamed {name : String} (hname : Text.lower name = name) (o : ObjectId) (v : Value) :
    (Trend.tidy σ).Runs (m.write o name v) := by
  refine .movie fun movie => ?_
  have hnormal : movie.normalize name = name := Settings.normalize_of_lower hname movie.settings
  rw [hnormal]
  exact h.writeAsKey hname o v

/-! ## Routines -/

theorem instantiate (c : ObjectId) {body : Value → Run σ Value}
    (hbody : ∀ v, (Trend.tidy σ).Runs (body v)) : (Trend.tidy σ).Runs (m.instantiate c body) := by
  refine .movie fun movie => .bind (h.instancePrototype _ _) fun p s => ?_
  have hdefined : s.movie.KeepsTidy (Movie.define (Movie.create (some p) .plain s.movie).1
      "__constructor__" (.data (.object c) .hidden) (Movie.create (some p) .plain s.movie).2).2 :=
    (Edit.KeepsTidy.create (some p) .plain s.movie).define
      ((Movie.KeepsTidy.refl s.movie).slot?_of_new _ _) (by decide) (Property.fresh_data _ _)
  exact hdefined.trans (Runs.bind (hbody _) (fun _ => .pure) ((s.after _).after _))

theorem equips : (Trend.tidy σ).Equips False m where
  toGuides := h
  edits :=
    { box := fun v => .tidy (.box v)
      createObject := .tidy .createObject
      create := fun _ _ => .tidy (.create _ _)
      createConstructor := fun _ => .tidy (.createConstructor _)
      createDate := fun _ => .tidy (.createDate _)
      createArray := fun _ => .tidy (.createArray _)
      setLength := fun _ _ => .tidy (.setLength _ _)
      setPrototype := fun _ _ => .tidy (.setPrototype _ _)
      setFlags := fun _ _ _ _ => .tidy (.setFlags _ _ _ _)
      registerClass := fun _ _ => .tidy (.registerClass _ _)
      nextRandom := .tidy .nextRandom
      unwatch := fun _ _ => .tidy (.unwatch _ _)
      watch := False.elim
      addAccessor := False.elim }
  write o v name hname := by
    have hlower : ∀ name ∈ writtenNames, Text.lower name = name := by decide
    exact h.writeNamed (hlower name hname) o v
  writeElement a i v := h.writeAsKey (Text.lower_of_isNumeral (isNumeral_indexKey i)) a v
  deleteElement _ i := Trend.Guides.deleteKey h fun _ _ _ _ => .remove (isNumeral_indexKey i)
  instantiate c _ hbody := h.instantiate c hbody

end Machine.KeepsTidy

/-! ## Machines without an embedder -/

namespace Machine

theorem keepsTidy_bare (depth : Nat) : ((Host.bare σ).machine depth).KeepsTidy := by
  refine Trend.guides_machine KeepsTidy.equips (fun _ => ?_) depth
  exact ⟨fun _ _ _ => .throw, fun _ _ => .throw, fun _ _ => .pure, fun _ _ _ => .throw,
    fun _ _ _ _ _ _ => .throw, fun _ _ => .pure, fun _ => .throw, .pure⟩

/-- Without an embedder nobody is told of a change. -/
theorem broadcast_bare (depth : Nat) (name : String) (s : State σ) :
    (((Host.bare σ).machine depth).broadcast name s).2 = s.looked 1 := by
  have hnotify : ∀ observer key (t : State σ),
      ((Host.bare σ).machine depth).services.notify observer key t = ((), t) := by
    cases depth <;> exact fun _ _ _ => rfl
  have htold : ∀ key (observers : List Observer) (t : State σ),
      ((Host.bare σ).machine depth).told key t observers = t := by
    intro key observers t
    induction observers with
    | nil => rfl
    | cons observer observers ih =>
      rw [told, List.foldl_cons, hnotify]
      exact ih
  rw [broadcast, Update.look_apply, forM_notify, htold]

theorem deleteKey_bare (depth : Nat) (o : ObjectId) (key : String) (s : State σ) :
    (((Host.bare σ).machine depth).deleteKey o key s).2.movie =
      if (s.movie.heap.own? o key).any Property.isDeletable then
        { s.movie with heap := s.movie.heap.remove o key }
      else s.movie := by
  have htell : ∀ t : State σ, ((do
      if (← getMovie).observers.contains key then ((Host.bare σ).machine depth).broadcast key
      return true : Update σ Bool) t).2.movie = t.movie := by
    intro t
    rw [Update.look_apply]
    split
    · show (((Host.bare σ).machine depth).broadcast key (t.looked 1)).2.movie = _
      rw [broadcast_bare]
      rfl
    · rfl
  rw [deleteKey, Update.look_apply]
  cases s.movie.heap.own? o key with
  | none => rfl
  | some p =>
    dsimp only [Option.any_some]
    split
    · exact htell ((s.looked 1).after { s.movie with heap := s.movie.heap.remove o key })
    · rfl

end Machine

end ActionScript
