import ActionScript.Proofs.Evaluation
import ActionScript.Proofs.LowerCase
import ActionScript.Proofs.Session.Course

/-! # Writes and observers

A write that lands in a slot tells the observers of its key, once the slot and the length of an
array are written: each of them once, in the order of their registration. A write that passes
through an accessor tells nobody (`Session.Client.write_tells_observers`). -/

namespace ActionScript

variable {σ : Type} [Journal σ]

namespace Machine

/-- The machine with observers that do nothing. The functions that it calls are the same, and tell
the observers of what they write. -/
def muted (m : Machine σ) : Machine σ :=
  { m with services := { m.services with notify := fun _ _ => return } }

/-- The state once observers have been told of a key, one after the other. -/
def told (m : Machine σ) (key : String) (s : State σ) (observers : List Observer) : State σ :=
  observers.foldl (fun s observer => (m.services.notify observer key s).2) s

variable (m : Machine σ)

/-! ## Writes until they have landed -/

/-- Writes an own data slot and tells nobody. -/
def landOwn (o : ObjectId) (key name : String) (p : Property) (v : Value) : Run σ Unit := do
  let v ← m.watched o p.watcher p.value v
  if ((← getMovie).heap.slot? o key).isSome then
    Movie.modifyHeap (·.modifySlot o key fun p => { p with value := v })
  else Movie.storeAs o key name (.data v {})
  m.settle o key

/-- Adds a slot and tells nobody. -/
def landNew (o : ObjectId) (key name : String) (found : Option Property) (v : Value) :
    Run σ Unit := do
  let v ←
    match found with
    | some p => m.watched o p.watcher p.value v
    | none => pure v
  Movie.storeAs o key name (.data v ((found.map Property.flags).getD {}))
  m.settle o key

theorem writeOwn_eq (o : ObjectId) (key name : String) (p : Property) (v : Value) :
    m.writeOwn o key name p v = (do
      m.landOwn o key name p v
      m.announce key) := by
  rw [writeOwn, landOwn, bind_assoc]
  refine bind_congr fun v => ?_
  rw [bind_assoc]
  refine bind_congr fun movie => ?_
  split <;> rw [bind_assoc, afterWrite_eq]

theorem writeNew_eq (o : ObjectId) (key name : String) (found : Option Property) (v : Value) :
    m.writeNew o key name found v = (do
      m.landNew o key name found v
      m.announce key) := by
  cases found <;> simp only [writeNew, landNew, afterWrite_eq, bind_assoc]

/-! ## The muted machine -/

theorem askMethods_muted (o : ObjectId) (methods : List String) :
    m.muted.askMethods o methods = m.askMethods o methods := by
  induction methods with
  | nil => rfl
  | cons method rest ih =>
    rw [askMethods, askMethods, ih]
    rfl

theorem toNumber_muted (v : Value) : m.muted.toNumber v = m.toNumber v := by
  cases v with
  | object o =>
    rw [toNumber, toNumber, toPrimitive, toPrimitive, defaultValue, defaultValue, askMethods_muted]
  | _ => rfl

theorem settle_muted (o : ObjectId) (key : String) : m.muted.settle o key = m.settle o key := by
  simp only [settle, syncLength, toUInt32, toNumber_muted]

theorem landOwn_muted (o : ObjectId) (key name : String) (p : Property) (v : Value) :
    m.muted.landOwn o key name p v = m.landOwn o key name p v := by
  rw [landOwn, landOwn, settle_muted]
  rfl

theorem landNew_muted (o : ObjectId) (key name : String) (found : Option Property) (v : Value) :
    m.muted.landNew o key name found v = m.landNew o key name found v := by
  unfold landNew
  rw [settle_muted]
  rfl

theorem writeThrough_muted (o : ObjectId) (p : Property) (v : Value) :
    m.muted.writeThrough o p v = m.writeThrough o p v := rfl

/-! ## Telling observers -/

omit [Journal σ] in
theorem forM_notify (key : String) (s : State σ) (observers : List Observer) :
    (observers.forM fun observer => m.services.notify observer key : Update σ PUnit) s =
      ((), m.told key s observers) := by
  induction observers generalizing s with
  | nil => rfl
  | cons observer observers ih => exact ih (m.services.notify observer key s).2

omit [Journal σ] in
theorem told_muted (key : String) (s : State σ) (observers : List Observer) :
    m.muted.told key s observers = s := by
  induction observers with
  | nil => rfl
  | cons observer observers ih => exact ih

/-- The state in which observers are told of a key, if there are any. -/
def beforeTelling (key : String) (s : State σ) : State σ :=
  if s.movie.observers.contains key then (s.after s.movie).after s.movie else s.after s.movie

theorem beforeTelling_movie (key : String) (s : State σ) :
    (beforeTelling key s).movie = s.movie := by
  rw [beforeTelling]
  split <;> rfl

theorem announce_apply {key : String} {s : State σ} (hkey : s.movie.normalize key = key) :
    m.announce key s =
      (.ok (), m.told key (beforeTelling key s) (s.movie.observers.of key)) := by
  have hlook : m.announce key s =
      (if s.movie.observers.contains key then liftM (m.broadcast key) else return : Run σ Unit)
        (s.after s.movie) := rfl
  rw [hlook, beforeTelling]
  cases hcontains : s.movie.observers.contains key with
  | true =>
    have hforM := m.forM_notify key ((s.after s.movie).after s.movie) (s.movie.observers.of key)
    have hbroadcast : m.broadcast key (s.after s.movie) =
        ((s.movie.observers.of (s.movie.normalize key)).forM fun observer =>
          m.services.notify observer (s.movie.normalize key) : Update σ PUnit)
          ((s.after s.movie).after s.movie) := rfl
    rw [hkey, hforM] at hbroadcast
    show (Except.ok (m.broadcast key (s.after s.movie)).1,
      (m.broadcast key (s.after s.movie)).2) = _
    rw [hbroadcast]
    rfl
  | false =>
    have hnone : s.movie.observers.of key = [] := by
      have hfind : s.movie.observers.table.find? key = none :=
        Table.find?_eq_none_iff.mpr (of_decide_eq_false hcontains)
      rw [Observers.of, hfind]
      rfl
    rw [hnone]
    rfl

/-! ## Writes under a key -/

variable {o : ObjectId} {key : String} {v : Value} {s : State σ}

/-- The rule for coordinates ignores a write. -/
def ignores (movie : Movie) (o : ObjectId) (key : String) (v : Value) : Bool :=
  v.isUndefined && geometryKeys.contains key && !(movie.heap.slot? o key).any Property.isData

/-- Writes a slot, the own one or a new one, and tells nobody. -/
def land (movie : Movie) (o : ObjectId) (key name : String) (v : Value) : Run σ Unit :=
  match (movie.heap.slot? o key).filter Property.isData with
  | some p => m.landOwn o key name p v
  | none => m.landNew o key name ((movie.heap.find? o key).map Prod.snd) v

theorem land_muted (movie : Movie) (o : ObjectId) (key name : String) (v : Value) :
    m.muted.land movie o key name v = m.land movie o key name v := by
  simp only [land, landOwn_muted, landNew_muted]

/-- What a write does that the nearest slot accepts and no rule ignores. -/
theorem writeKey_accepted (name : String) (hproto : key ≠ Heap.protoKey)
    (hput : s.movie.heap.canPut o key) (hkept : ignores s.movie o key v = false) :
    m.writeKey o key name v s =
      (match ((s.movie.heap.find? o key).map Prod.snd).filter Property.isAccessor with
      | some p => m.writeThrough o p v
      | none => do
        m.land s.movie o key name v
        m.announce key : Run σ Unit) (s.after s.movie) := by
  have hlook : m.writeKey o key name v s =
      (if key = Heap.protoKey ∧ (s.movie.heap.slot? o key).isNone then
        discard (Movie.setPrototype o v.object?)
      else if !s.movie.heap.canPut o key then return
      else
        match (s.movie.heap.slot? o key).filter Property.isData with
        | some p => m.writeOwn o key name p v
        | none =>
          if v.isUndefined && geometryKeys.contains key then return
          else match (s.movie.heap.find? o key).map Prod.snd with
          | some p =>
            if p.isAccessor then m.writeThrough o p v else m.writeNew o key name (some p) v
          | none => m.writeNew o key name none v : Run σ Unit) (s.after s.movie) := rfl
  rw [hlook, if_neg (fun h => hproto h.1), hput, Bool.not_true, if_neg Bool.false_ne_true, land]
  cases hslot : (s.movie.heap.slot? o key).filter Property.isData with
  | some p =>
    obtain ⟨hp, hdata⟩ := Option.filter_eq_some_iff.mp hslot
    rw [Heap.find?_of_slot? hp, Option.map_some, Option.filter_some, Property.isAccessor, hdata]
    exact congrFun (m.writeOwn_eq o key name p v) (s.after s.movie)
  | none =>
    have hgeometry : (v.isUndefined && geometryKeys.contains key) = false := by
      have hany : (s.movie.heap.slot? o key).any Property.isData = false := by
        rw [Option.any_eq_false]
        exact fun p hp => Bool.eq_false_iff.mpr (Option.filter_eq_none_iff.mp hslot p hp)
      rw [ignores, hany, Bool.not_false, Bool.and_true] at hkept
      exact hkept
    dsimp only
    rw [hgeometry, if_neg Bool.false_ne_true]
    cases (s.movie.heap.find? o key).map Prod.snd with
    | none => rw [Option.filter_none, writeNew_eq]
    | some p =>
      rw [Option.filter_some]
      dsimp only
      split
      · rfl
      · rw [writeNew_eq]

section Write

variable {name : String} (hproto : s.movie.normalize name ≠ Heap.protoKey)
  (hput : s.movie.canPut o name) (hkept : ignores s.movie o (s.movie.normalize name) v = false)
include hproto hput hkept

theorem write_through {p : Property} (hfound : s.movie.find? o name = some p)
    (haccessor : p.isAccessor) :
    m.write o name v s = m.writeThrough o p v ((s.after s.movie).after s.movie) := by
  have hwrite := m.writeKey_accepted (s := s.after s.movie) name hproto hput hkept
  have hfilter : (s.movie.find? o name).filter Property.isAccessor = some p := by
    rw [hfound, Option.filter_some, if_pos haccessor]
  rw [Movie.find?] at hfilter
  rw [show (s.after s.movie).movie = s.movie from rfl, hfilter] at hwrite
  exact hwrite

theorem write_lands (hdata : (s.movie.find? o name).any Property.isAccessor = false) :
    m.write o name v s = (do
      m.land s.movie o (s.movie.normalize name) name v
      m.announce (s.movie.normalize name)) ((s.after s.movie).after s.movie) := by
  have hwrite := m.writeKey_accepted (s := s.after s.movie) name hproto hput hkept
  have hfilter : (s.movie.find? o name).filter Property.isAccessor = none := by
    rw [Option.any_eq_false] at hdata
    exact Option.filter_eq_none_iff.mpr fun p hp => Bool.eq_false_iff.mp (hdata p hp)
  rw [Movie.find?] at hfilter
  rw [show (s.after s.movie).movie = s.movie from rfl, hfilter] at hwrite
  exact hwrite

end Write

end Machine

/-! ## Writes in a session -/

namespace Course.Guides

variable {C : Course σ} {m : Machine σ} (h : C.Guides m)
include h

theorem settle (o : ObjectId) (key : String) : C.Runs (m.settle o key) := by
  refine .look fun s => ?_
  split
  · rename_i ha
    exact h.syncLength (s := s.after s.movie) ha key
  · exact C.refl _

theorem land (hC : C.Lenient) (movie : Movie) (o : ObjectId) (key name : String) (v : Value) :
    C.Runs (m.land movie o key name v) := by
  unfold Machine.land
  split
  · refine .bind (h.watched o _ _ v) fun v => .movie fun movie => ?_
    dsimp only
    split
    · exact .bind (.pass hC (.modify o (.assign key v))) fun _ => h.settle o key
    · exact .bind (.pass hC (.storeAs o key name _)) fun _ => h.settle o key
  · have hstore : ∀ v flags, C.Runs (do
        Movie.storeAs o key name (.data v flags)
        m.settle o key) := fun v flags =>
      .bind (.pass hC (.storeAs o key name _)) fun _ => h.settle o key
    cases (movie.heap.find? o key).map Prod.snd with
    | some p => exact .bind (h.watched o _ _ v) fun v => hstore v _
    | none => exact .bind .pure fun v => hstore v _

end Course.Guides

omit [Journal σ] in
theorem Run.eq_ok_of_isOk {x : Run σ Unit} {s : State σ} (h : (x s).1.isOk = true) :
    x s = (.ok (), (x s).2) := by
  rcases hx : x s with ⟨result, s'⟩
  rw [hx] at h
  cases result with
  | error e => cases h
  | ok => rfl

namespace Session

variable {σ : Type}

open Machine in
/-- In every state of a session, a write that is accepted and not ignored tells the observers of its
key once it has landed: those that the key has then, each once, in the order of their registration.
But a write that passes through an accessor tells nobody. -/
theorem Client.write_tells_observers (c : Client σ) (depth : Nat) {s s' : State (Ledger σ)}
    (hs : Reached s.movie) {o : ObjectId} {name : String} {v : Value}
    (hproto : s.movie.normalize name ≠ Heap.protoKey) (hput : s.movie.canPut o name)
    (hkept : ignores s.movie o (s.movie.normalize name) v = false)
    (hwrite : (c.host.machine depth).write o name v s = (.ok (), s')) :
    ∃ s₁, (c.host.machine depth).muted.write o name v s = (.ok (), s₁) ∧
      (s₁.movie.observers.of (s.movie.normalize name)).Nodup ∧
      s' = if (s.movie.find? o name).any Property.isAccessor then s₁
        else (c.host.machine depth).told (s.movie.normalize name) s₁
          (s₁.movie.observers.of (s.movie.normalize name)) := by
  have hguides := c.guides_onward depth
  cases haccessor : (s.movie.find? o name).any Property.isAccessor with
  | true =>
    obtain ⟨p, hfound, hp⟩ := (Option.any_eq_true _ _).mp haccessor
    rw [write_through _ hproto hput hkept hfound hp] at hwrite ⊢
    have hruns := hguides.writeThrough o p v ((s.after s.movie).after s.movie)
    rw [hwrite] at hruns
    rw [writeThrough_muted]
    exact ⟨s', hwrite, (hruns.movie hs.inOrder).1.observers _, rfl⟩
  | false =>
    rw [write_lands _ hproto hput hkept haccessor] at hwrite ⊢
    rw [land_muted]
    have hruns := hguides.land (lenient_onward σ) s.movie o (s.movie.normalize name) name v
      ((s.after s.movie).after s.movie)
    rcases hland : (c.host.machine depth).land s.movie o (s.movie.normalize name) name v
      ((s.after s.movie).after s.movie) with ⟨result, s₀⟩
    rw [hland] at hruns
    obtain ⟨horder, hlasts⟩ := hruns.movie hs.inOrder
    -- The broadcast normalizes its key once more, under the same settings.
    have hkey : s₀.movie.normalize (s.movie.normalize name) = s.movie.normalize name := by
      rw [Movie.normalize, Movie.normalize, hlasts.settings]
      exact s.movie.settings.normalize_normalize name
    cases result with
    | error e =>
      rw [Run.bind_error hland] at hwrite
      cases hwrite
    | ok =>
      rw [Run.bind_ok hland, announce_apply _ hkey] at hwrite ⊢
      rw [told_muted]
      refine ⟨_, rfl, ?_, ?_⟩
      · rw [beforeTelling_movie]
        exact horder.observers _
      · rw [beforeTelling_movie]
        cases hwrite
        rfl

/-! ## Observers that listen -/

/-- A client that keeps what its observers are told, the latest first. -/
def listening : Client (List (Observer × String)) where
  function _ _ _ := .done (.ok .undefined)
  initializeClass _ _ := .done (.ok ())
  notify observer key := .look fun _ heard => .keep ((observer, key) :: heard) (.done ())
  executeActions _ _ _ := .done (.ok .undefined)
  executeFunction _ _ _ _ _ _ := .done (.ok .undefined)
  resolveTarget _ _ := .done none
  checkTimeout _ := .done (.ok ())
  now := .done .nan

/-- The first handle of a movie in which case does not count. -/
def firstHandle : ObjectId := ⟨(Movie.new { version := 6 }).heap.slots.size⟩

/-- An object, and two observers of a key that it does not have. -/
@[irreducible] def overNothing : State (Ledger (List (Observer × String))) :=
  listening.play 1 { version := 6 } [] (.ask (.data .createObject) fun _ =>
    .ask (.observe "onPress" ⟨0⟩) fun _ => .ask (.observe "onpress" ⟨1⟩) fun _ => .done ())

theorem reached_overNothing : Reached overNothing.movie := by
  rw [overNothing]
  exact listening.reached_play 1 _ [] _

theorem write_tells_twoObservers :
    ∃ s₁ s', (listening.host.machine 1).write firstHandle "onPress" .null overNothing =
        (.ok (), s') ∧
      (listening.host.machine 1).muted.write firstHandle "onPress" .null overNothing =
        (.ok (), s₁) ∧
      (s₁.movie.observers.of "onpress").Nodup ∧
      s' = (listening.host.machine 1).told "onpress" s₁ (s₁.movie.observers.of "onpress") ∧
      s'.embedder.own = [(⟨1⟩, "onpress"), (⟨0⟩, "onpress")] := by
  have hok : ((listening.host.machine 1).write firstHandle "onPress" .null overNothing).1.isOk := by
    decide +kernel
  have hkey : overNothing.movie.normalize "onPress" = "onpress" := by decide +kernel
  have hput : overNothing.movie.canPut firstHandle "onPress" := by decide +kernel
  have hkept : Machine.ignores overNothing.movie firstHandle
    (overNothing.movie.normalize "onPress") .null = false := by decide +kernel
  have hdata : (overNothing.movie.find? firstHandle "onPress").any Property.isAccessor = false := by
    decide +kernel
  obtain ⟨s₁, hmuted, hnodup, htold⟩ := listening.write_tells_observers 1 reached_overNothing
    (by rw [hkey]; decide) hput hkept (Run.eq_ok_of_isOk hok)
  rw [hkey] at hnodup htold
  rw [hdata, if_neg Bool.false_ne_true] at htold
  exact ⟨s₁, _, Run.eq_ok_of_isOk hok, hmuted, hnodup, htold, by decide +kernel⟩

/-- An object with a setter under a key, and an observer of the key. -/
@[irreducible] def overSetter : State (Ledger (List (Observer × String))) :=
  listening.play 1 { version := 6 } [] (.ask (.data .createObject) fun _ =>
    .ask (.createNative "set" (.host ⟨0⟩) none) fun
      | .ok (.object f) =>
        .ask (.data (.define firstHandle "onPress" (.accessor none (some f) {}))) fun _ =>
          .ask (.observe "onPress" ⟨0⟩) fun _ => .done ()
      | _ => .done ())

/-- A write through a setter succeeds, and the observer of its key is not told. -/
theorem observer_not_told_of_setter :
    Reached overSetter.movie ∧ overSetter.movie.normalize "onPress" ≠ Heap.protoKey ∧
      overSetter.movie.canPut firstHandle "onPress" ∧
      Machine.ignores overSetter.movie firstHandle "onpress" .null = false ∧
      ∃ s', (listening.host.machine 1).write firstHandle "onPress" .null overSetter = (.ok (), s') ∧
        s'.movie.observers.of "onpress" = [⟨0⟩] ∧ s'.embedder.own = [] := by
  have hreached : Reached overSetter.movie := by
    rw [overSetter]
    exact listening.reached_play 1 _ [] _
  have hok : ((listening.host.machine 1).write firstHandle "onPress" .null overSetter).1.isOk := by
    decide +kernel
  exact ⟨hreached, by decide +kernel, by decide +kernel, by decide +kernel, _,
    Run.eq_ok_of_isOk hok, by decide +kernel, by decide +kernel⟩

end Session

end ActionScript
