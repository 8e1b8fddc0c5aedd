import ActionScript.Proofs.Broadcast
import ActionScript.Proofs.Nearest
import ActionScript.Proofs.Write

/-! # Watched writes

A write that the nearest slot accepts is shown to the watcher of that slot, once, with the value
that the slot had. What the watcher gives back is written instead: it goes into the own slot, into
a new one below the watched slot, or to the setter of an accessor
(`Machine.write_watched`). -/

namespace ActionScript

variable {σ : Type} [Journal σ]

namespace Machine

variable (machine : Machine σ)

/-- The value that a slot has for an object. -/
def slotValue (o : ObjectId) (p : Property) : Run σ Value :=
  match p.access with
  | .data _ => return p.value
  | .accessor none _ => return .undefined
  | .accessor (some getter) _ => machine.call getter (.object o) []

/-- It is what a read gives. -/
theorem readKey_of_nearest {s : State σ} {o owner : ObjectId} {key : String} {p : Property}
    (hp : s.movie.heap.Nearest key o owner p) :
    machine.readKey o key s = machine.slotValue o p (s.looked 1) := by
  rw [readKey, Run.look_apply, Heap.find?_eq_some_iff.mpr hp]
  rfl

variable {o : ObjectId} {key name : String} {p : Property} {w : Watcher} {v old r : Value}
  {s s₁ s₂ : State σ}

/-! ## Accessors -/

/-- A watched write through an accessor asks the getter, the watcher and the setter in turn. -/
theorem writeThrough_watched (haccessor : p.isAccessor) (hwatcher : p.watcher = some w) :
    machine.writeThrough o p v = (do
      let old ← machine.slotValue o p
      let r ← machine.call w.callback (.object o) [.string w.name, old, v, w.userData]
      machine.callSetter o p.setter r) := by
  obtain ⟨access, value, dontEnum, dontDelete, watcher, spelling⟩ := p
  cases hwatcher
  cases access with
  | data readOnly => cases haccessor
  | accessor getter setter =>
    cases getter <;> simp [writeThrough, slotValue, watched, Property.getter]

/-- An accessor that accepts writes has a setter. -/
theorem exists_setter (haccessor : p.isAccessor) (hwritable : p.isWritable) :
    ∃ setter, p.setter = some setter := by
  obtain ⟨access, _⟩ := p
  cases access with
  | data readOnly => cases haccessor
  | accessor getter setter => exact Option.isSome_iff_exists.mp hwritable

/-! ## Slots -/

theorem slotValue_of_isData (hdata : p.isData) (s : State σ) :
    machine.slotValue o p s = (.ok p.value, s) := by
  obtain ⟨access, _⟩ := p
  cases access with
  | data readOnly => rfl
  | accessor getter setter => cases hdata

/-- A write into an object that is no array is complete once the slot is written. -/
theorem settle_written_yields {m : Movie} (harray : m.heap.isArray o = false)
    (key name : String) (r : Value) :
    (machine.settle o key).Yields (m.written o key name r) () (m.written o key name r) := by
  have hplain : (m.written o key name r).heap.isArray o = false := by
    rw [Movie.written_eq, Movie.isArray_reslot, harray]
  have hsettle := machine.settle_yields (m := m.written o key name r) (o := o) key
    fun ha => nomatch hplain.symm.trans ha
  rwa [Movie.settled, hplain, if_neg Bool.false_ne_true] at hsettle

/-- Where a watcher has left a heap in which an object has a slot, its result goes there. -/
theorem landOwn_of_watched (hrun : machine.watched o p.watcher p.value v s = (.ok r, s₂))
    (hslot : (s₂.movie.heap.slot? o key).isSome) (harray : s₂.movie.heap.isArray o = false) :
    ∃ seen : List Movie, machine.landOwn o key name p v s =
      (.ok (), ⟨s₂.movie.written o key name r, seen.foldr Journal.record s₂.embedder⟩) := by
  have hrest : Run.Yields (do
      if ((← getMovie).heap.slot? o key).isSome then
        Movie.modifyHeap (·.modifySlot o key fun p => { p with value := r })
      else Movie.storeAs o key name (.data r {})
      machine.settle o key : Run σ Unit) s₂.movie () (s₂.movie.written o key name r) := by
    have hsettle := machine.settle_written_yields harray key name r
    rw [Movie.written_of_some hslot] at hsettle ⊢
    refine .movie ?_
    dsimp only
    rw [if_pos hslot]
    exact .bind (.edit (Movie.modifyHeap _)) hsettle
  obtain ⟨seen, _, hrest⟩ := hrest s₂.embedder
  exact ⟨seen, (Run.bind_ok hrun).trans hrest⟩

/-- Where a watcher has left a heap in which the watched slot is inherited, its result goes into a
new slot. -/
theorem landNew_of_watched (hrun : machine.watched o p.watcher p.value v s = (.ok r, s₂))
    (hslot : s₂.movie.heap.slot? o key = none)
    (hfound : (s₂.movie.heap.find? o key).map Prod.snd = some p)
    (harray : s₂.movie.heap.isArray o = false) :
    ∃ seen : List Movie, machine.landNew o key name (some p) v s =
      (.ok (), ⟨s₂.movie.written o key name r, seen.foldr Journal.record s₂.embedder⟩) := by
  have hrest : Run.Yields (do
      Movie.storeAs o key name (.data r (((some p).map Property.flags).getD {}))
      machine.settle o key : Run σ Unit) s₂.movie () (s₂.movie.written o key name r) := by
    have hsettle := machine.settle_written_yields harray key name r
    rw [Movie.written_of_none hslot hfound] at hsettle ⊢
    exact .bind (.edit (Movie.storeAs o key name _)) hsettle
  obtain ⟨seen, _, hrest⟩ := hrest s₂.embedder
  exact ⟨seen, (Run.bind_ok hrun).trans hrest⟩

/-! ## Observers that leave the heap alone -/

/-- No observer changes the heap when it is told. -/
def QuietObservers : Prop :=
  ∀ observer key t, (machine.services.notify observer key t).2.movie.heap = t.movie.heap

variable {machine}

omit [Journal σ] in
theorem QuietObservers.told (hquiet : machine.QuietObservers) (key : String) (s : State σ)
    (observers : List Observer) : (machine.told key s observers).movie.heap = s.movie.heap := by
  induction observers generalizing s with
  | nil => rfl
  | cons observer observers ih => exact (ih _).trans (hquiet observer key s)

theorem QuietObservers.announce (hquiet : machine.QuietObservers) (key : String) (s : State σ) :
    (machine.announce key s).1 = .ok () ∧
      (machine.announce key s).2.movie.heap = s.movie.heap := by
  have hlook : machine.announce key s =
      (if s.movie.observers.contains key then liftM (machine.broadcast key) else return :
        Run σ Unit) (s.looked 1) := rfl
  rw [hlook]
  split
  · have hforM := machine.forM_notify (s.movie.normalize key) (s.looked 2)
      (s.movie.observers.of (s.movie.normalize key))
    have hbroadcast : machine.broadcast key (s.looked 1) = _ := hforM
    show Except.ok (machine.broadcast key (s.looked 1)).1 = .ok () ∧
      (machine.broadcast key (s.looked 1)).2.movie.heap = _
    rw [hbroadcast]
    exact ⟨rfl, hquiet.told _ _ _⟩
  · exact ⟨rfl, rfl⟩

end Machine

/-! ## The law of watchers -/

/-- The result of a watcher of the slot `p`, the nearest of a key, has landed in an object. -/
structure Movie.Landed (m m' : Movie) (o : ObjectId) (key : String) (p : Property) (r : Value) :
    Prop where
  registries : m' = { m with heap := m'.heap }
  others : ∀ q, q ≠ o → m'.heap.get? q = m.heap.get? q
  object : ∀ {x}, m.heap.get? o = some x → ∃ t, m'.heap.get? o = some { x with properties := t }
  unchanged : ∀ {key'}, key' ≠ key → m'.heap.slot? o key' = m.heap.slot? o key'
  /-- The own slot has the result and is else as before, with its watcher. -/
  kept : (m.heap.slot? o key).isSome → m'.heap.slot? o key = some { p with value := r }
  /-- A slot that is new has the attributes of the inherited one but not its watcher. -/
  added : m.heap.slot? o key = none →
    ∃ p', m'.heap.slot? o key = some p' ∧ p'.value = r ∧ p'.watcher = none ∧ p'.flags = p.flags

theorem Movie.landed {m : Movie} {o : ObjectId} {x : Object} {key : String} {p : Property}
    (hx : m.heap.get? o = some x) (hfound : (m.heap.find? o key).map Prod.snd = some p)
    (hdata : p.isData) (name : String) (r : Value) :
    m.Landed (m.written o key name r) o key p r where
  registries := rfl
  others q hq := by rw [written_eq, get?_reslot, if_neg hq]
  object hx := by
    rw [written_eq, get?_reslot, if_pos rfl, hx]
    exact ⟨_, rfl⟩
  unchanged hkey := by rw [slot?_written hx, if_neg hkey]
  kept hsome := by
    obtain ⟨q, hslot⟩ := Option.isSome_iff_exists.mp hsome
    rw [Heap.find?_of_slot? hslot] at hfound
    cases hfound
    rw [slot?_written hx, if_pos rfl, writtenSlot, hslot]
  added hnone := by
    obtain ⟨hvalue, hwatcher, _⟩ := m.addedSlot_plain o key name r
    refine ⟨m.addedSlot o key name r, ?_, hvalue, hwatcher, ?_⟩
    · rw [slot?_written hx, if_pos rfl, writtenSlot, hnone]
    · rw [addedSlot, hfound, spelled]
      split <;> exact Property.flags_data hdata r

namespace Machine

variable (machine : Machine σ) {o : ObjectId} {x : Object} {key name : String} {p : Property}
  {w : Watcher} {v old r : Value} {s s₁ s₂ : State σ}

/-- The result of a watcher lands in the slot of the object. -/
theorem land_of_watched (name : String) (harray : s.movie.heap.isArray o = false)
    (hfound : (s.movie.heap.find? o key).map Prod.snd = some p) (hdata : p.isData)
    (hrun : machine.watched o p.watcher p.value v s₁ = (.ok r, s₂))
    (hheap : s₂.movie.heap = s.movie.heap) :
    ∃ seen : List Movie, machine.land s.movie o key name v s₁ =
      (.ok (), ⟨s₂.movie.written o key name r, seen.foldr Journal.record s₂.embedder⟩) := by
  rw [← hheap] at harray
  rw [land]
  cases hslot : s.movie.heap.slot? o key with
  | some q =>
    rw [Heap.find?_of_slot? hslot] at hfound
    cases hfound
    rw [Option.filter_some, if_pos hdata]
    exact machine.landOwn_of_watched hrun (by rw [hheap, hslot]; rfl) harray
  | none =>
    rw [Option.filter_none, hfound]
    exact machine.landNew_of_watched hrun (by rw [hheap, hslot]) (by rw [hheap, hfound]) harray

/-- A write that is accepted and not ignored, and whose nearest slot is watched, first learns the
value that the slot has for the object and then calls the watcher with it, once. If the result is a
value and the heap is as it was, the result lands in the object; where the slot is an accessor, it
goes to the setter, once. -/
theorem write_watched (hx : s.movie.heap.get? o = some x)
    (harray : s.movie.heap.isArray o = false)
    (hproto : s.movie.normalize name ≠ Heap.protoKey) (hfound : s.movie.find? o name = some p)
    (hwatcher : p.watcher = some w) (hput : s.movie.canPut o name)
    (hkept : ignores s.movie o (s.movie.normalize name) v = false)
    (hold : machine.slotValue o p (s.looked 2) = (.ok old, s₁))
    (hcall : machine.call w.callback (.object o) [.string w.name, old, v, w.userData] s₁ =
      (.ok r, s₂))
    (hheap : s₂.movie.heap = s.movie.heap) :
    (p.isData → old = p.value ∧ s₁ = s.looked 2 ∧ ∃ (m : Movie) (seen : List Movie),
      s₂.movie.Landed m o (s.movie.normalize name) p r ∧
      machine.write o name v s = machine.announce (s.movie.normalize name)
        ⟨m, seen.foldr Journal.record s₂.embedder⟩ ∧
      (machine.QuietObservers → (machine.write o name v s).1 = .ok () ∧
        (machine.write o name v s).2.movie.heap = m.heap)) ∧
    (p.isAccessor → ∃ setter, p.setter = some setter ∧
      machine.write o name v s = discard (machine.call setter (.object o) [r]) s₂) := by
  constructor
  · intro hdata
    rw [machine.slotValue_of_isData hdata] at hold
    cases hold
    have hrun : machine.watched o p.watcher p.value v (s.looked 2) = (.ok r, s₂) := by
      rw [hwatcher]
      exact hcall
    have hfind : (s₂.movie.heap.find? o (s.movie.normalize name)).map Prod.snd = some p := by
      rw [hheap]
      exact hfound
    obtain ⟨seen, hland⟩ := machine.land_of_watched name harray hfound hdata hrun hheap
    have hwrite : machine.write o name v s = machine.announce (s.movie.normalize name)
        ⟨s₂.movie.written o (s.movie.normalize name) name r,
          seen.foldr Journal.record s₂.embedder⟩ := by
      rw [machine.write_lands hproto hput hkept (by rw [hfound, Option.any_some,
        Property.isAccessor, hdata, Bool.not_true])]
      exact Run.bind_ok hland
    refine ⟨rfl, rfl, _, seen, Movie.landed (by rw [hheap, hx]) hfind hdata name r, hwrite,
      fun hquiet => ?_⟩
    rw [hwrite]
    exact hquiet.announce _ _
  · intro haccessor
    obtain ⟨owner, hnearest⟩ := Movie.find?_eq_some_iff.mp hfound
    have hwritable : p.isWritable := by
      rw [← Heap.canPut_of_nearest hnearest]
      exact hput
    obtain ⟨setter, hsetter⟩ := exists_setter haccessor hwritable
    refine ⟨setter, hsetter, ?_⟩
    rw [machine.write_through hproto hput hkept hfound haccessor,
      machine.writeThrough_watched haccessor hwatcher, hsetter]
    exact (Run.bind_ok hold).trans (Run.bind_ok hcall)

namespace KeptPrice

/-- An embedder whose functions give back their second argument. A watcher of this kind keeps the
old value. -/
def host : Host Unit := fun _ =>
  { Host.refuse with function := fun _ _ args => return args.getD 1 .undefined }

/-- Makes an object with a hidden slot and an heir of it, and lets the heir watch the slot. Gives
the heir and the function that watches. -/
def create : Edit (ObjectId × ObjectId) := do
  let prototype ← Movie.createObject
  Movie.define prototype "price" (.data (.string "ten") .hidden)
  let heir ← Movie.createWithPrototype (some prototype)
  let keep ← Movie.createNative "keep" (.host ⟨0⟩) none
  discard (Movie.setWatcher heir "Price" (some ⟨"Price", keep, .null⟩))
  return (heir, keep)

@[irreducible] def heir : ObjectId := (create (Movie.new { version := 6 })).1.1

@[irreducible] def keep : ObjectId := (create (Movie.new { version := 6 })).1.2

/-- A new movie with them, in which case does not count. -/
@[irreducible] def movie : Movie := (create (Movie.new { version := 6 })).2

/-- The slot that the heir inherits. -/
def slot : Property where
  access := .data false
  value := .string "ten"
  dontEnum := true
  dontDelete := false
  watcher := some ⟨"Price", keep, .null⟩
  spelling := some "price"

end KeptPrice

open KeptPrice in
/-- The heir gets a slot of its own with the old value, hidden and without a watcher. -/
theorem write_keptPrice :
    movie.find? heir "PRICE" = some slot ∧ movie.heap.slot? heir "price" = none ∧
    ∃ m : Movie, movie.Landed m heir "price" slot (.string "ten") ∧
      ((host.machine 1).write heir "PRICE" (.string "one") ⟨movie, ()⟩).1 = .ok () ∧
      ((host.machine 1).write heir "PRICE" (.string "one") ⟨movie, ()⟩).2.movie.heap = m.heap := by
  have hkey : movie.normalize "PRICE" = "price" := by decide +kernel
  have hlive : (movie.heap.get? heir).isSome := by decide +kernel
  have hfound : movie.find? heir "PRICE" = some slot := by decide +kernel
  have harray : movie.heap.isArray heir = false := by decide +kernel
  have hput : movie.canPut heir "PRICE" := by decide +kernel
  have hkept : ignores movie heir (movie.normalize "PRICE") (.string "one") = false := by
    decide +kernel
  obtain ⟨x, hx⟩ := Option.isSome_iff_exists.mp hlive
  have hquiet : (host.machine 1).QuietObservers := fun _ _ _ => rfl
  have hcallable : movie.heap.callable? keep = some (.native "keep" (.host ⟨0⟩) none) := by
    decide +kernel
  have hcall : (host.machine 1).call keep (.object heir)
      [.string "Price", .string "ten", .string "one", .null] ⟨movie, ()⟩ =
        (.ok (.string "ten"), ⟨movie, ()⟩) := by
    rw [call, Run.look_apply, hcallable]
    rfl
  have hold : (host.machine 1).slotValue heir slot (State.looked ⟨movie, ()⟩ 2) =
      (.ok (.string "ten"), ⟨movie, ()⟩) := rfl
  have hwatcher : slot.watcher = some ⟨"Price", keep, .null⟩ := rfl
  have hproto : movie.normalize "PRICE" ≠ Heap.protoKey := by
    rw [hkey]
    decide
  have hlaw := (host.machine 1).write_watched (s := ⟨movie, ()⟩) hx harray hproto hfound hwatcher
    hput hkept hold hcall rfl
  obtain ⟨-, -, m, _, hlanded, -, hdone⟩ := hlaw.1 rfl
  rw [hkey] at hlanded
  exact ⟨hfound, by decide +kernel, m, hlanded, hdone hquiet⟩

end Machine

end ActionScript
