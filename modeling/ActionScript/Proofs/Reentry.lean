import ActionScript.Proofs.Session.Protection
import ActionScript.Proofs.Watcher

/-! # Watchers that change the slot

A watcher runs before its slot is written and may do anything to it: remove it, define it anew,
change its attributes or its watcher. The result goes into the slot that it leaves, and into a new
one if it has removed the slot, so that the next read gives the result. But if it leaves an
accessor, the value of the slot is written and not shown: the next read asks the getter
(`Machine.write_reentrant`, `Machine.accessor_hides_result`). -/

namespace ActionScript

/-! ## The slot after the watcher -/

namespace Movie

variable {m : Movie} {o : ObjectId} {key name : String} {r : Value}

/-- The slot of a key with a value, of whatever kind it is; a plain one where there is none. -/
def restoredSlot (m : Movie) (o : ObjectId) (key name : String) (r : Value) : Property :=
  match m.heap.slot? o key with
  | some q => { q with value := r }
  | none => m.spelled name (.data r {})

theorem value_restoredSlot (m : Movie) (o : ObjectId) (key name : String) (r : Value) :
    (m.restoredSlot o key name r).value = r := by
  rw [restoredSlot]
  split
  · rfl
  · exact value_spelled ..

theorem isData_restoredSlot (hdata : (m.heap.slot? o key).all Property.isData) :
    (m.restoredSlot o key name r).isData := by
  rw [restoredSlot]
  split
  · rename_i q hslot
    rw [hslot] at hdata
    exact hdata
  · exact isData_spelled ..

/-- The movie with a value in the slot of a key. -/
def restored (m : Movie) (o : ObjectId) (key name : String) (r : Value) : Movie :=
  { m with
    heap :=
      if (m.heap.slot? o key).isSome then m.heap.modifySlot o key fun q => { q with value := r }
      else m.heap.store o key (m.spelled name (.data r {})) }

theorem slot?_restored (hlive : m.heap.isLive o) :
    (m.restored o key name r).heap.slot? o key = some (m.restoredSlot o key name r) := by
  rw [restored, restoredSlot]
  cases hslot : m.heap.slot? o key with
  | some q =>
    rw [Option.isSome_some, if_pos rfl, Heap.slot?_modifySlot, if_pos ⟨rfl, rfl⟩, hslot]
    rfl
  | none =>
    rw [Option.isSome_none, if_neg Bool.false_ne_true, Heap.slot?_store,
      if_pos ⟨rfl, rfl, hlive⟩]

/-- The length is set in its own slot. -/
theorem slot?_setLength_of_ne (hkey : key ≠ lengthKey) (m : Movie) (a : ObjectId) (n : Nat) :
    (setLength a n m).2.heap.slot? o key = m.heap.slot? o key := by
  rw [setLength_eq]
  split
  · exact (Heap.slot?_modifySlot ..).trans (if_neg fun h => hkey h.2)
  · have hdefined : m.normalize lengthKey ≠ key := by
      rw [m.normalize_lengthKey]
      exact hkey.symm
    exact (Heap.slot?_store ..).trans (if_neg fun h => hdefined h.2.1.symm)

/-- Bringing the length of an array in line with a write leaves the written slot alone. -/
theorem slot?_settled_self (m : Movie) (o : ObjectId) (key : String) :
    (m.settled o key).heap.slot? o key = m.heap.slot? o key := by
  rw [settled, synced]
  split
  · split
    · rename_i hkey
      split
      · rw [hkey, slot?_truncate, arrayIndex?_lengthKey]
        simp
      · rfl
    · rename_i hkey
      split
      · rfl
      · split
        · exact slot?_setLength_of_ne hkey m o _
        · rfl
  · rfl

end Movie

namespace Machine

variable {σ : Type} [Journal σ] (machine : Machine σ) {o : ObjectId} {name : String}
  {p q : Property} {w : Watcher} {v r : Value} {s s₂ t : State σ}

/-- A read under a name that leads to an own slot. -/
theorem read_of_slot (hslot : t.movie.heap.slot? o (t.movie.normalize name) = some q) :
    machine.read o name t = machine.slotValue o q (t.looked 2) := by
  have hnearest : t.movie.heap.Nearest (t.movie.normalize name) o o q :=
    Heap.find?_eq_some_iff.mp (Heap.find?_of_slot? hslot)
  rw [read, Run.look_apply]
  exact machine.readKey_of_nearest (s := t.looked 1) hnearest

/-- The result of a watcher goes into the slot that it leaves. -/
theorem writeOwn_of_called (key name : String) (hwatcher : p.watcher = some w)
    (hcall : machine.call w.callback (.object o) [.string w.name, p.value, v, w.userData] s =
      (.ok r, s₂)) :
    machine.writeOwn o key name p v s =
      machine.afterWrite o key ((s₂.looked 1).after (s₂.movie.restored o key name r)) := by
  have hrun : machine.watched o p.watcher p.value v s = (.ok r, s₂) := by
    rw [hwatcher]
    exact hcall
  rw [writeOwn, Run.bind_ok hrun, Run.look_apply, Movie.restored]
  split <;> rfl

/-- A write into an own data slot. -/
theorem write_own (hslot : s.movie.heap.slot? o (s.movie.normalize name) = some p)
    (hdata : p.isData) (hput : s.movie.canPut o name) :
    machine.write o name v s =
      machine.writeOwn o (s.movie.normalize name) name p v (s.looked 2) := by
  have hstored : ¬ (s.movie.normalize name = Heap.protoKey ∧ (some p).isNone) :=
    fun h => nomatch h.2
  rw [Movie.canPut] at hput
  rw [write_apply, writeKey, Run.look_apply, State.movie_looked, hslot, if_neg hstored, hput,
    Bool.not_true, if_neg Bool.false_ne_true, Option.filter_some, if_pos hdata]
  rfl

/-- The value of an accessor does not count. -/
theorem slotValue_of_isAccessor (haccessor : q.isAccessor) (r : Value) :
    machine.slotValue o { q with value := r } = machine.slotValue o q := by
  obtain ⟨access, _⟩ := q
  cases access with
  | data readOnly => cases haccessor
  | accessor getter setter => cases getter <;> rfl

/-- Let a write go into an own data slot that is watched, and let the watcher give `r` and leave the
object live; it may have done anything else to the slot. Then `r` goes into the slot that is there,
or into a new one, and as long as that slot lasts: if the watcher left a data slot or none, a read
gives `r`, and if it left an accessor, a read asks its getter and does not see `r`. The slot lasts
and the write succeeds where nobody observes the key and the length of an array is primitive. -/
theorem write_reentrant (hslot : s.movie.heap.slot? o (s.movie.normalize name) = some p)
    (hdata : p.isData) (hwatcher : p.watcher = some w) (hput : s.movie.canPut o name)
    (hcall : machine.call w.callback (.object o) [.string w.name, p.value, v, w.userData]
      (s.looked 2) = (.ok r, s₂))
    (hsettings : s₂.movie.settings = s.movie.settings) (hlive : s₂.movie.heap.isLive o) :
    ∃ s₃ : State σ,
      s₃.movie = s₂.movie.restored o (s.movie.normalize name) name r ∧
      machine.write o name v s = machine.afterWrite o (s.movie.normalize name) s₃ ∧
      (∀ t : State σ, t.movie.settings = s.movie.settings →
        t.movie.heap.slot? o (s.movie.normalize name) =
          s₃.movie.heap.slot? o (s.movie.normalize name) →
        ((s₂.movie.heap.slot? o (s.movie.normalize name)).all Property.isData →
          machine.read o name t = (.ok r, t.looked 2)) ∧
        ∀ q, s₂.movie.heap.slot? o (s.movie.normalize name) = some q → q.isAccessor →
          machine.read o name t = machine.slotValue o q (t.looked 2)) ∧
      (s₃.movie.observers.contains (s.movie.normalize name) = false →
        (s₃.movie.heap.isArray o → (s₃.movie.lengthValue o).isObject = false) →
        ∃ t, machine.write o name v s = (.ok (), t) ∧ t.movie.settings = s.movie.settings ∧
          t.movie.heap.slot? o (s.movie.normalize name) =
            s₃.movie.heap.slot? o (s.movie.normalize name)) := by
  have hwrite := (machine.write_own hslot hdata hput).trans
    (machine.writeOwn_of_called (s.movie.normalize name) name hwatcher hcall)
  refine ⟨_, rfl, hwrite, fun t htsettings htslot => ?_, fun hobservers hlength => ?_⟩
  · have hread : machine.read o name t =
        machine.slotValue o (s₂.movie.restoredSlot o (s.movie.normalize name) name r)
          (t.looked 2) := by
      apply machine.read_of_slot
      rw [Movie.normalize, htsettings]
      exact htslot.trans (Movie.slot?_restored hlive)
    refine ⟨fun hleft => ?_, fun q hleft haccessor => ?_⟩
    · rw [hread, machine.slotValue_of_isData (Movie.isData_restoredSlot hleft),
        Movie.value_restoredSlot]
    · rw [hread, Movie.restoredSlot, hleft, machine.slotValue_of_isAccessor haccessor]
  · obtain ⟨seen, _, hafter⟩ := machine.afterWrite_yields hlength hobservers _
    refine ⟨_, hwrite.trans hafter, ?_, ?_⟩
    · rw [Movie.settings_settled]
      exact hsettings
    · rw [Movie.slot?_settled_self]

namespace Meddling

/-- An embedder with two watchers and a getter. The first watcher removes its slot, and the other
one puts an accessor in its place. -/
def host : Host Unit := fun machine =>
  { Host.refuse with
    function := fun f this args => do
      match f.index with
      | 0 => discard (machine.delete (this.object?.getD ⟨0⟩) "x")
      | 1 =>
        discard (machine.builtin (.object .addProperty) this
          [args.getD 0 .undefined, args.getD 3 .undefined, .null])
      | _ => return .string "shown"
      return .string "result" }

/-- Makes a getter, an object with a slot, and a function that watches the slot. -/
def create (f : HostFunction) : Edit (ObjectId × ObjectId × ObjectId) := do
  let getter ← Movie.createNative "get" (.host ⟨2⟩) none
  let o ← Movie.createObject
  Movie.define o "x" (.data (.string "old") .hidden)
  let watch ← Movie.createNative "watch" (.host f) none
  discard (Movie.setWatcher o "X" (some ⟨"X", watch, .object getter⟩))
  return (getter, o, watch)

@[irreducible] def getter : ObjectId := (create ⟨0⟩ (Movie.new { version := 6 })).1.1

@[irreducible] def object : ObjectId := (create ⟨0⟩ (Movie.new { version := 6 })).1.2.1

@[irreducible] def watch : ObjectId := (create ⟨0⟩ (Movie.new { version := 6 })).1.2.2

/-- A new movie with them, in which case does not count. -/
@[irreducible] def movie (f : HostFunction) : Movie := (create f (Movie.new { version := 6 })).2

/-- The slot before the write. -/
def slot : Property where
  access := .data false
  value := .string "old"
  dontEnum := true
  dontDelete := false
  watcher := some ⟨"X", watch, .object getter⟩
  spelling := some "x"

/-- What the watcher does to a movie. -/
def called (m : Movie) : Except Error Value × State Unit :=
  (host.machine 2).call watch (.object object)
    [.string "X", .string "old", .null, .object getter] ⟨m, ()⟩

end Meddling

open Meddling in
/-- The slot is gone when the watcher has run, and yet a read gives the result after the write. -/
theorem write_of_removing_watcher :
    (movie ⟨0⟩).heap.slot? object "x" = some slot ∧ slot.isData ∧
    (called (movie ⟨0⟩)).1 = .ok (.string "result") ∧
    (called (movie ⟨0⟩)).2.movie.heap.slot? object "x" = none ∧
    ∃ t, (host.machine 2).write object "X" .null ⟨movie ⟨0⟩, ()⟩ = (.ok (), t) ∧
      (host.machine 2).read object "X" t = (.ok (.string "result"), t) := by
  have hkey : (movie ⟨0⟩).normalize "X" = "x" := by decide +kernel
  have hslot : (movie ⟨0⟩).heap.slot? object "x" = some slot := by decide +kernel
  have hresult : (called (movie ⟨0⟩)).1 = .ok (.string "result") := by decide +kernel
  have hgone : (called (movie ⟨0⟩)).2.movie.heap.slot? object "x" = none := by decide +kernel
  have hcall : (host.machine 2).call watch (.object object)
      [.string "X", .string "old", .null, .object getter] (State.looked ⟨movie ⟨0⟩, ()⟩ 2) =
        (.ok (.string "result"), (called (movie ⟨0⟩)).2) := Prod.ext hresult rfl
  have hwatcher : slot.watcher = some ⟨"X", watch, .object getter⟩ := rfl
  have hput : (movie ⟨0⟩).canPut object "X" := by decide +kernel
  have hsettings : (called (movie ⟨0⟩)).2.movie.settings = (movie ⟨0⟩).settings := by decide +kernel
  have hlive : (called (movie ⟨0⟩)).2.movie.heap.isLive object := by decide +kernel
  obtain ⟨s₃, hs₃, _, hreads, hdone⟩ := (host.machine 2).write_reentrant (s := ⟨movie ⟨0⟩, ()⟩)
    (p := slot) (by rw [hkey, hslot]) rfl hwatcher hput hcall hsettings hlive
  rw [hkey] at hs₃ hreads hdone
  obtain ⟨t, hwrite, hkept, ht⟩ := hdone (by rw [hs₃]; decide +kernel) (by rw [hs₃]; decide +kernel)
  exact ⟨hslot, rfl, hresult, hgone, t, hwrite,
    (hreads t hkept ht).1 (by rw [hgone]; rfl)⟩

open Meddling in
/-- An accessor that the watcher puts in the place of its slot hides the result: the object is live
and the write succeeds, but a read gives what the getter gives. -/
theorem accessor_hides_result :
    (movie ⟨1⟩).heap.slot? object "x" = some slot ∧ slot.isData ∧
    (called (movie ⟨1⟩)).1 = .ok (.string "result") ∧
    ((host.machine 2).write object "X" .null ⟨movie ⟨1⟩, ()⟩).1 = .ok () ∧
    ((host.machine 2).write object "X" .null ⟨movie ⟨1⟩, ()⟩).2.movie.heap.isLive object ∧
    ((host.machine 2).read object "X"
      ((host.machine 2).write object "X" .null ⟨movie ⟨1⟩, ()⟩).2).1 ≠ .ok (.string "result") := by
  refine ⟨by decide +kernel, rfl, by decide +kernel, by decide +kernel, by decide +kernel, ?_⟩
  decide +kernel

end Machine

end ActionScript
