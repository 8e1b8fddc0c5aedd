import ActionScript.Proofs.Command.Start
import ActionScript.Proofs.Reading

/-! # Argument lists

Every element of a new array is stored under its own numeral and read back from there, so the array
gives its elements back in order, as many of them as the settings allow to be read. A function that
is applied to the array is therefore called as it is on the elements
(`Machine.apply_createArray`). -/

namespace ActionScript

/-! ## New arrays -/

/-- Lengths of 32 bits are read as they are. -/
theorem Settings.readCount_of_lt {n : Nat} (hn : n < 2 ^ 32) (s : Settings) :
    s.readCount n = min n s.maxElements := by
  rw [readCount, Number.toUInt32_eq, Number.toInt_ofNat (by omega)]
  omega

theorem Movie.exists_created {m : Movie} (hm : m.heap.Arena) (vs : List Value) :
    ∃ a m', createArray vs m = (a, m') ∧ m'.Created a vs ∧ m.GrowsTo m' :=
  ⟨_, _, rfl, created_createArray hm vs, growsTo_createArray hm vs⟩

namespace Movie.Created

variable {m : Movie} {a : ObjectId} {vs : List Value} (ha : m.Created a vs)
include ha

theorem valueAt_lengthKey : m.valueAt a lengthKey = .number (.ofNat vs.length) := by
  rw [valueAt, Heap.find?_of_slot? ha.slot?_lengthKey]
  exact m.value_spelled lengthKey _

theorem valueAt_indexKey {i : Nat} (hi : i < vs.length) : m.valueAt a (indexKey i) = vs[i] := by
  rw [valueAt, Heap.find?_of_slot? (ha.slot?_indexKey hi)]
  rfl

theorem readLength_eq : m.readLength a = m.settings.readCount vs.length := by
  rw [readLength, ha.valueAt_lengthKey]
  rfl

theorem plainArray : m.PlainArray a where
  isArray := by
    rw [Heap.isArray, show m.heap.get? a = some (m.arrayOf vs) from ha]
    rfl
  plainLength := by
    rw [plainAt_iff, Heap.find?_of_slot? ha.slot?_lengthKey]
    exact m.isData_spelled lengthKey _
  primitiveLength := by
    rw [ha.valueAt_lengthKey]
    rfl
  plainElements i hi := by
    rw [ha.readLength_eq] at hi
    have hlt := hi.trans_le (m.settings.readCount_le vs.length)
    rw [plainAt_iff, Heap.find?_of_slot? (ha.slot?_indexKey hlt)]
    rfl

theorem elementsOf_eq (hsize : vs.length < 2 ^ 32) :
    m.elementsOf a = vs.take m.settings.maxElements := by
  rw [elementsOf, ha.readLength_eq, Settings.readCount_of_lt hsize]
  refine List.ext_getElem (by simp [Nat.min_comm]) fun i hi _ => ?_
  have hlt : i < vs.length := by
    rw [List.length_map, List.length_range] at hi
    omega
  rw [List.getElem_map, List.getElem_range, ha.valueAt_indexKey hlt, List.getElem_take]

end Movie.Created

/-! ## Functions on argument lists -/

namespace Machine

variable {σ : Type} [Journal σ] (machine : Machine σ) {m : Movie} {a : ObjectId}
  {vs : List Value} {s s' : State σ}

theorem run_apply (h : machine.elements a s = (.ok vs, s')) (f this : Value) :
    Builtin.run machine (.function .apply) f [this, .object a] s =
      machine.callValue f this vs s' :=
  Run.bind_ok h

/-- In every movie of a session, let a new array have fewer than `2 ^ 32` elements. Then reading it
gives its elements in order, as many as the settings allow, unless the interpreter stops the
reading. If it does not, and the settings allow that many elements, `apply` calls a function once,
with the receiver and exactly the elements, which is what `call` does. -/
theorem apply_createArray (hm : Session.Reached m) {xs : List Value} (hsize : xs.length < 2 ^ 32)
    {m' : Movie} (hnew : Movie.createArray xs m = (a, m')) :
    (∀ stop, machine.Polls stop m' →
      (machine.elements a).LeadsUnless stop m' (xs.take m.settings.maxElements) m') ∧
    (machine.Patient m' → xs.length ≤ m.settings.maxElements → ∀ f this e, ∃ e',
      machine.elements a ⟨m', e⟩ = (.ok xs, ⟨m', e'⟩) ∧
      Builtin.run machine (.function .apply) f [this, .object a] ⟨m', e⟩ =
        machine.callValue f this xs ⟨m', e'⟩ ∧
      Builtin.run machine (.function .call) f (this :: xs) ⟨m', e'⟩ =
        machine.callValue f this xs ⟨m', e'⟩) := by
  have hcreated := Movie.created_createArray hm.arena xs
  have hgrows := Movie.growsTo_createArray hm.arena xs
  rw [hnew] at hcreated hgrows
  have helements := hcreated.elementsOf_eq hsize
  rw [hgrows.settings_eq] at helements
  refine ⟨fun stop hpolls => ?_, fun hpatient hlimit f this e => ?_⟩
  · rw [← helements]
    exact elements_leadsUnless hcreated.plainArray fun _ => hpolls
  · have hread := machine.elements_answers hpatient hcreated.plainArray
    rw [helements, List.take_of_length_le hlimit] at hread
    obtain ⟨e', hread⟩ := hread e
    exact ⟨e', hread, machine.run_apply hread f this, rfl⟩

/-- A list of arguments with a missing one in the middle. -/
def triple : List Value := [.string "x", .undefined, .number 2]

theorem apply_createArray_triple :
    Session.Reached (Movie.new {}) ∧ triple.length < 2 ^ 32 ∧
    triple.length ≤ (Movie.new {}).settings.maxElements ∧
    ∃ array movie, Movie.createArray triple (Movie.new {}) = (array, movie) ∧
      ((Host.bare Unit).machine 1).elements array ⟨movie, ()⟩ = (.ok triple, ⟨movie, ()⟩) ∧
      ∀ f this, Builtin.run ((Host.bare Unit).machine 1) (.function .apply) f
          [this, .object array] ⟨movie, ()⟩ =
        Builtin.run ((Host.bare Unit).machine 1) (.function .call) f (this :: triple)
          ⟨movie, ()⟩ := by
  have hreached := Session.reached_new {}
  have hsize : triple.length < 2 ^ 32 := by decide
  have hlimit : triple.length ≤ (Movie.new {}).settings.maxElements := by
    simp [Movie.settings_new, triple]
  obtain ⟨array, movie, hnew, -, hgrows⟩ := Movie.exists_created hreached.arena triple
  have hpatient : ((Host.bare Unit).machine 1).Patient movie :=
    patient_of_no_executor _ (hgrows.executor_eq.trans (by decide +kernel))
  obtain ⟨-, happly⟩ := ((Host.bare Unit).machine 1).apply_createArray hreached hsize hnew
  obtain ⟨_, hread, _⟩ := happly hpatient hlimit .undefined .undefined ()
  refine ⟨hreached, hsize, hlimit, array, movie, hnew, hread, fun f this => ?_⟩
  obtain ⟨_, _, hcalled, hcall⟩ := happly hpatient hlimit f this ()
  exact hcalled.trans hcall.symm

end Machine

end ActionScript
