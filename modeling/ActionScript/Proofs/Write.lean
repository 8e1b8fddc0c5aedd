import ActionScript.Host
import ActionScript.Movie.Setup
import ActionScript.Proofs.Evaluation
import ActionScript.Proofs.KeyOrder
import ActionScript.Proofs.Number

/-! # The law of writes

A write that no watcher, setter or observer takes part in succeeds, the value is read back, and
nothing else changes but what an array owes to its length (`Machine.read_write`). -/

namespace ActionScript

/-! ## The slots of one object -/

namespace Movie

/-- The movie with the slots of one object changed. -/
def reslot (m : Movie) (o : ObjectId) (g : Table String Property → Table String Property) :
    Movie :=
  { m with heap := m.heap.modify o fun x => { x with properties := g x.properties } }

variable {m : Movie} {o p : ObjectId} {key : String} {x : Object}
  {f g : Table String Property → Table String Property}

/-- New slots for one object leave all other objects, and everything else of that one. -/
theorem get?_reslot (m : Movie) (o p : ObjectId)
    (g : Table String Property → Table String Property) :
    (m.reslot o g).heap.get? p =
      if p = o then (m.heap.get? p).map fun x => { x with properties := g x.properties }
      else m.heap.get? p :=
  m.heap.get?_modify o p _

@[simp] theorem prototype?_reslot : (m.reslot o g).heap.prototype? p = m.heap.prototype? p := by
  rw [reslot, Heap.prototype?_modify]
  intro x
  rfl

@[simp] theorem isArray_reslot : (m.reslot o g).heap.isArray p = m.heap.isArray p := by
  rw [Heap.isArray, Heap.isArray, get?_reslot]
  split
  · cases m.heap.get? p <;> rfl
  · rfl

@[simp] theorem callable?_reslot : (m.reslot o g).heap.callable? p = m.heap.callable? p := by
  rw [Heap.callable?, Heap.callable?, get?_reslot]
  split
  · cases m.heap.get? p <;> rfl
  · rfl

/-- The slots of an object that got new slots are those. -/
theorem slot?_reslot (hx : m.heap.get? o = some x) :
    (m.reslot o g).heap.slot? o key = (g x.properties).find? key := by
  rw [Heap.slot?, get?_reslot, if_pos rfl, hx]
  rfl

theorem keysOf_reslot (hx : m.heap.get? o = some x) :
    (m.reslot o g).heap.keysOf o = (g x.properties).keys := by
  rw [reslot, Heap.keysOf_modify, if_pos rfl, hx]
  rfl

/-- Getting new slots twice is getting them once. -/
theorem reslot_reslot (m : Movie) (o : ObjectId) :
    (m.reslot o f).reslot o g = m.reslot o (g ∘ f) := by
  rw [reslot, reslot, reslot]
  congr 1
  obtain ⟨slots, free⟩ := m.heap
  simp only [Heap.modify, Heap.mk.injEq, and_true]
  apply Array.ext_getElem?
  intro i
  simp only [Array.getElem?_modify]
  split
  · cases slots[i]? with
    | none => rfl
    | some slot => cases slot <;> rfl
  · rfl

theorem reslot_id (m : Movie) (o : ObjectId) : m.reslot o id = m := by
  have hheap : m.heap.modify o id = m.heap := by
    obtain ⟨slots, free⟩ := m.heap
    simp only [Heap.modify, Heap.mk.injEq, and_true, Option.map_id_fun]
    apply Array.ext_getElem?
    intro i
    simp [Array.getElem?_modify]
  rw [reslot]
  exact congrArg (fun heap => { m with heap }) hheap

/-- Only the slots that the object has decide what it gets. -/
theorem reslot_congr (hfg : ∀ x, m.heap.get? o = some x → f x.properties = g x.properties) :
    m.reslot o f = m.reslot o g := by
  rw [reslot, reslot]
  congr 1
  generalize m.heap = h at hfg
  obtain ⟨slots, free⟩ := h
  simp only [Heap.modify, Heap.mk.injEq, and_true]
  apply Array.ext_getElem?
  intro i
  simp only [Array.getElem?_modify]
  split
  · rename_i hi
    subst hi
    cases hslot : slots[o.index]? with
    | none => rfl
    | some entry =>
      cases entry with
      | none => rfl
      | some x =>
        have hx : Heap.get? ⟨slots, free⟩ o = some x := by
          rw [Heap.get?, hslot]
          rfl
        simp [hfg x hx]
  · rfl

theorem reslot_congr_of_get? (hx : m.heap.get? o = some x)
    (hfg : f x.properties = g x.properties) : m.reslot o f = m.reslot o g := by
  refine reslot_congr fun y hy => ?_
  cases hx.symm.trans hy
  exact hfg

/-- A key whose slot is kept reads the same on every object. -/
theorem slot?_reslot_of_find? {key : String} (hx : m.heap.get? o = some x)
    (hkey : (g x.properties).find? key = x.properties.find? key) (p : ObjectId) :
    (m.reslot o g).heap.slot? p key = m.heap.slot? p key := by
  by_cases hp : p = o
  · subst hp
    rw [slot?_reslot hx, hkey, Heap.slot?_eq hx]
  · rw [Heap.slot?, get?_reslot, if_neg hp, Heap.slot?]

/-! ## Lengths -/

/-- The index from which on a write of a number drops elements: one in the range of the indices
does so under the key of the length. -/
def cutoff? (key : String) (n : Number) : Option Int :=
  if key = lengthKey ∧ n.isInteger ∧ 0 ≤ n.toInt ∧ n.toInt < 0xffffffff then some n.toInt
  else none

/-- The length to which a write under a key raises a length that is not above its index. -/
def raised? (key : String) (n : Number) : Option Nat :=
  (arrayIndex? key).bind fun i => if n.toUInt32 ≤ i then some (i + 1) else none

/-- Whether a key is that of an index from a cutoff on. -/
def cuts (cutoff : Option Int) (key : String) : Bool :=
  cutoff.any fun n : Int => (arrayIndex? key).any fun i : Nat => n ≤ i

/-- The slots of an array once its length is in line with a write. -/
def resized (cutoff : Option Int) (length : Option Nat) (t : Table String Property) :
    Table String Property :=
  match length with
  | some n =>
    (t.eraseWhere (cuts cutoff)).modify lengthKey fun p => { p with value := .number (.ofNat n) }
  | none => t.eraseWhere (cuts cutoff)

/-- No cutoff takes the length away. -/
theorem not_cuts_lengthKey (cutoff : Option Int) : cuts cutoff lengthKey = false := by
  rw [cuts, arrayIndex?_lengthKey]
  cases cutoff <;> rfl

/-- A resize drops the keys that are cut and keeps the order of the others. -/
theorem keys_resized (cutoff : Option Int) (length : Option Nat) (t : Table String Property) :
    (resized cutoff length t).keys = t.keys.filter fun key => !cuts cutoff key := by
  cases length <;> simp [resized]

/-- A resize without a new length takes away the cut slots only. -/
theorem find?_resized (cutoff : Option Int) (t : Table String Property) (key : String) :
    (resized cutoff none t).find? key = if cuts cutoff key then none else t.find? key :=
  t.find?_eraseWhere (cuts cutoff) key

/-- A new length changes the value of the length slot. -/
theorem find?_resized_some (cutoff : Option Int) (n : Nat) (t : Table String Property)
    (key : String) :
    (resized cutoff (some n) t).find? key =
      if key = lengthKey then (t.find? key).map fun p => { p with value := .number (.ofNat n) }
      else if cuts cutoff key then none else t.find? key := by
  rw [resized, Table.find?_modify, Table.find?_eraseWhere]
  split
  · rename_i hkey
    rw [hkey, not_cuts_lengthKey]
    rfl
  · rfl

theorem resized_none (t : Table String Property) : resized none none t = t := by
  show t.eraseWhere (cuts none) = t
  simp [Table.eraseWhere, cuts]

theorem resized_some (n : Nat) : resized none (some n) =
    (·.modify lengthKey fun p => { p with value := .number (.ofNat n) }) := by
  funext t
  rw [resized, show t.eraseWhere (cuts none) = t from resized_none t]

/-- A length truncates when it is whole and below the bound on lengths. -/
theorem truncates_iff {n : Number} :
    truncates n ↔ n.isInteger ∧ 0 ≤ n.toInt ∧ n.toInt < 0xffffffff := by
  rw [truncates, Bool.and_eq_true, Bool.and_eq_true, and_assoc]
  refine and_congr_right fun hn => and_congr ?_ ?_
  · exact Number.ofNat_le_iff hn (by decide)
  · exact Number.lt_ofNat_iff hn (by decide)

/-- The upkeep of a length is a change of the slots. -/
theorem synced_eq (hlength : (m.heap.slot? o lengthKey).isSome) (key : String) :
    m.synced o key = m.reslot o
      (resized (cutoff? key (m.lengthNumber o)) (raised? key (m.lengthNumber o))) := by
  have hsame : m = m.reslot o (resized none none) := by
    rw [show resized none none = id from funext resized_none, reslot_id]
  rw [synced, cutoff?, raised?]
  by_cases hkey : key = lengthKey
  · subst hkey
    rw [if_pos rfl, arrayIndex?_lengthKey]
    by_cases htruncates : truncates (m.lengthNumber o)
    · rw [if_pos htruncates, if_pos ⟨rfl, truncates_iff.mp htruncates⟩]
      refine congrArg (fun p => m.reslot o fun t => t.eraseWhere p) (funext fun key' => ?_)
      cases hi : arrayIndex? key' with
      | none => simp [cuts, hi]
      | some i =>
        have hlt := lt_of_arrayIndex? hi
        have hle := Number.le_ofNat_iff (truncates_iff.mp htruncates).1 (n := i) (by omega)
        rw [cuts, Option.any_some, hi, Option.any_some, Option.any_some, Bool.eq_iff_iff, hle,
          decide_eq_true_iff]
    · rw [if_neg htruncates, if_neg fun h => htruncates (truncates_iff.mpr h.2)]
      exact hsame
  · rw [if_neg hkey, if_neg fun h => hkey h.1]
    cases arrayIndex? key with
    | none => exact hsame
    | some i =>
      dsimp only [Option.bind_some]
      split
      · rw [setLength_eq, if_pos hlength]
        rw [resized_some]
        rfl
      · exact hsame

/-! ## Writes -/

/-- The slot that a write adds. -/
def addedSlot (m : Movie) (o : ObjectId) (key name : String) (v : Value) : Property :=
  m.spelled name (.data v ((((m.heap.find? o key).map Prod.snd).map Property.flags).getD {}))

/-- The slot of a key after a write. -/
def writtenSlot (m : Movie) (o : ObjectId) (key name : String) (v : Value) : Property :=
  match m.heap.slot? o key with
  | some p => { p with value := v }
  | none => m.addedSlot o key name v

/-- The index from which on a write drops elements of an array. -/
def cutoffOf (m : Movie) (o : ObjectId) (key : String) (v : Value) : Option Int :=
  if m.heap.isArray o then cutoff? key (m.settings.numberOf v) else none

/-- The length to which a write raises that of an array. -/
def raiseOf (m : Movie) (o : ObjectId) (key : String) : Option Nat :=
  if m.heap.isArray o then raised? key (m.lengthNumber o) else none

/-- A write is a change of slots: in place where there is one, at the end otherwise. -/
theorem written_eq (m : Movie) (o : ObjectId) (key name : String) (v : Value) :
    m.written o key name v = m.reslot o (if (m.heap.slot? o key).isSome then
      (·.modify key fun p => { p with value := v })
      else (·.insert key (m.addedSlot o key name v))) := by
  rw [written]
  split <;> rfl

/-- After a write the key has the written slot, and no other key has changed. -/
theorem slot?_written (hx : m.heap.get? o = some x) (key key' name : String) (v : Value) :
    (m.written o key name v).heap.slot? o key' =
      if key' = key then some (m.writtenSlot o key name v) else m.heap.slot? o key' := by
  have hold := Heap.slot?_eq hx
  rw [written_eq, slot?_reslot hx, writtenSlot, hold, hold]
  cases hslot : x.properties.find? key with
  | none => exact Table.find?_insert ..
  | some p =>
    refine (Table.find?_modify ..).trans ?_
    split
    · rename_i hkey
      rw [hkey, hslot]
      rfl
    · rfl

/-- A write puts a new key at the end and moves no old one. -/
theorem keysOf_written (hx : m.heap.get? o = some x) (key name : String) (v : Value) :
    (m.written o key name v).heap.keysOf o =
      if key ∈ m.heap.keysOf o then m.heap.keysOf o else m.heap.keysOf o ++ [key] := by
  have hmem : (m.heap.slot? o key).isSome ↔ key ∈ x.properties.keys := by
    rw [Heap.slot?_eq hx]
    exact Table.isSome_find?_iff
  rw [written_eq, keysOf_reslot hx, Heap.keysOf_eq hx]
  by_cases hkey : key ∈ x.properties.keys
  · rw [if_pos (hmem.mpr hkey), if_pos hkey, Table.keys_modify]
  · rw [if_neg fun h => hkey (hmem.mp h), if_neg hkey, Table.keys_insert_of_not_mem hkey]

theorem lengthValue_eq (m : Movie) (a : ObjectId) :
    m.lengthValue a = ((m.heap.slot? a lengthKey).map Property.value).getD .undefined := by
  rw [lengthValue, Heap.own?]
  cases m.heap.slot? a lengthKey with
  | some p => rfl
  | none => rw [if_neg (by decide)]

/-- An added slot holds the value, unwatched, under the name as it was written. -/
theorem addedSlot_plain (m : Movie) (o : ObjectId) (key name : String) (v : Value) :
    (m.addedSlot o key name v).value = v ∧ (m.addedSlot o key name v).watcher = none ∧
      (m.addedSlot o key name v).spelling =
        if m.settings.caseSensitive then none else some name := by
  rw [addedSlot, spelled]
  split <;> exact ⟨rfl, rfl, rfl⟩

theorem value_writtenSlot (m : Movie) (o : ObjectId) (key name : String) (v : Value) :
    (m.writtenSlot o key name v).value = v := by
  rw [writtenSlot]
  split
  · rfl
  · exact (m.addedSlot_plain o key name v).1

/-- A write changes the length of an array when it is the length that is written. -/
theorem lengthValue_written (hx : m.heap.get? o = some x) (key name : String) (v : Value) :
    (m.written o key name v).lengthValue o = if lengthKey = key then v else m.lengthValue o := by
  rw [lengthValue_eq, slot?_written hx]
  split
  · exact m.value_writtenSlot o key name v
  · rw [lengthValue_eq]

/-- What follows a write is a change of the slots that depends on the value and on the length
before. -/
theorem settled_written (hx : m.heap.get? o = some x) (key name : String) (v : Value)
    (hlength : m.heap.isArray o → (m.heap.slot? o lengthKey).isSome) :
    (m.written o key name v).settled o key =
      (m.written o key name v).reslot o (resized (m.cutoffOf o key v) (m.raiseOf o key)) := by
  have harray : (m.written o key name v).heap.isArray o = m.heap.isArray o := by
    rw [written_eq, isArray_reslot]
  rw [settled, harray, cutoffOf, raiseOf]
  split
  · rename_i ho
    have hsome : ((m.written o key name v).heap.slot? o lengthKey).isSome := by
      rw [slot?_written hx]
      split
      · rfl
      · exact hlength ho
    have hnumber : (m.written o key name v).lengthNumber o =
        if lengthKey = key then m.settings.numberOf v else m.lengthNumber o := by
      rw [lengthNumber, lengthValue_written hx, lengthNumber]
      split <;> rfl
    rw [synced_eq hsome, hnumber]
    by_cases hkey : lengthKey = key
    · subst hkey
      rw [if_pos rfl, raised?, raised?, arrayIndex?_lengthKey, Option.bind_none, Option.bind_none]
    · rw [if_neg hkey, cutoff?, cutoff?, if_neg fun h => hkey h.1.symm,
        if_neg fun h => hkey h.1.symm]
  · rw [show resized none none = id from funext resized_none, reslot_id]

/-- A write of a value under a name has led from the one movie to the other. -/
structure Wrote (m m' : Movie) (o : ObjectId) (name : String) (v : Value) : Prop where
  registries : m' = { m with heap := m'.heap }
  others : ∀ p, p ≠ o → m'.heap.get? p = m.heap.get? p
  object : ∀ {x}, m.heap.get? o = some x → ∃ t, m'.heap.get? o = some { x with properties := t }
  prototypes : ∀ p, m'.heap.prototype? p = m.heap.prototype? p
  /-- The keys stay where they are, and one that is new comes last. -/
  keys : m'.heap.keysOf o =
    (if m.normalize name ∈ m.heap.keysOf o then m.heap.keysOf o
      else m.heap.keysOf o ++ [m.normalize name]).filter
        fun key => !cuts (m.cutoffOf o (m.normalize name) v) key
  /-- A slot that was there has the value and is else as before. -/
  kept : ∀ {p}, m.heap.slot? o (m.normalize name) = some p →
    m'.heap.slot? o (m.normalize name) = some { p with value := v }
  /-- A slot that was not there has the attributes of the nearest, or those of plain data. -/
  added : m.heap.slot? o (m.normalize name) = none →
    ∃ p, m'.heap.slot? o (m.normalize name) = some p ∧ p.value = v ∧ p.watcher = none ∧
      p.flags = ((m.find? o name).map Property.flags).getD { data := true } ∧
      p.spelling = if m.settings.caseSensitive then none else some name
  dropped : ∀ {key}, cuts (m.cutoffOf o (m.normalize name) v) key → m'.heap.slot? o key = none
  raised : ∀ {n}, m.raiseOf o (m.normalize name) = some n → m'.heap.slot? o lengthKey =
    (m.heap.slot? o lengthKey).map fun p => { p with value := .number (.ofNat n) }
  unchanged : ∀ {key}, key ≠ m.normalize name →
    ¬ cuts (m.cutoffOf o (m.normalize name) v) key →
    (key = lengthKey → m.raiseOf o (m.normalize name) = none) →
    m'.heap.slot? o key = m.heap.slot? o key

theorem cutoffOf_of_ne (hkey : key ≠ lengthKey) (m : Movie) (o : ObjectId) (v : Value) :
    m.cutoffOf o key v = none := by
  rw [cutoffOf, cutoff?]
  simp [hkey]

theorem ne_lengthKey_of_raiseOf {n : Nat} (hn : m.raiseOf o key = some n) : key ≠ lengthKey := by
  rintro rfl
  rw [raiseOf, raised?, arrayIndex?_lengthKey] at hn
  split at hn <;> cases hn

/-- The slot just written is not among those its write cuts. -/
theorem not_cuts_self (m : Movie) (o : ObjectId) (key : String) (v : Value) :
    cuts (m.cutoffOf o key v) key = false := by
  by_cases hkey : key = lengthKey
  · rw [hkey]
    exact not_cuts_lengthKey _
  · rw [cutoffOf_of_ne hkey]
    rfl

section Settled

variable (hx : m.heap.get? o = some x) (name : String) (v : Value)
  (hlength : m.heap.isArray o → (m.heap.slot? o lengthKey).isSome)
include hx hlength

/-- Where no length is raised, a settled write has its slot and lacks those beyond the new
length. -/
theorem slot?_settled (hraise : m.raiseOf o key = none) (key' : String) :
    ((m.written o key name v).settled o key).heap.slot? o key' =
      if cuts (m.cutoffOf o key v) key' then none
      else if key' = key then some (m.writtenSlot o key name v) else m.heap.slot? o key' := by
  obtain ⟨t, ht⟩ : ∃ t, (m.written o key name v).heap.get? o = some { x with properties := t } :=
    ⟨_, by rw [written_eq, get?_reslot, if_pos rfl, hx]; rfl⟩
  rw [settled_written hx key name v hlength, slot?_reslot ht, hraise, find?_resized,
    ← slot?_written hx key key' name v, Heap.slot?_eq ht]

/-- Where the length is raised, a settled write has its slot and the new length. -/
theorem slot?_settled_raised {n : Nat} (hraise : m.raiseOf o key = some n) (key' : String) :
    ((m.written o key name v).settled o key).heap.slot? o key' =
      if key' = lengthKey then
        (m.heap.slot? o lengthKey).map fun p => { p with value := .number (.ofNat n) }
      else if key' = key then some (m.writtenSlot o key name v) else m.heap.slot? o key' := by
  have hkey := ne_lengthKey_of_raiseOf hraise
  obtain ⟨t, ht⟩ : ∃ t, (m.written o key name v).heap.get? o = some { x with properties := t } :=
    ⟨_, by rw [written_eq, get?_reslot, if_pos rfl, hx]; rfl⟩
  have hslot := slot?_written hx key key' name v
  rw [Heap.slot?_eq ht] at hslot
  dsimp only at hslot
  rw [settled_written hx key name v hlength, slot?_reslot ht, hraise, find?_resized_some, hslot,
    cutoffOf_of_ne hkey]
  by_cases hkey' : key' = lengthKey
  · rw [if_pos hkey', if_pos hkey', hkey', if_neg hkey.symm]
  · rw [if_neg hkey', if_neg hkey']
    rfl

end Settled

end Movie

theorem Property.flags_data {p : Property} (hp : p.isData) (v : Value) :
    (Property.data v p.flags).flags = p.flags := by
  obtain ⟨access, _⟩ := p
  cases access with
  | data => rfl
  | accessor => cases hp

namespace Movie

variable {m : Movie} {o : ObjectId} {x : Object}

/-- An added slot takes the flags of the data slot it shadows. -/
theorem flags_addedSlot {name : String}
    (hfound : ∀ {p}, m.find? o name = some p → p.isData) (v : Value) :
    (m.addedSlot o (m.normalize name) name v).flags =
      ((m.find? o name).map Property.flags).getD { data := true } := by
  have hspelled : ∀ p : Property, (m.spelled name p).flags = p.flags := by
    intro p
    rw [spelled]
    split <;> rfl
  rw [addedSlot, hspelled, ← find?]
  cases hfind : m.find? o name with
  | none => rfl
  | some p => exact Property.flags_data (hfound hfind) v

/-- The movie after a write differs from the one before as a write should. -/
theorem wrote (hx : m.heap.get? o = some x) {name : String}
    (hfound : ∀ {p}, m.find? o name = some p → p.isData) (v : Value)
    (hlength : m.heap.isArray o → (m.heap.slot? o lengthKey).isSome) :
    m.Wrote ((m.written o (m.normalize name) name v).settled o (m.normalize name)) o name v := by
  have hsettled := settled_written hx (m.normalize name) name v hlength
  have hslot : ((m.written o (m.normalize name) name v).settled o (m.normalize name)).heap.slot? o
      (m.normalize name) = some (m.writtenSlot o (m.normalize name) name v) := by
    cases hraise : m.raiseOf o (m.normalize name) with
    | none =>
      rw [slot?_settled hx name v hlength hraise, not_cuts_self, if_neg (by decide), if_pos rfl]
    | some n =>
      rw [slot?_settled_raised hx name v hlength hraise, if_neg (ne_lengthKey_of_raiseOf hraise),
        if_pos rfl]
  obtain ⟨g, hg⟩ : ∃ g, (m.written o (m.normalize name) name v).settled o (m.normalize name) =
      m.reslot o g := by
    rw [hsettled, written_eq, reslot_reslot]
    exact ⟨_, rfl⟩
  constructor
  case registries =>
    rw [hg]
    rfl
  case others =>
    intro p hp
    rw [hg, get?_reslot, if_neg hp]
  case object =>
    intro y hy
    rw [hg, get?_reslot, if_pos rfl, hy]
    exact ⟨_, rfl⟩
  case prototypes =>
    intro p
    rw [hg, prototype?_reslot]
  case keys =>
    obtain ⟨t, ht⟩ : ∃ t, (m.written o (m.normalize name) name v).heap.get? o =
        some { x with properties := t } :=
      ⟨_, by rw [written_eq, get?_reslot, if_pos rfl, hx]; rfl⟩
    rw [hsettled, keysOf_reslot ht, keys_resized, ← keysOf_written hx (m.normalize name) name v,
      Heap.keysOf_eq ht]
  case kept =>
    intro p hp
    rw [hslot, writtenSlot, hp]
  case added =>
    intro hnone
    obtain ⟨hvalue, hwatcher, hspelling⟩ := m.addedSlot_plain o (m.normalize name) name v
    rw [writtenSlot, hnone] at hslot
    exact ⟨_, hslot, hvalue, hwatcher, flags_addedSlot hfound v, hspelling⟩
  case dropped =>
    intro key hcuts
    cases hraise : m.raiseOf o (m.normalize name) with
    | none => rw [slot?_settled hx name v hlength hraise, if_pos hcuts]
    | some n =>
      rw [cutoffOf_of_ne (ne_lengthKey_of_raiseOf hraise)] at hcuts
      cases hcuts
  case raised =>
    intro n hraise
    rw [slot?_settled_raised hx name v hlength hraise, if_pos rfl]
  case unchanged =>
    intro key hne hcuts hkey
    cases hraise : m.raiseOf o (m.normalize name) with
    | none => rw [slot?_settled hx name v hlength hraise, if_neg hcuts, if_neg hne]
    | some n =>
      have hlen : key ≠ lengthKey := fun h => nomatch hraise.symm.trans (hkey h)
      rw [slot?_settled_raised hx name v hlength hraise, if_neg hlen, if_neg hne]

/-- The slot of the key holds the value as data. -/
theorem Wrote.slot {m' : Movie} {name : String} {v : Value} (h : m.Wrote m' o name v)
    (hfound : ∀ {p}, m.find? o name = some p → p.isData) :
    ∃ p, m'.heap.slot? o (m'.normalize name) = some p ∧ p.isData ∧ p.value = v := by
  have hkey : m'.normalize name = m.normalize name := by
    rw [h.registries]
    rfl
  rw [hkey]
  cases hslot : m.heap.slot? o (m.normalize name) with
  | some p =>
    have hp : p.isData := hfound (by rw [find?, Heap.find?_of_slot? hslot]; rfl)
    exact ⟨_, h.kept hslot, hp, rfl⟩
  | none =>
    obtain ⟨p, hp, hvalue, _, hflags, _⟩ := h.added hslot
    refine ⟨p, hp, ?_, hvalue⟩
    show p.flags.data = true
    rw [hflags]
    cases hfind : m.find? o name with
    | none => rfl
    | some q => exact hfound hfind

end Movie

namespace Machine

variable {σ : Type} [Journal σ]

/-- A value that is written is read back, and the write has changed nothing else but what an array
owes to its length: where the nearest slot of the key is plain data that accepts the write and is
not watched, or there is none; where nobody observes the key; where the write is not one that
geometry ignores; and where the length of an array is plain data that holds a primitive value,
also after the write. -/
theorem read_write (machine : Machine σ) {m : Movie} {o : ObjectId} {x : Object} (name : String)
    (v : Value) (hx : m.heap.get? o = some x) (hproto : m.normalize name ≠ Heap.protoKey)
    (hput : m.canPut o name)
    (hfound : ∀ {p}, m.find? o name = some p → p.isData ∧ p.watcher = none)
    (hobservers : m.observers.contains (m.normalize name) = false)
    (hgeometry : ¬ (v.isUndefined ∧ m.normalize name ∈ geometryKeys ∧
      ¬ (m.heap.slot? o (m.normalize name)).any Property.isData))
    (harray : m.heap.isArray o →
      (∃ p, m.heap.slot? o Movie.lengthKey = some p ∧ p.isData ∧ p.value.isObject = false) ∧
      (m.normalize name = Movie.lengthKey → v.isObject = false)) (e : σ) :
    ∃ m' e', machine.write o name v ⟨m, e⟩ = (.ok (), ⟨m', e'⟩) ∧
      (machine.read o name ⟨m', e'⟩).1 = .ok v ∧ m.Wrote m' o name v := by
  have hdata : ∀ {p}, m.find? o name = some p → p.isData := fun hp => (hfound hp).1
  have hlength : m.heap.isArray o → (m.heap.slot? o Movie.lengthKey).isSome := by
    intro ho
    obtain ⟨⟨p, hp, _⟩, _⟩ := harray ho
    rw [hp]
    rfl
  have hwrote := Movie.wrote hx hdata v hlength
  have hwrite : (machine.write o name v).Yields m ()
      ((m.written o (m.normalize name) name v).settled o (m.normalize name)) := by
    refine .movie (machine.writeKey_yields hproto hput (fun hfind => ?_) (fun hv hkey => ?_)
      (fun ho => ?_) hobservers)
    · exact hfound (by rw [Movie.find?, hfind]; rfl)
    · by_contra hnone
      refine hgeometry ⟨hv, List.contains_iff_mem.mp hkey, fun hany => hnone ?_⟩
      exact Option.isSome_of_any hany
    · rw [Movie.written_eq, Movie.isArray_reslot] at ho
      rw [Movie.lengthValue_written hx]
      obtain ⟨⟨p, hp, _, hprimitive⟩, hv⟩ := harray ho
      split
      · rename_i hkey
        exact hv hkey.symm
      · rw [Movie.lengthValue_eq, hp]
        exact hprimitive
  obtain ⟨seen, _, hwrite⟩ := hwrite e
  refine ⟨_, _, hwrite, ?_, hwrote⟩
  obtain ⟨p, hp, hpdata, rfl⟩ := hwrote.slot hdata
  obtain ⟨_, _, hread⟩ := machine.read_yields name (Heap.find?_of_slot? hp) hpdata
    (seen.foldr Journal.record e)
  rw [hread]

/-- A new movie with an array of three elements. -/
def withTriple : ObjectId × Movie := Movie.createArray [.null, .null, .null] (Movie.new {})

theorem read_write_withTriple :
    (withTriple.2.heap.slot? withTriple.1 "2").isSome ∧
    ∃ m' e', ((Host.bare Unit).machine 1).write withTriple.1 "length" (.number 1)
        ⟨withTriple.2, ()⟩ = (.ok (), ⟨m', e'⟩) ∧
      (((Host.bare Unit).machine 1).read withTriple.1 "length" ⟨m', e'⟩).1 = .ok (.number 1) ∧
      m'.heap.slot? withTriple.1 "2" = none := by
  refine ⟨by decide +kernel, ?_⟩
  have hlive : (withTriple.2.heap.get? withTriple.1).isSome := by decide +kernel
  obtain ⟨x, hx⟩ := Option.isSome_iff_exists.mp hlive
  have hplain : (withTriple.2.find? withTriple.1 "length").all
      fun p => p.isData && p.watcher.isNone := by decide +kernel
  have hlength : ∃ p, withTriple.2.heap.slot? withTriple.1 Movie.lengthKey = some p ∧ p.isData ∧
      p.value.isObject = false := by
    have hany : (withTriple.2.heap.slot? withTriple.1 Movie.lengthKey).any
        fun p => p.isData && !p.value.isObject := by decide +kernel
    simpa [Option.any_eq_true] using hany
  obtain ⟨m', e', hwrite, hread, hwrote⟩ := read_write ((Host.bare Unit).machine 1) "length"
    (.number 1) hx (by decide +kernel) (by decide +kernel)
    (fun {p} hp => by simpa [hp] using hplain) (by decide +kernel) (fun h => nomatch h.1)
    (fun _ => ⟨hlength, fun _ => rfl⟩) ()
  exact ⟨m', e', hwrite, hread, hwrote.dropped (by decide +kernel)⟩

end Machine

end ActionScript
