import ActionScript.Proofs.Arena
import ActionScript.Proofs.Write

/-! # Lengths of arrays

The length of an array is an integer of 32 bits above all its indices (`Movie.LengthFits`). A write
that has landed in a slot of an array restores this once the length is in line with it, whether
the slot is an element or the length itself (`Tended.landed`). -/

namespace ActionScript

/-! ## Tables -/

/-- The integers that lengths are. -/
structure Number.IsLength (x : Number) : Prop where
  integer : x.isInteger
  nonneg : 0 ≤ x.toInt
  le : x.toInt ≤ 0xffffffff

theorem Number.IsLength.toUInt32 {x : Number} (h : x.IsLength) : (x.toUInt32 : Int) = x.toInt := by
  have hnonneg := h.nonneg
  have hle := h.le
  rw [Number.toUInt32_eq]
  omega

/-- Every word is a length. -/
theorem Number.isLength_ofNat {n : Nat} (hn : n ≤ 0xffffffff) : (Number.ofNat n).IsLength := by
  have hint : (Number.ofNat n).toInt = n := Number.toInt_ofNat (by omega)
  refine ⟨Number.isInteger_ofNat (by omega), ?_, ?_⟩
  · rw [hint]
    omega
  · rw [hint]
    omega

/-- A slot that holds a length: plain data that can be written and not deleted. -/
structure Property.HoldsLength (p : Property) (x : Number) : Prop where
  access : p.access = .data false
  watcher : p.watcher = none
  dontDelete : p.dontDelete = true
  value : p.value = .number x

theorem Property.HoldsLength.isData {p : Property} {x : Number} (h : p.HoldsLength x) :
    p.isData := by
  rw [Property.isData, h.access]

theorem Property.HoldsLength.withValue {p : Property} {x : Number} (h : p.HoldsLength x)
    (y : Number) : Property.HoldsLength { p with value := .number y } y :=
  ⟨h.access, h.watcher, h.dontDelete, rfl⟩

namespace Table

/-- The slots of an array with its length. -/
structure LengthFits (t : Table String Property) (x : Number) : Prop where
  isLength : x.IsLength
  slot : ∃ p, t.find? Movie.lengthKey = some p ∧ p.HoldsLength x
  above : ∀ {key i}, (t.find? key).isSome → arrayIndex? key = some i → (i : Int) < x.toInt

namespace LengthFits

variable {t t' : Table String Property} {x y : Number} {key : String} {p : Property}

/-- Slots may go and change, but for the length. -/
theorem of_find? (h : t.LengthFits x)
    (hlength : t'.find? Movie.lengthKey = t.find? Movie.lengthKey)
    (hkeys : ∀ key, (t'.find? key).isSome → (t.find? key).isSome) : t'.LengthFits x where
  isLength := h.isLength
  slot := hlength ▸ h.slot
  above hkey hi := h.above (hkeys _ hkey) hi

/-- Erasing a slot other than the length keeps the indices below it. -/
theorem erase (h : t.LengthFits x) (hkey : key ≠ Movie.lengthKey) : (t.erase key).LengthFits x := by
  refine h.of_find? ?_ fun key' hkey' => ?_
  · rw [find?_erase, if_neg hkey.symm]
  · rw [find?_erase] at hkey'
    split at hkey'
    · cases hkey'
    · exact hkey'

/-- Changing a slot other than the length in place keeps the indices below it. -/
theorem modify (h : t.LengthFits x) (hkey : key ≠ Movie.lengthKey) (f : Property → Property) :
    (t.modify key f).LengthFits x := by
  refine h.of_find? ?_ fun key' hkey' => ?_
  · rw [find?_modify, if_neg hkey.symm]
  · rw [find?_modify] at hkey'
    split at hkey'
    · simpa using hkey'
    · exact hkey'

/-- So does inserting one that was there or is no index. -/
theorem insert (h : t.LengthFits x) (hkey : key ≠ Movie.lengthKey)
    (hindex : (t.find? key).isSome ∨ arrayIndex? key = none) : (t.insert key p).LengthFits x := by
  obtain ⟨q, hq, hlength⟩ := h.slot
  refine ⟨h.isLength, ⟨q, ?_, hlength⟩, fun {key' i} hkey' hi => ?_⟩
  · rw [find?_insert, if_neg hkey.symm, hq]
  · rw [find?_insert] at hkey'
    split at hkey'
    · rename_i heq
      subst heq
      rcases hindex with hsome | hnone
      · exact h.above hsome hi
      · cases hnone.symm.trans hi
    · exact h.above hkey' hi

/-- A new length drops the elements that are not below it. At the greatest length there are
none. -/
theorem resize_length (hy : y.IsLength) (hp : p.HoldsLength y)
    (hfind : t'.find? Movie.lengthKey = some p) :
    (Movie.resized (Movie.cutoff? Movie.lengthKey y) (Movie.raised? Movie.lengthKey y)
      t').LengthFits y := by
  have hraised : Movie.raised? Movie.lengthKey y = none := by
    rw [Movie.raised?, arrayIndex?_lengthKey]
    rfl
  rw [hraised]
  refine ⟨hy, ⟨p, ?_, hp⟩, fun {key i} hkey hi => ?_⟩
  · rw [Movie.find?_resized, Movie.not_cuts_lengthKey]
    exact hfind
  · have hlt := lt_of_arrayIndex? hi
    rw [Movie.find?_resized] at hkey
    by_cases hfull : y.toInt < 0xffffffff
    · have hcutoff : Movie.cutoff? Movie.lengthKey y = some y.toInt :=
        if_pos ⟨rfl, hy.integer, hy.nonneg, hfull⟩
      rw [hcutoff, Movie.cuts, Option.any_some, hi, Option.any_some] at hkey
      split at hkey
      · cases hkey
      · rename_i hcut
        simpa using hcut
    · omega

/-- A new element raises a length that is not above it. -/
theorem resize_element (h : t.LengthFits x) (hkey : key ≠ Movie.lengthKey)
    (hfind : ∀ key', t'.find? key' = if key' = key then some p else t.find? key') :
    ∃ y, (Movie.resized (Movie.cutoff? key x) (Movie.raised? key x) t').LengthFits y := by
  have hcutoff : Movie.cutoff? key x = none := if_neg fun hlength => hkey hlength.1
  obtain ⟨q, hq, hlength⟩ := h.slot
  have hold : t'.find? Movie.lengthKey = some q := by rw [hfind, if_neg hkey.symm, hq]
  have hindex : ∀ {key' i}, (t'.find? key').isSome → arrayIndex? key' = some i →
      (i : Int) < x.toInt ∨ arrayIndex? key = some i := by
    intro key' i hkey' hi
    rw [hfind] at hkey'
    split at hkey'
    · rename_i heq
      exact .inr (heq ▸ hi)
    · exact .inl (h.above hkey' hi)
  rw [hcutoff]
  cases hi : arrayIndex? key with
  | none =>
    have hraised : Movie.raised? key x = none := by
      rw [Movie.raised?, hi]
      rfl
    rw [hraised, Movie.resized_none]
    refine ⟨x, h.isLength, ⟨q, hold, hlength⟩, fun hkey' hj => ?_⟩
    rcases hindex hkey' hj with hlt | heq
    · exact hlt
    · cases hi.symm.trans heq
  | some i =>
    have hbound := lt_of_arrayIndex? hi
    have hword := h.isLength.toUInt32
    by_cases hle : x.toUInt32 ≤ i
    · have hraised : Movie.raised? key x = some (i + 1) := by
        rw [Movie.raised?, hi]
        exact if_pos hle
      have hnew : (Number.ofNat (i + 1)).toInt = (i + 1 : Nat) := Number.toInt_ofNat (by omega)
      rw [hraised]
      refine ⟨.ofNat (i + 1), Number.isLength_ofNat (by omega), ⟨_, ?_, hlength.withValue _⟩,
        fun {key' j} hkey' hj => ?_⟩
      · rw [Movie.find?_resized_some, if_pos rfl, hold]
        rfl
      · rw [Movie.find?_resized_some] at hkey'
        have hsome : (t'.find? key').isSome := by
          split at hkey'
          · simpa using hkey'
          · exact hkey'
        rw [hnew]
        rcases hindex hsome hj with hlt | heq
        · omega
        · cases hi.symm.trans heq
          omega
    · have hraised : Movie.raised? key x = none := by
        rw [Movie.raised?, hi]
        exact if_neg hle
      rw [hraised, Movie.resized_none]
      refine ⟨x, h.isLength, ⟨q, hold, hlength⟩, fun hkey' hj => ?_⟩
      rcases hindex hkey' hj with hlt | heq
      · exact hlt
      · cases hi.symm.trans heq
        omega

end LengthFits

end Table

/-! ## Movies -/

/-- The own length of an object is an integer of 32 bits above all indices among its own keys. -/
def Movie.LengthFits (m : Movie) (a : ObjectId) : Prop :=
  ∃ p x, m.heap.slot? a Movie.lengthKey = some p ∧ p.isData ∧ p.value = .number x ∧ x.IsLength ∧
    ∀ {key i}, (m.heap.slot? a key).isSome → arrayIndex? key = some i → (i : Int) < x.toInt

/-- The functions that a slot calls when it is read or written. -/
def Property.callbacks (p : Property) : List ObjectId :=
  p.getter.toList ++ p.setter.toList ++ (p.watcher.map Watcher.callback).toList

theorem Property.getter_mem_callbacks {p : Property} {f : ObjectId} (h : p.getter = some f) :
    f ∈ p.callbacks := by
  simp [callbacks, h]

theorem Property.setter_mem_callbacks {p : Property} {f : ObjectId} (h : p.setter = some f) :
    f ∈ p.callbacks := by
  simp [callbacks, h]

theorem Property.watcher_mem_callbacks {p : Property} {w : Watcher} (h : p.watcher = some w) :
    w.callback ∈ p.callbacks := by
  simp [callbacks, h]

/-- The built-in routine that a function runs. -/
def Callable.routine? : Callable → Option Builtin
  | .native _ (.builtin routine) _ => some routine
  | .eval _ (.builtin routine) => some routine
  | _ => none

/-- An array, and what may take part in reads and writes of it. -/
structure Tending where
  array : ObjectId
  /-- The objects that the array may inherit from, and the array. -/
  family : ObjectId → Bool
  own : family array = true
  /-- The functions that slots of the family may call. -/
  functions : ObjectId → Bool
  /-- Whether `push` may be among them. -/
  pushes : Bool

namespace Tending

/-- A slot may call functions of the embedder and of scripts, and of the built-in ones `pop` and,
if so agreed, `push`. -/
def admits (t : Tending) (h : Heap) (f : ObjectId) : Bool :=
  ((h.callable? f).bind Callable.routine?).all fun routine =>
    routine = .array .pop || (routine = .array .push && t.pushes)

/-- The slots of a table only call what they may. -/
def Clear (t : Tending) (table : Table String Property) : Prop :=
  ∀ key p, table.find? key = some p → ∀ f ∈ p.callbacks, t.functions f

/-- A movie in which the family inherits only from itself, and its slots only call what they
may. -/
structure Guarded (t : Tending) (m : Movie) : Prop where
  functions : ∀ {f}, t.functions f → t.admits m.heap f
  kin : ∀ {o p}, t.family o → m.heap.prototype? o = some p → t.family p
  clear : ∀ {o object}, t.family o → m.heap.get? o = some object → t.Clear object.properties

/-- A movie in which the array is in order. -/
structure Tended (t : Tending) (m : Movie) : Prop extends t.Guarded m where
  array : m.heap.isArray t.array
  length : ∃ object x, m.heap.get? t.array = some object ∧ object.properties.LengthFits x

/-- The array is in order once a write under a key is complete. -/
def Lands (t : Tending) (key : String) (m : Movie) : Prop :=
  (m.lengthValue t.array).isObject = false ∧ t.Tended (m.settled t.array key)

variable {t : Tending} {m : Movie} {o : ObjectId} {object : Object}
  {g : Table String Property → Table String Property} {table table' : Table String Property}
  {key : String} {p : Property}

/-- The length of a tended array is above its indices. -/
theorem Tended.lengthFits (h : t.Tended m) : m.LengthFits t.array := by
  obtain ⟨object, x, hobject, hx, ⟨p, hp, hlength⟩, habove⟩ := h.length
  have hslot := Heap.slot?_eq hobject
  refine ⟨p, x, (hslot _).trans hp, hlength.isData, hlength.value, hx, fun hkey hi => habove ?_ hi⟩
  rwa [hslot] at hkey

/-- The array stays in order if slots change and still call only what they may. -/
theorem Tended.reslot (h : t.Tended m)
    (hclear : ∀ {object}, m.heap.get? o = some object → t.Clear object.properties →
      t.Clear (g object.properties))
    (hlength : ∀ {object x}, m.heap.get? o = some object → o = t.array →
      object.properties.LengthFits x → ∃ y, (g object.properties).LengthFits y) :
    t.Tended (m.reslot o g) := by
  refine ⟨⟨?functions, ?kin, ?clear⟩, ?array, ?length⟩
  case array =>
    rw [Movie.isArray_reslot]
    exact h.array
  case functions =>
    intro f hf
    rw [admits, Movie.callable?_reslot]
    exact h.functions hf
  case kin =>
    intro q r hq hr
    rw [Movie.prototype?_reslot] at hr
    exact h.kin hq hr
  case clear =>
    intro q x hq hx
    rw [Movie.get?_reslot] at hx
    split at hx
    · rename_i heq
      subst heq
      obtain ⟨object, hobject, rfl⟩ := Option.map_eq_some_iff.mp hx
      exact hclear hobject (h.clear hq hobject)
    · exact h.clear hq hx
  case length =>
    rw [Movie.get?_reslot]
    split
    · rename_i heq
      subst heq
      obtain ⟨object, x, hobject, hfits⟩ := h.length
      obtain ⟨y, hy⟩ := hlength hobject rfl hfits
      rw [hobject]
      exact ⟨_, y, rfl, hy⟩
    · exact h.length

/-! ## Tables that call what they may -/

/-- A table that has only callbacks of a clear one is clear. -/
theorem Clear.of_find? (h : t.Clear table)
    (hfind : ∀ {key p}, table'.find? key = some p →
      ∃ q, table.find? key = some q ∧ p.callbacks = q.callbacks) :
    t.Clear table' := by
  intro key p hp f hf
  obtain ⟨q, hq, hsame⟩ := hfind hp
  exact h key q hq f (hsame ▸ hf)

theorem Clear.erase (h : t.Clear table) (key : String) :
    t.Clear (table.erase key) := by
  refine h.of_find? fun {key' p} hp => ⟨p, ?_, rfl⟩
  rw [Table.find?_erase] at hp
  split at hp
  · cases hp
  · exact hp

theorem Clear.modify (h : t.Clear table) (key : String) {f : Property → Property}
    (hf : ∀ p, (f p).callbacks = p.callbacks) : t.Clear (table.modify key f) := by
  refine h.of_find? fun {key' p} hp => ?_
  rw [Table.find?_modify] at hp
  split at hp
  · obtain ⟨q, hq, rfl⟩ := Option.map_eq_some_iff.mp hp
    exact ⟨q, hq, hf q⟩
  · exact ⟨p, hp, rfl⟩

theorem Clear.resized (h : t.Clear table) (cutoff : Option Int) (length : Option Nat) :
    t.Clear (Movie.resized cutoff length table) := by
  have hcut : t.Clear (table.eraseWhere (Movie.cuts cutoff)) := by
    refine h.of_find? fun {key' p} hp => ⟨p, ?_, rfl⟩
    rw [Table.find?_eraseWhere] at hp
    split at hp
    · cases hp
    · exact hp
  cases length with
  | none => exact hcut
  | some n => exact hcut.modify _ fun _ => rfl

/-! ## Writes -/

/-- A write that has landed in a slot leaves the array in order once its length is in line: an
element raises the length, and a length drops elements. -/
theorem Tended.landed (h : t.Tended m) (hobject : m.heap.get? t.array = some object)
    (hfind : ∀ key', (g object.properties).find? key' =
      if key' = key then some p else object.properties.find? key')
    (hclear : ∀ f ∈ p.callbacks, t.functions f)
    (hvalue : key = Movie.lengthKey → ∃ y, p.HoldsLength y ∧ y.IsLength) :
    t.Lands key (m.reslot t.array g) := by
  obtain ⟨_, x, hget, hfits⟩ := h.length
  cases hobject.symm.trans hget
  have hslot : ∀ key', (m.reslot t.array g).heap.slot? t.array key' =
      if key' = key then some p else object.properties.find? key' := by
    intro key'
    rw [Movie.slot?_reslot hobject, hfind]
  obtain ⟨q, hq, hqlength⟩ := hfits.slot
  obtain ⟨y, hy, hysome⟩ : ∃ y, (m.reslot t.array g).lengthValue t.array = .number y ∧
      ∃ z, (Movie.resized (Movie.cutoff? key y) (Movie.raised? key y)
        (g object.properties)).LengthFits z := by
    rw [Movie.lengthValue_eq, hslot]
    by_cases hkey : key = Movie.lengthKey
    · obtain ⟨y, hp, hy⟩ := hvalue hkey
      subst hkey
      refine ⟨y, ?_, y, .resize_length hy hp (by rw [hfind, if_pos rfl])⟩
      rw [if_pos rfl]
      exact hp.value
    · refine ⟨x, ?_, hfits.resize_element hkey hfind⟩
      rw [if_neg (Ne.symm hkey), hq]
      exact hqlength.value
  refine ⟨by rw [hy]; rfl, ?_⟩
  have harray : (m.reslot t.array g).heap.isArray t.array := by
    rw [Movie.isArray_reslot]
    exact h.array
  have hsome : ((m.reslot t.array g).heap.slot? t.array Movie.lengthKey).isSome := by
    rw [hslot]
    split
    · rfl
    · rw [hq]
      rfl
  have hnumber : (m.reslot t.array g).lengthNumber t.array = y := by
    rw [Movie.lengthNumber, hy]
    rfl
  rw [Movie.settled, if_pos harray, Movie.synced_eq hsome, hnumber, Movie.reslot_reslot]
  refine h.reslot (fun hx hold => Clear.resized ?_ _ _) fun hx _ _ => ?_
  · cases hobject.symm.trans hx
    intro key' q' hq'
    rw [hfind] at hq'
    split at hq'
    · cases hq'
      exact hclear
    · exact hold key' q' hq'
  · cases hobject.symm.trans hx
    exact hysome

theorem Tended.slot? (h : t.Tended m) : ∃ object, m.heap.get? t.array = some object ∧
    ∀ key, m.heap.slot? t.array key = object.properties.find? key := by
  obtain ⟨object, _, hobject, _⟩ := h.length
  exact ⟨object, hobject, Heap.slot?_eq hobject⟩

/-- The slot of the length. -/
theorem Tended.lengthSlot (h : t.Tended m) : ∃ p x, m.heap.slot? t.array Movie.lengthKey = some p ∧
    p.HoldsLength x ∧ x.IsLength := by
  obtain ⟨object, x, hobject, hfits⟩ := h.length
  obtain ⟨p, hp, hlength⟩ := hfits.slot
  exact ⟨p, x, (Heap.slot?_eq hobject _).trans hp, hlength, hfits.isLength⟩

/-- Overwriting a slot lands in a tended movie, if a length is overwritten by one. -/
theorem Tended.overwrite (h : t.Tended m) (hp : m.heap.slot? t.array key = some p) {v : Value}
    (hv : key = Movie.lengthKey → ∃ y, v = .number y ∧ y.IsLength) :
    t.Lands key
      (Movie.modifyHeap (·.modifySlot t.array key fun p => { p with value := v }) m).2 := by
  obtain ⟨object, hobject, hslot⟩ := h.slot?
  rw [hslot] at hp
  refine h.landed (g := (·.modify key fun p => { p with value := v })) (p := { p with value := v })
    hobject (fun key' => ?_) (h.clear t.own hobject key p hp) fun hkey => ?_
  · rw [Table.find?_modify]
    split
    · rename_i heq
      rw [heq, hp]
      rfl
    · rfl
  · obtain ⟨y, rfl, hy⟩ := hv hkey
    obtain ⟨q, x, hq, hlength, _⟩ := h.lengthSlot
    rw [hslot, ← hkey, hp] at hq
    cases hq
    exact ⟨y, hlength.withValue y, hy⟩

/-- Storing a slot lands in a movie that is tended once its length is raised. -/
theorem Tended.store (h : t.Tended m) (hkey : key ≠ Movie.lengthKey) (name : String) (v : Value)
    (flags : Flags) :
    t.Lands key (Movie.storeAs t.array key name (.data v flags) m).2 := by
  obtain ⟨object, hobject, _⟩ := h.slot?
  refine h.landed (g := (·.insert key (m.spelled name (.data v flags)))) hobject
    (object.properties.find?_insert key · _) (fun f hf => ?_) fun heq => (hkey heq).elim
  have hnone : (m.spelled name (.data v flags)).callbacks = [] := by
    rw [Movie.spelled]
    split <;> rfl
  rw [hnone] at hf
  cases hf

/-- Removing a slot other than the length keeps the array tended. -/
theorem Tended.remove (h : t.Tended m) (hkey : key ≠ Movie.lengthKey) :
    t.Tended (Movie.modifyHeap (·.remove t.array key) m).2 := by
  exact h.reslot (g := (·.erase key)) (fun _ hclear => hclear.erase key)
    fun _ _ hfits => ⟨_, hfits.erase hkey⟩

/-- The array may be linked to an object of its family. -/
theorem Tended.setPrototype (h : t.Tended m) {prototype : Option ObjectId}
    (hprototype : ∀ p ∈ prototype, t.family p) :
    t.Tended (Movie.setPrototype t.array prototype m).2 := by
  have hheap : (Movie.setPrototype t.array prototype m).2.heap =
      (m.heap.setPrototype t.array prototype).2 := rfl
  obtain ⟨object, x, hobject, hfits⟩ := h.length
  rw [Heap.setPrototype] at hheap
  split at hheap
  · have hsame : (Movie.setPrototype t.array prototype m).2 = m := by
      show { m with heap := (m.heap.setPrototype t.array prototype).2 } = m
      rw [show (m.heap.setPrototype t.array prototype).2 = m.heap from hheap]
    rw [hsame]
    exact h
  · have hget : ∀ o, (Movie.setPrototype t.array prototype m).2.heap.get? o =
        if o = t.array then some { object with prototype } else m.heap.get? o := by
      intro o
      rw [hheap, Heap.get?_modify]
      split
      · rename_i heq
        rw [heq, hobject]
        rfl
      · rfl
    have hcallable : ∀ f, (Movie.setPrototype t.array prototype m).2.heap.callable? f =
        m.heap.callable? f := by
      intro f
      rw [Heap.callable?, Heap.callable?, hget]
      split
      · rename_i heq
        rw [heq, hobject]
        rfl
      · rfl
    refine ⟨⟨?functions, ?kin, ?clear⟩, ?array, ?length⟩
    case array =>
      have harray := h.array
      rw [Heap.isArray, hobject] at harray
      rw [Heap.isArray, hget, if_pos rfl]
      exact harray
    case functions =>
      intro f hf
      rw [admits, hcallable]
      exact h.functions hf
    case kin =>
      intro o p ho hp
      rw [Heap.prototype?, hget] at hp
      split at hp
      · exact hprototype p hp
      · exact h.kin ho hp
    case clear =>
      intro o y ho hy
      rw [hget] at hy
      split at hy
      · cases hy
        exact fun key p hp => h.clear t.own hobject key p hp
      · exact h.clear ho hy
    case length =>
      refine ⟨{ object with prototype }, x, ?_, hfits⟩
      rw [hget, if_pos rfl]

/-- A watcher is set on the slot where the chain has it. -/
theorem setWatcher_eq (m : Movie) (o : ObjectId) (name : String) (watcher : Option Watcher) :
    (Movie.setWatcher o name watcher m).2 = (m.heap.find? o (m.normalize name)).elim m fun found =>
      m.reslot found.1 (·.modify (m.normalize name) fun p => { p with watcher }) := by
  have hget : ∀ f : Movie → Edit Bool, (get >>= f) m = f m m := fun _ => rfl
  rw [Movie.setWatcher, hget]
  cases m.heap.find? o (m.normalize name) <;> rfl

/-- A change of slots that keeps the length and the functions that are called, or calls others
that may be called. -/
theorem Tended.modifySlot (h : t.Tended m) (hkey : o = t.array → key ≠ Movie.lengthKey)
    {f : Property → Property}
    (hf : ∀ p, (∀ c ∈ p.callbacks, t.functions c) → ∀ c ∈ (f p).callbacks, t.functions c) :
    t.Tended (m.reslot o (·.modify key f)) := by
  refine h.reslot (fun _ hclear key' p hp => ?_) fun _ ho hfits => ⟨_, hfits.modify (hkey ho) f⟩
  rw [Table.find?_modify] at hp
  split at hp
  · obtain ⟨q, hq, rfl⟩ := Option.map_eq_some_iff.mp hp
    exact hf q (hclear key' q hq)
  · exact hclear key' p hp

/-- A slot may be put in place of another, and under a key that is no index. -/
theorem Tended.define (h : t.Tended m) {name : String}
    (hkey : o = t.array → m.normalize name ≠ Movie.lengthKey ∧
      ((m.heap.slot? o (m.normalize name)).isSome ∨ arrayIndex? (m.normalize name) = none))
    (hp : ∀ f ∈ p.callbacks, t.functions f) : t.Tended (Movie.define o name p m).2 := by
  refine h.reslot (g := (·.insert (m.normalize name) (m.spelled name p)))
    (fun _ hclear key q hq => ?_) fun {object x} hobject ho hfits => ⟨x, ?_⟩
  · rw [Table.find?_insert] at hq
    split at hq
    · cases hq
      have hsame : (m.spelled name p).callbacks = p.callbacks := by
        rw [Movie.spelled]
        split <;> rfl
      rwa [hsame]
    · exact hclear key q hq
  · obtain ⟨hlength, hindex⟩ := hkey ho
    rw [Heap.slot?_eq hobject] at hindex
    exact hfits.insert hlength hindex

/-- Any slot but the length may be watched by a function that may be called. -/
theorem Tended.setWatcher (h : t.Tended m) {name : String}
    (hkey : m.normalize name ≠ Movie.lengthKey) {watcher : Option Watcher}
    (hwatcher : ∀ w ∈ watcher, t.functions w.callback) :
    t.Tended (Movie.setWatcher o name watcher m).2 := by
  rw [setWatcher_eq]
  cases m.heap.find? o (m.normalize name) with
  | none => exact h
  | some found =>
    refine h.modifySlot (fun _ => hkey) fun p hp c hc => ?_
    simp only [Property.callbacks, List.mem_append, Option.mem_toList, Option.map_eq_some_iff,
      Property.getter, Property.setter] at hp hc
    rcases hc with hc | ⟨w, hw, rfl⟩
    · exact hp c (.inl hc)
    · exact hwatcher w hw

theorem callbacks_adjust (p : Property) (set clear : Flags) :
    (p.adjust set clear).callbacks = p.callbacks := by
  obtain ⟨access, _⟩ := p
  cases access <;> rfl

/-- A change of flags keeps the array tended unless it is that of its length. -/
theorem Tended.adjustSlots (h : t.Tended m) (set clear : Flags) (keys : List String)
    (hkeys : o = t.array → Movie.lengthKey ∉ keys) :
    t.Tended { m with heap := (keys.foldl (fun h key =>
      h.modifySlot o key (·.adjust set clear)) m.heap) } := by
  induction keys generalizing m with
  | nil => exact h
  | cons key keys ih =>
    have hadjusted : t.Tended (m.reslot o (·.modify key (·.adjust set clear))) := by
      refine h.modifySlot (fun ho heq => hkeys ho (heq ▸ List.mem_cons_self)) fun p hp => ?_
      rwa [callbacks_adjust]
    exact ih hadjusted fun ho hmem => hkeys ho (List.mem_cons_of_mem _ hmem)

/-- The attributes of any slot but the length may change. -/
theorem Tended.setFlags (h : t.Tended m) {names : Option (List String)} (set clear : Flags)
    (hnames : o = t.array → ∃ ns, names = some ns ∧ Movie.lengthKey ∉ ns.map m.normalize) :
    t.Tended (Movie.setFlags o names set clear m).2 := by
  refine h.adjustSlots set clear _ fun ho => ?_
  obtain ⟨ns, rfl, hns⟩ := hnames ho
  exact hns

/-! ## Lookups -/

/-- The family of a tended array is closed under chains. -/
theorem Tended.family_of_mem_chain (h : t.Tended m) {n : Nat} {o p : ObjectId} (ho : t.family o)
    (hp : p ∈ m.heap.chainUpTo n o) : t.family p := by
  induction n generalizing o with
  | zero => cases hp
  | succ n ih =>
    rw [Heap.chainUpTo, List.mem_cons] at hp
    rcases hp with rfl | hp
    · exact ho
    · cases hlink : m.heap.prototype? o with
      | none =>
        rw [hlink] at hp
        cases hp
      | some q =>
        rw [hlink] at hp
        exact ih (h.kin ho hlink) hp

/-- What a lookup on the array finds only calls what it may. -/
theorem Tended.find? (h : t.Tended m) {owner : ObjectId}
    (hfind : m.heap.find? t.array key = some (owner, p)) :
    ∀ f ∈ p.callbacks, t.functions f := by
  obtain ⟨o, ho, hown⟩ := List.exists_of_findSome?_eq_some hfind
  obtain ⟨q, hq, heq⟩ := Option.map_eq_some_iff.mp hown
  cases heq
  have hfamily := h.family_of_mem_chain t.own ho
  rw [Heap.own?] at hq
  split at hq
  · rename_i q' hslot
    cases hq
    rw [Heap.slot?, Option.bind_eq_some_iff] at hslot
    obtain ⟨x, hx, hp⟩ := hslot
    exact h.clear hfamily hx key p hp
  · split at hq
    · obtain ⟨r, _, rfl⟩ := Option.map_eq_some_iff.mp hq
      intro f hf
      cases hf
    · cases hq

end Tending

/-! ## Creation -/

namespace Movie

/-- The slots of a new array are those of its indices. -/
theorem isSome_find?_elementSlots {elements : List Value} {key : String}
    (h : ((elementSlots elements).find? key).isSome) :
    ∃ i, i < elements.length ∧ key = indexKey i := by
  rw [Table.isSome_find?_iff] at h
  obtain ⟨e, he, rfl⟩ := List.mem_map.mp h
  obtain ⟨⟨v, i⟩, hv, rfl⟩ := List.mem_map.mp he
  have hlt := List.snd_lt_of_mem_zipIdx hv
  exact ⟨i, by simpa using hlt, rfl⟩

/-- One element more is a slot more, which comes last. -/
theorem elementSlots_concat (elements : List Value) (v : Value) :
    elementSlots (elements ++ [v]) =
      (elementSlots elements).insert (indexKey elements.length) (.data v {}) := by
  have hfresh : indexKey elements.length ∉ (elementSlots elements).keys := by
    intro hmem
    obtain ⟨i, hi, heq⟩ := isSome_find?_elementSlots (Table.isSome_find?_iff.mpr hmem)
    rw [indexKey_inj heq] at hi
    exact Nat.lt_irrefl i hi
  rw [Table.insert, dif_neg hfresh]
  refine Table.eq_of_entries ?_
  show List.map _ (elements ++ [v]).zipIdx = List.map _ elements.zipIdx ++ _
  rw [List.zipIdx_append, List.map_append, Nat.zero_add]
  rfl

theorem find?_elementSlots_lengthKey (elements : List Value) :
    (elementSlots elements).find? lengthKey = none := by
  rw [← Option.not_isSome_iff_eq_none]
  intro h
  obtain ⟨i, _, hi⟩ := isSome_find?_elementSlots h
  exact indexKey_ne_lengthKey i hi.symm

/-- The slots of a new array. -/
theorem lengthFits_elementSlots {elements : List Value} (hsize : elements.length ≤ 0xffffffff)
    {p : Property} (hp : p.HoldsLength (.ofNat elements.length)) :
    ((elementSlots elements).insert lengthKey p).LengthFits (.ofNat elements.length) := by
  refine ⟨Number.isLength_ofNat hsize, ⟨p, ?_, hp⟩, fun {key i} hkey hi => ?_⟩
  · rw [Table.find?_insert, if_pos rfl]
  · rw [Table.find?_insert] at hkey
    split at hkey
    · rename_i heq
      rw [heq, arrayIndex?_lengthKey] at hi
      cases hi
    · obtain ⟨j, hj, rfl⟩ := isSome_find?_elementSlots hkey
      have hij := eq_of_arrayIndex?_indexKey hi
      rw [Number.toInt_ofNat (by omega)]
      omega

/-- An object is an array in order. -/
def HasArray (m : Movie) (a : ObjectId) (x : Number) : Prop :=
  ∃ object, m.heap.get? a = some object ∧ object.kind = .array ∧ object.properties.LengthFits x

theorem setLength_of_none {m : Movie} {a : ObjectId} (hnone : m.heap.slot? a lengthKey = none)
    (n : Nat) : (setLength a n m).2 = m.reslot a
      (·.insert lengthKey (m.spelled lengthKey (.data (.number (.ofNat n)) .permanent))) := by
  have hdefine : ∀ p, (define a lengthKey p m).2 =
      m.reslot a (·.insert (m.normalize lengthKey) (m.spelled lengthKey p)) := fun _ => rfl
  rw [setLength_eq, hnone, Option.isSome_none, if_neg Bool.false_ne_true, hdefine,
    normalize_lengthKey]

/-- The object of a new array, before it has a length. -/
def freshArray (m : Movie) (elements : List Value) : Object where
  properties := elementSlots elements
  prototype := some m.intrinsics.arrayPrototype
  kind := .array

/-- A new array is allocated with its elements, then given its length. -/
theorem createArray_eq (m : Movie) (elements : List Value) : createArray elements m =
    ((m.heap.allocate (m.freshArray elements)).1,
      (setLength (m.heap.allocate (m.freshArray elements)).1 elements.length
        { m with heap := (m.heap.allocate (m.freshArray elements)).2 }).2) := rfl

/-- A new array has the length of its elements. -/
theorem hasArray_createArray {m : Movie} (ha : m.heap.Arena) {elements : List Value}
    (hsize : elements.length ≤ 0xffffffff) :
    (createArray elements m).2.HasArray (createArray elements m).1 (.ofNat elements.length) := by
  have hget := (ha.get?_allocate (m.freshArray elements) _).trans (if_pos rfl)
  rw [createArray_eq]
  dsimp only
  generalize (m.heap.allocate (m.freshArray elements)).1 = a at hget ⊢
  have hnone : (m.heap.allocate (m.freshArray elements)).2.slot? a lengthKey = none := by
    rw [Heap.slot?_eq hget]
    exact find?_elementSlots_lengthKey elements
  rw [setLength_of_none hnone, HasArray, get?_reslot, if_pos rfl, hget]
  refine ⟨_, rfl, rfl, lengthFits_elementSlots hsize ?_⟩
  rw [spelled]
  split <;> exact ⟨rfl, rfl, rfl, rfl⟩

/-- An array without elements may be given any length. -/
theorem HasArray.setLength {m : Movie} {a : ObjectId} {x : Number} (h : m.HasArray a x)
    (hempty : x.toInt = 0) {n : Nat} (hn : n ≤ 0xffffffff) :
    (setLength a n m).2.HasArray a (.ofNat n) := by
  obtain ⟨object, hget, hkind, hfits⟩ := h
  obtain ⟨p, hp, hlength⟩ := hfits.slot
  have hsome : (m.heap.slot? a lengthKey).isSome := by
    rw [Heap.slot?_eq hget]
    exact Option.isSome_iff_exists.mpr ⟨p, hp⟩
  have hmodify : (Movie.setLength a n m).2 =
      m.reslot a (·.modify lengthKey fun p => { p with value := .number (.ofNat n) }) := by
    rw [setLength_eq, if_pos hsome]
    rfl
  rw [hmodify, HasArray, get?_reslot, if_pos rfl, hget]
  refine ⟨_, rfl, hkind, Number.isLength_ofNat hn, ⟨_, ?_, hlength.withValue _⟩,
    fun {key i} hkey hi => ?_⟩
  · rw [Table.find?_modify, if_pos rfl, hp]
    rfl
  · rw [Table.find?_modify] at hkey
    have hsome : (object.properties.find? key).isSome := by
      split at hkey
      · simpa using hkey
      · exact hkey
    have hlt := hfits.above hsome hi
    omega

end Movie

end ActionScript
