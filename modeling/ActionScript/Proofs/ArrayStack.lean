import ActionScript.Proofs.Hushed
import ActionScript.Proofs.Naming.Movie

/-! # Arrays as stacks

`push` puts a value above the elements of an array and `pop` takes the last element away. After one
another they leave the movie as it was, as long as the array is not full. A full array takes one
more value, but its length is then one that `pop` reads as zero, and all its elements are lost
(`Machine.push_pop`). -/

namespace ActionScript

namespace Movie

/-! ## Lengths -/

/-- An array whose own length is a number in a slot that may be written and is not watched. -/
structure HasLength (m : Movie) (a : ObjectId) (x : Number) : Prop where
  isArray : m.heap.isArray a
  slot : ∃ p, m.heap.slot? a lengthKey = some p ∧ p.access = .data false ∧ p.watcher = none ∧
    p.value = .number x

/-- The movie with another number in the slot of a length. -/
def withLength (m : Movie) (a : ObjectId) (n : Nat) : Movie :=
  m.reslot a (·.modify lengthKey fun p => { p with value := .number (.ofNat n) })

/-- All own indices of an array are below a number. -/
def IndicesBelow (m : Movie) (a : ObjectId) (n : Nat) : Prop :=
  ∀ key ∈ m.heap.keysOf a, ∀ i, arrayIndex? key = some i → i < n

instance (m : Movie) (a : ObjectId) (n : Nat) : Decidable (m.IndicesBelow a n) :=
  decidable_of_iff (∀ key ∈ m.heap.keysOf a, (arrayIndex? key).all (· < n)) (by
    simp only [IndicesBelow, Option.all_eq_true, decide_eq_true_eq])

instance (m : Movie) (a : ObjectId) (x : Number) : Decidable (m.HasLength a x) :=
  decidable_of_iff (m.heap.isArray a ∧ (m.heap.slot? a lengthKey).any fun p =>
      p.access = .data false ∧ p.watcher = none ∧ p.value = .number x) (by
    simp only [Option.any_eq_true, decide_eq_true_eq]
    exact ⟨fun h => ⟨h.1, h.2⟩, fun h => ⟨h.1, h.2⟩⟩)

namespace HasLength

variable {m : Movie} {a : ObjectId} {x : Number} (h : m.HasLength a x)
include h

theorem exists_object : ∃ object, m.heap.get? a = some object :=
  Option.isSome_iff_exists.mp (Heap.isLive_of_isArray h.isArray)

theorem isSome : (m.heap.slot? a lengthKey).isSome := by
  obtain ⟨p, hp, _⟩ := h.slot
  rw [hp]
  rfl

theorem lengthValue_eq : m.lengthValue a = .number x := by
  obtain ⟨p, hp, _, _, hvalue⟩ := h.slot
  rw [Movie.lengthValue_eq, hp]
  exact hvalue

/-- A change of slots that leaves the length slot leaves the length. -/
theorem reslot {g : Table String Property → Table String Property}
    (hg : ∀ t, (g t).find? lengthKey = t.find? lengthKey) : (m.reslot a g).HasLength a x := by
  obtain ⟨object, hobject⟩ := h.exists_object
  refine ⟨by rw [isArray_reslot]; exact h.isArray, ?_⟩
  rw [slot?_reslot_of_find? hobject (hg _)]
  exact h.slot

/-- An array whose length was set has that length. -/
theorem withLength (n : Nat) : (m.withLength a n).HasLength a (.ofNat n) := by
  obtain ⟨object, hobject⟩ := h.exists_object
  obtain ⟨p, hp, haccess, hwatcher, _⟩ := h.slot
  rw [Heap.slot?_eq hobject] at hp
  refine ⟨by rw [Movie.withLength, isArray_reslot]; exact h.isArray,
    { p with value := .number (.ofNat n) }, ?_, haccess, hwatcher, rfl⟩
  rw [Movie.withLength, slot?_reslot hobject, Table.find?_modify, if_pos rfl, hp]
  rfl

/-- A write of a length drops the elements that are not below it, unless it is above all indices. -/
theorem settled_written {n : Nat} (hn : n < 2 ^ 53) :
    (m.written a lengthKey lengthKey (.number (.ofNat n))).settled a lengthKey =
      (m.withLength a n).reslot a
        (·.eraseWhere fun key => n < 0xffffffff && (arrayIndex? key).any (n ≤ ·)) := by
  obtain ⟨object, hobject⟩ := h.exists_object
  have hint := Number.toInt_ofNat hn
  have hinteger := Number.isInteger_ofNat hn
  have hraise : m.raiseOf a lengthKey = none := by
    rw [raiseOf, if_pos h.isArray, raised?, arrayIndex?_lengthKey]
    rfl
  have hcutoff : m.cutoffOf a lengthKey (.number (.ofNat n)) =
      if n < 0xffffffff then some (n : Int) else none := by
    rw [cutoffOf, if_pos h.isArray]
    show cutoff? lengthKey (.ofNat n) = _
    rw [cutoff?, hint]
    refine if_congr ⟨fun hn => ?_, fun hn => ⟨rfl, hinteger, ?_, ?_⟩⟩ rfl rfl <;> omega
  have hcuts : resized (m.cutoffOf a lengthKey (.number (.ofNat n))) none =
      (·.eraseWhere fun key => n < 0xffffffff && (arrayIndex? key).any (n ≤ ·)) := by
    funext t
    refine congrArg t.eraseWhere (funext fun key => ?_)
    rw [hcutoff, cuts]
    split <;> simp [*]
  rw [Movie.settled_written hobject _ _ _ fun _ => h.isSome, hraise, hcuts,
    written_of_some h.isSome]
  rfl

/-- Writing a length above all indices only sets it. -/
theorem settled_written_of_below {n : Nat} (hn : n < 2 ^ 53) (hbelow : m.IndicesBelow a n) :
    (m.written a lengthKey lengthKey (.number (.ofNat n))).settled a lengthKey =
      m.withLength a n := by
  obtain ⟨object, hobject⟩ := h.exists_object
  rw [h.settled_written hn, Movie.withLength, reslot_reslot]
  refine reslot_congr_of_get? hobject ?_
  dsimp only [Function.comp]
  refine Table.eraseWhere_eq_self fun key hkey => ?_
  rw [Table.keys_modify, ← Heap.keysOf_eq hobject] at hkey
  rw [Bool.and_eq_false_iff, Option.any_eq_false]
  refine .inr fun i hi => ?_
  have hlt := hbelow key hkey i hi
  simpa using hlt

end HasLength

/-- The second length is the one that stays. -/
theorem withLength_withLength (m : Movie) (a : ObjectId) (j k : Nat) :
    (m.withLength a j).withLength a k = m.withLength a k := by
  rw [withLength, withLength, reslot_reslot, withLength]
  exact congrArg (m.reslot a) (funext fun t => Table.modify_modify ..)

theorem keysOf_withLength (m : Movie) (a : ObjectId) (n : Nat) :
    (m.withLength a n).heap.keysOf a = m.heap.keysOf a := by
  rw [Heap.keysOf, Heap.keysOf, withLength, get?_reslot, if_pos rfl]
  cases m.heap.get? a with
  | none => rfl
  | some object => exact Table.keys_modify ..

/-! ## Stacks -/

/-- An array of length `n` that may be written, with all its own indices below, and with the next
index free on its whole chain. -/
structure Stack (m : Movie) (a : ObjectId) (n : Nat) : Prop where
  length : ∃ x, m.HasLength a x ∧ x.isInteger ∧ x.toInt = n
  fits : n ≤ 0xffffffff
  below : m.IndicesBelow a n
  free : m.heap.find? a (indexKey n) = none

/-- The movie with a value above the elements of an array. -/
def pushed (m : Movie) (a : ObjectId) (n : Nat) (v : Value) : Movie :=
  (m.written a (indexKey n) (indexKey n) v).withLength a (n + 1)

/-- The movie with an array without elements. -/
def emptied (m : Movie) (a : ObjectId) : Movie :=
  (m.withLength a 0).reslot a (·.eraseWhere fun key => (arrayIndex? key).isSome)

namespace Stack

variable {m : Movie} {a : ObjectId} {n : Nat} (h : m.Stack a n) (v : Value)
include h

theorem exists_object : ∃ object, m.heap.get? a = some object := by
  obtain ⟨_, hlength, _⟩ := h.length
  exact hlength.exists_object

/-- The slot above the stack is free. -/
theorem slot?_indexKey : m.heap.slot? a (indexKey n) = none := by
  have hfree := h.free
  cases hslot : m.heap.slot? a (indexKey n) with
  | none => rfl
  | some p =>
    rw [Heap.find?_of_slot? hslot] at hfree
    cases hfree

theorem indexKey_not_mem : indexKey n ∉ m.heap.keysOf a := by
  obtain ⟨object, hobject⟩ := h.exists_object
  rw [Heap.keysOf_eq hobject, ← Table.isSome_find?_iff, ← Heap.slot?_eq hobject, h.slot?_indexKey]
  decide

/-- The write that pushes a value adds a slot at the end. -/
theorem written_eq : m.written a (indexKey n) (indexKey n) v =
    m.reslot a (·.insert (indexKey n) (m.addedSlot a (indexKey n) (indexKey n) v)) := by
  rw [Movie.written_eq, h.slot?_indexKey]
  rfl

/-- The length is brought in line with the new index, unless that is none of an array. -/
theorem settled_written :
    (m.written a (indexKey n) (indexKey n) v).settled a (indexKey n) =
        m.written a (indexKey n) (indexKey n) v ∨
      (m.written a (indexKey n) (indexKey n) v).settled a (indexKey n) = m.pushed a n v := by
  obtain ⟨x, hlength, _⟩ := h.length
  obtain ⟨object, hobject⟩ := hlength.exists_object
  rw [Movie.settled_written hobject _ _ _ fun _ => hlength.isSome,
    cutoffOf_of_ne (indexKey_ne_lengthKey n)]
  cases hraise : m.raiseOf a (indexKey n) with
  | none =>
    rw [show resized none none = id from funext resized_none, reslot_id]
    exact .inl rfl
  | some k =>
    have hk : k = n + 1 := by
      rw [raiseOf, if_pos hlength.isArray, raised?, Option.bind_eq_some_iff] at hraise
      obtain ⟨i, hi, hraise⟩ := hraise
      cases eq_of_arrayIndex?_indexKey hi
      split at hraise <;> cases hraise
      rfl
    rw [hk, resized_some]
    exact .inr rfl

theorem hasLength_written :
    ∃ x, (m.written a (indexKey n) (indexKey n) v).HasLength a x := by
  obtain ⟨x, hlength, _⟩ := h.length
  rw [h.written_eq]
  exact ⟨x, hlength.reslot fun t => by
    rw [Table.find?_insert, if_neg (indexKey_ne_lengthKey n).symm]⟩

theorem keysOf_written : (m.written a (indexKey n) (indexKey n) v).heap.keysOf a =
    m.heap.keysOf a ++ [indexKey n] := by
  obtain ⟨object, hobject⟩ := h.exists_object
  rw [Movie.keysOf_written hobject, if_neg h.indexKey_not_mem]

/-- The indices are then below the next length. -/
theorem indicesBelow_written :
    (m.written a (indexKey n) (indexKey n) v).IndicesBelow a (n + 1) := by
  intro key hkey i hi
  rw [h.keysOf_written, List.mem_append, List.mem_singleton] at hkey
  rcases hkey with hkey | rfl
  · exact (h.below key hkey i hi).trans (Nat.lt_succ_self n)
  · rw [eq_of_arrayIndex?_indexKey hi]
    exact Nat.lt_succ_self n

/-- A push leaves the length one higher. -/
theorem hasLength_pushed : (m.pushed a n v).HasLength a (.ofNat (n + 1)) := by
  obtain ⟨x, hlength⟩ := h.hasLength_written v
  exact hlength.withLength (n + 1)

/-- A push adds the key of its index, after all others. -/
theorem keysOf_pushed :
    (m.pushed a n v).heap.keysOf a = m.heap.keysOf a ++ [indexKey n] := by
  rw [pushed, keysOf_withLength, h.keysOf_written]

/-- The write of the new length finds the array ready for it. -/
theorem settled_written_length {m₁ : Movie}
    (hm₁ : (m.written a (indexKey n) (indexKey n) v).settled a (indexKey n) = m₁) :
    (∃ x, m₁.HasLength a x) ∧ m₁.IndicesBelow a (n + 1) ∧
      m₁.withLength a (n + 1) = m.pushed a n v := by
  subst hm₁
  rcases h.settled_written v with heq | heq <;> rw [heq]
  · exact ⟨h.hasLength_written v, h.indicesBelow_written v, rfl⟩
  · refine ⟨⟨_, h.hasLength_pushed v⟩, ?_, withLength_withLength _ a _ _⟩
    rw [IndicesBelow, pushed, keysOf_withLength]
    exact h.indicesBelow_written v

/-- No other slot changes. -/
theorem slot?_pushed {key : String} (hindex : key ≠ indexKey n) (hlengthKey : key ≠ lengthKey)
    (o : ObjectId) : (m.pushed a n v).heap.slot? o key = m.heap.slot? o key := by
  obtain ⟨object, hobject⟩ := h.exists_object
  rw [pushed, withLength, h.written_eq, reslot_reslot]
  refine slot?_reslot_of_find? hobject ?_ o
  dsimp only [Function.comp]
  rw [Table.find?_modify, if_neg hlengthKey, Table.find?_insert, if_neg hindex]

omit h in
theorem prototype?_pushed (o : ObjectId) :
    (m.pushed a n v).heap.prototype? o = m.heap.prototype? o := by
  rw [pushed, withLength, prototype?_reslot, Movie.written_eq, prototype?_reslot]

/-- A push changes what is found under its index and the length only. -/
theorem find?_pushed {key : String} (hindex : key ≠ indexKey n) (hlengthKey : key ≠ lengthKey)
    (o : ObjectId) : (m.pushed a n v).heap.find? o key = m.heap.find? o key := by
  refine Heap.find?_congr (fun q => ?_) (prototype?_pushed v) o
  rw [Heap.own?, Heap.own?, h.slot?_pushed v hindex hlengthKey, prototype?_pushed v]

/-- The value is in a slot that may be deleted. -/
theorem slot?_pushed_self : ∃ p, (m.pushed a n v).heap.slot? a (indexKey n) = some p ∧
    p.isData ∧ p.isDeletable ∧ p.value = v := by
  obtain ⟨object, hobject⟩ := h.exists_object
  refine ⟨m.addedSlot a (indexKey n) (indexKey n) v, ?_, ?_, ?_, (m.addedSlot_plain ..).1⟩
  · rw [pushed, withLength, h.written_eq, reslot_reslot, slot?_reslot hobject]
    dsimp only [Function.comp]
    rw [Table.find?_modify, if_neg (indexKey_ne_lengthKey n), Table.find?_insert, if_pos rfl]
  · rw [addedSlot, isData_spelled]
    rfl
  · rw [addedSlot, h.free, spelled]
    split <;> rfl

/-- Without the pushed slot the indices are back below the old length. -/
theorem indicesBelow_erase_pushed :
    ((m.pushed a n v).reslot a (·.erase (indexKey n))).IndicesBelow a n := by
  obtain ⟨object, hobject⟩ := (h.hasLength_pushed v).exists_object
  intro key hkey i hi
  rw [keysOf_reslot hobject, Table.keys_erase, List.mem_filter, ← Heap.keysOf_eq hobject,
    h.keysOf_pushed, List.mem_append, List.mem_singleton] at hkey
  obtain ⟨hkey | hkey, hne⟩ := hkey
  · exact h.below key hkey i hi
  · simp [hkey] at hne

/-- Without the value and with its old length the array is the old one, but for the number that
stood in its length. -/
theorem erase_pushed :
    ((m.pushed a n v).reslot a (·.erase (indexKey n))).withLength a n = m.withLength a n := by
  obtain ⟨object, hobject⟩ := h.exists_object
  have hnew : indexKey n ∉ object.properties.keys := by
    rw [← Heap.keysOf_eq hobject]
    exact h.indexKey_not_mem
  rw [pushed, withLength, withLength, withLength, h.written_eq, reslot_reslot, reslot_reslot,
    reslot_reslot]
  refine reslot_congr_of_get? hobject ?_
  dsimp only [Function.comp]
  rw [Table.erase_modify, Table.erase_insert hnew, Table.modify_modify]
  rfl

/-- Only the negative zero is not the number that the length is restored to. -/
theorem withLength_eq_self {x : Number} (hx : m.lengthValue a = .number x)
    (hnegative : x.isNegative = false) : m.withLength a n = m := by
  obtain ⟨y, hlength, hinteger, hint⟩ := h.length
  obtain ⟨object, hobject⟩ := hlength.exists_object
  rw [hlength.lengthValue_eq] at hx
  cases hx
  obtain ⟨p, hp, _, _, hvalue⟩ := hlength.slot
  rw [Heap.slot?_eq hobject] at hp
  have hfits := h.fits
  have heq := Number.eq_ofNat hinteger hnegative hint (by omega)
  conv_rhs => rw [← m.reslot_id a]
  refine reslot_congr_of_get? hobject (Table.modify_eq_self hp ?_)
  rw [← heq, ← hvalue]

end Stack

end Movie

namespace Machine

variable {σ : Type} [Journal σ] (machine : Machine σ) {m : Movie}

/-! ## Reading and writing the length -/

section Length

variable {a : ObjectId} {x : Number} (h : m.HasLength a x)
include h

theorem receiverAndLength_yields :
    (Builtin.receiverAndLength machine (.object a)).Yields m (a, x.toUInt32) m := by
  obtain ⟨p, hslot, haccess, _, hvalue⟩ := h.slot
  have hfind : m.heap.find? a (m.normalize Movie.lengthKey) = some (a, p) := by
    rw [Movie.normalize_lengthKey]
    exact Heap.find?_of_slot? hslot
  have hread := machine.read_yields Movie.lengthKey hfind (by rw [Property.isData, haccess])
  rw [hvalue] at hread
  exact .bind (machine.toObject_yields a) (.bind hread
    (.bind (machine.toUInt32_yields (v := .number x) rfl) .pure))

/-- Writing the length of an unobserved array settles it. -/
theorem writeLength_leads (hhushed : machine.Hushed m Movie.lengthKey) (k : Nat) :
    (machine.write a Movie.lengthKey (.number (.ofNat k))).Leads m ()
      ((m.written a Movie.lengthKey Movie.lengthKey (.number (.ofNat k))).settled a
        Movie.lengthKey) := by
  obtain ⟨object, hobject⟩ := h.exists_object
  obtain ⟨p, hslot, haccess, hwatcher, _⟩ := h.slot
  have hfind := Heap.find?_of_slot? hslot
  refine .movie ?_
  rw [m.normalize_lengthKey]
  refine machine.writeKey_leads _ (by decide) ?_ rfl (fun {q} hq => ?_) (fun _ => ?_)
    m.normalize_lengthKey hhushed
  · rw [Heap.canPut_eq, hfind]
    simp [Property.isWritable, haccess]
  · rw [hfind] at hq
    cases hq
    exact ⟨by rw [Property.isData, haccess], hwatcher⟩
  · rw [Movie.lengthValue_written hobject, if_pos rfl]
    rfl

end Length

/-! ## Push and pop -/

/-- No numeral is a key that some objects ignore. -/
theorem ignores_indexKey (m : Movie) (a : ObjectId) (n : Nat) (v : Value) :
    ignores m a (indexKey n) v = false := by
  have hgeometry : geometryKeys.contains (indexKey n) = false := by
    rw [← Bool.not_eq_true, List.contains_iff_mem]
    simp only [geometryKeys, List.mem_cons, List.not_mem_nil, or_false, not_or]
    refine ⟨?_, ?_, ?_, ?_, ?_, ?_⟩ <;> exact indexKey_ne (by decide) (by decide) n
  rw [ignores, hgeometry, Bool.and_false, Bool.false_and]

section Stack

variable {a : ObjectId} {n : Nat} (h : m.Stack a n) (hlast : machine.Hushed m (indexKey n))
  (hlength : machine.Hushed m Movie.lengthKey)
include h hlast hlength

omit hlength in
/-- Pushing one value writes one element. -/
theorem writeFrom_leads (v : Value) : (Builtin.writeFrom machine a n [v]).Leads m ()
    ((m.written a (indexKey n) (indexKey n) v).settled a (indexKey n)) := by
  obtain ⟨x, hx, _⟩ := h.length
  obtain ⟨object, hobject⟩ := hx.exists_object
  have hkey := m.settings.normalize_of_isNumeral (isNumeral_indexKey n)
  refine .bind (machine.writeKey_leads _ (indexKey_ne_protoKey n) ?_ ?_ (fun {q} hq => ?_)
    (fun _ => ?_) hkey hlast) .pure
  · rw [Heap.canPut_eq, h.free, Option.all_none]
  · exact ignores_indexKey m a n v
  · rw [h.free] at hq
    cases hq
  · rw [Movie.lengthValue_written hobject, if_neg (indexKey_ne_lengthKey n).symm,
      hx.lengthValue_eq]
    rfl

/-- A push answers with the new length. -/
theorem pushAll_leads (v : Value) : (Builtin.pushAll machine (.object a) [v]).Leads m
    (.number (.ofNat (n + 1))) (m.pushed a n v) := by
  obtain ⟨x, hx, hinteger, hint⟩ := h.length
  have hfits := h.fits
  have hreceiver := machine.receiverAndLength_yields hx
  rw [Number.toUInt32_of_toInt hint (by omega)] at hreceiver
  obtain ⟨⟨y, hy⟩, hbelow, hpushed⟩ := h.settled_written_length v rfl
  have hhushed : machine.Hushed
      ((m.written a (indexKey n) (indexKey n) v).settled a (indexKey n)) Movie.lengthKey := by
    rw [Hushed, Movie.observers_settled]
    exact hlength
  have hwrite := machine.writeLength_leads hy hhushed (n + 1)
  rw [hy.settled_written_of_below (by omega) hbelow, hpushed] at hwrite
  exact .bind (.of_yields hreceiver) (.bind (machine.writeFrom_leads h hlast v)
    (.bind hwrite .pure))

/-- A pop of the pushed value answers with it, and leaves the old length. -/
theorem popLast_leads (hroom : n < 0xffffffff) (v : Value) :
    (Builtin.popLast machine (.object a)).Leads (m.pushed a n v) v (m.withLength a n) := by
  have hx := h.hasLength_pushed v
  obtain ⟨p, hslot, hdata, hdeletable, rfl⟩ := h.slot?_pushed_self v
  have hint : (Number.ofNat (n + 1)).toInt = (n + 1 : Nat) := Number.toInt_ofNat (by omega)
  have hreceiver := machine.receiverAndLength_yields hx
  rw [Number.toUInt32_of_toInt hint (by omega)] at hreceiver
  have hread := machine.readKey_yields (Heap.find?_of_slot? hslot) hdata
  have hown : (m.pushed a n p.value).heap.own? a (indexKey n) = some p := by
    rw [Heap.own?, hslot]
  have hkey := m.settings.normalize_of_isNumeral (isNumeral_indexKey n)
  have hdelete := machine.deleteKey_leads hown hdeletable hkey hlast
  have hy := hx.reslot (g := (·.erase (indexKey n))) fun t => by
    rw [Table.find?_erase, if_neg (indexKey_ne_lengthKey n).symm]
  have hwrite := machine.writeLength_leads hy hlength n
  rw [hy.settled_written_of_below (by omega) (h.indicesBelow_erase_pushed p.value),
    h.erase_pushed] at hwrite
  exact .bind (.of_yields hreceiver) (.bind (.of_yields hread) (.bind hdelete
    (.bind hwrite .pure)))

omit hlast in
/-- The length of a full array with one more value is read as zero. -/
theorem popLast_full_leads (hfull : n = 0xffffffff) (v : Value) :
    (Builtin.popLast machine (.object a)).Leads (m.pushed a n v) .undefined
      ((m.pushed a n v).emptied a) := by
  have hx := h.hasLength_pushed v
  have hint : (Number.ofNat (n + 1)).toInt = (n + 1 : Nat) := Number.toInt_ofNat (by omega)
  have hcount : (Number.ofNat (n + 1)).toUInt32 = 0 := by
    rw [Number.toUInt32_eq, hint, hfull]
    rfl
  have hreceiver := machine.receiverAndLength_yields hx
  rw [hcount] at hreceiver
  have hwrite := machine.writeLength_leads hx hlength 0
  have hdropped : ((m.pushed a n v).withLength a 0).reslot a (·.eraseWhere fun key =>
      0 < 0xffffffff && (arrayIndex? key).any (0 ≤ ·)) = (m.pushed a n v).emptied a := rfl
  rw [hx.settled_written (by decide), hdropped] at hwrite
  exact .bind (.of_yields hreceiver) (.bind hwrite .pure)

/-- Take an array whose own length is the integer `n` and may be written without a watcher, whose
own indices are below `n`, and whose chain has no property of the name `n`, and observers of the
two keys that change nothing. `push` gives `n + 1` and leaves what every other key finds. If the
array is not full, `pop` gives the value back and leaves the movie as it was before, with `n`
written to the length, which only replaces a negative zero. But if it is full, `pop` gives
`undefined` and leaves the array with no elements. -/
theorem push_pop (v : Value) (args : List Value) :
    (Builtin.run machine (.array .push) (.object a) [v]).Leads m
      (.number (.ofNat (n + 1))) (m.pushed a n v) ∧
    (machine.readKey a (indexKey n)).Leads (m.pushed a n v) v (m.pushed a n v) ∧
    (∀ key, key ≠ indexKey n → key ≠ Movie.lengthKey →
      ∀ o, (m.pushed a n v).heap.find? o key = m.heap.find? o key) ∧
    (n < 0xffffffff → (Builtin.run machine (.array .pop) (.object a) args).Leads
      (m.pushed a n v) v (m.withLength a n)) ∧
    (∀ x, m.lengthValue a = .number x → x.isNegative = false → m.withLength a n = m) ∧
    (n = 0xffffffff → (Builtin.run machine (.array .pop) (.object a) args).Leads
      (m.pushed a n v) .undefined ((m.pushed a n v).emptied a)) := by
  refine ⟨machine.pushAll_leads h hlast hlength v, ?_,
    fun _ hindex hlengthKey => h.find?_pushed v hindex hlengthKey,
    fun hroom => machine.popLast_leads h hlast hlength hroom v,
    fun _ hx => h.withLength_eq_self hx,
    fun hfull => machine.popLast_full_leads h hlength hfull v⟩
  obtain ⟨p, hslot, hdata, _, hvalue⟩ := h.slot?_pushed_self v
  rw [← hvalue] at hslot ⊢
  exact .of_yields (machine.readKey_yields (Heap.find?_of_slot? hslot) hdata)

end Stack

omit [Journal σ] in
/-- A key without observers is announced to no one. -/
theorem hushed_of_no_observers (hkey : m.observers.of key = []) : machine.Hushed m key := by
  intro observer hmem
  rw [hkey] at hmem
  cases hmem

namespace StackedArray

/-- Makes an array with one element and a given length. -/
def create (n : Nat) : Edit ObjectId := do
  let a ← Movie.createArray [.string "x"]
  Movie.setLength a n
  return a

@[irreducible] def array : ObjectId := (create 1 (Movie.new {})).1

/-- A new movie with it as it is made. -/
@[irreducible] def short : Movie := (create 1 (Movie.new {})).2

/-- A new movie with it at the greatest length. -/
@[irreducible] def full : Movie := (create 0xffffffff (Movie.new {})).2

theorem stack_short : short.Stack array 1 := by
  have h : short.HasLength array 1 ∧ (1 : Number).isInteger ∧ (1 : Number).toInt = (1 : Nat) ∧
      short.IndicesBelow array 1 ∧ short.heap.find? array (indexKey 1) = none := by
    decide +kernel
  exact ⟨⟨1, h.1, h.2.1, h.2.2.1⟩, by omega, h.2.2.2.1, h.2.2.2.2⟩

theorem stack_full : full.Stack array 0xffffffff := by
  have h : full.HasLength array 0xffffffff ∧ (0xffffffff : Number).isInteger ∧
      (0xffffffff : Number).toInt = (0xffffffff : Nat) ∧ full.IndicesBelow array 0xffffffff ∧
      full.heap.find? array (indexKey 0xffffffff) = none := by
    decide +kernel
  exact ⟨⟨0xffffffff, h.1, h.2.1, h.2.2.1⟩, by omega, h.2.2.2.1, h.2.2.2.2⟩

end StackedArray

open StackedArray in
theorem push_pop_short :
    short.Stack array 1 ∧
    Builtin.run ((Host.bare Unit).machine 0) (.array .push) (.object array) [.string "y"]
      ⟨short, ()⟩ = (.ok (.number 2), ⟨short.pushed array 1 (.string "y"), ()⟩) ∧
    Builtin.run ((Host.bare Unit).machine 0) (.array .pop) (.object array) []
      ⟨short.pushed array 1 (.string "y"), ()⟩ = (.ok (.string "y"), ⟨short, ()⟩) := by
  have hvalue : short.lengthValue array = .number 1 ∧ (1 : Number).isNegative = false := by
    decide +kernel
  have hnone : short.observers.of (indexKey 1) = [] ∧ short.observers.of Movie.lengthKey = [] := by
    decide +kernel
  obtain ⟨hpush, -, -, hpop, hsame, -⟩ := ((Host.bare Unit).machine 0).push_pop stack_short
    (hushed_of_no_observers _ hnone.1) (hushed_of_no_observers _ hnone.2) (.string "y") []
  obtain ⟨_, hpush⟩ := hpush ()
  obtain ⟨_, hpop⟩ := hpop (by decide) ()
  rw [hsame 1 hvalue.1 hvalue.2] at hpop
  exact ⟨stack_short, hpush, hpop⟩

open StackedArray in
/-- What is pushed onto a full array is not popped, and its elements are lost. -/
theorem pop_full :
    full.Stack array 0xffffffff ∧ (full.heap.slot? array "0").isSome ∧ ∃ m m',
    Builtin.run ((Host.bare Unit).machine 0) (.array .push) (.object array) [.string "y"]
      ⟨full, ()⟩ = (.ok (.number 0x100000000), ⟨m, ()⟩) ∧
    Builtin.run ((Host.bare Unit).machine 0) (.array .pop) (.object array) [] ⟨m, ()⟩ =
      (.ok .undefined, ⟨m', ()⟩) ∧
    m'.lengthValue array = .number 0 ∧ m'.heap.slot? array "0" = none := by
  have hnone : full.observers.of (indexKey 0xffffffff) = [] ∧
      full.observers.of Movie.lengthKey = [] := by
    decide +kernel
  have hlength := hushed_of_no_observers ((Host.bare Unit).machine 0) hnone.2
  obtain ⟨_, hpush⟩ := Machine.pushAll_leads _ stack_full (hushed_of_no_observers _ hnone.1)
    hlength (.string "y") ()
  obtain ⟨_, hpop⟩ := Machine.popLast_full_leads _ stack_full hlength rfl (.string "y") ()
  have hlost : (full.heap.slot? array "0").isSome ∧
      ((full.pushed array 0xffffffff (.string "y")).emptied array).lengthValue array = .number 0 ∧
      ((full.pushed array 0xffffffff (.string "y")).emptied array).heap.slot? array "0" = none := by
    decide +kernel
  exact ⟨stack_full, hlost.1, _, _, hpush, hpop, hlost.2⟩

end Machine

end ActionScript
