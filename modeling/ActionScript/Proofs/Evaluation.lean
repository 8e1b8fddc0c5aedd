import ActionScript.Machine.Write
import ActionScript.Proofs.Correspondence.Basic

/-! # Runs without callbacks

A run that calls no function has one outcome, whatever the embedder is: it gives a value and leaves
a movie, and the embedder has only recorded the movies on the way (`Run.Yields`). Conversions of
primitive values, reads of data slots and the upkeep of array lengths are such runs, and so is a
write that no watcher, setter or observer takes part in (`Machine.writeKey_yields`). -/

namespace ActionScript

theorem Settings.normalize_of_lower {name : String} (h : Text.lower name = name) (s : Settings) :
    s.normalize name = name := by
  rw [normalize]
  split
  · rfl
  · exact h

theorem Heap.slot?_eq {h : Heap} {o : ObjectId} {x : Object} (hx : h.get? o = some x)
    (key : String) : h.slot? o key = x.properties.find? key := by
  rw [slot?, hx]
  rfl

/-- The nearest slot is the own one where there is one. -/
theorem Heap.find?_of_slot? {h : Heap} {o : ObjectId} {key : String} {p : Property}
    (hslot : h.slot? o key = some p) : h.find? o key = some (o, p) := by
  rw [find?, chain, chainUpTo, List.findSome?_cons, own?, hslot]
  rfl

variable {σ : Type} [Journal σ] {α β : Type}

/-- Run in the movie `m`, the computation gives `a` and leaves the movie `m'`, which is recorded
unless it is the first. -/
def Run.Yields (x : Run σ α) (m : Movie) (a : α) (m' : Movie) : Prop :=
  ∀ e, ∃ seen : List Movie, m' ∈ m :: seen ∧
    x ⟨m, e⟩ = (.ok a, ⟨m', seen.foldr Journal.record e⟩)

namespace Run.Yields

variable {m m₁ m₂ : Movie} {a : α} {b : β}

theorem pure : Run.Yields (pure a : Run σ α) m a m :=
  fun _ => ⟨[], List.mem_cons_self, rfl⟩

/-- Runs that yield compose: the second starts in the movie of the first. -/
theorem bind {x : Run σ α} {f : α → Run σ β} (hx : x.Yields m a m₁)
    (hf : (f a).Yields m₁ b m₂) : Run.Yields (x >>= f) m b m₂ := by
  intro e
  obtain ⟨seen₁, hseen₁, hx⟩ := hx e
  obtain ⟨seen₂, hseen₂, hf⟩ := hf (seen₁.foldr Journal.record e)
  refine ⟨seen₂ ++ seen₁, ?_, ?_⟩
  · rcases List.mem_cons.mp hseen₂ with rfl | hseen₂
    · rcases List.mem_cons.mp hseen₁ with rfl | hseen₁
      · exact List.mem_cons_self
      · exact List.mem_cons_of_mem _ (List.mem_append_right _ hseen₁)
    · exact List.mem_cons_of_mem _ (List.mem_append_left _ hseen₂)
  · rw [Run.bind_ok hx, hf, List.foldr_append]

/-- An edit yields its result and its movie. -/
theorem edit (x : Edit α) : Run.Yields (liftM x : Run σ α) m (x m).1 (x m).2 :=
  fun _ => ⟨[(x m).2], List.mem_cons_of_mem _ List.mem_cons_self, rfl⟩

theorem movie {f : Movie → Run σ β} (hf : (f m).Yields m b m₂) :
    Run.Yields (liftM getMovie >>= f) m b m₂ :=
  .bind (.edit getMovie) hf

theorem ite {c : Prop} [Decidable c] {x y : Run σ α} (hx : c → x.Yields m a m₁)
    (hy : ¬ c → y.Yields m a m₂) :
    Run.Yields (if c then x else y) m a (if c then m₁ else m₂) := by
  split
  · rename_i h
    exact hx h
  · rename_i h
    exact hy h

end Run.Yields

/-- Run in the movie `m`, the computation gives `a` and leaves the movie `m'`. The embedder may do
as it likes meanwhile. -/
def Run.Leads (x : Run σ α) (m : Movie) (a : α) (m' : Movie) : Prop :=
  ∀ e, ∃ e', x ⟨m, e⟩ = (.ok a, ⟨m', e'⟩)

namespace Run.Leads

variable {m m₁ m₂ : Movie} {a : α} {b : β}

omit [Journal σ] in
theorem pure : Run.Leads (pure a : Run σ α) m a m := fun e => ⟨e, rfl⟩

omit [Journal σ] in
/-- Runs that lead somewhere compose. -/
theorem bind {x : Run σ α} {f : α → Run σ β} (hx : x.Leads m a m₁) (hf : (f a).Leads m₁ b m₂) :
    Run.Leads (x >>= f) m b m₂ := by
  intro e
  obtain ⟨e₁, hx⟩ := hx e
  obtain ⟨e₂, hf⟩ := hf e₁
  exact ⟨e₂, by rw [Run.bind_ok hx, hf]⟩

/-- A run that yields leads there in every state of the embedder. -/
theorem of_yields {x : Run σ α} (hx : x.Yields m a m₁) : x.Leads m a m₁ := by
  intro e
  obtain ⟨seen, _, hx⟩ := hx e
  exact ⟨_, hx⟩

theorem movie {f : Movie → Run σ β} (hf : (f m).Leads m b m₂) :
    Run.Leads (liftM getMovie >>= f) m b m₂ :=
  .bind (.of_yields (.edit getMovie)) hf

end Run.Leads

/-! ## Movies -/

namespace Movie

theorem normalize_lengthKey (m : Movie) : m.normalize lengthKey = lengthKey :=
  Settings.normalize_of_lower (by decide) m.settings

theorem value_spelled (m : Movie) (name : String) (p : Property) :
    (m.spelled name p).value = p.value := by
  rw [spelled]
  split <;> rfl

theorem isData_spelled (m : Movie) (name : String) (p : Property) :
    (m.spelled name p).isData = p.isData := by
  rw [spelled]
  split <;> rfl

/-- The value of the own length of an object; `undefined` where there is none. -/
def lengthValue (m : Movie) (a : ObjectId) : Value :=
  ((m.heap.own? a lengthKey).map Property.value).getD .undefined

/-- The own length of an object as a number. -/
def lengthNumber (m : Movie) (a : ObjectId) : Number := m.settings.numberOf (m.lengthValue a)

/-- Whether a length drops the elements that are not below it. -/
def truncates (n : Number) : Bool := n.isInteger && Number.le 0 n && Number.lt n 0xffffffff

/-- The movie once the length of an array is in line with a write under a key. -/
def synced (m : Movie) (a : ObjectId) (key : String) : Movie :=
  if key = lengthKey then
    if truncates (m.lengthNumber a) then (truncate a (m.lengthNumber a) m).2 else m
  else
    match arrayIndex? key with
    | none => m
    | some i => if (m.lengthNumber a).toUInt32 ≤ i then (setLength a (i + 1) m).2 else m

/-- The movie once a write under a key of an object is complete. -/
def settled (m : Movie) (o : ObjectId) (key : String) : Movie :=
  if m.heap.isArray o then m.synced o key else m

/-- The movie with a value in the slot of a key: the own slot if there is one, else a new slot with
the attributes of the nearest. -/
def written (m : Movie) (o : ObjectId) (key name : String) (v : Value) : Movie :=
  let flags := (((m.heap.find? o key).map Prod.snd).map Property.flags).getD {}
  { m with
    heap :=
      if (m.heap.slot? o key).isSome then m.heap.modifySlot o key fun p => { p with value := v }
      else m.heap.store o key (m.spelled name (.data v flags)) }

/-- Over an existing slot a write changes its value in place. -/
theorem written_of_some {m : Movie} {o : ObjectId} {key name : String} {v : Value}
    (hslot : (m.heap.slot? o key).isSome) :
    m.written o key name v =
      (modifyHeap (·.modifySlot o key fun p => { p with value := v }) m).2 := by
  rw [written, if_pos hslot]
  rfl

/-- Without one it stores a slot with the flags of the slot it shadows. -/
theorem written_of_none {m : Movie} {o : ObjectId} {key name : String} {v : Value}
    {found : Option Property} (hslot : m.heap.slot? o key = none)
    (hfound : (m.heap.find? o key).map Prod.snd = found) :
    m.written o key name v =
      (storeAs o key name (.data v ((found.map Property.flags).getD {})) m).2 := by
  rw [written, hslot, hfound]
  rfl

/-- Setting the length changes its slot, or makes it. -/
theorem setLength_eq (m : Movie) (a : ObjectId) (n : Nat) : (setLength a n m).2 =
    if (m.heap.slot? a lengthKey).isSome then
      (modifyHeap (·.modifySlot a lengthKey fun p => { p with value := .number (.ofNat n) }) m).2
    else (define a lengthKey (.data (.number (.ofNat n)) .permanent) m).2 := by
  have hedit : setLength a n m = (if (m.heap.slot? a lengthKey).isSome then
      modifyHeap (·.modifySlot a lengthKey fun p => { p with value := .number (.ofNat n) })
      else define a lengthKey (.data (.number (.ofNat n)) .permanent) : Edit Unit) m := rfl
  rw [hedit]
  split <;> rfl

theorem settled_otherwise (m : Movie) (o : ObjectId) (key : String) :
    m.settled o key = { m with heap := (m.settled o key).heap } := by
  rw [settled, synced]
  split
  · split
    · split <;> rfl
    · split
      · rfl
      · split
        · rw [setLength_eq]
          split <;> rfl
        · rfl
  · rfl

@[simp] theorem observers_settled (m : Movie) (o : ObjectId) (key : String) :
    (m.settled o key).observers = m.observers := by
  rw [settled_otherwise]

@[simp] theorem settings_settled (m : Movie) (o : ObjectId) (key : String) :
    (m.settled o key).settings = m.settings := by
  rw [settled_otherwise]

@[simp] theorem observers_written (m : Movie) (o : ObjectId) (key name : String) (v : Value) :
    (m.written o key name v).observers = m.observers := rfl

end Movie

/-! ## Machines -/

namespace Machine

variable (machine : Machine σ) {m : Movie}

/-- Primitives convert to numbers without running code. -/
theorem toNumber_yields {v : Value} (hv : v.isObject = false) :
    (machine.toNumber v).Yields m (m.settings.numberOf v) m := by
  have hprimitive : (machine.toPrimitive v .number).Yields m v m := by
    cases v with
    | object o => cases hv
    | _ => exact .pure
  exact .bind hprimitive (.movie .pure)

theorem toUInt32_yields {v : Value} (hv : v.isObject = false) :
    (machine.toUInt32 v).Yields m (m.settings.numberOf v).toUInt32 m :=
  .bind (machine.toNumber_yields hv) .pure

/-- A text is written as itself. -/
theorem toText_yields (text : String) : (machine.toText (.string text)).Yields m text m :=
  .movie (.movie .pure)

theorem toObject_yields (o : ObjectId) : (machine.toObject (.object o)).Yields m o m :=
  .bind (.edit (Movie.box _)) .pure

/-- Reading a data slot found along the chain gives its value and changes nothing. -/
theorem readKey_yields {o owner : ObjectId} {key : String} {p : Property}
    (hfind : m.heap.find? o key = some (owner, p)) (hp : p.isData) :
    (machine.readKey o key).Yields m p.value m := by
  refine .movie ?_
  rw [hfind]
  rw [Property.isData] at hp
  split at hp
  · rename_i haccess
    simp only [haccess]
    exact .pure
  · cases hp

theorem read_yields {o owner : ObjectId} {p : Property} (name : String)
    (hfind : m.heap.find? o (m.normalize name) = some (owner, p)) (hp : p.isData) :
    (machine.read o name).Yields m p.value m :=
  .movie (machine.readKey_yields hfind hp)

/-- The length is raised without running code unless it is an object. -/
theorem syncLength_yields {a : ObjectId} (ha : (m.lengthValue a).isObject = false)
    (key : String) : (machine.syncLength a key).Yields m () (m.synced a key) := by
  refine .movie ?_
  rw [Movie.synced]
  refine .ite (fun _ => ?_) fun _ => ?_
  · refine .bind (machine.toNumber_yields ha) ?_
    exact .ite (fun _ => .edit (Movie.truncate a (m.lengthNumber a))) fun _ => .pure
  · cases arrayIndex? key with
    | none => exact .pure
    | some i =>
      refine .bind (machine.toUInt32_yields ha) ?_
      exact .ite (fun _ => .edit (Movie.setLength a (i + 1))) fun _ => .pure

/-- Brings the length of an array in line with a write under a key. -/
def settle (o : ObjectId) (key : String) : Run σ Unit := do
  if (← getMovie).heap.isArray o then machine.syncLength o key

/-- Tells the observers of a key, if any. -/
def announce (key : String) : Run σ Unit := do
  if (← getMovie).observers.contains key then machine.broadcast key

/-- What follows a write is settling the object and announcing the key. -/
theorem afterWrite_eq (o : ObjectId) (key : String) : machine.afterWrite o key = (do
    machine.settle o key
    machine.announce key) := by
  rw [settle, bind_assoc, afterWrite]
  refine bind_congr fun movie => ?_
  split
  · rfl
  · rw [pure_bind]
    rfl

/-- Settling runs no code unless the length of the array is an object. -/
theorem settle_yields {o : ObjectId} (key : String)
    (hlength : m.heap.isArray o → (m.lengthValue o).isObject = false) :
    (machine.settle o key).Yields m () (m.settled o key) :=
  .movie (.ite (fun harray => machine.syncLength_yields (hlength harray) key) fun _ => .pure)

/-- Without observers of the key a write ends in the settled movie. -/
theorem afterWrite_yields {o : ObjectId} {key : String}
    (hlength : m.heap.isArray o → (m.lengthValue o).isObject = false)
    (hobservers : m.observers.contains key = false) :
    (machine.afterWrite o key).Yields m () (m.settled o key) := by
  rw [afterWrite_eq]
  refine .bind (machine.settle_yields key hlength) (.movie ?_)
  rw [Movie.observers_settled, hobservers]
  exact .pure

/-- A write of an own data slot without watcher. -/
theorem writeOwn_yields {o : ObjectId} {key name : String} {v : Value} {p : Property}
    (hslot : m.heap.slot? o key = some p) (hwatcher : p.watcher = none)
    (hlength : (m.written o key name v).heap.isArray o →
      ((m.written o key name v).lengthValue o).isObject = false)
    (hobservers : m.observers.contains key = false) :
    (machine.writeOwn o key name p v).Yields m () ((m.written o key name v).settled o key) := by
  have hafter := machine.afterWrite_yields hlength (by rwa [Movie.observers_written])
  have hsome : (m.heap.slot? o key).isSome := by rw [hslot]; rfl
  rw [Movie.written_of_some hsome] at hafter ⊢
  rw [writeOwn, hwatcher]
  refine .bind .pure (.movie ?_)
  dsimp only
  rw [if_pos hsome]
  exact .bind (.edit (Movie.modifyHeap _)) hafter

/-- A write that adds a slot, with the attributes of an inherited one without watcher. -/
theorem writeNew_yields {o : ObjectId} {key name : String} {v : Value} {found : Option Property}
    (hslot : m.heap.slot? o key = none) (hfound : (m.heap.find? o key).map Prod.snd = found)
    (hwatcher : ∀ p, found = some p → p.watcher = none)
    (hlength : (m.written o key name v).heap.isArray o →
      ((m.written o key name v).lengthValue o).isObject = false)
    (hobservers : m.observers.contains key = false) :
    (machine.writeNew o key name found v).Yields m ()
      ((m.written o key name v).settled o key) := by
  have hafter := machine.afterWrite_yields hlength (by rwa [Movie.observers_written])
  rw [Movie.written_of_none hslot hfound] at hafter ⊢
  cases found with
  | none => exact .bind .pure (.bind (.edit (Movie.storeAs o key name _)) hafter)
  | some p =>
    have hpure : machine.watched o p.watcher p.value v = pure v := by rw [hwatcher p rfl]; rfl
    rw [writeNew, hpure]
    exact .bind .pure (.bind (.edit (Movie.storeAs o key name _)) hafter)

/-- A write under a key whose nearest slot, if any, is plain data. -/
theorem writeKey_yields {o : ObjectId} {key name : String} {v : Value}
    (hproto : key ≠ Heap.protoKey) (hput : m.heap.canPut o key)
    (hfound : ∀ {owner p}, m.heap.find? o key = some (owner, p) → p.isData ∧ p.watcher = none)
    (hgeometry : v.isUndefined → geometryKeys.contains key → (m.heap.slot? o key).isSome)
    (hlength : (m.written o key name v).heap.isArray o →
      ((m.written o key name v).lengthValue o).isObject = false)
    (hobservers : m.observers.contains key = false) :
    (machine.writeKey o key name v).Yields m () ((m.written o key name v).settled o key) := by
  refine .movie ?_
  dsimp only
  rw [if_neg (fun h => hproto h.1), hput, Bool.not_true, if_neg Bool.false_ne_true]
  cases hslot : m.heap.slot? o key with
  | some p =>
    obtain ⟨hdata, hwatcher⟩ := hfound (Heap.find?_of_slot? hslot)
    rw [Option.filter_some, if_pos hdata]
    exact machine.writeOwn_yields hslot hwatcher hlength hobservers
  | none =>
    have hgeometry : (v.isUndefined && geometryKeys.contains key) = false := by
      rw [hslot] at hgeometry
      cases hv : v.isUndefined with
      | false => rfl
      | true => exact Bool.eq_false_iff.mpr fun hkey => nomatch hgeometry hv hkey
    rw [Option.filter_none, hgeometry]
    dsimp only
    rw [if_neg Bool.false_ne_true]
    cases hfind : (m.heap.find? o key).map Prod.snd with
    | none =>
      refine machine.writeNew_yields hslot hfind (fun p hp => ?_) hlength hobservers
      cases hp
    | some p =>
      obtain ⟨⟨owner, _⟩, hfind', rfl⟩ := Option.map_eq_some_iff.mp hfind
      obtain ⟨hdata, hwatcher⟩ := hfound hfind'
      dsimp only
      rw [Property.isAccessor, hdata, Bool.not_true, if_neg Bool.false_ne_true]
      refine machine.writeNew_yields hslot hfind (fun p hp => ?_) hlength hobservers
      cases hp
      exact hwatcher

/-- A write of the prototype link. -/
theorem write_proto_yields {o : ObjectId} {v : Value}
    (hslot : m.heap.slot? o Heap.protoKey = none) :
    (machine.write o Heap.protoKey v).Yields m () (Movie.setPrototype o v.object? m).2 := by
  have hkey : m.normalize Heap.protoKey = Heap.protoKey :=
    Settings.normalize_of_lower (by decide) m.settings
  refine .movie (.movie ?_)
  dsimp only
  rw [hkey, hslot, if_pos ⟨rfl, rfl⟩]
  exact .bind (.edit (Movie.setPrototype o v.object?)) .pure

end Machine

end ActionScript
