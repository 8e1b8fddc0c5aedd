import ActionScript.Builtin.Date
import ActionScript.Machine.Convert
import ActionScript.Movie.HostClass
import ActionScript.Movie.Setup
import ActionScript.Proofs.HeapEdits
import ActionScript.Proofs.Random

/-! # What edits leave in order

A movie is in order if its free slots are known, no object has zero pins, no observer stands twice
under a key, and the recorded static states are live and differ from class to class
(`Movie.InOrder`). Every edit but the recording of a static state and of an observer keeps a movie
in order, keeps its settings, its static states and its observers, takes neither a class whose
state is recorded nor its initializer away, moves the random number generator by draws only, and
changes the heap by the edits that there are (`Edit.Passes`). -/

namespace ActionScript

/-! ## Observers -/

namespace Observers

variable {t : Observers} {key : String} {observer : Observer}

/-- A new observer goes to the end of its key, a known one stays where it was. -/
theorem of_register (t : Observers) (key : String) (observer : Observer) (key' : String) :
    (t.register key observer).of key' =
      if key' = key ∧ observer ∉ t.of key then t.of key ++ [observer] else t.of key' := by
  by_cases hpresent : observer ∈ t.of key
  · simp [register, hpresent]
  · rw [register, if_neg hpresent, of, Table.find?_insert]
    by_cases hkey : key' = key
    · rw [if_pos hkey, if_pos ⟨hkey, hpresent⟩]
      rfl
    · rw [if_neg hkey, if_neg (fun h => hkey h.1)]
      rfl

/-- Unregistering takes the observer out of its own key and out of no other. -/
theorem of_unregister (t : Observers) (key : String) (observer : Observer) (key' : String) :
    (t.unregister key observer).2.of key' =
      if key' = key then (t.of key).filter (· ≠ observer) else t.of key' := by
  rw [unregister]
  dsimp only
  split
  · rename_i hempty
    rw [of, Table.find?_erase, List.isEmpty_iff.mp hempty]
    split <;> rfl
  · rw [of, Table.find?_insert]
    split <;> rfl

/-- No observer is listed twice for a key after registering. -/
theorem nodup_register (h : ∀ key, (t.of key).Nodup) (key' : String) :
    ((t.register key observer).of key').Nodup := by
  rw [of_register]
  split
  · rename_i hnew
    exact List.nodup_append_comm.mp (List.nodup_cons.mpr ⟨hnew.2, h key⟩)
  · exact h key'

/-- No observer is listed twice for a key after unregistering. -/
theorem nodup_unregister (h : ∀ key, (t.of key).Nodup) (key' : String) :
    ((t.unregister key observer).2.of key').Nodup := by
  rw [of_unregister]
  split
  · exact (h key).filter _
  · exact h key'

end Observers

/-! ## Pins -/

namespace Movie

/-- Dropping a pin lowers its count by one, and the pin goes with its last count. -/
theorem find?_dropPin (pins : Table ObjectId Nat) (o p : ObjectId) :
    (dropPin pins o).find? p =
      if p = o then (pins.find? o).bind fun n => if n ≤ 1 then none else some (n - 1)
      else pins.find? p := by
  rw [dropPin]
  cases hfind : pins.find? o with
  | none =>
    by_cases hp : p = o
    · rw [if_pos hp, hp, hfind]
      rfl
    · rw [if_neg hp]
  | some n =>
    by_cases hn : n ≤ 1
    · simp [hn, Table.find?_erase]
    · simp [hn, Table.find?_insert]

/-! ## Movies in order -/

structure InOrder (m : Movie) : Prop where
  arena : m.heap.Arena
  /-- An object without pins has no entry. -/
  pinned : ∀ {o n}, m.pins.find? o = some n → 0 < n
  observers : ∀ key, (m.observers.of key).Nodup
  live : ∀ {key o}, m.staticStates.find? key = some o → m.heap.isLive o
  apart : ∀ {key key' o}, m.staticStates.find? key = some o →
    m.staticStates.find? key' = some o → key = key'

/-- A live class whose state is recorded stays live and keeps its initializer. -/
def KeepsClasses (m n : Movie) : Prop :=
  ∀ {c o}, m.staticStates.find? (.object c) = some o → m.heap.isLive c →
    n.heap.isLive c ∧ n.initializers.find? c = m.initializers.find? c

/-- The change of a movie by an edit that records neither a static state nor an observer. -/
structure Passes (m n : Movie) : Prop where
  settings : n.settings = m.settings
  random : Random.Follows m.random n.random
  staticStates : n.staticStates = m.staticStates
  observers : n.observers = m.observers
  edited : m.heap.Edited n.heap
  inOrder : m.InOrder → n.InOrder
  keepsClasses : m.InOrder → m.KeepsClasses n

variable {m n k : Movie}

/-- A new heap keeps a movie in order if it is an arena and the held objects stay live. -/
theorem InOrder.heap (hm : m.InOrder) {h : Heap} (harena : h.Arena)
    (hlive : ∀ {o}, m.Holds o → m.heap.isLive o → h.isLive o) : InOrder { m with heap := h } where
  arena := harena
  pinned := hm.pinned
  observers := hm.observers
  live hstate := hlive (.staticState hstate) (hm.live hstate)
  apart := hm.apart

namespace Passes

theorem refl (m : Movie) : m.Passes m :=
  ⟨rfl, .refl _, rfl, rfl, .refl _, id, fun _ _ _ _ hlive => ⟨hlive, rfl⟩⟩

theorem trans (h : m.Passes n) (h' : n.Passes k) : m.Passes k where
  settings := h'.settings.trans h.settings
  random := h.random.trans h'.random
  staticStates := h'.staticStates.trans h.staticStates
  observers := h'.observers.trans h.observers
  edited := h.edited.trans h'.edited
  inOrder hm := h'.inOrder (h.inOrder hm)
  keepsClasses hm := by
    intro c o hstate hlive
    obtain ⟨hlive, hinit⟩ := h.keepsClasses hm hstate hlive
    rw [← h.staticStates] at hstate
    obtain ⟨hlive, hinit'⟩ := h'.keepsClasses (h.inOrder hm) hstate hlive
    exact ⟨hlive, hinit'.trans hinit⟩

/-- A change of the heap that frees nothing the movie holds. -/
theorem heap {h : Heap} (hedited : m.heap.Edited h)
    (hlive : ∀ {o}, m.Holds o → m.heap.isLive o → h.isLive o) : m.Passes { m with heap := h } where
  settings := rfl
  random := .refl _
  staticStates := rfl
  observers := rfl
  edited := hedited
  inOrder hm := hm.heap (hedited.arena hm.arena) hlive
  keepsClasses _ := by
    intro c o hstate hc
    have hheld : m.Holds c := .staticClass (by rw [hstate]; rfl)
    exact ⟨hlive hheld hc, rfl⟩

/-- A change of registries that keep nothing of static states and observers. -/
theorem registries (hsettings : n.settings = m.settings) (hheap : n.heap = m.heap)
    (hstates : n.staticStates = m.staticStates) (hinits : n.initializers = m.initializers)
    (hobservers : n.observers = m.observers) (hrandom : Random.Follows m.random n.random)
    (hpins : m.InOrder → ∀ {o k}, n.pins.find? o = some k → 0 < k) : m.Passes n where
  settings := hsettings
  random := hrandom
  staticStates := hstates
  observers := hobservers
  edited := hheap ▸ .refl _
  inOrder hm := by
    refine ⟨hheap ▸ hm.arena, hpins hm, hobservers ▸ hm.observers, ?_, ?_⟩
    · rw [hstates, hheap]
      exact hm.live
    · rw [hstates]
      exact hm.apart
  keepsClasses _ := by
    intro c o hstate hc
    rw [hheap, hinits]
    exact ⟨hc, rfl⟩

/-- A class that did not exist before gets its initializer. -/
theorem initializer (h : m.Passes n) {c : ObjectId} (hc : m.heap.Arena → ¬ m.heap.isLive c)
    (code : Code) : m.Passes { n with initializers := n.initializers.insert c code } where
  settings := h.settings
  random := h.random
  staticStates := h.staticStates
  observers := h.observers
  edited := h.edited
  inOrder hm :=
    have hn := h.inOrder hm
    ⟨hn.arena, hn.pinned, hn.observers, hn.live, hn.apart⟩
  keepsClasses hm := by
    intro c' o hstate hlive
    obtain ⟨hlive', hinit⟩ := h.keepsClasses hm hstate hlive
    refine ⟨hlive', ?_⟩
    rw [← hinit, Table.find?_insert, if_neg]
    rintro rfl
    exact hc hm.arena hlive

end Passes

end Movie

/-- In every movie, the edit passes. -/
def Edit.Passes {α : Type} (x : Edit α) : Prop := ∀ m : Movie, m.Passes (x m).2

namespace Edit.Passes

variable {α β : Type}

theorem pure {a : α} : Edit.Passes (pure a) := fun m => .refl m

/-- An update in two parts passes when each part does, whatever the first one gives. -/
theorem bind {x : Edit α} {f : α → Edit β} (hx : x.Passes) (hf : ∀ a, (f a).Passes) :
    Edit.Passes (x >>= f) :=
  fun m => (hx m).trans (hf (x m).1 (x m).2)

theorem get {f : Movie → Edit β} (hf : ∀ m, (f m).Passes) : Edit.Passes (get >>= f) :=
  fun m => hf m m

theorem forM {f : α → Edit PUnit} (hf : ∀ a, (f a).Passes) (xs : List α) :
    Edit.Passes (xs.forM f) := by
  induction xs with
  | nil => exact .pure
  | cons a xs ih => exact .bind (hf a) fun _ => ih

/-! ## Objects and their slots -/

theorem allocate (prototype : Option ObjectId) (kind : Kind) (elements : List Value) :
    Edit.Passes (Movie.onHeap
      (·.allocate { prototype, kind, properties := Movie.elementSlots elements })) := by
  intro m
  refine .heap (Heap.Edit.allocate prototype kind elements).edited fun _ hlive => ?_
  exact Heap.isLive_allocate_of_isLive hlive _

theorem modify (o : ObjectId) {f : Object → Object} (hf : Object.Change f) :
    Edit.Passes (Movie.modifyHeap (·.modify o f)) := by
  intro m
  refine .heap (Heap.Edit.modify o hf).edited fun _ hlive => ?_
  rw [Heap.isLive_modify]
  exact hlive

theorem create (p : Option ObjectId) (kind : Kind) : Edit.Passes (Movie.create p kind) :=
  allocate p kind []

theorem createObject : Edit.Passes Movie.createObject := .get fun _ => .create _ _

/-- Storing a slot is a passage: it changes one object in place. -/
theorem storeAs (o : ObjectId) (key name : String) (p : Property) :
    Edit.Passes (Movie.storeAs o key name p) :=
  .get fun _ => .modify o (.insert key _)

theorem define (o : ObjectId) (name : String) (p : Property) :
    Edit.Passes (Movie.define o name p) :=
  .get fun _ => .storeAs o _ name p

theorem deleteOwn (o : ObjectId) (name : String) : Edit.Passes (Movie.deleteOwn o name) :=
  .get fun _ => .bind (.modify o (.erase _)) fun _ => .pure

/-- Flags of any list of keys are changed slot by slot, each a change in place. -/
theorem adjustSlots (o : ObjectId) (keys : List String) (set clear : Flags) :
    Edit.Passes (Movie.modifyHeap fun h =>
      keys.foldl (fun h key => h.modifySlot o key (·.adjust set clear)) h) := by
  intro m
  induction keys generalizing m with
  | nil => exact .refl m
  | cons key keys ih => exact (modify o (.adjust key set clear) m).trans (ih _)

theorem setFlags (o : ObjectId) (names : Option (List String)) (set clear : Flags) :
    Edit.Passes (Movie.setFlags o names set clear) :=
  .get fun _ => .adjustSlots o _ set clear

/-! ## Functions and classes -/

theorem createFunction (callable : Callable) : Edit.Passes (Movie.createFunction callable) :=
  .get fun _ => .create _ _

theorem linkConstructor (c p : ObjectId) : Edit.Passes (Movie.linkConstructor c p) :=
  .bind (.define c _ _) fun _ => .define p _ _

theorem createMethod? (members : HostMembers) (name : String) :
    Edit.Passes (Movie.createMethod? members name) := by
  rw [Movie.createMethod?]
  split
  · exact .bind (.createFunction _) fun _ => .pure
  · exact .pure

theorem addAccessor (o : ObjectId) (members : HostMembers) (base : String) :
    Edit.Passes (Movie.addAccessor o members base) := by
  refine .bind (.createMethod? members _) fun getter => ?_
  refine .bind (.createMethod? members _) fun setter => ?_
  split
  · exact .define o base _
  · exact .pure

theorem addMember (o : ObjectId) (members : HostMembers) (name : String) :
    Edit.Passes (Movie.addMember o members name) := by
  rw [Movie.addMember]
  split
  · exact .addAccessor o members _
  · split
    · exact .bind (.createFunction _) fun f => .define o name _
    · exact .define o name _
    · exact .pure

theorem addMembers (o : ObjectId) (members : HostMembers) (names : List String) :
    Edit.Passes (Movie.addMembers o members names) :=
  .forM (addMember o members) names

/-- The class of a new constructor had no static state: it was not live before. -/
theorem addHostClass (spec : HostClassSpec) : Edit.Passes (Movie.addHostClass spec) := by
  intro m
  have hrest : ∀ c p : ObjectId, Edit.Passes (do
      Movie.addMembers c spec.statics spec.staticNames
      Movie.addMembers p spec.members spec.memberNames
      return (c, p)) := fun c p =>
    .bind (.addMembers c _ _) fun _ => .bind (.addMembers p _ _) fun _ => .pure
  have hlink : ∀ callable, Edit.Passes (do
      let c ← Movie.createFunction callable
      let p ← Movie.createObject
      Movie.linkConstructor c p) := fun callable =>
    .bind (.createFunction callable) fun c => .bind .createObject fun p => .linkConstructor c p
  cases hinit : spec.initializer with
  | none =>
    simp only [Movie.addHostClass, hinit]
    exact (hlink _ m).trans (hrest _ _ _)
  | some f =>
    simp only [Movie.addHostClass, hinit]
    refine .trans ((hlink _ m).initializer ?_ (.host f)) (hrest _ _ _)
    exact fun harena => harena.not_isLive_allocate _

/-! ## Registries -/

theorem nextRandom : Edit.Passes Movie.nextRandom :=
  fun _ => .registries rfl rfl rfl rfl rfl (.step _) fun hm => hm.pinned

theorem registerClass (name : String) (cls : ObjectId) :
    Edit.Passes (Movie.registerClass name cls) :=
  fun _ => .registries rfl rfl rfl rfl rfl (.refl _) fun hm => hm.pinned

theorem pin (o : ObjectId) : Edit.Passes (Movie.pin o) := by
  refine fun m => .registries rfl rfl rfl rfl rfl (.refl _) fun hm => ?_
  intro p n hp
  replace hp : (m.pins.insert o ((m.pins.find? o).getD 0 + 1)).find? p = some n := hp
  rw [Table.find?_insert] at hp
  split at hp
  · cases hp
    exact Nat.succ_pos _
  · exact hm.pinned hp

theorem unpin (o : ObjectId) : Edit.Passes (Movie.unpin o) := by
  refine fun m => .registries rfl rfl rfl rfl rfl (.refl _) fun hm => ?_
  intro p n hp
  replace hp : (Movie.dropPin m.pins o).find? p = some n := hp
  rw [Movie.find?_dropPin] at hp
  split at hp
  · obtain ⟨k, _, hk⟩ := Option.bind_eq_some_iff.mp hp
    split at hk
    · cases hk
    · cases hk
      omega
  · exact hm.pinned hp

/-- A collection keeps what the movie holds. -/
theorem collectGarbage (extra : List ObjectId) : Edit.Passes (Movie.collectGarbage extra) := by
  intro m
  refine .heap (h := (m.heap.collect (m.roots ++ extra)).2) (Heap.Edit.collect _).edited
    fun hheld hlive => ?_
  rw [Heap.isLive_collect_iff]
  exact .root (List.mem_append_left extra (Movie.mem_roots_iff.mpr hheld)) hlive

/-! ## The built-in objects -/

theorem assign (role : Intrinsics → Intrinsics) : Edit.Passes (Movie.assign role) :=
  fun _ => .registries rfl rfl rfl rfl rfl (.refl _) fun hm => hm.pinned

theorem addMethod (o : ObjectId) (name : String) (routine : Builtin) :
    Edit.Passes (Movie.addMethod o name routine) :=
  .bind (.createFunction _) fun _ => .define o name _

theorem addMethods (o : ObjectId) (methods : List (String × Builtin)) :
    Edit.Passes (Movie.addMethods o methods) := by
  refine .forM (fun method => ?_) methods
  obtain ⟨name, routine⟩ := method
  exact .addMethod o name routine

theorem addConstant (o : ObjectId) (name : String) (x : Number) :
    Edit.Passes (Movie.addConstant o name x) :=
  .define o name _

theorem publish (name : String) (o : ObjectId) : Edit.Passes (Movie.publish name o) :=
  .get fun _ => .define _ name _

theorem addClass (name : String) (p : ObjectId) (call construct : Builtin) :
    Edit.Passes (Movie.addClass name p call construct) :=
  .bind (.createFunction _) fun c => .bind (.linkConstructor c p) fun _ =>
    .bind (.publish name c) fun _ => .pure

theorem addBuiltinClass (name : String) (call construct : Builtin)
    (prototypeRole classRole : ObjectId → Intrinsics → Intrinsics) :
    Edit.Passes (Movie.addBuiltinClass name call construct prototypeRole classRole) :=
  .bind .createObject fun _ => .bind (.assign _) fun _ => .bind (.addClass name _ _ _) fun _ =>
    .bind (.assign _) fun _ => .pure

theorem setupRoots (p : ObjectId) : Edit.Passes (Movie.setupRoots p) := by
  refine .bind (.assign _) fun _ => .bind (.create _ _) fun f => .bind (.assign _) fun _ => ?_
  refine .bind .createObject fun global m => ?_
  exact .registries rfl rfl rfl rfl rfl (.refl _) fun hm => hm.pinned

theorem setupObject : Edit.Passes Movie.setupObject :=
  .get fun _ => .bind (.addClass _ _ _ _) fun _ => .bind (.assign _) fun _ =>
    .bind (.addMethod _ _ _) fun _ => .addMethods _ _

theorem setupFunction : Edit.Passes Movie.setupFunction :=
  .get fun _ => .bind (.addClass _ _ _ _) fun _ => .bind (.assign _) fun _ => .addMethods _ _

theorem setupError : Edit.Passes Movie.setupError :=
  .bind .createObject fun _ => .bind (.assign _) fun _ => .bind (.define _ _ _) fun _ =>
    .bind (.define _ _ _) fun _ => .bind (.addMethod _ _ _) fun _ =>
      .bind (.addClass _ _ _ _) fun _ => .assign _

theorem setupNumber : Edit.Passes Movie.setupNumber :=
  .bind (.addBuiltinClass _ _ _ _ _) fun _ => .bind (.addConstant _ _ _) fun _ =>
    .bind (.addConstant _ _ _) fun _ => .bind (.addConstant _ _ _) fun _ =>
      .bind (.addConstant _ _ _) fun _ => .bind (.addConstant _ _ _) fun _ => .addMethods _ _

theorem setupMath : Edit.Passes Movie.setupMath :=
  .bind .createObject fun _ => .bind (.assign _) fun _ => .bind (.publish _ _) fun _ =>
    .bind (.addConstant _ _ _) fun _ => .bind (.addConstant _ _ _) fun _ => .addMethods _ _

theorem setupGlobal : Edit.Passes Movie.setupGlobal :=
  .get fun _ => .bind (.addConstant _ _ _) fun _ => .bind (.addConstant _ _ _) fun _ =>
    .bind (.addMethod _ _ _) fun _ => .publish _ _

/-- A class with a prototype of its own and the methods of its instances. -/
theorem setupClass (name : String) (call construct : Builtin)
    (prototypeRole classRole : ObjectId → Intrinsics → Intrinsics)
    (methods : List (String × Builtin)) : Edit.Passes (do
      let (prototype, _) ← Movie.addBuiltinClass name call construct prototypeRole classRole
      Movie.addMethods prototype methods) :=
  .bind (.addBuiltinClass name call construct _ _) fun _ => .addMethods _ methods

/-- The whole start of a movie is a passage, put together from those of its classes. -/
theorem setup : Edit.Passes Movie.setup :=
  .bind (.create _ _) fun _ => .bind (.setupRoots _) fun _ => .bind .setupObject fun _ =>
    .bind .setupFunction fun _ => .bind .setupError fun _ =>
      .bind (.setupClass _ _ _ _ _ _) fun _ => .bind .setupNumber fun _ =>
        .bind (.setupClass _ _ _ _ _ _) fun _ => .bind .setupMath fun _ =>
          .bind (.setupClass _ _ _ _ _ _) fun _ => .bind (.setupClass _ _ _ _ _ _) fun _ =>
            .setupGlobal

end Edit.Passes

namespace Movie

/-- The movie with nothing in it is in order. -/
theorem inOrder_empty (settings : Settings) (random : UInt64) :
    InOrder { settings, random } where
  arena := .empty
  pinned := nofun
  observers _ := List.nodup_nil
  live := nofun
  apart := nofun

/-- A new movie is a passage away from the empty one. -/
theorem passes_new (settings : Settings) :
    Passes { settings, random := Random.start settings.seed } (new settings) := by
  rw [new, StateT.run]
  exact Edit.Passes.setup { settings, random := Random.start settings.seed }

/-- Every movie starts in order. -/
theorem inOrder_new (settings : Settings) : (new settings).InOrder :=
  (passes_new settings).inOrder (inOrder_empty settings _)

/-- No class has a static state when the movie starts. -/
theorem staticStates_new (settings : Settings) : (new settings).staticStates = .empty :=
  (passes_new settings).staticStates

end Movie

end ActionScript
