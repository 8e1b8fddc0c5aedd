import ActionScript.Proofs.Alike.Known
import ActionScript.Proofs.Correspondence.Builtin

/-! # What an embedder asks of a machine

The calls that an embedder makes, the handles that it passes in them, and the replies it gets.
Data calls create objects and read, write and link them; they may be made under other handles. -/

namespace ActionScript

namespace Session

/-! ## Calls and replies -/

inductive DataCall where
  | createObject
  | createWithPrototype (prototype : Option ObjectId)
  | createArray (elements : List Value)
  | read (o : ObjectId) (name : String)
  | write (o : ObjectId) (name : String) (value : Value)
  | has (o : ObjectId) (name : String)
  | hasOwn (o : ObjectId) (name : String)
  | canPut (o : ObjectId) (name : String)
  | delete (o : ObjectId) (name : String)
  | define (o : ObjectId) (name : String) (slot : Property)
  | setPrototype (o : ObjectId) (prototype : Option ObjectId)
  | prototypeOf (o : ObjectId)
  | isPrototypeOf (o : ObjectId) (value : Value)
  | ownKeys (o : ObjectId)
  | allKeys (o : ObjectId)

inductive Call where
  | data (call : DataCall)
  | createNative (name : String) (call : Code) (construct : Option Code)
  | createEval (name : String) (call : Code)
  | createInterpreted (name : String) (actions : ActionsId) (scope : Scope)
  | addMembers (o : ObjectId) (members : HostMembers) (names : List String)
  | addHostClass (spec : HostClassSpec)
  | deleteOwn (o : ObjectId) (name : String)
  | setWatcher (o : ObjectId) (name : String) (watcher : Option Watcher)
  | setFlags (o : ObjectId) (names : Option (List String)) (set clear : Flags)
  | setBlocks (o : ObjectId) (blocked colorBlocked : Bool)
  | readAt (o : ObjectId) (key : Value)
  | writeAt (o : ObjectId) (key value : Value)
  | defaultValue (o : ObjectId) (hint : Machine.Hint)
  | toNumber (value : Value)
  | toText (value : Value)
  | toKey (value : Value)
  | toObject (value : Value)
  | elements (a : ObjectId)
  | call (function : Value) (this : Value) (args : List Value)
  | construct (function : ObjectId) (args : List Value)
  | executeActions (actions : ActionsId) (scope : ObjectId)
  | resolveTarget (target : Value)
  | checkTimeout
  | broadcast (name : String)
  | staticState (cls : HostClass)
  | classState (constructor : ObjectId)
  | pin (o : ObjectId)
  | unpin (o : ObjectId)
  | callback (o : ObjectId)
  | nextRandom
  | registerClass (name : String) (cls : ObjectId)
  | addAsset (name : String) (symbol : Nat) (description : String)
  | observe (name : String) (observer : Observer)
  | unobserve (name : String) (observer : Observer)
  | installExecutor (executor : Executor)
  | createActions (buffer : BufferId) (bytes : List UInt8) (name : String)
      (parent : Option ActionsId)
  | dropActions (actions : ActionsId)
  | collect (extra : List ObjectId)

inductive Reply where
  | nothing
  | flag (b : Bool)
  | count (n : Nat)
  | number (x : Number)
  | text (s : String)
  | names (names : List String)
  | value (v : Value)
  | values (vs : List Value)
  | object (o : ObjectId)
  | object? (o : Option ObjectId)
  | objects (o p : ObjectId)
  | actions (id : ActionsId)

end Session

/-- The handles of the values among the members. -/
def HostMembers.handles (members : HostMembers) : List ObjectId :=
  members.values.flatMap fun
    | .method _ => []
    | .value v => v.handles

namespace Session

namespace DataCall

/-- The handles that are passed in. -/
def handles : DataCall → List ObjectId
  | createObject => []
  | createWithPrototype prototype => prototype.toList
  | createArray elements => elements.flatMap Value.handles
  | read o _ | has o _ | hasOwn o _ | canPut o _ | delete o _ => [o]
  | write o _ value => o :: value.handles
  | define o _ slot => o :: slot.references
  | setPrototype o prototype => o :: prototype.toList
  | isPrototypeOf o value => o :: value.handles
  | prototypeOf o | ownKeys o | allKeys o => [o]

/-- The call under other handles. -/
def rename (π : ObjectId → ObjectId) : DataCall → DataCall
  | createObject => createObject
  | createWithPrototype prototype => createWithPrototype (prototype.map π)
  | createArray elements => createArray (elements.map (Value.rename π))
  | read o name => read (π o) name
  | write o name value => write (π o) name (value.rename π)
  | has o name => has (π o) name
  | hasOwn o name => hasOwn (π o) name
  | canPut o name => canPut (π o) name
  | delete o name => delete (π o) name
  | define o name slot => define (π o) name (slot.rename π)
  | setPrototype o prototype => setPrototype (π o) (prototype.map π)
  | prototypeOf o => prototypeOf (π o)
  | isPrototypeOf o value => isPrototypeOf (π o) (value.rename π)
  | ownKeys o => ownKeys (π o)
  | allKeys o => allKeys (π o)

theorem rename_id (call : DataCall) : call.rename id = call := by
  cases call <;> simp [rename, show Value.rename id = id from funext Value.rename_id]

/-- A call is renamed alike by maps that agree on the handles that are passed in. -/
theorem rename_congr {π ρ : ObjectId → ObjectId} {call : DataCall}
    (h : ∀ o ∈ call.handles, π o = ρ o) : call.rename π = call.rename ρ := by
  have hoption : ∀ {x : Option ObjectId}, (∀ o ∈ x.toList, π o = ρ o) → x.map π = x.map ρ := by
    intro x hx
    cases x with
    | none => rfl
    | some o => rw [Option.map_some, Option.map_some, hx o List.mem_cons_self]
  cases call with
  | createObject => rfl
  | createWithPrototype p => rw [rename, rename, hoption h]
  | createArray vs =>
    rw [rename, rename]
    refine congrArg createArray (List.map_congr_left fun v hv => Value.rename_congr fun o ho => ?_)
    exact h o (List.mem_flatMap.mpr ⟨v, hv, ho⟩)
  | read o | has o | hasOwn o | canPut o | delete o | prototypeOf o | ownKeys o | allKeys o =>
    rw [rename, rename, h o List.mem_cons_self]
  | write o name v | isPrototypeOf o v =>
    have hv := Value.rename_congr fun p hp => h p (List.mem_cons_of_mem _ hp)
    rw [rename, rename, h o List.mem_cons_self, hv]
  | define o name p =>
    have hp := Property.rename_congr fun q hq => h q (List.mem_cons_of_mem _ hq)
    rw [rename, rename, h o List.mem_cons_self, hp]
  | setPrototype o p =>
    have hp := hoption fun q hq => h q (List.mem_cons_of_mem _ hq)
    rw [rename, rename, h o List.mem_cons_self, hp]

variable {σ : Type} [Journal σ]

def perform (m : Machine σ) : DataCall → Run σ Reply
  | createObject => return .object (← Movie.createObject)
  | createWithPrototype prototype => return .object (← Movie.createWithPrototype prototype)
  | createArray elements => return .object (← Movie.createArray elements)
  | read o name => return .value (← m.read o name)
  | write o name value => do
    m.write o name value
    return .nothing
  | has o name => return .flag ((← getMovie).has o name)
  | hasOwn o name => return .flag ((← getMovie).hasOwn o name)
  | canPut o name => return .flag ((← getMovie).canPut o name)
  | delete o name => return .flag (← m.delete o name)
  | define o name slot => do
    Movie.define o name slot
    return .nothing
  | setPrototype o prototype => return .flag (← Movie.setPrototype o prototype)
  | prototypeOf o => return .object? ((← getMovie).heap.prototype? o)
  | isPrototypeOf o value =>
    return .flag (value.object?.any ((← getMovie).heap.isPrototypeOf o))
  | ownKeys o => return .names ((← getMovie).ownKeys o)
  | allKeys o => return .names ((← getMovie).allKeys o)

end DataCall

namespace Reply

inductive Alike (r : Matching) : Reply → Reply → Prop
  | nothing : Alike r .nothing .nothing
  | flag : Alike r (.flag b) (.flag b)
  | count : Alike r (.count n) (.count n)
  | number : Alike r (.number x) (.number x)
  | text : Alike r (.text s) (.text s)
  | names : List.Forall₂ r.spelling ns ns' → Alike r (.names ns) (.names ns')
  | value : Value.Alike r v v' → Alike r (.value v) (.value v')
  | values : List.Forall₂ (Value.Alike r) vs vs' → Alike r (.values vs) (.values vs')
  | object : r.handle o o' → Alike r (.object o) (.object o')
  | object? : Option.Rel r.handle o o' → Alike r (.object? o) (.object? o')
  | objects : r.handle o o' → r.handle p p' → Alike r (.objects o p) (.objects o' p')
  | actions : Alike r (.actions a) (.actions a)

def handles : Reply → List ObjectId
  | value v => v.handles
  | values vs => vs.flatMap Value.handles
  | object o => [o]
  | object? o => o.toList
  | objects o p => [o, p]
  | nothing | flag _ | count _ | number _ | text _ | names _ | actions _ => []

/-- The reply with other handles. -/
def rename (π : ObjectId → ObjectId) : Reply → Reply
  | value v => value (v.rename π)
  | values vs => values (vs.map (Value.rename π))
  | object o => object (π o)
  | object? o => object? (o.map π)
  | objects o p => objects (π o) (π p)
  | reply => reply

variable {r s : Matching} {x y : Reply}

theorem Alike.mono (h : r ≤ s) (hxy : Reply.Alike r x y) : Reply.Alike s x y := by
  cases hxy with
  | names hns => exact .names (hns.imp fun _ _ => h.2)
  | value hv => exact .value (hv.mono h)
  | values hvs => exact .values (hvs.imp fun _ _ => Value.Alike.mono h)
  | object ho => exact .object (h.1 ho)
  | object? ho => exact .object? (optionRel_mono h.1 ho)
  | objects ho hp => exact .objects (h.1 ho) (h.1 hp)
  | nothing => exact .nothing
  | flag => exact .flag
  | count => exact .count
  | number => exact .number
  | text => exact .text
  | actions => exact .actions

/-- A reply that is alike to another is its renaming. -/
theorem Alike.eq_rename {π : ObjectId → ObjectId} (hπ : ∀ {o p}, r.handle o p → p = π o)
    (hspelling : ∀ {a b}, r.spelling a b → a = b) (hxy : Reply.Alike r x y) : y = x.rename π := by
  cases hxy with
  | names hns =>
    have hnames := hns.imp fun _ _ => hspelling
    rw [List.forall₂_eq_eq_eq] at hnames
    rw [hnames]
    rfl
  | value hv => rw [hv.eq_rename hπ, rename]
  | values hvs => rw [forall₂_eq_rename hπ hvs, rename]
  | object ho => rw [hπ ho, rename]
  | object? ho => rw [optionRel_eq_rename hπ ho, rename]
  | objects ho hp => rw [hπ ho, hπ hp, rename]
  | nothing | flag | count | number | text | actions => rfl

/-- Every handle in a reply stands for one in an alike reply. -/
theorem Alike.handle (hxy : Reply.Alike r x y) {o : ObjectId} (ho : o ∈ x.handles) :
    ∃ p, r.handle o p := by
  have hvalue : ∀ {v w}, Value.Alike r v w → o ∈ v.handles → ∃ p, r.handle o p := by
    intro v w hv ho
    cases hv with
    | object hp =>
      cases List.mem_singleton.mp ho
      exact ⟨_, hp⟩
    | _ => cases ho
  cases hxy with
  | value hv => exact hvalue hv ho
  | values hvs =>
    obtain ⟨v, hv, ho⟩ := List.mem_flatMap.mp ho
    obtain ⟨w, hvw⟩ := exists_of_forall₂ hvs hv
    exact hvalue hvw ho
  | object hp =>
    cases List.mem_singleton.mp ho
    exact ⟨_, hp⟩
  | object? hp =>
    cases hp with
    | some hp =>
      cases List.mem_singleton.mp ho
      exact ⟨_, hp⟩
    | none => cases ho
  | objects hp hq =>
    rcases List.mem_pair.mp ho with rfl | rfl
    · exact ⟨_, hp⟩
    · exact ⟨_, hq⟩
  | _ => cases ho

end Reply

/-! ## Data calls side by side -/

section Rename

variable {r : Matching} {π : ObjectId → ObjectId}
variable {σ : Type} [Journal σ] {C : Correspondence σ} {m : Machine σ}

/-- A data call under handles that stand for those passed in has an alike reply. -/
theorem DataCall.perform_runs (hm : C.Respects m) {call : DataCall}
    (h : ∀ o ∈ call.handles, r.handle o (π o)) :
    C.Runs r (call.perform m) ((call.rename π).perform m) Reply.Alike := by
  cases call with
  | createObject => exact .bind (.edit fun _ _ => .createObject) fun _ ho => .pure (.object ho)
  | createWithPrototype p =>
    have hp := option_alike_rename fun o ho => h o (Option.mem_toList.mpr ho)
    exact .bind (.edit fun _ _ => .create hp _) fun _ ho => .pure (.object ho)
  | createArray vs =>
    have hvs := values_alike_rename h
    exact .bind (.edit fun _ _ => .createArray hvs) fun _ ho => .pure (.object ho)
  | read o name =>
    have ho := h o List.mem_cons_self
    exact .bind (hm.read ho name) fun _ hv => .pure (.value hv)
  | write o name v =>
    have ho := h o List.mem_cons_self
    have hv := value_alike_rename fun p hp => h p (List.mem_cons_of_mem _ hp)
    exact .bind (hm.write ho hv name) fun _ _ => .pure .nothing
  | has o name =>
    refine .movie fun hmovie => ?_
    rw [hmovie.has (h o List.mem_cons_self)]
    exact .pure .flag
  | hasOwn o name =>
    refine .movie fun hmovie => ?_
    rw [hmovie.hasOwn (h o List.mem_cons_self)]
    exact .pure .flag
  | canPut o name =>
    refine .movie fun hmovie => ?_
    rw [Movie.canPut, Movie.canPut, hmovie.normalize, hmovie.canPut (h o List.mem_cons_self)]
    exact .pure .flag
  | delete o name =>
    refine .bind (.lift (hm.delete (h o List.mem_cons_self) name)) fun _ hb => ?_
    rw [hb]
    exact .pure .flag
  | define o name p =>
    refine .of_alike fun hmovie => ?_
    have ho := h o List.mem_cons_self
    have hp := property_alike_rename hmovie.spellings fun q hq => h q (List.mem_cons_of_mem _ hq)
    exact .bind (.edit fun _ _ => .define ho name hp) fun _ _ => .pure .nothing
  | setPrototype o p =>
    have ho := h o List.mem_cons_self
    have hp : Option.Rel r.handle p (p.map π) := option_alike_rename fun q hq =>
      h q (List.mem_cons_of_mem _ (Option.mem_toList.mpr hq))
    refine .bind (.edit fun _ _ => .setPrototype ho hp) fun _ hb => ?_
    rw [hb]
    exact .pure .flag
  | prototypeOf o =>
    refine .movie fun hmovie => ?_
    exact .pure (.object? (hmovie.prototype? (h o List.mem_cons_self)))
  | isPrototypeOf o v =>
    have ho := h o List.mem_cons_self
    have hv : Value.Alike r v (v.rename π) :=
      value_alike_rename fun p hp => h p (List.mem_cons_of_mem _ hp)
    refine .movie fun {movie movie'} hmovie => ?_
    have habove : v.object?.any (movie.heap.isPrototypeOf o) =
        (v.rename π).object?.any (movie'.heap.isPrototypeOf (π o)) := by
      rcases optionRel_cases hv.object? with ⟨p, p', hp, hp', hop⟩ | ⟨hp, hp'⟩
      · rw [hp, hp', Option.any_some, Option.any_some, hmovie.isPrototypeOf hop ho]
      · rw [hp, hp', Option.any_none, Option.any_none]
    rw [habove]
    exact .pure .flag
  | ownKeys o =>
    refine .movie fun hmovie => ?_
    exact .pure (.names (hmovie.ownKeys (h o List.mem_cons_self)))
  | allKeys o =>
    refine .movie fun hmovie => ?_
    exact .pure (.names (hmovie.allKeys (h o List.mem_cons_self)))

end Rename

/-! ## All calls -/

namespace Call

/-- The handles that are passed in. -/
def handles : Call → List ObjectId
  | data c => c.handles
  | addMembers o members _ => o :: members.handles
  | addHostClass spec => spec.statics.handles ++ spec.members.handles
  | setWatcher o _ watcher =>
    o :: (watcher.toList.flatMap fun w => w.callback :: w.userData.handles)
  | deleteOwn o _ | setFlags o _ _ _ | setBlocks o _ _ | defaultValue o _ => [o]
  | readAt o key => o :: key.handles
  | writeAt o key value => o :: (key.handles ++ value.handles)
  | toNumber v | toText v | toKey v | toObject v | resolveTarget v => v.handles
  | elements o | classState o | pin o | unpin o | callback o | registerClass _ o => [o]
  | call function this args => function.handles ++ (this.handles ++ args.flatMap Value.handles)
  | construct function args => function :: args.flatMap Value.handles
  | executeActions _ scope => [scope]
  | collect extra => extra
  | createNative .. | createEval .. | createInterpreted .. | checkTimeout | broadcast _
  | staticState _ | nextRandom | addAsset .. | observe .. | unobserve .. | installExecutor _
  | createActions .. | dropActions _ => []

end Call

end Session

namespace Movie

def setBlocks (o : ObjectId) (blocked colorBlocked : Bool) : Edit Unit :=
  modifyHeap (·.modify o fun x => { x with blocked, colorBlocked })

def addAsset (name : String) (symbol : Nat) (description : String) : Edit Unit :=
  modify fun m => { m with assets := m.assets.add name symbol description }

def observe (name : String) (observer : Observer) : Edit Unit :=
  modify fun m => { m with observers := m.observers.register (m.normalize name) observer }

def unobserve (name : String) (observer : Observer) : Edit Bool := fun m =>
  let (present, observers) := m.observers.unregister (m.normalize name) observer
  (present, { m with observers })

def installExecutor (executor : Executor) : Edit Unit :=
  modify fun m => { m with executor := some executor }

def createActions (buffer : BufferId) (bytes : List UInt8) (name : String)
    (parent : Option ActionsId) : Edit ActionsId := fun m =>
  let (id, actions) := m.actions.create m.heap.actions buffer bytes name parent
  (id, { m with actions })

def dropActions (id : ActionsId) : Edit Unit :=
  modify fun m => { m with actions := m.actions.drop id }

end Movie

namespace Session

variable {σ : Type} [Journal σ]

def Call.perform (m : Machine σ) : Call → Run σ Reply
  | data c => c.perform m
  | createNative name code constructor =>
    return .object (← Movie.createNative name code constructor)
  | createEval name code => return .object (← Movie.createEval name code)
  | createInterpreted name actions scope =>
    return .object (← Movie.createInterpreted name actions scope)
  | addMembers o members names => do
    Movie.addMembers o members names
    return .nothing
  | addHostClass spec => do
    let (constructor, prototype) ← Movie.addHostClass spec
    return .objects constructor prototype
  | deleteOwn o name => return .flag (← Movie.deleteOwn o name)
  | setWatcher o name watcher => return .flag (← Movie.setWatcher o name watcher)
  | setFlags o names set clear => do
    Movie.setFlags o names set clear
    return .nothing
  | setBlocks o blocked colorBlocked => do
    Movie.setBlocks o blocked colorBlocked
    return .nothing
  | readAt o key => return .value (← m.readAt o key)
  | writeAt o key value => do
    m.writeAt o key value
    return .nothing
  | defaultValue o hint => return .value (← m.defaultValue o hint)
  | toNumber v => return .number (← m.toNumber v)
  | toText v => return .text (← m.toText v)
  | toKey v => return .text (← m.toKey v)
  | toObject v => return .object (← m.toObject v)
  | elements a => return .values (← m.elements a)
  | call function this args => return .value (← m.callValue function this args)
  | construct function args => return .value (← m.construct function args)
  | executeActions actions scope => return .value (← m.executeActions actions scope)
  | resolveTarget target => return .object? (← m.resolveTarget target)
  | checkTimeout => do
    m.checkTimeout
    return .nothing
  | broadcast name => do
    m.broadcast name
    return .nothing
  | staticState cls => return .object (← m.staticState cls)
  | classState constructor => return .object (← m.classState constructor)
  | pin o => do
    Movie.pin o
    return .nothing
  | unpin o => do
    Movie.unpin o
    return .nothing
  | callback o => return .object? ((← Machine.callback? o).map Machine.Callback.function)
  | nextRandom => return .number (← Movie.nextRandom)
  | registerClass name cls => return .flag (← Movie.registerClass name cls)
  | addAsset name symbol description => do
    Movie.addAsset name symbol description
    return .nothing
  | observe name observer => do
    Movie.observe name observer
    return .nothing
  | unobserve name observer => return .flag (← Movie.unobserve name observer)
  | installExecutor executor => do
    Movie.installExecutor executor
    return .nothing
  | createActions buffer bytes name parent =>
    return .actions (← Movie.createActions buffer bytes name parent)
  | dropActions id => do
    Movie.dropActions id
    return .nothing
  | collect extra => return .count (← Movie.collectGarbage extra)

/-- Calls whose replies do not depend on the slots of objects that nothing refers to. -/
def Call.isLocal : Call → Bool
  | createActions .. | collect _ => false
  | _ => true

/-! ## Calls side by side -/

section Respects

variable {C : Correspondence σ} {m : Machine σ} {r : Matching}

theorem members_known {members : HostMembers} (h : ∀ o ∈ members.handles, r.handle o o) :
    Correspondence.MembersKnown r members := by
  intro name v hv
  refine value_known fun o ho => h o (List.mem_flatMap.mpr ⟨.value v, ?_, ho⟩)
  exact Table.mem_values_iff.mpr ⟨name, hv⟩

theorem watcher_known {watcher : Option Watcher}
    (h : ∀ o ∈ watcher.toList.flatMap fun w => w.callback :: w.userData.handles, r.handle o o) :
    Option.Rel (Watcher.Alike r) watcher watcher := by
  cases watcher with
  | none => exact .none
  | some w =>
    refine .some ⟨rfl, h _ (by simp), value_known fun o ho => h o ?_⟩
    rw [Option.toList_some, List.flatMap_singleton]
    exact List.mem_cons_of_mem _ ho

/-- An edit that drops the slot of one key. -/
theorem deleteOwn_updates {o o' : ObjectId} (ho : r.handle o o') {name name' : String}
    (hkey : ∀ s t, C.state r s t → s.movie.normalize name = t.movie.normalize name') :
    C.Updates r (liftM (Movie.deleteOwn o name)) (liftM (Movie.deleteOwn o' name'))
      fun _ b b' => b = b' := by
  intro s t hs
  have hmovie := C.alike (C.start hs)
  refine ⟨r, le_refl r, ?_, ?_⟩
  · have hdrop := C.drop (p := fun k => decide (k = s.movie.normalize name)) hs ho
    rw [← Heap.remove_eq_modify, ← Heap.remove_eq_modify] at hdrop
    nth_rewrite 2 [hkey s t hs] at hdrop
    exact hdrop
  · show (s.movie.heap.slot? o (s.movie.normalize name)).isSome =
      (t.movie.heap.slot? o' (t.movie.normalize name')).isSome
    rw [hkey s t hs, optionRel_isSome (hmovie.slot? ho _)]

theorem callback_edits {s t : State σ} {o o' : ObjectId} (ho : r.handle o o') :
    C.Edits s t r (Machine.callback? o) (Machine.callback? o')
      fun r' c c' => Option.Rel r'.handle (c.map Machine.Callback.function)
        (c'.map Machine.Callback.function) := by
  refine .get fun hmovie => ?_
  rw [hmovie.isCallable (.object ho)]
  split
  · exact .bind (.pin ho) fun hle _ => .pure (.some (hle.1 ho))
  · exact .pure .none

theorem setBlocks_edits {s t : State σ} {o o' : ObjectId} (ho : r.handle o o')
    (blocked colorBlocked : Bool) :
    C.Edits s t r (Movie.setBlocks o blocked colorBlocked)
      (Movie.setBlocks o' blocked colorBlocked) fun _ _ _ => True := by
  have hextends : Object.Extends fun x => { x with blocked, colorBlocked } :=
    fun x => ⟨rfl, List.prefix_refl _⟩
  exact .modify ho hextends hextends fun hx => { hx with blocked := rfl, colorBlocked := rfl }

theorem Call.perform_runs (hm : C.Respects m) {call : Call} (hlocal : call.isLocal)
    (h : ∀ o ∈ call.handles, r.handle o o) :
    C.Runs r (call.perform m) (call.perform m) Reply.Alike := by
  cases call with
  | data c =>
    have hc := c.perform_runs (π := id) hm h
    rwa [DataCall.rename_id] at hc
  | createNative => exact .bind (.edit fun _ _ => .createFunction _) fun _ ho => .pure (.object ho)
  | createEval | createInterpreted =>
    exact .bind (.edit fun _ _ => .createConstructor _) fun _ ho => .pure (.object ho)
  | addMembers o members names =>
    have ho := h o List.mem_cons_self
    have hmembers := members_known fun p hp => h p (List.mem_cons_of_mem _ hp)
    exact .bind (.edit fun _ _ => .addMembers ho hmembers names) fun _ _ => .pure .nothing
  | addHostClass spec =>
    have hstatics := members_known fun p hp => h p (List.mem_append_left _ hp)
    have hmembers := members_known fun p hp => h p (List.mem_append_right _ hp)
    exact .bind (.edit fun _ _ => .addHostClass hstatics hmembers) fun _ ho =>
      .pure (.objects ho.1 ho.2)
  | deleteOwn o name =>
    have hkey : ∀ s t, C.state r s t → s.movie.normalize name = t.movie.normalize name :=
      fun _ _ hs => (C.alike (C.start hs)).normalize name
    refine .bind (.lift (deleteOwn_updates (h o List.mem_cons_self) hkey)) fun _ hb => ?_
    rw [hb]
    exact .pure .flag
  | setWatcher o name watcher =>
    have ho := h o List.mem_cons_self
    have hw := watcher_known fun p hp => h p (List.mem_cons_of_mem _ hp)
    refine .bind (.edit fun _ _ => .setWatcher ho name hw) fun _ hb => ?_
    rw [hb]
    exact .pure .flag
  | setFlags o names set clear =>
    have ho := h o List.mem_cons_self
    exact .bind (.edit fun _ _ => .setFlags ho names set clear) fun _ _ => .pure .nothing
  | setBlocks o blocked colorBlocked =>
    have ho := h o List.mem_cons_self
    exact .bind (.edit fun _ _ => setBlocks_edits ho blocked colorBlocked) fun _ _ => .pure .nothing
  | readAt o key =>
    have ho := h o List.mem_cons_self
    have hkey := value_known fun p hp => h p (List.mem_cons_of_mem _ hp)
    exact .bind (hm.readAt ho hkey) fun _ hv => .pure (.value hv)
  | writeAt o key v =>
    have ho := h o List.mem_cons_self
    have hkey := value_known fun p hp =>
      h p (List.mem_cons_of_mem _ (List.mem_append_left _ hp))
    have hv := value_known fun p hp =>
      h p (List.mem_cons_of_mem _ (List.mem_append_right _ hp))
    exact .bind (hm.writeAt ho hv hkey) fun _ _ => .pure .nothing
  | defaultValue o hint =>
    exact .bind (hm.defaultValue (h o List.mem_cons_self) hint) fun _ hv => .pure (.value hv)
  | toNumber v =>
    refine .bind (hm.toNumber (value_known h)) fun _ hx => ?_
    rw [hx]
    exact .pure .number
  | toText v =>
    refine .bind (hm.toText (value_known h)) fun _ htext => ?_
    rw [htext]
    exact .pure .text
  | toKey v =>
    refine .bind (hm.toKey (value_known h)) fun _ hkey => ?_
    rw [hkey]
    exact .pure .text
  | toObject v =>
    exact .bind (Correspondence.Respects.toObject (value_known h)) fun _ ho => .pure (.object ho)
  | elements a =>
    exact .bind (hm.elements (h a List.mem_cons_self)) fun _ hvs => .pure (.values hvs)
  | call function this args =>
    have hfunction := value_known fun p hp => h p (List.mem_append_left _ hp)
    have hthis := value_known fun p hp =>
      h p (List.mem_append_right _ (List.mem_append_left _ hp))
    have hargs := values_known fun p hp =>
      h p (List.mem_append_right _ (List.mem_append_right _ hp))
    exact .bind (hm.callValue hfunction hthis hargs) fun _ hv => .pure (.value hv)
  | construct function args =>
    have hfunction := h function List.mem_cons_self
    have hargs := values_known fun p hp => h p (List.mem_cons_of_mem _ hp)
    exact .bind (hm.construct hfunction hargs) fun _ hv => .pure (.value hv)
  | executeActions actions scope =>
    exact .bind (hm.executeActions actions (h scope List.mem_cons_self)) fun _ hv =>
      .pure (.value hv)
  | resolveTarget target =>
    exact .bind (.lift (hm.resolveTarget (value_known h))) fun _ ho => .pure (.object? ho)
  | checkTimeout => exact .bind hm.checkTimeout fun _ _ => .pure .nothing
  | broadcast name => exact .bind (.lift (hm.broadcast name)) fun _ _ => .pure .nothing
  | staticState cls => exact .bind (hm.staticState cls) fun _ ho => .pure (.object ho)
  | classState c =>
    exact .bind (hm.classState (h c List.mem_cons_self)) fun _ ho => .pure (.object ho)
  | pin o =>
    exact .bind (.edit fun _ _ => .pin (h o List.mem_cons_self)) fun _ _ => .pure .nothing
  | unpin o =>
    exact .bind (.edit fun _ _ => .unpin (h o List.mem_cons_self)) fun _ _ => .pure .nothing
  | callback o =>
    exact .bind (.edit fun _ _ => callback_edits (h o List.mem_cons_self)) fun _ hc =>
      .pure (.object? hc)
  | nextRandom =>
    refine .bind (.edit fun _ _ => .nextRandom) fun _ hx => ?_
    rw [hx]
    exact .pure .number
  | registerClass name cls =>
    refine .bind (.edit fun _ _ => .registerClass name (h cls List.mem_cons_self)) fun _ hb => ?_
    rw [hb]
    exact .pure .flag
  | addAsset name symbol description =>
    have hedit : ∀ s t, C.Edits s t r (Movie.addAsset name symbol description)
        (Movie.addAsset name symbol description) fun _ _ _ => True := by
      intro s t
      refine .replace (fun {movie movie'} hmovie => ⟨?_, trivial⟩)
        (fun _ => ⟨rfl, rfl⟩) fun _ => rfl
      exact {
        hmovie with
        symbols := congrArg (·.insert (Text.lower name) symbol) hmovie.symbols
        descriptions := congrArg (·.insert symbol description) hmovie.descriptions }
    exact .bind (.edit hedit) fun _ _ => .pure .nothing
  | observe name observer =>
    have hedit : ∀ s t, C.Edits s t r (Movie.observe name observer)
        (Movie.observe name observer) fun _ _ _ => True := by
      intro s t
      refine .replace (fun {movie movie'} hmovie => ⟨?_, trivial⟩)
        (fun _ => ⟨rfl, rfl⟩) fun _ => rfl
      have hobservers : movie.observers.register (movie.normalize name) observer =
          movie'.observers.register (movie'.normalize name) observer := by
        rw [hmovie.observers, hmovie.normalize]
      exact { hmovie with observers := hobservers }
    exact .bind (.edit hedit) fun _ _ => .pure .nothing
  | unobserve name observer =>
    have hedit : ∀ s t, C.Edits s t r (Movie.unobserve name observer)
        (Movie.unobserve name observer) fun _ b b' => b = b' := by
      intro s t
      refine .replace (fun {movie movie'} hmovie => ?_) (fun _ => ⟨rfl, rfl⟩) fun _ => rfl
      have hobservers : movie.observers.unregister (movie.normalize name) observer =
          movie'.observers.unregister (movie'.normalize name) observer := by
        rw [hmovie.observers, hmovie.normalize]
      rw [Prod.ext_iff] at hobservers
      exact ⟨{ hmovie with observers := hobservers.2 }, hobservers.1⟩
    refine .bind (.edit hedit) fun _ hb => ?_
    rw [hb]
    exact .pure .flag
  | installExecutor executor =>
    have hedit : ∀ s t, C.Edits s t r (Movie.installExecutor executor)
        (Movie.installExecutor executor) fun _ _ _ => True := by
      intro s t
      refine .replace (fun hmovie => ⟨?_, trivial⟩) (fun _ => ⟨rfl, rfl⟩) fun _ => rfl
      exact { hmovie with executor := rfl }
    exact .bind (.edit hedit) fun _ _ => .pure .nothing
  | dropActions id =>
    have hedit : ∀ s t, C.Edits s t r (Movie.dropActions id)
        (Movie.dropActions id) fun _ _ _ => True := by
      intro s t
      refine .replace (fun hmovie => ⟨?_, trivial⟩) (fun _ => ⟨rfl, rfl⟩) fun _ => rfl
      exact { hmovie with actions := congrArg (·.drop id) hmovie.actions }
    exact .bind (.edit hedit) fun _ _ => .pure .nothing
  | createActions => cases hlocal
  | collect => cases hlocal

end Respects

end Session

end ActionScript
