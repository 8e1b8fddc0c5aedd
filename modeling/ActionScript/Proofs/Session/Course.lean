import ActionScript.Proofs.Course.Builtin
import ActionScript.Proofs.Session.Invariant

/-! # The course of a session

Whatever a client does, its movies stay in order and nothing is taken from their static states: a
state that is recorded stays recorded and live, and so does its class, with the initializer that it
had. The random number generator moves by draws only, and the heap changes by the edits that there
are (`Client.orderly_play`). -/

namespace ActionScript

/-! ## Edits of an embedder -/

namespace Edit.Passes

theorem addAsset (name : String) (symbol : Nat) (description : String) :
    Edit.Passes (Movie.addAsset name symbol description) :=
  fun _ => .registries rfl rfl rfl rfl rfl (.refl _) fun hm => hm.pinned

theorem installExecutor (executor : Executor) : Edit.Passes (Movie.installExecutor executor) :=
  fun _ => .registries rfl rfl rfl rfl rfl (.refl _) fun hm => hm.pinned

theorem createActions (buffer : BufferId) (bytes : List UInt8) (name : String)
    (parent : Option ActionsId) : Edit.Passes (Movie.createActions buffer bytes name parent) :=
  fun _ => .registries rfl rfl rfl rfl rfl (.refl _) fun hm => hm.pinned

theorem dropActions (id : ActionsId) : Edit.Passes (Movie.dropActions id) :=
  fun _ => .registries rfl rfl rfl rfl rfl (.refl _) fun hm => hm.pinned

end Edit.Passes

namespace Edit.Spares

theorem callback (o : ObjectId) : Edit.Spares (Machine.callback? o) := by
  refine .get fun m => ?_
  split
  · exact .bind (.pin o) fun _ => .pure
  · exact .pure

theorem addAsset (name : String) (symbol : Nat) (description : String) :
    Edit.Spares (Movie.addAsset name symbol description) :=
  .of_heap_eq (.addAsset name symbol description) fun _ => rfl

theorem installExecutor (executor : Executor) : Edit.Spares (Movie.installExecutor executor) :=
  .of_heap_eq (.installExecutor executor) fun _ => rfl

theorem createActions (buffer : BufferId) (bytes : List UInt8) (name : String)
    (parent : Option ActionsId) : Edit.Spares (Movie.createActions buffer bytes name parent) :=
  .of_heap_eq (.createActions buffer bytes name parent) fun _ => rfl

theorem dropActions (id : ActionsId) : Edit.Spares (Movie.dropActions id) :=
  .of_heap_eq (.dropActions id) fun _ => rfl

end Edit.Spares

/-- Handing out a callback pins its function, which is a passage. -/
theorem Edit.Passes.callback (o : ObjectId) : Edit.Passes (Machine.callback? o) :=
  fun m => (Edit.Spares.callback o m).toPasses

/-! ## Lookups of static states -/

variable {σ α : Type} [Journal σ]

/-- Runs the initializer of a class, if it has one, on its static state. -/
def Machine.runInitializer (m : Machine σ) : ClassKey → ObjectId → Run σ Unit
  | .host cls, state => m.services.initializeClass cls state
  | .object c, state => do
    match (← getMovie).initializers.find? c with
    | some code => discard (m.invoke code (.object state) [.object c])
    | none => return

theorem Course.Guides.runInitializer {C : Course σ} {m : Machine σ} (h : C.Guides m)
    (key : ClassKey) (state : ObjectId) : C.Runs (m.runInitializer key state) := by
  cases key with
  | host cls => exact h.services.initializeClass cls state
  | object c =>
    refine .movie fun movie => ?_
    split
    · exact .discard (h.invoke _ _ (.inl trivial))
    · exact .pure

/-- The state of a class is the one on record, or made, recorded and then initialized. -/
theorem Machine.staticStateOf_apply (key : ClassKey) (start : ObjectId → Run σ Unit) (s : State σ) :
    staticStateOf key start s =
      (match s.movie.staticStates.find? key with
      | some state => return state
      | none => do
        let state ← Movie.createWithPrototype none
        Movie.recordStatic key state
        start state
        return state : Run σ ObjectId) (s.after s.movie) := rfl

namespace Movie

/-- The handle that the static state of a class gets where it is asked for first. -/
def nextState (m : Movie) : ObjectId := (createWithPrototype none m).1

/-- The movie once the static state of a class has been created and recorded. -/
def recordNext (m : Movie) (key : ClassKey) : Movie :=
  (recordStatic key m.nextState (createWithPrototype none m).2).2

/-- Recording a class gives it the next state and no other class another. -/
theorem find?_recordNext (m : Movie) (key key' : ClassKey) :
    (m.recordNext key).staticStates.find? key' =
      if key' = key then some m.nextState else m.staticStates.find? key' :=
  m.staticStates.find?_insert key key' m.nextState

end Movie

/-- The state once the static state of a class has been created and recorded. -/
def State.recordNext (s : State σ) (key : ClassKey) : State σ :=
  ((s.after s.movie).after (Movie.createWithPrototype none s.movie).2).after
    (s.movie.recordNext key)

namespace Session

/-- The class whose static state a call asks for. -/
def Call.classKey? : Call → Option ClassKey
  | staticState cls => some (.host cls)
  | classState constructor => some (.object constructor)
  | _ => none

/-- A call that asks for a class answers with its static state. -/
theorem Call.perform_of_classKey? {call : Call} {key : ClassKey} (hcall : call.classKey? = some key)
    (m : Machine σ) : call.perform m = (do
      let state ← Machine.staticStateOf key (m.runInitializer key)
      return .object state) := by
  cases call with
  | staticState cls =>
    cases hcall
    rfl
  | classState c =>
    cases hcall
    rfl
  | _ => cases hcall

/-- A lookup of a state that is recorded runs nothing. -/
theorem Call.perform_recorded {call : Call} {key : ClassKey} (hcall : call.classKey? = some key)
    (m : Machine σ) {s : State σ} {o : ObjectId} (ho : s.movie.staticStates.find? key = some o) :
    call.perform m s = (.ok (.object o), s.after s.movie) := by
  have hstate : Machine.staticStateOf key (m.runInitializer key) s = (.ok o, s.after s.movie) := by
    rw [Machine.staticStateOf_apply, ho]
    rfl
  rw [perform_of_classKey? hcall, Run.bind_ok hstate]
  rfl

/-- A lookup of a state that is not recorded yet creates and records one. Then it runs the
initializer on it, and ends as that does. -/
theorem Call.perform_absent {call : Call} {key : ClassKey} (hcall : call.classKey? = some key)
    (m : Machine σ) {s : State σ} (hnone : s.movie.staticStates.find? key = none) :
    call.perform m s =
      ((m.runInitializer key s.movie.nextState (s.recordNext key)).1.map fun _ =>
          .object s.movie.nextState,
        (m.runInitializer key s.movie.nextState (s.recordNext key)).2) := by
  have hstate : Machine.staticStateOf key (m.runInitializer key) s = (do
      m.runInitializer key s.movie.nextState
      return s.movie.nextState : Run σ ObjectId) (s.recordNext key) := by
    rw [Machine.staticStateOf_apply, hnone]
    rfl
  rw [perform_of_classKey? hcall]
  rcases hinit : m.runInitializer key s.movie.nextState (s.recordNext key) with ⟨result, s'⟩
  cases result with
  | error e =>
    rw [Run.bind_error hinit] at hstate
    exact Run.bind_error hstate
  | ok =>
    rw [Run.bind_ok hinit] at hstate
    exact Run.bind_ok hstate

/-! ## Subscriptions -/

deriving instance DecidableEq for Reply

/-- The registration of an observer under a name, or its removal. -/
structure Subscription where
  name : String
  observer : Observer
  registers : Bool
deriving DecidableEq

/-- What a subscription is answered, and the observers it leaves. -/
def Subscription.apply (x : Subscription) (movie : Movie) : Reply × Observers :=
  if x.registers then (.nothing, movie.observers.register (movie.normalize x.name) x.observer)
  else
    let (present, rest) := movie.observers.unregister (movie.normalize x.name) x.observer
    (.flag present, rest)

/-- A subscription lists no observer twice for a key. -/
theorem Subscription.nodup_apply (x : Subscription) {movie : Movie}
    (h : ∀ key, (movie.observers.of key).Nodup) (key : String) :
    ((x.apply movie).2.of key).Nodup := by
  rw [apply]
  split
  · exact Observers.nodup_register h key
  · exact Observers.nodup_unregister h key

def Call.subscription? : Call → Option Subscription
  | observe name observer => some ⟨name, observer, true⟩
  | unobserve name observer => some ⟨name, observer, false⟩
  | _ => none

/-- A subscription changes the observers and nothing else. -/
theorem Call.perform_subscription {call : Call} {x : Subscription}
    (hcall : call.subscription? = some x) (m : Machine σ) (s : State σ) :
    call.perform m s =
      (.ok (x.apply s.movie).1, s.after { s.movie with observers := (x.apply s.movie).2 }) := by
  cases call with
  | observe name observer =>
    cases hcall
    rfl
  | unobserve name observer =>
    cases hcall
    rfl
  | _ => cases hcall

/-! ## Calls -/

variable {C : Course σ} {m : Machine σ}

/-- The calls that leave slots to scripts, free no object, and ask for neither a static state nor an
observer. -/
def Call.isGentle : Call → Bool
  | data (.define ..) | addMembers .. | addHostClass _ | deleteOwn .. | setFlags .. => false
  | collect _ | staticState _ | classState _ | observe .. | unobserve .. => false
  | _ => true

theorem DataCall.perform_runs_on (h : C.Guides m) {call : DataCall}
    (hcall : (Call.data call).isGentle) : C.Runs (call.perform m) := by
  cases call with
  | createObject => exact .bind (.edit .createObject) fun _ => .pure
  | createWithPrototype p => exact .bind (.edit (.create p _)) fun _ => .pure
  | createArray vs => exact .bind (.edit (.createArray vs)) fun _ => .pure
  | read o name => exact .bind (h.read o name) fun _ => .pure
  | write o name v => exact .bind (h.write o name v) fun _ => .pure
  | delete o name => exact .bind (.lift (h.delete o name)) fun _ => .pure
  | define => cases hcall
  | setPrototype o p => exact .bind (.edit (.setPrototype o p)) fun _ => .pure
  | has | hasOwn | canPut | prototypeOf | isPrototypeOf | ownKeys | allKeys =>
    exact .movie fun _ => .pure

/-- Every gentle call keeps to the course of the machine. -/
theorem Call.perform_runs_on (h : C.Guides m) {call : Call} (hcall : call.isGentle) :
    C.Runs (call.perform m) := by
  cases call with
  | data call => exact call.perform_runs_on h hcall
  | createNative => exact .bind (.edit (.createFunction _)) fun _ => .pure
  | createEval | createInterpreted => exact .bind (.edit (.createConstructor _)) fun _ => .pure
  | setWatcher o name w => exact .bind (.edit (.setWatcher o name w)) fun _ => .pure
  | setBlocks o blocked colorBlocked => exact .bind (.edit (.setBlocks o _ _)) fun _ => .pure
  | readAt o key => exact .bind (h.readAt o key) fun _ => .pure
  | writeAt o key v => exact .bind (h.writeAt o key v) fun _ => .pure
  | defaultValue o hint => exact .bind (h.defaultValue o hint) fun _ => .pure
  | toNumber v => exact .bind (h.toNumber v) fun _ => .pure
  | toText v => exact .bind (h.toText v) fun _ => .pure
  | toKey v => exact .bind (h.toKey v) fun _ => .pure
  | toObject v => exact .bind (h.equips.toObject v) fun _ => .pure
  | elements a => exact .bind (h.elements a) fun _ => .pure
  | call f this args => exact .bind (h.callValue f this (.inl trivial)) fun _ => .pure
  | construct f args => exact .bind (h.construct f args) fun _ => .pure
  | executeActions actions scope => exact .bind (h.executeActions actions scope) fun _ => .pure
  | resolveTarget target => exact .bind (.lift (h.resolveTarget target)) fun _ => .pure
  | checkTimeout => exact .bind h.checkTimeout fun _ => .pure
  | broadcast name => exact .bind (.lift (h.broadcast name)) fun _ => .pure
  | pin o => exact .bind (.edit (.pin o)) fun _ => .pure
  | unpin o => exact .bind (.edit (.unpin o)) fun _ => .pure
  | callback o => exact .bind (.edit (.callback o)) fun _ => .pure
  | nextRandom => exact .bind (.edit .nextRandom) fun _ => .pure
  | registerClass name cls => exact .bind (.edit (.registerClass name cls)) fun _ => .pure
  | addAsset name symbol d => exact .bind (.edit (.addAsset name symbol d)) fun _ => .pure
  | installExecutor executor => exact .bind (.edit (.installExecutor executor)) fun _ => .pure
  | createActions buffer bytes name parent =>
    exact .bind (.edit (.createActions buffer bytes name parent)) fun _ => .pure
  | dropActions id => exact .bind (.edit (.dropActions id)) fun _ => .pure
  | addMembers | addHostClass | deleteOwn | setFlags | collect | staticState | classState | observe
  | unobserve => cases hcall

/-- Every call that asks for neither a static state nor an observer keeps to a lenient course of the
machine. -/
theorem Call.perform_runs_on_lenient (hC : C.Lenient) (h : C.Guides m) {call : Call}
    (hclass : call.classKey? = none) (hobserver : call.subscription? = none) :
    C.Runs (call.perform m) := by
  cases hgentle : call.isGentle with
  | true => exact call.perform_runs_on h hgentle
  | false =>
    cases call with
    | data call =>
      cases call with
      | define o name p => exact .bind (.pass hC (.define o name p)) fun _ => .pure
      | _ => cases hgentle
    | addMembers o members names =>
      exact .bind (.pass hC (.addMembers o members names)) fun _ => .pure
    | addHostClass spec => exact .bind (.pass hC (.addHostClass spec)) fun _ => .pure
    | deleteOwn o name => exact .bind (.pass hC (.deleteOwn o name)) fun _ => .pure
    | setFlags o names set clear =>
      exact .bind (.pass hC (.setFlags o names set clear)) fun _ => .pure
    | collect extra => exact .bind (.pass hC (.collectGarbage extra)) fun _ => .pure
    | staticState | classState => cases hclass
    | observe | unobserve => cases hobserver
    | _ => cases hgentle

end Session

/-! ## What lasts -/

namespace Movie

variable {m n k : Movie}

/-- What a later movie of a session has of an earlier one. -/
structure Lasts (m n : Movie) : Prop where
  settings : n.settings = m.settings
  random : Random.Follows m.random n.random
  edited : m.heap.Edited n.heap
  staticStates : ∀ {key o}, m.staticStates.find? key = some o → n.staticStates.find? key = some o
  keepsClasses : m.KeepsClasses n

theorem Lasts.refl (m : Movie) : m.Lasts m :=
  ⟨rfl, .refl _, .refl _, id, fun _ hlive => ⟨hlive, rfl⟩⟩

theorem Lasts.trans (h : m.Lasts n) (h' : n.Lasts k) : m.Lasts k where
  settings := h'.settings.trans h.settings
  random := h.random.trans h'.random
  edited := h.edited.trans h'.edited
  staticStates ho := h'.staticStates (h.staticStates ho)
  keepsClasses := by
    intro c o hstate hlive
    obtain ⟨hlive, hinit⟩ := h.keepsClasses hstate hlive
    obtain ⟨hlive, hinit'⟩ := h'.keepsClasses (h.staticStates hstate) hlive
    exact ⟨hlive, hinit'.trans hinit⟩

/-- What a passage keeps lasts, in a movie in order. -/
theorem Passes.lasts (h : m.Passes n) (hm : m.InOrder) : m.Lasts n where
  settings := h.settings
  random := h.random
  edited := h.edited
  staticStates := by
    rw [h.staticStates]
    exact id
  keepsClasses := h.keepsClasses hm

/-- The object made for a class is live once it is recorded. -/
theorem isLive_nextState (hm : m.InOrder) (key : ClassKey) :
    (m.recordNext key).heap.isLive m.nextState :=
  (hm.arena.isLive_allocate _ _).mpr (.inl rfl)

/-- The new state is no state of another class: those are live already. -/
theorem find?_ne_nextState (hm : m.InOrder) (key : ClassKey) :
    m.staticStates.find? key ≠ some m.nextState :=
  fun h => hm.arena.not_isLive_allocate _ (hm.live h)

/-- Recording a class keeps a movie in order: the new state is held and live. -/
theorem InOrder.recordNext (hm : m.InOrder) (key : ClassKey) : (m.recordNext key).InOrder := by
  have hcreated : (createWithPrototype none m).2.InOrder :=
    (Edit.Passes.create none .plain m).inOrder hm
  refine ⟨hcreated.arena, hcreated.pinned, hcreated.observers, fun {key' o} ho => ?_,
    fun {key₁ key₂ o} h₁ h₂ => ?_⟩
  · rw [find?_recordNext] at ho
    split at ho
    · cases ho
      exact isLive_nextState hm key
    · exact hcreated.live ho
  · rw [find?_recordNext] at h₁ h₂
    split at h₁
    · rename_i hkey₁
      cases h₁
      split at h₂
      · rename_i hkey₂
        rw [hkey₁, hkey₂]
      · exact absurd h₂ (find?_ne_nextState hm key₂)
    · split at h₂
      · cases h₂
        exact absurd h₁ (find?_ne_nextState hm key₁)
      · exact hm.apart h₁ h₂

/-- Recording a class that has no state changes none of what lasts. -/
theorem lasts_recordNext {key : ClassKey} (hnone : m.staticStates.find? key = none) :
    (createWithPrototype none m).2.Lasts (m.recordNext key) where
  settings := rfl
  random := .refl _
  edited := .refl _
  staticStates ho := Table.find?_insert_of_some hnone ho _
  keepsClasses _ hlive := ⟨hlive, rfl⟩

end Movie

namespace Session

variable {σ α : Type}

/-! ## Orderly sessions -/

/-- All movies of the session are in order, and each lasts in those after it. -/
structure Orderly (s : State (Ledger σ)) : Prop where
  latest : ∃ older, s.embedder.past = s.movie :: older
  inOrder : ∀ m ∈ s.embedder.past, m.InOrder
  lasts : s.embedder.past.Pairwise fun n m => m.Lasts n

namespace Orderly

variable {s : State (Ledger σ)}

/-- A ledger with one movie on it is orderly when the movie is in order. -/
theorem fresh {m : Movie} (hm : m.InOrder) (own : σ) :
    Orderly ⟨m, { own, careful := true, past := [m] }⟩ where
  latest := ⟨[], rfl⟩
  inOrder := List.forall_mem_singleton.mpr hm
  lasts := List.pairwise_singleton _ _

/-- The latest movie of an orderly state is in order. -/
theorem movie (h : Orderly s) : s.movie.InOrder := by
  obtain ⟨older, hlatest⟩ := h.latest
  refine h.inOrder _ ?_
  rw [hlatest]
  exact List.mem_cons_self

/-- What any past movie has lasts into the present one. -/
theorem movie_lasts (h : Orderly s) {m : Movie} (hm : m ∈ s.embedder.past) : m.Lasts s.movie := by
  obtain ⟨older, hlatest⟩ := h.latest
  have hlasts := h.lasts
  rw [hlatest] at hm hlasts
  rcases List.mem_cons.mp hm with rfl | hm
  · exact .refl _
  · exact (List.pairwise_cons.mp hlasts).1 m hm

/-- An orderly state stays so after a movie in order into which the present one lasts. -/
theorem after (h : Orderly s) {n : Movie} (hn : n.InOrder) (hlasts : s.movie.Lasts n) :
    Orderly (s.after n) where
  latest := ⟨_, rfl⟩
  inOrder := List.forall_mem_cons.mpr ⟨hn, h.inOrder⟩
  lasts := List.pairwise_cons.mpr ⟨fun _ hm => (h.movie_lasts hm).trans hlasts, h.lasts⟩

/-- A passage keeps a state orderly. -/
theorem passes (h : Orderly s) {n : Movie} (hn : s.movie.Passes n) : Orderly (s.after n) :=
  h.after (hn.inOrder h.movie) (hn.lasts h.movie)

/-- Recording a class keeps a state orderly. -/
theorem recordNext (h : Orderly s) {key : ClassKey}
    (hnone : s.movie.staticStates.find? key = none) : Orderly (s.recordNext key) := by
  have hcreate : s.movie.Passes (Movie.createWithPrototype none s.movie).2 :=
    Edit.Passes.create none .plain s.movie
  exact ((h.passes (.refl _)).passes hcreate).after (h.movie.recordNext key)
    (Movie.lasts_recordNext hnone)

end Orderly

/-- What happens from one state of a session to another. -/
structure Onward (s t : State (Ledger σ)) : Prop where
  movie : s.movie.InOrder → t.movie.InOrder ∧ s.movie.Lasts t.movie
  orderly : Orderly s → Orderly t

namespace Onward

variable {s t u : State (Ledger σ)}

theorem refl (s : State (Ledger σ)) : Onward s s := ⟨fun hs => ⟨hs, .refl _⟩, id⟩

theorem trans (h : Onward s t) (h' : Onward t u) : Onward s u := by
  refine ⟨fun hs => ?_, fun hs => h'.orderly (h.orderly hs)⟩
  obtain ⟨ht, hlasts⟩ := h.movie hs
  obtain ⟨hu, hlasts'⟩ := h'.movie ht
  exact ⟨hu, hlasts.trans hlasts'⟩

theorem passes {n : Movie} (hn : s.movie.Passes n) : Onward s (s.after n) :=
  ⟨fun hs => ⟨hn.inOrder hs, hn.lasts hs⟩, fun hs => hs.passes hn⟩

theorem recordNext {key : ClassKey} (hnone : s.movie.staticStates.find? key = none) :
    Onward s (s.recordNext key) := by
  refine ⟨fun hs => ⟨hs.recordNext key, ?_⟩, fun hs => hs.recordNext hnone⟩
  have hcreate : s.movie.Passes (Movie.createWithPrototype none s.movie).2 :=
    Edit.Passes.create none .plain s.movie
  exact (hcreate.lasts hs).trans (Movie.lasts_recordNext hnone)

/-- A change of the observers alone. -/
theorem of_observers {observers : Observers}
    (h : s.movie.InOrder → ∀ key, (observers.of key).Nodup) :
    Onward s (s.after { s.movie with observers }) := by
  have hinOrder : s.movie.InOrder → Movie.InOrder { s.movie with observers } :=
    fun hs => ⟨hs.arena, hs.pinned, h hs, hs.live, hs.apart⟩
  have hlasts : s.movie.Lasts { s.movie with observers } :=
    ⟨rfl, .refl _, .refl _, id, fun _ hlive => ⟨hlive, rfl⟩⟩
  exact ⟨fun hs => ⟨hinOrder hs, hlasts⟩, fun hs => hs.after (hinOrder hs.movie) hlasts⟩

/-- A change of the records of the client alone. -/
theorem of_embedder {own : σ} {careful : Bool} :
    Onward s { s with embedder := { s.embedder with own, careful } } :=
  ⟨fun hs => ⟨hs, .refl _⟩, fun hs => ⟨hs.latest, hs.inOrder, hs.lasts⟩⟩

end Onward

def onward (σ : Type) : Course (Ledger σ) := .ofPasses Onward .refl .trans .passes

theorem lenient_onward (σ : Type) : (onward σ).Lenient := Onward.passes

/-! ## Clients -/

/-- A program that asks goes on with the reply and in the state the call leaves. -/
theorem Program.run_ask {m : Machine (Ledger σ)} {inside : Bool} {call : Call}
    {next : Except Error Reply → Program σ α} {s t : State (Ledger σ)} {reply : Except Error Reply}
    (h : call.perform m (audit call.handles (!(inside && call.isCollection)) s).2 = (reply, t)) :
    (ask call next).run m inside s = (next reply).run m inside t := by
  have hrun : (ask call next).run m inside s =
      (next (call.perform m (audit call.handles (!(inside && call.isCollection)) s).2).1).run m
        inside (call.perform m (audit call.handles (!(inside && call.isCollection)) s).2).2 := rfl
  rw [hrun, h]

/-- The programs of a client have a property. -/
structure Client.Each (c : Client σ) (P : ∀ {α : Type}, Program σ α → Prop) : Prop where
  function : ∀ f this args, P (c.function f this args)
  initializeClass : ∀ cls state, P (c.initializeClass cls state)
  notify : ∀ observer key, P (c.notify observer key)
  executeActions : ∀ executor actions scope, P (c.executeActions executor actions scope)
  executeFunction : ∀ executor f actions scope this args,
    P (c.executeFunction executor f actions scope this args)
  resolveTarget : ∀ executor target, P (c.resolveTarget executor target)
  checkTimeout : ∀ executor, P (c.checkTimeout executor)
  now : P c.now

/-- What holds of every program holds of all the programs of a client. -/
theorem Client.each_of_all (c : Client σ) {P : ∀ {α : Type}, Program σ α → Prop}
    (h : ∀ {α : Type} (program : Program σ α), P program) : c.Each P :=
  ⟨fun _ _ _ => h _, fun _ _ => h _, fun _ _ => h _, fun _ _ _ => h _, fun _ _ _ _ _ _ => h _,
    fun _ _ => h _, fun _ => h _, h _⟩

section Guides

variable {C : Course (Ledger σ)} (haudit : ∀ handles proper, C.Updates (audit handles proper))
  {m : Machine (Ledger σ)}
include haudit

theorem Program.answer_runs_on {program : Program σ (Except Error α)}
    (h : C.Updates (program.run m true)) (handles : α → List ObjectId) :
    C.Runs (program.answer m handles) :=
  Trend.Updates.bind h fun _ => .bind (haudit _ _) fun _ => .pure

/-- The services of a client keep to a course if its programs do. -/
theorem Client.serves_on {c : Client σ} (h : c.Each fun program => C.Updates (program.run m true)) :
    C.Serves (c.host m) where
  function f this args := Program.answer_runs_on haudit (h.function f this args) _
  initializeClass cls state := Program.answer_runs_on haudit (h.initializeClass cls state) _
  notify observer key := h.notify observer key
  executeActions executor actions scope :=
    Program.answer_runs_on haudit (h.executeActions executor actions scope) _
  executeFunction executor f actions scope this args :=
    Program.answer_runs_on haudit (h.executeFunction executor f actions scope this args) _
  resolveTarget executor target :=
    .bind (h.resolveTarget executor target) fun _ => .bind (haudit _ _) fun _ => .pure
  checkTimeout executor := Program.answer_runs_on haudit (h.checkTimeout executor) _
  now := h.now

end Guides

/-! ## Every client -/

theorem audit_onward (handles : List ObjectId) (proper : Bool) :
    (onward σ).Updates (audit handles proper) := fun _ => .of_embedder

theorem Call.perform_onward {m : Machine (Ledger σ)} (h : (onward σ).Guides m) (call : Call) :
    (onward σ).Runs (call.perform m) := by
  cases hcall : call.classKey? with
  | none =>
    cases hsubscription : call.subscription? with
    | none => exact call.perform_runs_on_lenient (lenient_onward σ) h hcall hsubscription
    | some x =>
      intro s
      rw [call.perform_subscription hsubscription]
      exact .of_observers fun hs => x.nodup_apply hs.observers
  | some key =>
    intro s
    cases hstate : s.movie.staticStates.find? key with
    | some o =>
      rw [call.perform_recorded hcall m hstate]
      exact .passes (.refl _)
    | none =>
      rw [call.perform_absent hcall m hstate]
      exact (Onward.recordNext hstate).trans (h.runInitializer key _ _)

theorem Program.run_onward {m : Machine (Ledger σ)} (h : (onward σ).Guides m)
    (program : Program σ α) (inside : Bool) : (onward σ).Updates (program.run m inside) := by
  induction program with
  | done a => exact .pure
  | look next ih => exact fun s => ih s.movie s.embedder.own s
  | keep own next ih => exact fun s => Onward.of_embedder.trans (ih _)
  | ask call next ih =>
    exact .bind (audit_onward _ _) fun _ => .bind (Call.perform_onward h call) fun reply => ih reply

namespace Client

theorem guides_onward (c : Client σ) (depth : Nat) : (onward σ).Guides (c.host.machine depth) :=
  Course.guides_machine
    (fun h => serves_on audit_onward (c.each_of_all fun program => program.run_onward h true)) depth

theorem orderly_start (settings : Settings) (own : σ) : Orderly (start settings own) :=
  .fresh (Movie.inOrder_new settings) own

theorem orderly_play (c : Client σ) (depth : Nat) (settings : Settings) (own : σ)
    (main : Program σ α) : Orderly (c.play depth settings own main) :=
  (main.run_onward (c.guides_onward depth) false _).orderly (orderly_start settings own)

end Client

theorem Reached.inOrder {m : Movie} (h : Reached m) : m.InOrder := by
  obtain ⟨σ, α, c, depth, settings, own, main, hm⟩ := h
  exact (c.orderly_play depth settings own main).inOrder m hm

end Session

end ActionScript
