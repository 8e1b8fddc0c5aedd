import ActionScript.Proofs.Session.Course

/-! # Static states in a session

A client notes each time it asks for the static state of a class, whether the state was recorded
then, and what it is told. Whatever it does, from its main program and from its callbacks, with
collections at any time, all lookups for one class give one handle, which no other class has, and
the initializer of the class runs in the first of them only (`Client.static_state_single`). A lookup
made when the initializer is not running finds a state on which it has ended, though it may have
failed (`Client.static_state_initialized`). -/

namespace ActionScript.Session

/-! ## Notes -/

/-- What a client notes of the static states that it asks for. -/
inductive Note where
  /-- The state was recorded when it was asked for, and this was the reply. -/
  | found (key : ClassKey) (reply : Except Error Reply)
  /-- The state was not recorded: the call creates it and runs the initializer. -/
  | began (key : ClassKey)
  /-- A call that began has ended; the state that is recorded then, and the reply. -/
  | ended (key : ClassKey) (state : Option ObjectId) (reply : Except Error Reply)
deriving DecidableEq

/-- The note is of a lookup that gave the handle to the client. -/
inductive Note.Gives (key : ClassKey) (o : ObjectId) : Note → Prop
  | found : Gives key o (.found key (.ok (.object o)))
  | ended : Gives key o (.ended key state (.ok (.object o)))

/-- The class whose initializer is about to run. -/
def Note.begun? : Note → Option ClassKey
  | began key => some key
  | found .. | ended .. => none

/-- The initializer of a class has begun, and has not ended. -/
def Running (key : ClassKey) (notes : List Note) : Prop :=
  .began key ∈ notes ∧ ∀ {state reply}, .ended key state reply ∉ notes

variable {σ α : Type}

def Program.note (note : Note) (next : Program (σ × List Note) α) : Program (σ × List Note) α :=
  .look fun _ noted => .keep (noted.1, note :: noted.2) next

/-- The program that makes notes, the latest first, beside what it keeps. -/
def Program.noting : Program σ α → Program (σ × List Note) α
  | done a => .done a
  | look next => .look fun m noted => (next m noted.1).noting
  | keep own next => .look fun _ noted => .keep (own, noted.2) next.noting
  | ask call next =>
    match call.classKey? with
    | none => .ask call fun reply => (next reply).noting
    | some key => .look fun m _ =>
      match m.staticStates.find? key with
      | some _ => .ask call fun reply => .note (.found key reply) (next reply).noting
      | none => .note (.began key) (.ask call fun reply => .look fun m _ =>
          .note (.ended key (m.staticStates.find? key) reply) (next reply).noting)

/-- The client whose programs all make notes. -/
def Client.noting (c : Client σ) : Client (σ × List Note) where
  function f this args := (c.function f this args).noting
  initializeClass cls state := (c.initializeClass cls state).noting
  notify observer key := (c.notify observer key).noting
  executeActions executor actions scope := (c.executeActions executor actions scope).noting
  executeFunction executor f actions scope this args :=
    (c.executeFunction executor f actions scope this args).noting
  resolveTarget executor target := (c.resolveTarget executor target).noting
  checkTimeout executor := (c.checkTimeout executor).noting
  now := c.now.noting

theorem Client.Each.noting {c : Client σ} {P : ∀ {α : Type}, Program (σ × List Note) α → Prop}
    (h : c.Each fun program => P program.noting) : c.noting.Each P :=
  ⟨h.function, h.initializeClass, h.notify, h.executeActions, h.executeFunction, h.resolveTarget,
    h.checkTimeout, h.now⟩

/-- The state that a client with notes leads to. -/
def Client.playNoting (c : Client σ) (depth : Nat) (settings : Settings) (own : σ)
    (main : Program σ α) : State (Ledger (σ × List Note)) :=
  c.noting.play depth settings (own, []) main.noting

/-- The notes that a client has in the end, the latest first. -/
def Client.notes (c : Client σ) (depth : Nat) (settings : Settings) (own : σ)
    (main : Program σ α) : List Note :=
  (c.playNoting depth settings own main).embedder.own.2

/-! ## Notes and recorded states -/

/-- The notes tell what is recorded. -/
structure Agrees (states : Table ClassKey ObjectId) (notes : List Note) : Prop where
  began_iff : ∀ {key}, .began key ∈ notes ↔ (states.find? key).isSome
  once : (notes.filterMap Note.begun?).Nodup
  found : ∀ {key reply}, .found key reply ∈ notes →
    ∃ o, states.find? key = some o ∧ reply = .ok (.object o)
  ended : ∀ {key state reply}, .ended key state reply ∈ notes →
    ∃ o, states.find? key = some o ∧ state = some o ∧
      (reply = .ok (.object o) ∨ ∃ e, reply = .error e)
  /-- What a lookup finds was begun before it. -/
  earlier : ∀ {newer key reply older}, notes = newer ++ .found key reply :: older →
    .began key ∈ older

theorem mem_begun_iff {notes : List Note} {key : ClassKey} :
    key ∈ notes.filterMap Note.begun? ↔ .began key ∈ notes := by
  rw [List.mem_filterMap]
  constructor
  · rintro ⟨note, hnote, hkey⟩
    cases note with
    | began =>
      cases hkey
      exact hnote
    | _ => cases hkey
  · intro h
    exact ⟨_, h, rfl⟩

namespace Agrees

variable {states : Table ClassKey ObjectId} {notes : List Note} {key : ClassKey} {o : ObjectId}

theorem empty : Agrees .empty [] where
  began_iff := by simp
  once := List.nodup_nil
  found := by simp
  ended := by simp
  earlier h := by simp at h

theorem earlier_cons (h : Agrees states notes) {note : Note}
    (hnote : ∀ key reply, note = .found key reply → .began key ∈ notes) {newer older : List Note}
    {key : ClassKey} {reply : Except Error Reply}
    (heq : note :: notes = newer ++ .found key reply :: older) : .began key ∈ older := by
  cases newer with
  | nil =>
    cases heq
    exact hnote _ _ rfl
  | cons _ newer => exact h.earlier (List.cons.inj heq).2

/-- A lookup that finds the state. -/
theorem cons_found (h : Agrees states notes) (ho : states.find? key = some o) :
    Agrees states (.found key (.ok (.object o)) :: notes) where
  began_iff := by
    intro key'
    rw [← h.began_iff, List.mem_cons]
    exact or_iff_right (by simp)
  once := h.once
  found := by
    intro key' reply hmem
    rcases List.mem_cons.mp hmem with heq | hmem
    · cases heq
      exact ⟨o, ho, rfl⟩
    · exact h.found hmem
  ended := by
    intro key' state reply hmem
    exact h.ended (List.mem_of_ne_of_mem (by simp) hmem)
  earlier := by
    refine h.earlier_cons fun key' reply heq => ?_
    cases heq
    exact h.began_iff.mpr (by rw [ho]; rfl)

/-- A lookup that begins, once the state is recorded. -/
theorem cons_began (h : Agrees states notes) (hnone : states.find? key = none) (o : ObjectId) :
    Agrees (states.insert key o) (.began key :: notes) := by
  refine ⟨fun {key'} => ?_, ?_, fun {key' reply} hmem => ?_, fun {key' state reply} hmem => ?_,
    h.earlier_cons (by simp)⟩
  · rw [List.mem_cons, h.began_iff, Table.find?_insert, Note.began.injEq]
    by_cases hkey : key' = key <;> simp [hkey]
  · refine List.nodup_cons.mpr ⟨fun hmem => ?_, h.once⟩
    have hsome := h.began_iff.mp (mem_begun_iff.mp hmem)
    rw [hnone] at hsome
    cases hsome
  · obtain ⟨p, hp, hreply⟩ := h.found (List.mem_of_ne_of_mem (by simp) hmem)
    exact ⟨p, Table.find?_insert_of_some hnone hp o, hreply⟩
  · obtain ⟨p, hp, hrest⟩ := h.ended (List.mem_of_ne_of_mem (by simp) hmem)
    exact ⟨p, Table.find?_insert_of_some hnone hp o, hrest⟩

/-- A lookup that began ends. -/
theorem cons_ended (h : Agrees states notes) (ho : states.find? key = some o)
    {reply : Except Error Reply} (hreply : reply = .ok (.object o) ∨ ∃ e, reply = .error e) :
    Agrees states (.ended key (some o) reply :: notes) where
  began_iff := by
    intro key'
    rw [← h.began_iff, List.mem_cons]
    exact or_iff_right (by simp)
  once := h.once
  found hmem := h.found (List.mem_of_ne_of_mem (by simp) hmem)
  ended := by
    intro key' state reply' hmem
    rcases List.mem_cons.mp hmem with heq | hmem
    · cases heq
      exact ⟨o, ho, rfl, hreply⟩
    · exact h.ended hmem
  earlier := h.earlier_cons (by simp)

theorem find?_of_gives (h : Agrees states notes) {note : Note} (hnote : note ∈ notes)
    (hgives : note.Gives key o) : states.find? key = some o := by
  cases hgives with
  | found =>
    obtain ⟨p, hp, hreply⟩ := h.found hnote
    cases hreply
    exact hp
  | ended =>
    obtain ⟨p, hp, _, hreply | ⟨e, hreply⟩⟩ := h.ended hnote
    · cases hreply
      exact hp
    · cases hreply

end Agrees

/-! ## Sessions with notes -/

/-- Recorded states stay, and notes that tell what is recorded go on to do so. -/
structure Noted (s t : State (Ledger (σ × List Note))) : Prop where
  states : ∀ {key o}, s.movie.staticStates.find? key = some o →
    t.movie.staticStates.find? key = some o
  agrees : Agrees s.movie.staticStates s.embedder.own.2 →
    Agrees t.movie.staticStates t.embedder.own.2

theorem Noted.trans {s t u : State (Ledger (σ × List Note))} (h : Noted s t) (h' : Noted t u) :
    Noted s u :=
  ⟨fun ho => h'.states (h.states ho), fun hs => h'.agrees (h.agrees hs)⟩

theorem Noted.of_eq {s t : State (Ledger (σ × List Note))}
    (hstates : t.movie.staticStates = s.movie.staticStates)
    (hnotes : t.embedder.own.2 = s.embedder.own.2) : Noted s t := by
  constructor
  · rw [hstates]
    exact id
  · rw [hstates, hnotes]
    exact id

def noted (σ : Type) : Course (Ledger (σ × List Note)) :=
  .ofPasses Noted (fun _ => .of_eq rfl rfl) .trans fun h => .of_eq h.staticStates rfl

theorem lenient_noted (σ : Type) : (noted σ).Lenient := fun h => Noted.of_eq h.staticStates rfl

/-- A call that asks for no static state. -/
theorem Call.perform_noted {m : Machine (Ledger (σ × List Note))} (h : (noted σ).Guides m)
    {call : Call} (hcall : call.classKey? = none) : (noted σ).Runs (call.perform m) := by
  cases hsubscription : call.subscription? with
  | none => exact call.perform_runs_on_lenient (lenient_noted σ) h hcall hsubscription
  | some x =>
    intro s
    rw [call.perform_subscription hsubscription]
    exact .of_eq rfl rfl

theorem audit_noted (handles : List ObjectId) (proper : Bool) :
    (noted σ).Updates (audit handles proper) := fun _ => .of_eq rfl rfl

/-- The state in which a client has made a note. -/
def noteIn (note : Note) (s : State (Ledger (σ × List Note))) : State (Ledger (σ × List Note)) :=
  { s with embedder := { s.embedder with own := (s.embedder.own.1, note :: s.embedder.own.2) } }

section Run

variable {m : Machine (Ledger (σ × List Note))} {s : State (Ledger (σ × List Note))}

/-- A lookup that finds the state is noted with it. -/
theorem Noted.found {key : ClassKey} {o : ObjectId} (ho : s.movie.staticStates.find? key = some o)
    (handles : List ObjectId) (proper : Bool) :
    Noted s (noteIn (.found key (.ok (.object o)))
      ((audit handles proper s).2.after s.movie)) :=
  ⟨id, fun hs => hs.cons_found ho⟩

/-- A lookup that begins records a state and runs the initializer on it, and is noted with both when
that has ended. -/
theorem Noted.begun (h : (noted σ).Guides m) {call : Call} {key : ClassKey}
    (hcall : call.classKey? = some key) (hnone : s.movie.staticStates.find? key = none)
    (handles : List ObjectId) (proper : Bool) {t : State (Ledger (σ × List Note))}
    (ht : t = (audit handles proper (noteIn (.began key) s)).2) :
    Noted s (noteIn (.ended key ((call.perform m t).2.movie.staticStates.find? key)
      (call.perform m t).1) (call.perform m t).2) := by
  have hmovie : t.movie = s.movie := by rw [ht]; rfl
  have hnotes : t.embedder.own.2 = .began key :: s.embedder.own.2 := by rw [ht]; rfl
  rw [← hmovie] at hnone
  rw [call.perform_absent hcall m hnone]
  have hbegun : Noted s (t.recordNext key) := by
    refine ⟨fun ho => ?_, fun hs => ?_⟩
    · rw [← hmovie] at ho
      exact (Movie.lasts_recordNext hnone).staticStates ho
    · have hbegan := hs.cons_began (hmovie ▸ hnone) t.movie.nextState
      rw [← hnotes, ← hmovie] at hbegan
      exact hbegan
  -- The initializer may look up its own state and other states: it follows the course as well.
  have hinit := h.runInitializer key t.movie.nextState (t.recordNext key)
  rcases hresult : m.runInitializer key t.movie.nextState (t.recordNext key) with ⟨result, u⟩
  rw [hresult] at hinit
  have hfind : u.movie.staticStates.find? key = some t.movie.nextState :=
    hinit.states ((t.movie.find?_recordNext key key).trans (if_pos rfl))
  have hended : Noted u (noteIn (.ended key (u.movie.staticStates.find? key)
      (result.map fun _ => .object t.movie.nextState)) u) := by
    refine ⟨id, fun hu => ?_⟩
    rw [hfind]
    refine hu.cons_ended hfind ?_
    cases result with
    | error e => exact .inr ⟨e, rfl⟩
    | ok => exact .inl rfl
  exact hbegun.trans (hinit.trans hended)

/-- A program with notes, by induction on its calls. -/
theorem Program.run_noting (h : (noted σ).Guides m) (program : Program σ α) (inside : Bool) :
    (noted σ).Updates (program.noting.run m inside) := by
  induction program with
  | done a => exact .pure
  | look next ih => exact fun s => ih s.movie s.embedder.own.1 s
  | keep own next ih =>
    intro s
    have hkeep : Noted s
        { s with embedder := { s.embedder with own := (own, s.embedder.own.2) } } := .of_eq rfl rfl
    exact hkeep.trans (ih _)
  | ask call next ih =>
    intro s
    rw [noting]
    cases hcall : call.classKey? with
    | none =>
      have hrun : (noted σ).Updates
          ((Program.ask call fun reply => (next reply).noting).run m inside) :=
        .bind (audit_noted _ _) fun _ => .bind (call.perform_noted h hcall) fun reply => ih reply
      exact hrun s
    | some key =>
      show (noted σ).leads s ((match s.movie.staticStates.find? key with
        | some _ => .ask call fun reply => .note (.found key reply) (next reply).noting
        | none => .note (.began key) (.ask call fun reply => .look fun m _ =>
            .note (.ended key (m.staticStates.find? key) reply) (next reply).noting) :
              Program (σ × List Note) α).run m inside s).2
      cases hstate : s.movie.staticStates.find? key with
      | some o =>
        have hperform := call.perform_recorded hcall m
          (s := (audit call.handles (!(inside && call.isCollection)) s).2) hstate
        dsimp only
        rw [run_ask hperform]
        exact (Noted.found hstate _ _).trans (ih _ _)
      | none =>
        exact (Noted.begun h hcall hstate _ _ rfl).trans (ih _ _)

end Run

namespace Client

variable (c : Client σ) (depth : Nat) (settings : Settings) (own : σ) (main : Program σ α)

theorem guides_noted : (noted σ).Guides (c.noting.host.machine depth) :=
  Course.guides_machine
    (fun h => serves_on audit_noted
      (Each.noting (c.each_of_all fun program => program.run_noting h true))) depth

theorem agrees_notes : Agrees (c.playNoting depth settings own main).movie.staticStates
    (c.notes depth settings own main) := by
  refine (main.run_noting (c.guides_noted depth) false _).agrees ?_
  show Agrees (Movie.new settings).staticStates []
  rw [Movie.staticStates_new]
  exact .empty

end Client

/-- A lookup that gives a handle leaves it recorded. -/
theorem Call.find?_of_perform {m : Machine (Ledger (σ × List Note))} (h : (noted σ).Guides m)
    {call : Call} {key : ClassKey} (hcall : call.classKey? = some key)
    {s t : State (Ledger (σ × List Note))} {o : ObjectId}
    (hperform : call.perform m s = (.ok (.object o), t)) :
    t.movie.staticStates.find? key = some o := by
  cases hstate : s.movie.staticStates.find? key with
  | some p =>
    rw [call.perform_recorded hcall m hstate] at hperform
    cases hperform
    exact hstate
  | none =>
    have hinit := h.runInitializer key s.movie.nextState (s.recordNext key)
    rcases hresult : m.runInitializer key s.movie.nextState (s.recordNext key) with ⟨result, u⟩
    rw [hresult] at hinit
    rw [call.perform_absent hcall m hstate, hresult] at hperform
    cases result with
    | error e => cases hperform
    | ok =>
      cases hperform
      exact hinit.states ((s.movie.find?_recordNext key key).trans (if_pos rfl))

/-- What is recorded in a movie of an orderly session is recorded and live from then on. -/
theorem Orderly.state_lasts {s : State (Ledger σ)} (h : Orderly s) {newer older : List Movie}
    {m : Movie} (hpast : s.embedder.past = newer ++ m :: older) {key : ClassKey} {o : ObjectId}
    (ho : m.staticStates.find? key = some o) {n : Movie} (hn : n ∈ m :: newer) :
    n.staticStates.find? key = some o ∧ n.heap.isLive o ∧
      ∀ {cls}, key = .object cls → m.heap.isLive cls →
        n.heap.isLive cls ∧ n.initializers.find? cls = m.initializers.find? cls := by
  have horder : n.InOrder := by
    refine h.inOrder n ?_
    rw [hpast]
    grind
  have hlasts : m.Lasts n := by
    rcases List.mem_cons.mp hn with rfl | hn
    · exact .refl _
    · have hpairs := h.lasts
      rw [hpast] at hpairs
      exact (List.pairwise_append.mp hpairs).2.2 n hn m List.mem_cons_self
  have hrecorded := hlasts.staticStates ho
  refine ⟨hrecorded, horder.live hrecorded, ?_⟩
  rintro cls rfl hlive
  exact hlasts.keepsClasses ho hlive

/-! ## Every client -/

namespace Client

/-- Lookups give one handle to each class, and no two classes the same. Those that find the state
recorded, as within its initializer, always give it. The initializer of a class begins at most once,
in the call that creates the state; lookups of a state that is recorded run nothing. From the lookup
on that records it, the state is recorded and live, and its class stays live if it was then. -/
theorem static_state_single (c : Client σ) (depth : Nat) (settings : Settings) (own : σ)
    (main : Program σ α) :
    (∀ {note note' key key' o o'}, note ∈ c.notes depth settings own main →
      note' ∈ c.notes depth settings own main → note.Gives key o → note'.Gives key' o' →
        (key = key' ↔ o = o')) ∧
    (∀ {key reply}, .found key reply ∈ c.notes depth settings own main →
      ∃ o, reply = .ok (.object o) ∧
        ∀ {state outcome}, .ended key state outcome ∈ c.notes depth settings own main →
          state = some o) ∧
    ((c.notes depth settings own main).filterMap Note.begun?).Nodup ∧
    (∀ {call key}, Call.classKey? call = some key → ∀ t,
      (∀ {o}, t.movie.staticStates.find? key = some o →
        call.perform (c.noting.host.machine depth) t = (.ok (.object o), t.after t.movie)) ∧
      (t.movie.staticStates.find? key = none → ∀ {result u},
        (c.noting.host.machine depth).runInitializer key t.movie.nextState (t.recordNext key) =
          (result, u) →
        call.perform (c.noting.host.machine depth) t =
          (result.map fun _ => .object t.movie.nextState, u)) ∧
      ∀ {o u}, call.perform (c.noting.host.machine depth) t = (.ok (.object o), u) →
        u.movie.staticStates.find? key = some o) ∧
    ∀ {newer m older}, (c.playNoting depth settings own main).embedder.past = newer ++ m :: older →
      ∀ {key o}, m.staticStates.find? key = some o → ∀ n ∈ m :: newer,
        n.staticStates.find? key = some o ∧ n.heap.isLive o ∧
          ∀ {cls}, key = .object cls → m.heap.isLive cls → n.heap.isLive cls := by
  have hagrees := c.agrees_notes depth settings own main
  have horderly := c.noting.orderly_play depth settings (own, []) main.noting
  refine ⟨fun {note note' key key' o o'} hnote hnote' hgives hgives' => ?_,
    fun {key reply} hfound => ?_, hagrees.once, fun {call key} hcall t => ⟨?_, ?_, ?_⟩,
    fun {newer m older} hpast {key o} ho n hn => ?_⟩
  · have ho := hagrees.find?_of_gives hnote hgives
    have ho' := hagrees.find?_of_gives hnote' hgives'
    constructor
    · rintro rfl
      exact Option.some.inj (ho.symm.trans ho')
    · rintro rfl
      exact horderly.movie.apart ho ho'
  · obtain ⟨o, ho, hreply⟩ := hagrees.found hfound
    refine ⟨o, hreply, fun hended => ?_⟩
    obtain ⟨p, hp, hstate, _⟩ := hagrees.ended hended
    rw [hstate, ← hp, ho]
  · exact call.perform_recorded hcall _
  · intro hnone result u hresult
    rw [call.perform_absent hcall _ hnone, hresult]
  · exact call.find?_of_perform (c.guides_noted depth) hcall
  · obtain ⟨hrecorded, hlive, hcls⟩ := horderly.state_lasts hpast ho hn
    exact ⟨hrecorded, hlive, fun hkey hlive => (hcls hkey hlive).1⟩

/-- A lookup made when the initializer of the class is not running finds a state on which it has
ended, without an error or in a call that gave its error. A lookup that runs the initializer ends as
that does. No class gets another initializer once its state is recorded. -/
theorem static_state_initialized (c : Client σ) (depth : Nat) (settings : Settings) (own : σ)
    (main : Program σ α) :
    (∀ {newer key reply older},
      c.notes depth settings own main = newer ++ .found key reply :: older →
      ¬Running key older → ∃ o outcome, reply = .ok (.object o) ∧
        .ended key (some o) outcome ∈ older ∧
        (outcome = .ok (.object o) ∨ ∃ e, outcome = .error e)) ∧
    (∀ {call key}, Call.classKey? call = some key → ∀ t, t.movie.staticStates.find? key = none →
      ∀ {result u},
        (c.noting.host.machine depth).runInitializer key t.movie.nextState (t.recordNext key) =
          (result, u) →
        call.perform (c.noting.host.machine depth) t =
          (result.map fun _ => .object t.movie.nextState, u)) ∧
    ((c.notes depth settings own main).filterMap Note.begun?).Nodup ∧
    ∀ {newer m older}, (c.playNoting depth settings own main).embedder.past = newer ++ m :: older →
      ∀ {cls o}, m.staticStates.find? (.object cls) = some o → m.heap.isLive cls → ∀ n ∈ newer,
        n.heap.isLive cls ∧ n.initializers.find? cls = m.initializers.find? cls := by
  have hagrees := c.agrees_notes depth settings own main
  have horderly := c.noting.orderly_play depth settings (own, []) main.noting
  refine ⟨fun {newer key reply older} hnotes hidle => ?_,
    fun {call key} hcall t hnone {result u} hresult => ?_, hagrees.once,
    fun {newer m older} hpast {cls o} ho hlive n hn => ?_⟩
  · -- What is found was begun before; it has ended, since it is not running.
    have hbegan := hagrees.earlier hnotes
    simp only [Running, hbegan, true_and, not_forall, not_not] at hidle
    obtain ⟨state, outcome, hended⟩ := hidle
    have hmem : ∀ {note}, note ∈ .found key reply :: older →
        note ∈ c.notes depth settings own main := by
      rw [hnotes]
      exact List.mem_append_right newer
    obtain ⟨o, ho, hreply⟩ := hagrees.found (hmem List.mem_cons_self)
    obtain ⟨p, hp, hstate, houtcome⟩ := hagrees.ended (hmem (List.mem_cons_of_mem _ hended))
    rw [ho] at hp
    cases hp
    rw [hstate] at hended
    exact ⟨o, outcome, hreply, hended, houtcome⟩
  · rw [call.perform_absent hcall _ hnone, hresult]
  · exact (horderly.state_lasts hpast ho (List.mem_cons_of_mem _ hn)).2.2 rfl hlive

end Client

/-! ## A class that is asked for twice -/

/-- A client whose first function looks up the state of the class that it gets and collects. Its
other functions fail. -/
def lookingBack : Client Unit where
  function
    | ⟨0⟩, _, [.object cls] =>
      .ask (.classState cls) fun _ => .ask (.collect []) fun _ => .done (.ok .undefined)
    | _, _, _ => .done (.error .timeout)
  initializeClass _ _ := .done (.ok ())
  notify _ _ := .done ()
  executeActions _ _ _ := .done (.ok .undefined)
  executeFunction _ _ _ _ _ _ := .done (.ok .undefined)
  resolveTarget _ _ := .done none
  checkTimeout _ := .done (.ok ())
  now := .done .nan

/-- Adds a class with an initializer and asks for its state twice. -/
def askTwice (initializer : HostFunction) : Program Unit Unit :=
  .ask (.addHostClass { name := "Key", initializer := some initializer }) fun
    | .ok (.objects cls _) =>
      .ask (.classState cls) fun _ => .ask (.classState cls) fun _ => .done ()
    | _ => .done ()

/-- The class of `askTwice`. -/
def askedClass : ObjectId := ⟨(Movie.new {}).heap.slots.size⟩

/-- The state of the class of `askTwice`, created after its prototype. -/
def askedState : ObjectId := ⟨(Movie.new {}).heap.slots.size + 2⟩

/-- The initializer finds the state on which it runs. -/
theorem static_state_found_within :
    lookingBack.notes 2 {} () (askTwice ⟨0⟩) =
      [.found (.object askedClass) (.ok (.object askedState)),
        .ended (.object askedClass) (some askedState) (.ok (.object askedState)),
        .found (.object askedClass) (.ok (.object askedState)), .began (.object askedClass)] ∧
      ((lookingBack.notes 2 {} () (askTwice ⟨0⟩)).filterMap Note.begun?).Nodup := by
  obtain ⟨_, _, honce, _⟩ := lookingBack.static_state_single 2 {} () (askTwice ⟨0⟩)
  exact ⟨by decide +kernel, honce⟩

/-- The initializer fails, and the next lookup gives the state all the same. -/
theorem static_state_of_failed_initializer :
    (lookingBack.playNoting 2 {} () (askTwice ⟨1⟩)).movie.heap.isLive askedClass ∧
    (lookingBack.playNoting 2 {} () (askTwice ⟨1⟩)).movie.initializers.find? askedClass =
      some (.host ⟨1⟩) ∧
    ∃ older, lookingBack.notes 2 {} () (askTwice ⟨1⟩) =
        .found (.object askedClass) (.ok (.object askedState)) :: older ∧
      ¬Running (.object askedClass) older ∧
      ∀ {state outcome}, .ended (.object askedClass) state outcome ∈ older →
        outcome = .error .timeout := by
  refine ⟨by decide +kernel, by decide +kernel,
    [.ended (.object askedClass) (some askedState) (.error .timeout), .began (.object askedClass)],
    by decide +kernel, fun hrunning => hrunning.2 List.mem_cons_self, fun hended => ?_⟩
  rcases List.mem_cons.mp hended with heq | hmem
  · cases heq
    rfl
  · cases List.mem_singleton.mp hmem

end ActionScript.Session
