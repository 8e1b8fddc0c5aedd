import ActionScript.Proofs.Broadcast

/-! # Observers in a session

A client keeps a log of its subscriptions: each registration and each removal of an observer, from
its main program and from its callbacks, with the answer and the observers that it leaves. Whatever
the client does, the observers of a key are those whose latest subscription under the key registers
them, in the order in which they became present, and a broadcast runs the program of each of them
once (`Client.observers_ordered`). -/

namespace ActionScript

namespace Session

/-! ## Logs of subscriptions -/

/-- The subscription is of an observer under a key. -/
def Subscription.concerns (settings : Settings) (key : String) (observer : Observer)
    (x : Subscription) : Bool :=
  settings.normalize x.name = key && x.observer = observer

section Log

variable (settings : Settings)

/-- The latest subscription of an observer under a key registers it. The latest of a log stands
first. -/
def registered (log : List Subscription) (key : String) (observer : Observer) : Bool :=
  (log.find? (·.concerns settings key observer)).any Subscription.registers

/-- When an observer became present: how many subscriptions came before the latest registration
that found it absent. -/
def joinedAt : List Subscription → String → Observer → Nat
  | [], _, _ => 0
  | x :: older, key, observer =>
    if x.concerns settings key observer && x.registers && !registered settings older key observer
    then older.length else joinedAt older key observer

variable {settings} {log : List Subscription} {key : String} {observer : Observer}

theorem registered_cons (x : Subscription) : registered settings (x :: log) key observer =
    if x.concerns settings key observer then x.registers
    else registered settings log key observer := by
  rw [registered, List.find?_cons, registered]
  split
  · rename_i hx
    rw [hx]
    rfl
  · rename_i hx
    rw [hx]
    rfl

theorem joinedAt_lt (h : registered settings log key observer) :
    joinedAt settings log key observer < log.length := by
  induction log with
  | nil => cases h
  | cons x older ih =>
    rw [joinedAt, List.length_cons]
    split
    · exact Nat.lt_succ_self _
    · rename_i hskipped
      refine Nat.lt_succ_of_lt (ih ?_)
      rw [registered_cons] at h
      split at h
      · rename_i hx
        simpa [hx, h] using hskipped
      · exact h

/-- A registration keeps the place of an observer that is present, and any other subscription that
of every other observer. -/
theorem joinedAt_cons_of_registered (x : Subscription)
    (h : registered settings log key observer) :
    joinedAt settings (x :: log) key observer = joinedAt settings log key observer := by
  rw [joinedAt, h, Bool.not_true, Bool.and_false, if_neg Bool.false_ne_true]

theorem joinedAt_cons_of_absent {x : Subscription} (hx : x.concerns settings key observer)
    (hregisters : x.registers) (h : registered settings log key observer = false) :
    joinedAt settings (x :: log) key observer = log.length := by
  rw [joinedAt, hx, hregisters, h]
  rfl

end Log

/-- The observers are what a log of subscriptions makes of them. -/
structure Faithful (settings : Settings) (log : List Subscription) (t : Observers) : Prop where
  mem_iff : ∀ {key observer}, observer ∈ t.of key ↔ registered settings log key observer
  nodup : ∀ key, (t.of key).Nodup
  ordered : ∀ key, (t.of key).Pairwise fun x y =>
    joinedAt settings log key x < joinedAt settings log key y
  contains_iff : ∀ {key}, t.contains key ↔ t.of key ≠ []

end Session

/-! ## Subscriptions and observers -/

namespace Observers

theorem contains_eq (t : Observers) (key : String) :
    t.contains key = (t.table.find? key).isSome := by
  rw [Bool.eq_iff_iff, contains, Table.contains, decide_eq_true_eq, Table.isSome_find?_iff]

theorem contains_register (t : Observers) (key : String) (observer : Observer) (key' : String) :
    (t.register key observer).contains key' =
      (t.contains key' || (decide (key' = key) && decide (observer ∉ t.of key))) := by
  by_cases hpresent : observer ∈ t.of key
  · simp [register, hpresent]
  · rw [register, if_neg hpresent, contains_eq, contains_eq, Table.find?_insert]
    by_cases hkey : key' = key <;> simp [hkey, hpresent]

/-- A key without observers has no entry after a removal. -/
theorem contains_unregister (t : Observers) (key : String) (observer : Observer) (key' : String) :
    (t.unregister key observer).2.contains key' =
      if key' = key then !((t.of key).filter (· ≠ observer)).isEmpty else t.contains key' := by
  rw [unregister]
  dsimp only
  split
  · rename_i hempty
    rw [contains_eq, contains_eq, Table.find?_erase, hempty]
    split <;> rfl
  · rename_i hrest
    rw [contains_eq, contains_eq, Table.find?_insert]
    split
    · rw [Bool.eq_false_iff.mpr hrest]
      rfl
    · rfl

end Observers

namespace Session.Faithful

variable {settings : Settings} {log : List Subscription} {t : Observers} {x : Subscription}

theorem empty : Faithful settings [] {} where
  mem_iff := by simp [Observers.of, registered]
  nodup _ := List.nodup_nil
  ordered _ := List.Pairwise.nil
  contains_iff := by simp [Observers.of, Observers.contains_eq]

/-- The order of observers that were present before lasts. -/
theorem ordered_cons (h : Faithful settings log t) (x : Subscription) (key : String) :
    (t.of key).Pairwise fun y z =>
      joinedAt settings (x :: log) key y < joinedAt settings (x :: log) key z := by
  refine (h.ordered key).imp_of_mem fun {y z} hy hz hlt => ?_
  rwa [joinedAt_cons_of_registered x (h.mem_iff.mp hy),
    joinedAt_cons_of_registered x (h.mem_iff.mp hz)]

theorem register (h : Faithful settings log t) (hx : x.registers) :
    Faithful settings (x :: log) (t.register (settings.normalize x.name) x.observer) where
  mem_iff := by
    intro key observer
    rw [Observers.of_register, registered_cons, hx, Subscription.concerns]
    by_cases hkey : key = settings.normalize x.name
    · subst hkey
      by_cases hpresent : x.observer ∈ t.of (settings.normalize x.name)
      · by_cases hobserver : observer = x.observer
        · simp [hobserver, hpresent]
        · simp [hpresent, Ne.symm hobserver, h.mem_iff]
      · by_cases hobserver : observer = x.observer
        · simp [hobserver, hpresent]
        · simp [hpresent, hobserver, Ne.symm hobserver, h.mem_iff]
    · simp [hkey, Ne.symm hkey, h.mem_iff]
  nodup := Observers.nodup_register h.nodup
  ordered := by
    intro key
    rw [Observers.of_register]
    split
    · rename_i hnew
      obtain ⟨rfl, hnew⟩ := hnew
      have habsent : registered settings log (settings.normalize x.name) x.observer = false :=
        Bool.eq_false_iff.mpr fun hregistered => hnew (h.mem_iff.mpr hregistered)
      refine List.pairwise_append.mpr ⟨h.ordered_cons x _, List.pairwise_singleton _ _, ?_⟩
      rintro y hy _ hz
      cases List.mem_singleton.mp hz
      have hregistered := h.mem_iff.mp hy
      rw [joinedAt_cons_of_registered x hregistered,
        joinedAt_cons_of_absent (by simp [Subscription.concerns]) hx habsent]
      exact joinedAt_lt hregistered
    · exact h.ordered_cons x key
  contains_iff := by
    intro key
    rw [Observers.contains_register, Bool.or_eq_true, h.contains_iff, Observers.of_register]
    split <;> simp_all

theorem unregister (h : Faithful settings log t) (hx : x.registers = false) :
    Faithful settings (x :: log) (t.unregister (settings.normalize x.name) x.observer).2 where
  mem_iff := by
    intro key observer
    rw [Observers.of_unregister, registered_cons, hx, Subscription.concerns]
    by_cases hkey : key = settings.normalize x.name
    · subst hkey
      by_cases hobserver : observer = x.observer
      · simp [hobserver]
      · simp [hobserver, Ne.symm hobserver, h.mem_iff]
    · simp [hkey, Ne.symm hkey, h.mem_iff]
  nodup := Observers.nodup_unregister h.nodup
  ordered := by
    intro key
    rw [Observers.of_unregister]
    split
    · rename_i hkey
      rw [← hkey]
      exact (h.ordered_cons x key).filter _
    · exact h.ordered_cons x key
  contains_iff := by
    intro key
    rw [Observers.contains_unregister, Observers.of_unregister]
    split
    · simp
    · exact h.contains_iff

/-- The reply to a subscription that a log stands for. -/
theorem apply (h : Faithful settings log t) (x : Subscription) {movie : Movie}
    (hsettings : movie.settings = settings) (hobservers : movie.observers = t) :
    Faithful settings (x :: log) (x.apply movie).2 ∧
      (x.apply movie).1 = if x.registers then .nothing
        else .flag (registered settings log (settings.normalize x.name) x.observer) := by
  subst hsettings hobservers
  rw [Subscription.apply]
  cases hx : x.registers with
  | true => exact ⟨h.register hx, rfl⟩
  | false =>
    refine ⟨h.unregister hx, congrArg Reply.flag ?_⟩
    rw [Bool.eq_iff_iff, ← h.mem_iff]
    exact List.contains_iff_mem

end Session.Faithful

namespace Session

variable {σ α : Type}

/-! ## Clients that keep a log -/

/-- A subscription with the reply to it and the observers that it leaves. -/
structure Entry extends Subscription where
  reply : Except Error Reply
  observers : Observers

/-- The program that logs its subscriptions, the latest first, beside what it keeps. -/
def Program.logging : Program σ α → Program (σ × List Entry) α
  | done a => .done a
  | look next => .look fun m logged => (next m logged.1).logging
  | keep own next => .look fun _ logged => .keep (own, logged.2) next.logging
  | ask call next =>
    match call.subscription? with
    | none => .ask call fun reply => (next reply).logging
    | some x => .ask call fun reply => .look fun m logged =>
        .keep (logged.1, ⟨x, reply, m.observers⟩ :: logged.2) (next reply).logging

/-- The client whose programs all log their subscriptions. -/
def Client.logging (c : Client σ) : Client (σ × List Entry) where
  function f this args := (c.function f this args).logging
  initializeClass cls state := (c.initializeClass cls state).logging
  notify observer key := (c.notify observer key).logging
  executeActions executor actions scope := (c.executeActions executor actions scope).logging
  executeFunction executor f actions scope this args :=
    (c.executeFunction executor f actions scope this args).logging
  resolveTarget executor target := (c.resolveTarget executor target).logging
  checkTimeout executor := (c.checkTimeout executor).logging
  now := c.now.logging

theorem Client.Each.logging {c : Client σ} {P : ∀ {α : Type}, Program (σ × List Entry) α → Prop}
    (h : c.Each fun program => P program.logging) : c.logging.Each P :=
  ⟨h.function, h.initializeClass, h.notify, h.executeActions, h.executeFunction, h.resolveTarget,
    h.checkTimeout, h.now⟩

/-- The state that a client with a log leads to. -/
def Client.playLogging (c : Client σ) (depth : Nat) (settings : Settings) (own : σ)
    (main : Program σ α) : State (Ledger (σ × List Entry)) :=
  c.logging.play depth settings (own, []) main.logging

/-- The log that a client has in the end, the latest subscription first. -/
def Client.log (c : Client σ) (depth : Nat) (settings : Settings) (own : σ)
    (main : Program σ α) : List Entry :=
  (c.playLogging depth settings own main).embedder.own.2

/-- The subscriptions of a log. -/
def subscriptions (log : List Entry) : List Subscription := log.map Entry.toSubscription

/-- What an entry says agrees with the log before it. -/
structure Entry.Truthful (settings : Settings) (e : Entry) (older : List Entry) : Prop where
  faithful : Faithful settings (subscriptions (e :: older)) e.observers
  reply : e.reply = .ok (if e.registers then .nothing
    else .flag (registered settings (subscriptions older) (settings.normalize e.name) e.observer))

/-- The log of a session tells its observers, now and in every movie on the way. -/
structure Logged (settings : Settings) (s : State (Ledger (σ × List Entry))) : Prop where
  under : s.movie.settings = settings
  now : Faithful settings (subscriptions s.embedder.own.2) s.movie.observers
  past : ∀ m ∈ s.embedder.past, ∃ older, older <:+ s.embedder.own.2 ∧
    Faithful settings (subscriptions older) m.observers
  entries : ∀ {newer e older}, s.embedder.own.2 = newer ++ e :: older → e.Truthful settings older

namespace Logged

variable {settings : Settings} {s t : State (Ledger (σ × List Entry))}

theorem start (settings : Settings) (own : σ) :
    Logged settings (Client.start settings (own, ([] : List Entry))) := by
  have hobservers : Faithful settings [] (Movie.new settings).observers := by
    rw [Movie.new, StateT.run, (Edit.Passes.setup _).observers]
    exact .empty
  have hsettings : (Movie.new settings).settings = settings := by
    rw [Movie.new, StateT.run, (Edit.Passes.setup _).settings]
  refine ⟨hsettings, hobservers, List.forall_mem_singleton.mpr ⟨[], List.suffix_refl _, hobservers⟩,
    fun {newer e older} hlog => ?_⟩
  cases newer <;> cases hlog

/-- A change of the movie that leaves the observers alone. -/
theorem after (h : Logged settings s) {m : Movie} (hsettings : m.settings = s.movie.settings)
    (hobservers : m.observers = s.movie.observers) : Logged settings (s.after m) where
  under := hsettings.trans h.under
  now := hobservers ▸ h.now
  past := List.forall_mem_cons.mpr ⟨⟨_, List.suffix_refl _, hobservers ▸ h.now⟩, h.past⟩
  entries := h.entries

theorem recordNext (h : Logged settings s) (key : ClassKey) :
    Logged settings (s.recordNext key) := by
  have hlooked := h.after (m := s.movie) rfl rfl
  have hcreated := hlooked.after (m := (Movie.createWithPrototype none s.movie).2) rfl rfl
  exact hcreated.after (m := s.movie.recordNext key) rfl rfl

/-- A change of what the client keeps beside its log. -/
theorem of_embedder {own : σ} {careful : Bool} (h : Logged settings s) :
    Logged settings
      { s with embedder := { s.embedder with own := (own, s.embedder.own.2), careful } } :=
  ⟨h.under, h.now, h.past, h.entries⟩

/-- A subscription is performed and logged. -/
theorem subscribe (h : Logged settings s) (x : Subscription)
    {t : State (Ledger (σ × List Entry))}
    (ht : t = s.after { s.movie with observers := (x.apply s.movie).2 }) :
    Logged settings { t with embedder := { t.embedder with
      own := (t.embedder.own.1,
        ⟨x, .ok (x.apply s.movie).1, t.movie.observers⟩ :: t.embedder.own.2) } } := by
  subst ht
  obtain ⟨hfaithful, hreply⟩ := h.now.apply x h.under rfl
  refine ⟨h.under, hfaithful, List.forall_mem_cons.mpr
    ⟨⟨_, List.suffix_refl _, hfaithful⟩, fun m hm => ?_⟩, fun {newer e older} hlog => ?_⟩
  · obtain ⟨older, hsuffix, hm⟩ := h.past m hm
    exact ⟨older, hsuffix.trans (List.suffix_cons _ _), hm⟩
  · cases newer with
    | nil =>
      cases hlog
      exact ⟨hfaithful, congrArg Except.ok hreply⟩
    | cons _ newer => exact h.entries (List.cons.inj hlog).2

end Logged

/-- The log goes on to tell the observers. -/
def logged (σ : Type) : Course (Ledger (σ × List Entry)) :=
  .ofPasses (fun s t => ∀ settings, Logged settings s → Logged settings t) (fun _ _ => id)
    (fun h h' settings hs => h' settings (h settings hs))
    fun h _ hs => hs.after h.settings h.observers

section Run

variable {m : Machine (Ledger (σ × List Entry))}

theorem audit_logged (handles : List ObjectId) (proper : Bool) :
    (logged σ).Updates (audit handles proper) := fun _ _ hs => hs.of_embedder

theorem Call.perform_logged (h : (logged σ).Guides m) {call : Call}
    (hcall : call.subscription? = none) : (logged σ).Runs (call.perform m) := by
  cases hclass : call.classKey? with
  | none =>
    exact call.perform_runs_on_lenient (fun hpasses _ hs => hs.after hpasses.settings
      hpasses.observers) h hclass hcall
  | some key =>
    intro s
    cases hstate : s.movie.staticStates.find? key with
    | some o =>
      rw [call.perform_recorded hclass m hstate]
      exact fun _ hs => hs.after rfl rfl
    | none =>
      rw [call.perform_absent hclass m hstate]
      exact fun settings hs => h.runInitializer key _ _ settings (hs.recordNext key)

/-- A program with a log, by induction on its calls. -/
theorem Program.run_logging (h : (logged σ).Guides m) (program : Program σ α) (inside : Bool) :
    (logged σ).Updates (program.logging.run m inside) := by
  induction program with
  | done a => exact .pure
  | look next ih => exact fun s => ih s.movie s.embedder.own.1 s
  | keep own next ih => exact fun s settings hs => ih _ settings hs.of_embedder
  | ask call next ih =>
    rw [logging]
    cases hcall : call.subscription? with
    | none =>
      exact .bind (audit_logged _ _) fun _ => .bind (call.perform_logged h hcall) fun reply =>
        ih reply
    | some x =>
      intro s settings hs
      have hperform := call.perform_subscription hcall m
        (audit call.handles (!(inside && call.isCollection)) s).2
      dsimp only
      rw [run_ask hperform]
      exact ih _ _ settings (hs.of_embedder.subscribe x rfl)

end Run

namespace Client

variable (c : Client σ) (depth : Nat) (settings : Settings) (own : σ) (main : Program σ α)

theorem guides_logged : (logged σ).Guides (c.logging.host.machine depth) :=
  Course.guides_machine
    (fun h => serves_on audit_logged
      (Each.logging (c.each_of_all fun program => program.run_logging h true))) depth

theorem logged_play : Logged settings (c.playLogging depth settings own main) :=
  main.run_logging (c.guides_logged depth) false _ settings (.start settings own)

/-- Whatever a client does, also while a broadcast runs, the observers of a key are those whose
latest subscription under the key registers them, each once, in the order in which they became
present, and a key has an entry if it has observers. This holds in every movie of the session, with
the log as it was then, and after every entry of the log; a removal is answered by whether the
observer was there. A broadcast runs the program of each observer that the key has when it
starts. -/
theorem observers_ordered (c : Client σ) (depth : Nat) (settings : Settings) (own : σ)
    (main : Program σ α) :
    Faithful settings (subscriptions (c.log depth settings own main))
      (c.playLogging depth settings own main).movie.observers ∧
    (∀ m ∈ (c.playLogging depth settings own main).embedder.past, ∃ newer older,
      c.log depth settings own main = newer ++ older ∧
        Faithful settings (subscriptions older) m.observers) ∧
    (∀ {newer e older}, c.log depth settings own main = newer ++ e :: older →
      e.Truthful settings older) ∧
    ∀ n name s, (c.logging.host.machine (n + 1)).broadcast name s =
      ((), (s.movie.observers.of (s.movie.normalize name)).foldl (fun t observer =>
        ((c.logging.notify observer (s.movie.normalize name)).run (c.logging.host.machine n)
          true t).2) (s.after s.movie)) := by
  have hlogged := c.logged_play depth settings own main
  refine ⟨hlogged.now, fun m hm => ?_, hlogged.entries, fun n name s => ?_⟩
  · obtain ⟨older, ⟨newer, hlog⟩, hfaithful⟩ := hlogged.past m hm
    exact ⟨newer, older, hlog.symm, hfaithful⟩
  · exact Machine.forM_notify _ _ (s.after s.movie) _

end Client

/-! ## An observer that leaves while it is told -/

/-- A client that keeps which of its observers are told, the latest first. The first observer leaves
when it is told, and registers another. -/
def rotating : Client (List Observer) where
  function _ _ _ := .done (.ok .undefined)
  initializeClass _ _ := .done (.ok ())
  notify observer _ := .look fun _ heard => .keep (observer :: heard)
    (if observer = ⟨0⟩ then
      .ask (.unobserve "onPress" ⟨0⟩) fun _ => .ask (.observe "onPress" ⟨2⟩) fun _ => .done ()
    else .done ())
  executeActions _ _ _ := .done (.ok .undefined)
  executeFunction _ _ _ _ _ _ := .done (.ok .undefined)
  resolveTarget _ _ := .done none
  checkTimeout _ := .done (.ok ())
  now := .done .nan

/-- Registers two observers, the first of them twice, and tells them. -/
def tellTwo : Program (List Observer) Unit :=
  .ask (.observe "onPress" ⟨0⟩) fun _ => .ask (.observe "ONPRESS" ⟨1⟩) fun _ =>
    .ask (.observe "onpress" ⟨0⟩) fun _ => .ask (.broadcast "onPress") fun _ =>
      .ask (.unobserve "onPress" ⟨0⟩) fun _ => .done ()

/-- The settings of a movie in which case does not count. -/
def versionSix : Settings where
  version := 6

theorem observers_ordered_rotating :
    (rotating.playLogging 2 versionSix [] tellTwo).movie.observers.of "onpress" = [⟨1⟩, ⟨2⟩] ∧
      (rotating.playLogging 2 versionSix [] tellTwo).embedder.own.1 = [⟨1⟩, ⟨0⟩] ∧
      (rotating.log 2 versionSix [] tellTwo).map (fun e => (e.toSubscription, e.reply)) =
        [(⟨"onPress", ⟨0⟩, false⟩, .ok (.flag false)), (⟨"onPress", ⟨2⟩, true⟩, .ok .nothing),
          (⟨"onPress", ⟨0⟩, false⟩, .ok (.flag true)), (⟨"onpress", ⟨0⟩, true⟩, .ok .nothing),
          (⟨"ONPRESS", ⟨1⟩, true⟩, .ok .nothing), (⟨"onPress", ⟨0⟩, true⟩, .ok .nothing)] ∧
      Faithful versionSix (subscriptions (rotating.log 2 versionSix [] tellTwo))
        (rotating.playLogging 2 versionSix [] tellTwo).movie.observers ∧
      (∃ m ∈ (rotating.playLogging 2 versionSix [] tellTwo).embedder.past, ∃ newer older,
        rotating.log 2 versionSix [] tellTwo = newer ++ older ∧
          Faithful versionSix (subscriptions older) m.observers) ∧
      ∃ e older, rotating.log 2 versionSix [] tellTwo = e :: older ∧
        e.Truthful versionSix older := by
  obtain ⟨hfaithful, hpast, hentries, _⟩ := rotating.observers_ordered 2 versionSix [] tellTwo
  obtain ⟨m, _, hm⟩ : ∃ m older,
      (rotating.playLogging 2 versionSix [] tellTwo).embedder.past = m :: older :=
    List.exists_cons_of_ne_nil (by decide +kernel)
  obtain ⟨e, older, he⟩ : ∃ e older, rotating.log 2 versionSix [] tellTwo = e :: older :=
    List.exists_cons_of_ne_nil (by decide +kernel)
  have hmem : m ∈ (rotating.playLogging 2 versionSix [] tellTwo).embedder.past := by
    rw [hm]
    exact List.mem_cons_self
  exact ⟨by decide +kernel, by decide +kernel, by decide +kernel, hfaithful,
    ⟨m, hmem, hpast m hmem⟩, e, older, he, hentries (he.trans (List.nil_append _).symm)⟩

end Session

end ActionScript
