import ActionScript.Proofs.Correspondence.Setup
import ActionScript.Proofs.KeyOrder
import ActionScript.Proofs.Session.Basic

/-! # What every session keeps

A session that runs beside itself stays beside itself. The handles it knows are the live ones as
long as the client is careful, and all handles once it is not; either way a movie that knows its
handles is alike to itself (`Kept`), and that is the invariant that carries the liveness of stored
handles through every call and callback. Chains stay free of cycles beside it, and every edit is a
step of the keys (`History`). -/

namespace ActionScript

/-- Every handle that an object stores or the movie holds is that of a live object. -/
structure Movie.Closed (m : Movie) : Prop where
  stored : ∀ {o object p}, m.heap.get? o = some object → object.Refers p → m.heap.isLive p
  held : ∀ {o}, m.Holds o → m.heap.isLive o

/-- The movie is closed and no prototype chain meets an object twice: a walk along prototype links
ends, and until then it stays within the chain. -/
structure Movie.Sound (m : Movie) : Prop extends m.Closed where
  chain_nodup : ∀ o, (m.heap.chain o).Nodup
  walk_ends : ∀ o, m.heap.walk (m.heap.slots.size + 1) o = none
  chain_whole : ∀ n o, m.heap.chainUpTo n o <+: m.heap.chain o

theorem Matching.known_add (k : ObjectId → Prop) (o : ObjectId) :
    (Matching.known k).add o o = .known fun p => k p ∨ p = o := by
  have hhandle : ((Matching.known k).add o o).handle =
      (Matching.known fun p => k p ∨ p = o).handle := by
    funext p q
    apply propext
    constructor
    · rintro (⟨rfl, hp⟩ | ⟨rfl, rfl⟩)
      · exact ⟨rfl, .inl hp⟩
      · exact ⟨rfl, .inr rfl⟩
    · rintro ⟨rfl, hp | rfl⟩
      · exact .inl ⟨rfl, hp⟩
      · exact .inr ⟨rfl, rfl⟩
  exact congrArg (Matching.mk · Eq) hhandle

/-! ## Movies -/

/-- What holds of a movie in which the client knows the handles with a property. A careful client
knows the live objects; one that is not may have used any handle. -/
structure Kept (careful : Bool) (k : ObjectId → Prop) (m : Movie) : Prop where
  arena : m.heap.Arena
  alike : Movie.Alike (.known k) m m
  live : careful = true → ∀ {o}, k o ↔ m.heap.isLive o
  acyclic : careful = true → m.heap.Acyclic
  all : careful = false → ∀ o, k o

namespace Kept

variable {careful : Bool} {k : ObjectId → Prop} {m : Movie} {o : ObjectId}

theorem refers (h : Kept careful k m) {object : Object} {p : ObjectId} (ho : k o)
    (hget : m.heap.get? o = some object) (hp : object.Refers p) : k p := by
  have halike := h.alike.objects (o := o) ⟨rfl, ho⟩
  rw [hget] at halike
  cases halike with
  | some hx => exact hx.known_of_refers hp

theorem sound (h : Kept true k m) : m.Sound where
  stored := fun hget hp =>
    (h.live rfl).mp (h.refers ((h.live rfl).mpr (Heap.isLive_of_get? hget)) hget hp)
  held := fun ho => (h.live rfl).mp (h.alike.known_of_holds ho)
  chain_nodup := (h.acyclic rfl).chain_nodup
  walk_ends := (h.acyclic rfl).walk_ends
  chain_whole := (h.acyclic rfl).chainUpTo_within

/-- Any handle may be used once the client is not careful. -/
theorem careless (h : m.heap.Arena) (hk : ∀ o, k o) : Kept false k m where
  arena := h
  alike := Movie.alike_known_all hk m
  live := nofun
  acyclic := nofun
  all := fun _ => hk

theorem allocate (h : Kept careful k m) {x : Object} (hx : Object.Alike (.known k) x x) :
    Kept careful (fun o => k o ∨ o = (m.heap.allocate x).1)
      { m with heap := (m.heap.allocate x).2 } := by
  have harena := h.arena.allocate x
  cases careful with
  | false => exact .careless harena fun o => .inl (h.all rfl o)
  | true =>
    have hfresh : ¬ k (m.heap.allocate x).1 :=
      fun hk => h.arena.not_isLive_allocate x ((h.live rfl).mp hk)
    have halike := h.alike.allocate h.arena h.arena hx (fun p hp => hfresh hp.2)
      fun p hp => hfresh (hp.1 ▸ hp.2)
    rw [Matching.known_add] at halike
    refine ⟨harena, halike, fun _ o => ?_, fun _ => ?_, nofun⟩
    · show _ ↔ (m.heap.allocate x).2.isLive o
      rw [h.arena.isLive_allocate, h.live rfl, or_comm]
    · refine (h.acyclic rfl).allocate h.arena (fun hp => ?_) fun {p q} hlink => ?_
      · exact (h.live rfl).mp (hx.known_of_refers (.prototype hp))
      · obtain ⟨object, hget, hq⟩ := Option.bind_eq_some_iff.mp hlink
        exact h.sound.stored hget (.prototype hq)

theorem modify (h : Kept careful k m) {f : Object → Object}
    (hf : ∀ x, (f x).prototype = x.prototype)
    (halike : Movie.Alike (.known k) { m with heap := m.heap.modify o f }
      { m with heap := m.heap.modify o f }) :
    Kept careful k { m with heap := m.heap.modify o f } where
  arena := h.arena.modify o f
  alike := halike
  live := fun hcareful p => by
    show _ ↔ (m.heap.modify o f).isLive p
    rw [Heap.isLive_modify, h.live hcareful]
  acyclic := fun hcareful =>
    (h.acyclic hcareful).mono fun _ _ => (Heap.link_modify_iff hf).mp
  all := h.all

theorem setPrototype (h : Kept careful k m) {p : Option ObjectId}
    (halike : Movie.Alike (.known k) { m with heap := (m.heap.setPrototype o p).2 }
      { m with heap := (m.heap.setPrototype o p).2 }) :
    Kept careful k { m with heap := (m.heap.setPrototype o p).2 } where
  arena := h.arena.setPrototype o p
  alike := halike
  live := fun hcareful q => by
    show _ ↔ (m.heap.setPrototype o p).2.isLive q
    rw [Heap.isLive_setPrototype, h.live hcareful]
  acyclic := fun hcareful => (h.acyclic hcareful).setPrototype p
  all := h.all

end Kept

/-! ## Sessions -/

namespace Session

variable {σ α : Type} {s t : State (Ledger σ)} {k : ObjectId → Prop}

/-- The records of a session: the latest movie is the present one, each came from the one before
by a step of the keys, and all are sound if the client has been careful. -/
structure History (s : State (Ledger σ)) : Prop where
  latest : ∃ older, s.embedder.past = s.movie :: older
  steps : IsHistory s.embedder.past
  arenas : ∀ m ∈ s.embedder.past, m.heap.Arena
  sound : s.embedder.careful = true → ∀ m ∈ s.embedder.past, m.Sound

/-- The state of a session in which the handles with a property are known. -/
structure Fits (k : ObjectId → Prop) (s : State (Ledger σ)) : Prop where
  kept : Kept s.embedder.careful k s.movie
  history : History s

theorem History.after (h : History s) {m : Movie} (hsteps : s.movie.heap.KeySteps m.heap)
    (harena : m.heap.Arena) (hsound : s.embedder.careful = true → m.Sound) :
    History (s.after m) where
  latest := ⟨s.embedder.past, rfl⟩
  steps := by
    show IsHistory (m :: s.embedder.past)
    obtain ⟨older, hpast⟩ := h.latest
    have hold := h.steps
    rw [hpast] at hold ⊢
    exact List.isChain_cons_cons.mpr ⟨hsteps, hold⟩
  arenas := fun n hn => by
    rcases List.mem_cons.mp hn with rfl | hn
    · exact harena
    · exact h.arenas n hn
  sound := fun hcareful n hn => by
    rcases List.mem_cons.mp hn with rfl | hn
    · exact hsound hcareful
    · exact h.sound hcareful n hn

theorem Fits.after (h : History s) {m : Movie} (hsteps : s.movie.heap.KeySteps m.heap)
    (hm : Kept s.embedder.careful k m) : Fits k (s.after m) where
  kept := hm
  history := by
    refine h.after hsteps hm.arena fun hcareful => ?_
    rw [hcareful] at hm
    exact hm.sound

/-- A movie in the middle of an edit of a session. -/
structure Editing (s : State (Ledger σ)) (k : ObjectId → Prop) (m : Movie) : Prop where
  kept : Kept s.embedder.careful k m
  grows : s.movie.heap.Grows m.heap
  history : History s

/-- A session beside itself. -/
def beside (σ : Type) : Correspondence (Ledger σ) where
  state r s t := s = t ∧ ∃ k, r = .known k ∧ Fits k s
  editing s t r m m' := s = t ∧ m = m' ∧ ∃ k, r = .known k ∧ Editing s k m
  start := by
    rintro _ s _ ⟨rfl, k, rfl, h⟩
    exact ⟨rfl, rfl, k, rfl, h.kept, .refl _, h.history⟩
  finish := by
    rintro s _ _ m _ ⟨rfl, rfl, k, rfl, h⟩
    exact ⟨rfl, k, rfl, .after h.history h.grows.keySteps h.kept⟩
  alike := by
    rintro s _ _ m _ ⟨rfl, rfl, k, rfl, h⟩
    exact h.kept.alike
  allocate := by
    rintro s _ _ m _ x x' ⟨rfl, rfl, k, rfl, h⟩ hx
    have heq := hx.eq_of_known
    subst heq
    refine ⟨_, Matching.known_le_iff.mpr fun o ho => .inl ho, ⟨rfl, .inr rfl⟩, rfl, rfl, _, rfl,
      h.kept.allocate hx, ?_, h.history⟩
    exact h.grows.trans (h.kept.arena.grows_allocate x)
  modify := by
    rintro s _ _ m _ o o' f f' ⟨rfl, rfl, k, rfl, h⟩ ⟨rfl, ho⟩ hf hf' halike
    have hsame : m.heap.modify o f = m.heap.modify o f' := by
      refine Heap.modify_congr fun x hx => ?_
      have hself := h.kept.alike.objects (o := o) ⟨rfl, ho⟩
      rw [hx] at hself
      cases hself with
      | some hxx => exact (halike hxx).eq_of_known
    have hself := h.kept.alike.modify ⟨rfl, ho⟩ halike
    rw [← hsame] at hself ⊢
    refine ⟨rfl, rfl, k, rfl, h.kept.modify (fun x => (hf x).1) hself, ?_, h.history⟩
    exact h.grows.trans (Heap.grows_modify o fun x => (hf x).2)
  setPrototype := by
    rintro s _ _ m _ o o' p p' ⟨rfl, rfl, k, rfl, h⟩ ⟨rfl, ho⟩ hp
    have hself := (h.kept.alike.setPrototype ⟨rfl, ho⟩ hp).2
    have heq := optionRel_eq_of_known hp
    subst heq
    refine ⟨rfl, rfl, k, rfl, h.kept.setPrototype hself, ?_, h.history⟩
    exact h.grows.trans (m.heap.grows_setPrototype o p)
  replace := by
    rintro s _ _ m _ n n' ⟨rfl, rfl, k, rfl, h⟩ halike _ hheap hheap'
    have heq := halike.eq_of_known (hheap.trans hheap'.symm)
    subst heq
    obtain ⟨⟨harena, _, hlive, hacyclic, hall⟩, hgrows, hhistory⟩ := h
    rw [← hheap] at harena hlive hacyclic hgrows
    exact ⟨rfl, rfl, k, rfl, ⟨harena, halike, hlive, hacyclic, hall⟩, hgrows, hhistory⟩
  drop := by
    rintro _ s _ o o' p ⟨rfl, k, rfl, h⟩ ⟨rfl, ho⟩
    have hself : Movie.Alike (.known k)
        { s.movie with heap := s.movie.heap.modify o (Object.dropSlots p) }
        { s.movie with heap := s.movie.heap.modify o (Object.dropSlots p) } :=
      h.kept.alike.modify ⟨rfl, ho⟩ fun hx =>
        { hx with properties := hx.properties.eraseWhere p }
    refine ⟨rfl, k, rfl, .after h.history ?_ (h.kept.modify (fun _ => rfl) hself)⟩
    exact Heap.keySteps_eraseWhere o p

/-! ## Programs -/

/-- A client that names a stale handle, or does what it should not, is careless from then on. -/
theorem Fits.audit (h : Fits k s) (handles : List ObjectId) (proper : Bool) :
    ∃ k', Fits k' (audit handles proper s).2 ∧ (∀ o, k o → k' o) ∧ (∀ o ∈ handles, k' o) ∧
      ((Session.audit handles proper s).2.embedder.careful = true → proper = true) := by
  have hcareful : (Session.audit handles proper s).2.embedder.careful =
      (s.embedder.careful && (proper && handles.all s.movie.heap.isLive)) := rfl
  cases hc : s.embedder.careful && (proper && handles.all s.movie.heap.isLive) with
  | true =>
    simp only [Bool.and_eq_true, List.all_eq_true] at hc
    obtain ⟨hold, hproper, hlive⟩ := hc
    have hsame : (Session.audit handles proper s).2.embedder.careful = s.embedder.careful := by
      rw [hcareful, hold, hproper, List.all_eq_true.mpr hlive]
      rfl
    refine ⟨k, ⟨?_, h.history.latest, h.history.steps, h.history.arenas, ?_⟩, fun _ => id,
      fun o ho => ?_,
      fun _ => hproper⟩
    · rw [hsame]
      exact h.kept
    · rw [hsame]
      exact h.history.sound
    · exact (h.kept.live hold).mpr (hlive o ho)
  | false =>
    rw [hc] at hcareful
    refine ⟨fun _ => True, ⟨?_, h.history.latest, h.history.steps, h.history.arenas, ?_⟩,
      fun _ _ => trivial,
      fun _ _ => trivial, fun htrue => ?_⟩
    · rw [hcareful]
      exact .careless h.kept.arena fun _ => trivial
    · rw [hcareful]
      exact nofun
    · rw [hcareful] at htrue
      cases htrue

/-- What a collection leaves refers to what it leaves. -/
theorem Fits.collect (h : Fits k s) (extra : List ObjectId) :
    ∃ k', Fits k' (s.after (Movie.collectGarbage extra s.movie).2) ∧
      (s.embedder.careful = false → ∀ o, k' o) := by
  have hsteps := s.movie.heap.keySteps_collect (s.movie.roots ++ extra)
  have harena := h.kept.arena.collect (s.movie.roots ++ extra)
  cases hcareful : s.embedder.careful with
  | false =>
    refine ⟨fun _ => True, .after h.history hsteps ?_, fun _ _ => trivial⟩
    rw [hcareful]
    exact .careless harena fun _ => trivial
  | true =>
    have hkept := h.kept
    rw [hcareful] at hkept
    have hlive : ∀ {o}, (s.movie.heap.collect (s.movie.roots ++ extra)).2.isLive o ↔
        s.movie.heap.Reaches (· ∈ s.movie.roots ++ extra) o := Heap.isLive_collect_iff
    refine ⟨fun o => (s.movie.heap.collect (s.movie.roots ++ extra)).2.isLive o,
      .after h.history hsteps ?_, nofun⟩
    rw [hcareful]
    refine ⟨harena, Movie.alike_known (fun {o} ho => ?_) (fun {o object p} ho hget hp => ?_)
      fun _ => rfl, fun _ _ => Iff.rfl, fun _ => ?_, nofun⟩
    · have hroot : o ∈ s.movie.roots :=
        (Movie.mem_roots_iff (m := (Movie.collectGarbage extra s.movie).2)).mpr ho
      have hheld := hkept.sound.held (Movie.mem_roots_iff.mp hroot)
      exact hlive.mpr (.root (List.mem_append_left extra hroot) hheld)
    · replace hget : (s.movie.heap.collect (s.movie.roots ++ extra)).2.get? o = some object := hget
      rw [Heap.get?_collect_of_isLive ho] at hget
      exact hlive.mpr (.step (hlive.mp ho) hget hp (hkept.sound.stored hget hp))
    · refine (hkept.acyclic rfl).mono fun o p hlink => ?_
      have ho := Heap.isLive_of_link hlink
      rw [Heap.Link, Heap.prototype?] at hlink ⊢
      rwa [← Heap.get?_collect_of_isLive ho]

theorem Fits.createActions (h : Fits k s) (buffer : BufferId) (bytes : List UInt8)
    (name : String) (parent : Option ActionsId) :
    Fits k (s.after (Movie.createActions buffer bytes name parent s.movie).2) := by
  refine .after h.history (Heap.Grows.refl _).keySteps ?_
  obtain ⟨harena, halike, hlive, hacyclic, hall⟩ := h.kept
  exact ⟨harena, { halike with actions := rfl }, hlive, hacyclic, hall⟩

variable {m : Machine (Ledger σ)} (hm : (beside σ).Respects m)
include hm

/-- A call that names known handles keeps what is known, unless it is a collection. -/
theorem Call.perform_fits {call : Call} (h : Fits k s) (hhandles : ∀ o ∈ call.handles, k o) :
    ∃ k', Fits k' (call.perform m s).2 ∧
      ((s.embedder.careful = true → call.isCollection = false) → ∀ o, k o → k' o) := by
  by_cases hlocal : call.isLocal
  · have hruns := Call.perform_runs hm hlocal (r := .known k) fun o ho => ⟨rfl, hhandles o ho⟩
    obtain ⟨_, hle, ⟨_, k', rfl, hfits⟩, _⟩ := hruns s s ⟨rfl, k, rfl, h⟩
    exact ⟨k', hfits, fun _ => Matching.known_le_iff.mp hle⟩
  · cases call with
    | createActions buffer bytes name parent =>
      exact ⟨k, h.createActions buffer bytes name parent, fun _ _ => id⟩
    | collect extra =>
      obtain ⟨k', hfits, hall⟩ := h.collect extra
      refine ⟨k', hfits, fun hcollect o _ => hall ?_ o⟩
      cases hcareful : s.embedder.careful with
      | false => rfl
      | true => exact nomatch hcollect hcareful
    | _ => exact (hlocal rfl).elim

/-- A program keeps the state of its session as it should be, and within a callback what is
known stays known. -/
theorem Program.run_fits (program : Program σ α) (inside : Bool) (h : Fits k s) :
    ∃ k', Fits k' (program.run m inside s).2 ∧ (inside = true → ∀ o, k o → k' o) := by
  induction program generalizing s k with
  | done a => exact ⟨k, h, fun _ _ => id⟩
  | look next ih => exact ih s.movie s.embedder.own h
  | keep own next ih =>
    have hkeep : Fits k { s with embedder := { s.embedder with own } } :=
      ⟨h.kept, h.history.latest, h.history.steps, h.history.arenas, h.history.sound⟩
    exact ih hkeep
  | ask call next ih =>
    obtain ⟨k₁, h₁, hle₁, hhandles, hproper⟩ :=
      h.audit call.handles !(inside && call.isCollection)
    obtain ⟨k₂, h₂, hle₂⟩ := Call.perform_fits hm h₁ hhandles
    obtain ⟨k₃, h₃, hle₃⟩ := ih (call.perform m _).1 h₂
    refine ⟨k₃, h₃, fun hinside o ho => hle₃ hinside o (hle₂ (fun hcareful => ?_) o (hle₁ o ho))⟩
    have hnot := hproper hcareful
    rw [hinside, Bool.true_and, Bool.not_eq_true'] at hnot
    exact hnot

/-! ## Clients -/

theorem Program.run_updates (program : Program σ α) (r : Matching) :
    (beside σ).Updates r (program.run m true) (program.run m true) fun _ a b => a = b := by
  rintro s _ ⟨rfl, k, rfl, h⟩
  obtain ⟨k', hfits, hle⟩ := program.run_fits hm true h
  exact ⟨.known k', Matching.known_le_iff.mpr (hle rfl), ⟨rfl, k', rfl, hfits⟩, rfl⟩

theorem Program.answer_runs (program : Program σ (Except Error α)) (handles : α → List ObjectId)
    (r : Matching) :
    (beside σ).Runs r (program.answer m handles) (program.answer m handles)
      fun r' a b => a = b ∧ ∀ o ∈ handles a, r'.handle o o := by
  rintro s _ ⟨rfl, k, rfl, h⟩
  obtain ⟨k₁, h₁, hle₁⟩ := program.run_fits hm true h
  obtain ⟨k₂, h₂, hle₂, hhandles, _⟩ :=
    h₁.audit (resultHandles handles (program.run m true s).1) true
  refine ⟨.known k₂, Matching.known_le_iff.mpr fun o ho => hle₂ o (hle₁ rfl o ho),
    ⟨rfl, k₂, rfl, h₂⟩, ?_⟩
  show Result.Alike _ _ (program.run m true s).1 (program.run m true s).1
  cases hresult : (program.run m true s).1 with
  | ok a =>
    rw [hresult] at hhandles
    exact .ok ⟨rfl, fun o ho => ⟨rfl, hhandles o ho⟩⟩
  | error e =>
    rw [hresult] at hhandles
    exact .error (error_known fun o ho => ⟨rfl, hhandles o ho⟩)

omit hm in
theorem runs_of_known {β : Type} {x y : Run (Ledger σ) β} {r : Matching}
    {post : Matching → β → β → Prop} (h : ∀ k, r = .known k → (beside σ).Runs r x y post) :
    (beside σ).Runs r x y post := by
  intro s t hs
  obtain ⟨k, hr, _⟩ := hs.2
  exact h k hr s t hs

/-- The services of a client answer alike data alike: it is the same data. -/
theorem Client.serves (c : Client σ) : (beside σ).Serves (c.host m) where
  function := by
    intro r f this this' args args' hthis hargs
    refine runs_of_known fun k hr => ?_
    subst hr
    rw [← hthis.eq_of_known, ← values_eq_of_known hargs]
    refine (Program.answer_runs hm _ _ _).imp fun _ hv => ?_
    exact hv.1 ▸ value_known hv.2
  initializeClass := by
    intro r cls state state' hstate
    refine runs_of_known fun k hr => ?_
    subst hr
    rw [← hstate.1]
    exact (Program.answer_runs hm _ _ _).imp fun _ _ => trivial
  notify := by
    intro r observer key s t hs
    obtain ⟨r', hle, hs, _⟩ := Program.run_updates hm (c.notify observer key) r s t hs
    exact ⟨r', hle, hs, trivial⟩
  executeActions := by
    intro r executor actions scope scope' hscope
    refine runs_of_known fun k hr => ?_
    subst hr
    rw [← hscope.1]
    refine (Program.answer_runs hm _ _ _).imp fun _ hv => ?_
    exact hv.1 ▸ value_known hv.2
  executeFunction := by
    intro r executor f f' actions scope this this' args args' hf hthis hargs
    refine runs_of_known fun k hr => ?_
    subst hr
    rw [← hf.1, ← hthis.eq_of_known, ← values_eq_of_known hargs]
    refine (Program.answer_runs hm _ _ _).imp fun _ hv => ?_
    exact hv.1 ▸ value_known hv.2
  resolveTarget := by
    rintro r executor target target' htarget s _ ⟨rfl, k, rfl, h⟩
    rw [← htarget.eq_of_known]
    obtain ⟨k₁, h₁, hle₁⟩ := (c.resolveTarget executor target).run_fits hm true h
    obtain ⟨k₂, h₂, hle₂, hhandles, _⟩ :=
      h₁.audit ((c.resolveTarget executor target).run m true s).1.toList true
    refine ⟨.known k₂, Matching.known_le_iff.mpr fun o ho => hle₂ o (hle₁ rfl o ho),
      ⟨rfl, k₂, rfl, h₂⟩, ?_⟩
    show Option.Rel _ ((c.resolveTarget executor target).run m true s).1
      ((c.resolveTarget executor target).run m true s).1
    cases hresult : ((c.resolveTarget executor target).run m true s).1 with
    | none => exact .none
    | some o => exact .some ⟨rfl, hhandles o (by rw [hresult]; exact List.mem_cons_self)⟩
  checkTimeout := by
    intro r executor
    exact (Program.answer_runs hm _ _ _).imp fun _ _ => trivial
  now := Program.run_updates hm c.now _

omit hm in
theorem Client.respects (c : Client σ) (depth : Nat) :
    (beside σ).Respects (c.host.machine depth) :=
  Correspondence.respects_machine (fun hm => c.serves hm) depth

end Session

/-! ## The beginning -/

/-- The movie of the first object. Its handle is the one that all roles name before they are
assigned. -/
def Movie.first (settings : Settings) : Movie :=
  (Movie.createWithPrototype none { settings, random := Random.start settings.seed }).2

theorem Movie.new_eq (settings : Settings) :
    Movie.new settings = (Movie.setupFrom ⟨0⟩ (Movie.first settings)).2 := by
  have hbind : ∀ (x : Edit ObjectId) (f : ObjectId → Edit Unit) m,
      (x >>= f) m = f (x m).1 (x m).2 := fun _ _ _ => rfl
  have hhandle : (Movie.createWithPrototype none
      { settings, random := Random.start settings.seed }).1 = ⟨0⟩ := rfl
  rw [Movie.new, StateT.run, Movie.setup, hbind, hhandle, Movie.first]

theorem Movie.kept_first (settings : Settings) :
    Kept true (· = ⟨0⟩) (Movie.first settings) := by
  have hget : ∀ o, (Movie.first settings).heap.get? o =
      if o = ⟨0⟩ then some { prototype := none, kind := .plain } else none :=
    Heap.Arena.empty.get?_allocate _
  have hrefers : ∀ p, ¬ Object.Refers { prototype := none, kind := .plain } p := by
    rintro p (h | ⟨h, _⟩ | ⟨h, _⟩ | ⟨h, _⟩ | ⟨h, _⟩ | ⟨h, _⟩) <;> cases h
  refine ⟨Heap.Arena.empty.allocate _, ?_, fun _ o => ?_, fun _ o hcycle => ?_, nofun⟩
  · refine Movie.alike_known (fun {o} ho => ?_) (fun {o object p} ho hobject hp => ?_)
      fun _ => rfl
    · rcases ho with h | h | h | h | h | h | h
      · simpa [first, createWithPrototype, create, onHeap, Intrinsics.all] using h
      · exact h.symm
      all_goals cases h
    · rw [hget, if_pos ho, Option.some.injEq] at hobject
      exact (hrefers p (hobject ▸ hp)).elim
  · rw [Heap.isLive, hget]
    by_cases ho : o = ⟨0⟩ <;> simp [ho]
  · obtain ⟨p, hlink, _⟩ := Relation.TransGen.head'_iff.mp hcycle
    rw [Heap.Link, Heap.prototype?, hget] at hlink
    split at hlink <;> cases hlink

namespace Session

theorem Fits.fresh {σ : Type} {k : ObjectId → Prop} {m : Movie} (h : Kept true k m) (own : σ) :
    Fits k ⟨m, { own, careful := true, past := [m] }⟩ := by
  refine ⟨h, ⟨[], rfl⟩, List.isChain_singleton _, fun n hn => ?_, fun _ n hn => ?_⟩
  · rw [List.mem_singleton.mp hn]
    exact h.arena
  · rw [List.mem_singleton.mp hn]
    exact h.sound

end Session

theorem Movie.kept_new (settings : Settings) : ∃ k, Kept true k (Movie.new settings) := by
  have hfirst := Session.Fits.fresh (Movie.kept_first settings) ()
  have hsetup : ∀ s t, (Session.beside Unit).Edits s t (.known (· = ⟨0⟩)) (Movie.setupFrom ⟨0⟩)
      (Movie.setupFrom ⟨0⟩) fun _ _ _ => True := fun s t => .setupFrom ⟨rfl, rfl⟩
  obtain ⟨_, _, ⟨_, _, k, _, hediting⟩, _⟩ :=
    hsetup _ _ _ _ ((Session.beside Unit).start ⟨rfl, _, rfl, hfirst⟩)
  have hkept := hediting.kept
  rw [← Movie.new_eq] at hkept
  exact ⟨k, hkept⟩

namespace Session

theorem Client.fits_start {σ : Type} (settings : Settings) (own : σ) :
    ∃ k, Fits k (Client.start settings own) := by
  obtain ⟨k, hkept⟩ := Movie.kept_new settings
  exact ⟨k, .fresh hkept own⟩

theorem Client.fits_play {σ α : Type} (c : Client σ) (depth : Nat) (settings : Settings) (own : σ)
    (main : Program σ α) : ∃ k, Fits k (c.play depth settings own main) := by
  obtain ⟨k, hstart⟩ := Client.fits_start settings own
  obtain ⟨k', hplay, _⟩ := main.run_fits (c.respects depth) false hstart
  exact ⟨k', hplay⟩

theorem Client.reached_play {σ α : Type} (c : Client σ) (depth : Nat) (settings : Settings)
    (own : σ) (main : Program σ α) : Reached (c.play depth settings own main).movie := by
  obtain ⟨k, hfits⟩ := c.fits_play depth settings own main
  obtain ⟨older, hlatest⟩ := hfits.history.latest
  exact ⟨σ, α, c, depth, settings, own, main, by rw [hlatest]; exact List.mem_cons_self⟩

theorem Reached.arena {m : Movie} (h : Reached m) : m.heap.Arena := by
  obtain ⟨σ, α, c, depth, settings, own, main, hm⟩ := h
  obtain ⟨k, hfits⟩ := c.fits_play depth settings own main
  exact hfits.history.arenas m hm

end Session

end ActionScript
