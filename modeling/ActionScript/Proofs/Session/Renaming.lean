import Mathlib.Data.Set.Function
import ActionScript.Proofs.Session.Reached

/-! # Collections do not show

A collection frees slots that later objects use again, so the same calls give other handles after
it than without it. Up to these handles the answers are the same
(`Movie.collectGarbage_unobservable`). The two runs are kept side by side by a matching of their
handles that starts as the identity on what the collection keeps and grows by every pair of new
objects (`Renamed`). A slot that is used again is new in one run while its old object may still
stand unused in the other, so the matching relates live objects only. -/

namespace ActionScript

/-! ## The renaming of a matching -/

namespace Matching

variable {r : Matching} {o p : ObjectId}

/-- The handle that a handle stands for, or the handle itself if it stands for none. -/
noncomputable def image (r : Matching) (o : ObjectId) : ObjectId :=
  open Classical in if h : ∃ p, r.handle o p then h.choose else o

theorem handle_image (h : ∃ p, r.handle o p) : r.handle o (r.image o) := by
  rw [image, dif_pos h]
  exact h.choose_spec

theorem eq_image (hr : Relator.RightUnique r.handle) (h : r.handle o p) : p = r.image o :=
  hr h (handle_image ⟨p, h⟩)

theorem injOn_image (hr : Relator.LeftUnique r.handle) :
    Set.InjOn r.image { o | ∃ p, r.handle o p } := by
  intro o ho p hp heq
  have hp := handle_image hp
  rw [← heq] at hp
  exact hr (handle_image ho) hp

end Matching

/-! ## Movies that differ in their handles -/

/-- A movie that came from one with the given heap and never lost an object, and a movie with the
same objects under other handles. Handles of old objects stand for themselves. -/
structure Renamed (base : Heap) (r : Matching) (m m' : Movie) : Prop where
  alike : Movie.Alike r m m'
  spelling : ∀ {a b}, r.spelling a b → a = b
  arena : m.heap.Arena
  arena' : m'.heap.Arena
  live : ∀ {o o'}, r.handle o o' → m.heap.isLive o ∧ m'.heap.isLive o'
  kept : ∀ {o}, base.isLive o → m.heap.isLive o
  old : ∀ {o o'}, r.handle o o' → base.isLive o → o = o'

namespace Renamed

variable {base : Heap} {r : Matching} {m m' : Movie} {o o' : ObjectId}

/-- Handles of old objects are not renamed. -/
theorem image_eq (h : Renamed base r m m') (ho : base.isLive o) : r.image o = o := by
  by_cases hp : ∃ p, r.handle o p
  · exact (h.old (Matching.handle_image hp) ho).symm
  · rw [Matching.image, dif_neg hp]

theorem allocate (h : Renamed base r m m') {x x' : Object} (hx : Object.Alike r x x') :
    Renamed base (r.add (m.heap.allocate x).1 (m'.heap.allocate x').1)
      { m with heap := (m.heap.allocate x).2 } { m' with heap := (m'.heap.allocate x').2 } := by
  have hfresh : ∀ p, ¬ r.handle (m.heap.allocate x).1 p :=
    fun p hp => h.arena.not_isLive_allocate x (h.live hp).1
  have hfresh' : ∀ p, ¬ r.handle p (m'.heap.allocate x').1 :=
    fun p hp => h.arena'.not_isLive_allocate x' (h.live hp).2
  refine {
    alike := h.alike.allocate h.arena h.arena' hx hfresh hfresh'
    spelling := h.spelling
    arena := h.arena.allocate x
    arena' := h.arena'.allocate x'
    live := fun hp => ?_
    kept := fun hp => (h.arena.isLive_allocate x _).mpr (.inr (h.kept hp))
    old := fun hp hbase => ?_ }
  · rcases hp with hp | ⟨rfl, rfl⟩
    · exact ⟨(h.arena.isLive_allocate x _).mpr (.inr (h.live hp).1),
        (h.arena'.isLive_allocate x' _).mpr (.inr (h.live hp).2)⟩
    · exact ⟨(h.arena.isLive_allocate x _).mpr (.inl rfl),
        (h.arena'.isLive_allocate x' _).mpr (.inl rfl)⟩
  · rcases hp with hp | ⟨rfl, rfl⟩
    · exact h.old hp hbase
    · exact (h.arena.not_isLive_allocate x (h.kept hbase)).elim

/-- A change that keeps the heaps' slots in use. -/
theorem change (h : Renamed base r m m') {n n' : Movie} (halike : Movie.Alike r n n')
    (harena : n.heap.Arena) (harena' : n'.heap.Arena)
    (hlive : ∀ o, n.heap.isLive o = m.heap.isLive o)
    (hlive' : ∀ o, n'.heap.isLive o = m'.heap.isLive o) : Renamed base r n n' where
  alike := halike
  spelling := h.spelling
  arena := harena
  arena' := harena'
  live := fun ho => by
    rw [hlive, hlive']
    exact h.live ho
  kept := fun ho => by
    rw [hlive]
    exact h.kept ho
  old := h.old

theorem modify (h : Renamed base r m m') (ho : r.handle o o') {f f' : Object → Object}
    (hf : ∀ {x x'}, Object.Alike r x x' → Object.Alike r (f x) (f' x')) :
    Renamed base r { m with heap := m.heap.modify o f } { m' with heap := m'.heap.modify o' f' } :=
  h.change (h.alike.modify ho hf) (h.arena.modify o f) (h.arena'.modify o' f')
    (m.heap.isLive_modify o · f) (m'.heap.isLive_modify o' · f')

theorem setPrototype (h : Renamed base r m m') (ho : r.handle o o') {p p' : Option ObjectId}
    (hp : Option.Rel r.handle p p') :
    Renamed base r { m with heap := (m.heap.setPrototype o p).2 }
      { m' with heap := (m'.heap.setPrototype o' p').2 } :=
  h.change (h.alike.setPrototype ho hp).2 (h.arena.setPrototype o p) (h.arena'.setPrototype o' p')
    (m.heap.isLive_setPrototype o p) (m'.heap.isLive_setPrototype o' p')

theorem replace (h : Renamed base r m m') {n n' : Movie} (halike : Movie.Alike r n n')
    (hheap : n.heap = m.heap) (hheap' : n'.heap = m'.heap) : Renamed base r n n' :=
  h.change halike (hheap ▸ h.arena) (hheap' ▸ h.arena') (fun _ => by rw [hheap])
    fun _ => by rw [hheap']

end Renamed

/-! ## Embedders that do not tell handles apart -/

/-- When the states of an embedder in two runs stand for each other: more pairs of handles do not
part them, and neither do the records of alike movies. -/
structure Agreement (τ : Type) [Journal τ] where
  holds : Matching → τ → τ → Prop
  mono : r ≤ r' → holds r e e' → holds r' e e'
  record : Movie.Alike r m m' → holds r e e' →
    holds r (Journal.record m e) (Journal.record m' e')

variable {τ : Type} [Journal τ]

/-- Runs on movies that differ in their handles. -/
def upToHandles (base : Heap) (A : Agreement τ) : Correspondence τ where
  state r s t := Renamed base r s.movie t.movie ∧ A.holds r s.embedder t.embedder
  editing s t r m m' := Renamed base r m m' ∧ A.holds r s.embedder t.embedder
  start := id
  finish := fun h => ⟨h.1, A.record h.1.alike h.2⟩
  alike := fun h => h.1.alike
  allocate := fun h hx =>
    ⟨_, Matching.le_add _ _ _, Matching.handle_add _ _ _, h.1.allocate hx,
      A.mono (Matching.le_add _ _ _) h.2⟩
  modify := fun h ho _ _ hf => ⟨h.1.modify ho hf, h.2⟩
  setPrototype := fun h ho hp => ⟨h.1.setPrototype ho hp, h.2⟩
  replace := fun h halike _ hheap hheap' => ⟨h.1.replace halike hheap hheap', h.2⟩
  drop := fun {r s t o o' p} h ho => by
    have hdrop : Renamed base r
        { s.movie with heap := s.movie.heap.modify o (Object.dropSlots p) }
        { t.movie with heap := t.movie.heap.modify o' (Object.dropSlots p) } :=
      h.1.modify ho fun hx => { hx with properties := hx.properties.eraseWhere p }
    exact ⟨hdrop, A.record hdrop.alike h.2⟩

/-- The embedder does not tell handles apart: it answers alike data alike. -/
def Host.Indifferent (host : Host τ) (A : Agreement τ) : Prop :=
  ∀ {base m}, (upToHandles base A).Respects m → (upToHandles base A).Serves (host m)

/-! ## Sequences of calls -/

namespace Session

abbrev Answer := Except Error Reply

namespace Answer

def handles : Answer → List ObjectId := resultHandles Reply.handles

/-- The answer with other handles. -/
def rename (π : ObjectId → ObjectId) : Answer → Answer
  | .ok reply => .ok (reply.rename π)
  | .error e => .error (e.rename π)

def Alike (r : Matching) : Answer → Answer → Prop := Result.Alike r (Reply.Alike r)

variable {r r' : Matching} {x y : Answer}

theorem Alike.mono (h : r ≤ r') (hxy : Alike r x y) : Alike r' x y := by
  cases hxy with
  | ok hreply => exact .ok (hreply.mono h)
  | error he => exact .error (he.mono h)

theorem Alike.eq_rename {π : ObjectId → ObjectId} (hπ : ∀ {o p}, r.handle o p → p = π o)
    (hspelling : ∀ {a b}, r.spelling a b → a = b) (hxy : Alike r x y) : y = x.rename π := by
  cases hxy with
  | ok hreply => rw [hreply.eq_rename hπ hspelling, rename]
  | error he => rw [he.eq_rename hπ, rename]

theorem Alike.handle (hxy : Alike r x y) {o : ObjectId} (ho : o ∈ x.handles) :
    ∃ p, r.handle o p := by
  cases hxy with
  | ok hreply => exact hreply.handle ho
  | @error e _ he =>
    cases he with
    | thrown hv => exact (Reply.Alike.value hv).handle ho
    | refl hne =>
      cases e with
      | thrown v => exact (hne v rfl).elim
      | _ => cases ho

end Answer

/-- Makes calls one after the other, whether they fail or not. -/
def answers (m : Machine τ) : List DataCall → Update τ (List Answer)
  | [] => return []
  | call :: calls => do
    let answer ← (call.perform m).run
    let later ← answers m calls
    return answer :: later

/-- The calls pass in known handles and handles from the answers before them. -/
def Available (m : Machine τ) (known : ObjectId → Prop) : List DataCall → State τ → Prop
  | [], _ => True
  | call :: calls, s =>
    (∀ o ∈ call.handles, known o) ∧
      Available m (fun o => known o ∨ o ∈ Answer.handles (call.perform m s).1) calls
        (call.perform m s).2

variable {C : Correspondence τ} {m : Machine τ} {r : Matching} {s t : State τ}

/-- Calls under handles that stand for those passed in have alike answers. -/
theorem answers_alike (hm : C.Respects m) {calls : List DataCall} {known : ObjectId → Prop}
    (hs : C.state r s t) (hknown : ∀ {o}, known o → ∃ p, r.handle o p)
    (hcalls : Available m known calls s) :
    ∃ r', r ≤ r' ∧ (∃ s' t', C.state r' s' t') ∧
      ∀ π : ObjectId → ObjectId, (∀ {o p}, r'.handle o p → p = π o) →
        List.Forall₂ (Answer.Alike r') (answers m calls s).1
          (answers m (calls.map (DataCall.rename π)) t).1 := by
  induction calls generalizing r s t known with
  | nil => exact ⟨r, le_refl r, ⟨s, t, hs⟩, fun π _ => .nil⟩
  | cons call calls ih =>
    obtain ⟨hhandles, hcalls⟩ := hcalls
    have himage : ∀ o ∈ call.handles, r.handle o (r.image o) :=
      fun o ho => Matching.handle_image (hknown (hhandles o ho))
    obtain ⟨r₁, hle₁, hs₁, hanswer⟩ := call.perform_runs hm himage s t hs
    have hknown₁ : ∀ {o}, known o ∨ o ∈ Answer.handles (call.perform m s).1 →
        ∃ p, r₁.handle o p := by
      rintro o (ho | ho)
      · exact (hknown ho).imp fun _ => hle₁.1
      · exact Answer.Alike.handle hanswer ho
    obtain ⟨r₂, hle₂, hs₂, hlater⟩ := ih hs₁ hknown₁ hcalls
    refine ⟨r₂, hle₁.trans hle₂, hs₂, fun π hπ => ?_⟩
    -- Whatever the renaming turns out to be, this call is renamed by what is known now.
    have hcall : call.rename π = call.rename r.image :=
      DataCall.rename_congr fun o ho => (hπ ((hle₁.trans hle₂).1 (himage o ho))).symm
    have hlater := hlater π hπ
    rw [← hcall] at hanswer hlater
    exact .cons (Answer.Alike.mono hle₂ hanswer) hlater

end Session

/-! ## Collections -/

/-- What the movie or the given handles reach. -/
def Movie.Reaches (m : Movie) (extra : List ObjectId) : ObjectId → Prop :=
  m.heap.Reaches fun o => m.Holds o ∨ o ∈ extra

theorem Movie.isLive_collectGarbage_iff {m : Movie} {extra : List ObjectId} {o : ObjectId} :
    (collectGarbage extra m).2.heap.isLive o ↔ m.Reaches extra o := by
  have hroots : (fun o => m.Holds o ∨ o ∈ extra) = (· ∈ m.roots ++ extra) := by
    funext o
    rw [List.mem_append, mem_roots_iff]
  rw [Movie.Reaches, hroots]
  exact Heap.isLive_collect_iff

/-- A closed movie and what a collection makes of it differ in no object that is reached. -/
theorem Movie.renamed_collectGarbage {m : Movie} (harena : m.heap.Arena) (hclosed : m.Closed)
    (extra : List ObjectId) :
    Renamed m.heap (.known (m.Reaches extra)) m (collectGarbage extra m).2 where
  alike := by
    refine Movie.alike_known (fun ho => ?_) (fun ho hget hp => ?_) fun ho => ?_
    · exact .root (.inl ho) (hclosed.held ho)
    · exact .step ho hget hp (hclosed.stored hget hp)
    · exact Heap.get?_collect_of_isLive (isLive_collectGarbage_iff.mpr ho)
  spelling := id
  arena := harena
  arena' := harena.collect _
  live := by
    rintro o _ ⟨rfl, ho⟩
    exact ⟨ho.isLive, isLive_collectGarbage_iff.mpr ho⟩
  kept := id
  old := fun ho _ => ho.1

/-- Take any movie of a session whose stored handles are all live, and calls that pass in handles
of objects that are reached and handles from the answers before them. After a collection the same
calls have the same answers, under one injective renaming that moves no object of the movie. -/
theorem Movie.collectGarbage_unobservable {m : Movie} (hreached : Session.Reached m)
    (hclosed : m.Closed) (extra : List ObjectId) {host : Host τ} {A : Agreement τ}
    (hhost : host.Indifferent A) (depth : Nat) (e e' : τ)
    (he : A.holds (.known (m.Reaches extra)) e e') (calls : List Session.DataCall)
    (hcalls : Session.Available (host.machine depth) (m.Reaches extra) calls ⟨m, e⟩) :
    let before := (Session.answers (host.machine depth) calls ⟨m, e⟩).1
    let after := fun π => (Session.answers (host.machine depth)
      (calls.map (Session.DataCall.rename π)) ⟨(collectGarbage extra m).2, e'⟩).1
    ∃ π : ObjectId → ObjectId, (∀ o, m.heap.isLive o → π o = o) ∧
      Set.InjOn π { o | m.Reaches extra o ∨ ∃ answer ∈ before, o ∈ answer.handles } ∧
      after π = before.map (Session.Answer.rename π) := by
  intro before after
  have hm := Correspondence.respects_machine (C := upToHandles m.heap A) hhost depth
  have hstart : (upToHandles m.heap A).state (.known (m.Reaches extra)) ⟨m, e⟩
      ⟨(collectGarbage extra m).2, e'⟩ :=
    ⟨m.renamed_collectGarbage hreached.arena hclosed extra, he⟩
  have hknown : ∀ {o}, m.Reaches extra o → ∃ p, (Matching.known (m.Reaches extra)).handle o p :=
    fun {o} ho => ⟨o, rfl, ho⟩
  obtain ⟨r, hle, ⟨s, t, hend, _⟩, halike⟩ := Session.answers_alike hm hstart hknown hcalls
  have hunique : ∀ {o p}, r.handle o p → p = r.image o :=
    Matching.eq_image hend.alike.handles.2
  have halike := halike r.image hunique
  refine ⟨r.image, fun o ho => hend.image_eq ho, ?_, ?_⟩
  · refine (Matching.injOn_image hend.alike.handles.1).mono ?_
    rintro o (ho | ⟨answer, hanswer, ho⟩)
    · exact ⟨o, hle.1 ⟨rfl, ho⟩⟩
    · obtain ⟨_, hboth⟩ := exists_of_forall₂ halike hanswer
      exact hboth.handle ho
  · exact eq_map_of_forall₂ (halike.imp fun _ _ hxy => hxy.eq_rename hunique hend.spelling)

/-- An embedder whose functions create an object, and which refuses all else. -/
def Host.creating : Host Unit := fun _ =>
  { Host.refuse with function := fun _ _ _ => return .object (← Movie.createObject) }

/-- Embedders without state agree. -/
def Agreement.stateless : Agreement Unit where
  holds _ _ _ := True
  mono _ _ := trivial
  record _ _ := trivial

theorem Host.indifferent_creating : Host.creating.Indifferent Agreement.stateless := fun _ =>
  { Correspondence.serves_refuse with
    function := fun _ _ _ _ _ _ _ =>
      .bind (.edit fun _ _ => .createObject) fun _ ho => .pure (.object ho) }

namespace Session

/-- Makes a function its own getter, and leaves an object behind. -/
def leaveGetter : Program Unit Unit :=
  .ask (.createNative "make" (.host ⟨0⟩) none) fun
    | .ok (.object f) =>
      .ask (.data (.define f "fresh" (.accessor (some f) none {}))) fun _ =>
        .ask (.data .createObject) fun _ => .done ()
    | _ => .done ()

/-- The getter, which stands on the first slot after those of a new movie. -/
def getterHandle : ObjectId := ⟨(Movie.new {}).heap.slots.size⟩

/-- Reads a new object from the getter and looks for a method of it. -/
def readFresh : List DataCall :=
  [.read getterHandle "fresh", .has ⟨getterHandle.index + 2⟩ "toString"]

end Session

theorem Movie.collectGarbage_unobservable_readFresh :
    let m := (Session.Client.begetting.play 1 {} () Session.leaveGetter).movie
    let before := (Session.answers (Host.creating.machine 1) Session.readFresh ⟨m, ()⟩).1
    let after := fun π => (Session.answers (Host.creating.machine 1)
      (Session.readFresh.map (Session.DataCall.rename π))
      ⟨(collectGarbage [Session.getterHandle] m).2, ()⟩).1
    ∃ π : ObjectId → ObjectId, (∀ o, m.heap.isLive o → π o = o) ∧
      after π = before.map (Session.Answer.rename π) := by
  intro m before after
  obtain ⟨k, hfits⟩ := Session.Client.begetting.fits_play 1 {} () Session.leaveGetter
  have hpast : m ∈ (Session.Client.begetting.play 1 {} () Session.leaveGetter).embedder.past := by
    obtain ⟨older, hlatest⟩ := hfits.history.latest
    rw [hlatest]
    exact List.mem_cons_self
  have hclosed : m.Closed := (hfits.history.sound (by decide +kernel) m hpast).toClosed
  have hgetter : m.Reaches [Session.getterHandle] Session.getterHandle :=
    .root (.inr List.mem_cons_self) (by decide +kernel)
  have hcalls : Session.Available (Host.creating.machine 1) (m.Reaches [Session.getterHandle])
      Session.readFresh ⟨m, ()⟩ := by
    refine ⟨fun o ho => ?_, fun o ho => .inr ?_, trivial⟩
    · rw [List.mem_singleton.mp ho]
      exact hgetter
    · rw [List.mem_singleton.mp ho]
      decide +kernel
  obtain ⟨π, hfixed, _, hsame⟩ := Movie.collectGarbage_unobservable
    ⟨Unit, Unit, _, _, _, _, _, hpast⟩ hclosed [Session.getterHandle] Host.indifferent_creating 1
    () () trivial Session.readFresh hcalls
  exact ⟨π, hfixed, hsame⟩

end ActionScript
