import ActionScript.Proofs.Session.Basic

/-! # The past of a session

Nothing that a client does takes a movie out of the past: whatever its machine runs adds movies to
it, and the older ones stay (`Client.respects_since`, `suffix_of_runs`). -/

namespace ActionScript.Session

variable {σ α : Type}

/-- A session beside itself, with a past that ends in the given one. -/
def since (σ : Type) (old : List Movie) : Correspondence (Ledger σ) where
  state r s t := s = t ∧ r = .known (fun _ => True) ∧ old <:+ s.embedder.past
  editing s t r m m' :=
    s = t ∧ m = m' ∧ r = .known (fun _ => True) ∧ old <:+ s.embedder.past
  start := by
    rintro _ s _ ⟨rfl, rfl, h⟩
    exact ⟨rfl, rfl, rfl, h⟩
  finish := by
    rintro s _ _ m _ ⟨rfl, rfl, rfl, h⟩
    exact ⟨rfl, rfl, h.trans (List.suffix_cons m _)⟩
  alike := by
    rintro s _ _ m _ ⟨rfl, rfl, rfl, _⟩
    exact Movie.alike_known_all (fun _ => trivial) m
  allocate := by
    rintro s _ _ m _ x x' ⟨rfl, rfl, rfl, h⟩ hx
    have heq := hx.eq_of_known
    subst heq
    exact ⟨_, le_refl _, ⟨rfl, trivial⟩, rfl, rfl, rfl, h⟩
  modify := by
    rintro s _ _ m _ o o' f f' ⟨rfl, rfl, rfl, h⟩ ⟨rfl, _⟩ _ _ halike
    have hsame : m.heap.modify o f = m.heap.modify o f' := by
      refine Heap.modify_congr fun x hx => ?_
      have hself := (Movie.alike_known_all (fun _ => trivial) m).objects (o := o) ⟨rfl, trivial⟩
      rw [hx] at hself
      cases hself with
      | some hxx => exact (halike hxx).eq_of_known
    rw [hsame]
    exact ⟨rfl, rfl, rfl, h⟩
  setPrototype := by
    rintro s _ _ m _ o o' p p' ⟨rfl, rfl, rfl, h⟩ ⟨rfl, _⟩ hp
    have heq := optionRel_eq_of_known hp
    subst heq
    exact ⟨rfl, rfl, rfl, h⟩
  replace := by
    rintro s _ _ m _ n n' ⟨rfl, rfl, rfl, h⟩ halike _ hheap hheap'
    exact ⟨rfl, halike.eq_of_known (hheap.trans hheap'.symm), rfl, h⟩
  drop := by
    rintro _ s _ o o' p ⟨rfl, rfl, h⟩ ⟨rfl, _⟩
    exact ⟨rfl, rfl, h.trans (List.suffix_cons _ _)⟩

variable {old : List Movie} {r : Matching}

theorem updates_since {x : Update (Ledger σ) α}
    (h : ∀ s, old <:+ s.embedder.past → old <:+ (x s).2.embedder.past) :
    (since σ old).Updates r x x fun _ a b => a = b := by
  rintro s _ ⟨rfl, rfl, hs⟩
  exact ⟨_, le_refl _, ⟨rfl, rfl, h s hs⟩, rfl⟩

theorem runs_since {x : Run (Ledger σ) α}
    (h : ∀ s, old <:+ s.embedder.past → old <:+ (x s).2.embedder.past) :
    (since σ old).Runs r x x fun _ a b => a = b := by
  rintro s _ ⟨rfl, rfl, hs⟩
  refine ⟨_, le_refl _, ⟨rfl, rfl, h s hs⟩, ?_⟩
  cases (x s).1 with
  | ok a => exact .ok rfl
  | error e => exact .error (error_known fun _ _ => ⟨rfl, trivial⟩)

/-- Where runs correspond, all handles stand for themselves. -/
theorem runs_of_all {β : Type} {x : Run (Ledger σ) α} {y : Run (Ledger σ) β}
    {post : Matching → α → β → Prop}
    (h : r = .known (fun _ => True) → (since σ old).Runs r x y post) :
    (since σ old).Runs r x y post := by
  intro s t hs
  exact h hs.2.1 s t hs

variable {m : Machine (Ledger σ)} (hm : (since σ old).Respects m)
include hm

theorem Call.perform_since (call : Call) {s : State (Ledger σ)} (h : old <:+ s.embedder.past) :
    old <:+ (call.perform m s).2.embedder.past := by
  by_cases hlocal : call.isLocal
  · have hruns := Call.perform_runs hm hlocal (r := .known fun _ => True) fun _ _ => ⟨rfl, trivial⟩
    obtain ⟨_, _, ⟨_, _, hpast⟩, _⟩ := hruns s s ⟨rfl, rfl, h⟩
    exact hpast
  · cases call with
    | createActions => exact h.trans (List.suffix_cons _ _)
    | collect => exact h.trans (List.suffix_cons _ _)
    | _ => exact (hlocal rfl).elim

theorem Program.run_since (program : Program σ α) (inside : Bool) {s : State (Ledger σ)}
    (h : old <:+ s.embedder.past) : old <:+ (program.run m inside s).2.embedder.past := by
  induction program generalizing s with
  | done a => exact h
  | look next ih => exact ih s.movie s.embedder.own h
  | keep own next ih => exact ih h
  | ask call next ih => exact ih _ (Call.perform_since hm call h)

theorem Program.answer_since (program : Program σ (Except Error α)) (handles : α → List ObjectId)
    {s : State (Ledger σ)} (h : old <:+ s.embedder.past) :
    old <:+ (program.answer m handles s).2.embedder.past :=
  program.run_since hm true h

theorem Program.answer_runs_since (program : Program σ (Except Error Value)) :
    (since σ old).Runs (.known fun _ => True) (program.answer m Value.handles)
      (program.answer m Value.handles) Value.Alike := by
  refine (runs_since fun s hs => program.answer_since hm _ hs).imp fun hle hv => ?_
  subst hv
  exact value_known fun _ _ => hle.1 ⟨rfl, trivial⟩

/-- The services of a client add to the past. -/
theorem Client.serves_since (c : Client σ) : (since σ old).Serves (c.host m) where
  function := by
    intro r f this this' args args' hthis hargs
    refine runs_of_all fun hr => ?_
    subst hr
    rw [← hthis.eq_of_known, ← values_eq_of_known hargs]
    exact Program.answer_runs_since hm _
  initializeClass := by
    intro r cls state state' hstate
    refine runs_of_all fun hr => ?_
    subst hr
    rw [← hstate.1]
    exact (runs_since fun s hs => Program.answer_since hm _ _ hs).imp fun _ _ => trivial
  notify := by
    rintro r observer key s _ ⟨rfl, rfl, hs⟩
    exact ⟨_, le_refl _, ⟨rfl, rfl, Program.run_since hm _ _ hs⟩, trivial⟩
  executeActions := by
    intro r executor actions scope scope' hscope
    refine runs_of_all fun hr => ?_
    subst hr
    rw [← hscope.1]
    exact Program.answer_runs_since hm _
  executeFunction := by
    intro r executor f f' actions scope this this' args args' hf hthis hargs
    refine runs_of_all fun hr => ?_
    subst hr
    rw [← hf.1, ← hthis.eq_of_known, ← values_eq_of_known hargs]
    exact Program.answer_runs_since hm _
  resolveTarget := by
    rintro r executor target target' htarget s _ ⟨rfl, rfl, hs⟩
    rw [← htarget.eq_of_known]
    refine ⟨_, le_refl _, ⟨rfl, rfl, Program.run_since hm _ true hs⟩, ?_⟩
    cases ((c.host m).resolveTarget executor target s).1 with
    | none => exact .none
    | some o => exact .some ⟨rfl, trivial⟩
  checkTimeout := by
    intro r executor
    exact (runs_since fun s hs => Program.answer_since hm _ _ hs).imp fun _ _ => trivial
  now := updates_since fun s hs => Program.run_since hm _ true hs

omit hm in
/-- A run that corresponds to itself since any past adds to the past. -/
theorem suffix_of_runs {x : Run (Ledger σ) α} {post : Matching → α → α → Prop}
    (h : ∀ old, (since σ old).Runs (.known fun _ => True) x x post) (s : State (Ledger σ)) :
    s.embedder.past <:+ (x s).2.embedder.past := by
  obtain ⟨_, _, ⟨_, _, hpast⟩, _⟩ := h s.embedder.past s s ⟨rfl, rfl, List.suffix_refl _⟩
  exact hpast

omit hm in
theorem Client.respects_since (c : Client σ) (depth : Nat) :
    (since σ old).Respects (c.host.machine depth) :=
  Correspondence.respects_machine (fun hm => c.serves_since hm) depth

end ActionScript.Session
