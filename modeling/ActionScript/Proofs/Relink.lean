import ActionScript.Proofs.Nearest
import ActionScript.Proofs.Reuse

/-! # Changes of prototype links

An object is linked to another one unless that closes a cycle, which it does exactly if the object
stands on the chain of the other. Nothing else changes, and a write under the key of the link does
the same (`Movie.setPrototype_exact`). -/

namespace ActionScript

namespace Heap

variable {h : Heap} {o p : ObjectId}

/-- The heap with another prototype link of an object. -/
def relinked (h : Heap) (o : ObjectId) (prototype : Option ObjectId) : Heap :=
  h.modify o fun x => { x with prototype }

theorem link_relinked_iff (ho : h.isLive o) {prototype : Option ObjectId} {a b : ObjectId} :
    (h.relinked o prototype).Link a b ↔ (a = o ∧ prototype = some b) ∨ (a ≠ o ∧ h.Link a b) := by
  rw [Link, Link, prototype?, prototype?, relinked, get?_modify]
  by_cases ha : a = o
  · obtain ⟨x, hx⟩ := isLive_iff.mp ho
    simp [ha, hx]
  · simp [ha]

theorem mem_chain_iff_isPrototypeOf : o ∈ h.chain p ↔ p = o ∨ h.isPrototypeOf o p := by
  rw [isPrototypeOf, List.contains_iff_mem, chain, chainUpTo, List.mem_cons, List.tail_cons,
    eq_comm]

theorem setPrototype_of_mem_chain (hcycle : o ∈ h.chain p) :
    h.setPrototype o (some p) = (false, h) := by
  rw [setPrototype, Option.any_some, if_pos (List.contains_iff_mem.mpr hcycle)]

theorem setPrototype_of_not_mem_chain (ho : h.isLive o) (prototype : Option ObjectId)
    (hclear : ∀ p, prototype = some p → o ∉ h.chain p) :
    h.setPrototype o prototype = (true, h.relinked o prototype) := by
  rw [setPrototype, ho, relinked, if_neg]
  intro hany
  obtain ⟨p, hp, hcycle⟩ := (Option.any_eq_true _ _).mp hany
  exact hclear p hp (List.contains_iff_mem.mp hcycle)

/-- What leads up to an object still does when the object is relinked. -/
theorem reflTransGen_relinked (ho : h.isLive o) (prototype : Option ObjectId)
    (hpath : Relation.ReflTransGen h.Link p o) :
    Relation.ReflTransGen (h.relinked o prototype).Link p o := by
  induction hpath using Relation.ReflTransGen.head_induction_on with
  | refl => exact .refl
  | @head a b hlink _ ih =>
    -- A path that meets the object before its end is cut there.
    by_cases ha : a = o
    · rw [ha]
    · exact .head ((link_relinked_iff ho).mpr (.inr ⟨ha, hlink⟩)) ih

/-- A link closes a cycle exactly if the object stands on the chain of its new prototype. -/
theorem Acyclic.relinked_iff (hac : h.Acyclic) (ho : h.isLive o) :
    (h.relinked o (some p)).Acyclic ↔ o ∉ h.chain p := by
  constructor
  · intro hac' hcycle
    have hback := reflTransGen_relinked ho (some p) (reflTransGen_of_mem_chain hcycle)
    exact hac' o (.head' ((link_relinked_iff ho).mpr (.inl ⟨rfl, rfl⟩)) hback)
  · intro hclear
    have hset : h.setPrototype o (some p) = (true, h.relinked o (some p)) := by
      refine setPrototype_of_not_mem_chain ho (some p) fun q hq => ?_
      cases hq
      exact hclear
    have hac' := hac.setPrototype (o := o) (some p)
    rwa [hset] at hac'

end Heap

namespace Movie

/-- The movies differ by the prototype link of one object, if at all. -/
structure Relinked (m m' : Movie) (o : ObjectId) (prototype : Option ObjectId) : Prop where
  registries : m' = { m with heap := m'.heap }
  free : m'.heap.free = m.heap.free
  object : ∀ {x}, m.heap.get? o = some x → m'.heap.get? o = some { x with prototype }
  others : ∀ {q}, q ≠ o → m'.heap.get? q = m.heap.get? q

variable {m : Movie} {o : ObjectId}

theorem relinked (m : Movie) (o : ObjectId) (prototype : Option ObjectId) :
    m.Relinked { m with heap := m.heap.relinked o prototype } o prototype where
  registries := rfl
  free := rfl
  object hx := by
    show (m.heap.modify o _).get? o = _
    rw [Heap.get?_modify, if_pos rfl, hx]
    rfl
  others hq := (m.heap.get?_modify o _ _).trans (if_neg hq)

theorem setPrototype_apply (o : ObjectId) (prototype : Option ObjectId) (m : Movie) :
    setPrototype o prototype m =
      ((m.heap.setPrototype o prototype).1,
        { m with heap := (m.heap.setPrototype o prototype).2 }) := rfl

/-- A live object is linked exactly as asked or not at all. -/
theorem setPrototype_cases (ho : m.heap.isLive o) (prototype : Option ObjectId) :
    setPrototype o prototype m = (false, m) ∧ (∃ p, prototype = some p ∧ o ∈ m.heap.chain p) ∨
    (setPrototype o prototype m).1 = true ∧ (∀ p, prototype = some p → o ∉ m.heap.chain p) ∧
      m.Relinked (setPrototype o prototype m).2 o prototype := by
  by_cases hcycle : ∃ p, prototype = some p ∧ o ∈ m.heap.chain p
  · obtain ⟨p, rfl, hcycle⟩ := hcycle
    rw [setPrototype_apply, Heap.setPrototype_of_mem_chain hcycle]
    exact .inl ⟨rfl, p, rfl, hcycle⟩
  · have hclear : ∀ p, prototype = some p → o ∉ m.heap.chain p :=
      fun p hp hmem => hcycle ⟨p, hp, hmem⟩
    rw [setPrototype_apply, Heap.setPrototype_of_not_mem_chain ho prototype hclear]
    exact .inr ⟨rfl, hclear, m.relinked o prototype⟩

end Movie

/-- A write under the key of the link relinks, whatever the machine is that runs it. -/
theorem Machine.write_link {σ : Type} [Journal σ] (machine : Machine σ) {s : State σ}
    {o : ObjectId} {name : String} (hkey : s.movie.normalize name = Heap.protoKey)
    (hslot : s.movie.heap.slot? o Heap.protoKey = none) (v : Value) :
    machine.write o name v s =
      (.ok (), (s.looked 2).after (Movie.setPrototype o v.object? s.movie).2) := by
  have hlink : Heap.protoKey = Heap.protoKey ∧
      (s.movie.heap.slot? o Heap.protoKey).isNone := ⟨rfl, by rw [hslot]; rfl⟩
  rw [write_apply, hkey, writeKey, Run.look_apply, State.movie_looked, if_pos hlink]
  rfl

namespace Movie

/-- Where no object is its own ancestor: a live object is linked to another one unless it is that
one or stands above it, which is when the link would close a cycle; then nothing changes, and else
nothing but the link does. A write under the key of the link, on an object without a stored slot of
that key, does what linking to the value does; a value that is no object unlinks. -/
theorem setPrototype_exact {m : Movie} (hac : m.heap.Acyclic) {o : ObjectId}
    (ho : m.heap.isLive o) :
    (∀ p, ((setPrototype o (some p) m).1 = false ↔ p = o ∨ m.heap.isPrototypeOf o p) ∧
      (p = o ∨ m.heap.isPrototypeOf o p ↔ ∃ k, m.heap.walk k p = some o) ∧
      (p = o ∨ m.heap.isPrototypeOf o p ↔ ¬ (m.heap.relinked o (some p)).Acyclic)) ∧
    (∀ prototype,
      ((setPrototype o prototype m).1 = false → (setPrototype o prototype m).2 = m) ∧
      ((setPrototype o prototype m).1 = true →
        m.Relinked (setPrototype o prototype m).2 o prototype)) ∧
    ∀ {σ : Type} [Journal σ] (machine : Machine σ) (e : σ) (name : String) (v : Value),
      m.normalize name = Heap.protoKey → m.heap.slot? o Heap.protoKey = none →
      machine.write o name v ⟨m, e⟩ =
        (.ok (), (State.looked ⟨m, e⟩ 2).after (setPrototype o v.object? m).2) := by
  refine ⟨fun p => ⟨?_, ?_, ?_⟩, fun prototype => ?_, ?_⟩
  · rw [← Heap.mem_chain_iff_isPrototypeOf]
    rcases setPrototype_cases ho (some p) with ⟨hset, q, hq, hcycle⟩ | ⟨hset, hclear, _⟩
    · cases hq
      simp [hset, hcycle]
    · simp [hset, hclear p rfl]
  · rw [← Heap.mem_chain_iff_isPrototypeOf, Heap.mem_chain_iff]
  · rw [← Heap.mem_chain_iff_isPrototypeOf, hac.relinked_iff ho, not_not]
  · rcases setPrototype_cases ho prototype with ⟨hset, _⟩ | ⟨hset, _, hrelinked⟩
    · simp [hset]
    · simp [hset, hrelinked]
  · intro σ _ machine e name v hkey hslot
    exact machine.write_link (s := ⟨m, e⟩) hkey hslot v

end Movie

namespace Session

/-- Creates an object, an heir of it, and an heir of that one. -/
def generations : Program Unit Unit :=
  .ask (.data .createObject) fun
    | .ok (.object eldest) => .ask (.data (.createWithPrototype (some eldest))) fun
      | .ok (.object middle) =>
        .ask (.data (.createWithPrototype (some middle))) fun _ => .done ()
      | _ => .done ()
    | _ => .done ()

/-- The movie that is left. -/
@[irreducible] def withGenerations : Movie := (Client.begetting.play 1 {} () generations).movie

def eldest : ObjectId := ⟨(Movie.new {}).heap.slots.size⟩

def youngest : ObjectId := ⟨(Movie.new {}).heap.slots.size + 2⟩

theorem acyclic_withGenerations : withGenerations.heap.Acyclic := by
  obtain ⟨k, hfits⟩ := Client.begetting.fits_play 1 {} () generations
  have hcareful : (Client.begetting.play 1 {} () generations).embedder.careful = true := by
    decide +kernel
  have hkept := hfits.kept
  rw [hcareful] at hkept
  rw [withGenerations]
  exact hkept.acyclic rfl

/-- The eldest is not linked to the youngest, and the youngest is unlinked by a write. -/
theorem setPrototype_generations :
    Movie.setPrototype eldest (some youngest) withGenerations = (false, withGenerations) ∧
    ∃ m', ((Host.bare Unit).machine 1).write youngest "__proto__" .null ⟨withGenerations, ()⟩ =
        (.ok (), ⟨m', ()⟩) ∧ withGenerations.Relinked m' youngest none := by
  have heldest := Movie.setPrototype_exact acyclic_withGenerations
    (show withGenerations.heap.isLive eldest by decide +kernel)
  have hyoungest := Movie.setPrototype_exact acyclic_withGenerations
    (show withGenerations.heap.isLive youngest by decide +kernel)
  have habove : withGenerations.heap.isPrototypeOf eldest youngest := by decide +kernel
  have hrefused := (heldest.1 youngest).1.mpr (.inr habove)
  refine ⟨Prod.ext hrefused ((heldest.2.1 _).1 hrefused), _,
    hyoungest.2.2 ((Host.bare Unit).machine 1) () "__proto__" .null (by decide +kernel)
      (by decide +kernel), (hyoungest.2.1 none).2 (by decide +kernel)⟩

end Session

end ActionScript
