import ActionScript.Proofs.Alike.Movie

/-! # Changes that keep movies alike

Changing alike objects alike, linking them alike and adding alike objects keeps two movies alike.
A new pair of handles enters the matching when both are fresh. -/

namespace ActionScript

variable {r s : Matching}

/-- The matching with one more pair of handles. -/
def Matching.add (r : Matching) (o o' : ObjectId) : Matching where
  handle p p' := r.handle p p' ∨ p = o ∧ p' = o'
  spelling := r.spelling

theorem Matching.le_add (r : Matching) (o o' : ObjectId) : r ≤ r.add o o' :=
  ⟨.inl, id⟩

theorem Matching.handle_add (r : Matching) (o o' : ObjectId) : (r.add o o').handle o o' :=
  .inr ⟨rfl, rfl⟩

theorem Matching.biUnique_add {o o' : ObjectId} (hr : Relator.BiUnique r.handle)
    (ho : ∀ p, ¬ r.handle o p) (ho' : ∀ p, ¬ r.handle p o') :
    Relator.BiUnique (r.add o o').handle := by
  constructor
  · rintro a b c (hac | hac) (hbc | hbc)
    · exact hr.1 hac hbc
    · exact (ho' a (hbc.2 ▸ hac)).elim
    · exact (ho' b (hac.2 ▸ hbc)).elim
    · exact hac.1.trans hbc.1.symm
  · rintro a b c (hab | hab) (hac | hac)
    · exact hr.2 hab hac
    · exact (ho b (hac.1 ▸ hab)).elim
    · exact (ho c (hab.1 ▸ hac)).elim
    · exact hab.2.trans hac.2.symm

namespace Movie.Alike

variable {m m' : Movie} (h : Movie.Alike r m m')
include h

theorem modify {o o' : ObjectId} (ho : r.handle o o') {f f' : Object → Object}
    (hf : ∀ {x x'}, Object.Alike r x x' → Object.Alike r (f x) (f' x')) :
    Movie.Alike r { m with heap := m.heap.modify o f }
      { m' with heap := m'.heap.modify o' f' } := by
  refine { h with objects := fun {p p'} hp => ?_ }
  have hiff : p = o ↔ p' = o' := Relator.rel_eq h.handles hp ho
  simp only [Heap.get?_modify]
  by_cases hpo : p = o
  · rw [if_pos hpo, if_pos (hiff.mp hpo)]
    rcases optionRel_cases (h.objects hp) with ⟨x, x', hx, hx', halike⟩ | ⟨hnone, hnone'⟩
    · rw [hx, hx']
      exact .some (hf halike)
    · rw [hnone, hnone']
      exact .none
  · rw [if_neg hpo, if_neg (mt hiff.mpr hpo)]
    exact h.objects hp

theorem setPrototype {o o' : ObjectId} (ho : r.handle o o') {p p' : Option ObjectId}
    (hp : Option.Rel r.handle p p') :
    (m.heap.setPrototype o p).1 = (m'.heap.setPrototype o' p').1 ∧
      Movie.Alike r { m with heap := (m.heap.setPrototype o p).2 }
        { m' with heap := (m'.heap.setPrototype o' p').2 } := by
  have hcycle : (p.any fun q => (m.heap.chain q).contains o) =
      p'.any fun q => (m'.heap.chain q).contains o' := by
    cases hp with
    | some hq =>
      rw [Option.any_some, Option.any_some, Bool.eq_iff_iff, List.contains_iff_mem,
        List.contains_iff_mem, h.mem_chain_iff hq ho]
    | none => rfl
  rw [Heap.setPrototype, Heap.setPrototype, hcycle]
  split
  · exact ⟨rfl, h⟩
  · exact ⟨h.isLive ho, h.modify ho fun hx => { hx with prototype := hp }⟩

theorem allocate (ha : m.heap.Arena) (ha' : m'.heap.Arena) {x x' : Object}
    (hx : Object.Alike r x x') (hfresh : ∀ p, ¬ r.handle (m.heap.allocate x).1 p)
    (hfresh' : ∀ p, ¬ r.handle p (m'.heap.allocate x').1) :
    Movie.Alike (r.add (m.heap.allocate x).1 (m'.heap.allocate x').1)
      { m with heap := (m.heap.allocate x).2 } { m' with heap := (m'.heap.allocate x').2 } := by
  have hle := r.le_add (m.heap.allocate x).1 (m'.heap.allocate x').1
  refine {
    h with
    handles := Matching.biUnique_add h.handles hfresh hfresh'
    intrinsics := h.intrinsics.imp fun _ _ => hle.1
    global := hle.1 h.global
    staticStates := h.staticStates.mono (ClassKey.Alike.mono hle) hle.1
    initializers := h.initializers.mono hle.1 id
    classes := h.classes.mono id hle.1
    pins := h.pins.mono hle.1 id
    objects := fun {p p'} hp => ?_ }
  simp only [ha.get?_allocate, ha'.get?_allocate]
  rcases hp with hp | ⟨rfl, rfl⟩
  · have hne : p ≠ (m.heap.allocate x).1 := fun heq => hfresh p' (heq ▸ hp)
    have hne' : p' ≠ (m'.heap.allocate x').1 := fun heq => hfresh' p (heq ▸ hp)
    rw [if_neg hne, if_neg hne']
    exact optionRel_mono (Object.Alike.mono hle) (h.objects hp)
  · rw [if_pos rfl, if_pos rfl]
    exact .some (hx.mono hle)

end Movie.Alike

end ActionScript
