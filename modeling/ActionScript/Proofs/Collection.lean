import ActionScript.Movie.Basic
import ActionScript.Proofs.Table

/-! # What a collection keeps

An object refers to its prototype, to the values, getters and setters of its slots and to what
their watchers hold. `Heap.Reaches` follows these references through live objects, and marking
computes exactly that: what is marked is reached (`mark_sound`), and when no handle is left to
look at, everything that is reached is marked (`mark_complete`). A collection therefore frees the
live slots that the roots do not reach and changes nothing else. -/

namespace ActionScript

/-! ## References -/

/-- The object stores the handle. -/
inductive Object.Refers (object : Object) (o : ObjectId) : Prop
  | prototype : object.prototype = some o → object.Refers o
  | value : object.properties.find? key = some p → p.value = .object o → object.Refers o
  | getter : object.properties.find? key = some p → p.getter = some o → object.Refers o
  | setter : object.properties.find? key = some p → p.setter = some o → object.Refers o
  | callback : object.properties.find? key = some p → p.watcher = some w → w.callback = o →
    object.Refers o
  | userData : object.properties.find? key = some p → p.watcher = some w →
    w.userData = .object o → object.Refers o

theorem Value.object?_eq_some_iff {v : Value} {o : ObjectId} :
    v.object? = some o ↔ v = .object o := by
  cases v <;> simp [Value.object?]

/-- What a property refers to: its value, its functions, and its watcher with its data. -/
theorem Property.mem_references_iff {p : Property} {o : ObjectId} :
    o ∈ p.references ↔ p.value = .object o ∨ p.getter = some o ∨ p.setter = some o ∨
      ∃ w, p.watcher = some w ∧ (w.callback = o ∨ w.userData = .object o) := by
  cases hw : p.watcher <;>
    simp [references, hw, Value.object?_eq_some_iff, eq_comm (a := o)]

theorem Object.mem_references_iff {object : Object} {o : ObjectId} :
    o ∈ object.references ↔ object.Refers o := by
  simp only [references, List.mem_append, Option.mem_toList, List.mem_flatMap,
    Table.mem_values_iff, Property.mem_references_iff]
  constructor
  · rintro (h | ⟨p, ⟨key, hp⟩, h | h | h | ⟨w, hw, h | h⟩⟩)
    · exact .prototype h
    · exact .value hp h
    · exact .getter hp h
    · exact .setter hp h
    · exact .callback hp hw h
    · exact .userData hp hw h
  · rintro (h | ⟨hp, h⟩ | ⟨hp, h⟩ | ⟨hp, h⟩ | ⟨hp, hw, h⟩ | ⟨hp, hw, h⟩)
    · exact .inl h
    · exact .inr ⟨_, ⟨_, hp⟩, .inl h⟩
    · exact .inr ⟨_, ⟨_, hp⟩, .inr (.inl h)⟩
    · exact .inr ⟨_, ⟨_, hp⟩, .inr (.inr (.inl h))⟩
    · exact .inr ⟨_, ⟨_, hp⟩, .inr (.inr (.inr ⟨_, hw, .inl h⟩))⟩
    · exact .inr ⟨_, ⟨_, hp⟩, .inr (.inr (.inr ⟨_, hw, .inr h⟩))⟩

/-- The movie itself holds the handle, in one of its registries or as a built-in object. -/
inductive Movie.Holds (m : Movie) (o : ObjectId) : Prop
  | intrinsic : o ∈ m.intrinsics.all → m.Holds o
  | global : m.global = o → m.Holds o
  | staticState : m.staticStates.find? key = some o → m.Holds o
  | staticClass : (m.staticStates.find? (.object o)).isSome → m.Holds o
  | initializer : (m.initializers.find? o).isSome → m.Holds o
  | symbolClass : m.assets.classes.find? symbol = some o → m.Holds o
  | pin : (m.pins.find? o).isSome → m.Holds o

theorem ClassKey.object?_eq_some_iff {key : ClassKey} {o : ObjectId} :
    key.object? = some o ↔ key = .object o := by
  cases key <;> simp [ClassKey.object?]

theorem Movie.mem_roots_iff {m : Movie} {o : ObjectId} : o ∈ m.roots ↔ m.Holds o := by
  simp only [roots, List.mem_append, List.mem_cons, Table.mem_values_iff, List.mem_filterMap,
    ← Table.isSome_find?_iff, ClassKey.object?_eq_some_iff]
  constructor
  · rintro (((((h | h | ⟨key, h⟩) | ⟨key, h, rfl⟩) | h) | ⟨symbol, h⟩) | h)
    · exact .intrinsic h
    · exact .global h.symm
    · exact .staticState h
    · exact .staticClass h
    · exact .initializer h
    · exact .symbolClass h
    · exact .pin h
  · rintro (h | h | h | h | h | h | h)
    · exact .inl (.inl (.inl (.inl (.inl h))))
    · exact .inl (.inl (.inl (.inl (.inr (.inl h.symm)))))
    · exact .inl (.inl (.inl (.inl (.inr (.inr ⟨_, h⟩)))))
    · exact .inl (.inl (.inl (.inr ⟨_, h, rfl⟩)))
    · exact .inl (.inl (.inr h))
    · exact .inl (.inr ⟨_, h⟩)
    · exact .inr h

namespace Heap

/-- A live object that the roots lead to through live objects. -/
inductive Reaches (h : Heap) (roots : ObjectId → Prop) : ObjectId → Prop
  | root : roots o → h.isLive o → Reaches h roots o
  | step : Reaches h roots p → h.get? p = some object → object.Refers o → h.isLive o →
    Reaches h roots o

variable {h : Heap} {roots : ObjectId → Prop}

theorem isLive_iff {o : ObjectId} : h.isLive o ↔ ∃ object, h.get? o = some object := by
  rw [isLive, Option.isSome_iff_exists]

theorem isLive_of_get? {o : ObjectId} {object : Object} (ho : h.get? o = some object) :
    h.isLive o := isLive_iff.mpr ⟨_, ho⟩

theorem index_lt_of_isLive {o : ObjectId} (ho : h.isLive o) : o.index < h.slots.size := by
  obtain ⟨object, ho⟩ := isLive_iff.mp ho
  by_contra hlt
  rw [get?, Array.getElem?_eq_none (Nat.le_of_not_lt hlt)] at ho
  cases ho

/-- Only live objects are reached. -/
theorem Reaches.isLive {o : ObjectId} (ho : h.Reaches roots o) : h.isLive o := by
  cases ho with
  | root _ h | step _ _ _ h => exact h

/-! ## Marking -/

theorem index_inj {o p : ObjectId} : o.index = p.index ↔ o = p := by
  cases o
  cases p
  rw [ObjectId.mk.injEq]

/-- The slot of the handle is marked. -/
def Marked (marks : Array Bool) (o : ObjectId) : Prop := marks[o.index]? = some true

theorem marked_set {marks : Array Bool} {i : Nat} (hi : i < marks.size) {o : ObjectId} :
    Marked (marks.set i true hi) o ↔ o.index = i ∨ Marked marks o := by
  rw [Marked, Marked, Array.getElem?_set]
  by_cases h : i = o.index
  · simp [h]
  · simp [h, Ne.symm h]

/-- A slot can be marked if it has not been. -/
theorem fresh_iff {marks : Array Bool} {o : ObjectId} :
    (∃ bound : o.index < marks.size, marks[o.index] = false) ↔
      o.index < marks.size ∧ ¬ Marked marks o := by
  rw [Marked]
  constructor
  · rintro ⟨hlt, hfalse⟩
    refine ⟨hlt, ?_⟩
    rw [Array.getElem?_eq_getElem hlt, hfalse]
    nofun
  · rintro ⟨hlt, hmark⟩
    rw [Array.getElem?_eq_getElem hlt, Option.some.injEq] at hmark
    exact ⟨hlt, Bool.eq_false_iff.mpr hmark⟩

theorem not_marked_replicate {n : Nat} {o : ObjectId} :
    ¬ Marked (Array.replicate n false) o := by
  intro ho
  rw [Marked, Array.getElem?_replicate] at ho
  split at ho <;> simp at ho

/-- Marking an unmarked object adds one to the marks. -/
theorem count_set_true {marks : Array Bool} {o : ObjectId} (hlt : o.index < marks.size)
    (hmark : ¬ Marked marks o) :
    (marks.set o.index true hlt).count true = marks.count true + 1 := by
  obtain ⟨_, hfalse⟩ := fresh_iff.mpr ⟨hlt, hmark⟩
  rw [Array.count_set hlt, hfalse]
  rfl

theorem mark_of_get?_eq_none {marks : Array Bool} {p : ObjectId} {work : List ObjectId}
    (hp : h.get? p = none) : h.mark marks (p :: work) = h.mark marks work := by
  rw [mark]
  simp only [hp]

/-- Marking an object puts what it refers to before the rest of the work. -/
theorem mark_of_not_marked {marks : Array Bool} {p : ObjectId} {work : List ObjectId}
    {object : Object} (hp : h.get? p = some object) (hlt : p.index < marks.size)
    (hmark : ¬ Marked marks p) :
    h.mark marks (p :: work) =
      h.mark (marks.set p.index true hlt) (object.references ++ work) := by
  rw [mark]
  simp only [hp, dif_pos (fresh_iff.mpr ⟨hlt, hmark⟩)]

theorem mark_of_marked {marks : Array Bool} {p : ObjectId} {work : List ObjectId}
    {object : Object} (hp : h.get? p = some object) (hmark : Marked marks p) :
    h.mark marks (p :: work) = h.mark marks work := by
  have stale : ¬ ∃ bound : p.index < marks.size, marks[p.index] = false :=
    fun fresh => (fresh_iff.mp fresh).2 hmark
  rw [mark]
  simp only [hp, dif_neg stale]

/-- Marks are never taken back. -/
theorem Marked.mark {marks : Array Bool} {o : ObjectId} (ho : Marked marks o)
    (work : List ObjectId) : Marked (h.mark marks work) o := by
  fun_induction Heap.mark h marks work with
  | case1 => exact ho
  | case2 _ _ _ _ ih | case4 _ _ _ _ _ _ ih => exact ih ho
  | case3 marks p work object _ fresh ih => exact ih ((marked_set fresh.1).mpr (.inr ho))

/-- A property of the handles to look at that references hand on holds of all that is marked. -/
theorem mark_sound {P : ObjectId → Prop} {marks : Array Bool} {work : List ObjectId}
    (hrefers : ∀ {p object o}, P p → h.get? p = some object → object.Refers o → h.isLive o → P o)
    (hmarks : ∀ o, Marked marks o → P o) (hwork : ∀ o ∈ work, h.isLive o → P o)
    {o : ObjectId} (ho : Marked (h.mark marks work) o) : P o := by
  fun_induction Heap.mark h marks work with
  | case1 => exact hmarks o ho
  | case2 _ _ _ _ ih | case4 _ _ _ _ _ _ ih =>
    exact ih hmarks (fun q hq => hwork q (List.mem_cons_of_mem _ hq)) ho
  | case3 marks p work object hp fresh ih =>
    have hPp : P p := hwork p List.mem_cons_self (isLive_of_get? hp)
    refine ih (fun q hq => ?_) (fun q hq hlive => ?_) ho
    · rcases (marked_set fresh.1).mp hq with heq | hq
      · exact index_inj.mp heq ▸ hPp
      · exact hmarks q hq
    · rcases List.mem_append.mp hq with hq | hq
      · exact hrefers hPp hp (Object.mem_references_iff.mp hq) hlive
      · exact hwork q (List.mem_cons_of_mem _ hq) hlive

/-- Whatever a marked object refers to is marked as well, or still to be looked at. -/
def Pending (h : Heap) (marks : Array Bool) (work : List ObjectId) : Prop :=
  ∀ {p object o}, Marked marks p → h.get? p = some object → object.Refers o → h.isLive o →
    Marked marks o ∨ o ∈ work

/-- A handle that needs no more looking at may leave the list. -/
theorem Pending.drop {marks : Array Bool} {p : ObjectId} {work : List ObjectId}
    (hpend : h.Pending marks (p :: work)) (hp : h.isLive p → Marked marks p) :
    h.Pending marks work := by
  intro q object o hq hget hrefers hlive
  rcases hpend hq hget hrefers hlive with ho | ho
  · exact .inl ho
  · rcases List.mem_cons.mp ho with rfl | ho
    · exact .inl (hp hlive)
    · exact .inr ho

theorem Pending.expand {marks : Array Bool} {p : ObjectId} {work : List ObjectId}
    {object : Object} (hpend : h.Pending marks (p :: work)) (hp : h.get? p = some object)
    (hlt : p.index < marks.size) :
    h.Pending (marks.set p.index true hlt) (object.references ++ work) := by
  intro q target o hq hget hrefers hlive
  rw [marked_set hlt] at hq ⊢
  rcases hq with heq | hq
  · rw [index_inj.mp heq, hp] at hget
    cases hget
    exact .inr (List.mem_append_left _ (Object.mem_references_iff.mpr hrefers))
  · rcases hpend hq hget hrefers hlive with ho | ho
    · exact .inl (.inr ho)
    · rcases List.mem_cons.mp ho with rfl | ho
      · exact .inl (.inl rfl)
      · exact .inr (List.mem_append_right _ ho)

/-- At the end all the work is marked, and so is what the marked objects refer to. -/
theorem mark_complete {marks : Array Bool} {work : List ObjectId}
    (hsize : marks.size = h.slots.size) (hpend : h.Pending marks work) :
    h.Pending (h.mark marks work) [] ∧
      ∀ o ∈ work, h.isLive o → Marked (h.mark marks work) o := by
  fun_induction Heap.mark h marks work with
  | case1 => exact ⟨hpend, fun o ho => nomatch ho⟩
  | case2 marks p work hp ih =>
    have hdead : ¬ h.isLive p := by simp [isLive, hp]
    obtain ⟨hclosed, hwork⟩ := ih hsize (hpend.drop fun hlive => (hdead hlive).elim)
    refine ⟨hclosed, fun o ho hlive => ?_⟩
    rcases List.mem_cons.mp ho with rfl | ho
    · exact (hdead hlive).elim
    · exact hwork o ho hlive
  | case3 marks p work object hp fresh ih =>
    obtain ⟨hclosed, hwork⟩ := ih (by rw [Array.size_set, hsize]) (hpend.expand hp fresh.1)
    refine ⟨hclosed, fun o ho hlive => ?_⟩
    rcases List.mem_cons.mp ho with rfl | ho
    · exact Marked.mark ((marked_set fresh.1).mpr (.inl rfl)) _
    · exact hwork o (List.mem_append_right _ ho) hlive
  | case4 marks p work object hp stale ih =>
    -- A live slot that cannot be marked now has been marked before.
    have hmarked : h.isLive p → Marked marks p := by
      intro hlive
      by_contra hmark
      exact stale (fresh_iff.mpr ⟨hsize ▸ index_lt_of_isLive hlive, hmark⟩)
    obtain ⟨hclosed, hwork⟩ := ih hsize (hpend.drop hmarked)
    refine ⟨hclosed, fun o ho hlive => ?_⟩
    rcases List.mem_cons.mp ho with rfl | ho
    · exact (hmarked hlive).mark _
    · exact hwork o ho hlive

/-- What is marked is exactly what is reached. -/
theorem marked_iff_reaches {work : List ObjectId} {o : ObjectId} :
    Marked (h.marked work) o ↔ h.Reaches (· ∈ work) o := by
  have hnone : ∀ o, ¬ Marked (Array.replicate h.slots.size false) o :=
    fun o => not_marked_replicate
  constructor
  · intro ho
    refine mark_sound (fun hp hget hrefers hlive => .step hp hget hrefers hlive) ?_ ?_ ho
    · exact fun o ho => (hnone o ho).elim
    · exact fun o ho hlive => .root ho hlive
  · have hpend : h.Pending (Array.replicate h.slots.size false) work :=
      fun hp => (hnone _ hp).elim
    obtain ⟨hclosed, hwork⟩ := mark_complete Array.size_replicate hpend
    intro ho
    induction ho with
    | root ho hlive => exact hwork _ ho hlive
    | step _ hget hrefers hlive ih =>
      rcases hclosed ih hget hrefers hlive with ho | ho
      · exact ho
      · cases ho

/-! ## Sweeping -/

theorem size_sweep (freed : List Nat) : (h.sweep freed).slots.size = h.slots.size := by
  rw [sweep]
  generalize h.slots = slots
  induction freed generalizing slots with
  | nil => rfl
  | cons i freed ih => rw [List.foldl_cons, ih, Array.size_setIfInBounds]

/-- A sweep empties the freed slots and leaves all others. -/
theorem get?_sweep (freed : List Nat) (o : ObjectId) :
    (h.sweep freed).get? o = if o.index ∈ freed then none else h.get? o := by
  rw [sweep, get?, get?]
  generalize h.slots = slots
  induction freed generalizing slots with
  | nil => simp
  | cons i freed ih =>
    rw [List.foldl_cons, ih, Array.getElem?_setIfInBounds]
    by_cases hmem : o.index ∈ freed
    · simp [hmem]
    · by_cases hi : i = o.index
      · subst hi
        by_cases hlt : o.index < slots.size <;> simp [hmem, hlt]
      · simp [hmem, hi, Ne.symm hi]

/-- What is swept is live and unmarked. -/
theorem mem_unmarked_iff {marks : Array Bool} {i : Nat} :
    i ∈ h.unmarked marks ↔ h.isLive ⟨i⟩ ∧ ¬ Marked marks ⟨i⟩ := by
  simp only [unmarked, List.mem_filter, List.mem_range, Bool.and_eq_true, bne_iff_ne, Marked]
  constructor
  · rintro ⟨_, hlive, hmark⟩
    exact ⟨hlive, hmark⟩
  · rintro ⟨hlive, hmark⟩
    exact ⟨index_lt_of_isLive hlive, hlive, hmark⟩

/-! ## Collection -/

/-- A collection keeps the objects that are reached, as they were, and no others. -/
theorem get?_collect (work : List ObjectId) (o : ObjectId) [Decidable (h.Reaches (· ∈ work) o)] :
    (h.collect work).2.get? o = if h.Reaches (· ∈ work) o then h.get? o else none := by
  have hfreed : o.index ∈ h.unmarked (h.marked work) ↔ h.isLive o ∧ ¬ h.Reaches (· ∈ work) o := by
    rw [mem_unmarked_iff, marked_iff_reaches]
  simp only [collect, get?_sweep, hfreed]
  by_cases hreach : h.Reaches (· ∈ work) o
  · simp [hreach]
  · simp [hreach, isLive]

theorem isLive_collect_iff {work : List ObjectId} {o : ObjectId} :
    (h.collect work).2.isLive o ↔ h.Reaches (· ∈ work) o := by
  classical
  rw [isLive, get?_collect]
  by_cases hreach : h.Reaches (· ∈ work) o
  · simpa [hreach, isLive] using hreach.isLive
  · simp [hreach]

theorem get?_collect_of_isLive {work : List ObjectId} {o : ObjectId}
    (ho : (h.collect work).2.isLive o) : (h.collect work).2.get? o = h.get? o := by
  classical
  rw [get?_collect, if_pos (isLive_collect_iff.mp ho)]

/-- The slots that a change empties, in ascending order. -/
def freedBy (h h' : Heap) : List Nat :=
  (List.range h.slots.size).filter fun i => h.isLive ⟨i⟩ && !h'.isLive ⟨i⟩

theorem freedBy_collect (work : List ObjectId) :
    h.freedBy (h.collect work).2 = h.unmarked (h.marked work) := by
  apply List.filter_congr
  intro i _
  have hmark : (h.marked work)[i]? = some true ↔ (h.collect work).2.isLive ⟨i⟩ := by
    rw [isLive_collect_iff, ← marked_iff_reaches, Marked]
  cases hlive : (h.collect work).2.isLive ⟨i⟩ <;> simp_all

end Heap

/-- A collection keeps exactly the live objects that the movie or the given handles reach, and
keeps them as they are. It frees the slots of the others in ascending order, so that the last one
is used again first, counts them, and changes nothing else in the movie. -/
theorem Movie.collectGarbage_exact (m : Movie) (extra : List ObjectId) :
    let (count, m') := (collectGarbage extra).run m
    let reached := m.heap.Reaches fun o => m.Holds o ∨ o ∈ extra
    (∀ o, m'.heap.isLive o ↔ m.heap.isLive o ∧ reached o) ∧
      (∀ o, m'.heap.isLive o → m'.heap.get? o = m.heap.get? o) ∧
      m' = { m with heap := m'.heap } ∧
      m'.heap.slots.size = m.heap.slots.size ∧
      m'.heap.free.reverse = m.heap.free.reverse ++ m.heap.freedBy m'.heap ∧
      count = (m.heap.freedBy m'.heap).length := by
  have hroots : (fun o => m.Holds o ∨ o ∈ extra) = (· ∈ m.roots ++ extra) := by
    funext o
    rw [List.mem_append, mem_roots_iff]
  have hfreed := m.heap.freedBy_collect (m.roots ++ extra)
  simp only [hroots]
  refine ⟨fun o => ?_, fun o ho => Heap.get?_collect_of_isLive ho, rfl, Heap.size_sweep _, ?_, ?_⟩
  · show (m.heap.collect (m.roots ++ extra)).2.isLive o ↔ _
    rw [Heap.isLive_collect_iff]
    exact ⟨fun ho => ⟨ho.isLive, ho⟩, And.right⟩
  · show ((m.heap.unmarked _).reverse ++ m.heap.free).reverse =
      _ ++ m.heap.freedBy (m.heap.collect (m.roots ++ extra)).2
    rw [hfreed, List.reverse_append, List.reverse_reverse]
  · show _ = (m.heap.freedBy (m.heap.collect (m.roots ++ extra)).2).length
    rw [hfreed]

end ActionScript
