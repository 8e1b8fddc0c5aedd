import ActionScript.Heap.Lemmas
import ActionScript.Proofs.Collection

/-! # The slots of a heap

The free list of a heap names its empty slots, each once. A new object then gets a handle that no
live object has, and every other handle shows what it showed before. -/

namespace ActionScript.Heap

/-- The free list names exactly the empty slots, each once. -/
structure Arena (h : Heap) : Prop where
  nodup : h.free.Nodup
  mem_free_iff : ∀ {i}, i ∈ h.free ↔ i < h.slots.size ∧ ¬ h.isLive ⟨i⟩

theorem Arena.empty : Arena {} where
  nodup := List.nodup_nil
  mem_free_iff := by simp

variable {h : Heap}

/-! ## Allocation -/

/-- The next handle is that of an empty slot, or the first one beyond the slots. -/
theorem Arena.not_isLive_allocate (ha : h.Arena) (object : Object) :
    ¬ h.isLive (h.allocate object).1 := by
  obtain ⟨slots, free⟩ := h
  cases free with
  | nil =>
    intro hlive
    exact absurd (index_lt_of_isLive hlive) (Nat.lt_irrefl _)
  | cons i free => exact (ha.mem_free_iff.mp List.mem_cons_self).2

theorem get?_allocate (h : Heap) (object : Object) (o : ObjectId) :
    (h.allocate object).2.get? o =
      if o = (h.allocate object).1 ∧ o.index < (h.allocate object).2.slots.size then some object
      else h.get? o := by
  obtain ⟨slots, free⟩ := h
  obtain ⟨j⟩ := o
  cases free with
  | nil =>
    simp only [allocate, get?, ObjectId.mk.injEq, Array.getElem?_push, Array.size_push]
    by_cases hj : j = slots.size <;> simp [hj]
  | cons i free =>
    simp only [allocate, get?, ObjectId.mk.injEq, Array.getElem?_setIfInBounds,
      Array.size_setIfInBounds]
    by_cases hj : i = j
    · subst hj
      by_cases hi : i < slots.size <;> simp [hi]
    · simp [hj, Ne.symm hj]

theorem isLive_allocate_of_isLive {o : ObjectId} (hlive : h.isLive o) (object : Object) :
    (h.allocate object).2.isLive o := by
  rw [isLive, get?_allocate]
  split
  · rfl
  · exact hlive

/-- The handle of a new object depends on the number of slots and the free ones only. -/
theorem allocate_congr {h h' : Heap} (hsize : h.slots.size = h'.slots.size)
    (hfree : h.free = h'.free) (object object' : Object) :
    (h.allocate object).1 = (h'.allocate object').1 ∧
      (h.allocate object).2.slots.size = (h'.allocate object').2.slots.size ∧
      (h.allocate object).2.free = (h'.allocate object').2.free := by
  obtain ⟨slots, free⟩ := h
  obtain ⟨slots', free'⟩ := h'
  dsimp only at hsize hfree
  subst hfree
  cases free <;> simp [allocate, hsize]

theorem Arena.index_allocate_lt (ha : h.Arena) (object : Object) :
    (h.allocate object).1.index < (h.allocate object).2.slots.size := by
  obtain ⟨slots, free⟩ := h
  cases free with
  | nil => simp [Heap.allocate]
  | cons i free =>
    have hi : i < slots.size := (ha.mem_free_iff.mp List.mem_cons_self).1
    simpa [Heap.allocate] using hi

theorem Arena.get?_allocate (ha : h.Arena) (object : Object) (o : ObjectId) :
    (h.allocate object).2.get? o =
      if o = (h.allocate object).1 then some object else h.get? o := by
  rw [Heap.get?_allocate]
  by_cases ho : o = (h.allocate object).1
  · subst ho
    rw [if_pos ⟨rfl, ha.index_allocate_lt object⟩, if_pos rfl]
  · rw [if_neg (fun h => ho h.1), if_neg ho]

theorem Arena.isLive_allocate (ha : h.Arena) (object : Object) (o : ObjectId) :
    (h.allocate object).2.isLive o ↔ o = (h.allocate object).1 ∨ h.isLive o := by
  rw [isLive, ha.get?_allocate]
  by_cases ho : o = (h.allocate object).1 <;> simp [ho, isLive]

theorem Arena.allocate (ha : h.Arena) (object : Object) : (h.allocate object).2.Arena := by
  have hlive := ha.isLive_allocate object
  obtain ⟨slots, free⟩ := h
  cases free with
  | nil =>
    refine ⟨List.nodup_nil, fun {i} => ⟨nofun, ?_⟩⟩
    rintro ⟨hlt, hdead⟩
    have hsize : i < slots.size + 1 := by simpa [Heap.allocate] using hlt
    rcases Nat.lt_succ_iff_lt_or_eq.mp hsize with hi | rfl
    · have hfree := (ha.mem_free_iff (i := i)).mpr ⟨hi, fun hl => hdead ((hlive ⟨i⟩).mpr (.inr hl))⟩
      exact nomatch hfree
    · exact (hdead ((hlive ⟨slots.size⟩).mpr (.inl rfl))).elim
  | cons i free =>
    have hnodup := List.nodup_cons.mp ha.nodup
    refine ⟨hnodup.2, fun {j} => ?_⟩
    have hj := ha.mem_free_iff (i := j)
    have hl := hlive ⟨j⟩
    simp only [Heap.allocate, List.mem_cons, ObjectId.mk.injEq, Array.size_setIfInBounds] at hj hl ⊢
    rw [hl, not_or]
    constructor
    · intro hmem
      obtain ⟨hlt, hdead⟩ := hj.mp (.inr hmem)
      exact ⟨hlt, fun heq => hnodup.1 (heq ▸ hmem), hdead⟩
    · rintro ⟨hlt, hne, hdead⟩
      exact (hj.mpr ⟨hlt, hdead⟩).resolve_left hne

/-! ## Changes of one object -/

@[simp] theorem size_modify (o : ObjectId) (f : Object → Object) :
    (h.modify o f).slots.size = h.slots.size := by
  rw [modify, Array.size_modify]

theorem Arena.modify (ha : h.Arena) (o : ObjectId) (f : Object → Object) :
    (h.modify o f).Arena where
  nodup := ha.nodup
  mem_free_iff := by
    intro i
    rw [size_modify, isLive_modify]
    exact ha.mem_free_iff

theorem modify_congr {o : ObjectId} {f g : Object → Object}
    (hfg : ∀ x, h.get? o = some x → f x = g x) :
    h.modify o f = h.modify o g := by
  obtain ⟨slots, free⟩ := h
  simp only [modify, mk.injEq, and_true]
  apply Array.ext_getElem?
  intro i
  rw [Array.getElem?_modify, Array.getElem?_modify]
  split
  · subst i
    cases hslot : slots[o.index]? with
    | none => rfl
    | some slot =>
      cases slot with
      | none => rfl
      | some x => simp [hfg x (by simp [get?, hslot])]
  · rfl

theorem isLive_setPrototype (h : Heap) (o : ObjectId) (prototype : Option ObjectId)
    (p : ObjectId) : (h.setPrototype o prototype).2.isLive p = h.isLive p := by
  rw [setPrototype]
  split
  · rfl
  · exact h.isLive_modify o p _

theorem Arena.setPrototype (ha : h.Arena) (o : ObjectId) (prototype : Option ObjectId) :
    (h.setPrototype o prototype).2.Arena := by
  rw [Heap.setPrototype]
  split
  · exact ha
  · exact ha.modify o _

/-! ## Collection -/

theorem Arena.collect (ha : h.Arena) (work : List ObjectId) : (h.collect work).2.Arena := by
  have hmem : ∀ {i}, i ∈ h.unmarked (h.marked work) ↔
      h.isLive ⟨i⟩ ∧ ¬ (h.collect work).2.isLive ⟨i⟩ := by
    intro i
    rw [mem_unmarked_iff, marked_iff_reaches, isLive_collect_iff]
  constructor
  · show ((h.unmarked (h.marked work)).reverse ++ h.free).Nodup
    refine List.nodup_append'.mpr ⟨?_, ha.nodup, ?_⟩
    · rw [List.nodup_reverse]
      exact List.nodup_range.filter _
    · intro i hfreed hfree
      exact (ha.mem_free_iff.mp hfree).2 (hmem.mp (List.mem_reverse.mp hfreed)).1
  · intro i
    show i ∈ (h.unmarked (h.marked work)).reverse ++ h.free ↔
      i < (h.sweep (h.unmarked (h.marked work))).slots.size ∧ _
    rw [List.mem_append, List.mem_reverse, hmem, ha.mem_free_iff, size_sweep]
    constructor
    · rintro (⟨hlive, hdead⟩ | ⟨hlt, hdead⟩)
      · exact ⟨index_lt_of_isLive hlive, hdead⟩
      · exact ⟨hlt, fun hl => hdead (isLive_collect_iff.mp hl).isLive⟩
    · rintro ⟨hlt, hdead⟩
      by_cases hlive : h.isLive ⟨i⟩
      · exact .inl ⟨hlive, hdead⟩
      · exact .inr ⟨hlt, hlive⟩

end ActionScript.Heap
