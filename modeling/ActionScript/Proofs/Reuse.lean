import Mathlib.Algebra.Group.Nat.Defs
import ActionScript.Proofs.Evaluation
import ActionScript.Proofs.Session.Reached

/-! # Slots that are used again

A new object takes a slot that was freed before, so a handle may come to life again. Among the
objects that are live at one time no handle stands for two (`Session.Reached.handles_unshared`).
A link to a stale handle is another matter: it closes no cycle by itself, and the objects that are
created after it close one exactly when one of them lands on the chain of its own prototype
(`Session.Reached.acyclic_iff_landsClear`). -/

namespace ActionScript

namespace Heap

variable {h : Heap} {o p : ObjectId}

/-- Allocates objects one after the other, and gives their handles in the same order. -/
def allocateAll (h : Heap) : List Object → List ObjectId × Heap
  | [] => ([], h)
  | x :: xs =>
    let rest := (h.allocate x).2.allocateAll xs
    ((h.allocate x).1 :: rest.1, rest.2)

/-! ## Handles -/

/-- The free indices are exactly those of the empty slots. -/
theorem Arena.mem_free_iff_empty (ha : h.Arena) {i : Nat} :
    i ∈ h.free ↔ h.slots[i]? = some none := by
  rw [ha.mem_free_iff, isLive, get?]
  cases hslot : h.slots[i]? with
  | none => simpa using Array.getElem?_eq_none_iff.mp hslot
  | some slot =>
    have hi : i < h.slots.size := (Array.getElem?_eq_some_iff.mp hslot).1
    cases slot <;> simp [hi]

/-- A slot is written where there is one, or added at the end. -/
theorem Arena.slots_allocate (ha : h.Arena) (x : Object) (i : Nat) :
    (h.allocate x).2.slots[i]? =
      if i = (h.allocate x).1.index then some (some x) else h.slots[i]? := by
  obtain ⟨slots, free⟩ := h
  cases free with
  | nil => by_cases hi : i = slots.size <;> simp [Heap.allocate, Array.getElem?_push, hi]
  | cons j free =>
    have hj : j < slots.size := (ha.mem_free_iff.mp List.mem_cons_self).1
    by_cases hij : i = j
    · subst hij
      simp [Heap.allocate, hj]
    · simp [Heap.allocate, hij, Ne.symm hij]

theorem Arena.index_allocate_le (ha : h.Arena) (x : Object) :
    (h.allocate x).1.index ≤ h.slots.size := by
  obtain ⟨slots, free⟩ := h
  cases free with
  | nil => exact Nat.le_refl _
  | cons i free => exact Nat.le_of_lt (ha.mem_free_iff.mp List.mem_cons_self).1

theorem Arena.allocateAll (ha : h.Arena) (xs : List Object) : (h.allocateAll xs).2.Arena := by
  induction xs generalizing h with
  | nil => exact ha
  | cons x xs ih => exact ih (ha.allocate x)

/-- Allocating several objects changes none that was there. -/
theorem Arena.get?_allocateAll (ha : h.Arena) {xs : List Object} (hp : p ∉ (h.allocateAll xs).1) :
    (h.allocateAll xs).2.get? p = h.get? p := by
  induction xs generalizing h with
  | nil => rfl
  | cons x xs ih =>
    rw [Heap.allocateAll, List.mem_cons, not_or] at hp
    rw [Heap.allocateAll, ih (ha.allocate x) hp.2, ha.get?_allocate, if_neg hp.1]

theorem Arena.not_isLive_allocateAll (ha : h.Arena) {xs : List Object}
    (ho : o ∈ (h.allocateAll xs).1) : ¬ h.isLive o := by
  induction xs generalizing h with
  | nil => exact nomatch ho
  | cons x xs ih =>
    rcases List.mem_cons.mp ho with rfl | ho
    · exact ha.not_isLive_allocate x
    · intro hlive
      exact ih (ha.allocate x) ho ((ha.isLive_allocate x o).mpr (.inr hlive))

/-- Objects that are created one after the other have different handles, and each is found under
its own. -/
theorem Arena.allocateAll_apart (ha : h.Arena) (xs : List Object) :
    (h.allocateAll xs).1.Nodup ∧
      List.Forall₂ (fun o x => (h.allocateAll xs).2.get? o = some x) (h.allocateAll xs).1 xs := by
  induction xs generalizing h with
  | nil => exact ⟨List.nodup_nil, .nil⟩
  | cons x xs ih =>
    obtain ⟨hnodup, hfound⟩ := ih (ha.allocate x)
    have hlive : (h.allocate x).2.isLive (h.allocate x).1 :=
      (ha.isLive_allocate x _).mpr (.inl rfl)
    have hnew : (h.allocate x).1 ∉ ((h.allocate x).2.allocateAll xs).1 :=
      fun hmem => (ha.allocate x).not_isLive_allocateAll hmem hlive
    refine ⟨List.nodup_cons.mpr ⟨hnew, hnodup⟩, .cons ?_ hfound⟩
    show ((h.allocate x).2.allocateAll xs).2.get? (h.allocate x).1 = some x
    rw [(ha.allocate x).get?_allocateAll hnew, ha.get?_allocate, if_pos rfl]

/-- Below `2 ^ 32` slots the low 32 bits of an index tell live objects apart. -/
theorem eq_of_isLive_of_word_eq (hsize : h.slots.size ≤ 2 ^ 32) (ho : h.isLive o)
    (hp : h.isLive p) (hword : UInt32.ofNat o.index = UInt32.ofNat p.index) : o = p := by
  have ho := index_lt_of_isLive ho
  have hp := index_lt_of_isLive hp
  have hindex : o.index = p.index := by
    have hnat := congrArg UInt32.toNat hword
    rw [UInt32.toNat_ofNat', UInt32.toNat_ofNat'] at hnat
    omega
  obtain ⟨i⟩ := o
  obtain ⟨j⟩ := p
  exact congrArg ObjectId.mk hindex

/-- The first free index is the next to be used. -/
theorem allocate_fst_of_head? {i : Nat} (hi : h.free.head? = some i) (x : Object) :
    (h.allocate x).1 = ⟨i⟩ := by
  obtain ⟨slots, free⟩ := h
  cases free with
  | nil => cases hi
  | cons j free =>
    cases hi
    rfl

theorem allocate_of_full (hfull : h.free = []) (x : Object) :
    (h.allocate x).1 = ⟨h.slots.size⟩ ∧ (h.allocate x).2.slots.size = h.slots.size + 1 := by
  obtain ⟨slots, free⟩ := h
  cases hfull
  exact ⟨rfl, Array.size_push _⟩

/-- Nothing leads to a new object as long as all references are to older ones. -/
theorem Arena.not_reaches_allocate (ha : h.Arena) {roots : ObjectId → Prop}
    (hroots : ∀ {o}, roots o → h.isLive o)
    (hstored : ∀ {o object p}, h.get? o = some object → object.Refers p → h.isLive p)
    (x : Object) : ¬ (h.allocate x).2.Reaches roots (h.allocate x).1 := by
  have hold : ∀ {o}, (h.allocate x).2.Reaches roots o → h.isLive o := by
    intro o ho
    induction ho with
    | root ho _ => exact hroots ho
    | step _ hget hrefers _ ih =>
      rw [ha.get?_allocate, if_neg] at hget
      · exact hstored hget hrefers
      · rintro rfl
        exact ha.not_isLive_allocate x ih
  exact fun hnew => ha.not_isLive_allocate x (hold hnew)

/-- A collection that frees the last slot puts it first in the free list. -/
theorem head?_free_collect {n : Nat} {work : List ObjectId} (hsize : h.slots.size = n + 1)
    (hlive : h.isLive ⟨n⟩) (hlost : ¬ h.Reaches (· ∈ work) ⟨n⟩) :
    (h.collect work).2.free.head? = some n := by
  have hfreed : n ∈ h.unmarked (h.marked work) :=
    mem_unmarked_iff.mpr ⟨hlive, fun hmark => hlost (marked_iff_reaches.mp hmark)⟩
  obtain ⟨hold, hall⟩ : ∃ older, h.unmarked (h.marked work) = older ++ [n] := by
    have hkeep := (List.mem_filter.mp hfreed).2
    rw [unmarked, hsize, List.range_succ, List.filter_append]
    refine ⟨_, congrArg _ (List.filter_cons_of_pos ?_)⟩
    exact hkeep
  show ((h.unmarked (h.marked work)).reverse ++ h.free).head? = some n
  simp [hall]

/-! ## Cycles -/

/-- The links after an allocation are the old ones and that of the new object. -/
theorem Arena.link_allocate_iff (ha : h.Arena) {x : Object} :
    (h.allocate x).2.Link o p ↔
      (o = (h.allocate x).1 ∧ x.prototype = some p) ∨ (o ≠ (h.allocate x).1 ∧ h.Link o p) := by
  rw [Link, Link, prototype?, prototype?, ha.get?_allocate]
  by_cases ho : o = (h.allocate x).1 <;> simp [ho]

/-- What lies on a chain is reached by its links. -/
theorem reflTransGen_of_mem_chain (hp : p ∈ h.chain o) : Relation.ReflTransGen h.Link o p := by
  obtain ⟨k, hwalk⟩ := mem_chain_iff.mp hp
  cases k with
  | zero =>
    cases hwalk
    exact .refl
  | succ k => exact (transGen_of_walk hwalk).to_reflTransGen

/-- A new object closes a cycle exactly when its slot stands on the chain of its prototype. The
slot was empty, but links may have named it all the same. -/
theorem Arena.acyclic_allocate_iff (ha : h.Arena) {x : Object} :
    (h.allocate x).2.Acyclic ↔
      h.Acyclic ∧ ∀ p, x.prototype = some p → (h.allocate x).1 ∉ h.chain p := by
  have hdead : ∀ {a b}, h.Link a b → a ≠ (h.allocate x).1 := by
    rintro a b hlink rfl
    exact ha.not_isLive_allocate x (isLive_of_link hlink)
  have hold : ∀ {a b}, h.Link a b → (h.allocate x).2.Link a b := fun hlink =>
    ha.link_allocate_iff.mpr (.inr ⟨hdead hlink, hlink⟩)
  constructor
  · intro hac
    refine ⟨hac.mono fun _ _ => hold, fun p hp hmem => ?_⟩
    have hback := Relation.ReflTransGen.mono (fun _ _ => hold) _ _ (reflTransGen_of_mem_chain hmem)
    exact hac p (.tail' hback (ha.link_allocate_iff.mpr (.inl ⟨rfl, hp⟩)))
  · rintro ⟨hac, hclear⟩
    cases hx : x.prototype with
    | none =>
      refine hac.mono fun a b hlink => ?_
      rcases ha.link_allocate_iff.mp hlink with ⟨_, hb⟩ | ⟨_, hlink⟩
      · rw [hx] at hb
        cases hb
      · exact hlink
    | some p =>
      refine hac.relink (o := (h.allocate x).1) (p := p) (fun a b hlink => ?_) (hclear p hx)
      rcases ha.link_allocate_iff.mp hlink with ⟨ha, hb⟩ | hlink
      · rw [hx] at hb
        exact .inl ⟨ha, (Option.some.inj hb).symm⟩
      · exact .inr hlink

/-- Of the objects that are created one after the other, none lands in a slot that stands on the
chain of its prototype at that time. -/
def LandsClear (h : Heap) : List Object → Prop
  | [] => True
  | x :: xs => (∀ p, x.prototype = some p → (h.allocate x).1 ∉ h.chain p) ∧
    (h.allocate x).2.LandsClear xs

theorem Arena.acyclic_allocateAll_iff (ha : h.Arena) {xs : List Object} :
    (h.allocateAll xs).2.Acyclic ↔ h.Acyclic ∧ h.LandsClear xs := by
  induction xs generalizing h with
  | nil => simp [Heap.allocateAll, LandsClear]
  | cons x xs ih =>
    rw [Heap.allocateAll, ih (ha.allocate x), ha.acyclic_allocate_iff, LandsClear, and_assoc]

/-- The chain of a stale handle is that handle alone. -/
theorem mem_chain_of_not_isLive (hdead : ¬ h.isLive o) : p ∈ h.chain o ↔ p = o := by
  have hproto : h.prototype? o = none := by
    rw [isLive, Bool.not_eq_true, Option.isSome_eq_false_iff, Option.isNone_iff_eq_none] at hdead
    rw [prototype?, hdead]
    rfl
  rw [chain, chainUpTo, hproto, List.mem_singleton]

/-- An object may be linked to any stale handle. -/
theorem setPrototype_of_not_isLive (hstale : ¬ h.isLive p) (ho : h.isLive o) :
    h.setPrototype o (some p) = (true, h.modify o fun x => { x with prototype := some p }) := by
  have hclear : ¬ (h.chain p).contains o := by
    rw [List.contains_iff_mem, mem_chain_of_not_isLive hstale]
    rintro rfl
    exact hstale ho
  rw [setPrototype, Option.any_some, if_neg hclear, ho]

/-- The next object is its own prototype if it is created below the handle that it gets. -/
theorem Arena.cyclic_of_self (ha : h.Arena) {x : Object} (hnext : h.free.head? = some p.index)
    (hx : x.prototype = some p) : ¬ (h.allocate x).2.Acyclic := by
  rw [ha.acyclic_allocate_iff, allocate_fst_of_head? hnext]
  rintro ⟨_, hclear⟩
  exact hclear p hx (mem_chain_iff.mpr ⟨0, rfl⟩)

/-- The next object is its own ancestor if it is created below one that was linked to the handle
that it gets. -/
theorem Arena.cyclic_of_linked (ha : h.Arena) {x : Object} (hnext : h.free.head? = some p.index)
    (hstale : ¬ h.isLive p) (ho : h.isLive o) (hx : x.prototype = some o) :
    ¬ ((h.setPrototype o (some p)).2.allocate x).2.Acyclic := by
  have hlink : (h.setPrototype o (some p)).2.Link o p := by
    obtain ⟨object, hobject⟩ := isLive_iff.mp ho
    rw [setPrototype_of_not_isLive hstale ho, Link, prototype?, get?_modify, if_pos rfl, hobject]
    rfl
  have hnext' : (h.setPrototype o (some p)).2.free.head? = some p.index := by
    rw [setPrototype_of_not_isLive hstale ho]
    exact hnext
  rw [(ha.setPrototype o (some p)).acyclic_allocate_iff, allocate_fst_of_head? hnext']
  rintro ⟨_, hclear⟩
  exact hclear o hx (mem_chain_of_link (mem_chain_iff.mpr ⟨0, rfl⟩) hlink)

end Heap

/-! ## Movies of sessions -/

/-- A stale handle whose slot is used next closes a cycle. -/
theorem Movie.cyclic_of_next {m : Movie} {stale o : ObjectId} (ha : m.heap.Arena)
    (hnext : m.heap.free.head? = some stale.index) (hstale : ¬ m.heap.isLive stale) :
    ¬ (createWithPrototype (some stale) m).2.heap.Acyclic ∧
      (m.heap.isLive o → (setPrototype o (some stale) m).1 = true ∧
        ¬ (createWithPrototype (some o) (setPrototype o (some stale) m).2).2.heap.Acyclic) :=
  ⟨ha.cyclic_of_self hnext rfl, fun ho =>
    ⟨congrArg Prod.fst (Heap.setPrototype_of_not_isLive hstale ho),
      ha.cyclic_of_linked hnext hstale ho rfl⟩⟩

/-- An object that nothing refers to is freed, and its slot is used again first if it is the
last. -/
theorem Movie.reuse_dropped {m : Movie} (ha : m.heap.Arena) (hclosed : m.Closed)
    (hfull : m.heap.free = []) :
    ¬ (collectGarbage [] (createObject m).2).2.heap.isLive (createObject m).1 ∧
      (collectGarbage [] (createObject m).2).2.heap.free.head? =
        some (createObject m).1.index := by
  obtain ⟨x, hx⟩ : ∃ x, m.heap.allocate x = ((createObject m).1, (createObject m).2.heap) :=
    ⟨_, rfl⟩
  obtain ⟨hnew, hsize⟩ := Heap.allocate_of_full hfull x
  have hlost : ¬ (m.heap.allocate x).2.Reaches (· ∈ m.roots ++ []) (m.heap.allocate x).1 :=
    ha.not_reaches_allocate (fun ho => hclosed.held (mem_roots_iff.mp (by simpa using ho)))
      hclosed.stored x
  have hlive : (m.heap.allocate x).2.isLive (m.heap.allocate x).1 :=
    (ha.isLive_allocate x _).mpr (.inl rfl)
  have hnext := Heap.head?_free_collect hsize (hnew ▸ hlive) (hnew ▸ hlost)
  rw [hx] at hlost hnew hnext
  dsimp only at hlost hnew hnext
  rw [hnew] at hlost ⊢
  exact ⟨fun hkept => hlost (Heap.isLive_collect_iff.mp hkept), hnext⟩

namespace Session

variable {m : Movie}

/-- In every movie of a session the free list names the empty slots, each once. A new object then
takes a slot that exists or is added, under a handle that no live object has, and changes no other
slot; so objects that are live at the same time have different handles, and stay apart as words of
32 bits as long as those can number the slots. -/
theorem Reached.handles_unshared (hm : Reached m) :
    m.heap.free.Nodup ∧
    (∀ i, i ∈ m.heap.free ↔ m.heap.slots[i]? = some none) ∧
    (∀ x, ¬ m.heap.isLive (m.heap.allocate x).1 ∧
      (∀ i ∈ m.heap.free.head?, i < m.heap.slots.size) ∧
      (m.heap.allocate x).2.slots[(m.heap.allocate x).1.index]? = some (some x) ∧
      (∀ i, i ≠ (m.heap.allocate x).1.index →
        (m.heap.allocate x).2.slots[i]? = m.heap.slots[i]?) ∧
      (m.heap.slots.size < 2 ^ 32 → (m.heap.allocate x).1.index < 2 ^ 32)) ∧
    (∀ xs, (m.heap.allocateAll xs).1.Nodup ∧
      List.Forall₂ (fun o x => (m.heap.allocateAll xs).2.get? o = some x)
        (m.heap.allocateAll xs).1 xs ∧
      ∀ p, m.heap.isLive p → p ∉ (m.heap.allocateAll xs).1 ∧
        (m.heap.allocateAll xs).2.get? p = m.heap.get? p) ∧
    (m.heap.slots.size ≤ 2 ^ 32 → ∀ o p, m.heap.isLive o → m.heap.isLive p →
      UInt32.ofNat o.index = UInt32.ofNat p.index → o = p) := by
  have ha := hm.arena
  refine ⟨ha.nodup, fun i => ha.mem_free_iff_empty,
    fun x => ⟨ha.not_isLive_allocate x, ?_, ?_, ?_, ?_⟩, fun xs => ?_,
    fun hsize o p => Heap.eq_of_isLive_of_word_eq hsize⟩
  · intro i hi
    exact (ha.mem_free_iff.mp (List.mem_of_mem_head? hi)).1
  · rw [ha.slots_allocate, if_pos rfl]
  · intro i hi
    rw [ha.slots_allocate, if_neg hi]
  · intro hsize
    exact Nat.lt_of_le_of_lt (ha.index_allocate_le x) hsize
  · obtain ⟨hnodup, hfound⟩ := ha.allocateAll_apart xs
    refine ⟨hnodup, hfound, fun p hp => ?_⟩
    have hnew : p ∉ (m.heap.allocateAll xs).1 := fun hmem => ha.not_isLive_allocateAll hmem hp
    exact ⟨hnew, ha.get?_allocateAll hnew⟩

/-- Creates an object, and frees it again. -/
def createAndDrop : Program Unit Unit :=
  .ask (.data .createObject) fun _ => .ask (.collect []) fun _ => .done ()

/-- The movie that is left. -/
def withEmptySlot : Movie := (Client.begetting.play 1 {} () createAndDrop).movie

/-- The handle of the object. -/
def staleHandle : ObjectId := (Movie.createObject (Movie.new {})).1

theorem movie_createAndDrop (machine : Machine (Ledger Unit)) (s : State (Ledger Unit)) :
    (createAndDrop.run machine false s).2.movie =
      (Movie.collectGarbage [] (Movie.createObject s.movie).2).2 := rfl

theorem withEmptySlot_eq :
    withEmptySlot = (Movie.collectGarbage [] (Movie.createObject (Movie.new {})).2).2 := by
  rw [withEmptySlot, Client.play, movie_createAndDrop, Client.start]

theorem reached_withEmptySlot : Reached withEmptySlot := by
  rw [withEmptySlot]
  exact Client.begetting.reached_play 1 {} () createAndDrop

theorem sound_withEmptySlot : withEmptySlot.heap.Acyclic ∧ withEmptySlot.Closed := by
  obtain ⟨k, hfits⟩ := Client.begetting.fits_play 1 {} () createAndDrop
  have hcareful : (Client.begetting.play 1 {} () createAndDrop).embedder.careful = true := by
    decide +kernel
  have hkept := hfits.kept
  rw [hcareful] at hkept
  rw [withEmptySlot]
  exact ⟨hkept.acyclic rfl, hkept.sound.toClosed⟩

theorem staleHandle_next : ¬ withEmptySlot.heap.isLive staleHandle ∧
    withEmptySlot.heap.free.head? = some staleHandle.index := by
  obtain ⟨k, hkept⟩ := Movie.kept_new {}
  have hfull : (Movie.new {}).heap.free = [] := by decide +kernel
  rw [withEmptySlot_eq, staleHandle]
  exact Movie.reuse_dropped hkept.arena hkept.sound.toClosed hfull

theorem handles_unshared_withEmptySlot :
    Reached withEmptySlot ∧ withEmptySlot.heap.free.head? = some staleHandle.index ∧
      withEmptySlot.heap.slots[staleHandle.index]? = some none :=
  ⟨reached_withEmptySlot, staleHandle_next.2,
    (reached_withEmptySlot.handles_unshared.2.1 _).mp (List.mem_of_mem_head? staleHandle_next.2)⟩

/-- Below a stale handle an object is created, or linked to it, in a movie without cycles. Creation
closes a cycle exactly when the new object has the handle itself; a link closes none. Whatever is
created after that, a cycle arises exactly when an object lands on the chain of its prototype. -/
theorem Reached.acyclic_iff_landsClear (hm : Reached m) (hac : m.heap.Acyclic) {stale : ObjectId}
    (hstale : ¬ m.heap.isLive stale) :
    ((Movie.createWithPrototype (some stale) m).2.heap.Acyclic ↔
      (Movie.createWithPrototype (some stale) m).1 ≠ stale) ∧
    (∀ o, (Movie.setPrototype o (some stale) m).2.heap.Acyclic) ∧
    (∀ {σ : Type} [Journal σ] (machine : Machine σ) (o : ObjectId),
      m.heap.slot? o Heap.protoKey = none →
      (machine.write o Heap.protoKey (.object stale)).Yields m ()
        (Movie.setPrototype o (some stale) m).2) ∧
    ∀ m', (m' = (Movie.createWithPrototype (some stale) m).2 ∨
        ∃ o, m' = (Movie.setPrototype o (some stale) m).2) →
      ∀ xs, (m'.heap.allocateAll xs).2.Acyclic ↔ m'.heap.Acyclic ∧ m'.heap.LandsClear xs := by
  have ha := hm.arena
  refine ⟨?_, fun o => hac.setPrototype (some stale), fun machine o => machine.write_proto_yields,
    fun m' hm' xs => ?_⟩
  · have hiff := ha.acyclic_allocate_iff (x := { prototype := some stale, kind := .plain })
    refine hiff.trans ⟨fun h hland => h.2 stale rfl ?_, fun hland => ⟨hac, fun p hp => ?_⟩⟩
    · exact (Heap.mem_chain_of_not_isLive hstale).mpr hland
    · cases hp
      exact fun hmem => hland ((Heap.mem_chain_of_not_isLive hstale).mp hmem)
  · have ha' : m'.heap.Arena := by
      rcases hm' with rfl | ⟨o, rfl⟩
      · exact ha.allocate _
      · exact ha.setPrototype o (some stale)
    exact ha'.acyclic_allocateAll_iff

theorem landsClear_withEmptySlot :
    Reached withEmptySlot ∧ withEmptySlot.heap.Acyclic ∧ ¬ withEmptySlot.heap.isLive staleHandle ∧
      ((Movie.createWithPrototype (some staleHandle) withEmptySlot).2.heap.Acyclic ↔
        (Movie.createWithPrototype (some staleHandle) withEmptySlot).1 ≠ staleHandle) := by
  have hac := sound_withEmptySlot.1
  exact ⟨reached_withEmptySlot, hac, staleHandle_next.1,
    (reached_withEmptySlot.acyclic_iff_landsClear hac staleHandle_next.1).1⟩

/-- An object that is created below its own stale handle is its own prototype. An object that is
linked to a stale handle is its own ancestor once one below it takes the empty slot. -/
theorem cyclic_of_staleHandle :
    Reached withEmptySlot ∧ withEmptySlot.heap.Acyclic ∧ ¬ withEmptySlot.heap.isLive staleHandle ∧
      ¬ (Movie.createWithPrototype (some staleHandle) withEmptySlot).2.heap.Acyclic ∧
      ∃ o, (Movie.setPrototype o (some staleHandle) withEmptySlot).1 = true ∧
        ¬ (Movie.createWithPrototype (some o)
          (Movie.setPrototype o (some staleHandle) withEmptySlot).2).2.heap.Acyclic := by
  obtain ⟨hac, hclosed⟩ := sound_withEmptySlot
  obtain ⟨hstale, hnext⟩ := staleHandle_next
  obtain ⟨hself, hlinked⟩ := Movie.cyclic_of_next reached_withEmptySlot.arena hnext hstale
  exact ⟨reached_withEmptySlot, hac, hstale, hself, _, hlinked (hclosed.held (.global rfl))⟩

end Session

end ActionScript
