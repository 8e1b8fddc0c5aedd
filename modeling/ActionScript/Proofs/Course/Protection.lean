import ActionScript.Proofs.Course.Edit
import ActionScript.Proofs.Evaluation

/-! # Slots that are protected from deletion

An edit spares protected slots if every slot that is protected before it is protected after it
(`Edit.Spares`). A slot may get another value or watcher, a slot that is not protected may be
dropped, and a slot may be added. What a run does beside is to shorten an array, to change
attributes and to put an accessor in the place of a slot (`Movie.Strips`). Arrays stay arrays. -/

namespace ActionScript

/-- An own slot of the object is protected from deletion. -/
def Heap.isProtected (h : Heap) (o : ObjectId) (key : String) : Bool :=
  (h.slot? o key).any Property.dontDelete

/-- Only live objects protect slots. -/
theorem Heap.isLive_of_isProtected {h : Heap} {o : ObjectId} {key : String}
    (hp : h.isProtected o key) : h.isLive o := by
  rw [isProtected, slot?] at hp
  rw [isLive]
  cases hget : h.get? o with
  | none =>
    rw [hget] at hp
    cases hp
  | some object => rfl

theorem Heap.isLive_of_isArray {h : Heap} {a : ObjectId} (ha : h.isArray a) : h.isLive a := by
  obtain ⟨object, hget, _⟩ := (Option.any_eq_true _ _).mp ha
  rw [isLive, hget]
  rfl

/-- A change that keeps what an object is keeps the arrays. -/
theorem Heap.isArray_modify (h : Heap) {o : ObjectId} {f : Object → Object}
    (hf : ∀ object, (f object).kind = object.kind) (a : ObjectId) :
    (h.modify o f).isArray a = h.isArray a := by
  rw [isArray, isArray, get?_modify]
  split
  · cases h.get? a with
    | none => rfl
    | some object => rw [Option.map_some, Option.any_some, Option.any_some, Object.isArray,
        Object.isArray, hf]
  · rfl

/-- Storing a slot changes the kind of no object. -/
theorem Heap.isArray_store (h : Heap) (o : ObjectId) (key : String) (p : Property) (a : ObjectId) :
    (h.store o key p).isArray a = h.isArray a := by
  rw [store, isArray_modify]
  exact fun _ => rfl

theorem Heap.isArray_modifySlot (h : Heap) (o : ObjectId) (key : String) (f : Property → Property)
    (a : ObjectId) : (h.modifySlot o key f).isArray a = h.isArray a := by
  rw [modifySlot, isArray_modify]
  exact fun _ => rfl

namespace Movie

variable {m n k : Movie} {o : ObjectId} {key name : String} {p : Property}

/-- The change of a movie by an edit that takes the protection from no slot. -/
structure Spares (m n : Movie) : Prop extends m.Passes n where
  protects : m.InOrder → ∀ {o key}, m.heap.isProtected o key → n.heap.isProtected o key
  arrays : m.InOrder → ∀ {a}, m.heap.isArray a → n.heap.isArray a

namespace Spares

theorem refl (m : Movie) : m.Spares m := ⟨.refl m, fun _ _ _ => id, fun _ _ => id⟩

theorem trans (h : m.Spares n) (h' : n.Spares k) : m.Spares k where
  toPasses := h.toPasses.trans h'.toPasses
  protects hm _ _ hp := h'.protects (h.inOrder hm) (h.protects hm hp)
  arrays hm _ ha := h'.arrays (h.inOrder hm) (h.arrays hm ha)

/-- A passage that leaves the heap spares every slot. -/
theorem of_heap_eq (h : m.Passes n) (hheap : n.heap = m.heap) : m.Spares n :=
  ⟨h, fun _ _ _ hp => hheap ▸ hp, fun _ _ ha => hheap ▸ ha⟩

/-- A change of one object that spares its protected slots. -/
theorem modify {f : Object → Object} (hchange : Object.Change f)
    (hf : ∀ object key, m.heap.get? o = some object →
      (object.properties.find? key).any Property.dontDelete →
        ((f object).properties.find? key).any Property.dontDelete) :
    m.Spares { m with heap := m.heap.modify o f } := by
  refine ⟨Edit.Passes.modify o hchange m, fun _ o' key hp => ?_,
    fun _ a ha => (m.heap.isArray_modify hchange.kind a).trans ha⟩
  rw [Heap.isProtected, Heap.slot?] at hp ⊢
  rw [Heap.get?_modify]
  split
  · rename_i ho
    subst ho
    cases hget : m.heap.get? o' with
    | none =>
      rw [hget] at hp
      cases hp
    | some object =>
      rw [hget] at hp
      exact hf object key hget hp
  · exact hp

/-- Changing one slot in place spares every slot when it leaves the protection as it was. -/
theorem modifySlot {f : Property → Property}
    (hchange : Object.Change fun x => { x with properties := x.properties.modify key f })
    (hf : ∀ p, (f p).dontDelete = p.dontDelete) :
    m.Spares { m with heap := m.heap.modifySlot o key f } := by
  refine .modify hchange fun _ key' _ hp => ?_
  rw [Table.find?_modify]
  split
  · rw [Option.any_map]
    simpa only [hf] using hp
  · exact hp

/-- A slot is stored where none is protected. -/
theorem storeAs (hkey : m.heap.isProtected o key = false) (name : String) (p : Property) :
    m.Spares (storeAs o key name p m).2 := by
  refine .modify (.insert key _) fun _ key' hget hp => ?_
  rw [Table.find?_insert, if_neg]
  · exact hp
  · rintro rfl
    rw [Heap.isProtected, Heap.slot?_eq hget, hp] at hkey
    cases hkey

/-- A slot that is not protected is dropped. -/
theorem remove (hkey : m.heap.isProtected o key = false) :
    m.Spares { m with heap := m.heap.remove o key } := by
  refine .modify (.erase key) fun _ key' hget hp => ?_
  rw [Table.find?_erase, if_neg]
  · exact hp
  · rintro rfl
    rw [Heap.isProtected, Heap.slot?_eq hget, hp] at hkey
    cases hkey

/-- A new object takes away no slot of the others. -/
theorem allocate (m : Movie) (prototype : Option ObjectId) (kind : Kind) (elements : List Value) :
    m.Spares
      { m with
        heap := (m.heap.allocate { prototype, kind, properties := elementSlots elements }).2 } := by
  have hget : m.InOrder → ∀ {o}, m.heap.isLive o →
      (m.heap.allocate { prototype, kind, properties := elementSlots elements }).2.get? o =
        m.heap.get? o := by
    intro hm o hlive
    rw [hm.arena.get?_allocate, if_neg]
    rintro rfl
    exact hm.arena.not_isLive_allocate _ hlive
  refine ⟨Edit.Passes.allocate prototype kind elements m, fun hm o key hp => ?_, fun hm a ha => ?_⟩
  · rw [Heap.isProtected, Heap.slot?, hget hm (Heap.isLive_of_isProtected hp)]
    exact hp
  · rw [Heap.isArray, hget hm (Heap.isLive_of_isArray ha)]
    exact ha

/-- A slot of an object that is new may be defined. -/
theorem define_new (h : m.Spares n) (ho : m.heap.Arena → ¬m.heap.isLive o) (name : String)
    (p : Property) : m.Spares (define o name p n).2 := by
  have hheap : (define o name p n).2.heap =
      n.heap.store o (n.normalize name) (n.spelled name p) := rfl
  refine ⟨h.toPasses.trans (Edit.Passes.define o name p n), fun hm o' key hp => ?_,
    fun hm a ha => ?_⟩
  · have hne : o' ≠ o := by
      rintro rfl
      exact ho hm.arena (Heap.isLive_of_isProtected hp)
    rw [Heap.isProtected, hheap, Heap.slot?_store, if_neg (fun heq => hne heq.1)]
    exact h.protects hm hp
  · rw [hheap, Heap.isArray_store]
    exact h.arrays hm ha

end Spares

/-- What a run may do to protected slots beside shortening an array: attributes of slots are
changed, and an accessor is put in the place of a slot. -/
inductive Strips (m : Movie) : Movie → Prop
  | setFlags (o : ObjectId) (names : Option (List String)) (set clear : Flags) :
    Strips m (setFlags o names set clear m).2
  | addAccessor (o : ObjectId) (name : String) (getter setter : Option ObjectId) :
    Strips m (define o name (.accessor getter setter {}) m).2

/-- What may unprotect a slot is a passage all the same. -/
theorem Strips.passes (h : m.Strips n) : m.Passes n := by
  cases h with
  | setFlags o names set clear => exact Edit.Passes.setFlags o names set clear m
  | addAccessor o name getter setter => exact Edit.Passes.define o name _ m

/-- A new object has no slots. -/
theorem slot?_create (m : Movie) (prototype : Option ObjectId) (kind : Kind) (key : String) :
    (create prototype kind m).2.heap.slot? (create prototype kind m).1 key = none := by
  have hget := m.heap.get?_allocate { prototype, kind } (m.heap.allocate { prototype, kind }).1
  show ((m.heap.allocate { prototype, kind }).2.get? (m.heap.allocate { prototype, kind }).1).bind
    (fun object => object.properties.find? key) = none
  rw [hget]
  split
  · rfl
  · rename_i hsize
    have hbeyond : (m.heap.allocate { prototype, kind }).2.get?
        (m.heap.allocate { prototype, kind }).1 = none := by
      by_contra hsome
      exact hsize ⟨rfl, Heap.index_lt_of_isLive (Option.isSome_iff_ne_none.mpr hsome)⟩
    rw [hget, if_neg hsize] at hbeyond
    rw [hbeyond]
    rfl

end Movie

/-- In every movie, the edit spares protected slots. -/
def Edit.Spares {α : Type} (x : Edit α) : Prop := ∀ m : Movie, m.Spares (x m).2

namespace Edit.Spares

variable {α β : Type}

theorem pure {a : α} : Edit.Spares (pure a) := fun m => .refl m

/-- Edits that spare compose. -/
theorem bind {x : Edit α} {f : α → Edit β} (hx : x.Spares) (hf : ∀ a, (f a).Spares) :
    Edit.Spares (x >>= f) :=
  fun m => (hx m).trans (hf (x m).1 (x m).2)

theorem get {f : Movie → Edit β} (hf : ∀ m, (f m).Spares) : Edit.Spares (get >>= f) :=
  fun m => hf m m

theorem getMovie : Edit.Spares getMovie := fun m => .refl m

/-- An edit that leaves the heap alone. -/
theorem of_heap_eq {x : Edit α} (hx : x.Passes) (hheap : ∀ m, (x m).2.heap = m.heap) : x.Spares :=
  fun m => .of_heap_eq (hx m) (hheap m)

/-! ## Objects and their slots -/

theorem create (p : Option ObjectId) (kind : Kind) : Edit.Spares (Movie.create p kind) :=
  fun m => .allocate m p kind []

theorem createObject : Edit.Spares Movie.createObject := .get fun _ => .create _ _

theorem modifySlot (o : ObjectId) {key : String} {f : Property → Property}
    (hchange : Object.Change fun x => { x with properties := x.properties.modify key f })
    (hf : ∀ p, (f p).dontDelete = p.dontDelete) :
    Edit.Spares (Movie.modifyHeap (·.modifySlot o key f)) := fun _ => .modifySlot hchange hf

/-- A new link takes away no slot. -/
theorem setPrototype (o : ObjectId) (p : Option ObjectId) :
    Edit.Spares (Movie.setPrototype o p) := by
  intro m
  have hheap : (Movie.setPrototype o p m).2 = { m with heap := (m.heap.setPrototype o p).2 } := rfl
  rw [hheap, Heap.setPrototype]
  split
  · exact .refl m
  · exact .modify (.link p) fun _ _ _ => id

theorem setBlocks (o : ObjectId) (blocked colorBlocked : Bool) :
    Edit.Spares (Movie.modifyHeap (·.modify o fun x => { x with blocked, colorBlocked })) :=
  fun _ => .modify (.block blocked colorBlocked) fun _ _ _ => id

theorem setWatcher (o : ObjectId) (name : String) (w : Option Watcher) :
    Edit.Spares (Movie.setWatcher o name w) := by
  refine .get fun m => ?_
  dsimp only
  split
  · exact .pure
  · exact .bind (.modifySlot _ (.watch _ w) fun _ => rfl) fun _ => .pure

/-- Setting the length of an array spares its slots: it does not truncate. -/
theorem setLength (a : ObjectId) (n : Nat) : Edit.Spares (Movie.setLength a n) := by
  intro m
  rw [Movie.setLength_eq]
  split
  · exact .modifySlot (.assign _ _) fun _ => rfl
  · rename_i hnone
    refine .storeAs ?_ _ _
    rw [Movie.normalize_lengthKey, Heap.isProtected, Option.not_isSome_iff_eq_none.mp hnone]
    rfl

/-- A new array takes away no slot of the others. -/
theorem createArray (elements : List Value) : Edit.Spares (Movie.createArray elements) :=
  .get fun _ =>
    .bind (fun m => .allocate m _ _ elements) fun a => .bind (.setLength a _) fun _ => .pure

theorem box (v : Value) : Edit.Spares (Movie.box v) := by
  refine .get fun m => ?_
  cases v with
  | undefined | null | object o => exact .pure
  | bool b => exact .bind (.create _ _) fun _ => .pure
  | number x => exact .bind (.create _ _) fun _ => .pure
  | string s =>
    exact fun m => Movie.Spares.define_new (.allocate m _ _ [])
      (fun harena => harena.not_isLive_allocate _) _ _

/-! ## Functions -/

theorem createFunction (callable : Callable) : Edit.Spares (Movie.createFunction callable) :=
  .get fun _ => .create _ _

theorem createDate (time : Number) : Edit.Spares (Movie.createDate time) :=
  .get fun _ => .create _ _

/-- The constructor and its prototype are new. -/
theorem createConstructor (callable : Callable) :
    Edit.Spares (Movie.createConstructor callable) := by
  intro m
  have hcreated : Edit.Spares (do
      let _ ← Movie.createFunction callable
      Movie.createObject) := .bind (.createFunction callable) fun _ => .createObject
  have hprototype : m.heap.Arena →
      ¬m.heap.isLive (Movie.createObject (Movie.createFunction callable m).2).1 := by
    intro harena hlive
    have hlater : (Movie.createFunction callable m).2.heap.isLive
        (Movie.createObject (Movie.createFunction callable m).2).1 :=
      (harena.isLive_allocate _ _).mpr (.inr hlive)
    exact (harena.allocate _).not_isLive_allocate _ hlater
  exact .define_new (.define_new (hcreated m) (fun harena => harena.not_isLive_allocate _) _ _)
    hprototype _ _

/-! ## Registries -/

theorem nextRandom : Edit.Spares Movie.nextRandom := .of_heap_eq .nextRandom fun _ => rfl

theorem registerClass (name : String) (cls : ObjectId) :
    Edit.Spares (Movie.registerClass name cls) := .of_heap_eq (.registerClass name cls) fun _ => rfl

theorem pin (o : ObjectId) : Edit.Spares (Movie.pin o) := .of_heap_eq (.pin o) fun _ => rfl

theorem unpin (o : ObjectId) : Edit.Spares (Movie.unpin o) := .of_heap_eq (.unpin o) fun _ => rfl

end Edit.Spares

end ActionScript
