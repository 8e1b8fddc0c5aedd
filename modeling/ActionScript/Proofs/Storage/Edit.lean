import ActionScript.Proofs.HeapEdits
import ActionScript.Proofs.Storage.History

/-! # Records beside the heap

Every edit of the heap is a run of single operations on the records of its objects
(`Storage.Shows.edit`), so a history of records goes along with whatever edits lead from one heap to
another (`Storage.Shows.extend`). Changing attributes and enumerating can be done on the records
themselves (`Storage.Shows.setFlags`, `Storage.Shows.enumerable`). -/

namespace ActionScript

namespace Heap

variable {h : Heap} {o : ObjectId} {object : Object}

/-- What a change of a live object leaves at every handle. -/
theorem get?_modify_of_some (hget : h.get? o = some object) (f : Object → Object) (p : ObjectId) :
    (h.modify o f).get? p = if p = o then some (f object) else h.get? p := by
  rw [get?_modify]
  split
  · rename_i hp
    rw [hp, hget, Option.map_some]
  · rfl

/-- A change of a stale handle leaves every object. -/
theorem get?_modify_of_none (hget : h.get? o = none) (f : Object → Object) (p : ObjectId) :
    (h.modify o f).get? p = h.get? p := by
  rw [get?_modify]
  split
  · rename_i hp
    rw [hp, hget, Option.map_none]
  · rfl

/-- Changes of slots of one object, one after the other. -/
theorem get?_modifySlots (hget : h.get? o = some object) (keys : List String)
    (f : Property → Property) (p : ObjectId) :
    (keys.foldl (fun h key => h.modifySlot o key f) h).get? p =
      if p = o then
        some { object with
          properties := keys.foldl (fun t key => t.modify key f) object.properties }
      else h.get? p := by
  induction keys generalizing h object with
  | nil =>
    split
    · rename_i hp
      rw [hp]
      exact hget
    · rfl
  | cons key keys ih =>
    have hfirst := get?_modify_of_some hget fun (x : Object) =>
      { x with properties := x.properties.modify key f }
    rw [List.foldl_cons, modifySlot, ih ((hfirst o).trans (if_pos rfl)), hfirst]
    split <;> rfl

end Heap

namespace Storage

variable {S S' : Storage} {older : List Storage} {o : ObjectId} {x y : Record} {h h' : Heap}

/-! ## Changes of one record -/

theorem put_self (hx : S o = some x) : S.put o x = S := by
  funext p
  rw [put]
  split
  · rename_i hp
    rw [hp, hx]
  · rfl

theorem put_put (S : Storage) (o : ObjectId) (x y : Record) : (S.put o x).put o y = S.put o y := by
  funext p
  simp only [put]
  split <;> rfl

theorem put_same (S : Storage) (o : ObjectId) (x : Record) : S.put o x o = some x := if_pos rfl

/-- Operations on a record, one after the other. -/
theorem steps_put (hx : S o = some x) (hsteps : x.Steps y) : S.Steps (S.put o y) := by
  induction hsteps with
  | refl =>
    rw [put_self hx]
    exact Relation.ReflTransGen.refl
  | @tail y z _ hstep ih =>
    refine .tail ih ?_
    rw [← put_put S o y z]
    exact .change (put_same S o y) hstep

theorem steps_create (hfree : S o = none) (prototype : Option ObjectId) (kind : Kind)
    (elements : List Value) :
    S.Steps (S.put o ((Record.new prototype kind).insertElements elements)) := by
  have hfilled := steps_put (put_same S o (.new prototype kind))
    (Record.steps_insertElements elements _)
  rw [put_put] at hfilled
  exact .head (.create hfree prototype kind) hfilled

/-! ## Records and objects -/

/-- The records are those of the objects of the heap. -/
def Shows (S : Storage) (h : Heap) : Prop := ∀ o, Option.Rel Record.Shows (S o) (h.get? o)

theorem shows_empty : empty.Shows {} := by
  intro o
  have hnone : Heap.get? {} o = none := by simp [Heap.get?]
  rw [hnone]
  exact .none

namespace Shows

variable {object : Object}

theorem eq_none (hS : S.Shows h) (hget : h.get? o = none) : S o = none := by
  have hrel := hS o
  rw [hget] at hrel
  cases hx : S o with
  | none => rfl
  | some x =>
    rw [hx] at hrel
    cases hrel

theorem eq_some (hS : S.Shows h) (hget : h.get? o = some object) :
    ∃ x, S o = some x ∧ x.Shows object := by
  have hrel := hS o
  rw [hget] at hrel
  cases hx : S o with
  | none =>
    rw [hx] at hrel
    cases hrel
  | some x =>
    rw [hx] at hrel
    cases hrel with
    | some hx => exact ⟨x, rfl, hx⟩

theorem exists_object (hS : S.Shows h) (hx : S o = some x) :
    ∃ object, h.get? o = some object ∧ x.Shows object := by
  have hrel := hS o
  rw [hx] at hrel
  generalize h.get? o = found at hrel ⊢
  cases hrel with
  | @some _ object hshows => exact ⟨object, rfl, hshows⟩

theorem put (hS : S.Shows h) (hy : y.Shows object)
    (hget : ∀ p, h'.get? p = if p = o then some object else h.get? p) : (S.put o y).Shows h' := by
  intro p
  rw [Storage.put, hget]
  split
  · exact .some hy
  · exact hS p

/-- A new object gets its elements one after the other. -/
theorem allocate (hS : S.Shows h) (ha : h.Arena) (prototype : Option ObjectId) (kind : Kind)
    (elements : List Value) : ∃ S', S.Steps S' ∧
      S'.Shows (h.allocate { prototype, kind, properties := Movie.elementSlots elements }).2 := by
  have hdead := ha.not_isLive_allocate
    { prototype, kind, properties := Movie.elementSlots elements }
  have hfree := hS.eq_none (Option.not_isSome_iff_eq_none.mp hdead)
  exact ⟨_, steps_create hfree prototype kind elements,
    hS.put (.elements prototype kind elements) (ha.get?_allocate _)⟩

/-- A change of a stale handle changes nothing. -/
theorem modify (hS : S.Shows h) (hcoherent : S.Coherent) (o : ObjectId) {f : Object → Object}
    (hf : Object.Change f) : ∃ S', S.Steps S' ∧ S'.Shows (h.modify o f) := by
  cases hget : h.get? o with
  | none =>
    refine ⟨S, .refl, fun p => ?_⟩
    rw [Heap.get?_modify_of_none hget]
    exact hS p
  | some object =>
    obtain ⟨x, hx, hshows⟩ := hS.eq_some hget
    obtain ⟨y, hsteps, hy⟩ := hshows.change (hcoherent o x hx) hf
    exact ⟨_, steps_put hx hsteps, hS.put hy (Heap.get?_modify_of_some hget f)⟩

theorem collect (hS : S.Shows h) (work : List ObjectId) :
    ∃ S', S.Steps S' ∧ S'.Shows (h.collect work).2 := by
  refine ⟨_, .single (.free fun o => !(h.collect work).2.isLive o), fun o => ?_⟩
  rw [release]
  cases hlive : (h.collect work).2.isLive o with
  | true =>
    rw [Heap.get?_collect_of_isLive hlive]
    exact hS o
  | false =>
    have hnone : (h.collect work).2.get? o = none :=
      Option.not_isSome_iff_eq_none.mp (Bool.eq_false_iff.mp hlive)
    rw [hnone]
    exact .none

/-! ### Operations on one record -/

/-- A change of attributes in the movie is that of the descriptors, one after the other. Without
names it goes through the list of the record. -/
theorem setFlags {m : Movie} (hS : S.Shows m.heap) (hcoherent : S.Coherent) (hx : S o = some x)
    (names : Option (List String)) (set clear : FlagByte) {keys : List String}
    (hkeys : keys = (names.map (·.map m.normalize)).getD x.order) :
    S.Steps (S.put o (x.setPropertyFlags keys set clear)) ∧
      (S.put o (x.setPropertyFlags keys set clear)).Shows
        (Movie.setFlags o names set.flags clear.flags m).2.heap := by
  obtain ⟨object, hget, hshows⟩ := hS.exists_object hx
  have hheap : (Movie.setFlags o names set.flags clear.flags m).2.heap =
      keys.foldl (fun h key => h.modifySlot o key (·.adjust set.flags clear.flags)) m.heap := by
    cases names with
    | some names =>
      rw [hkeys]
      rfl
    | none =>
      have hall : keys = ((m.heap.get? o).map fun (x : Object) => x.properties.keys).getD [] := by
        rw [hkeys, hget]
        exact hshows.order
      rw [hall]
      rfl
  rw [hheap]
  exact ⟨steps_put hx (Record.steps_setPropertyFlags keys set clear x),
    hS.put (hshows.of_holds (hshows.setPropertyFlags (hcoherent o x hx) keys set clear)
      (Record.rest_setPropertyFlags keys set clear x)) (Heap.get?_modifySlots hget keys _)⟩

/-- The keys that are enumerated are those that the list and the map of the record give. -/
theorem enumerable {m : Movie} (hS : S.Shows m.heap) (hx : S o = some x) :
    m.enumerable o = x.enumerable m.settings.caseSensitive := by
  obtain ⟨object, hget, hshows⟩ := hS.exists_object hx
  rw [Movie.enumerable, hget, hshows.enumerable m]

/-! ### Edits -/

/-- What an edit does to the heap, steps do to the records. -/
theorem edit (hS : S.Shows h) (hcoherent : S.Coherent) (ha : h.Arena) (hedit : h.Edit h') :
    ∃ S', S.Steps S' ∧ S'.Shows h' := by
  cases hedit with
  | allocate prototype kind elements => exact hS.allocate ha prototype kind elements
  | modify o hf => exact hS.modify hcoherent o hf
  | collect work => exact hS.collect work

theorem edited (hS : S.Shows h) (hcoherent : S.Coherent) (ha : h.Arena) (hedited : h.Edited h') :
    ∃ S', S.Steps S' ∧ S'.Shows h' := by
  induction hedited with
  | refl => exact ⟨S, .refl, hS⟩
  | tail hbefore hedit ih =>
    obtain ⟨S₁, hsteps₁, hS₁⟩ := ih
    have ha₁ := Heap.Edited.arena hbefore ha
    obtain ⟨S₂, hsteps₂, hS₂⟩ := hS₁.edit (hcoherent.steps hsteps₁) ha₁ hedit
    exact ⟨S₂, hsteps₁.trans hsteps₂, hS₂⟩

/-- A history of records goes along with edits of the heap. -/
theorem extend (hS : S.Shows h) (hpast : IsHistory (S :: older)) (ha : h.Arena)
    (hedited : h.Edited h') :
    ∃ S' later, IsHistory (S' :: later) ∧ S :: older <:+ later ∧ S'.Shows h' := by
  obtain ⟨S', hsteps, hS'⟩ := hS.edited hpast.coherent ha hedited
  obtain ⟨later, hlater, hsuffix⟩ := hpast.extend hsteps
  exact ⟨S', later, hlater, hsuffix, hS'⟩

end Shows

end Storage

end ActionScript
