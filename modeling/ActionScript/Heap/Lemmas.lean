import ActionScript.Heap.Basic

/-! # Changes seen through handles

What a change of one object shows to every handle: its own slots and nothing else. Whether a write
is accepted is up to the slot that a search finds. -/

namespace ActionScript.Heap

theorem get?_modify (h : Heap) (o p : ObjectId) (f : Object → Object) :
    (h.modify o f).get? p = if p = o then (h.get? p).map f else h.get? p := by
  obtain ⟨slots, free⟩ := h
  obtain ⟨i⟩ := o
  obtain ⟨j⟩ := p
  simp only [get?, modify, Array.getElem?_modify, ObjectId.mk.injEq]
  by_cases hij : i = j
  · subst hij
    rw [if_pos rfl, if_pos rfl]
    cases slots[i]? with
    | none => rfl
    | some slot => cases slot <;> rfl
  · rw [if_neg hij, if_neg (Ne.symm hij)]

theorem isLive_modify (h : Heap) (o p : ObjectId) (f : Object → Object) :
    (h.modify o f).isLive p = h.isLive p := by
  rw [isLive, isLive, get?_modify]
  split
  · rw [Option.isSome_map]
  · rfl

/-- A change that keeps the prototype link keeps every prototype chain. -/
theorem prototype?_modify {h : Heap} {o : ObjectId} {f : Object → Object}
    (hf : ∀ object, (f object).prototype = object.prototype) (p : ObjectId) :
    (h.modify o f).prototype? p = h.prototype? p := by
  rw [prototype?, prototype?, get?_modify]
  split
  · cases h.get? p with
    | none => rfl
    | some object => exact hf object
  · rfl

@[simp] theorem prototype?_store (h : Heap) (o p : ObjectId) (key : String) (slot : Property) :
    (h.store o key slot).prototype? p = h.prototype? p := by
  rw [store]
  apply prototype?_modify
  intro object
  rfl

@[simp] theorem prototype?_modifySlot (h : Heap) (o p : ObjectId) (key : String)
    (f : Property → Property) : (h.modifySlot o key f).prototype? p = h.prototype? p := by
  rw [modifySlot]
  apply prototype?_modify
  intro object
  rfl

@[simp] theorem prototype?_remove (h : Heap) (o p : ObjectId) (key : String) :
    (h.remove o key).prototype? p = h.prototype? p := by
  rw [remove]
  apply prototype?_modify
  intro object
  rfl

theorem slot?_store (h : Heap) (o p : ObjectId) (key key' : String) (slot : Property) :
    (h.store o key slot).slot? p key' =
      if p = o ∧ key' = key ∧ h.isLive p then some slot else h.slot? p key' := by
  rw [slot?, slot?, store, get?_modify, isLive]
  by_cases hp : p = o
  · rw [if_pos hp]
    cases h.get? p with
    | none => simp
    | some object =>
      simp only [Option.map_some, Option.bind_some, Option.isSome_some, Table.find?_insert, hp]
      simp
  · simp [hp]

theorem slot?_modifySlot (h : Heap) (o p : ObjectId) (key key' : String)
    (f : Property → Property) :
    (h.modifySlot o key f).slot? p key' =
      if p = o ∧ key' = key then (h.slot? p key').map f else h.slot? p key' := by
  rw [slot?, slot?, modifySlot, get?_modify]
  by_cases hp : p = o
  · rw [if_pos hp]
    cases h.get? p with
    | none => simp
    | some object => simp [Table.find?_modify, hp]
  · simp [hp]

theorem slot?_remove (h : Heap) (o p : ObjectId) (key key' : String) :
    (h.remove o key).slot? p key' = if p = o ∧ key' = key then none else h.slot? p key' := by
  rw [slot?, slot?, remove, get?_modify]
  by_cases hp : p = o
  · rw [if_pos hp]
    cases h.get? p with
    | none => simp
    | some object => simp [Table.find?_erase, hp]
  · simp [hp]

/-! ## What a write may do -/

/-- The walk asks the slot that the search along the chain finds. -/
theorem canPutWithin_eq (h : Heap) (key : String) (n : Nat) (o : ObjectId) :
    h.canPutWithin key n o =
      ((h.chainUpTo n o).findSome? fun owner => (h.own? owner key).map (owner, ·)).all
        fun e => e.2.isWritable := by
  induction n generalizing o with
  | zero => rfl
  | succ n ih =>
    rw [canPutWithin, chainUpTo, List.findSome?_cons]
    cases h.own? o key with
    | some p => rfl
    | none =>
      cases h.prototype? o with
      | some q => exact ih q
      | none => rfl

theorem canPut_eq (h : Heap) (o : ObjectId) (key : String) :
    h.canPut o key = (h.find? o key).all fun e => e.2.isWritable :=
  h.canPutWithin_eq key _ o

end ActionScript.Heap
