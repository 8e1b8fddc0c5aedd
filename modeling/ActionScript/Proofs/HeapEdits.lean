import Mathlib.Logic.Relation
import ActionScript.Movie.Arrays
import ActionScript.Proofs.Arena

/-! # Edits of the heap

Whatever a machine runs, it changes the heap by a few kinds of edits: an object is created, one
slot of an object or a range of its elements is changed in one of the ways that there are, or
objects are collected (`Heap.Edit`). -/

namespace ActionScript

/-- The ways in which an object is changed. -/
inductive Object.Change : (Object → Object) → Prop
  | insert (key : String) (p : Property) :
    Change fun x => { x with properties := x.properties.insert key p }
  | assign (key : String) (value : Value) :
    Change fun x => { x with properties := x.properties.modify key fun p => { p with value } }
  | watch (key : String) (watcher : Option Watcher) :
    Change fun x => { x with properties := x.properties.modify key fun p => { p with watcher } }
  | adjust (key : String) (set clear : Flags) :
    Change fun x => { x with properties := x.properties.modify key (·.adjust set clear) }
  | erase (key : String) : Change fun x => { x with properties := x.properties.erase key }
  /-- The elements of an array from a length on are dropped. -/
  | truncate (n : Number) : Change fun x =>
    { x with
      properties := x.properties.eraseWhere fun key =>
        (arrayIndex? key).any fun i => Number.le n (.ofNat i) }
  | link (prototype : Option ObjectId) : Change fun x => { x with prototype }
  | block (blocked colorBlocked : Bool) : Change fun x => { x with blocked, colorBlocked }

theorem Object.Change.kind {f : Object → Object} (h : Object.Change f) (x : Object) :
    (f x).kind = x.kind := by
  cases h <;> rfl

namespace Heap

/-- A single edit of the heap. -/
inductive Edit (h : Heap) : Heap → Prop
  | allocate (prototype : Option ObjectId) (kind : Kind) (elements : List Value) :
    Edit h (h.allocate { prototype, kind, properties := Movie.elementSlots elements }).2
  | modify (o : ObjectId) {f : Object → Object} (hf : Object.Change f) : Edit h (h.modify o f)
  | collect (work : List ObjectId) : Edit h (h.collect work).2

/-- One heap comes from another by edits. -/
def Edited : Heap → Heap → Prop := Relation.ReflTransGen Edit

variable {h h' : Heap}

theorem Edit.arena (hedit : h.Edit h') (ha : h.Arena) : h'.Arena := by
  cases hedit with
  | allocate prototype kind elements => exact ha.allocate _
  | modify o _ => exact ha.modify o _
  | collect work => exact ha.collect work

theorem Edited.arena (hedited : h.Edited h') (ha : h.Arena) : h'.Arena := by
  induction hedited with
  | refl => exact ha
  | tail _ hedit ih => exact hedit.arena ih

theorem Edited.refl (h : Heap) : h.Edited h := Relation.ReflTransGen.refl

theorem Edited.trans {h'' : Heap} (hedited : h.Edited h') (hedited' : h'.Edited h'') :
    h.Edited h'' :=
  Relation.ReflTransGen.trans hedited hedited'

theorem Edit.edited (hedit : h.Edit h') : h.Edited h' := .single hedit

end Heap

end ActionScript
