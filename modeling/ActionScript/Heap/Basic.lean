import ActionScript.Object

/-! # The heap

Objects live in numbered slots. A freed slot is used again before the heap grows, the one that
was freed last first. -/

namespace ActionScript

/-- The objects of a movie in numbered slots. -/
structure Heap where
  slots : Array (Option Object) := #[]
  /-- The empty slots, in the order in which they are used again. -/
  free : List Nat := []

namespace Heap

/-- The object of a handle, if it is live. -/
def get? (h : Heap) (o : ObjectId) : Option Object := h.slots[o.index]?.join

/-- Whether a handle leads to an object. -/
def isLive (h : Heap) (o : ObjectId) : Bool := (h.get? o).isSome

/-- Puts a new object into the first free slot. -/
def allocate (h : Heap) (object : Object) : ObjectId × Heap :=
  match h with
  | ⟨slots, []⟩ => (⟨slots.size⟩, ⟨slots.push (some object), []⟩)
  | ⟨slots, i :: free⟩ => (⟨i⟩, ⟨slots.setIfInBounds i (some object), free⟩)

/-- Changes a live object; a stale handle changes nothing. -/
def modify (h : Heap) (o : ObjectId) (f : Object → Object) : Heap :=
  match h with
  | ⟨slots, free⟩ => ⟨slots.modify o.index (Option.map f), free⟩

/-! ## Prototype chains -/

/-- The object from which an object inherits. -/
def prototype? (h : Heap) (o : ObjectId) : Option ObjectId := (h.get? o).bind Object.prototype

/-- The first `n` handles from `o` along the prototype links. -/
def chainUpTo (h : Heap) : Nat → ObjectId → List ObjectId
  | 0, _ => []
  | n + 1, o => o ::
    match h.prototype? o with
    | some p => h.chainUpTo n p
    | none => []

/-- The handles from `o` along the prototype links. Links without a cycle pass every slot at most
once and may end in a stale handle. -/
def chain (h : Heap) (o : ObjectId) : List ObjectId := h.chainUpTo (h.slots.size + 1) o

/-- Whether `o` stands on the prototype chain of `p`, above `p` itself. -/
def isPrototypeOf (h : Heap) (o p : ObjectId) : Bool := (h.chain p).tail.contains o

/-- Links a live object to a prototype, unless that would close a cycle. -/
def setPrototype (h : Heap) (o : ObjectId) (prototype : Option ObjectId) : Bool × Heap :=
  if prototype.any fun p => (h.chain p).contains o then (false, h)
  else (h.isLive o, h.modify o fun object => { object with prototype })

/-! ## Slots of an object -/

/-- The key that shows the prototype link. -/
def protoKey : String := "__proto__"

/-- The stored slot of an object. -/
def slot? (h : Heap) (o : ObjectId) (key : String) : Option Property :=
  (h.get? o).bind fun object => object.properties.find? key

/-- The slot of an object, which for `__proto__` may be the prototype link. -/
def own? (h : Heap) (o : ObjectId) (key : String) : Option Property :=
  match h.slot? o key with
  | some p => some p
  | none =>
    if key = protoKey then (h.prototype? o).map fun p => .data (.object p) .permanent else none

/-- The nearest slot on the prototype chain, with its owner. -/
def find? (h : Heap) (o : ObjectId) (key : String) : Option (ObjectId × Property) :=
  (h.chain o).findSome? fun owner => (h.own? owner key).map (owner, ·)

/-- Walks at most `n` objects far to the nearest slot of a key, and asks whether it accepts a write.
Where there is no slot, nothing refuses. -/
def canPutWithin (h : Heap) (key : String) : Nat → ObjectId → Bool
  | 0, _ => true
  | n + 1, o =>
    match h.own? o key with
    | some p => p.isWritable
    | none =>
      match h.prototype? o with
      | some q => h.canPutWithin key n q
      | none => true

/-- Whether the nearest slot, if any, accepts a write. -/
def canPut (h : Heap) (o : ObjectId) (key : String) : Bool :=
  h.canPutWithin key (h.slots.size + 1) o

/-- Puts a slot under a key, in the place of one that is there. -/
def store (h : Heap) (o : ObjectId) (key : String) (p : Property) : Heap :=
  h.modify o fun object => { object with properties := object.properties.insert key p }

/-- Changes a stored slot in place, if there is one. -/
def modifySlot (h : Heap) (o : ObjectId) (key : String) (f : Property → Property) : Heap :=
  h.modify o fun object => { object with properties := object.properties.modify key f }

/-- Drops a stored slot, whatever its attributes are. -/
def remove (h : Heap) (o : ObjectId) (key : String) : Heap :=
  h.modify o fun object => { object with properties := object.properties.erase key }

def isArray (h : Heap) (o : ObjectId) : Bool := (h.get? o).any Object.isArray

/-- What a call of an object runs, if it can be called. -/
def callable? (h : Heap) (o : ObjectId) : Option Callable := (h.get? o).bind Object.callable?

/-- Whether a value is an object that can be called. -/
def isCallable (h : Heap) (v : Value) : Bool := (v.object?.bind h.callable?).isSome

/-- The action blocks that live functions refer to. -/
def actions (h : Heap) : List ActionsId :=
  h.slots.toList.filterMap fun slot =>
    match slot.bind Object.callable? with
    | some (.interpreted _ actions _) => some actions
    | _ => none

end Heap

end ActionScript
