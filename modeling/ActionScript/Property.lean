import ActionScript.Value

/-! # Properties

The slots of an object. A slot holds a value or answers through a getter and a setter; it may be
hidden from enumeration, protected from deletion, read-only if it holds a value, and watched. -/

namespace ActionScript

/-- The attribute bits of a slot as scripts see them. -/
structure Flags where
  dontEnum : Bool := false
  dontDelete : Bool := false
  readOnly : Bool := false
  data : Bool := false
  accessor : Bool := false
deriving DecidableEq, Inhabited

namespace Flags

/-- Bits that stand for no attribute are dropped. -/
def ofBits (bits : Nat) : Flags where
  dontEnum := bits.testBit 0
  dontDelete := bits.testBit 1
  readOnly := bits.testBit 2
  data := bits.testBit 6
  accessor := bits.testBit 7

/-- The attributes as the bits that stand for them. -/
def bits (f : Flags) : Nat :=
  f.dontEnum.toNat + 2 * f.dontDelete.toNat + 4 * f.readOnly.toNat + 64 * f.data.toNat +
    128 * f.accessor.toNat

/-- The attributes of either. -/
def union (f g : Flags) : Flags where
  dontEnum := f.dontEnum || g.dontEnum
  dontDelete := f.dontDelete || g.dontDelete
  readOnly := f.readOnly || g.readOnly
  data := f.data || g.data
  accessor := f.accessor || g.accessor

/-- The attributes of the first without those of the second. -/
def diff (f g : Flags) : Flags where
  dontEnum := f.dontEnum && !g.dontEnum
  dontDelete := f.dontDelete && !g.dontDelete
  readOnly := f.readOnly && !g.readOnly
  data := f.data && !g.data
  accessor := f.accessor && !g.accessor

/-- Whether the first has all attributes of the second. -/
def contains (f g : Flags) : Bool := f.union g == f

/-- Whether some attribute is in both. -/
def intersects (f g : Flags) : Bool :=
  (f.dontEnum && g.dontEnum) || (f.dontDelete && g.dontDelete) || (f.readOnly && g.readOnly) ||
    (f.data && g.data) || (f.accessor && g.accessor)

/-- The set attributes by name, in the order of their bits. -/
def text (f : Flags) : String :=
  let names := [(f.dontEnum, "DONT_ENUM"), (f.dontDelete, "DONT_DELETE"),
    (f.readOnly, "READ_ONLY"), (f.data, "DATA"), (f.accessor, "ACCESSOR")]
  "PropertyFlags(" ++ " | ".intercalate ((names.filter (·.1)).map (·.2)) ++ ")"

/-- The attributes of a method that scripts may delete. -/
def hidden : Flags := { dontEnum := true }

/-- The attributes of a slot that scripts neither see nor delete. -/
def permanent : Flags := { dontEnum := true, dontDelete := true }

/-- The attributes of a constant. -/
def constant : Flags := { dontEnum := true, dontDelete := true, readOnly := true }

end Flags

/-- What runs before a write lands; its result is written instead. -/
structure Watcher where
  /-- The spelling under which the watcher was attached. -/
  name : String
  callback : ObjectId
  userData : Value
deriving DecidableEq

/-- How reads and writes of a slot are answered. -/
inductive Access where
  | data (readOnly : Bool)
  | accessor (getter setter : Option ObjectId)
deriving DecidableEq

/-- A slot of an object. -/
structure Property where
  access : Access
  /-- The value of a data slot. An accessor does not show it. -/
  value : Value
  dontEnum : Bool
  dontDelete : Bool
  watcher : Option Watcher := none
  /-- The spelling that enumeration shows where case does not count. -/
  spelling : Option String := none
deriving DecidableEq

namespace Property

/-- A slot that holds a value. -/
def data (value : Value) (flags : Flags) : Property where
  access := .data flags.readOnly
  value := value
  dontEnum := flags.dontEnum
  dontDelete := flags.dontDelete

/-- A slot that answers through functions; it is never read-only. -/
def accessor (getter setter : Option ObjectId) (flags : Flags) : Property where
  access := .accessor getter setter
  value := .undefined
  dontEnum := flags.dontEnum
  dontDelete := flags.dontDelete

/-- Whether the slot holds a value. -/
def isData (p : Property) : Bool :=
  match p.access with
  | .data _ => true
  | .accessor .. => false

def isAccessor (p : Property) : Bool := !p.isData

/-- Whether the slot holds a value that cannot be written. -/
def isReadOnly (p : Property) : Bool :=
  match p.access with
  | .data readOnly => readOnly
  | .accessor .. => false

/-- Whether enumeration shows the slot. -/
def isEnumerable (p : Property) : Bool := !p.dontEnum

/-- Whether a script can delete the slot. -/
def isDeletable (p : Property) : Bool := !p.dontDelete

/-- The function that answers a read; data has none. -/
def getter (p : Property) : Option ObjectId :=
  match p.access with
  | .data _ => none
  | .accessor getter _ => getter

/-- The function that takes a write; data has none. -/
def setter (p : Property) : Option ObjectId :=
  match p.access with
  | .data _ => none
  | .accessor _ setter => setter

/-- The attributes that the slot has. -/
def flags (p : Property) : Flags where
  dontEnum := p.dontEnum
  dontDelete := p.dontDelete
  readOnly := p.isReadOnly
  data := p.isData
  accessor := p.isAccessor

/-- Whether a write can land here or pass through here. -/
def isWritable (p : Property) : Bool :=
  match p.access with
  | .data readOnly => !readOnly
  | .accessor _ setter => setter.isSome

/-- Clears and then sets the attributes that scripts may change. An accessor stays writable. -/
def adjust (p : Property) (set clear : Flags) : Property :=
  { p with
    dontEnum := (p.dontEnum && !clear.dontEnum) || set.dontEnum
    dontDelete := (p.dontDelete && !clear.dontDelete) || set.dontDelete
    access :=
      match p.access with
      | .data readOnly => .data ((readOnly && !clear.readOnly) || set.readOnly)
      | access => access }

/-- The objects that the slot refers to. -/
def references (p : Property) : List ObjectId :=
  p.value.object?.toList ++ p.getter.toList ++ p.setter.toList ++
    match p.watcher with
    | some w => w.callback :: w.userData.object?.toList
    | none => []

end Property

end ActionScript
