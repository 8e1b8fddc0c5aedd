import Mathlib.Data.List.Nodup
import ActionScript.Movie.Arrays
import ActionScript.Storage.Descriptor

/-! # Records

How an object lies in memory: a hash map finds its descriptors, and beside it a list gives the order
of their keys. The two are kept in step by hand, by `insertProperty` and `removeProperty`; nothing
in the type does. -/

namespace ActionScript

/-- An object as it is stored. -/
structure Record where
  properties : Std.HashMap String Descriptor := ∅
  /-- The keys in the order in which they are enumerated. -/
  order : List String := []
  prototype : Option ObjectId
  kind : Kind
  blocked : Bool := false
  colorBlocked : Bool := false

namespace Record

/-- An object without slots. -/
def new (prototype : Option ObjectId) (kind : Kind) : Record where
  prototype := prototype
  kind := kind

/-- Puts a descriptor under a key. A key that is new comes last. -/
def insertProperty (x : Record) (key : String) (d : Descriptor) : Record :=
  { x with
    order := if x.properties.contains key then x.order else x.order ++ [key]
    properties := x.properties.insert key d }

/-- Drops the descriptor of a key and gives it back. -/
def removeProperty (x : Record) (key : String) : Option Descriptor × Record :=
  let removed := x.properties[key]?
  (removed,
    { x with
      properties := x.properties.erase key
      order := if removed.isSome then x.order.filter (· ≠ key) else x.order })

/-- Changes the descriptor of a key in place, if there is one. -/
def updateProperty (x : Record) (key : String) (f : Descriptor → Descriptor) : Record :=
  { x with properties := x.properties.modify key f }

/-- Clears and sets attributes of the listed keys, one after the other. -/
def setPropertyFlags (x : Record) (keys : List String) (set clear : FlagByte) : Record :=
  keys.foldl (fun x key => x.updateProperty key (·.adjust set clear)) x

/-- Drops the listed keys, one after the other. -/
def removeAll (x : Record) (keys : List String) : Record :=
  keys.foldl (fun x key => (x.removeProperty key).2) x

/-- Drops the elements of an array from an index on: first they are looked for, then dropped. -/
def truncate (x : Record) (n : Number) : Record :=
  x.removeAll (x.order.filter fun key => (arrayIndex? key).any fun i => Number.le n (.ofNat i))

/-- Puts an element of a new array under the numeral of its index. -/
def insertElement (x : Record) (e : Value × Nat) : Record :=
  x.insertProperty (indexKey e.2) (.data e.1 .none)

/-- Puts the elements of a new array in, one after the other. -/
def insertElements (x : Record) (elements : List Value) : Record :=
  elements.zipIdx.foldl insertElement x

/-- What enumeration shows of a key: the key itself with the name that is shown for it. -/
def shown? (x : Record) (caseSensitive : Bool) (key : String) : Option (String × String) :=
  (x.properties[key]?.filter Descriptor.isEnumerable).map fun d =>
    (key, if caseSensitive then key else d.originalName.getD key)

/-- The enumerable keys in their order. -/
def enumerable (x : Record) (caseSensitive : Bool) : List (String × String) :=
  x.order.filterMap (x.shown? caseSensitive)

end Record

end ActionScript
