import ActionScript.Movie.Basic
import ActionScript.Number.Integer
import ActionScript.Number.Literal

/-! # Arrays

An array keeps its elements in slots named by plain decimal numerals, and its length in a hidden
slot. -/

namespace ActionScript

/-- The key of the element at an index: its plain decimal numeral. -/
def indexKey (i : Nat) : String := Nat.repr i

theorem indexKey_inj {i j : Nat} (h : indexKey i = indexKey j) : i = j := by
  have h : Nat.toDigits 10 i = Nat.toDigits 10 j := String.ofList_inj.1 h
  rw [← Nat.ofDigitChars_toDigits (b := 10) (n := i) (by decide) (by decide), h,
    Nat.ofDigitChars_toDigits (by decide) (by decide)]

/-- The index that a key is the plain decimal numeral of. The greatest index is `2 ^ 32 - 2`. -/
def arrayIndex? (key : String) : Option Nat :=
  let cs := key.toList
  if cs.isEmpty || (1 < cs.length && cs.head? == some '0') || !cs.all Number.isDigit then none
  else
    let n := Number.digitsValue cs
    if n < 0xffffffff then some n else none

namespace Movie

/-- The key under which arrays keep their length. -/
def lengthKey : String := "length"

/-- Writes the length without looking at the elements or at attributes. -/
def setLength (a : ObjectId) (n : Nat) : Edit Unit := do
  let value : Value := .number (.ofNat n)
  if ((← get).heap.slot? a lengthKey).isSome then
    modifyHeap (·.modifySlot a lengthKey fun p => { p with value })
  else define a lengthKey (.data value .permanent)

/-- The slots of the elements of a new array. -/
def elementSlots (elements : List Value) : Table String Property where
  entries := elements.zipIdx.map fun (v, i) => (indexKey i, .data v {})
  nodup := by
    have h : (elements.zipIdx.map fun (v, i) => (indexKey i, Property.data v {})).map Prod.fst =
        (List.range' 0 elements.length).map indexKey := by
      rw [← List.zipIdx_map_snd, List.map_map, List.map_map]
      rfl
    rw [h]
    exact List.Pairwise.map indexKey (fun _ _ ne eq => ne (indexKey_inj eq)) List.nodup_range'

/-- Creates an array of the given elements. -/
def createArray (elements : List Value) : Edit ObjectId := do
  let prototype := some (← get).intrinsics.arrayPrototype
  let a ← onHeap fun h =>
    h.allocate { prototype, kind := .array, properties := elementSlots elements }
  setLength a elements.length
  return a

/-- Drops the elements from an index on. -/
def truncate (a : ObjectId) (n : Number) : Edit Unit :=
  modifyHeap (·.modify a fun object =>
    { object with
      properties := object.properties.eraseWhere fun key =>
        (arrayIndex? key).any fun i => Number.le n (.ofNat i) })

end Movie

end ActionScript
