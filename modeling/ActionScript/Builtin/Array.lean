import ActionScript.Builtin.Object

/-! # Array -/

namespace ActionScript.Builtin

variable {σ : Type} [Journal σ]

/-- The receiver as an object, with its length. -/
def receiverAndLength (m : Machine σ) (this : Value) : Run σ (ObjectId × Nat) := do
  let a ← m.toObject this
  let length ← m.read a Movie.lengthKey
  return (a, ← m.toUInt32 length)

/-- Writes values from an index on. -/
def writeFrom (m : Machine σ) (a : ObjectId) : Nat → List Value → Run σ Unit
  | _, [] => return
  | i, v :: rest => do
    m.writeKey a (indexKey i) (indexKey i) v
    writeFrom m a (i + 1) rest

/-- Writes the arguments behind the last element, then the new length, and answers with it. -/
def pushAll (m : Machine σ) (this : Value) (args : List Value) : Run σ Value := do
  let (a, length) ← receiverAndLength m this
  writeFrom m a length args
  let length : Value := .number (.ofNat (length + args.length))
  m.write a Movie.lengthKey length
  return length

/-- Takes the last element away and answers with it. An array without elements is only given its
length. -/
def popLast (m : Machine σ) (this : Value) : Run σ Value := do
  let (a, length) ← receiverAndLength m this
  match length with
  | 0 =>
    m.write a Movie.lengthKey (.number 0)
    return .undefined
  | last + 1 =>
    let value ← m.readKey a (indexKey last)
    discard (m.deleteKey a (indexKey last))
    m.write a Movie.lengthKey (.number (.ofNat last))
    return value

/-- The texts of the elements with a separator between them. -/
def joinElements (m : Machine σ) (a : ObjectId) (separator : String) : Run σ Value := do
  let parts ← (← m.elements a).mapM m.toText
  return .string (separator.intercalate parts)

/-- A single number makes an array of that length; any other arguments are its elements. -/
def OfArray.run (m : Machine σ) (this : Value) (args : List Value) : OfArray → Run σ Value
  | .create => do
    match args with
    | [.number n] =>
      let a ← Movie.createArray []
      Movie.setLength a n.toUInt32
      return .object a
    | _ => return .object (← Movie.createArray args)
  | .push => pushAll m this args
  | .pop => popLast m this
  | .join => do
    let a ← m.toObject this
    let separator ←
      match argument args 0 with
      | .undefined => pure ","
      | v => m.toText v
    joinElements m a separator
  | .text => do joinElements m (← m.toObject this) ","

end ActionScript.Builtin
