import ActionScript.Builtin.Object

/-! # String -/

namespace ActionScript.Builtin

variable {σ : Type} [Journal σ]

/-- The text that a receiver boxes, or its text. -/
def receiverText (m : Machine σ) (this : Value) : Run σ String := do
  match (this.object?.bind (← getMovie).heap.get?).map Object.kind with
  | some (.string s) => return s
  | _ => m.toText this

/-- The first argument as a text; empty without arguments. -/
def firstText (m : Machine σ) (args : List Value) : Run σ String :=
  match args with
  | [] => return ""
  | v :: _ => m.toText v

/-- An argument as a position from 0 to a bound. -/
def position (m : Machine σ) (v : Value) (bound : Nat) : Run σ Nat :=
  return (← m.toInteger v).toNatUpTo bound

/-- The text of one unit of the receiver, empty beyond its ends. -/
def unitAt (m : Machine σ) (this : Value) (args : List Value) : Run σ Value := do
  let units := Text.units (← receiverText m this)
  let index ← m.toInteger (argument args 0)
  if Number.lt index 0 || Number.le (.ofNat units.length) index then return .string ""
  else return .string (Text.ofUnits ((units.drop index.toInt.toNat).take 1))

/-- The position from which on the first argument stands in the receiver, or -1. -/
def findPart (m : Machine σ) (this : Value) (args : List Value) : Run σ Value := do
  let units := Text.units (← receiverText m this)
  let part := Text.units (← m.toText (argument args 0))
  let start ← position m (argument args 1) units.length
  match Text.findUnits units part start with
  | some i => return .number (.ofNat i)
  | none => return .number (-1)

/-- The start of a part: a negative one counts from the end. -/
def startPosition (start : Number) (length : Nat) : Nat :=
  if Number.lt start 0 then (Number.ofNat length + start).toNatUpTo length
  else start.toNatUpTo length

/-- A part of the receiver by its start, which counts from the end if negative, and its length. -/
def cutPart (m : Machine σ) (this : Value) (args : List Value) : Run σ Value := do
  let units := Text.units (← receiverText m this)
  let start := startPosition (← m.toInteger (argument args 0)) units.length
  let count ←
    match argument args 1 with
    | .undefined => pure (units.length - start)
    | v => position m v (units.length - start)
  return .string (Text.ofUnits ((units.drop start).take count))

/-- Positions in texts count units of 16 bits. -/
def OfString.run (m : Machine σ) (this : Value) (args : List Value) : OfString → Run σ Value
  | .call => return .string (← firstText m args)
  | .construct => do
    let o ← m.toObject (.string (← firstText m args))
    let prototype ← m.instancePrototype this (← getMovie).intrinsics.stringPrototype
    discard (Movie.setPrototype o (some prototype))
    return .object o
  | .self => return .string (← receiverText m this)
  | .charAt => unitAt m this args
  | .indexOf => findPart m this args
  | .toUpperCase => return .string (Text.upper (← receiverText m this))
  | .toLowerCase => return .string (Text.lower (← receiverText m this))
  | .substr => cutPart m this args

end ActionScript.Builtin
