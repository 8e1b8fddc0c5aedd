import ActionScript.Builtin.Object
import ActionScript.Number.Radix

/-! # Number, Boolean and Math -/

namespace ActionScript.Builtin

variable {σ : Type} [Journal σ]

/-- The number that a receiver boxes. Any other object is not a number. -/
def receiverNumber (m : Machine σ) (this : Value) : Run σ Number := do
  match this with
  | .object o =>
    match ((← getMovie).heap.get? o).map Object.kind with
    | some (.number x) => return x
    | _ => return .nan
  | v => m.toNumber v

/-- The truth value that a receiver boxes, or its truth. -/
def receiverBool (movie : Movie) (this : Value) : Bool :=
  match (this.object?.bind movie.heap.get?).map Object.kind with
  | some (.boolean b) => b
  | _ => this.truthy

/-- Boxes a value with the prototype of a constructor. -/
def boxAs (m : Machine σ) (constructor value : Value) : Run σ Value := do
  let o ← m.toObject value
  let movie ← getMovie
  let fallback := (movie.heap.prototype? o).getD movie.intrinsics.objectPrototype
  let prototype ← m.instancePrototype constructor fallback
  discard (Movie.setPrototype o (some prototype))
  return .object o

/-- The first argument as a number; zero without arguments. -/
def firstNumber (m : Machine σ) (args : List Value) : Run σ Number :=
  match args with
  | [] => return 0
  | v :: _ => m.toNumber v

/-- The text of a number in the radix of the first argument, which is ten if there is none. -/
def numberText (m : Machine σ) (this : Value) (args : List Value) : Run σ Value := do
  let x ← receiverNumber m this
  let radix ←
    match argument args 0 with
    | .undefined => pure 10
    | v => m.toInt32 v
  return .string (if radix < 0 then x.text else x.textInRadix radix.toNat)

/-- As a function the class converts; as a constructor it makes an object around the number. -/
def OfNumber.run (m : Machine σ) (this : Value) (args : List Value) : OfNumber → Run σ Value
  | .call => return .number (← firstNumber m args)
  | .construct => do boxAs m this (.number (← firstNumber m args))
  | .text => numberText m this args
  | .self => return .number (← receiverNumber m this)

/-- As a function the class converts; as a constructor it makes an object around the answer. -/
def OfBoolean.run (m : Machine σ) (this : Value) (args : List Value) : OfBoolean → Run σ Value
  | .call => return .bool (argument args 0).truthy
  | .construct => boxAs m this (.bool (argument args 0).truthy)
  | .text => return .string (if receiverBool (← getMovie) this then "true" else "false")
  | .self => return .bool (receiverBool (← getMovie) this)

/-- Combines numbers from left to right and stops at the first that is not a number. -/
def foldNumbers (m : Machine σ) (f : Number → Number → Number) :
    Number → List Value → Run σ Value
  | acc, [] => return .number acc
  | acc, v :: rest => do
    let x ← m.toNumber v
    if x.isNaN then return .number .nan else foldNumbers m f (f acc x) rest

/-- Applies a function to the first argument as a number. -/
def mapNumber (m : Machine σ) (f : Number → Number) (args : List Value) : Run σ Value :=
  return .number (f (← m.toNumber (argument args 0)))

/-- The routines of `Math` convert their arguments from left to right. -/
def OfMath.run (m : Machine σ) (args : List Value) : OfMath → Run σ Value
  | .abs => mapNumber m Number.abs args
  | .floor => mapNumber m Number.floor args
  | .ceil => mapNumber m Number.ceil args
  | .sqrt => mapNumber m Number.sqrt args
  | .round => mapNumber m Number.roundHalfUp args
  | .max => foldNumbers m Number.max (.infinite true) args
  | .min => foldNumbers m Number.min (.infinite false) args
  | .pow => do
    let base ← m.toNumber (argument args 0)
    let exponent ← m.toNumber (argument args 1)
    return .number (base.pow exponent)
  | .random => return .number (← Movie.nextRandom)

end ActionScript.Builtin
