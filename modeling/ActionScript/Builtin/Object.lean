import ActionScript.Machine.Construct
import ActionScript.Machine.Write

/-! # Object, Function and Error -/

namespace ActionScript

/-- The argument at a position; a missing one is `undefined`. -/
def argument (args : List Value) (i : Nat) : Value := args[i]?.getD .undefined

namespace Builtin

variable {σ : Type} [Journal σ]

/-- The receiver as an object and the first argument as a name. -/
def receiverAndName (m : Machine σ) (this : Value) (args : List Value) :
    Run σ (ObjectId × String) := do
  let o ← m.toObject this
  let name ← m.toText (argument args 0)
  return (o, name)

/-- Gives the receiver a slot that answers through functions, and tells whether that was possible:
the name must not be empty, the getter must be callable, and the setter too unless it is `null`. -/
def addAccessor (m : Machine σ) (this : Value) (args : List Value) : Run σ Value := do
  let (o, name) ← receiverAndName m this args
  let getter := argument args 1
  let setter := argument args 2
  let heap := (← getMovie).heap
  if name.isEmpty || !heap.isCallable getter || !(setter.isNull || heap.isCallable setter) then
    return .bool false
  else
    Movie.define o name (.accessor getter.object? setter.object? {})
    return .bool true

/-- Sets the watcher of a slot, if the second argument is callable, and tells whether there is such
a slot. -/
def addWatcher (m : Machine σ) (this : Value) (args : List Value) : Run σ Value := do
  let (o, name) ← receiverAndName m this args
  match argument args 1 with
  | .object callback =>
    if (← getMovie).heap.isCallable (.object callback) then
      return .bool (← Movie.setWatcher o name (some ⟨name, callback, argument args 2⟩))
    else return .bool false
  | _ => return .bool false

/-- As a function `Object` boxes its argument, or makes a new object if there is nothing to box. -/
def OfObject.run (m : Machine σ) (this : Value) (args : List Value) : OfObject → Run σ Value
  | .convert => do
    let v := argument args 0
    if v.isNullish then return .object (← Movie.createObject) else return .object (← m.toObject v)
  | .registerClass => do
    let name ← m.toText (argument args 0)
    match argument args 1 with
    | .object cls => return .bool (← Movie.registerClass name cls)
    | _ => return .bool false
  | .text => do
    return .string
      (if (← getMovie).heap.isCallable this then "[type Function]" else "[object Object]")
  | .self => return this
  | .hasOwnProperty => do
    let (o, name) ← receiverAndName m this args
    return .bool ((← getMovie).hasOwn o name)
  | .isPropertyEnumerable => do
    let (o, name) ← receiverAndName m this args
    return .bool (((← getMovie).own? o name).any Property.isEnumerable)
  | .isPrototypeOf => do
    let o ← m.toObject this
    return .bool ((argument args 0).object?.any ((← getMovie).heap.isPrototypeOf o))
  | .addProperty => addAccessor m this args
  | .watch => addWatcher m this args
  | .unwatch => do
    let (o, name) ← receiverAndName m this args
    return .bool (← Movie.setWatcher o name none)

/-- `call` and `apply` call the receiver with another object in its place. -/
def OfFunction.run (m : Machine σ) (this : Value) (args : List Value) : OfFunction → Run σ Value
  | .create => return .object (← Movie.createEval "" (.builtin .nothing))
  | .call => m.callValue this (argument args 0) (args.drop 1)
  | .apply => do
    let list ←
      match argument args 1 with
      | .object list => m.elements list
      | _ => pure []
    m.callValue this (argument args 0) list

/-- Makes an error below the prototype of its constructor. A message is written as a property. -/
def constructError (m : Machine σ) (constructor : Value) (args : List Value) : Run σ Value := do
  let prototype ← m.instancePrototype constructor (← getMovie).intrinsics.errorPrototype
  let o ← Movie.create (some prototype) .error
  let message := argument args 0
  if !message.isUndefined then m.write o "message" message
  return .object o

/-- A call without `new` constructs as well. -/
def OfError.run (m : Machine σ) (this : Value) (args : List Value) : OfError → Run σ Value
  | .call => do constructError m (.object (← getMovie).intrinsics.error) args
  | .construct => constructError m this args
  | .text => do
    let o ← m.toObject this
    return .string (← m.toText (← m.read o "message"))

end Builtin

end ActionScript
