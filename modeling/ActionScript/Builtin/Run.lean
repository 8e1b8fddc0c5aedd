import ActionScript.Builtin.Array
import ActionScript.Builtin.Date
import ActionScript.Builtin.Number
import ActionScript.Builtin.String
import ActionScript.Text.Split

/-! # Running built-in routines -/

namespace ActionScript.Builtin

variable {σ : Type} [Journal σ]

/-- The names that a list of slots stands for: all of them, the elements of an array, or a text
with commas between them. -/
def slotNames (m : Machine σ) (v : Value) : Run σ (Option (List String)) := do
  if v.isNullish then return none
  else
    match v.object?.filter (← getMovie).heap.isArray with
    | some a => return some (← (← m.elements a).mapM m.toText)
    | none => return some (Text.split ',' (← m.toText v))

/-- The three attributes that scripts may change, from the low bits of a number. -/
def scriptFlags (bits : Int) : Flags := .ofBits (bits % 8).toNat

/-- Changes the attributes of the slots of the first argument; without an object nothing happens. -/
def adjustSlots (m : Machine σ) (args : List Value) : Run σ Value := do
  match argument args 0 with
  | .object o =>
    let names ← slotNames m (argument args 1)
    let set ← m.toInt32 (argument args 2)
    let clear ← m.toInt32 (argument args 3)
    Movie.setFlags o names (scriptFlags set) (scriptFlags clear)
    return .undefined
  | _ => return .undefined

/-- Runs a routine with a receiver and arguments. -/
def run (m : Machine σ) (routine : Builtin) (this : Value) (args : List Value) : Run σ Value :=
  match routine with
  | .nothing => return .undefined
  | .instantiate =>
    match this with
    | .object constructor => m.instantiate constructor fun _ => return .undefined
    | _ => return .undefined
  | .setFlags => adjustSlots m args
  | .object routine => routine.run m this args
  | .function routine => routine.run m this args
  | .error routine => routine.run m this args
  | .array routine => routine.run m this args
  | .number routine => routine.run m this args
  | .boolean routine => routine.run m this args
  | .math routine => routine.run m args
  | .string routine => routine.run m this args
  | .date routine => routine.run m this args

end ActionScript.Builtin
