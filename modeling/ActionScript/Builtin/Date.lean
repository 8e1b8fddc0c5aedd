import ActionScript.Builtin.Object
import ActionScript.Calendar

/-! # Date -/

namespace ActionScript

/-- Creates a date. A time that a date may not hold becomes none. -/
def Movie.createDate (time : Number) : Edit ObjectId := do
  create (some (← get).intrinsics.datePrototype) (.date (Calendar.clip time))

namespace Builtin

variable {σ : Type} [Journal σ]

/-- The time of a receiver that is a date. -/
def receiverTime (movie : Movie) (this : Value) : Number :=
  match (this.object?.bind movie.heap.get?).map Object.kind with
  | some (.date time) => time
  | _ => .nan

/-- The time that the arguments of a constructor name: none the current one, one a time, and more
its components, of which seven count. -/
def timeOfArguments (c : Calendar.Almanac) (m : Machine σ) (args : List Value) : Run σ Number :=
  match args with
  | [] => m.services.now
  | [v] => m.toNumber v
  | _ => return c.ofComponents (← (args.take 7).mapM m.toNumber)

/-- A routine of dates over any calendar. -/
def OfDate.runBy (c : Calendar.Almanac) (m : Machine σ) (this : Value) (args : List Value) :
    OfDate → Run σ Value
  | .call => return .string (c.text (← m.services.now))
  | .construct => do
    let o ← Movie.createDate (← timeOfArguments c m args)
    let prototype ← m.instancePrototype this (← getMovie).intrinsics.datePrototype
    discard (Movie.setPrototype o (some prototype))
    return .object o
  | .time => return .number (receiverTime (← getMovie) this)
  | .text => return .string (c.text (receiverTime (← getMovie) this))

/-- A routine of dates over the calendar that runs. -/
def OfDate.run (m : Machine σ) (this : Value) (args : List Value) (routine : OfDate) :
    Run σ Value :=
  routine.runBy Calendar.gregorian m this args

end Builtin

end ActionScript
