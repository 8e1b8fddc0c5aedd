import ActionScript.Value

/-! # Errors

What escapes an operation. Refused writes, refused deletions and rejected prototype links are no
errors: they are silent or report through a truth value. -/

namespace ActionScript

/-- What may end a run before it has an answer. -/
inductive Error where
  /-- Construction by something that has no way to construct. -/
  | notConstructible (what : String)
  /-- A call of something that has no code. -/
  | notCallable (what : String)
  | typeError (message : String)
  /-- A value thrown by a script. -/
  | thrown (value : Value)
  | timeout
  /-- Interpreted code ran before an interpreter was installed. -/
  | noInterpreter
  /-- Calls were nested deeper than the machine allows. -/
  | tooDeep
deriving DecidableEq

namespace Error

/-- What is reported of an error. -/
def message : Error → String
  | notConstructible what => what ++ " is not a constructor"
  | notCallable what => what ++ " is not a function"
  | typeError message => "TypeError: " ++ message
  | thrown value => "uncaught " ++ value.typeName ++ " thrown by script"
  | timeout => "script execution timed out"
  | noInterpreter => "no action interpreter installed"
  | tooDeep => "calls are nested too deep"

/-- The error about `undefined` and `null`, which have no object form. -/
def notAnObject (value : Value) : Error :=
  .typeError ("cannot convert " ++ value.typeName ++ " to an object")

end Error

end ActionScript
