import ActionScript.Actions
import ActionScript.Builtin
import ActionScript.Property

/-! # Objects -/

namespace ActionScript

/-- A function of the embedder. -/
structure HostFunction where
  index : Nat
deriving DecidableEq, Inhabited

/-- The scope chain that an interpreted function has captured; only the interpreter knows it. -/
structure Scope where
  index : Nat
deriving DecidableEq, Inhabited

/-- What a function runs outside the interpreter. -/
inductive Code where
  | builtin (routine : Builtin)
  | host (function : HostFunction)
deriving DecidableEq

/-- What a call of a function runs. -/
inductive Callable where
  /-- A function of the machine or the embedder, with its own way to construct, if any. -/
  | native (name : String) (call : Code) (construct : Option Code)
  /-- A function of a script. -/
  | interpreted (name : String) (actions : ActionsId) (scope : Scope)
  /-- A function that constructs as one of a script does and runs code of the embedder. -/
  | eval (name : String) (call : Code)
deriving DecidableEq

namespace Callable

def name : Callable → String
  | native name .. => name
  | interpreted name .. => name
  | eval name _ => name

/-- What is reported of a function that cannot be called or constructed. -/
def describe (c : Callable) (store : ActionsStore) : String :=
  match c with
  | native name _ construct =>
    "Callable::Native(" ++ Text.quote name ++ ", constructible: " ++
      (if construct.isSome then "true" else "false") ++ ")"
  | interpreted name actions _ =>
    "Callable::Interpreted(" ++ Text.quote name ++ ", " ++ Text.quote (store.name actions) ++ ")"
  | eval name _ => "Callable::Eval(" ++ Text.quote name ++ ")"

end Callable

/-- What an object is beside its slots. -/
inductive Kind where
  | plain
  | array
  | boolean (b : Bool)
  | number (x : Number)
  | string (s : String)
  /-- A point in time, in milliseconds. -/
  | date (time : Number)
  | error
  | function (callable : Callable)
deriving DecidableEq

/-- An object: its slots in their order, its prototype, and what else it is. -/
structure Object where
  properties : Table String Property := .empty
  prototype : Option ObjectId
  kind : Kind
  /-- Whether a script has taken the object over from the timeline. -/
  blocked : Bool := false
  /-- Whether a script has taken over the colour transformation. -/
  colorBlocked : Bool := false

namespace Object

/-- What a call of the object runs, if it is a function. -/
def callable? (o : Object) : Option Callable :=
  match o.kind with
  | .function c => some c
  | _ => none

def isArray (o : Object) : Bool :=
  match o.kind with
  | .array => true
  | _ => false

/-- The objects that the object refers to. -/
def references (o : Object) : List ObjectId :=
  o.prototype.toList ++ o.properties.values.flatMap Property.references

end Object

end ActionScript
