import ActionScript.Movie.Basic

/-! # Function objects -/

namespace ActionScript.Movie

/-- Creates a function object. -/
def createFunction (callable : Callable) : Edit ObjectId := do
  create (some (← get).intrinsics.functionPrototype) (.function callable)

/-- A function that runs code of the machine or the embedder. It has no prototype for instances. -/
def createNative (name : String) (call : Code) (construct : Option Code) : Edit ObjectId :=
  createFunction (.native name call construct)

/-- Links a constructor and a prototype to each other. -/
def linkConstructor (constructor prototype : ObjectId) : Edit Unit := do
  define constructor "prototype" (.data (.object prototype) .permanent)
  define prototype "constructor" (.data (.object constructor) .hidden)

/-- A function with a prototype of its own for what it constructs. -/
def createConstructor (callable : Callable) : Edit ObjectId := do
  let function ← createFunction callable
  let prototype ← createObject
  linkConstructor function prototype
  return function

/-- A function of a script, with a prototype for its instances. -/
def createInterpreted (name : String) (actions : ActionsId) (scope : Scope) : Edit ObjectId :=
  createConstructor (.interpreted name actions scope)

/-- A function that runs code, with a prototype for its instances as one of a script has. -/
def createEval (name : String) (call : Code) : Edit ObjectId :=
  createConstructor (.eval name call)

end ActionScript.Movie
