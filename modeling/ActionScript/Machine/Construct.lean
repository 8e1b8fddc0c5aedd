import ActionScript.Machine.Read
import ActionScript.Movie.Functions

/-! # Construction and static state -/

namespace ActionScript.Machine

variable {σ : Type} [Journal σ]

/-- The prototype of what a constructor makes: its property `prototype`, if that is an object. -/
def instancePrototype (m : Machine σ) (constructor : Value) (fallback : ObjectId) :
    Run σ ObjectId := do
  match constructor with
  | .object c =>
    match ← m.read c "prototype" with
    | .object p => return p
    | _ => return fallback
  | _ => return fallback

/-- Makes a plain instance and runs the body on it. An object that the body returns replaces the
instance. -/
def instantiate (m : Machine σ) (constructor : ObjectId) (body : Value → Run σ Value) :
    Run σ Value := do
  let fallback := (← getMovie).intrinsics.objectPrototype
  let prototype ← m.instancePrototype (.object constructor) fallback
  let o ← Movie.createWithPrototype (some prototype)
  Movie.define o "__constructor__" (.data (.object constructor) .hidden)
  let result ← body (.object o)
  return if result.isObject then result else .object o

/-- Constructs an object by a function: a native one has its own way or none, any other runs on a
new instance of its prototype. -/
def construct (m : Machine σ) (function : ObjectId) (args : List Value) : Run σ Value := do
  let movie ← getMovie
  match movie.heap.callable? function with
  | none => throw (.notConstructible (movie.describe (.object function)))
  | some (.native _ _ (some code)) => m.invoke code (.object function) args
  | some (.native name _ none) => throw (.notConstructible name)
  | some _ => m.instantiate function fun this => m.call function this args

/-! ## Callbacks of the embedder -/

/-- A function that the embedder may call until it releases it; it is pinned as long. -/
structure Callback where
  function : ObjectId
deriving DecidableEq

/-- Keeps a function alive for the embedder, if the object is one. -/
def callback? (o : ObjectId) : Edit (Option Callback) := do
  if (← get).heap.isCallable (.object o) then
    Movie.pin o
    return some ⟨o⟩
  else return none

/-- Calls the function of a callback. -/
def invokeCallback (m : Machine σ) (c : Callback) (this : Value) (args : List Value) :
    Run σ Value :=
  m.call c.function this args

/-- The embedder needs the function no longer. -/
def releaseCallback (c : Callback) : Edit Unit := Movie.unpin c.function

/-! ## Static state -/

/-- The static state of a class. It is created and recorded when it is first asked for, before
the initializer runs on it. -/
def staticStateOf (key : ClassKey) (start : ObjectId → Run σ Unit) : Run σ ObjectId := do
  match (← getMovie).staticStates.find? key with
  | some state => return state
  | none =>
    let state ← Movie.createWithPrototype none
    Movie.recordStatic key state
    start state
    return state

/-- The static state of a class of the embedder. -/
def staticState (m : Machine σ) (cls : HostClass) : Run σ ObjectId :=
  staticStateOf (.host cls) (m.services.initializeClass cls)

/-- The static state of a class with a constructor. -/
def classState (m : Machine σ) (constructor : ObjectId) : Run σ ObjectId :=
  staticStateOf (.object constructor) fun state => do
    match (← getMovie).initializers.find? constructor with
    | some code => discard (m.invoke code (.object state) [.object constructor])
    | none => return

end ActionScript.Machine
