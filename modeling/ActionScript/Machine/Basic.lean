import ActionScript.Error
import ActionScript.Movie.Basic

/-! # Machines

A machine runs code on a movie for an embedder. The embedder supplies its services: the functions
and classes it implements, its observers, and the interpreter of action blocks. They may call the
machine again, so a machine only nests calls up to its depth. -/

namespace ActionScript

/-- A movie together with the state of its embedder. -/
structure State (σ : Type) where
  movie : Movie
  embedder : σ

/-- A change of the state that always succeeds. -/
abbrev Update (σ : Type) := StateM (State σ)

/-- A computation that may fail; what it changed before stays changed. -/
abbrev Run (σ : Type) := ExceptT Error (Update σ)

variable {σ : Type}

/-- What the state of an embedder keeps of the movies that edits lead to. -/
class Journal (σ : Type) where
  record : Movie → σ → σ

variable [Journal σ]

/-- Runs an edit on the movie. -/
def Edit.toUpdate {α : Type} (edit : Edit α) : Update σ α := fun ⟨movie, embedder⟩ =>
  let (a, movie) := edit movie
  (a, ⟨movie, Journal.record movie embedder⟩)

instance : MonadLift Edit (Update σ) := ⟨Edit.toUpdate⟩

/-- The movie as it is now. -/
def getMovie : Edit Movie := get

/-- What an embedder supplies to a machine. -/
structure Services (σ : Type) where
  function : HostFunction → Value → List Value → Run σ Value
  initializeClass : HostClass → ObjectId → Run σ Unit
  notify : Observer → String → Update σ Unit
  executeActions : Executor → ActionsId → ObjectId → Run σ Value
  executeFunction : Executor → ObjectId → ActionsId → Scope → Value → List Value → Run σ Value
  resolveTarget : Executor → Value → Update σ (Option ObjectId)
  checkTimeout : Executor → Run σ Unit
  /-- The current time in milliseconds. -/
  now : Update σ Number

/-- What runs code: how deep calls may still nest, the services of the embedder, and the routines of
the machine itself, which nest one level less deep. -/
structure Machine (σ : Type) where
  depth : Nat
  services : Services σ
  builtin : Builtin → Value → List Value → Run σ Value

namespace Machine

/-- Runs code, which is a routine of the machine or a function of the embedder. -/
def invoke (m : Machine σ) (code : Code) (this : Value) (args : List Value) : Run σ Value :=
  match code with
  | .builtin routine => m.builtin routine this args
  | .host function => m.services.function function this args

/-- Calls a function object. -/
def call (m : Machine σ) (function : ObjectId) (this : Value) (args : List Value) :
    Run σ Value := do
  let movie ← getMovie
  match movie.heap.callable? function with
  | none => throw (.notCallable (movie.describe (.object function)))
  | some (.native _ code _) => m.invoke code this args
  | some (.eval _ code) => m.invoke code this args
  | some (.interpreted _ actions scope) =>
    match movie.executor with
    | none => throw .noInterpreter
    | some executor => m.services.executeFunction executor function actions scope this args

/-- Calls a value, which is an error unless it is a function. -/
def callValue (m : Machine σ) (function this : Value) (args : List Value) : Run σ Value := do
  match function with
  | .object o => m.call o this args
  | v => throw (.notCallable ((← getMovie).describe v))

/-- Lets the interpreter stop a long computation. -/
def checkTimeout (m : Machine σ) : Run σ Unit := do
  match (← getMovie).executor with
  | some executor => m.services.checkTimeout executor
  | none => return

/-- Runs an action block in the installed interpreter. -/
def executeActions (m : Machine σ) (actions : ActionsId) (scope : ObjectId) : Run σ Value := do
  match (← getMovie).executor with
  | some executor => m.services.executeActions executor actions scope
  | none => throw .noInterpreter

/-- Asks the installed interpreter for the object of a target path. -/
def resolveTarget (m : Machine σ) (target : Value) : Update σ (Option ObjectId) := do
  match (← getMovie).executor with
  | some executor => m.services.resolveTarget executor target
  | none => return none

/-- Notifies the observers that a key has now, in the order of their registration. -/
def broadcast (m : Machine σ) (name : String) : Update σ Unit := do
  let movie ← getMovie
  let key := movie.normalize name
  (movie.observers.of key).forM fun observer => m.services.notify observer key

end Machine

end ActionScript
