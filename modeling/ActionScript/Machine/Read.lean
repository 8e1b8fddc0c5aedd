import ActionScript.Machine.Basic

/-! # Reading properties -/

namespace ActionScript.Machine

variable {σ : Type} [Journal σ]

/-- The value of the nearest slot of a key; a getter is called on the object that was asked. -/
def readKey (m : Machine σ) (o : ObjectId) (key : String) : Run σ Value := do
  match (← getMovie).heap.find? o key with
  | none => return .undefined
  | some (_, p) =>
    match p.access with
    | .data _ => return p.value
    | .accessor none _ => return .undefined
    | .accessor (some getter) _ => m.call getter (.object o) []

/-- Reads a property by its name. -/
def read (m : Machine σ) (o : ObjectId) (name : String) : Run σ Value := do
  m.readKey o ((← getMovie).normalize name)

/-- Which primitive value is wanted of an object. -/
inductive Hint where
  | number
  | string
deriving DecidableEq

/-- The methods that are asked for a primitive value, in their order. -/
def Hint.methods : Hint → List String
  | .number => ["valueOf", "toString"]
  | .string => ["toString", "valueOf"]

/-- The answer of the first of the methods that is a function; else the object itself. -/
def askMethods (m : Machine σ) (o : ObjectId) : List String → Run σ Value
  | [] => return .object o
  | method :: rest => do
    let f ← m.read o method
    if (← getMovie).heap.isCallable f then m.callValue f (.object o) [] else m.askMethods o rest

/-- Asks an object for a primitive value by the two methods of a hint. -/
def defaultValue (m : Machine σ) (o : ObjectId) (hint : Hint) : Run σ Value :=
  m.askMethods o hint.methods

end ActionScript.Machine
