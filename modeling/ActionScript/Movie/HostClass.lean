import ActionScript.Movie.Functions

/-! # Classes of the embedder

The members that an embedder implements become properties of an object. A member name that ends in
`#` becomes an accessor that runs the members `get…` and `set…`; any other name becomes a method
or a value. All of them are hidden and stay. -/

namespace ActionScript

/-- A member that a class of the embedder implements. -/
inductive HostMember where
  | method (function : HostFunction)
  | value (v : Value)
deriving DecidableEq

/-- The members that a class of the embedder implements, by their names. -/
abbrev HostMembers := Table String HostMember

namespace HostMembers

/-- The method of a name, if the class implements one. -/
def method? (members : HostMembers) (name : String) : Option HostFunction :=
  match members.find? name with
  | some (.method f) => some f
  | _ => none

end HostMembers

/-- The mark at the end of the name of an accessor. -/
def accessorMark : Char := '#'

/-- The name without the mark of an accessor, if it has one. -/
def accessorBase? (name : String) : Option String :=
  match name.toList.reverse with
  | c :: rest => if c = accessorMark then some (String.ofList rest.reverse) else none
  | [] => none

namespace Movie

/-- A function object for a method of the embedder, if there is one. -/
def createMethod? (members : HostMembers) (name : String) : Edit (Option ObjectId) := do
  match members.method? name with
  | some f => return some (← createNative name (.host f) none)
  | none => return none

/-- Adds the accessor of a base name, if there is a method for either direction. -/
def addAccessor (o : ObjectId) (members : HostMembers) (base : String) : Edit Unit := do
  let getter ← createMethod? members ("get" ++ Text.capitalize base)
  let setter ← createMethod? members ("set" ++ Text.capitalize base)
  if getter.isSome || setter.isSome then
    define o base (.accessor getter setter .permanent)

/-- Adds the property of a member; a name that the embedder does not implement adds nothing. -/
def addMember (o : ObjectId) (members : HostMembers) (name : String) : Edit Unit := do
  match accessorBase? name with
  | some base => addAccessor o members base
  | none =>
    match members.find? name with
    | some (.method f) =>
      let function ← createNative name (.host f) none
      define o name (.data (.object function) .permanent)
    | some (.value v) => define o name (.data v .permanent)
    | none => return

/-- Makes the listed members accessible one after the other. -/
def addMembers (o : ObjectId) (members : HostMembers) (names : List String) : Edit Unit :=
  names.forM (addMember o members)

end Movie

/-- A class that the embedder implements. -/
structure HostClassSpec where
  name : String
  /-- What a call without `new` runs; nothing if missing. -/
  call : Option HostFunction := none
  /-- What constructs; if missing, plain instances of the prototype are made. -/
  construct : Option HostFunction := none
  /-- What runs on the static state when it is first asked for. -/
  initializer : Option HostFunction := none
  statics : HostMembers := .empty
  staticNames : List String := []
  members : HostMembers := .empty
  memberNames : List String := []

/-- Adds a class of the embedder and gives its constructor and its prototype. -/
def Movie.addHostClass (spec : HostClassSpec) : Edit (ObjectId × ObjectId) := do
  let call := (spec.call.map Code.host).getD (.builtin .nothing)
  let construct := (spec.construct.map Code.host).getD (.builtin .instantiate)
  let c ← createNative spec.name call (some construct)
  let prototype ← createObject
  linkConstructor c prototype
  if let some f := spec.initializer then
    modify fun m => { m with initializers := m.initializers.insert c (.host f) }
  addMembers c spec.statics spec.staticNames
  addMembers prototype spec.members spec.memberNames
  return (c, prototype)

end ActionScript
