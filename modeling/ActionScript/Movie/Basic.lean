import ActionScript.Heap.Collect
import ActionScript.Movie.Assets
import ActionScript.Movie.Observers
import ActionScript.Movie.Random
import ActionScript.Number.Decimal
import ActionScript.Settings

/-! # Movies

The state of one movie: its heap, the built-in objects, and the registries that all of its
objects share. An `Edit` reads and changes a movie without running any code. -/

namespace ActionScript

/-- The built-in objects, which are live as long as the movie is. -/
structure Intrinsics where
  object : ObjectId := ⟨0⟩
  objectPrototype : ObjectId := ⟨0⟩
  function : ObjectId := ⟨0⟩
  functionPrototype : ObjectId := ⟨0⟩
  array : ObjectId := ⟨0⟩
  arrayPrototype : ObjectId := ⟨0⟩
  number : ObjectId := ⟨0⟩
  numberPrototype : ObjectId := ⟨0⟩
  boolean : ObjectId := ⟨0⟩
  booleanPrototype : ObjectId := ⟨0⟩
  string : ObjectId := ⟨0⟩
  stringPrototype : ObjectId := ⟨0⟩
  date : ObjectId := ⟨0⟩
  datePrototype : ObjectId := ⟨0⟩
  math : ObjectId := ⟨0⟩
  error : ObjectId := ⟨0⟩
  errorPrototype : ObjectId := ⟨0⟩
deriving DecidableEq

/-- The roots that every movie has from the start on. -/
def Intrinsics.all (i : Intrinsics) : List ObjectId :=
  [i.object, i.objectPrototype, i.function, i.functionPrototype, i.array, i.arrayPrototype,
    i.number, i.numberPrototype, i.boolean, i.booleanPrototype, i.string, i.stringPrototype,
    i.date, i.datePrototype, i.math, i.error, i.errorPrototype]

/-- A class that the embedder implements. -/
structure HostClass where
  index : Nat
deriving DecidableEq, Inhabited

/-- An interpreter of action blocks that the embedder has installed. -/
structure Executor where
  index : Nat
deriving DecidableEq, Inhabited

/-- A class that owns static state. -/
inductive ClassKey where
  | host (cls : HostClass)
  | object (constructor : ObjectId)
deriving DecidableEq

/-- The constructor of a class that a script has defined. -/
def ClassKey.object? : ClassKey → Option ObjectId
  | host _ => none
  | object constructor => some constructor

/-- The state of a movie. -/
structure Movie where
  settings : Settings := {}
  heap : Heap := {}
  intrinsics : Intrinsics := {}
  /-- The object `_global`. -/
  global : ObjectId := ⟨0⟩
  /-- How many pins keep an object alive. -/
  pins : Table ObjectId Nat := .empty
  staticStates : Table ClassKey ObjectId := .empty
  /-- What runs when the static state of a class is first asked for. -/
  initializers : Table ObjectId Code := .empty
  observers : Observers := {}
  actions : ActionsStore := {}
  assets : Assets := {}
  executor : Option Executor := none
  random : UInt64 := 1

/-- What reads and changes a movie without running any code. -/
abbrev Edit := StateM Movie

namespace Movie

/-- The key of a name in the movie. -/
def normalize (m : Movie) (name : String) : String := m.settings.normalize name

/-- Changes the heap by a function that also gives an answer. -/
def onHeap {α : Type} (f : Heap → α × Heap) : Edit α := fun m =>
  let (a, heap) := f m.heap
  (a, { m with heap })

/-- Changes the heap. -/
def modifyHeap (f : Heap → Heap) : Edit Unit := onHeap fun h => ((), f h)

/-! ## Creating objects -/

/-- Creates an object without slots. -/
def create (prototype : Option ObjectId) (kind : Kind) : Edit ObjectId :=
  onHeap fun h => h.allocate { prototype, kind }

/-- A plain object that inherits from the given one, which need not be live. -/
def createWithPrototype (prototype : Option ObjectId) : Edit ObjectId := create prototype .plain

/-- A plain object that inherits from `Object.prototype`. -/
def createObject : Edit ObjectId := do
  createWithPrototype (some (← get).intrinsics.objectPrototype)

/-! ## Slots by name -/

/-- The slot that an object itself has under a name. -/
def own? (m : Movie) (o : ObjectId) (name : String) : Option Property :=
  m.heap.own? o (m.normalize name)

/-- The nearest slot of a name, which may be inherited. -/
def find? (m : Movie) (o : ObjectId) (name : String) : Option Property :=
  (m.heap.find? o (m.normalize name)).map Prod.snd

def hasOwn (m : Movie) (o : ObjectId) (name : String) : Bool := (m.own? o name).isSome

/-- Whether a name leads to a slot, which may be inherited. -/
def has (m : Movie) (o : ObjectId) (name : String) : Bool := (m.find? o name).isSome

/-- Whether a write to a name would be accepted. -/
def canPut (m : Movie) (o : ObjectId) (name : String) : Bool :=
  m.heap.canPut o (m.normalize name)

/-- The slot with a spelling to enumerate it by, where case does not count and it has none. -/
def spelled (m : Movie) (name : String) (p : Property) : Property :=
  if m.settings.caseSensitive then p else { p with spelling := p.spelling <|> some name }

/-- Stores a slot under a key, to be enumerated by the given name. -/
def storeAs (o : ObjectId) (key name : String) (p : Property) : Edit Unit := do
  let m ← get
  modifyHeap (·.store o key (m.spelled name p))

/-- Stores a slot whatever the attributes of the one before are. -/
def define (o : ObjectId) (name : String) (p : Property) : Edit Unit := do
  storeAs o ((← get).normalize name) name p

/-- Drops a slot whatever its attributes are, and tells whether there was one. -/
def deleteOwn (o : ObjectId) (name : String) : Edit Bool := do
  let m ← get
  let key := m.normalize name
  let present := (m.heap.slot? o key).isSome
  modifyHeap (·.remove o key)
  return present

/-- Sets the watcher of the nearest slot, which may be inherited, and tells whether there is one.
The prototype link cannot be watched. -/
def setWatcher (o : ObjectId) (name : String) (watcher : Option Watcher) : Edit Bool := do
  let m ← get
  let key := m.normalize name
  match m.heap.find? o key with
  | none => return false
  | some (owner, _) =>
    let present := (m.heap.slot? owner key).isSome
    modifyHeap (·.modifySlot owner key fun p => { p with watcher })
    return present

/-- Links an object to a prototype, and tells whether it could be linked. -/
def setPrototype (o : ObjectId) (prototype : Option ObjectId) : Edit Bool :=
  onHeap (·.setPrototype o prototype)

/-- Changes the attributes that scripts may change, of the named own slots or of all. -/
def setFlags (o : ObjectId) (names : Option (List String)) (set clear : Flags) : Edit Unit := do
  let m ← get
  let keys :=
    match names with
    | some names => names.map m.normalize
    | none => ((m.heap.get? o).map fun (object : Object) => object.properties.keys).getD []
  modifyHeap fun h => keys.foldl (fun h key => h.modifySlot o key (·.adjust set clear)) h

/-! ## Enumeration -/

/-- The name that enumeration shows for a slot. -/
def shownName (m : Movie) (key : String) (p : Property) : String :=
  if m.settings.caseSensitive then key else p.spelling.getD key

/-- The keys of the enumerable slots of an object with the names that are shown. -/
def enumerable (m : Movie) (o : ObjectId) : List (String × String) :=
  match m.heap.get? o with
  | none => []
  | some object =>
    (object.properties.entries.filter fun e => e.2.isEnumerable).map fun e =>
      (e.1, m.shownName e.1 e.2)

/-- The names of the enumerable slots of an object in their order. -/
def ownKeys (m : Movie) (o : ObjectId) : List String := (m.enumerable o).map Prod.snd

/-- Drops the entries whose key stands earlier in the list or among the given keys. -/
def firstOfKey (seen : List String) : List (String × String) → List (String × String)
  | [] => []
  | e :: rest =>
    if seen.contains e.1 then firstOfKey seen rest else e :: firstOfKey (e.1 :: seen) rest

/-- The names along the prototype chain, nearest first, one for each key. -/
def allKeys (m : Movie) (o : ObjectId) : List String :=
  (firstOfKey [] ((m.heap.chain o).flatMap m.enumerable)).map Prod.snd

/-! ## Life of objects -/

/-- Keeps an object alive. Pins add up. -/
def pin (o : ObjectId) : Edit Unit :=
  modify fun m => { m with pins := m.pins.insert o ((m.pins.find? o).getD 0 + 1) }

/-- The pins without one of those of an object. -/
def dropPin (pins : Table ObjectId Nat) (o : ObjectId) : Table ObjectId Nat :=
  match pins.find? o with
  | none => pins
  | some n => if n ≤ 1 then pins.erase o else pins.insert o (n - 1)

/-- Takes one pin of an object back. -/
def unpin (o : ObjectId) : Edit Unit := modify fun m => { m with pins := dropPin m.pins o }

/-- What a collection keeps alive beside the roots that the embedder names. -/
def roots (m : Movie) : List ObjectId :=
  m.intrinsics.all ++ m.global :: m.staticStates.values ++
    m.staticStates.keys.filterMap ClassKey.object? ++ m.initializers.keys ++
    m.assets.classes.values ++ m.pins.keys

/-- Frees what neither the movie nor the given roots reach, and counts it. -/
def collectGarbage (extra : List ObjectId) : Edit Nat := do
  let m ← get
  onHeap (·.collect (m.roots ++ extra))

/-! ## Registries -/

/-- Records the static state of a class. -/
def recordStatic (key : ClassKey) (state : ObjectId) : Edit Unit :=
  modify fun m => { m with staticStates := m.staticStates.insert key state }

/-- Binds a class to an exported symbol, and tells whether there is one. -/
def registerClass (name : String) (cls : ObjectId) : Edit Bool := fun m =>
  let (registered, assets) := m.assets.registerClass name cls
  (registered, { m with assets })

/-! ## Random numbers and descriptions -/

/-- The next random number, from 0 up to but not 1. -/
def nextRandom : Edit Number := do
  let x := Random.step (← get).random
  modify fun m => { m with random := x }
  return Random.value x

/-- A short description of a value for error messages. -/
def describe (m : Movie) : Value → String
  | .object o =>
    match m.heap.get? o with
    | none => "[collected object]"
    | some object =>
      match object.callable? with
      | some c => if c.name.isEmpty then "[type Function]" else c.name
      | none => "[object Object]"
  | .string s => "\"" ++ s ++ "\""
  | .number x => x.text
  | .bool b => if b then "true" else "false"
  | v => v.typeName

end Movie

end ActionScript
