import ActionScript.Movie.Functions

/-! # The built-in objects

Creates the built-in classes and the object `_global`. The order of creation fixes the slots of
the objects. -/

namespace ActionScript.Movie

/-- Adds a hidden method to an object. -/
def addMethod (o : ObjectId) (name : String) (routine : Builtin) : Edit Unit := do
  let f ← createNative name (.builtin routine) none
  define o name (.data (.object f) .hidden)

/-- A number that scripts can neither change nor delete. -/
def addConstant (o : ObjectId) (name : String) (x : Number) : Edit Unit :=
  define o name (.data (.number x) .constant)

/-- Shows an object as a property of `_global`. -/
def publish (name : String) (o : ObjectId) : Edit Unit := do
  define (← get).global name (.data (.object o) .hidden)

/-- Adds a class with the given prototype. -/
def addClass (name : String) (prototype : ObjectId) (call construct : Builtin) :
    Edit ObjectId := do
  let c ← createNative name (.builtin call) (some (.builtin construct))
  linkConstructor c prototype
  publish name c
  return c

/-- Methods under their names, one after the other. -/
def addMethods (o : ObjectId) (methods : List (String × Builtin)) : Edit Unit :=
  methods.forM fun (name, routine) => addMethod o name routine

/-- Gives an object its role among the built-in ones. -/
def assign (role : Intrinsics → Intrinsics) : Edit Unit :=
  modify fun m => { m with intrinsics := role m.intrinsics }

/-- Adds a class with a prototype of its own, and gives the prototype and the constructor. -/
def addBuiltinClass (name : String) (call construct : Builtin)
    (prototypeRole classRole : ObjectId → Intrinsics → Intrinsics) :
    Edit (ObjectId × ObjectId) := do
  let prototype ← createObject
  assign (prototypeRole prototype)
  let c ← addClass name prototype call construct
  assign (classRole c)
  return (prototype, c)

/-- The prototypes from which everything inherits, and the global object. -/
def setupRoots (objectPrototype : ObjectId) : Edit Unit := do
  assign fun i => { i with objectPrototype }
  let functionPrototype ←
    create (some objectPrototype) (.function (.native "" (.builtin .nothing) none))
  assign fun i => { i with functionPrototype }
  let global ← createObject
  modify fun m => { m with global }

/-- The class `Object`. -/
def setupObject : Edit Unit := do
  let prototype := (← get).intrinsics.objectPrototype
  let c ← addClass "Object" prototype (.object .convert) (.object .convert)
  assign fun i => { i with object := c }
  addMethod c "registerClass" (.object .registerClass)
  addMethods prototype [("toString", .object .text), ("valueOf", .object .self),
    ("hasOwnProperty", .object .hasOwnProperty),
    ("isPropertyEnumerable", .object .isPropertyEnumerable),
    ("isPrototypeOf", .object .isPrototypeOf), ("addProperty", .object .addProperty),
    ("watch", .object .watch), ("unwatch", .object .unwatch)]

/-- The class `Function`. -/
def setupFunction : Edit Unit := do
  let prototype := (← get).intrinsics.functionPrototype
  let c ← addClass "Function" prototype (.function .create) (.function .create)
  assign fun i => { i with function := c }
  addMethods prototype [("call", .function .call), ("apply", .function .apply)]

/-- The class `Error` with its default message and name. -/
def setupError : Edit Unit := do
  let prototype ← createObject
  assign fun i => { i with errorPrototype := prototype }
  define prototype "message" (.data (.string "Error") .hidden)
  define prototype "name" (.data (.string "Error") .hidden)
  addMethod prototype "toString" (.error .text)
  let c ← addClass "Error" prototype (.error .call) (.error .construct)
  assign fun i => { i with error := c }

/-- The class `Array`. -/
def setupArray : Edit Unit := do
  let (prototype, _) ← addBuiltinClass "Array" (.array .create) (.array .create)
    (fun o i => { i with arrayPrototype := o }) fun o i => { i with array := o }
  addMethods prototype [("push", .array .push), ("pop", .array .pop), ("join", .array .join),
    ("toString", .array .text)]

/-- The class `Number` with its constants. -/
def setupNumber : Edit Unit := do
  let (prototype, c) ← addBuiltinClass "Number" (.number .call) (.number .construct)
    (fun o i => { i with numberPrototype := o }) fun o i => { i with number := o }
  addConstant c "MAX_VALUE" (.ofParts false 0x1fffffffffffff 2045)
  addConstant c "MIN_VALUE" (.ofParts false 1 0)
  addConstant c "NaN" .nan
  addConstant c "POSITIVE_INFINITY" (.infinite false)
  addConstant c "NEGATIVE_INFINITY" (.infinite true)
  addMethods prototype [("toString", .number .text), ("valueOf", .number .self)]

/-- The class `Boolean`. -/
def setupBoolean : Edit Unit := do
  let (prototype, _) ← addBuiltinClass "Boolean" (.boolean .call) (.boolean .construct)
    (fun o i => { i with booleanPrototype := o }) fun o i => { i with boolean := o }
  addMethods prototype [("toString", .boolean .text), ("valueOf", .boolean .self)]

/-- The object `Math`, which is no class. -/
def setupMath : Edit Unit := do
  let math ← createObject
  assign fun i => { i with math }
  publish "Math" math
  addConstant math "PI" (.ofBits 0x400921fb54442d18)
  addConstant math "E" (.ofBits 0x4005bf0a8b145769)
  addMethods math [("abs", .math .abs), ("floor", .math .floor), ("ceil", .math .ceil),
    ("sqrt", .math .sqrt), ("round", .math .round), ("max", .math .max), ("min", .math .min),
    ("pow", .math .pow), ("random", .math .random)]

/-- The class `String`. -/
def setupString : Edit Unit := do
  let (prototype, _) ← addBuiltinClass "String" (.string .call) (.string .construct)
    (fun o i => { i with stringPrototype := o }) fun o i => { i with string := o }
  addMethods prototype [("toString", .string .self), ("valueOf", .string .self),
    ("charAt", .string .charAt), ("indexOf", .string .indexOf),
    ("toUpperCase", .string .toUpperCase), ("toLowerCase", .string .toLowerCase),
    ("substr", .string .substr)]

/-- The class `Date`. -/
def setupDate : Edit Unit := do
  let (prototype, _) ← addBuiltinClass "Date" (.date .call) (.date .construct)
    (fun o i => { i with datePrototype := o }) fun o i => { i with date := o }
  addMethods prototype [("getTime", .date .time), ("valueOf", .date .time),
    ("toString", .date .text)]

/-- The global constants and functions. -/
def setupGlobal : Edit Unit := do
  let global := (← get).global
  addConstant global "NaN" .nan
  addConstant global "Infinity" (.infinite false)
  addMethod global "ASSetPropFlags" .setFlags
  publish "_global" global

/-- Adds what stands on the object that all others inherit from. -/
def setupFrom (objectPrototype : ObjectId) : Edit Unit := do
  setupRoots objectPrototype
  setupObject
  setupFunction
  setupError
  setupArray
  setupNumber
  setupBoolean
  setupMath
  setupString
  setupDate
  setupGlobal

/-- All built-in objects, in the order in which they are created. -/
def setup : Edit Unit := do
  setupFrom (← createWithPrototype none)

/-- A movie with the built-in objects and nothing else. -/
def new (settings : Settings) : Movie :=
  (setup.run { settings, random := Random.start settings.seed }).2

end ActionScript.Movie
