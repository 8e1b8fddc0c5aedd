import ActionScript.Machine.Read
import ActionScript.Movie.Arrays
import ActionScript.Text.Units

/-! # Conversions of values

Some rules depend on the version of the movie: below 7 `undefined` and `null` count as zero and
`undefined` has no text, and below 5 the empty text counts as zero. -/

namespace ActionScript

namespace Settings

/-- The number of a primitive value. An object that stands for no primitive value is not a
number. -/
def numberOf (s : Settings) : Value → Number
  | .undefined => if 7 ≤ s.version then .nan else 0
  | .null => if 7 ≤ s.version then .nan else 0
  | .bool b => .ofNat b.toNat
  | .number x => x
  | .string t =>
    if t.isEmpty then
      if s.version < 5 then 0 else .nan
    else .ofText t
  | .object _ => .nan

/-- The text of a primitive value. -/
def textOf (s : Settings) : Value → String
  | .undefined => if 7 ≤ s.version then "undefined" else ""
  | .null => "null"
  | .bool b => if b then "true" else "false"
  | .number x => x.text
  | .string t => t
  | .object _ => "[type Object]"

end Settings

/-- Whether a value serves as a key without normalization. -/
def Movie.isName (m : Movie) : Value → Bool
  | .number _ => true
  | .string s => m.normalize s == s
  | _ => false

/-- Boxes a primitive value. The box of a text has the number of its units as its length. -/
def Movie.box (v : Value) : Edit (Except Error ObjectId) := do
  let i := (← get).intrinsics
  match v with
  | .undefined => return .error (.notAnObject v)
  | .null => return .error (.notAnObject v)
  | .object o => return .ok o
  | .bool b => .ok <$> create (some i.booleanPrototype) (.boolean b)
  | .number x => .ok <$> create (some i.numberPrototype) (.number x)
  | .string s =>
    let o ← create (some i.stringPrototype) (.string s)
    define o lengthKey (.data (.number (.ofNat (Text.units s).length)) .constant)
    return .ok o

namespace Machine

variable {σ : Type} [Journal σ]

/-- The object of a value; `undefined` and `null` have none, which is an error. -/
def toObject (_ : Machine σ) (v : Value) : Run σ ObjectId := do
  MonadExcept.ofExcept (← Movie.box v)

/-- An object is asked for a value by its own methods, which may run code of a script. -/
def toPrimitive (m : Machine σ) (v : Value) (hint : Hint) : Run σ Value :=
  match v with
  | .object o => m.defaultValue o hint
  | v => return v

/-- The number of a value. An object is asked for a primitive value first. -/
def toNumber (m : Machine σ) (v : Value) : Run σ Number := do
  let v ← m.toPrimitive v .number
  return (← getMovie).settings.numberOf v

/-- The number of a value without its fraction. -/
def toInteger (m : Machine σ) (v : Value) : Run σ Number := return (← m.toNumber v).toInteger

def toInt32 (m : Machine σ) (v : Value) : Run σ Int := return (← m.toNumber v).toInt32

def toUInt32 (m : Machine σ) (v : Value) : Run σ Nat := return (← m.toNumber v).toUInt32

/-! ## Elements of arrays -/

/-- How many elements are read between two checks of the timeout. -/
def timeoutStride : Nat := 1024

/-- Reads an element of an array. Now and then the interpreter is asked whether time is up. -/
def readElement (m : Machine σ) (a : ObjectId) (i : Nat) : Run σ Value := do
  if 0 < i ∧ i % timeoutStride = 0 then m.checkTimeout
  m.readKey a (indexKey i)

/-- The elements below the length, at most as many as the settings allow. -/
def elements (m : Machine σ) (a : ObjectId) : Run σ (List Value) := do
  let length ← m.read a Movie.lengthKey
  let count ← m.toUInt32 length
  let limit := (← getMovie).settings.maxElements
  (List.range (min count limit)).mapM (m.readElement a)

/-! ## Texts -/

/-- The text of an object that is no array. -/
def textOfObject (m : Machine σ) (o : ObjectId) : Run σ String := do
  let p ← m.defaultValue o .string
  let movie ← getMovie
  return if movie.heap.isCallable p then "[type Function]" else movie.settings.textOf p

/-- The text of a value, given what the text of an array is. -/
def textWith (m : Machine σ) (array : ObjectId → Run σ String) (v : Value) : Run σ String := do
  let movie ← getMovie
  match v with
  | .object o => if movie.heap.isArray o then array o else m.textOfObject o
  | v => return movie.settings.textOf v

/-- The text of an array within the arrays of `path`: an array that stands on the path is empty,
any other one is the list of its elements, nested at most `n` deep. -/
def arrayText (m : Machine σ) : Nat → List ObjectId → ObjectId → Run σ String
  | 0, path, a => if path.contains a then return "" else throw .tooDeep
  | n + 1, path, a =>
    if path.contains a then return ""
    else do
      let parts ← (← m.elements a).mapM (m.textWith (m.arrayText n (a :: path)))
      return ",".intercalate parts

/-- The text of a value. The arrays on a path are different objects that the first one leads to, so
nesting is only cut where reading the elements has created more arrays than the depth of the
machine. -/
def toText (m : Machine σ) (v : Value) : Run σ String := do
  let movie ← getMovie
  m.textWith (fun a => m.arrayText (m.depth + movie.heap.extent a) [] a) v

/-- The key of a value. The text of a number is its key, whether case counts or not. -/
def toKey (m : Machine σ) (v : Value) : Run σ String := do
  match v with
  | .number x => return x.text
  | v =>
    let name ← m.toText v
    return (← getMovie).normalize name

/-- Reads a property by a key that a script supplies. -/
def readAt (m : Machine σ) (o : ObjectId) (key : Value) : Run σ Value := do
  m.readKey o (← m.toKey key)

end Machine

end ActionScript
