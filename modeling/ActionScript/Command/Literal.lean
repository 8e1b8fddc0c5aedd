import ActionScript.Machine.Convert

/-! # Literals

The values that can be written in a command: `undefined`, `null`, `true`, `false`, `NaN`, numbers,
texts in double quotes, arrays in brackets with commas between the elements; any other word is a
text. A command creates each array as soon as its closing bracket is read (`Literal.create`), so
arrays that were closed before a mistake stay in the movie. What a text means can be said without a
movie as well: it is read first (`Literal.parse`) and built then (`Literal.build`). -/

namespace ActionScript

/-- A value as it is written: one without parts, or an array of such values. -/
inductive Literal where
  | primitive (v : Value)
  | array (elements : List Literal)

/-- What may be wrong with a text that should be a literal. -/
inductive LiteralError where
  | missingValue
  | unterminatedArray
  | unterminatedString
  /-- Something stands after the literal. -/
  | trailingInput (rest : String)
deriving DecidableEq

/-- What is reported of a mistake. -/
def LiteralError.message : LiteralError → String
  | missingValue => "missing value"
  | unterminatedArray => "unterminated array"
  | unterminatedString => "unterminated string"
  | trailingInput rest => "trailing input `" ++ rest ++ "`"

namespace Literal

/-- The value of a word. It is a number if it reads as one in the version of the movie. -/
def ofWord (s : Settings) (word : String) : Value :=
  if word = "undefined" then .undefined
  else if word = "null" then .null
  else if word = "true" then .bool true
  else if word = "false" then .bool false
  else if word = "NaN" then .number .nan
  else
    let x := s.numberOf (.string word)
    if x.isNaN then .string word else .number x

/-- A word reaches up to a comma or a closing bracket. -/
def endsWord (c : Char) : Bool := c = ',' || c = ']'

mutual

/-- Reads a literal in at most `n` steps, and gives what follows it. -/
def read (s : Settings) (n : Nat) (cs : List Char) :
    Except LiteralError (Literal × List Char) :=
  match n with
  | 0 => throw .unterminatedArray
  | n + 1 =>
    match Text.trimStart cs with
    | [] => throw .missingValue
    | '[' :: cs =>
      match Text.trimStart cs with
      | ']' :: cs => return (.array [], cs)
      | cs => do
        let (elements, cs) ← readElements s n cs
        return (.array elements, cs)
    | '"' :: cs =>
      match cs.dropWhile (· ≠ '"') with
      | _ :: rest => return (.primitive (.string (String.ofList (cs.takeWhile (· ≠ '"')))), rest)
      | [] => throw .unterminatedString
    | cs =>
      let word := cs.takeWhile fun c => !endsWord c
      return (.primitive (ofWord s (String.ofList (Text.trimEnd word))),
        cs.dropWhile fun c => !endsWord c)

/-- Reads the elements of an array up to its closing bracket. -/
def readElements (s : Settings) (n : Nat) (cs : List Char) :
    Except LiteralError (List Literal × List Char) :=
  match n with
  | 0 => throw .unterminatedArray
  | n + 1 => do
    let (element, cs) ← read s n cs
    match Text.trimStart cs with
    | ',' :: cs =>
      let (elements, cs) ← readElements s n cs
      return (element :: elements, cs)
    | ']' :: cs => return ([element], cs)
    | _ => throw .unterminatedArray

end

/-- Reads a whole text as a literal. Every two steps consume a character. -/
def parse (s : Settings) (cs : List Char) : Except LiteralError Literal := do
  let (literal, rest) ← read s (2 * cs.length + 2) cs
  match Text.trimStart rest with
  | [] => return literal
  | rest => throw (.trailingInput (String.ofList rest))

mutual

/-- Creates the arrays of a literal, inner ones first. -/
def build : Literal → Edit Value
  | .primitive v => return v
  | .array elements => do
    let values ← buildAll elements
    return .object (← Movie.createArray values)

/-- Creates the arrays of literals from left to right. -/
def buildAll : List Literal → Edit (List Value)
  | [] => return []
  | element :: rest => do
    let v ← build element
    return v :: (← buildAll rest)

end

/-! ## Creating while reading -/

mutual

/-- Reads a literal in at most `n` steps and creates each of its arrays where it ends. Gives the
value and what follows the literal. -/
def createPrefix (n : Nat) (cs : List Char) : ExceptT LiteralError Edit (Value × List Char) :=
  match n with
  | 0 => throw .unterminatedArray
  | n + 1 =>
    match Text.trimStart cs with
    | [] => throw .missingValue
    | '[' :: cs =>
      match Text.trimStart cs with
      | ']' :: cs => do
        let a ← Movie.createArray []
        return (.object a, cs)
      | cs => do
        let (values, cs) ← createElements n cs
        let a ← Movie.createArray values
        return (.object a, cs)
    | '"' :: cs =>
      match cs.dropWhile (· ≠ '"') with
      | _ :: rest => return (.string (String.ofList (cs.takeWhile (· ≠ '"'))), rest)
      | [] => throw .unterminatedString
    | cs => do
      let m ← getThe Movie
      let word := cs.takeWhile fun c => !endsWord c
      return (ofWord m.settings (String.ofList (Text.trimEnd word)),
        cs.dropWhile fun c => !endsWord c)

/-- Creates the elements of an array up to its closing bracket, as they are read. -/
def createElements (n : Nat) (cs : List Char) :
    ExceptT LiteralError Edit (List Value × List Char) :=
  match n with
  | 0 => throw .unterminatedArray
  | n + 1 => do
    let (v, cs) ← createPrefix n cs
    match Text.trimStart cs with
    | ',' :: cs =>
      let (values, cs) ← createElements n cs
      return (v :: values, cs)
    | ']' :: cs => return ([v], cs)
    | _ => throw .unterminatedArray

end

/-- Creates the value of a whole text. A mistake is found after what stands before it is created. -/
def create (cs : List Char) : ExceptT LiteralError Edit Value := do
  let (v, rest) ← createPrefix (2 * cs.length + 2) cs
  match Text.trimStart rest with
  | [] => return v
  | rest => throw (.trailingInput (String.ofList rest))

end Literal

end ActionScript
