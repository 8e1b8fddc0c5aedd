import ActionScript.Settings

/-! # Options of the command line -/

namespace ActionScript.Command

/-- What a call of the program asks for. -/
inductive Request where
  | version
  /-- One command. -/
  | evaluate (text : String)
  /-- The commands of a file. -/
  | file (path : String)
  | dialogue
deriving DecidableEq

/-- What the arguments that were read so far ask for. -/
structure Options where
  swfVersion : Option Nat := none
  seed : Option Nat := none
  text : Option String := none
  path : Option String := none

/-- A numeral of decimal digits below a bound, with an optional plus sign. -/
def numeral? (bound : Nat) (s : String) : Option Nat :=
  let digits :=
    match s.toList with
    | '+' :: rest => rest
    | cs => cs
  if digits.isEmpty || !digits.all Char.isDigit then none
  else
    let n := digits.foldl (fun acc c => acc * 10 + (c.toNat - '0'.toNat)) 0
    if n < bound then some n else none

/-- Sets an option that is not set yet. -/
def Options.set? (o : Options) (name value : String) : Option Options :=
  match name with
  | "--eval" => if o.text.isNone then some { o with text := value } else none
  | "--swf-version" => do
    let n ← numeral? 256 value
    if o.swfVersion.isNone then some { o with swfVersion := n } else none
  | "--seed" => do
    let n ← numeral? 0x10000000000000000 value
    if o.seed.isNone then some { o with seed := n } else none
  | _ => none

/-- The long name of an option and its value, if an argument holds both. -/
def splitOption? (argument : String) : Option (String × String) :=
  match argument.toList with
  | '-' :: '-' :: cs =>
    match cs.dropWhile (· ≠ '=') with
    | _ :: value =>
      some (String.ofList ('-' :: '-' :: cs.takeWhile (· ≠ '=')), String.ofList value)
    | [] => none
  | '-' :: 'e' :: '=' :: value => some ("--eval", String.ofList value)
  | '-' :: 'e' :: c :: value => some ("--eval", String.ofList (c :: value))
  | _ => none

/-- Reads the arguments from left to right; the request for the version ends the reading. -/
def Options.read? (o : Options) : List String → Option (Settings × Request)
  | [] =>
    let settings : Settings :=
      { version := o.swfVersion.getD 10, seed := .ofNat (o.seed.getD 1) }
    some (settings,
      match o.text, o.path with
      | some text, _ => .evaluate text
      | none, some path => .file path
      | none, none => .dialogue)
  | "--version" :: _ => some ({}, .version)
  | "-V" :: _ => some ({}, .version)
  | argument :: rest =>
    match splitOption? argument with
    | some (name, value) => (o.set? name value).bind (·.read? rest)
    | none =>
      if argument.toList.head? = some '-' ∧ argument ≠ "-" then
        match rest with
        | value :: rest =>
          (o.set? (if argument = "-e" then "--eval" else argument) value).bind (·.read? rest)
        | [] => none
      else if o.path.isNone then ({ o with path := argument } : Options).read? rest
      else none

/-- The settings and the request of the arguments, if they can be understood. -/
def readArguments? (arguments : List String) : Option (Settings × Request) :=
  ({} : Options).read? arguments

/-- The answer to a request for the version. -/
def versionText : String := "avm1 0.1.0\n"

/-- The complaint about a file that cannot be read. -/
def unreadable (path reason : String) : String := "Error reading " ++ path ++ ": " ++ reason ++ "\n"

end ActionScript.Command
