import ActionScript.Command.Literal
import ActionScript.Text.Quoted
import ActionScript.Text.Split

/-! # Commands

A command line names a conversion and writes a value. Its answer is the converted value on the
standard output or an error on the standard error output. -/

namespace ActionScript

/-- The conversions that a command may name. -/
inductive Operation where
  | toString
  | toNumber
  | toInt32
  | toBoolean
  | normalize
deriving DecidableEq

/-- The conversion of a name. -/
def Operation.ofName? (name : String) : Option Operation :=
  [("to-string", toString), ("to-number", toNumber), ("to-int32", toInt32),
    ("to-boolean", toBoolean), ("normalize", normalize)].lookup name

/-- Why a command has no answer. -/
inductive CommandError where
  | unknownOperation (name : String)
  | badLiteral (error : LiteralError)
  | failed (error : Error)
deriving DecidableEq

/-- What is reported of an error. -/
def CommandError.message : CommandError → String
  | unknownOperation name =>
    "unknown operation `" ++ name ++
      "` (expected to-string, to-number, to-int32, to-boolean or normalize)"
  | badLiteral error => "bad literal: " ++ error.message
  | failed error => error.message

namespace Command

variable {σ : Type} [Journal σ]

/-- The text of a converted value; texts are quoted. -/
def convert (m : Machine σ) (v : Value) : Operation → Run σ String
  | .toString => return Text.quote (← m.toText v)
  | .toNumber => return (← m.toNumber v).text
  | .toInt32 => return toString (← m.toInt32 v)
  | .toBoolean => return if v.truthy then "true" else "false"
  | .normalize => return Text.quote (← m.toKey v)

/-- Runs a command. A bad literal is reported before an unknown operation. -/
def run (m : Machine σ) (line : String) : Update σ (Except CommandError String) := do
  let cs := Text.trim line.toList
  let name := String.ofList (cs.takeWhile fun c => !Text.isBlank c)
  match ← (Literal.create ((cs.dropWhile fun c => !Text.isBlank c).drop 1)).run with
  | .error error => return .error (.badLiteral error)
  | .ok v =>
    match Operation.ofName? name with
    | none => return .error (.unknownOperation name)
    | some operation =>
      match ← (convert m v operation).run with
      | .ok text => return .ok text
      | .error error => return .error (.failed error)

/-- A piece of text for one of the two outputs. -/
inductive Output where
  | out (text : String)
  | err (text : String)
deriving DecidableEq

/-- The line that a command answers with. -/
def answer (m : Machine σ) (line : String) : Update σ Output := do
  match ← run m line with
  | .ok text => return .out (text ++ "\n")
  | .error error => return .err ("Error: " ++ error.message ++ "\n")

/-- Whether a piece of text goes to the standard error output. -/
def Output.isError : Output → Bool
  | .out _ => false
  | .err _ => true

/-- Whether a line of a script is blank or a comment. -/
def isIgnored (line : String) : Bool :=
  match Text.trim line.toList with
  | [] => true
  | c :: _ => c = '#'

/-- The answers to the lines of a script. -/
def runLines (m : Machine σ) (lines : List String) : Update σ (List Output) :=
  (lines.filter fun line => !isIgnored line).mapM (answer m)

/-- The exit status after a script: 1 if a command failed. -/
def status (outputs : List Output) : UInt32 := if outputs.any Output.isError then 1 else 0

/-- The lines of a text; the last one may lack its end. -/
def lines (text : String) : List String :=
  let parts := Text.split '\n' text
  match parts.getLast? with
  | some "" => parts.dropLast
  | _ => parts

/-! ## Dialogue -/

/-- What is shown before the first prompt of a dialogue. -/
def banner (s : Settings) : String :=
  "avm1 v0.1.0 (swf version " ++ toString s.version ++ ")\n" ++
    "Type `<op> <literal>`, e.g. `to-string [1, 0.1]`. Press Ctrl-D to exit.\n"

def prompt : String := "> "

/-- The answer to a line of a dialogue, where a blank line has none. -/
def respond (m : Machine σ) (line : String) : Update σ (List Output) := do
  if (Text.trim line.toList).isEmpty then return [] else return [← answer m line]

/-- A dialogue over the lines of an input up to its end. -/
def dialogue (m : Machine σ) (input : List String) : Update σ (List Output) := do
  let s := (← getMovie).settings
  let answers ← input.mapM fun line => return .out prompt :: (← respond m line)
  return .out (banner s) :: answers.flatten ++ [.out prompt, .out "\n"]

end Command

end ActionScript
