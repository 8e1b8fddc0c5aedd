import ActionScript.Command.Basic
import ActionScript.Command.Options
import ActionScript.Host
import ActionScript.Movie.Setup

/-! # The command line

Runs a command, the commands of a file, or a dialogue. -/

namespace ActionScript.Command

/-- How deep conversions may nest. -/
def depth : Nat := 100000

/-- The command line has no interpreter and no functions of its own. -/
def machine : Machine Unit := (Host.bare Unit).machine depth

/-- The movie that the commands share, as it is before the first of them. -/
def start (s : Settings) : State Unit := ⟨Movie.new s, ()⟩

/-- Puts a piece of text out where it belongs. -/
def print : Output → IO Unit
  | .out text => IO.print text
  | .err text => IO.eprint text

/-- Answers the lines of a script in one movie; the answer is the exit status. -/
def runScript (s : Settings) (lines : List String) : IO UInt32 := do
  let outputs := ((runLines machine lines).run (start s)).1
  outputs.forM print
  return status outputs

/-- Prompts for lines and answers them up to the end of the input. -/
partial def converse (input : IO.FS.Stream) (state : State Unit) : IO Unit := do
  IO.print prompt
  (← IO.getStdout).flush
  let line ← input.getLine
  if line.isEmpty then IO.println ""
  else
    let (outputs, state) := (respond machine line).run state
    outputs.forM print
    converse input state

/-- Runs the commands of a file. That the file cannot be read is an error of its own. -/
def runFile (s : Settings) (path : String) : IO UInt32 := do
  match ← (IO.FS.readFile path).toBaseIO with
  | .ok text => runScript s (lines text)
  | .error error =>
    let reason :=
      match error with
      | .noFileOrDirectory .. => "No such file or directory (os error 2)"
      | error => toString error
    IO.eprint (unreadable path reason)
    return 1

def runRequest (s : Settings) : Request → IO UInt32
  | .version => do
    IO.print versionText
    return 0
  | .evaluate text => runScript s [text]
  | .file path => runFile s path
  | .dialogue => do
    IO.print (banner s)
    converse (← IO.getStdin) (start s)
    return 0

end ActionScript.Command

def main (arguments : List String) : IO UInt32 := do
  match ActionScript.Command.readArguments? arguments with
  | some (s, request) => ActionScript.Command.runRequest s request
  | none =>
    IO.eprintln "usage: avm1 [--swf-version N] [--seed N] [-e COMMAND] [FILE]"
    return 2
