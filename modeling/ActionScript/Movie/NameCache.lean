import Mathlib.Data.List.Nodup
import ActionScript.Number.Decimal
import ActionScript.Settings
import ActionScript.Value

/-! # Remembered keys

Where case does not count, the key of a name is computed when the name is first asked for, and found
in a table from then on. A movie itself has no such table: what is found there is what would be
computed. -/

namespace ActionScript

/-- The keys of the names that were asked for. -/
abbrev NameCache := Std.HashMap String String

namespace NameCache

/-- The key of a name. Where case counts, the name is its own key and nothing is remembered. -/
def keyOfName (s : Settings) (name : String) : StateM NameCache String := do
  if s.caseSensitive then return name
  match (← get)[name]? with
  | some key => return key
  | none =>
    let key := Text.lower name
    modify (·.insert name key)
    return key

/-- The key of a value that a script supplies, where `text` is its text. The text of a number is its
key, which is neither lowered nor remembered. -/
def keyOfValue (s : Settings) (v : Value) (text : String) : StateM NameCache String :=
  match v with
  | .number x => return x.text
  | _ => keyOfName s text

end NameCache

end ActionScript
