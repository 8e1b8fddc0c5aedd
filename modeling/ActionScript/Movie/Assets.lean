import ActionScript.Table
import ActionScript.Text.Case
import ActionScript.Value

/-! # Library assets

Exported names, which never depend on case, lead to the symbols of the movie's library; a symbol
has a description by the embedder and may be bound to a class. -/

namespace ActionScript

/-- The exported symbols of a movie by their names, and the classes that are linked to them. -/
structure Assets where
  symbols : Table String Nat := .empty
  descriptions : Table Nat String := .empty
  classes : Table Nat ObjectId := .empty

/-- A symbol with its description. -/
structure Asset where
  symbol : Nat
  description : String
deriving DecidableEq

/-- What is reported of a symbol. -/
def Asset.describe (a : Asset) : String :=
  "AssetInfo \x7b symbol_id: " ++ toString a.symbol ++ ", .. \x7d"

namespace Assets

/-- Exports a symbol under a name. Its case does not count, and a later symbol of the name takes its
place. -/
def add (t : Assets) (name : String) (symbol : Nat) (description : String) : Assets :=
  { t with
    symbols := t.symbols.insert (Text.lower name) symbol
    descriptions := t.descriptions.insert symbol description }

/-- The symbol that was exported under a name. -/
def find? (t : Assets) (name : String) : Option Asset := do
  let symbol ← t.symbols.find? (Text.lower name)
  let description ← t.descriptions.find? symbol
  return ⟨symbol, description⟩

/-- Binds a class to the symbol that is exported under the name, if there is one. -/
def registerClass (t : Assets) (name : String) (cls : ObjectId) : Bool × Assets :=
  match t.symbols.find? (Text.lower name) with
  | some symbol => (true, { t with classes := t.classes.insert symbol cls })
  | none => (false, t)

/-- The class that is linked to a symbol. -/
def class? (t : Assets) (symbol : Nat) : Option ObjectId := t.classes.find? symbol

end Assets

end ActionScript
