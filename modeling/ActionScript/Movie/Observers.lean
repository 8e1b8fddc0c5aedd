import ActionScript.Table

/-! # Observers of event properties

For each key the observers that want to know of changes, in the order in which they were
registered and each at most once. A key without observers has no entry. -/

namespace ActionScript

/-- An observer of the embedder. -/
structure Observer where
  index : Nat
deriving DecidableEq, Inhabited

/-- The observers of each key, in the order in which they came. -/
structure Observers where
  table : Table String (List Observer) := .empty

namespace Observers

/-- The observers of a key in the order in which they are notified. -/
def of (t : Observers) (key : String) : List Observer := (t.table.find? key).getD []

/-- Whether a key has observers. -/
def contains (t : Observers) (key : String) : Bool := t.table.contains key

/-- An observer that is present keeps its place. -/
def register (t : Observers) (key : String) (observer : Observer) : Observers :=
  let present := t.of key
  if observer ∈ present then t else ⟨t.table.insert key (present ++ [observer])⟩

/-- Whether the observer was present, and the observers without it. -/
def unregister (t : Observers) (key : String) (observer : Observer) : Bool × Observers :=
  let present := t.of key
  let rest := present.filter (· ≠ observer)
  (present.contains observer,
    if rest.isEmpty then ⟨t.table.erase key⟩ else ⟨t.table.insert key rest⟩)

end Observers

end ActionScript
