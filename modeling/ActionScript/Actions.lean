import ActionScript.Table
import ActionScript.Text.Quoted

/-! # Action blocks

Compiled action bytes with the name of where they came from. A block is identified by its place
in the store. Asking again for the bytes of a buffer gives the block that was made for them last,
if it has the same name and parent and something still refers to it. -/

namespace ActionScript

/-- The identity of a byte buffer. -/
structure BufferId where
  index : Nat
deriving DecidableEq, Inhabited

/-- The place of an action block in the store. -/
structure ActionsId where
  index : Nat
deriving DecidableEq, Inhabited

/-- A block of action code as it was made: where its bytes come from, its name, and the block it
stands in. -/
structure Actions where
  buffer : BufferId
  bytes : List UInt8
  name : String
  parent : Option ActionsId
deriving DecidableEq

/-- The action blocks of a movie. A block is never dropped from the list, but it is only alive while
something refers to it. -/
structure ActionsStore where
  blocks : Array Actions := #[]
  /-- The block that was made last for each buffer. -/
  latest : Table BufferId ActionsId := .empty
  /-- The references that the embedder holds, one entry each. -/
  held : List ActionsId := []

namespace ActionsStore

/-- The block that was made under a number, whether it is alive or not. -/
def get? (s : ActionsStore) (id : ActionsId) : Option Actions := s.blocks[id.index]?

def name (s : ActionsStore) (id : ActionsId) : String := ((s.get? id).map Actions.name).getD ""

/-- The block that a block stands in. -/
def parent? (s : ActionsStore) (id : ActionsId) : Option ActionsId :=
  (s.get? id).bind Actions.parent

/-- A block and the blocks it came from, at most `n`. -/
def ancestry (s : ActionsStore) : Nat → ActionsId → List ActionsId
  | 0, _ => []
  | n + 1, id => id ::
    match s.parent? id with
    | some parent => s.ancestry n parent
    | none => []

/-- Whether the embedder or one of the given references keeps the block alive. A block keeps its
parent alive. -/
def isAlive (s : ActionsStore) (references : List ActionsId) (id : ActionsId) : Bool :=
  (s.held ++ references).any fun r => (s.ancestry s.blocks.size r).contains id

/-- The shared block of a buffer, if it can be used again. -/
def reusable? (s : ActionsStore) (references : List ActionsId) (buffer : BufferId)
    (name : String) (parent : Option ActionsId) : Option ActionsId := do
  let id ← s.latest.find? buffer
  let block ← s.get? id
  if s.isAlive references id && block.name == name && block.parent == parent then some id
  else none

/-- The block for a buffer under a name and a parent; the embedder holds one more reference. -/
def create (s : ActionsStore) (references : List ActionsId) (buffer : BufferId)
    (bytes : List UInt8) (name : String) (parent : Option ActionsId) :
    ActionsId × ActionsStore :=
  match s.reusable? references buffer name parent with
  | some id => (id, { s with held := id :: s.held })
  | none =>
    let id : ActionsId := ⟨s.blocks.size⟩
    (id, {
      blocks := s.blocks.push ⟨buffer, bytes, name, parent⟩
      latest := s.latest.insert buffer id
      held := id :: s.held })

/-- The embedder gives one reference up. -/
def drop (s : ActionsStore) (id : ActionsId) : ActionsStore :=
  { s with held := s.held.erase id }

/-- A description of a block by its name, its size and the name of its parent. -/
def describe (s : ActionsStore) (id : ActionsId) : String :=
  let size := ((s.get? id).map fun a => a.bytes.length).getD 0
  let parent :=
    match s.parent? id with
    | some p => "Some(" ++ Text.quote (s.name p) ++ ")"
    | none => "None"
  "ActionsData \x7b id: " ++ Text.quote (s.name id) ++ ", len: " ++ toString size ++
    ", parent: " ++ parent ++ " \x7d"

end ActionsStore

end ActionScript
