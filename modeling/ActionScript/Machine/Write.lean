import ActionScript.Machine.Convert

/-! # Writing properties

A write first asks the nearest slot of the key whether it may land. It lands in the object's own
slot, passes through an inherited or own setter, or adds a slot; a watcher of the nearest slot
may replace the value. Observers are told when a slot was written. -/

namespace ActionScript.Machine

variable {σ : Type} [Journal σ]

/-- Coordinates of movie clips: adding one of these slots with the value `undefined` is
ignored. -/
def geometryKeys : List String := ["_x", "_y", "_xscale", "_yscale", "_width", "_height"]

/-- Keeps the length of an array above its indices, and drops elements when it shrinks. -/
def syncLength (m : Machine σ) (a : ObjectId) (key : String) : Run σ Unit := do
  let length := (((← getMovie).heap.own? a Movie.lengthKey).map Property.value).getD .undefined
  if key = Movie.lengthKey then
    let n ← m.toNumber length
    if n.isInteger && Number.le 0 n && Number.lt n 0xffffffff then Movie.truncate a n
  else
    match arrayIndex? key with
    | none => return
    | some i =>
      let current ← m.toUInt32 length
      if current ≤ i then Movie.setLength a (i + 1)

/-- What follows a write that landed in an own slot. -/
def afterWrite (m : Machine σ) (o : ObjectId) (key : String) : Run σ Unit := do
  if (← getMovie).heap.isArray o then m.syncLength o key
  if (← getMovie).observers.contains key then m.broadcast key

/-- The value to write, after the watcher of the slot, if any, has seen it. -/
def watched (m : Machine σ) (o : ObjectId) (watcher : Option Watcher) (old new : Value) :
    Run σ Value :=
  match watcher with
  | none => return new
  | some w => m.call w.callback (.object o) [.string w.name, old, new, w.userData]

/-- Writes an own data slot. A watcher may have removed it, and then it is added again. -/
def writeOwn (m : Machine σ) (o : ObjectId) (key name : String) (p : Property) (value : Value) :
    Run σ Unit := do
  let value ← m.watched o p.watcher p.value value
  if ((← getMovie).heap.slot? o key).isSome then
    Movie.modifyHeap (·.modifySlot o key fun p => { p with value })
  else Movie.storeAs o key name (.data value {})
  m.afterWrite o key

/-- Calls the setter of a slot, if it has one, and forgets its answer. -/
def callSetter (m : Machine σ) (o : ObjectId) (setter : Option ObjectId) (value : Value) :
    Run σ Unit :=
  match setter with
  | some setter => discard (m.call setter (.object o) [value])
  | none => return

/-- Passes a write on to the setter of an accessor. -/
def writeThrough (m : Machine σ) (o : ObjectId) (p : Property) (value : Value) : Run σ Unit := do
  let value ←
    match p.watcher with
    | none => pure value
    | some _ =>
      let old ←
        match p.getter with
        | some getter => m.call getter (.object o) []
        | none => pure .undefined
      m.watched o p.watcher old value
  m.callSetter o p.setter value

/-- Adds a slot, with the attributes and the watcher of the inherited one, if any. -/
def writeNew (m : Machine σ) (o : ObjectId) (key name : String) (found : Option Property)
    (value : Value) : Run σ Unit := do
  let value ←
    match found with
    | some p => m.watched o p.watcher p.value value
    | none => pure value
  let flags := (found.map Property.flags).getD {}
  Movie.storeAs o key name (.data value flags)
  m.afterWrite o key

/-- Writes under a key; a slot that is added is enumerated by the given name. -/
def writeKey (m : Machine σ) (o : ObjectId) (key name : String) (value : Value) :
    Run σ Unit := do
  let heap := (← getMovie).heap
  let slot := heap.slot? o key
  if key = Heap.protoKey ∧ slot.isNone then
    discard (Movie.setPrototype o value.object?)
  else if !heap.canPut o key then return
  else
    match slot.filter Property.isData with
    | some p => m.writeOwn o key name p value
    | none =>
      if value.isUndefined && geometryKeys.contains key then return
      match (heap.find? o key).map Prod.snd with
      | some p =>
        if p.isAccessor then m.writeThrough o p value else m.writeNew o key name (some p) value
      | none => m.writeNew o key name none value

/-- Writes a property by its name. -/
def write (m : Machine σ) (o : ObjectId) (name : String) (value : Value) : Run σ Unit := do
  m.writeKey o ((← getMovie).normalize name) name value

/-- Writes a property by a key that a script supplies. -/
def writeAt (m : Machine σ) (o : ObjectId) (key value : Value) : Run σ Unit := do
  match key with
  | .string name => m.write o name value
  | key =>
    let key ← m.toKey key
    m.writeKey o key key value

/-! ## Deletion -/

/-- Deletes an own slot; `false` only if there is one that refuses. -/
def deleteKey (m : Machine σ) (o : ObjectId) (key : String) : Update σ Bool := do
  match (← getMovie).heap.own? o key with
  | none => return true
  | some p =>
    if p.isDeletable then
      Movie.modifyHeap (·.remove o key)
      if (← getMovie).observers.contains key then m.broadcast key
      return true
    else return false

/-- Deletes an own property by its name, and tells whether there was one that could be deleted. -/
def delete (m : Machine σ) (o : ObjectId) (name : String) : Update σ Bool := do
  m.deleteKey o ((← getMovie).normalize name)

end ActionScript.Machine
