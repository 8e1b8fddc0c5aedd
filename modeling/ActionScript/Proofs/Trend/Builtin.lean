import ActionScript.Host
import ActionScript.Proofs.Trend.Machine

/-! # Built-in routines on a trend

Beside calls, a routine makes edits (`Trend.Edits`) and writes and drops properties. Where these
keep to a trend that guides the machine (`Trend.Equips`), so does every routine
(`Trend.Equips.run`), and the machine of an embedder is guided at every depth
(`Trend.guides_machine`). Accessors and watchers are only added by routines that are handed more
than one argument. -/

namespace ActionScript.Trend

variable {σ : Type} [Journal σ]

/-- The edits of the routines keep to the trend. -/
structure Edits (T : Trend σ) (wide : Prop) : Prop where
  box : ∀ v, T.Runs (liftM (Movie.box v))
  createObject : T.Runs (liftM Movie.createObject)
  create : ∀ prototype kind, T.Runs (liftM (Movie.create prototype kind))
  createConstructor : ∀ callable, T.Runs (liftM (Movie.createConstructor callable))
  createDate : ∀ time, T.Runs (liftM (Movie.createDate time))
  createArray : ∀ vs, T.Runs (liftM (Movie.createArray vs))
  setLength : ∀ a n, T.Runs (liftM (Movie.setLength a n))
  setPrototype : ∀ o prototype, T.Runs (liftM (Movie.setPrototype o prototype))
  setFlags : ∀ o names set clear, T.Runs (liftM (Movie.setFlags o names set clear))
  registerClass : ∀ name cls, T.Runs (liftM (Movie.registerClass name cls))
  nextRandom : T.Runs (liftM Movie.nextRandom)
  unwatch : ∀ o name, T.Runs (liftM (Movie.setWatcher o name none))
  watch : wide → ∀ o name w, T.Runs (liftM (Movie.setWatcher o name (some w)))
  addAccessor : wide → ∀ o name getter setter,
    T.Runs (liftM (Movie.define o name (.accessor getter setter {})))

/-- The names of the properties that routines write. -/
def writtenNames : List String := [Movie.lengthKey, "message"]

/-- Everything that a routine does on the machine keeps to the trend. -/
structure Equips (T : Trend σ) (wide : Prop) (m : Machine σ) : Prop extends T.Guides wide m where
  edits : T.Edits wide
  write : ∀ o v, ∀ name ∈ writtenNames, T.Runs (m.write o name v)
  writeElement : ∀ a i v, T.Runs (m.writeKey a (indexKey i) (indexKey i) v)
  deleteElement : ∀ a i, T.Updates (m.deleteKey a (indexKey i))
  instantiate : ∀ c {body : Value → Run σ Value}, (∀ v, T.Runs (body v)) →
    T.Runs (m.instantiate c body)

variable {T : Trend σ} {wide : Prop} {m : Machine σ} (h : T.Equips wide m)

namespace Equips

include h

theorem toObject (v : Value) : T.Runs (m.toObject v) :=
  .bind (h.edits.box v) fun x => .ofExcept x

/-! ## Objects, functions and errors -/

theorem receiverAndName (this : Value) (args : List Value) :
    T.Runs (Builtin.receiverAndName m this args) :=
  .bind (h.toObject this) fun _ => .bind (h.toText _) fun _ => .pure

theorem addAccessor (this : Value) {args : List Value} (hargs : Admits wide args) :
    T.Runs (Builtin.addAccessor m this args) := by
  refine .bind (h.receiverAndName this args) fun on => .movie fun movie => ?_
  dsimp only
  split
  · exact .pure
  · rename_i hcallable
    -- A getter is a function, so it was handed over.
    have hwide : wide := by
      cases hsecond : argument args 1 with
      | object f => exact hargs.wide hsecond
      | _ => simp [hsecond, Heap.isCallable, Value.object?] at hcallable
    exact .bind (h.edits.addAccessor hwide _ _ _ _) fun _ => .pure

theorem addWatcher (this : Value) {args : List Value} (hargs : Admits wide args) :
    T.Runs (Builtin.addWatcher m this args) := by
  refine .bind (h.receiverAndName this args) fun on => ?_
  dsimp only
  split
  · rename_i hsecond
    refine .movie fun movie => ?_
    split
    · exact .bind (h.edits.watch (hargs.wide hsecond) _ _ _) fun _ => .pure
    · exact .pure
  · exact .pure

/-- The methods of every object follow the trend on the arguments it admits. -/
theorem runObject (this : Value) {args : List Value} (hargs : Admits wide args)
    (routine : Builtin.OfObject) : T.Runs (routine.run m this args) := by
  cases routine with
  | convert =>
    rw [Builtin.OfObject.run]
    split
    · exact .bind h.edits.createObject fun _ => .pure
    · exact .bind (h.toObject _) fun _ => .pure
  | registerClass =>
    refine .bind (h.toText _) fun name => ?_
    split
    · exact .bind (h.edits.registerClass name _) fun _ => .pure
    · exact .pure
  | text => exact .movie fun _ => .pure
  | self => exact .pure
  | hasOwnProperty | isPropertyEnumerable =>
    exact .bind (h.receiverAndName this args) fun _ => .movie fun _ => .pure
  | isPrototypeOf => exact .bind (h.toObject this) fun _ => .movie fun _ => .pure
  | addProperty => exact h.addAccessor this hargs
  | watch => exact h.addWatcher this hargs
  | unwatch =>
    exact .bind (h.receiverAndName this args) fun _ =>
      .bind (h.edits.unwatch _ _) fun _ => .pure

theorem runFunction (this : Value) {args : List Value} (hargs : Admits wide args)
    (routine : Builtin.OfFunction) : T.Runs (routine.run m this args) := by
  cases routine with
  | create => exact .bind (h.edits.createConstructor _) fun _ => .pure
  | call => exact h.callValue this _ hargs.drop
  | apply =>
    rw [Builtin.OfFunction.run]
    split
    · rename_i hsecond
      exact .bind (h.elements _) fun _ => h.callValue this _ (.inl (hargs.wide hsecond))
    · exact h.callValue this _ admits_nil

theorem constructError (constructor : Value) (args : List Value) :
    T.Runs (Builtin.constructError m constructor args) := by
  refine .movie fun movie => .bind (h.instancePrototype constructor _) fun p => ?_
  refine .bind (h.edits.create _ _) fun o => ?_
  dsimp only
  split
  · exact .bind (h.write o _ _ (by decide)) fun _ => .pure
  · exact .pure

theorem runError (this : Value) (args : List Value) (routine : Builtin.OfError) :
    T.Runs (routine.run m this args) := by
  cases routine with
  | call => exact .movie fun _ => h.constructError _ args
  | construct => exact h.constructError this args
  | text =>
    exact .bind (h.toObject this) fun o => .bind (h.read o _) fun v =>
      .bind (h.toText v) fun _ => .pure

/-! ## Arrays -/

theorem receiverAndLength (this : Value) : T.Runs (Builtin.receiverAndLength m this) :=
  .bind (h.toObject this) fun a => .bind (h.read a _) fun length =>
    .bind (h.toUInt32 length) fun _ => .pure

/-- Writing successive elements follows the trend, by induction on the values. -/
theorem writeFrom (a : ObjectId) (i : Nat) (vs : List Value) :
    T.Runs (Builtin.writeFrom m a i vs) := by
  induction vs generalizing i with
  | nil => exact .pure
  | cons v rest ih => exact .bind (h.writeElement a i v) fun _ => ih (i + 1)

/-- A push follows the trend: it writes elements and then the length. -/
theorem pushAll (this : Value) (args : List Value) : T.Runs (Builtin.pushAll m this args) :=
  .bind (h.receiverAndLength this) fun al => .bind (h.writeFrom al.1 _ args) fun _ =>
    .bind (h.write al.1 _ _ (by decide)) fun _ => .pure

/-- A pop follows the trend: it reads and deletes a slot, then writes the length. -/
theorem popLast (this : Value) : T.Runs (Builtin.popLast m this) := by
  refine .bind (h.receiverAndLength this) fun al => ?_
  dsimp only
  split
  · exact .bind (h.write al.1 _ _ (by decide)) fun _ => .pure
  · refine .bind (h.readKey al.1 _) fun value => ?_
    refine .bind (.discard (.lift (h.deleteElement al.1 _))) ?_
    exact fun _ => .bind (h.write al.1 _ _ (by decide)) fun _ => .pure

/-- Joining reads the elements and writes them as text. -/
theorem joinElements (a : ObjectId) (separator : String) :
    T.Runs (Builtin.joinElements m a separator) :=
  .bind (h.elements a) fun vs => .bind (.mapM h.toText vs) fun _ => .pure

/-- Array methods follow the trend, whatever their arguments. -/
theorem runArray (this : Value) (args : List Value) (routine : Builtin.OfArray) :
    T.Runs (routine.run m this args) := by
  cases routine with
  | create =>
    unfold Builtin.OfArray.run
    dsimp only
    split
    · exact .bind (h.edits.createArray []) fun a => .bind (h.edits.setLength a _) fun _ => .pure
    · exact .bind (h.edits.createArray args) fun _ => .pure
  | push => exact h.pushAll this args
  | pop => exact h.popLast this
  | join =>
    refine .bind (h.toObject this) fun a => ?_
    split
    · exact .bind .pure fun separator => h.joinElements a separator
    · exact .bind (h.toText _) fun separator => h.joinElements a separator
  | text => exact .bind (h.toObject this) fun a => h.joinElements a _

/-! ## Numbers and truth values -/

theorem receiverNumber (this : Value) : T.Runs (Builtin.receiverNumber m this) := by
  cases this with
  | object o =>
    refine .movie fun movie => ?_
    split <;> exact .pure
  | _ => exact h.toNumber _

theorem boxAs (constructor value : Value) : T.Runs (Builtin.boxAs m constructor value) :=
  .bind (h.toObject value) fun o => .movie fun _ =>
    .bind (h.instancePrototype constructor _) fun _ =>
      .bind (.discard (h.edits.setPrototype o _)) fun _ => .pure

theorem firstNumber (args : List Value) : T.Runs (Builtin.firstNumber m args) := by
  cases args with
  | nil => exact .pure
  | cons v _ => exact h.toNumber v

theorem numberText (this : Value) (args : List Value) :
    T.Runs (Builtin.numberText m this args) := by
  refine .bind (h.receiverNumber this) fun x => ?_
  dsimp only
  split
  · exact .pure
  · exact .bind (h.toInt32 _) fun _ => .pure

theorem runNumber (this : Value) (args : List Value) (routine : Builtin.OfNumber) :
    T.Runs (routine.run m this args) := by
  cases routine with
  | call => exact .bind (h.firstNumber args) fun _ => .pure
  | construct => exact .bind (h.firstNumber args) fun x => h.boxAs this _
  | text => exact h.numberText this args
  | self => exact .bind (h.receiverNumber this) fun _ => .pure

theorem runBoolean (this : Value) (args : List Value) (routine : Builtin.OfBoolean) :
    T.Runs (routine.run m this args) := by
  cases routine with
  | call => exact .pure
  | construct => exact h.boxAs this _
  | text => exact .movie fun _ => .pure
  | self => exact .movie fun _ => .pure

theorem foldNumbers (f : Number → Number → Number) (acc : Number) (args : List Value) :
    T.Runs (Builtin.foldNumbers m f acc args) := by
  induction args generalizing acc with
  | nil => exact .pure
  | cons v rest ih =>
    refine .bind (h.toNumber v) fun x => ?_
    split
    · exact .pure
    · exact ih _

theorem mapNumber (f : Number → Number) (args : List Value) :
    T.Runs (Builtin.mapNumber m f args) :=
  .bind (h.toNumber _) fun _ => .pure

/-- The functions of numbers only convert their arguments. -/
theorem runMath (args : List Value) (routine : Builtin.OfMath) : T.Runs (routine.run m args) := by
  cases routine with
  | abs | floor | ceil | sqrt | round => exact h.mapNumber _ args
  | max | min => exact h.foldNumbers _ _ args
  | pow => exact .bind (h.toNumber _) fun _ => .bind (h.toNumber _) fun _ => .pure
  | random => exact .bind h.edits.nextRandom fun _ => .pure

/-! ## Texts -/

theorem receiverText (this : Value) : T.Runs (Builtin.receiverText m this) := by
  refine .movie fun movie => ?_
  split
  · exact .pure
  · exact h.toText this

theorem firstText (args : List Value) : T.Runs (Builtin.firstText m args) := by
  cases args with
  | nil => exact .pure
  | cons v _ => exact h.toText v

theorem position (v : Value) (bound : Nat) : T.Runs (Builtin.position m v bound) :=
  .bind (h.toInteger v) fun _ => .pure

theorem unitAt (this : Value) (args : List Value) : T.Runs (Builtin.unitAt m this args) := by
  refine .bind (h.receiverText this) fun text => .bind (h.toInteger _) fun index => ?_
  split <;> exact .pure

theorem findPart (this : Value) (args : List Value) : T.Runs (Builtin.findPart m this args) := by
  refine .bind (h.receiverText this) fun text => .bind (h.toText _) fun part => ?_
  refine .bind (h.position _ _) fun start => ?_
  split <;> exact .pure

theorem cutPart (this : Value) (args : List Value) : T.Runs (Builtin.cutPart m this args) := by
  refine .bind (h.receiverText this) fun text => .bind (h.toInteger _) fun start => ?_
  dsimp only
  split
  · exact .pure
  · exact .bind (h.position _ _) fun _ => .pure

/-- Text methods follow the trend on any receiver. -/
theorem runString (this : Value) (args : List Value) (routine : Builtin.OfString) :
    T.Runs (routine.run m this args) := by
  cases routine with
  | call => exact .bind (h.firstText args) fun _ => .pure
  | construct =>
    refine .bind (h.firstText args) fun s => .bind (h.toObject _) fun o => .movie fun movie => ?_
    refine .bind (h.instancePrototype this _) fun p => ?_
    exact .bind (.discard (h.edits.setPrototype o _)) fun _ => .pure
  | self | toUpperCase | toLowerCase => exact .bind (h.receiverText this) fun _ => .pure
  | charAt => exact h.unitAt this args
  | indexOf => exact h.findPart this args
  | substr => exact h.cutPart this args

/-! ## Dates -/

theorem timeOfArguments (c : Calendar.Almanac) (args : List Value) :
    T.Runs (Builtin.timeOfArguments c m args) := by
  unfold Builtin.timeOfArguments
  split
  · exact .lift h.services.now
  · exact h.toNumber _
  · exact .bind (.mapM h.toNumber _) fun _ => .pure

/-- Date methods follow the trend, whichever calendar they compute by. -/
theorem runDate (this : Value) (args : List Value) (routine : Builtin.OfDate) :
    T.Runs (routine.run m this args) := by
  cases routine with
  | call => exact .bind (.lift h.services.now) fun _ => .pure
  | construct =>
    refine .bind (h.timeOfArguments _ args) fun time => .bind (h.edits.createDate time) fun o => ?_
    refine .movie fun movie => .bind (h.instancePrototype this _) fun p => ?_
    exact .bind (.discard (h.edits.setPrototype o _)) fun _ => .pure
  | time => exact .movie fun _ => .pure
  | text => exact .movie fun _ => .pure

/-! ## All routines -/

theorem slotNames (v : Value) : T.Runs (Builtin.slotNames m v) := by
  rw [Builtin.slotNames]
  split
  · exact .pure
  · refine .movie fun movie => ?_
    split
    · exact .bind (h.elements _) fun vs => .bind (.mapM h.toText vs) fun _ => .pure
    · exact .bind (h.toText v) fun _ => .pure

theorem adjustSlots (args : List Value) : T.Runs (Builtin.adjustSlots m args) := by
  rw [Builtin.adjustSlots]
  split
  · refine .bind (h.slotNames _) fun names => .bind (h.toInt32 _) fun set => ?_
    refine .bind (h.toInt32 _) fun clear => ?_
    exact .bind (h.edits.setFlags _ names _ _) fun _ => .pure
  · exact .pure

/-- Every builtin routine follows the trend on arguments it admits. -/
theorem run (routine : Builtin) (this : Value) {args : List Value} (hargs : Admits wide args) :
    T.Runs (routine.run m this args) := by
  cases routine with
  | nothing => exact .pure
  | instantiate =>
    cases this with
    | object c =>
      rw [Builtin.run]
      exact h.instantiate c fun _ => .pure
    | _ => exact .pure
  | setFlags => exact h.adjustSlots args
  | object routine => exact h.runObject this hargs routine
  | function routine => exact h.runFunction this hargs routine
  | error routine => exact h.runError this args routine
  | array routine => exact h.runArray this args routine
  | number routine => exact h.runNumber this args routine
  | boolean routine => exact h.runBoolean this args routine
  | math routine => exact h.runMath args routine
  | string routine => exact h.runString this args routine
  | date routine => exact h.runDate this args routine

end Equips

/-! ## Machines of embedders -/

/-- A machine follows the trend at any depth of calls, if its host does. -/
theorem guides_machine {host : Host σ} (hequips : ∀ {m}, T.Guides wide m → T.Equips wide m)
    (hhost : ∀ {m}, T.Guides wide m → T.Serves (host m)) (depth : Nat) :
    T.Guides wide (host.machine depth) := by
  induction depth with
  | zero =>
    exact ⟨⟨fun _ _ _ => .throw, fun _ _ => .throw, fun _ _ => .pure, fun _ _ _ => .throw,
      fun _ _ _ _ _ _ => .throw, fun _ _ => .pure, fun _ => .throw, .pure⟩,
      fun _ _ _ _ => .throw⟩
  | succ n ih =>
    have hserves := hhost ih
    exact ⟨⟨hserves.function, hserves.initializeClass, hserves.notify, hserves.executeActions,
      hserves.executeFunction, hserves.resolveTarget, hserves.checkTimeout, hserves.now⟩,
      (hequips ih).run⟩

end ActionScript.Trend
