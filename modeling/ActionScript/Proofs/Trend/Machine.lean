import ActionScript.Builtin.Object
import ActionScript.Proofs.Correspondence.Basic

/-! # Trends of runs

A trend says where a state may lead, in one step or in many. A computation keeps to a trend if it
leads there from every state, whether it fails or not. What a machine calls, reads and converts
keeps to a trend if its services and its routines do (`Trend.Guides`). A trend that only holds as
long as no routine is handed more than one argument is served as well: the machine itself hands
none to getters and methods, and one to setters. -/

namespace ActionScript

structure Trend (σ : Type) [Journal σ] where
  leads : State σ → State σ → Prop
  refl : ∀ s, leads s s
  trans : leads s t → leads t u → leads s u
  /-- Looking at the movie is a step. -/
  look : ∀ s, leads s (s.after s.movie)

variable {σ α β : Type} [Journal σ]

namespace Trend

variable (T : Trend σ)

def Updates (x : Update σ α) : Prop := ∀ s, T.leads s (x s).2

/-- The run keeps to the trend, whether it fails or not. -/
def Runs (x : Run σ α) : Prop := ∀ s, T.leads s (x s).2

/-- The update keeps to the trend in one state. -/
def UpdatesFrom (s : State σ) (x : Update σ α) : Prop := T.leads s (x s).2

/-- The run that starts in the second state keeps to the trend that began in the first. -/
def RunsSince (s t : State σ) (x : Run σ α) : Prop := T.leads s (x t).2

/-- The run keeps to the trend in one state. -/
abbrev RunsFrom (s : State σ) (x : Run σ α) : Prop := T.RunsSince s s x

variable {T}

/-! ## Updates -/

namespace Updates

theorem pure {a : α} : T.Updates (pure a) := fun s => T.refl s

/-- Updates compose along a trend. -/
theorem bind {x : Update σ α} {f : α → Update σ β} (hx : T.Updates x)
    (hf : ∀ a, T.Updates (f a)) : T.Updates (x >>= f) :=
  fun s => T.trans (hx s) (hf (x s).1 (x s).2)

/-- What follows a look at the movie may depend on what it shows. -/
theorem look {f : Movie → Update σ β}
    (hf : ∀ s : State σ, T.UpdatesFrom (s.after s.movie) (f s.movie)) :
    T.Updates (liftM getMovie >>= f) :=
  fun s => T.trans (T.look s) (hf s)

theorem movie {f : Movie → Update σ β} (hf : ∀ m, T.Updates (f m)) :
    T.Updates (liftM getMovie >>= f) :=
  .look fun s => hf s.movie _

theorem forM {f : α → Update σ PUnit} (hf : ∀ a, T.Updates (f a)) (xs : List α) :
    T.Updates (xs.forM f) := by
  induction xs with
  | nil => exact .pure
  | cons a xs ih => exact .bind (hf a) fun _ => ih

end Updates

/-! ## Runs -/

namespace Runs

theorem pure {a : α} : T.Runs (pure a) := fun s => T.refl s

theorem throw {e : Error} : T.Runs (throw e : Run σ α) := fun s => T.refl s

/-- An update that follows the trend does so as a run. -/
theorem lift {x : Update σ α} (hx : T.Updates x) : T.Runs (liftM x) := hx

/-- What follows a run may depend on where it started. -/
theorem bindSince {x : Run σ α} {f : α → Run σ β} {s t : State σ} (ht : T.leads s t)
    (hx : T.RunsFrom t x) (hf : ∀ a {u}, T.leads s u → T.RunsSince s u (f a)) :
    T.RunsSince s t (x >>= f) := by
  have hu := T.trans ht hx
  rw [RunsSince]
  rcases hresult : x t with ⟨result, u⟩
  rw [hresult] at hu
  cases result with
  | error e =>
    rw [Run.bind_error hresult]
    exact hu
  | ok a =>
    rw [Run.bind_ok hresult]
    exact hf a hu

/-- Runs compose along a trend: its leading is transitive. -/
theorem bind {x : Run σ α} {f : α → Run σ β} (hx : T.Runs x) (hf : ∀ a, T.Runs (f a)) :
    T.Runs (x >>= f) :=
  fun s => bindSince (T.refl s) (hx s) fun a _ hu => T.trans hu (hf a _)

/-- What follows a look at the movie may depend on what it shows. -/
theorem look {f : Movie → Run σ β}
    (hf : ∀ s : State σ, T.RunsFrom (s.after s.movie) (f s.movie)) :
    T.Runs (liftM getMovie >>= f) :=
  fun s => T.trans (T.look s) (hf s)

theorem movie {f : Movie → Run σ β} (hf : ∀ m, T.Runs (f m)) : T.Runs (liftM getMovie >>= f) :=
  .look fun s => hf s.movie _

theorem map {x : Run σ α} (hx : T.Runs x) (f : α → β) : T.Runs (f <$> x) :=
  .bind hx fun _ => .pure

theorem discard {x : Run σ α} (hx : T.Runs x) : T.Runs (Functor.discard x) := hx.map _

/-- A run over a list follows the trend when it does at each entry. -/
theorem mapM {f : α → Run σ β} (hf : ∀ a, T.Runs (f a)) (xs : List α) : T.Runs (xs.mapM f) := by
  induction xs with
  | nil => exact .pure
  | cons a xs ih =>
    rw [List.mapM_cons]
    exact .bind (hf a) fun _ => .bind ih fun _ => .pure

theorem ofExcept (x : Except Error α) : T.Runs (MonadExcept.ofExcept x) := by
  cases x with
  | error e => exact .throw
  | ok a => exact .pure

end Runs

/-! ## Machines -/

variable (T) in
structure Serves (services : Services σ) : Prop where
  function : ∀ f this args, T.Runs (services.function f this args)
  initializeClass : ∀ cls state, T.Runs (services.initializeClass cls state)
  notify : ∀ observer key, T.Updates (services.notify observer key)
  executeActions : ∀ executor actions scope,
    T.Runs (services.executeActions executor actions scope)
  executeFunction : ∀ executor f actions scope this args,
    T.Runs (services.executeFunction executor f actions scope this args)
  resolveTarget : ∀ executor target, T.Updates (services.resolveTarget executor target)
  checkTimeout : ∀ executor, T.Runs (services.checkTimeout executor)
  now : T.Updates services.now

/-- The arguments of a call: any, or else one at most. -/
def Admits (wide : Prop) (args : List Value) : Prop := wide ∨ args.length ≤ 1

theorem admits_nil {wide : Prop} : Admits wide [] := .inr (Nat.zero_le 1)

theorem admits_singleton {wide : Prop} (v : Value) : Admits wide [v] := .inr (Nat.le_refl 1)

/-- Fewer arguments are admitted where more are. -/
theorem Admits.drop {wide : Prop} {args : List Value} (h : Admits wide args) :
    Admits wide (args.drop 1) := by
  refine h.imp_right fun hshort => ?_
  rw [List.length_drop]
  omega

/-- Only a call with more than one argument has a second one. -/
theorem Admits.wide {wide : Prop} {args : List Value} {o : ObjectId} (h : Admits wide args)
    (hsecond : argument args 1 = .object o) : wide := by
  refine h.resolve_right fun hshort => ?_
  rw [argument, List.getElem?_eq_none hshort] at hsecond
  cases hsecond

variable (T) in
/-- Everything that the machine calls keeps to the trend. -/
structure Guides (wide : Prop) (m : Machine σ) : Prop where
  services : T.Serves m.services
  builtin : ∀ routine this {args}, Admits wide args → T.Runs (m.builtin routine this args)

namespace Guides

variable {wide : Prop} {m : Machine σ} (h : T.Guides wide m)
include h

/-! ## Calls -/

/-- Code follows the trend on arguments it admits. -/
theorem invoke (code : Code) (this : Value) {args : List Value} (hargs : Admits wide args) :
    T.Runs (m.invoke code this args) := by
  cases code with
  | builtin routine => exact h.builtin routine this hargs
  | host f => exact h.services.function f this args

/-- A call follows the trend: it runs the code of the function, if there is any. -/
theorem call (f : ObjectId) (this : Value) {args : List Value} (hargs : Admits wide args) :
    T.Runs (m.call f this args) := by
  refine .movie fun movie => ?_
  split
  · exact .throw
  · exact h.invoke _ this hargs
  · exact h.invoke _ this hargs
  · split
    · exact .throw
    · exact h.services.executeFunction _ f _ _ this args

theorem callValue (f this : Value) {args : List Value} (hargs : Admits wide args) :
    T.Runs (m.callValue f this args) := by
  cases f with
  | object o => exact h.call o this hargs
  | _ => exact .movie fun _ => .throw

theorem checkTimeout : T.Runs m.checkTimeout := by
  refine .movie fun movie => ?_
  split
  · exact h.services.checkTimeout _
  · exact .pure

theorem executeActions (actions : ActionsId) (scope : ObjectId) :
    T.Runs (m.executeActions actions scope) := by
  refine .movie fun movie => ?_
  split
  · exact h.services.executeActions _ actions scope
  · exact .throw

theorem resolveTarget (target : Value) : T.Updates (m.resolveTarget target) := by
  refine .movie fun movie => ?_
  split
  · exact h.services.resolveTarget _ target
  · exact .pure

theorem broadcast (name : String) : T.Updates (m.broadcast name) :=
  .movie fun _ => .forM (fun observer => h.services.notify observer _) _

/-- A setter gets one argument, which every trend admits. -/
theorem callSetter (o : ObjectId) (setter : Option ObjectId) (v : Value) :
    T.Runs (m.callSetter o setter v) := by
  cases setter with
  | some f => exact .discard (h.call f _ (admits_singleton v))
  | none => exact .pure

/-! ## Reads -/

/-- Reading follows the trend, getters included. -/
theorem readKey (o : ObjectId) (key : String) : T.Runs (m.readKey o key) := by
  refine .movie fun movie => ?_
  split
  · exact .pure
  · split
    · exact .pure
    · exact .pure
    · exact h.call _ _ admits_nil

theorem read (o : ObjectId) (name : String) : T.Runs (m.read o name) :=
  .movie fun _ => h.readKey o _

theorem askMethods (o : ObjectId) (methods : List String) : T.Runs (m.askMethods o methods) := by
  induction methods with
  | nil => exact .pure
  | cons method rest ih =>
    refine .bind (h.read o method) fun f => .movie fun movie => ?_
    split
    · exact h.callValue f _ admits_nil
    · exact ih

theorem defaultValue (o : ObjectId) (hint : Machine.Hint) : T.Runs (m.defaultValue o hint) :=
  h.askMethods o hint.methods

/-! ## Conversions -/

theorem toPrimitive (v : Value) (hint : Machine.Hint) : T.Runs (m.toPrimitive v hint) := by
  cases v with
  | object o => exact h.defaultValue o hint
  | _ => exact .pure

theorem toNumber (v : Value) : T.Runs (m.toNumber v) :=
  .bind (h.toPrimitive v .number) fun _ => .movie fun _ => .pure

theorem toInteger (v : Value) : T.Runs (m.toInteger v) := .bind (h.toNumber v) fun _ => .pure

theorem toInt32 (v : Value) : T.Runs (m.toInt32 v) := .bind (h.toNumber v) fun _ => .pure

theorem toUInt32 (v : Value) : T.Runs (m.toUInt32 v) := .bind (h.toNumber v) fun _ => .pure

theorem readElement (a : ObjectId) (i : Nat) : T.Runs (m.readElement a i) := by
  rw [Machine.readElement]
  split
  · exact .bind h.checkTimeout fun _ => h.readKey a _
  · exact h.readKey a _

theorem elements (a : ObjectId) : T.Runs (m.elements a) :=
  .bind (h.read a _) fun length => .bind (h.toUInt32 length) fun _ =>
    .movie fun _ => .mapM (h.readElement a) _

theorem textOfObject (o : ObjectId) : T.Runs (m.textOfObject o) :=
  .bind (h.defaultValue o .string) fun _ => .movie fun _ => .pure

/-- Writing a value as text follows the trend when writing an array does. -/
theorem textWith {array : ObjectId → Run σ String} (harray : ∀ a, T.Runs (array a)) (v : Value) :
    T.Runs (m.textWith array v) := by
  refine .movie fun movie => ?_
  cases v with
  | object o =>
    dsimp only
    split
    · exact harray o
    · exact h.textOfObject o
  | _ => exact .pure

/-- By induction on the bound, as the printer itself. -/
theorem arrayText (n : Nat) (path : List ObjectId) (a : ObjectId) :
    T.Runs (m.arrayText n path a) := by
  induction n generalizing path a with
  | zero =>
    rw [Machine.arrayText]
    split
    · exact .pure
    · exact .throw
  | succ n ih =>
    rw [Machine.arrayText]
    split
    · exact .pure
    · refine .bind (h.elements a) fun vs => .bind (.mapM (fun v => ?_) vs) fun _ => .pure
      exact h.textWith (ih (a :: path)) v

theorem toText (v : Value) : T.Runs (m.toText v) :=
  .movie fun _ => h.textWith (fun a => h.arrayText _ [] a) v

theorem toKey (v : Value) : T.Runs (m.toKey v) := by
  have hnamed : T.Runs (do let name ← m.toText v; return (← getMovie).normalize name) :=
    .bind (h.toText v) fun _ => .movie fun _ => .pure
  cases v with
  | number x => exact .pure
  | _ => exact hnamed

theorem readAt (o : ObjectId) (key : Value) : T.Runs (m.readAt o key) :=
  .bind (h.toKey key) fun key => h.readKey o key

/-! ## After a write -/

/-- The length of an array keeps to the trend if the two changes of it do. -/
theorem syncLength {s : State σ} {a : ObjectId}
    (hset : ∀ n, T.Runs (liftM (Movie.setLength a n)))
    (htruncate : ∀ {t} n, T.leads s t → T.leads s (t.after (Movie.truncate a n t.movie).2))
    (key : String) : T.RunsFrom s (m.syncLength a key) := by
  refine Runs.bindSince (T.refl s) (T.look s) fun movie t ht => ?_
  dsimp only
  split
  · refine Runs.bindSince ht (h.toNumber _ t) fun n u hu => ?_
    split
    · exact htruncate n hu
    · exact hu
  · split
    · exact ht
    · have hraise : ∀ current i,
          T.Runs (if current ≤ i then Movie.setLength a (i + 1) else pure ()) := by
        intro current i
        split
        · exact hset _
        · exact .pure
      exact T.trans ht (Runs.bind (h.toUInt32 _) (fun current => hraise current _) t)

/-- What follows a write keeps the trend if raising the length of an array does. -/
theorem afterWrite {o : ObjectId} {key : String}
    (hsync : ∀ s : State σ, s.movie.heap.isArray o → T.RunsFrom s (m.syncLength o key)) :
    T.Runs (m.afterWrite o key) := by
  have hannounce : T.Runs (do if (← getMovie).observers.contains key then m.broadcast key) := by
    refine .movie fun movie => ?_
    split
    · exact .lift (h.broadcast key)
    · exact .pure
  refine .look fun s => ?_
  dsimp only
  split
  · rename_i ha
    exact Runs.bindSince (T.refl _) (hsync _ ha) fun _ _ ht => T.trans ht (hannounce _)
  · exact hannounce _

/-- Deleting follows the trend if taking out a slot that may be deleted does. -/
theorem deleteKey {o : ObjectId} {key : String}
    (hremove : ∀ (s : State σ) {p}, s.movie.heap.own? o key = some p → p.isDeletable →
      T.leads s (s.after { s.movie with heap := s.movie.heap.remove o key })) :
    T.Updates (m.deleteKey o key) := by
  refine .look fun s => ?_
  split
  · exact T.refl _
  · rename_i hown
    split
    · rename_i hdeletable
      have htell : T.Updates (do
          if (← getMovie).observers.contains key then m.broadcast key
          return true) := by
        refine .movie fun movie => ?_
        split
        · exact .bind (h.broadcast key) fun _ => .pure
        · exact .pure
      exact T.trans (hremove (s.after s.movie) hown hdeletable) (htell _)
    · exact T.refl _

/-! ## Construction -/

/-- The prototype of what a constructor makes is read from it. -/
theorem instancePrototype (constructor : Value) (fallback : ObjectId) :
    T.Runs (m.instancePrototype constructor fallback) := by
  cases constructor with
  | object c =>
    refine .bind (h.read c _) fun v => ?_
    cases v <;> exact .pure
  | _ => exact .pure

end Guides

end Trend

end ActionScript
