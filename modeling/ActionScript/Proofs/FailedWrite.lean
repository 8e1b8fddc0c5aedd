import ActionScript.Host
import ActionScript.Movie.Functions
import ActionScript.Movie.Setup
import ActionScript.Proofs.Evaluation

/-! # Writes that fail

A run is quiet if it leaves the heap as it was, whether it fails or not. Where all that a machine
calls is quiet, so are its reads and conversions, and they come before a write lands. One conversion
comes after it: that of the length of an array. So a write that fails has left the heap as it was,
unless it has landed in the length or in an element of an array, and the length of the array is an
object that cannot be converted (`Machine.heap_of_failed_write`). -/

namespace ActionScript

variable {σ α β : Type}

/-! ## Quiet runs -/

namespace Run

/-- The run leaves the heap as it was, whether it fails or not. -/
def Quiet (x : Run σ α) : Prop := ∀ s, (x s).2.movie.heap = s.movie.heap

/-- The run with the heap put back as it was. -/
def hushed (x : Run σ α) : Run σ α := fun s =>
  ((x s).1, { (x s).2 with movie := { (x s).2.movie with heap := s.movie.heap } })

/-- A run without its updates is quiet. -/
theorem quiet_hushed (x : Run σ α) : x.hushed.Quiet := fun _ => rfl

namespace Quiet

variable {x : Run σ α} {f : α → Run σ β}

/-- A quiet run leaves the heap, whatever its result. -/
theorem eq {s s' : State σ} {result : Except Error α} (hx : x.Quiet) (h : x s = (result, s')) :
    s'.movie.heap = s.movie.heap := by
  have hs := hx s
  rwa [h] at hs

theorem pure (a : α) : Quiet (pure a : Run σ α) := fun _ => rfl

theorem throw (e : Error) : Quiet (throw e : Run σ α) := fun _ => rfl

/-- Quiet runs compose. -/
theorem bind (hx : x.Quiet) (hf : ∀ a, (f a).Quiet) : Quiet (x >>= f) := by
  intro s
  cases hs : x s with
  | mk result s' =>
    cases result with
    | error e =>
      rw [bind_error hs]
      exact hx.eq hs
    | ok a =>
      rw [bind_ok hs, hf a s']
      exact hx.eq hs

theorem movie [Journal σ] {f : Movie → Run σ β} (hf : ∀ m, (f m).Quiet) :
    Quiet (liftM getMovie >>= f) :=
  .bind (fun _ => rfl) hf

theorem discard (hx : x.Quiet) : Quiet (Functor.discard x) := .bind hx fun _ => .pure _

theorem mapM {g : α → Run σ β} (hg : ∀ a, (g a).Quiet) (as : List α) : Quiet (as.mapM g) := by
  induction as with
  | nil => exact .pure _
  | cons a as ih =>
    rw [List.mapM_cons]
    exact .bind (hg a) fun _ => .bind ih fun _ => .pure _

end Quiet

/-! ## Failures -/

/-- If the run from a state fails, the movie that it leaves has a property. -/
def FailsIn (x : Run σ α) (s : State σ) (P : Movie → Prop) : Prop :=
  ∀ e s', x s = (.error e, s') → P s'.movie

namespace FailsIn

variable {x : Run σ α} {f : α → Run σ β} {s : State σ} {P : Movie → Prop}

theorem pure (a : α) : FailsIn (pure a : Run σ α) s P := fun _ _ h => nomatch h

theorem lift (x : Update σ α) : FailsIn (liftM x : Run σ α) s P := fun _ _ h => nomatch h

/-- A quiet run can only fail where it started. -/
theorem of_quiet (hx : x.Quiet) (hP : ∀ m, m.heap = s.movie.heap → P m) : x.FailsIn s P :=
  fun _ s' h => hP s'.movie (hx.eq h)

/-- A run fails in a good state if its first part does, and its second from where the first one
ends. -/
theorem bind (hx : x.FailsIn s P) (hf : ∀ a s', x s = (.ok a, s') → (f a).FailsIn s' P) :
    FailsIn (x >>= f) s P := by
  intro e s' hrun
  cases hs : x s with
  | mk result s₁ =>
    cases result with
    | error e' =>
      rw [bind_error hs] at hrun
      cases hrun
      exact hx e s' hs
    | ok a =>
      rw [bind_ok hs] at hrun
      exact hf a s₁ hs e s' hrun

variable [Journal σ]

/-- An update never fails, so only what follows it has to be looked at. -/
theorem edit {x : Edit α} (hf : (f (x s.movie).1).FailsIn (s.after (x s.movie).2) P) :
    FailsIn (liftM x >>= f) s P := hf

theorem movie {f : Movie → Run σ β} (hf : (f s.movie).FailsIn (s.after s.movie) P) :
    FailsIn (liftM getMovie >>= f) s P := hf

/-- What has an outcome does not fail. -/
theorem of_yields {a : α} {m : Movie} (hx : x.Yields s.movie a m) : x.FailsIn s P := by
  intro e s' hrun
  obtain ⟨_, _, hok⟩ := hx s.embedder
  have hs : x s = _ := hok
  rw [hrun] at hs
  cases hs

end FailsIn

end Run

/-! ## Quiet machines -/

namespace Machine

/-- Everything that the machine calls while it reads and converts leaves the heap as it was. -/
structure Quiet (machine : Machine σ) : Prop where
  function : ∀ f this args, (machine.services.function f this args).Quiet
  executeFunction : ∀ executor f actions scope this args,
    (machine.services.executeFunction executor f actions scope this args).Quiet
  checkTimeout : ∀ executor, (machine.services.checkTimeout executor).Quiet
  builtin : ∀ routine this args, (machine.builtin routine this args).Quiet

/-- The machine that puts the heap back after everything that it calls. -/
def hushed (machine : Machine σ) : Machine σ where
  depth := machine.depth
  services :=
    { machine.services with
      function := fun f this args => (machine.services.function f this args).hushed
      executeFunction := fun executor f actions scope this args =>
        (machine.services.executeFunction executor f actions scope this args).hushed
      checkTimeout := fun executor => (machine.services.checkTimeout executor).hushed }
  builtin routine this args := (machine.builtin routine this args).hushed

/-- A machine that may not update the movie is quiet in all its services. -/
theorem quiet_hushed (machine : Machine σ) : machine.hushed.Quiet where
  function _ _ _ := Run.quiet_hushed _
  executeFunction _ _ _ _ _ _ := Run.quiet_hushed _
  checkTimeout _ := Run.quiet_hushed _
  builtin _ _ _ := Run.quiet_hushed _

/-- What the machine calls during a run leaves the heap alone: to put the heap back after every
call makes no difference. -/
def Spares (machine : Machine σ) (run : Machine σ → Run σ α) (s : State σ) : Prop :=
  run machine.hushed s = run machine s

/-- What a failed run leaves may be told from the run in which the heap is put back. -/
theorem Spares.failsIn {machine : Machine σ} {run : Machine σ → Run σ α} {s : State σ}
    {P : Movie → Prop} (hspares : machine.Spares run s)
    (hrun : (run machine.hushed).FailsIn s P) : (run machine).FailsIn s P := by
  intro e s' he
  rw [← hspares] at he
  exact hrun e s' he

variable [Journal σ]

namespace Quiet

variable {machine : Machine σ} (h : machine.Quiet)
include h

omit [Journal σ] in
theorem invoke (code : Code) (this : Value) (args : List Value) :
    (machine.invoke code this args).Quiet := by
  cases code with
  | builtin routine => exact h.builtin routine this args
  | host f => exact h.function f this args

theorem call (f : ObjectId) (this : Value) (args : List Value) :
    (machine.call f this args).Quiet := by
  refine .movie fun movie => ?_
  split
  · exact .throw _
  · exact h.invoke _ this args
  · exact h.invoke _ this args
  · split
    · exact .throw _
    · exact h.executeFunction _ f _ _ this args

theorem callValue (f this : Value) (args : List Value) :
    (machine.callValue f this args).Quiet := by
  cases f with
  | object o => exact h.call o this args
  | _ => exact .movie fun _ => .throw _

theorem readKey (o : ObjectId) (key : String) : (machine.readKey o key).Quiet := by
  refine .movie fun movie => ?_
  split
  · exact .pure _
  · split
    · exact .pure _
    · exact .pure _
    · exact h.call _ _ _

theorem read (o : ObjectId) (name : String) : (machine.read o name).Quiet :=
  .movie fun _ => h.readKey o _

/-! ### Conversions -/

/-- Asking an object for its primitive form is quiet when its functions are. -/
theorem askMethods (o : ObjectId) (methods : List String) :
    (machine.askMethods o methods).Quiet := by
  induction methods with
  | nil => exact .pure _
  | cons method rest ih =>
    refine .bind (h.read o method) fun f => .movie fun movie => ?_
    split
    · exact h.callValue f _ _
    · exact ih

theorem toPrimitive (v : Value) (hint : Hint) : (machine.toPrimitive v hint).Quiet := by
  cases v with
  | object o => exact h.askMethods o hint.methods
  | _ => exact .pure _

theorem toNumber (v : Value) : (machine.toNumber v).Quiet :=
  .bind (h.toPrimitive v .number) fun _ => .movie fun _ => .pure _

theorem toUInt32 (v : Value) : (machine.toUInt32 v).Quiet :=
  .bind (h.toNumber v) fun _ => .pure _

theorem readElement (a : ObjectId) (i : Nat) : (machine.readElement a i).Quiet := by
  have htimeout : machine.checkTimeout.Quiet := by
    refine .movie fun movie => ?_
    split
    · exact h.checkTimeout _
    · exact .pure _
  rw [Machine.readElement]
  split
  · exact .bind htimeout fun _ => h.readKey a _
  · exact h.readKey a _

theorem elements (a : ObjectId) : (machine.elements a).Quiet :=
  .bind (h.read a _) fun length => .bind (h.toUInt32 length) fun _ => .movie fun _ =>
    .mapM (h.readElement a) _

/-- Writing a value as text is quiet when writing an array is. -/
theorem textWith {array : ObjectId → Run σ String} (harray : ∀ a, (array a).Quiet) (v : Value) :
    (machine.textWith array v).Quiet := by
  refine .movie fun movie => ?_
  split
  · split
    · exact harray _
    · exact .bind (h.askMethods _ _) fun _ => .movie fun _ => .pure _
  · exact .pure _

/-- By induction on the bound: the elements are written by the printer of the smaller one. -/
theorem arrayText (n : Nat) (path : List ObjectId) (a : ObjectId) :
    (machine.arrayText n path a).Quiet := by
  induction n generalizing path a with
  | zero =>
    rw [Machine.arrayText]
    split
    · exact .pure _
    · exact .throw _
  | succ n ih =>
    rw [Machine.arrayText]
    split
    · exact .pure _
    · refine .bind (h.elements a) fun vs => ?_
      exact .bind (.mapM (h.textWith (ih (a :: path))) vs) fun _ => .pure _

theorem toText (v : Value) : (machine.toText v).Quiet := by
  refine .movie fun movie => h.textWith (fun a => ?_) v
  exact h.arrayText _ [] a

theorem toKey (v : Value) : (machine.toKey v).Quiet := by
  have hnamed : Run.Quiet (do
      let name ← machine.toText v
      return (← getMovie).normalize name) :=
    .bind (h.toText v) fun _ => .movie fun _ => .pure _
  cases v with
  | number x => exact .pure _
  | _ => exact hnamed

/-! ### Watchers and setters -/

theorem watched (o : ObjectId) (watcher : Option Watcher) (old new : Value) :
    (machine.watched o watcher old new).Quiet := by
  cases watcher with
  | none => exact .pure _
  | some w => exact h.call w.callback _ _

theorem callSetter (o : ObjectId) (setter : Option ObjectId) (v : Value) :
    (machine.callSetter o setter v).Quiet := by
  cases setter with
  | none => exact .pure _
  | some f => exact .discard (h.call f _ _)

theorem writeThrough (o : ObjectId) (p : Property) (v : Value) :
    (machine.writeThrough o p v).Quiet := by
  rw [Machine.writeThrough]
  split
  · exact h.callSetter o _ v
  · split
    · exact .bind (h.call _ _ _) fun old => .bind (h.watched o _ old v) fun _ =>
        h.callSetter o _ _
    · exact .bind (.pure _) fun old => .bind (h.watched o _ old v) fun _ => h.callSetter o _ _

end Quiet

end Machine

/-! ## What a failed write leaves -/

namespace Movie

/-- From `m` to `m'` a write has landed in an array, and then the length, which is an object, was
not converted. The settings may have been others when the write landed. A watcher of the nearest
slot may have replaced the value. -/
structure HalfWritten (m : Movie) (o : ObjectId) (key name : String) (v : Value) (m' : Movie) :
    Prop where
  array : m'.heap.isArray o
  element : key = lengthKey ∨ (arrayIndex? key).isSome
  length : (m'.lengthValue o).isObject
  landed : ∃ (n : Movie) (w : Value), n.heap = m.heap ∧
    ((∀ owner p, m.heap.find? o key = some (owner, p) → p.watcher = none) → w = v) ∧
    m'.heap = (n.written o key name w).heap

/-- What a failed write may leave: the heap as it was, or a write that landed and came no
further. -/
def Unfinished (m : Movie) (o : ObjectId) (key name : String) (v : Value) (m' : Movie) : Prop :=
  m'.heap = m.heap ∨ m.HalfWritten o key name v m'

/-- The length of an array depends on the heap alone. -/
theorem lengthValue_congr {m m' : Movie} (h : m'.heap = m.heap) (a : ObjectId) :
    m'.lengthValue a = m.lengthValue a := by
  rw [lengthValue, h, lengthValue]

end Movie

namespace Machine

variable [Journal σ] {machine : Machine σ} {s : State σ} {o : ObjectId} {key name : String}
  {v : Value}

theorem writeAt_string (machine : Machine σ) (o : ObjectId) (name : String) (v : Value) :
    machine.writeAt o (.string name) v = machine.write o name v := rfl

namespace Quiet

variable (h : machine.Quiet)
include h

/-- The upkeep of a length fails only where the length is an object. -/
theorem syncLength_failsIn (a : ObjectId) (key : String) :
    (machine.syncLength a key).FailsIn s fun m' =>
      m'.heap = s.movie.heap ∧ (key = Movie.lengthKey ∨ (arrayIndex? key).isSome) ∧
        (s.movie.lengthValue a).isObject := by
  cases hlength : (s.movie.lengthValue a).isObject with
  | false => exact .of_yields (machine.syncLength_yields hlength key)
  | true =>
    refine .movie ?_
    dsimp only
    split
    · rename_i hkey
      refine .bind (.of_quiet (h.toNumber _) fun m' hm' => ⟨hm', .inl hkey, rfl⟩) fun n s' _ => ?_
      split
      · exact .lift _
      · exact .pure _
    · split
      · exact .pure _
      · rename_i i hindex
        have hsome : (arrayIndex? key).isSome := by rw [hindex]; rfl
        refine .bind (.of_quiet (h.toUInt32 _) fun m' hm' => ⟨hm', .inr ?_, rfl⟩) fun n s' _ => ?_
        · exact hsome
        · split
          · exact .lift _
          · exact .pure _

/-- What follows a write that has landed in a movie with the heap of `m`. Observers cannot make it
fail. -/
theorem afterWrite_failsIn {m n : Movie} {w : Value} (hn : n.heap = m.heap)
    (hs : s.movie = n.written o key name w)
    (hw : (∀ owner p, m.heap.find? o key = some (owner, p) → p.watcher = none) → w = v) :
    (machine.afterWrite o key).FailsIn s (m.Unfinished o key name v) := by
  rw [afterWrite_eq]
  refine .bind (.movie ?_) fun _ s' _ => .movie ?_
  · split
    · rename_i harray
      rintro e s' hrun
      obtain ⟨hheap, helement, hlength⟩ := h.syncLength_failsIn o key e s' hrun
      refine .inr ⟨?_, helement, ?_, n, w, hn, hw, ?_⟩
      · rw [hheap]
        exact harray
      · rw [Movie.lengthValue_congr hheap]
        exact hlength
      · rw [hheap, ← hs]
        rfl
    · exact .pure _
  · split
    · exact .lift _
    · exact .pure _

/-- A watcher that throws leaves the slot unwritten. -/
theorem watched_failsIn {p : Property} :
    (machine.watched o p.watcher p.value v).FailsIn s (s.movie.Unfinished o key name v) :=
  .of_quiet (h.watched o _ _ v) fun _ hm' => .inl hm'

/-- Without a watcher the value that is written is the given one. -/
theorem of_watched {owner : ObjectId} {p : Property} {w : Value} {s' : State σ}
    (hfind : s.movie.heap.find? o key = some (owner, p))
    (hrun : machine.watched o p.watcher p.value v s = (.ok w, s')) :
    s'.movie.heap = s.movie.heap ∧
      ((∀ owner p, s.movie.heap.find? o key = some (owner, p) → p.watcher = none) → w = v) := by
  refine ⟨(h.watched o _ _ v).eq hrun, fun hwatcher => ?_⟩
  rw [hwatcher owner p hfind] at hrun
  cases hrun
  rfl

/-- A write to an own slot fails before the slot changes, or after it with the array length still
open. -/
theorem writeOwn_failsIn {p : Property} (hslot : s.movie.heap.slot? o key = some p) :
    (machine.writeOwn o key name p v).FailsIn s (s.movie.Unfinished o key name v) := by
  refine .bind h.watched_failsIn fun w s' hrun => .movie ?_
  obtain ⟨hheap, hw⟩ := h.of_watched (Heap.find?_of_slot? hslot) hrun
  have hsome : (s'.movie.heap.slot? o key).isSome := by rw [hheap, hslot]; rfl
  dsimp only
  rw [if_pos hsome]
  exact .edit (h.afterWrite_failsIn hheap (Movie.written_of_some hsome).symm hw)

/-- A write that makes a slot fails before the slot is there, or after it with the array length
still open. -/
theorem writeNew_failsIn {found : Option Property} (hslot : s.movie.heap.slot? o key = none)
    (hfound : (s.movie.heap.find? o key).map Prod.snd = found) :
    (machine.writeNew o key name found v).FailsIn s (s.movie.Unfinished o key name v) := by
  -- The slot is added in a movie with the heap at the start.
  have hstore : ∀ {s' : State σ} {w}, s'.movie.heap = s.movie.heap →
      ((∀ owner p, s.movie.heap.find? o key = some (owner, p) → p.watcher = none) → w = v) →
      Run.FailsIn (do
        Movie.storeAs o key name (.data w ((found.map Property.flags).getD {}))
        machine.afterWrite o key : Run σ Unit) s' (s.movie.Unfinished o key name v) := by
    intro s' w hheap hw
    rw [← hheap] at hslot hfound
    exact .edit (h.afterWrite_failsIn hheap (Movie.written_of_none hslot hfound).symm hw)
  cases found with
  | none => exact hstore rfl fun _ => rfl
  | some p =>
    obtain ⟨⟨owner, _⟩, hfind, rfl⟩ := Option.map_eq_some_iff.mp hfound
    refine .bind h.watched_failsIn fun w s' hrun => ?_
    obtain ⟨hheap, hw⟩ := h.of_watched hfind hrun
    exact hstore hheap hw

/-- A write fails with the heap untouched or half written, on either way through the chain. -/
theorem writeKey_failsIn (o : ObjectId) (key name : String) (v : Value) (s : State σ) :
    (machine.writeKey o key name v).FailsIn s (s.movie.Unfinished o key name v) := by
  refine .movie ?_
  dsimp only
  split
  · exact .bind (.lift _) fun _ _ _ => .pure _
  split
  · exact .pure _
  cases hslot : s.movie.heap.slot? o key with
  | none =>
    rw [Option.filter_none]
    dsimp only
    split
    · exact .pure _
    split
    · rename_i p hfind
      split
      · exact .of_quiet (h.writeThrough o p v) fun _ hm' => .inl hm'
      · exact h.writeNew_failsIn hslot hfind
    · rename_i hfind
      exact h.writeNew_failsIn hslot hfind
  | some p =>
    rw [Option.filter_some, Heap.find?_of_slot? hslot]
    cases hdata : p.isData with
    | true => exact h.writeOwn_failsIn hslot
    | false =>
      -- The own slot is an accessor, and the nearest.
      rw [if_neg Bool.false_ne_true]
      dsimp only
      split
      · exact .pure _
      · dsimp only [Option.map_some]
        rw [Property.isAccessor, hdata, Bool.not_false, if_pos rfl]
        exact .of_quiet (h.writeThrough o p v) fun _ hm' => .inl hm'

/-- The same for a write by name, the key being the normal form of the name. -/
theorem write_failsIn (o : ObjectId) (name : String) (v : Value) (s : State σ) :
    (machine.write o name v).FailsIn s
      (s.movie.Unfinished o (s.movie.normalize name) name v) :=
  .movie (h.writeKey_failsIn o _ name v (s.after s.movie))

/-- The same for a write by value, which can also fail while the key is converted. -/
theorem writeAt_failsIn (o : ObjectId) (k v : Value) (s : State σ) :
    (machine.writeAt o k v).FailsIn s fun m' => m'.heap = s.movie.heap ∨
      ∃ key name, (machine.toKey k s).1 = .ok key ∧ s.movie.HalfWritten o key name v m' := by
  have hkeyed : Run.FailsIn (do let key ← machine.toKey k; machine.writeKey o key key v) s fun m' =>
      m'.heap = s.movie.heap ∨
        ∃ key name, (machine.toKey k s).1 = .ok key ∧ s.movie.HalfWritten o key name v m' := by
    refine .bind (.of_quiet (h.toKey k) fun _ hm' => .inl hm') fun key s₁ hkey e s' hrun => ?_
    have hheap := (h.toKey k).eq hkey
    refine (h.writeKey_failsIn o key key v s₁ e s' hrun).imp (·.trans hheap) fun hhalf => ?_
    refine ⟨key, key, by rw [hkey], hhalf.array, hhalf.element, hhalf.length, ?_⟩
    rw [← hheap]
    exact hhalf.landed
  cases k with
  | string name =>
    intro e s' hrun
    refine (h.write_failsIn o name v s e s' hrun).imp_right fun hhalf => ?_
    exact ⟨s.movie.normalize name, name, rfl, hhalf⟩
  | _ => exact hkeyed

end Quiet

end Machine

/-! ## A length that throws -/

/-- Run in the movie `m`, the computation fails with `e` and leaves the movie `m'`. -/
def Run.Throws (x : Run σ α) (m : Movie) (e : Error) (m' : Movie) : Prop :=
  ∀ embedder, ∃ embedder', x ⟨m, embedder⟩ = (.error e, ⟨m', embedder'⟩)

namespace Run.Throws

variable {x : Run σ α} {f : α → Run σ β} {m m₁ m₂ : Movie} {e : Error} {a : α}

theorem bind (hx : x.Throws m e m₁) : Throws (x >>= f) m e m₁ := by
  intro embedder
  obtain ⟨embedder', hx⟩ := hx embedder
  exact ⟨embedder', Run.bind_error hx⟩

variable [Journal σ]

theorem after (hx : x.Yields m a m₁) (hf : (f a).Throws m₁ e m₂) : Throws (x >>= f) m e m₂ := by
  intro embedder
  obtain ⟨seen, _, hx⟩ := hx embedder
  obtain ⟨embedder', hf⟩ := hf (seen.foldr Journal.record embedder)
  exact ⟨embedder', (Run.bind_ok hx).trans hf⟩

theorem movie {f : Movie → Run σ β} (hf : (f m).Throws m e m₂) :
    Throws (liftM getMovie >>= f) m e m₂ :=
  .after (.edit getMovie) hf

end Run.Throws

namespace Machine

variable [Journal σ]

/-- The number of an object with a method `valueOf` that throws. -/
theorem toNumber_throws {machine : Machine σ} {m : Movie} {e : Error} {n f owner : ObjectId}
    {p : Property} {name : String} {host : HostFunction} {construct : Option Code}
    (hfind : m.heap.find? n (m.normalize "valueOf") = some (owner, p)) (hp : p.isData)
    (hf : p.value = .object f)
    (hcallable : m.heap.callable? f = some (.native name (.host host) construct))
    (hhost : (machine.services.function host (.object n) []).Throws m e m) :
    (machine.toNumber (.object n)).Throws m e m := by
  have hcall : (machine.callValue p.value (.object n) []).Throws m e m := by
    rw [hf]
    refine .movie ?_
    rw [hcallable]
    exact hhost
  have hmethod : m.heap.isCallable p.value := by
    rw [Heap.isCallable, hf, Value.object?, Option.bind_some, hcallable]
    rfl
  refine .bind (.after (machine.read_yields _ hfind hp) (.movie ?_))
  rw [if_pos hmethod]
  exact hcall

/-- An object that throws when its number is asked for stays in the length that it was written
to. -/
theorem write_length_throws {machine : Machine σ} {m w : Movie} {e : Error} {a n : ObjectId}
    {p : Property} (hslot : m.heap.slot? a Movie.lengthKey = some p) (hp : p.isData)
    (hwritable : p.isWritable) (hwatcher : p.watcher = none)
    (hw : m.written a Movie.lengthKey Movie.lengthKey (.object n) = w) (harray : w.heap.isArray a)
    (hlength : w.lengthValue a = .object n)
    (hnumber : (machine.toNumber (.object n)).Throws w e w) :
    (machine.write a Movie.lengthKey (.object n)).Throws m e w := by
  have hsync : (machine.syncLength a Movie.lengthKey).Throws w e w := by
    refine .movie ?_
    have hvalue : ((w.heap.own? a Movie.lengthKey).map Property.value).getD .undefined =
        .object n := hlength
    dsimp only
    rw [if_pos rfl, hvalue]
    exact .bind hnumber
  have hafter : (machine.afterWrite a Movie.lengthKey).Throws w e w := by
    rw [afterWrite_eq]
    refine .bind (.movie ?_)
    rw [if_pos harray]
    exact hsync
  have hsome : (m.heap.slot? a Movie.lengthKey).isSome := by rw [hslot]; rfl
  have hput : m.heap.canPut a Movie.lengthKey := by
    rw [Heap.canPut_eq, Heap.find?_of_slot? hslot]
    exact hwritable
  have hwatched : (machine.watched a p.watcher p.value (.object n)).Yields m (.object n) m := by
    rw [hwatcher]
    exact .pure
  have hlanded : m.written a Movie.lengthKey Movie.lengthKey (.object n) = _ :=
    Movie.written_of_some hsome
  refine .movie (.movie ?_)
  dsimp only
  rw [Movie.normalize_lengthKey, if_neg (fun h => absurd h.1 (by decide)), hput, Bool.not_true,
    if_neg Bool.false_ne_true, hslot, Option.filter_some, if_pos hp]
  refine .after hwatched (.movie ?_)
  dsimp only
  rw [if_pos hsome]
  refine .after (.edit (Movie.modifyHeap _)) ?_
  rw [← hlanded, hw]
  exact hafter

end Machine

/-- An embedder whose functions all throw. -/
def Host.throwing : Host Unit := fun _ =>
  { Host.refuse with function := fun _ _ _ => throw (.thrown .null) }

namespace Thrower

/-- Makes an empty array, an object, and a function of the embedder that is its `valueOf`. -/
def create : Edit (ObjectId × ObjectId × ObjectId) := do
  let array ← Movie.createArray []
  let object ← Movie.createObject
  let method ← Movie.createNative "valueOf" (.host ⟨0⟩) none
  Movie.define object "valueOf" (.data (.object method) {})
  return (array, object, method)

def array : ObjectId := (create (Movie.new {})).1.1

def object : ObjectId := (create (Movie.new {})).1.2.1

def method : ObjectId := (create (Movie.new {})).1.2.2

/-- A new movie with them. -/
@[irreducible] def movie : Movie := (create (Movie.new {})).2

/-- The movie with the object in the length of the array. -/
@[irreducible] def strayLength : Movie :=
  movie.written array Movie.lengthKey Movie.lengthKey (.object object)

/-- When the host function throws, the write of the length throws and leaves a stray length. -/
theorem write_length {machine : Machine Unit} {e : Error}
    (hhost : ∀ s, machine.services.function ⟨0⟩ (.object object) [] s = (.error e, s)) :
    machine.write array Movie.lengthKey (.object object) ⟨movie, ()⟩ =
      (.error e, ⟨strayLength, ()⟩) := by
  have hfind : strayLength.heap.find? object (strayLength.normalize "valueOf") =
      some (object, .data (.object method) {}) := by decide +kernel
  have hcallable : strayLength.heap.callable? method =
      some (.native "valueOf" (.host ⟨0⟩) none) := by decide +kernel
  have hslot : movie.heap.slot? array Movie.lengthKey =
      some (.data (.number (.ofNat 0)) .permanent) := by decide +kernel
  have hlength : strayLength.lengthValue array = .object object := by decide +kernel
  have hnumber : (machine.toNumber (.object object)).Throws strayLength e strayLength :=
    Machine.toNumber_throws hfind rfl rfl hcallable fun embedder => ⟨embedder, hhost _⟩
  have hlanded : movie.written array Movie.lengthKey Movie.lengthKey (.object object) =
      strayLength := by rw [strayLength]
  obtain ⟨_, hthrows⟩ := Machine.write_length_throws hslot rfl rfl rfl hlanded (by decide +kernel)
    hlength hnumber ()
  exact hthrows

/-- The function that throws leaves the heap alone, and so nothing has to be put back. -/
theorem spares_write : (Host.throwing.machine 1).Spares
    (·.write array Movie.lengthKey (.object object)) ⟨movie, ()⟩ :=
  (write_length fun _ => rfl).trans (write_length fun _ => rfl).symm

end Thrower

/-! ## Failed writes -/

namespace Machine

/-- A write that fails, by name or by a key of a script, has left the heap as it was if all that it
called has, unless it landed in the length or in an element of an array and then the length, which
is an object, was not converted. -/
theorem heap_of_failed_write [Journal σ] (machine : Machine σ) (o : ObjectId) (v : Value)
    {s s' : State σ} {e : Error} :
    (∀ name, machine.Spares (·.write o name v) s → machine.write o name v s = (.error e, s') →
      s.movie.Unfinished o (s.movie.normalize name) name v s'.movie) ∧
    ∀ k, machine.Spares (·.writeAt o k v) s → machine.writeAt o k v s = (.error e, s') →
      s'.movie.heap = s.movie.heap ∨ ∃ key name, (machine.hushed.toKey k s).1 = .ok key ∧
        s.movie.HalfWritten o key name v s'.movie := by
  have hquiet := machine.quiet_hushed
  constructor
  · intro name hspares hrun
    exact hspares.failsIn (hquiet.write_failsIn o name v s) e s' hrun
  · intro k hspares hrun
    exact hspares.failsIn (hquiet.writeAt_failsIn o k v s) e s' hrun

/-- The write has landed, so the heap is not as it was. -/
theorem heap_of_failed_write_thrower :
    (Host.throwing.machine 1).write Thrower.array Movie.lengthKey (.object Thrower.object)
      ⟨Thrower.movie, ()⟩ = (.error (.thrown .null), ⟨Thrower.strayLength, ()⟩) ∧
    Thrower.movie.HalfWritten Thrower.array Movie.lengthKey Movie.lengthKey
      (.object Thrower.object) Thrower.strayLength ∧
    ∃ key name, ((Host.throwing.machine 1).hushed.toKey (.string Movie.lengthKey)
        ⟨Thrower.movie, ()⟩).1 = .ok key ∧
      Thrower.movie.HalfWritten Thrower.array key name (.object Thrower.object)
        Thrower.strayLength := by
  have hrun : (Host.throwing.machine 1).write Thrower.array Movie.lengthKey
      (.object Thrower.object) ⟨Thrower.movie, ()⟩ =
        (.error (.thrown .null), ⟨Thrower.strayLength, ()⟩) := Thrower.write_length fun _ => rfl
  have hheap : Thrower.strayLength.heap ≠ Thrower.movie.heap := by
    intro hheap
    have hlength := Movie.lengthValue_congr hheap Thrower.array
    exact absurd hlength (by decide +kernel)
  have hhalf := (heap_of_failed_write (Host.throwing.machine 1) Thrower.array
    (.object Thrower.object)).1 Movie.lengthKey Thrower.spares_write hrun
  rw [Movie.normalize_lengthKey] at hhalf
  refine ⟨hrun, hhalf.resolve_left hheap, ?_⟩
  have hspares : (Host.throwing.machine 1).Spares
      (·.writeAt Thrower.array (.string Movie.lengthKey) (.object Thrower.object))
      ⟨Thrower.movie, ()⟩ := by
    simp only [writeAt_string]
    exact Thrower.spares_write
  rw [← writeAt_string] at hrun
  exact ((heap_of_failed_write (Host.throwing.machine 1) Thrower.array
    (.object Thrower.object)).2 (.string Movie.lengthKey) hspares hrun).resolve_left hheap

/-- A write of the length fails, and the length is another than before. -/
theorem length_of_failed_write :
    (Host.throwing.machine 1).Spares
      (·.write Thrower.array Movie.lengthKey (.object Thrower.object)) ⟨Thrower.movie, ()⟩ ∧
    (Host.throwing.machine 1).write Thrower.array Movie.lengthKey (.object Thrower.object)
      ⟨Thrower.movie, ()⟩ = (.error (.thrown .null), ⟨Thrower.strayLength, ()⟩) ∧
    Thrower.movie.lengthValue Thrower.array = .number 0 ∧
    Thrower.strayLength.lengthValue Thrower.array = .object Thrower.object :=
  ⟨Thrower.spares_write, Thrower.write_length fun _ => rfl, by decide +kernel, by decide +kernel⟩

end Machine

end ActionScript
