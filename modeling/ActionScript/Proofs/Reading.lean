import ActionScript.Proofs.Nearest

/-! # Reading arrays

Reading the elements of an array leaves the movie as it is where the slots that are read are plain
data. The interpreter is asked again and again whether the reading may go on, and where it only
answers, the reading gives the elements unless the interpreter stops it
(`Machine.elements_leadsUnless`). One that always refuses does stop it, once there are more elements
than are read between two questions (`Machine.elements_stops`). -/

namespace ActionScript

/-! ## Runs that leave the movie as it is -/

section Answers

variable {σ : Type} {α β : Type}

/-- Run in the movie `m`, the computation gives `a` and leaves the movie as it is. The embedder may
do as it likes meanwhile. -/
def Run.Answers (x : Run σ α) (m : Movie) (a : α) : Prop :=
  ∀ e, ∃ e', x ⟨m, e⟩ = (.ok a, ⟨m, e'⟩)

namespace Run.Answers

variable {m : Movie} {a : α} {b : β}

theorem pure : Run.Answers (pure a : Run σ α) m a := Run.Leads.pure

/-- Runs that answer compose in the one movie. -/
theorem bind {x : Run σ α} {f : α → Run σ β} (hx : x.Answers m a) (hf : (f a).Answers m b) :
    Run.Answers (x >>= f) m b := Run.Leads.bind hx hf

variable [Journal σ]

theorem of_yields {x : Run σ α} (hx : x.Yields m a m) : x.Answers m a := Run.Leads.of_yields hx

theorem movie {f : Movie → Run σ β} (hf : (f m).Answers m b) :
    Run.Answers (liftM getMovie >>= f) m b :=
  .bind (.of_yields (.edit getMovie)) hf

end Run.Answers

end Answers

/-! ## Runs that may be stopped -/

section LeadsUnless

variable {σ : Type} {α β : Type}

/-- Run in the movie `m`, the computation gives `a` and leaves the movie `m'`, unless one of the
given errors stops it while the movie is as it was. The embedder may do as it likes meanwhile. -/
def Run.LeadsUnless (stop : Error → Prop) (x : Run σ α) (m : Movie) (a : α) (m' : Movie) : Prop :=
  ∀ e, ∃ e', x ⟨m, e⟩ = (.ok a, ⟨m', e'⟩) ∨ ∃ error, stop error ∧ x ⟨m, e⟩ = (.error error, ⟨m, e'⟩)

namespace Run.LeadsUnless

variable {stop : Error → Prop} {m m' : Movie} {a : α} {b : β}

/-- A run that leads somewhere does so unless it is stopped. -/
theorem of_leads {x : Run σ α} (hx : x.Leads m a m') : x.LeadsUnless stop m a m' := by
  intro e
  obtain ⟨e', hx⟩ := hx e
  exact ⟨e', .inl hx⟩

/-- What nothing can stop. -/
theorem leads {x : Run σ α} (hx : x.LeadsUnless (fun _ => False) m a m') : x.Leads m a m' := by
  intro e
  obtain ⟨e', hx | ⟨_, hstop, _⟩⟩ := hx e
  · exact ⟨e', hx⟩
  · exact hstop.elim

theorem bind {x : Run σ α} {f : α → Run σ β} (hx : x.LeadsUnless stop m a m)
    (hf : (f a).LeadsUnless stop m b m') : Run.LeadsUnless stop (x >>= f) m b m' := by
  intro e
  obtain ⟨e₁, hx | ⟨error, hstop, hx⟩⟩ := hx e
  · obtain ⟨e₂, hf⟩ := hf e₁
    rw [Run.bind_ok hx]
    exact ⟨e₂, hf⟩
  · exact ⟨e₁, .inr ⟨error, hstop, Run.bind_error hx⟩⟩

/-- A run over a list gives all the results unless it is stopped on the way. -/
theorem mapM {f : α → Run σ β} {g : α → β} {xs : List α}
    (h : ∀ x ∈ xs, (f x).LeadsUnless stop m (g x) m) :
    Run.LeadsUnless stop (xs.mapM f) m (xs.map g) m := by
  induction xs with
  | nil => exact .of_leads .pure
  | cons x xs ih =>
    rw [List.mapM_cons]
    exact .bind (h x List.mem_cons_self)
      (.bind (ih fun y hy => h y (List.mem_cons_of_mem _ hy)) (.of_leads .pure))

variable [Journal σ]

theorem movie {f : Movie → Run σ β} (hf : (f m).LeadsUnless stop m b m') :
    Run.LeadsUnless stop (liftM getMovie >>= f) m b m' :=
  .bind (.of_leads (.of_yields (.edit getMovie))) hf

end Run.LeadsUnless

theorem Run.Answers.mapM {m : Movie} {f : α → Run σ β} {g : α → β} {xs : List α}
    (h : ∀ x ∈ xs, (f x).Answers m (g x)) : Run.Answers (xs.mapM f) m (xs.map g) :=
  (Run.LeadsUnless.mapM fun x hx => .of_leads (h x hx)).leads

/-- Run in the movie `m`, the computation fails with the error and leaves the movie as it is. -/
def Run.Stops (x : Run σ α) (m : Movie) (error : Error) : Prop :=
  ∀ e, ∃ e', x ⟨m, e⟩ = (.error error, ⟨m, e'⟩)

namespace Run.Stops

variable {m : Movie} {a : α} {error : Error}

theorem bind {x : Run σ α} (hx : x.Stops m error) (f : α → Run σ β) : (x >>= f).Stops m error := by
  intro e
  obtain ⟨e', hx⟩ := hx e
  exact ⟨e', Run.bind_error hx⟩

theorem of_answers {x : Run σ α} {f : α → Run σ β} (hx : x.Answers m a)
    (hf : (f a).Stops m error) : (x >>= f).Stops m error := by
  intro e
  obtain ⟨e₁, hx⟩ := hx e
  obtain ⟨e₂, hf⟩ := hf e₁
  exact ⟨e₂, (Run.bind_ok hx).trans hf⟩

/-- A pass through a list stops at the first element that stops it. -/
theorem mapM {f : α → Run σ β} {g : α → β} {xs rest : List α} {x : α}
    (hxs : ∀ y ∈ xs, (f y).Answers m (g y)) (hx : (f x).Stops m error) :
    Run.Stops ((xs ++ x :: rest).mapM f) m error := by
  induction xs with
  | nil =>
    rw [List.nil_append, List.mapM_cons]
    exact hx.bind _
  | cons y xs ih =>
    rw [List.cons_append, List.mapM_cons]
    exact .of_answers (hxs y List.mem_cons_self)
      ((ih fun z hz => hxs z (List.mem_cons_of_mem _ hz)).bind _)

theorem movie [Journal σ] {f : Movie → Run σ β} (hf : (f m).Stops m error) :
    Run.Stops (liftM getMovie >>= f) m error :=
  .of_answers (.of_yields (.edit getMovie)) hf

end Run.Stops

end LeadsUnless

/-! ## Plain arrays -/

namespace Movie

variable {m : Movie}

/-- What a read of a key gives where no getter answers it: the value of the nearest slot. -/
def valueAt (m : Movie) (o : ObjectId) (key : String) : Value :=
  ((m.heap.find? o key).map fun found => found.2.value).getD .undefined

/-- No getter answers a read of the key. -/
def PlainAt (m : Movie) (o : ObjectId) (key : String) : Prop :=
  ∀ owner p, m.heap.Nearest key o owner p → p.isData

theorem plainAt_iff {o : ObjectId} {key : String} :
    m.PlainAt o key ↔ (m.heap.find? o key).all fun found => found.2.isData := by
  simp only [PlainAt, ← Heap.find?_eq_some_iff, Option.all_eq_true, Prod.forall]

instance (m : Movie) (o : ObjectId) (key : String) : Decidable (m.PlainAt o key) :=
  decidable_of_iff _ plainAt_iff.symm

/-- How many elements of an array are read in one pass. -/
def readLength (m : Movie) (a : ObjectId) : Nat :=
  min (m.settings.numberOf (m.valueAt a lengthKey)).toUInt32 m.settings.maxElements

/-- The elements of an array that are read in one pass. -/
def elementsOf (m : Movie) (a : ObjectId) : List Value :=
  (List.range (m.readLength a)).map fun i => m.valueAt a (indexKey i)

/-- An array whose length is primitive, and whose length and elements are read without a call. -/
structure PlainArray (m : Movie) (a : ObjectId) : Prop where
  isArray : m.heap.isArray a
  plainLength : m.PlainAt a lengthKey
  primitiveLength : (m.valueAt a lengthKey).isObject = false
  plainElements : ∀ i < m.readLength a, m.PlainAt a (indexKey i)

instance (m : Movie) (a : ObjectId) : Decidable (m.PlainArray a) :=
  decidable_of_iff (m.heap.isArray a ∧ m.PlainAt a lengthKey ∧
      (m.valueAt a lengthKey).isObject = false ∧
      ∀ i < m.readLength a, m.PlainAt a (indexKey i))
    ⟨fun ⟨h₁, h₂, h₃, h₄⟩ => ⟨h₁, h₂, h₃, h₄⟩, fun ⟨h₁, h₂, h₃, h₄⟩ => ⟨h₁, h₂, h₃, h₄⟩⟩

end Movie

namespace Machine

variable {σ : Type} [Journal σ] (machine : Machine σ) {stop : Error → Prop} {m : Movie}
  {a : ObjectId}

/-- Reading where no accessor is found gives the value there. -/
theorem readKey_answers {key : String} (hplain : m.PlainAt a key) :
    (machine.readKey a key).Answers m (m.valueAt a key) := by
  rw [Movie.valueAt]
  cases hfind : m.heap.find? a key with
  | some found =>
    exact .of_yields (machine.readKey_yields hfind (hplain _ _ (Heap.find?_eq_some_iff.mp hfind)))
  | none =>
    refine .movie ?_
    rw [hfind]
    exact .pure

/-- The interpreter, if there is one, lets long computations go on in the movie. -/
def Patient (m : Movie) : Prop :=
  ∀ executor, m.executor = some executor → (machine.services.checkTimeout executor).Answers m ()

omit [Journal σ] in
/-- Without an executor there is no one to stop a run. -/
theorem patient_of_no_executor (hexecutor : m.executor = none) : machine.Patient m := by
  intro executor hsome
  rw [hexecutor] at hsome
  cases hsome

/-- The interpreter, if there is one, only answers when it is asked in the movie: a computation may
go on, or one of the given errors stops it. -/
def Polls (stop : Error → Prop) (m : Movie) : Prop :=
  ∀ executor, m.executor = some executor →
    (machine.services.checkTimeout executor).LeadsUnless stop m () m

variable {machine}

omit [Journal σ] in
/-- A patient machine is stopped for no reason at all. -/
theorem Patient.polls (hpatient : machine.Patient m) (stop : Error → Prop) :
    machine.Polls stop m :=
  fun executor hexecutor => .of_leads (hpatient executor hexecutor)

theorem Polls.checkTimeout_leadsUnless (hpolls : machine.Polls stop m) :
    machine.checkTimeout.LeadsUnless stop m () m := by
  refine .movie ?_
  cases hexecutor : m.executor with
  | none => exact .of_leads .pure
  | some executor => exact hpolls executor hexecutor

variable (machine) in
theorem readLength_answers (ha : m.PlainArray a) :
    (machine.read a Movie.lengthKey).Answers m (m.valueAt a Movie.lengthKey) := by
  refine .movie ?_
  rw [m.normalize_lengthKey]
  exact machine.readKey_answers ha.plainLength

/-- The interpreter is only asked while an array with more elements is read than are read between
two checks. -/
theorem elements_leadsUnless (ha : m.PlainArray a)
    (hpolls : timeoutStride < m.readLength a → machine.Polls stop m) :
    (machine.elements a).LeadsUnless stop m (m.elementsOf a) m := by
  have hlength := machine.readLength_answers ha
  have hcount := Run.Answers.of_yields (machine.toUInt32_yields (m := m) ha.primitiveLength)
  have helement : ∀ i ∈ List.range (m.readLength a),
      (machine.readElement a i).LeadsUnless stop m (m.valueAt a (indexKey i)) m := by
    intro i hi
    have hlt : i < m.readLength a := List.mem_range.mp hi
    have hread : (machine.readKey a (indexKey i)).LeadsUnless stop m
        (m.valueAt a (indexKey i)) m :=
      .of_leads (machine.readKey_answers (ha.plainElements i hlt))
    rw [readElement]
    split
    · rename_i hasked
      have hlong : timeoutStride ≤ i := Nat.le_of_dvd hasked.1 (Nat.dvd_of_mod_eq_zero hasked.2)
      exact .bind (hpolls (hlong.trans_lt hlt)).checkTimeout_leadsUnless hread
    · exact hread
  exact .bind (.of_leads hlength) (.bind (.of_leads hcount) (.movie (.mapM helement)))

/-- The elements of a plain array are read without running code. -/
theorem elements_answers (hpatient : machine.Patient m) (ha : m.PlainArray a) :
    (machine.elements a).Answers m (m.elementsOf a) :=
  (elements_leadsUnless ha fun _ => hpatient.polls _).leads

/-- An interpreter that never lets a computation go on stops the reading of every array with more
elements than are read between two checks. -/
theorem elements_stops {error : Error} (hstops : machine.checkTimeout.Stops m error)
    (ha : m.PlainArray a) (hlong : timeoutStride < m.readLength a) :
    (machine.elements a).Stops m error := by
  obtain ⟨k, hk⟩ := Nat.exists_eq_add_of_lt hlong
  have hrange : List.range (m.readLength a) = List.range timeoutStride ++
      timeoutStride :: (List.range k).map fun i => timeoutStride + (i + 1) := by
    rw [hk, Nat.add_assoc, List.range_add, List.range_succ_eq_map, List.map_cons, List.map_map]
    rfl
  have hread : ∀ i ∈ List.range timeoutStride,
      (machine.readElement a i).Answers m (m.valueAt a (indexKey i)) := by
    intro i hi
    rw [List.mem_range] at hi
    rw [readElement, if_neg (by rw [Nat.mod_eq_of_lt hi]; omega)]
    exact machine.readKey_answers (ha.plainElements i (hi.trans hlong))
  have hstop : (machine.readElement a timeoutStride).Stops m error := by
    rw [readElement, if_pos ⟨by decide, Nat.mod_self _⟩]
    exact hstops.bind _
  have hcount := Run.Answers.of_yields (machine.toUInt32_yields (m := m) ha.primitiveLength)
  refine .of_answers (machine.readLength_answers ha) (.of_answers hcount (.movie ?_))
  show Run.Stops ((List.range (m.readLength a)).mapM (machine.readElement a)) m error
  rw [hrange]
  exact .mapM hread hstop

end Machine

end ActionScript
