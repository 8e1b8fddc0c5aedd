import ActionScript.Proofs.ArrayLength
import ActionScript.Proofs.Session.Past

/-! # Machines that tend an array

A machine attends to an array if the functions, observers and routines that it calls leave the
array in order (`Tending.Attends`). Then so do its own reads, writes and deletions on the array,
and so do `push` and `pop` when they run on it. -/

namespace ActionScript

open Session

variable {σ α β : Type}

/-- Recording several movies puts them before the past there was. -/
theorem Session.foldr_record (seen : List Movie) (e : Ledger σ) :
    seen.foldr Journal.record e = { e with past := seen ++ e.past } := by
  induction seen with
  | nil => rfl
  | cons m seen ih =>
    rw [List.foldr_cons, ih]
    rfl

namespace Tending

variable {t : Tending} {s s' s'' : State (Ledger (σ × List Movie))}

/-! ## What happens between two states -/

/-- The array is in order, and it was so in the movies that the client has kept. -/
structure Good (t : Tending) (s : State (Ledger (σ × List Movie))) : Prop where
  tended : t.Tended s.movie
  kept : ∀ m ∈ s.embedder.own.2, m.LengthFits t.array

/-- Where slots may call `push`, no length has been too long. -/
def Roomy (t : Tending) (s : State (Ledger (σ × List Movie))) : Prop :=
  t.pushes → ∀ m ∈ s.embedder.past, (m.lengthNumber t.array).toInt ≤ 0xffffffff

/-- Room that lasts to the end of a run was there at every earlier point. -/
theorem Roomy.mono (h : t.Roomy s') (hpast : s.embedder.past <:+ s'.embedder.past) : t.Roomy s :=
  fun hpushes m hm => h hpushes m (hpast.subset hm)

/-- What happens from one state to another adds to the past and leaves the array in order. The past
grows in any case, so where the last state of a run is roomy, all states before it are. -/
structure Onward (t : Tending) (s s' : State (Ledger (σ × List Movie))) : Prop where
  past : s.embedder.past <:+ s'.embedder.past
  good : t.Roomy s' → t.Good s → t.Good s'

namespace Onward

theorem refl : t.Onward s s := ⟨List.suffix_refl _, fun _ h => h⟩

theorem trans (h : t.Onward s s') (h' : t.Onward s' s'') : t.Onward s s'' :=
  ⟨h.past.trans h'.past,
    fun hroomy hgood => h'.good hroomy (h.good (hroomy.mono h'.past) hgood)⟩

/-- A step goes on from a state if it keeps the tended array whenever it was tended. -/
theorem of_tended (hpast : s.embedder.past <:+ s'.embedder.past)
    (hown : s'.embedder.own.2 = s.embedder.own.2) (h : t.Tended s.movie → t.Tended s'.movie) :
    t.Onward s s' := by
  refine ⟨hpast, fun _ hgood => ⟨h hgood.tended, ?_⟩⟩
  rw [hown]
  exact hgood.kept

/-- Only states in which the array is in order count. -/
theorem of_good (hpast : s.embedder.past <:+ s'.embedder.past)
    (h : t.Tended s.movie → t.Onward s s') : t.Onward s s' :=
  ⟨hpast, fun hroomy hgood => (h hgood.tended).good hroomy hgood⟩

end Onward

/-- An update of a state leaves the array in order. -/
def Upholds (t : Tending) (x : Update (Ledger (σ × List Movie)) α)
    (s : State (Ledger (σ × List Movie))) : Prop :=
  t.Onward s (x s).2

/-- A run from a state leaves the array in order, whether it fails or not. -/
def Keeps (t : Tending) (x : Run (Ledger (σ × List Movie)) α)
    (s : State (Ledger (σ × List Movie))) : Prop :=
  t.Upholds x.run s

namespace Upholds

variable {x : Update (Ledger (σ × List Movie)) α} {f : α → Update (Ledger (σ × List Movie)) β}

theorem pure {a : α} : t.Upholds (pure a) s := .refl

/-- Updates that uphold the array compose. -/
theorem bind (hx : t.Upholds x s) (hf : ∀ a, t.Upholds (f a) (x s).2) : t.Upholds (x >>= f) s :=
  Onward.trans hx (hf _)

theorem edit {x : Edit α} (h : t.Tended s.movie → t.Tended (x s.movie).2) :
    t.Upholds (liftM x) s :=
  .of_tended (List.suffix_cons _ _) rfl h

theorem movie {f : Movie → Update (Ledger (σ × List Movie)) β}
    (hf : t.Upholds (f s.movie) (s.after s.movie)) : t.Upholds (liftM getMovie >>= f) s := by
  have hstep : t.Onward s (s.after s.movie) := .of_tended (List.suffix_cons _ _) rfl id
  exact hstep.trans hf

end Upholds

namespace Keeps

variable {x : Run (Ledger (σ × List Movie)) α} {f : α → Run (Ledger (σ × List Movie)) β}

theorem pure {a : α} : t.Keeps (pure a) s := .refl

theorem throw {e : Error} : t.Keeps (throw e : Run (Ledger (σ × List Movie)) α) s := .refl

/-- Runs that keep the array compose. -/
theorem bind (hx : t.Keeps x s) (hf : ∀ a, t.Keeps (f a) (x s).2) : t.Keeps (x >>= f) s := by
  have hx : t.Onward s (x s).2 := hx
  cases hresult : x s with
  | mk result s' =>
    rw [hresult] at hx hf
    cases result with
    | error e =>
      have hrun : (x >>= f) s = (.error e, s') := Run.bind_error hresult
      show t.Onward s ((x >>= f) s).2
      rwa [hrun]
    | ok a =>
      have hrun : (x >>= f) s = f a s' := Run.bind_ok hresult
      show t.Onward s ((x >>= f) s).2
      rw [hrun]
      exact hx.trans (hf a)

theorem map (hx : t.Keeps x s) (f : α → β) : t.Keeps (f <$> x) s := by
  rw [map_eq_pure_bind]
  exact hx.bind fun _ => .pure

theorem discard (hx : t.Keeps x s) : t.Keeps (Functor.discard x) s := hx.map _

theorem lift {x : Update (Ledger (σ × List Movie)) α} (h : t.Upholds x s) : t.Keeps (liftM x) s := h

/-- An edit keeps the array when it leaves a tended movie tended. -/
theorem edit {x : Edit α} (h : t.Tended s.movie → t.Tended (x s.movie).2) :
    t.Keeps (liftM x) s := .lift (.edit h)

theorem movie {f : Movie → Run (Ledger (σ × List Movie)) β}
    (hf : t.Keeps (f s.movie) (s.after s.movie)) : t.Keeps (liftM getMovie >>= f) s :=
  Upholds.movie hf

/-- A run that calls nothing, and what follows it. -/
theorem bind_yields {a : α} {m : Movie} (hx : x.Yields s.movie a m)
    (hm : t.Tended s.movie → t.Tended m)
    (hf : ∀ {s'}, s'.movie = m → t.Keeps (f a) s') : t.Keeps (x >>= f) s := by
  obtain ⟨seen, _, hx⟩ := hx s.embedder
  rw [foldr_record] at hx
  have hstep : t.Onward s ⟨m, { s.embedder with past := seen ++ s.embedder.past }⟩ :=
    .of_tended (List.suffix_append _ _) rfl hm
  show t.Onward s ((x >>= f) s).2
  rw [Run.bind_ok hx]
  exact hstep.trans (hf rfl)

end Keeps

/-! ## Machines -/

/-- A routine may run on the array: `pop`, and `push` where there is room. Where slots may call
`push`, it may be called as they do. -/
def mayRun (t : Tending) (m : Movie) (args : List Value) (routine : Builtin) : Bool :=
  routine = .array .pop || (routine = .array .push &&
    ((t.pushes && args.length ≤ 4) ||
      (m.lengthNumber t.array).toUInt32 + args.length ≤ 0xffffffff))

/-- A function may be called on the array. -/
def mayCall (t : Tending) (m : Movie) (f : ObjectId) (args : List Value) : Bool :=
  ((m.heap.callable? f).bind Callable.routine?).all (t.mayRun m args)

/-- What the machine calls leaves the array in order. -/
structure Attends (t : Tending) (machine : Machine (Ledger (σ × List Movie))) : Prop where
  past : ∀ old, (since (σ × List Movie) old).Respects machine
  function : ∀ f this args s, t.Keeps (machine.services.function f this args) s
  executeFunction : ∀ executor f actions scope this args s,
    t.Keeps (machine.services.executeFunction executor f actions scope this args) s
  notify : ∀ observer key s, t.Upholds (machine.services.notify observer key) s
  builtin : ∀ {routine args s}, t.mayRun s.movie args routine →
    t.Keeps (machine.builtin routine (.object t.array) args) s

/-- A function that the heap admits may be called with up to four arguments. -/
theorem mayCall_of_admits {m : Movie} {f : ObjectId} {args : List Value}
    (hf : t.admits m.heap f) (hargs : args.length ≤ 4) : t.mayCall m f args := by
  simp only [admits, mayCall, mayRun, Option.all_eq_true, Bool.or_eq_true, decide_eq_true_eq,
    Bool.and_eq_true] at hf ⊢
  intro routine hroutine
  rcases hf routine hroutine with hpop | ⟨hpush, hpushes⟩
  · exact .inl hpop
  · exact .inr ⟨hpush, .inl ⟨hpushes, hargs⟩⟩

/-- The length as `push` and `pop` read it. -/
theorem Tended.receiverAndLength_yields {m : Movie} (hm : t.Tended m)
    (machine : Machine (Ledger (σ × List Movie))) :
    (Builtin.receiverAndLength machine (.object t.array)).Yields m
      (t.array, (m.lengthNumber t.array).toUInt32) m := by
  obtain ⟨p, x, hslot, hp, _⟩ := hm.lengthSlot
  have hfind : m.heap.find? t.array (m.normalize Movie.lengthKey) = some (t.array, p) := by
    rw [Movie.normalize_lengthKey]
    exact Heap.find?_of_slot? hslot
  have hvalue : m.lengthValue t.array = p.value := by
    rw [Movie.lengthValue_eq, hslot]
    rfl
  have hprimitive : p.value.isObject = false := by rw [hp.value]; rfl
  have hobject : (machine.toObject (.object t.array)).Yields m t.array m :=
    .bind (.edit (Movie.box _)) .pure
  rw [Movie.lengthNumber, hvalue]
  exact .bind hobject (.bind (machine.read_yields _ hfind hp.isData)
    (.bind (machine.toUInt32_yields hprimitive) .pure))

theorem handle_known (o : ObjectId) : (Matching.known fun _ => True).handle o o := ⟨rfl, trivial⟩

theorem args_known (args : List Value) :
    List.Forall₂ (Value.Alike (.known fun _ => True)) args args :=
  values_known fun o _ => handle_known o

namespace Attends

variable {machine : Machine (Ledger (σ × List Movie))} (h : t.Attends machine)
include h

/-- Code keeps the array when the routine it stands for may be run on it. -/
theorem invoke {code : Code} {args : List Value}
    (hcode : ∀ routine, code = .builtin routine → t.mayRun s.movie args routine) :
    t.Keeps (machine.invoke code (.object t.array) args) s := by
  cases code with
  | host f => exact h.function f _ args s
  | builtin routine => exact h.builtin (hcode routine rfl)

/-- A call on the array keeps it when the function may be called. -/
theorem call {f : ObjectId} {args : List Value} (hf : t.Tended s.movie → t.mayCall s.movie f args) :
    t.Keeps (machine.call f (.object t.array) args) s := by
  have hpast := suffix_of_runs (fun old => (h.past old).call (handle_known f)
    (.object (handle_known t.array)) (args_known args)) s
  refine .of_good hpast fun htended => Keeps.movie ?_
  have hf := hf htended
  rw [mayCall, Option.all_eq_true] at hf
  split
  · exact .throw
  · rename_i hcallable
    refine h.invoke fun routine hcode => hf routine ?_
    rw [hcallable, hcode]
    rfl
  · rename_i hcallable
    refine h.invoke fun routine hcode => hf routine ?_
    rw [hcallable, hcode]
    rfl
  · split
    · exact .throw
    · exact h.executeFunction _ f _ _ _ args _

/-- Slots call functions that may be called. -/
theorem callback {f : ObjectId} (hf : t.functions f) {args : List Value} (hargs : args.length ≤ 4) :
    t.Keeps (machine.call f (.object t.array) args) s :=
  h.call fun htended => mayCall_of_admits (htended.functions hf) hargs

theorem readKey (key : String) : t.Keeps (machine.readKey t.array key) s := by
  have hpast := suffix_of_runs (fun old => (h.past old).readKey (handle_known t.array) key) s
  refine .of_good hpast fun htended => Keeps.movie ?_
  split
  · exact .pure
  · rename_i p hfind
    split
    · exact .pure
    · exact .pure
    · rename_i getter setter haccess
      have hgetter : p.getter = some getter := by rw [Property.getter, haccess]
      have hmem := Property.getter_mem_callbacks hgetter
      exact h.callback (htended.find? hfind getter hmem) (Nat.zero_le 4)

theorem read (name : String) : t.Keeps (machine.read t.array name) s :=
  .movie (h.readKey _)

/-- Telling the observers of a name leaves the array in order. -/
theorem broadcast (name : String) : t.Upholds (machine.broadcast name) s := by
  have hnotify : ∀ (observers : List Observer) (key : String) s,
      t.Upholds (observers.forM fun observer => machine.services.notify observer key) s := by
    intro observers key
    induction observers with
    | nil => exact fun s => .pure
    | cons observer rest ih => exact fun s => .bind (h.notify observer key s) fun _ => ih _
  exact .movie (hnotify _ _ _)

theorem announce (key : String) : t.Keeps (machine.announce key) s := by
  refine .movie ?_
  split
  · exact .lift (h.broadcast key)
  · exact .pure

/-! ## Writes -/

/-- A write that has landed, and what follows it. -/
theorem land {x : Edit Unit} {key : String}
    (hx : t.Tended s.movie → t.Lands key (x s.movie).2) :
    t.Keeps (do liftM x; machine.afterWrite t.array key) s := by
  have hafter := suffix_of_runs (fun old => (h.past old).afterWrite (handle_known t.array) key)
    (s.after (x s.movie).2)
  refine .of_good ((List.suffix_cons _ _).trans hafter) fun htended => ?_
  obtain ⟨hlength, hsettled⟩ := hx htended
  have hsettle : Run.Yields (liftM x >>= fun _ => machine.settle t.array key) s.movie () _ :=
    .bind (.edit x) (machine.settle_yields key fun _ => hlength)
  rw [Machine.afterWrite_eq]
  have hassoc : (do liftM x; machine.settle t.array key; machine.announce key) =
      ((liftM x >>= fun _ => machine.settle t.array key) >>= fun _ => machine.announce key) :=
    (bind_assoc ..).symm
  rw [hassoc]
  exact Keeps.bind_yields hsettle (fun _ => hsettled) fun _ => h.announce key

section Slot

variable {key name : String} {p : Property} (hp : ∀ f ∈ p.callbacks, t.functions f) {v : Value}

include hp

/-- The watchers on the array are functions it admits. -/
theorem watched (old new : Value) : t.Keeps (machine.watched t.array p.watcher old new) s := by
  cases hwatcher : p.watcher with
  | none => exact .pure
  | some w => exact h.callback (hp w.callback (Property.watcher_mem_callbacks hwatcher)) le_rfl

theorem callSetter : t.Keeps (machine.callSetter t.array p.setter v) s := by
  cases hsetter : p.setter with
  | none => exact .pure
  | some f => exact .discard (h.callback (hp f (Property.setter_mem_callbacks hsetter)) (by simp))

theorem writeThrough : t.Keeps (machine.writeThrough t.array p v) s := by
  rw [Machine.writeThrough]
  split
  · exact h.callSetter hp
  · split
    · rename_i getter hgetter
      have hgetter := hp getter (Property.getter_mem_callbacks hgetter)
      refine .bind (h.callback hgetter (Nat.zero_le 4)) fun old => ?_
      exact .bind (h.watched hp old v) fun _ => h.callSetter hp
    · exact .bind .pure fun old => .bind (h.watched hp old v) fun _ => h.callSetter hp

/-- Writing an own slot other than the length keeps the array. -/
theorem writeOwn (hkey : key ≠ Movie.lengthKey) :
    t.Keeps (machine.writeOwn t.array key name p v) s := by
  refine .bind (h.watched hp p.value v) fun v => .movie ?_
  dsimp only
  split
  · rename_i hsome
    obtain ⟨q, hq⟩ := Option.isSome_iff_exists.mp hsome
    exact h.land fun htended => htended.overwrite hq fun heq => (hkey heq).elim
  · exact h.land fun htended => htended.store hkey name v {}

omit hp in
/-- So does making one, if the inherited callbacks are functions it admits. -/
theorem writeNew {found : Option Property} (hkey : key ≠ Movie.lengthKey)
    (hfound : ∀ p ∈ found, ∀ f ∈ p.callbacks, t.functions f) :
    t.Keeps (machine.writeNew t.array key name found v) s := by
  have hstore : ∀ {s} v flags, t.Keeps (do
      liftM (Movie.storeAs t.array key name (.data v flags))
      machine.afterWrite t.array key) s :=
    fun v flags => h.land fun htended => htended.store hkey name v flags
  cases found with
  | none => exact hstore v {}
  | some p => exact .bind (h.watched (hfound p rfl) p.value v) fun v => hstore v p.flags

end Slot

/-- A write under any key but the length. The array may only be linked to an object of its
family. -/
theorem writeKey {key name : String} {v : Value} (hkey : key ≠ Movie.lengthKey)
    (hproto : key = Heap.protoKey → ∀ o ∈ v.object?, t.family o) :
    t.Keeps (machine.writeKey t.array key name v) s := by
  have hv : Value.Alike (.known fun _ => True) v v := value_known fun o _ => handle_known o
  have hpast := suffix_of_runs (fun old => (h.past old).writeKey (handle_known t.array) hv key
    (Eq.refl name)) s
  refine .of_good hpast fun htended => Keeps.movie ?_
  dsimp only
  split
  · rename_i hlink
    exact .discard (.edit fun htended => htended.setPrototype (hproto hlink.1))
  · split
    · exact .pure
    · split
      · rename_i p hslot
        obtain ⟨hslot, _⟩ := Option.filter_eq_some_iff.mp hslot
        exact h.writeOwn (htended.find? (Heap.find?_of_slot? hslot)) hkey
      · split
        · exact .pure
        · split
          · rename_i p hfind
            obtain ⟨⟨owner, _⟩, howner, rfl⟩ := Option.map_eq_some_iff.mp hfind
            have hp := htended.find? howner
            split
            · exact h.writeThrough hp
            · refine h.writeNew hkey fun p hmem => ?_
              cases hmem
              exact hp
          · exact h.writeNew hkey fun p hmem => nomatch hmem

/-- A length that is written is in the past, so it is not too long. -/
theorem landLength {x : Number} (hinteger : x.isInteger) (hnonneg : 0 ≤ x.toInt)
    (hle : x.toInt ≤ 0xffffffff ∨ t.pushes) :
    t.Keeps (do
      liftM (Movie.modifyHeap (·.modifySlot t.array Movie.lengthKey fun p =>
        { p with value := .number x }))
      machine.afterWrite t.array Movie.lengthKey) s := by
  by_cases hfits : x.toInt ≤ 0xffffffff
  · refine h.land fun htended => ?_
    obtain ⟨p, _, hslot, _⟩ := htended.lengthSlot
    exact htended.overwrite hslot fun _ => ⟨x, rfl, hinteger, hnonneg, hfits⟩
  · -- The movie with the length in its slot is recorded, before elements are dropped.
    have hpushes : t.pushes := hle.resolve_left hfits
    have hafter := suffix_of_runs (fun old => (h.past old).afterWrite (handle_known t.array)
      Movie.lengthKey) (s.after (Movie.modifyHeap (·.modifySlot t.array Movie.lengthKey fun p =>
        { p with value := .number x }) s.movie).2)
    refine ⟨(List.suffix_cons _ _).trans hafter, fun hroomy hgood => absurd ?_ hfits⟩
    have hlength := hroomy hpushes _ (hafter.subset List.mem_cons_self)
    obtain ⟨object, hobject, hfind⟩ := hgood.tended.slot?
    obtain ⟨p, _, hslot, _⟩ := hgood.tended.lengthSlot
    have hnumber : (s.movie.reslot t.array (·.modify Movie.lengthKey fun p =>
        { p with value := .number x })).lengthNumber t.array = x := by
      rw [hfind] at hslot
      rw [Movie.lengthNumber, Movie.lengthValue_eq, Movie.slot?_reslot hobject, Table.find?_modify,
        if_pos rfl, hslot]
      rfl
    rwa [← hnumber]

/-- A write of the length. -/
theorem writeLength {name : String} {x : Number} (hinteger : x.isInteger) (hnonneg : 0 ≤ x.toInt)
    (hle : x.toInt ≤ 0xffffffff ∨ t.pushes) :
    t.Keeps (machine.writeKey t.array Movie.lengthKey name (.number x)) s := by
  have hpast := suffix_of_runs (fun old => (h.past old).writeKey (handle_known t.array)
    (.number (x := x)) Movie.lengthKey (Eq.refl name)) s
  refine .of_good hpast fun htended => Keeps.movie ?_
  obtain ⟨p, y, hslot, hp, _⟩ := htended.lengthSlot
  have hput : s.movie.heap.canPut t.array Movie.lengthKey := by
    rw [Heap.canPut_eq, Heap.find?_of_slot? hslot, Option.all_some, Property.isWritable, hp.access]
    rfl
  have hsome : (s.movie.heap.slot? t.array Movie.lengthKey).isSome := by
    rw [hslot]
    rfl
  have hwatched : machine.watched t.array p.watcher p.value (.number x) = pure (.number x) := by
    rw [hp.watcher]
    rfl
  dsimp only
  rw [if_neg (fun hlink => absurd hlink.1 (by decide)), hput, Bool.not_true,
    if_neg Bool.false_ne_true, hslot, Option.filter_some, if_pos hp.isData]
  dsimp only
  rw [Machine.writeOwn, hwatched, pure_bind]
  refine .movie ?_
  dsimp only
  rw [if_pos (by exact hsome)]
  exact h.landLength hinteger hnonneg hle

/-! ## Deletion -/

/-- The length refuses to be deleted. -/
theorem deleteKey (key : String) : t.Upholds (machine.deleteKey t.array key) s := by
  have hruns := fun old => Correspondence.Runs.lift
    ((h.past old).deleteKey (r := .known fun _ => True) (handle_known t.array) key)
  refine .of_good (suffix_of_runs hruns s) fun htended => Upholds.movie ?_
  split
  · exact .pure
  · rename_i p hp
    split
    · rename_i hdeletable
      have hkey : key ≠ Movie.lengthKey := by
        rintro rfl
        obtain ⟨q, _, hq, hlength, _⟩ := htended.lengthSlot
        rw [Heap.own?, hq] at hp
        cases hp
        rw [Property.isDeletable, hlength.dontDelete] at hdeletable
        cases hdeletable
      refine .bind (.edit fun htended => htended.remove hkey) fun _ => .movie ?_
      split
      · exact .bind (h.broadcast key) fun _ => .pure
      · exact .pure
    · exact .pure

/-! ## Routines -/

/-- Writing successive elements keeps the array, by induction on the values left. -/
theorem writeFrom (i : Nat) (args : List Value) :
    t.Keeps (Builtin.writeFrom machine t.array i args) s := by
  induction args generalizing i s with
  | nil => exact .pure
  | cons v rest ih =>
    refine .bind (h.writeKey (indexKey_ne_lengthKey i) fun heq => ?_) fun _ => ih (i + 1)
    exact (indexKey_ne_protoKey i heq).elim

/-- The length that `push` and `pop` leave. -/
theorem writeCount {n : Nat} (hn : n < 2 ^ 53) (hle : n ≤ 0xffffffff ∨ t.pushes) :
    t.Keeps (machine.write t.array Movie.lengthKey (.number (.ofNat n))) s := by
  have hint : (Number.ofNat n).toInt = n := Number.toInt_ofNat hn
  refine .movie ?_
  rw [Movie.normalize_lengthKey]
  exact h.writeLength (Number.isInteger_ofNat hn) (by omega) (hle.imp_left fun hle => by omega)

/-- A push leaves the array in order if its new length is not too long, or if the runs are roomy and
its arguments few. -/
theorem pushAll {args : List Value} (hroom : t.pushes ∧ args.length ≤ 4 ∨
      (s.movie.lengthNumber t.array).toUInt32 + args.length ≤ 0xffffffff) :
    t.Keeps (Builtin.pushAll machine (.object t.array) args) s := by
  have hpast := suffix_of_runs (fun old => (h.past old).pushAll
    (.object (handle_known t.array)) (args_known args)) s
  refine .of_good hpast fun htended => ?_
  have hlt := (s.movie.lengthNumber t.array).toUInt32_lt
  refine Keeps.bind_yields (htended.receiverAndLength_yields machine) id fun _ => ?_
  dsimp only
  refine .bind (h.writeFrom _ args) fun _ => ?_
  refine .bind (h.writeCount ?_ ?_) fun _ => .pure
  · omega
  · exact hroom.symm.imp_right And.left

/-- A pop leaves the array in order: it deletes a slot and writes a length. -/
theorem popLast : t.Keeps (Builtin.popLast machine (.object t.array)) s := by
  have hpast := suffix_of_runs (fun old => (h.past old).popLast
    (.object (handle_known t.array))) s
  refine .of_good hpast fun htended => ?_
  have hlt := (s.movie.lengthNumber t.array).toUInt32_lt
  refine Keeps.bind_yields (htended.receiverAndLength_yields machine) id fun _ => ?_
  dsimp only
  split
  · exact .bind (h.writeCount (n := 0) (by omega) (.inl (by omega))) fun _ => .pure
  · rename_i last hlength
    refine .bind (h.readKey _) fun v => .bind (.discard (.lift (h.deleteKey _))) fun _ => ?_
    exact .bind (h.writeCount (by omega) (.inl (by omega))) fun _ => .pure

/-- The routines that may run on the array. -/
theorem runRoutine {routine : Builtin} {args : List Value}
    (hroutine : t.mayRun s.movie args routine) :
    t.Keeps (routine.run machine (.object t.array) args) s := by
  simp only [mayRun, Bool.or_eq_true, decide_eq_true_eq, Bool.and_eq_true] at hroutine
  rcases hroutine with rfl | ⟨rfl, hroom⟩
  · exact h.popLast
  · exact h.pushAll hroom

end Attends

end Tending

end ActionScript
