import ActionScript.Proofs.Session.Reached
import ActionScript.Proofs.Session.Tending

/-! # Lengths of arrays in a session

A client that only writes, deletes, pushes and pops on an array, from its main program and from its
callbacks, finds the length of the array above all indices after every call
(`Reached.length_above_indices`). It may watch the elements and change their attributes, and the
array may inherit accessors; but it leaves the slot of the length to writes of integers. -/

namespace ActionScript

variable {σ α : Type}

/-! ## Programs under a rule -/

namespace Session

/-- The program that makes the calls that a rule allows in the movie they are made in; the others
fail. It keeps the movie after each call. -/
def Program.abiding (rule : Movie → Call → Bool) : Program σ α → Program (σ × List Movie) α
  | done a => .done a
  | look next => .look fun m kept => (next m kept.1).abiding rule
  | keep own next => .look fun _ kept => .keep (own, kept.2) (next.abiding rule)
  | ask call next => .look fun m _ =>
    if rule m call then
      .ask call fun reply => .look fun m kept =>
        .keep (kept.1, m :: kept.2) ((next reply).abiding rule)
    else (next (.error .tooDeep)).abiding rule

/-- The client whose programs all abide by a rule. -/
def Client.abiding (rule : Movie → Call → Bool) (c : Client σ) : Client (σ × List Movie) where
  function f this args := (c.function f this args).abiding rule
  initializeClass cls state := (c.initializeClass cls state).abiding rule
  notify observer key := (c.notify observer key).abiding rule
  executeActions executor actions scope := (c.executeActions executor actions scope).abiding rule
  executeFunction executor f actions scope this args :=
    (c.executeFunction executor f actions scope this args).abiding rule
  resolveTarget executor target := (c.resolveTarget executor target).abiding rule
  checkTimeout executor := (c.checkTimeout executor).abiding rule
  now := c.now.abiding rule

/-- The state that a client that abides by a rule leads to from a movie. -/
def Client.resume (c : Client σ) (rule : Movie → Call → Bool) (depth : Nat) (m : Movie) (own : σ)
    (main : Program σ α) : State (Ledger (σ × List Movie)) :=
  ((main.abiding rule).run ((c.abiding rule).host.machine depth) false
    ⟨m, { own := (own, []), careful := true, past := [m] }⟩).2

end Session

open Session

namespace Tending

/-! ## Calls -/

/-- What may be written under a key: an integer below the greatest length under the length, an
object of the family or no object under the prototype link, and anything elsewhere. -/
def mayWrite (t : Tending) (key : String) (v : Value) : Bool :=
  if key = Movie.lengthKey then
    match v with
    | .number x => x.isInteger && 0 ≤ x.toInt && x.toInt < 0xffffffff
    | _ => false
  else key ≠ Heap.protoKey || v.object?.all t.family

/-- The calls of a client that tends the array. Slots may be watched, be given attributes and be
replaced, but not that of the length. -/
def allows (t : Tending) (m : Movie) : Call → Bool
  | .data (.read o _) | .data (.delete o _) => o = t.array
  | .data (.write o name v) | .writeAt o (.string name) v =>
    o = t.array && t.mayWrite (m.normalize name) v
  | .writeAt o (.number x) v => o = t.array && t.mayWrite x.text v
  | .call (.object f) (.object o) args => o = t.array && t.mayCall m f args
  | .data (.define o name p) =>
    p.callbacks.all t.functions && (o ≠ t.array || (m.normalize name ≠ Movie.lengthKey &&
      ((m.heap.slot? o (m.normalize name)).isSome || (arrayIndex? (m.normalize name)).isNone)))
  | .setWatcher _ name watcher =>
    m.normalize name ≠ Movie.lengthKey && watcher.all fun w => t.functions w.callback
  | .setFlags o names _ _ =>
    o ≠ t.array || names.any fun names => !(names.map m.normalize).contains Movie.lengthKey
  | _ => false

variable {t : Tending} {s : State (Ledger (σ × List Movie))}

theorem Upholds.audit (handles : List ObjectId) (proper : Bool) :
    t.Upholds (audit handles proper) s :=
  .of_tended (List.suffix_refl _) rfl id

/-- The array is in order in a movie that the client keeps. -/
theorem Onward.keep (s : State (Ledger (σ × List Movie))) : t.Onward s
    { s with embedder := { s.embedder with
      own := (s.embedder.own.1, s.movie :: s.embedder.own.2) } } :=
  ⟨List.suffix_refl _, fun _ hgood => ⟨hgood.tended,
    List.forall_mem_cons.mpr ⟨hgood.tended.lengthFits, hgood.kept⟩⟩⟩

namespace Attends

variable {machine : Machine (Ledger (σ × List Movie))} (h : t.Attends machine)
include h

theorem writeKey_of_mayWrite {key name : String} {v : Value} (hv : t.mayWrite key v) :
    t.Keeps (machine.writeKey t.array key name v) s := by
  unfold mayWrite at hv
  split at hv
  · rename_i hkey
    subst hkey
    split at hv
    · simp only [Bool.and_eq_true, decide_eq_true_eq] at hv
      exact h.writeLength hv.1.1 hv.1.2 (.inl hv.2.le)
    · cases hv
  · rename_i hkey
    simp only [Bool.or_eq_true, decide_eq_true_eq, Option.all_eq_true] at hv
    exact h.writeKey hkey fun hproto => hv.resolve_left (not_not_intro hproto)

theorem perform {call : Call} (hcall : t.allows s.movie call) :
    t.Keeps (call.perform machine) s := by
  cases call with
  | data call =>
    cases call with
    | read o name =>
      obtain rfl : o = t.array := of_decide_eq_true hcall
      exact .bind (h.read name) fun _ => .pure
    | delete o name =>
      obtain rfl : o = t.array := of_decide_eq_true hcall
      exact .bind (.lift (.movie (h.deleteKey _))) fun _ => .pure
    | write o name v =>
      obtain ⟨rfl, hv⟩ : o = t.array ∧ _ := by simpa [allows] using hcall
      exact .bind (.movie (h.writeKey_of_mayWrite hv)) fun _ => .pure
    | define o name p =>
      simp only [allows, Bool.and_eq_true, List.all_eq_true, Bool.or_eq_true,
        decide_eq_true_eq, Option.isNone_iff_eq_none] at hcall
      refine .bind (.edit fun htended => htended.define ?_ hcall.1) fun _ => .pure
      exact fun ho => hcall.2.resolve_left (not_not_intro ho)
    | _ => exact absurd hcall Bool.false_ne_true
  | writeAt o key v =>
    cases key with
    | string name =>
      obtain ⟨rfl, hv⟩ : o = t.array ∧ _ := by simpa [allows] using hcall
      exact .bind (.movie (h.writeKey_of_mayWrite hv)) fun _ => .pure
    | number x =>
      obtain ⟨rfl, hv⟩ : o = t.array ∧ t.mayWrite x.text v := by simpa [allows] using hcall
      exact .bind (h.writeKey_of_mayWrite hv) fun _ => .pure
    | _ => exact absurd hcall Bool.false_ne_true
  | call function this args =>
    cases function with
    | object f =>
      cases this with
      | object o =>
        obtain ⟨rfl, hf⟩ : o = t.array ∧ _ := by simpa [allows] using hcall
        exact .bind (h.call fun _ => hf) fun _ => .pure
      | _ => exact absurd hcall Bool.false_ne_true
    | _ => exact absurd hcall Bool.false_ne_true
  | setWatcher o name watcher =>
    simp only [allows, Bool.and_eq_true, decide_eq_true_eq, Option.all_eq_true] at hcall
    exact .bind (.edit fun htended => htended.setWatcher hcall.1 hcall.2) fun _ => .pure
  | setFlags o names set clear =>
    simp only [allows, Bool.or_eq_true, decide_eq_true_eq, Option.any_eq_true,
      Bool.not_eq_true', List.contains_eq_mem, decide_eq_false_iff_not] at hcall
    refine .bind (.edit fun htended => htended.setFlags set clear fun ho => ?_) fun _ => .pure
    exact hcall.resolve_left (not_not_intro ho)
  | _ => exact absurd hcall Bool.false_ne_true

/-! ## Programs -/

/-- A program that abides by the rule, by induction on its calls. -/
theorem run (program : Program σ α) (inside : Bool) :
    t.Upholds ((program.abiding t.allows).run machine inside) s := by
  induction program generalizing s with
  | done a => exact .pure
  | look next ih => exact ih s.movie s.embedder.own.1
  | keep own next ih =>
    have hkeep : t.Onward s
        { s with embedder := { s.embedder with own := (own, s.embedder.own.2) } } :=
      .of_tended (List.suffix_refl _) rfl id
    exact hkeep.trans ih
  | ask call next ih =>
    have hlook : ((Program.ask call next).abiding t.allows).run machine inside s =
        (if t.allows s.movie call then
          .ask call fun reply => .look fun m kept =>
            .keep (kept.1, m :: kept.2) ((next reply).abiding t.allows)
        else (next (.error .tooDeep)).abiding t.allows : Program (σ × List Movie) α).run machine
          inside s := rfl
    rw [Upholds, hlook]
    split
    · rename_i hcall
      refine Upholds.bind (.audit _ _) fun _ => Upholds.bind (h.perform hcall) fun reply => ?_
      exact (Onward.keep _).trans (ih reply)
    · exact ih _

theorem answer (program : Program σ (Except Error α)) (handles : α → List ObjectId) :
    t.Keeps ((program.abiding t.allows).answer machine handles) s :=
  Upholds.bind (h.run program true) fun _ => .bind (.audit _ _) fun _ => .pure

end Attends

end Tending

/-! ## Sessions -/

namespace Session

/-- The machine of a client attends to the array if the client abides by its rule. -/
theorem Client.attends (c : Client σ) (t : Tending) (depth : Nat) :
    t.Attends ((c.abiding t.allows).host.machine depth) := by
  -- Callbacks and routines run on the machine of the depth below, which attends to the array.
  induction depth with
  | zero =>
    exact ⟨fun _ => (c.abiding t.allows).respects_since 0, fun _ _ _ _ => .throw,
      fun _ _ _ _ _ _ _ => .throw, fun _ _ _ => .pure, fun _ => .throw⟩
  | succ n ih =>
    exact ⟨fun _ => (c.abiding t.allows).respects_since (n + 1), fun _ _ _ _ => ih.answer _ _,
      fun _ _ _ _ _ _ _ => ih.answer _ _, fun _ _ _ => ih.run _ true,
      fun hroutine => ih.runRoutine hroutine⟩

end Session

/-! ## New arrays -/

namespace Movie

/-- Right after an array was made, by the embedder or by the constructor of arrays, with no more
elements than a length can count. -/
inductive MakesArray (m : Movie) : ObjectId → Movie → Prop
  | create (elements : List Value) (hsize : elements.length ≤ 0xffffffff) :
    MakesArray m (createArray elements m).1 (createArray elements m).2
  | construct {σ : Type} [Journal σ] (machine : Machine σ) (this : Value) (args : List Value)
    (hsize : args.length ≤ 0xffffffff) {e e' : σ} {a : ObjectId} {m' : Movie}
    (hrun : (Builtin.array .create).run machine this args ⟨m, e⟩ = (.ok (.object a), ⟨m', e'⟩)) :
    MakesArray m a m'

/-- The constructor makes an array of its arguments, or one without elements of a given length. -/
theorem construct_yields [Journal σ] {m : Movie} (ha : m.heap.Arena) (machine : Machine σ)
    (this : Value) {args : List Value} (hsize : args.length ≤ 0xffffffff) :
    ∃ a m', ((Builtin.array .create).run machine this args).Yields m (.object a) m' ∧
      ∃ x, m'.HasArray a x := by
  by_cases hnumber : ∃ n, args = [.number n]
  · obtain ⟨n, rfl⟩ := hnumber
    have hempty : (createArray [] m).2.HasArray (createArray [] m).1 (.ofNat 0) :=
      hasArray_createArray ha (Nat.zero_le _)
    have hlt := n.toUInt32_lt
    exact ⟨_, _, .bind (.edit (createArray [])) (.bind (.edit (setLength _ _)) .pure), _,
      hempty.setLength (Number.toInt_ofNat (by decide)) (by omega)⟩
  · have hrun : (Builtin.array .create).run machine this args =
        (do return .object (← createArray args) : Run σ Value) := by
      rw [Builtin.run, Builtin.OfArray.run]
      exact fun n hn => hnumber ⟨n, hn⟩
    rw [hrun]
    exact ⟨_, _, .bind (.edit (createArray args)) .pure, _, hasArray_createArray ha hsize⟩

theorem MakesArray.hasArray {m m' : Movie} {a : ObjectId} (h : m.MakesArray a m')
    (ha : m.heap.Arena) : ∃ x, m'.HasArray a x := by
  cases h with
  | create elements hsize => exact ⟨_, hasArray_createArray ha hsize⟩
  | @construct _ _ machine this args hsize e _ _ _ hrun =>
    obtain ⟨b, m'', hyields, hb⟩ := construct_yields ha machine this hsize
    obtain ⟨seen, _, hresult⟩ := hyields e
    rw [hresult] at hrun
    cases hrun
    exact hb

end Movie

theorem Tending.tended_of_hasArray {t : Tending} {m : Movie} {x : Number}
    (h : m.HasArray t.array x) (hguarded : t.Guarded m) : t.Tended m := by
  obtain ⟨object, hobject, hkind, hfits⟩ := h
  refine ⟨hguarded, ?_, object, x, hobject, hfits⟩
  rw [Heap.isArray, hobject, Option.any_some, Object.isArray, hkind]

namespace Session

/-- Whatever a client does on a new array by calls that its tending allows, its length is an integer
of 32 bits above all its indices, in the end and after every call, also of a callback. The calls of
`push` that it makes find room; where slots may call `push` as well, the length stays within 32 bits
on the way. -/
theorem Reached.length_above_indices {m m₁ : Movie} (hm : Reached m) {t : Tending}
    (hmade : m.MakesArray t.array m₁) (hguarded : t.Guarded m₁) (c : Client σ) (depth : Nat)
    (own : σ) (main : Program σ α)
    (hroomy : t.pushes → ∀ m' ∈ (c.resume t.allows depth m₁ own main).embedder.past,
      (m'.lengthNumber t.array).toInt ≤ 0xffffffff) :
    m₁.LengthFits t.array ∧ (c.resume t.allows depth m₁ own main).movie.LengthFits t.array ∧
      ∀ m' ∈ (c.resume t.allows depth m₁ own main).embedder.own.2, m'.LengthFits t.array := by
  obtain ⟨x, hx⟩ := hmade.hasArray hm.arena
  have htended := t.tended_of_hasArray hx hguarded
  have hgood := ((c.attends t depth).run main false).good hroomy ⟨htended, nofun⟩
  exact ⟨htended.lengthFits, hgood.tended.lengthFits, hgood.kept⟩

theorem reached_new (settings : Settings) : Reached (Movie.new settings) :=
  ⟨Unit, Unit, Client.begetting, 0, settings, (), .done (), List.mem_cons_self⟩

end Session

namespace Tending

/-- An array with a list of objects that it may inherit from and a list of functions. -/
def ofLists (array : ObjectId) (parents functions : List ObjectId) : Tending where
  array := array
  family o := (array :: parents).contains o
  own := List.elem_cons_self
  functions f := functions.contains f
  pushes := false

theorem array_ofLists (array : ObjectId) (parents functions : List ObjectId) :
    (ofLists array parents functions).array = array := rfl

theorem guarded_ofLists {m : Movie} {array : ObjectId} {parents functions : List ObjectId}
    (hfunctions : ∀ f ∈ functions, (ofLists array parents functions).admits m.heap f)
    (hkin : ∀ o ∈ array :: parents, ∀ p ∈ m.heap.prototype? o, p ∈ array :: parents)
    (hclear : ∀ o ∈ array :: parents, ∀ object ∈ m.heap.get? o,
      ∀ p ∈ object.properties.values, ∀ f ∈ p.callbacks, f ∈ functions) :
    (ofLists array parents functions).Guarded m where
  functions hf := hfunctions _ (List.contains_iff_mem.mp hf)
  kin ho hp := List.contains_iff_mem.mpr (hkin _ (List.contains_iff_mem.mp ho) _ hp)
  clear ho hx key p hp f hf := List.contains_iff_mem.mpr
    (hclear _ (List.contains_iff_mem.mp ho) _ hx p (Table.mem_values_iff.mpr ⟨key, hp⟩) f hf)

end Tending

namespace Session

/-- A new movie with an array of one element. -/
def withSingle : ObjectId × Movie := Movie.createArray [.null] (Movie.new {})

theorem makesArray_withSingle : (Movie.new {}).MakesArray withSingle.1 withSingle.2 := by
  rw [withSingle]
  exact .create [.null] (by decide)

/-- The built-in function `pop`. -/
def popFunction : ObjectId :=
  ((withSingle.2.find? withSingle.1 "pop").bind fun p => p.value.object?).getD withSingle.1

/-- The objects that the array inherits from. -/
def singleParents : List ObjectId := (withSingle.2.heap.chain withSingle.1).tail

theorem guarded_withSingle :
    (Tending.ofLists withSingle.1 singleParents [popFunction]).Guarded withSingle.2 := by
  refine Tending.guarded_ofLists ?_ ?_ ?_
  · decide +kernel
  · decide +kernel
  · decide +kernel

/-- Writes an element that `pop` watches. -/
def popWhileWriting : Program Unit Unit :=
  .ask (.setWatcher withSingle.1 "0" (some ⟨"0", popFunction, .null⟩)) fun _ =>
    .ask (.data (.write withSingle.1 "0" (.bool true))) fun _ => .done ()

/-- The state that is left: the element was popped and then added again. -/
def afterPop : State (Ledger (Unit × List Movie)) :=
  Client.begetting.resume (Tending.ofLists withSingle.1 singleParents [popFunction]).allows 2
    withSingle.2 () popWhileWriting

theorem length_above_indices_afterPop :
    afterPop.movie.heap.keysOf withSingle.1 = ["length", "0"] ∧
      afterPop.movie.LengthFits withSingle.1 := by
  refine ⟨by decide +kernel, ?_⟩
  have hmade := makesArray_withSingle
  rw [← Tending.array_ofLists withSingle.1 singleParents [popFunction]] at hmade
  have hfits := (reached_new {}).length_above_indices hmade guarded_withSingle Client.begetting 2 ()
    popWhileWriting fun hpushes => absurd hpushes Bool.false_ne_true
  rw [Tending.array_ofLists] at hfits
  rw [afterPop]
  exact hfits.2.1

end Session

end ActionScript
