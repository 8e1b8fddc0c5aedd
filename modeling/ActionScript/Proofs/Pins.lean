import Mathlib.Data.List.Perm.Subperm
import ActionScript.Proofs.Session.ArrayLength
import ActionScript.Proofs.Session.Course

/-! # Pins

An embedder pins and unpins objects and hands out callbacks, each of which is a pin until it is
released, while objects are created and collections run. The movie records the balance of the pins
of every object, an object with pins keeps its handle and its data, and a callback that was not
released keeps its function (`Session.Reached.pins_balance`). -/

namespace ActionScript

/-- How many pins an object has. -/
def Movie.pinCount (m : Movie) (o : ObjectId) : Nat := (m.pins.find? o).getD 0

/-! ## Steps of an embedder -/

namespace Pinning

inductive Step where
  | pin (o : ObjectId)
  | unpin (o : ObjectId)
  /-- Asks for a callback of a function. -/
  | callback (o : ObjectId)
  /-- Releases the callback that was handed out at a position. -/
  | release (i : Nat)
  | allocate (object : Object)
  | collect (extra : List ObjectId)

/-- What a step does to the pins of an object. -/
inductive Effect where
  | gain (o : ObjectId)
  | lose (o : ObjectId)
  | nothing

/-- The pins of an object after an effect; an object without pins loses none. -/
def Effect.count (o : ObjectId) (n : Nat) : Effect → Nat
  | gain p => if p = o then n + 1 else n
  | lose p => if p = o then n - 1 else n
  | nothing => n

/-- A movie with the callbacks that were handed out, in their order, and the positions of those that
were released, the last one first. -/
structure Holding where
  movie : Movie
  callbacks : List Machine.Callback := []
  released : List Nat := []

namespace Holding

def step (h : Holding) : Step → Holding
  | .pin o => { h with movie := (Movie.pin o h.movie).2 }
  | .unpin o => { h with movie := (Movie.unpin o h.movie).2 }
  | .callback o =>
    { h with
      movie := (Machine.callback? o h.movie).2
      callbacks := h.callbacks ++ (Machine.callback? o h.movie).1.toList }
  | .release i =>
    match h.callbacks[i]? with
    | some c =>
      { h with movie := (Machine.releaseCallback c h.movie).2, released := i :: h.released }
    | none => h
  | .allocate object => { h with movie := (Movie.onHeap (·.allocate object) h.movie).2 }
  | .collect extra => { h with movie := (Movie.collectGarbage extra h.movie).2 }

def run (h : Holding) (steps : List Step) : Holding := steps.foldl step h

/-- The pins that a step adds or takes away; a callback of what is no function adds none. -/
def effect (h : Holding) : Step → Effect
  | .pin o => .gain o
  | .unpin o => .lose o
  | .callback o => if h.movie.heap.isCallable (.object o) then .gain o else .nothing
  | .release i =>
    match h.callbacks[i]? with
    | some c => .lose c.function
    | none => .nothing
  | .allocate _ | .collect _ => .nothing

/-- The balance of the pins of an object after steps, from a balance before them. -/
def balance (h : Holding) (o : ObjectId) (n : Nat) : List Step → Nat
  | [] => n
  | step :: steps => (h.step step).balance o ((h.effect step).count o n) steps

theorem run_append (h : Holding) (xs ys : List Step) : h.run (xs ++ ys) = (h.run xs).run ys :=
  List.foldl_append

theorem balance_append (h : Holding) (o : ObjectId) (n : Nat) (xs ys : List Step) :
    h.balance o n (xs ++ ys) = (h.run xs).balance o (h.balance o n xs) ys := by
  induction xs generalizing h n with
  | nil => rfl
  | cons step xs ih => exact ih (h.step step) _

/-! ## What one step does -/

variable {h : Holding}

/-- A request for a callback pins a function, and does nothing else. -/
theorem step_callback (h : Holding) (o : ObjectId) :
    h.step (.callback o) =
      if h.movie.heap.isCallable (.object o) then
        { h with movie := (Movie.pin o h.movie).2, callbacks := h.callbacks ++ [⟨o⟩] }
      else h := by
  have hcallback : Machine.callback? o h.movie =
      if h.movie.heap.isCallable (.object o) then (some ⟨o⟩, (Movie.pin o h.movie).2)
      else (none, h.movie) := by
    show (if h.movie.heap.isCallable (.object o) then do
        Movie.pin o
        return some ⟨o⟩
      else return none : Edit (Option Machine.Callback)) h.movie = _
    split <;> rfl
  rw [step, hcallback]
  split
  · rfl
  · simp

theorem inOrder_step (hh : h.movie.InOrder) (step : Step) : (h.step step).movie.InOrder := by
  cases step with
  | pin o => exact (Edit.Passes.pin o h.movie).inOrder hh
  | unpin o => exact (Edit.Passes.unpin o h.movie).inOrder hh
  | callback o => exact (Edit.Passes.callback o h.movie).inOrder hh
  | release i =>
    rw [Holding.step]
    split
    · exact (Edit.Passes.unpin _ h.movie).inOrder hh
    · exact hh
  | allocate object =>
    exact hh.heap (hh.arena.allocate object) fun _ hlive => Heap.isLive_allocate_of_isLive hlive _
  | collect extra => exact (Edit.Passes.collectGarbage extra h.movie).inOrder hh

/-- The entry of a balance: none where it is zero. -/
def entry (n : Nat) : Option Nat := if n = 0 then none else some n

theorem find?_pins {m : Movie} (hm : m.InOrder) (o : ObjectId) :
    m.pins.find? o = entry (m.pinCount o) := by
  rw [Movie.pinCount, entry]
  cases hfind : m.pins.find? o with
  | none => rfl
  | some n => exact (if_neg (hm.pinned hfind).ne').symm

theorem find?_pin {m : Movie} {o : ObjectId} {n : Nat} (hn : m.pins.find? o = entry n)
    (p : ObjectId) : (Movie.pin p m).2.pins.find? o = entry ((Effect.gain p).count o n) := by
  show (m.pins.insert p ((m.pins.find? p).getD 0 + 1)).find? o = _
  rw [Table.find?_insert, Effect.count]
  by_cases hp : p = o
  · subst hp
    rw [if_pos rfl, if_pos rfl, hn, entry, entry, if_neg (Nat.succ_ne_zero n)]
    by_cases hzero : n = 0 <;> simp [hzero]
  · rw [if_neg (Ne.symm hp), if_neg hp, hn]

theorem find?_unpin {m : Movie} {o : ObjectId} {n : Nat} (hn : m.pins.find? o = entry n)
    (p : ObjectId) : (Movie.unpin p m).2.pins.find? o = entry ((Effect.lose p).count o n) := by
  show (Movie.dropPin m.pins p).find? o = _
  rw [Movie.find?_dropPin, Effect.count]
  by_cases hp : p = o
  · subst hp
    rw [if_pos rfl, if_pos rfl, hn, entry, entry]
    by_cases hzero : n = 0
    · simp [hzero]
    · by_cases hone : n ≤ 1
      · have hlast : n - 1 = 0 := by omega
        simp [hzero, hone, hlast]
      · have hmore : n - 1 ≠ 0 := by omega
        simp [hzero, hone, hmore]
  · rw [if_neg (Ne.symm hp), if_neg hp, hn]

theorem find?_pins_step {o : ObjectId} {n : Nat} (hn : h.movie.pins.find? o = entry n)
    (step : Step) : (h.step step).movie.pins.find? o = entry ((h.effect step).count o n) := by
  cases step with
  | pin p => exact find?_pin hn p
  | unpin p => exact find?_unpin hn p
  | callback p =>
    rw [step_callback, effect]
    split
    · exact find?_pin hn p
    · exact hn
  | release i =>
    rw [Holding.step, effect]
    split
    · exact find?_unpin hn _
    · exact hn
  | allocate object => exact hn
  | collect extra => exact hn

/-- A step leaves the data of a live object with pins as it is. -/
theorem get?_step (hh : h.movie.InOrder) {o : ObjectId} {object : Object}
    (hpinned : (h.movie.pins.find? o).isSome) (ho : h.movie.heap.get? o = some object)
    (step : Step) : (h.step step).movie.heap.get? o = some object := by
  cases step with
  | pin p => exact ho
  | unpin p => exact ho
  | callback p =>
    rw [step_callback]
    split <;> exact ho
  | release i =>
    rw [Holding.step]
    split <;> exact ho
  | allocate x =>
    have hne : o ≠ (h.movie.heap.allocate x).1 := by
      rintro rfl
      exact hh.arena.not_isLive_allocate x (Heap.isLive_of_get? ho)
    show (h.movie.heap.allocate x).2.get? o = some object
    rw [hh.arena.get?_allocate, if_neg hne]
    exact ho
  | collect extra =>
    show (h.movie.heap.collect (h.movie.roots ++ extra)).2.get? o = some object
    have hroot : o ∈ h.movie.roots ++ extra :=
      List.mem_append_left extra (Movie.mem_roots_iff.mpr (.pin hpinned))
    have hlive := Heap.isLive_collect_iff.mpr (.root hroot (Heap.isLive_of_get? ho))
    rw [Heap.get?_collect_of_isLive hlive]
    exact ho

/-! ## What a run does -/

theorem inOrder_run (hh : h.movie.InOrder) (steps : List Step) : (h.run steps).movie.InOrder := by
  induction steps generalizing h with
  | nil => exact hh
  | cons step steps ih => exact ih (inOrder_step hh step)

theorem find?_pins_run {o : ObjectId} {n : Nat} (hn : h.movie.pins.find? o = entry n)
    (steps : List Step) : (h.run steps).movie.pins.find? o = entry (h.balance o n steps) := by
  induction steps generalizing h n with
  | nil => exact hn
  | cons step steps ih => exact ih (find?_pins_step hn step)

theorem isSome_entry {n : Nat} : (entry n).isSome ↔ 0 < n := by
  rw [entry, Nat.pos_iff_ne_zero]
  split
  · rename_i hn
    simp [hn]
  · rename_i hn
    simp [hn]

/-- An object with pins keeps its data until its balance is zero. -/
theorem get?_run (hh : h.movie.InOrder) {o : ObjectId} {object : Object} {n : Nat}
    (hn : h.movie.pins.find? o = entry n) (ho : h.movie.heap.get? o = some object)
    {steps : List Step} (hbalance : ∀ first, first <+: steps → 0 < h.balance o n first) :
    (h.run steps).movie.heap.get? o = some object := by
  induction steps generalizing h n with
  | nil => exact ho
  | cons step steps ih =>
    have hpinned : (h.movie.pins.find? o).isSome := by
      rw [hn, isSome_entry]
      exact hbalance [] List.nil_prefix
    refine ih (inOrder_step hh step) (find?_pins_step hn step) (get?_step hh hpinned ho step) ?_
    exact fun first hfirst => hbalance (step :: first) (List.prefix_cons_inj step |>.mpr hfirst)

/-! ## Callbacks -/

/-- The positions of the callbacks of a function that were not released. -/
def outstanding (h : Holding) (f : ObjectId) : List Nat :=
  (List.range h.callbacks.length).filter fun i => h.callbacks[i]? = some ⟨f⟩ ∧ i ∉ h.released

theorem mem_outstanding_iff {f : ObjectId} {i : Nat} :
    i ∈ h.outstanding f ↔ h.callbacks[i]? = some ⟨f⟩ ∧ i ∉ h.released := by
  rw [outstanding, List.mem_filter, List.mem_range, decide_eq_true_eq]
  refine ⟨And.right, fun hi => ⟨?_, hi⟩⟩
  exact (List.getElem?_eq_some_iff.mp hi.1).1

/-- What a request for a callback may add to them. -/
theorem mem_outstanding_callback {f p : ObjectId} {i : Nat}
    (hi : i ∈ (h.step (.callback p)).outstanding f) :
    i ∈ h.outstanding f ∨ (i = h.callbacks.length ∧ p = f) := by
  rw [step_callback] at hi
  split at hi
  · rw [mem_outstanding_iff] at hi ⊢
    obtain ⟨hcallback, hheld⟩ := hi
    have hlast : h.callbacks[i]? = some ⟨f⟩ ∨ (i = h.callbacks.length ∧ p = f) := by grind
    exact hlast.imp_left fun hold => ⟨hold, hheld⟩
  · exact .inl hi

theorem length_outstanding_le {f : ObjectId} {positions : List Nat}
    (hsub : ∀ i ∈ h.outstanding f, i ∈ positions) :
    (h.outstanding f).length ≤ positions.length :=
  ((List.nodup_range.filter _).subperm hsub).length_le

/-- Every callback of a function that was not released has a pin of the function. -/
structure Covers (h : Holding) (f : ObjectId) : Prop where
  pinned : ∃ n, h.movie.pins.find? f = entry n ∧ (h.outstanding f).length ≤ n
  callable : h.outstanding f ≠ [] → h.movie.heap.isCallable (.object f)

theorem Covers.isSome_pins {f : ObjectId} (hf : h.Covers f) (hne : h.outstanding f ≠ []) :
    (h.movie.pins.find? f).isSome := by
  obtain ⟨n, hn, hle⟩ := hf.pinned
  rw [hn, isSome_entry]
  exact (List.length_pos_iff.mpr hne).trans_le hle

/-- While a callback of it was not released, a function stays one. -/
theorem Covers.isCallable_step {f : ObjectId} (hh : h.movie.InOrder) (hf : h.Covers f)
    (hne : h.outstanding f ≠ []) (step : Step) :
    (h.step step).movie.heap.isCallable (.object f) := by
  have hcallable : (h.movie.heap.callable? f).isSome := hf.callable hne
  obtain ⟨c, hc⟩ := Option.isSome_iff_exists.mp hcallable
  obtain ⟨object, ho, hobject⟩ := Option.bind_eq_some_iff.mp hc
  have hget := get?_step hh (hf.isSome_pins hne) ho step
  show ((h.step step).movie.heap.callable? f).isSome
  rw [Heap.callable?, hget, Option.bind_some, hobject]
  rfl

/-- A step that adds no callback of a function and leaves enough pins of it. -/
theorem Covers.of_subset {f : ObjectId} (hh : h.movie.InOrder) (hf : h.Covers f) {step : Step}
    (positions : List Nat) (hsub : ∀ i ∈ (h.step step).outstanding f, i ∈ positions)
    (hpositions : positions ⊆ h.outstanding f)
    (hcount : ∀ n, (h.outstanding f).length ≤ n →
      positions.length ≤ (h.effect step).count f n) : (h.step step).Covers f := by
  obtain ⟨n, hn, hle⟩ := hf.pinned
  refine ⟨⟨_, find?_pins_step hn step, ?_⟩, fun hne => hf.isCallable_step hh ?_ step⟩
  · exact (length_outstanding_le hsub).trans (hcount n hle)
  · obtain ⟨i, hi⟩ := List.exists_mem_of_ne_nil _ hne
    exact List.ne_nil_of_mem (hpositions (hsub i hi))

/-- A step that leaves the callbacks of a function and takes no pin of it. -/
theorem Covers.of_outstanding {f : ObjectId} (hh : h.movie.InOrder) (hf : h.Covers f) {step : Step}
    (hsub : ∀ i ∈ (h.step step).outstanding f, i ∈ h.outstanding f)
    (hcount : ∀ n, n ≤ (h.effect step).count f n) : (h.step step).Covers f :=
  hf.of_subset hh _ hsub (List.Subset.refl _) fun n hle => hle.trans (hcount n)

/-- A callback of a function comes with a pin of it. -/
theorem Covers.callback_self {f : ObjectId} (hf : h.Covers f)
    (hcallable : h.movie.heap.isCallable (.object f)) : (h.step (.callback f)).Covers f := by
  obtain ⟨n, hn, hle⟩ := hf.pinned
  refine ⟨⟨_, find?_pins_step hn _, ?_⟩, fun _ => ?_⟩
  · have hsub : ∀ i ∈ (h.step (.callback f)).outstanding f,
        i ∈ h.outstanding f ++ [h.callbacks.length] := by
      intro i hi
      rw [List.mem_append, List.mem_singleton]
      exact (mem_outstanding_callback hi).imp_right And.left
    have hlength := length_outstanding_le hsub
    rw [List.length_append, List.length_singleton] at hlength
    rw [effect, if_pos hcallable, Effect.count, if_pos rfl]
    omega
  · rw [step_callback, if_pos hcallable]
    exact hcallable

theorem Covers.callback {f : ObjectId} (hh : h.movie.InOrder) (hf : h.Covers f) (p : ObjectId) :
    (h.step (.callback p)).Covers f := by
  by_cases hcallable : h.movie.heap.isCallable (.object p)
  · by_cases hp : p = f
    · subst hp
      exact hf.callback_self hcallable
    · refine hf.of_outstanding hh (fun i hi => ?_) fun n => ?_
      · exact (mem_outstanding_callback hi).resolve_right fun hnew => hp hnew.2
      · rw [effect, if_pos hcallable, Effect.count, if_neg hp]
  · rw [step_callback, if_neg hcallable]
    exact hf

/-- A release of a callback takes one pin of its function, and the callback was not released
before. -/
theorem Covers.release {f : ObjectId} (hh : h.movie.InOrder) (hf : h.Covers f) (i : Nat)
    (honce : (h.step (.release i)).released.Nodup) : (h.step (.release i)).Covers f := by
  cases hc : h.callbacks[i]? with
  | none =>
    have hstep : h.step (.release i) = h := by rw [Holding.step, hc]
    rw [hstep]
    exact hf
  | some c =>
    have hstep : h.step (.release i) =
        { h with movie := (Movie.unpin c.function h.movie).2, released := i :: h.released } := by
      rw [Holding.step, hc]
      rfl
    -- One position less is outstanding if the callback is of this function, else none less.
    have hsub : ∀ j ∈ (h.step (.release i)).outstanding f, j ∈ (h.outstanding f).erase i := by
      intro j hj
      rw [mem_outstanding_iff, hstep, List.mem_cons, not_or] at hj
      rw [List.mem_erase_of_ne hj.2.1, mem_outstanding_iff]
      exact ⟨hj.1, hj.2.2⟩
    refine hf.of_subset hh _ hsub List.erase_subset fun n hle => ?_
    have heffect : h.effect (.release i) = .lose c.function := by rw [effect, hc]
    rw [heffect, Effect.count]
    split
    · rename_i hfunction
      rw [hstep] at honce
      have hmem : i ∈ h.outstanding f :=
        mem_outstanding_iff.mpr ⟨by rw [hc, ← hfunction], (List.nodup_cons.mp honce).1⟩
      rw [List.length_erase_of_mem hmem]
      omega
    · exact List.length_erase_le.trans hle

theorem Covers.step {f : ObjectId} (hh : h.movie.InOrder) (hf : h.Covers f) {step : Step}
    (hunpin : step ≠ .unpin f) (honce : (h.step step).released.Nodup) :
    (h.step step).Covers f := by
  cases step with
  | pin p =>
    refine hf.of_outstanding hh (fun _ => id) fun n => ?_
    rw [effect, Effect.count]
    split <;> omega
  | unpin p =>
    refine hf.of_outstanding hh (fun _ => id) fun n => ?_
    rw [effect, Effect.count, if_neg]
    rintro rfl
    exact hunpin rfl
  | callback p => exact hf.callback hh p
  | release i => exact hf.release hh i honce
  | allocate object | collect extra => exact hf.of_outstanding hh (fun _ => id) fun n => le_refl n

theorem released_suffix_step (h : Holding) (step : Step) :
    h.released <:+ (h.step step).released := by
  cases step with
  | release i =>
    rw [Holding.step]
    split
    · exact List.suffix_cons _ _
    · exact List.suffix_refl _
  | _ => exact List.suffix_refl _

theorem released_suffix_run (h : Holding) (steps : List Step) :
    h.released <:+ (h.run steps).released := by
  induction steps generalizing h with
  | nil => exact List.suffix_refl _
  | cons step steps ih => exact (h.released_suffix_step step).trans (ih _)

theorem Covers.run {f : ObjectId} (hh : h.movie.InOrder) (hf : h.Covers f) {steps : List Step}
    (hunpin : .unpin f ∉ steps) (honce : (h.run steps).released.Nodup) :
    (h.run steps).Covers f := by
  induction steps generalizing h with
  | nil => exact hf
  | cons step steps ih =>
    rw [List.mem_cons, not_or] at hunpin
    have hstep : (h.step step).released.Nodup :=
      honce.sublist ((h.step step).released_suffix_run steps).sublist
    exact ih (inOrder_step hh step) (hf.step hh (Ne.symm hunpin.1) hstep) hunpin.2 honce

end Holding

/-- A movie before a callback is handed out. -/
def holding (m : Movie) : Holding := { movie := m }

theorem covers_holding {m : Movie} (hm : m.InOrder) (f : ObjectId) : (holding m).Covers f where
  pinned := ⟨m.pinCount f, Holding.find?_pins hm f, Nat.zero_le _⟩
  callable hne := (hne rfl).elim

end Pinning

namespace Session

open Pinning

/-- From any movie of a session on, an embedder pins, unpins, hands out and releases callbacks,
creates objects and collects, in any order. After all steps the movie records the balance of the
pins of every object, and no entry where that is zero. A live object keeps its handle and its data
as long as its balance is not zero. If no callback is released twice, a callback that was not
released has its function, unless that was unpinned in another way. -/
theorem Reached.pins_balance {m : Movie} (hm : Reached m) (steps : List Step) :
    (∀ o, ((holding m).run steps).movie.pins.find? o =
      Holding.entry ((holding m).balance o (m.pinCount o) steps)) ∧
    (∀ {before after o object}, before ++ after = steps →
      ((holding m).run before).movie.heap.get? o = some object →
      (∀ first, first <+: after → 0 < (holding m).balance o (m.pinCount o) (before ++ first)) →
      ((holding m).run steps).movie.heap.get? o = some object) ∧
    (((holding m).run steps).released.Nodup → ∀ {i f},
      ((holding m).run steps).callbacks[i]? = some ⟨f⟩ →
      i ∉ ((holding m).run steps).released → .unpin f ∉ steps →
      ((holding m).run steps).movie.heap.isCallable (.object f)) := by
  have hstart : (holding m).movie.InOrder := hm.inOrder
  have hpins : ∀ o steps, ((holding m).run steps).movie.pins.find? o =
      Holding.entry ((holding m).balance o (m.pinCount o) steps) :=
    fun o steps => Holding.find?_pins_run (Holding.find?_pins hm.inOrder o) steps
  refine ⟨fun o => hpins o steps, ?_, fun honce i f hi hheld hunpin => ?_⟩
  · rintro before after o object rfl ho hbalance
    rw [Holding.run_append]
    refine Holding.get?_run (Holding.inOrder_run hstart before) (hpins o before) ho ?_
    intro first hfirst
    have hpositive := hbalance first hfirst
    rwa [Holding.balance_append] at hpositive
  · have hcovers := (covers_holding hm.inOrder f).run hstart hunpin honce
    exact hcovers.callable (List.ne_nil_of_mem (Holding.mem_outstanding_iff.mpr ⟨hi, hheld⟩))

/-- The first object that is created in a new movie. -/
def firstCreated : ObjectId := ⟨(Movie.new {}).heap.slots.size⟩

/-- Hands out two callbacks of a new function, releases the first and collects. -/
def releaseFirst : List Step :=
  [.allocate { prototype := none, kind := .function (.native "f" (.builtin .nothing) none) },
    .callback firstCreated, .callback firstCreated, .release 0, .collect []]

theorem pins_releaseFirst :
    ((holding (Movie.new {})).run releaseFirst).movie.pins.find? firstCreated = some 1 ∧
      ((holding (Movie.new {})).run releaseFirst).released.Nodup ∧
      ((holding (Movie.new {})).run releaseFirst).callbacks[1]? = some ⟨firstCreated⟩ ∧
      1 ∉ ((holding (Movie.new {})).run releaseFirst).released ∧
      ((holding (Movie.new {})).run releaseFirst).movie.heap.isCallable (.object firstCreated) := by
  obtain ⟨hpins, _, hcallbacks⟩ := (reached_new {}).pins_balance releaseFirst
  have hbalance : (holding (Movie.new {})).balance firstCreated
      ((Movie.new {}).pinCount firstCreated) releaseFirst = 1 := by decide +kernel
  have honce : ((holding (Movie.new {})).run releaseFirst).released.Nodup := by decide +kernel
  have hsecond : ((holding (Movie.new {})).run releaseFirst).callbacks[1]? =
      some ⟨firstCreated⟩ := by decide +kernel
  have hheld : 1 ∉ ((holding (Movie.new {})).run releaseFirst).released := by decide +kernel
  have hunpin : .unpin firstCreated ∉ releaseFirst := by simp [releaseFirst]
  refine ⟨?_, honce, hsecond, hheld, hcallbacks honce hsecond hheld hunpin⟩
  rw [hpins, hbalance]
  rfl

end Session

end ActionScript
