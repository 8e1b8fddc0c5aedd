import ActionScript.Proofs.Session.ArrayLength
import ActionScript.Proofs.Session.Course

/-! # Protected slots in a session

A client that leaves slots to writes, deletions and functions keeps every slot that is protected
from deletion, in its main program and in its callbacks, until one of three things happens: an array
gets a length that is not above the index of the slot, a built-in function clears the attribute, or
one puts an accessor in the place of the slot (`Reached.protected_slot_lasts`). The first of them
drops the slot though it is protected (`protected_slot_cut_off`). -/

namespace ActionScript

/-! ## How a slot loses its protection -/

/-- Flags of other objects, or without the one cleared, leave a slot protected. -/
theorem Heap.isProtected_adjust {h : Heap} {o o' : ObjectId} {key : String} {set clear : Flags}
    (hother : o ≠ o' ∨ clear.dontDelete = false) (hp : h.isProtected o key) (keys : List String) :
    (keys.foldl (fun h key => h.modifySlot o' key (·.adjust set clear)) h).isProtected o key := by
  induction keys generalizing h with
  | nil => exact hp
  | cons key' keys ih =>
    refine ih ?_
    rw [isProtected, slot?_modifySlot]
    split
    · rename_i heq
      have hclear := hother.resolve_left (not_not_intro heq.1)
      obtain ⟨p, hslot, hprotected⟩ := (Option.any_eq_true _ _).mp hp
      rw [hslot, Option.map_some, Option.any_some, Property.adjust, hprotected, hclear]
      rfl
    · exact hp

theorem Heap.isArray_adjust (h : Heap) (o a : ObjectId) (f : Property → Property)
    (keys : List String) :
    (keys.foldl (fun h key => h.modifySlot o key f) h).isArray a = h.isArray a := by
  induction keys generalizing h with
  | nil => rfl
  | cons key keys ih => exact (ih _).trans (h.isArray_modifySlot o key f a)

namespace Movie

variable {m n : Movie} {o a : ObjectId} {key : String}

/-- Truncation takes away the indices from the new length on. -/
theorem slot?_truncate (m : Movie) (a : ObjectId) (x : Number) (o : ObjectId) (key : String) :
    (truncate a x m).2.heap.slot? o key =
      if o = a ∧ ((arrayIndex? key).any fun i => Number.le x (.ofNat i)) then none
      else m.heap.slot? o key := by
  have hget : (truncate a x m).2.heap.get? o =
      if o = a then (m.heap.get? o).map (Object.dropSlots fun key =>
        (arrayIndex? key).any fun i => Number.le x (.ofNat i))
      else m.heap.get? o := m.heap.get?_modify a o _
  rw [Heap.slot?, Heap.slot?, hget]
  by_cases ho : o = a
  · cases m.heap.get? o with
    | none => simp [ho]
    | some object => simp [ho, Object.dropSlots, Table.find?_eraseWhere]
  · simp [ho]

theorem isArray_truncate (m : Movie) (a : ObjectId) (x : Number) (b : ObjectId) :
    (truncate a x m).2.heap.isArray b = m.heap.isArray b := by
  have hheap : (truncate a x m).2.heap = m.heap.modify a (Object.dropSlots fun key =>
      (arrayIndex? key).any fun i => Number.le x (.ofNat i)) := rfl
  rw [hheap, Heap.isArray_modify]
  exact fun _ => rfl

theorem isProtected_storeAs_of_ne {o' : ObjectId} {key' : String} (h : ¬(o = o' ∧ key = key'))
    (m : Movie) (name : String) (p : Property) :
    (storeAs o' key' name p m).2.heap.isProtected o key = m.heap.isProtected o key := by
  have hheap : (storeAs o' key' name p m).2.heap = m.heap.store o' key' (m.spelled name p) := rfl
  rw [Heap.isProtected, hheap, Heap.slot?_store, if_neg (fun heq => h ⟨heq.1, heq.2.1⟩)]
  rfl

/-- The ways in which an edit of a run takes the protection from a slot. -/
inductive Loses (o : ObjectId) (key : String) (m : Movie) : Movie → Prop
  /-- The array is shortened to a length that is not above the index. -/
  | truncate {i : Nat} {x : Number} (array : m.heap.isArray o) (index : arrayIndex? key = some i)
      (beyond : Number.le x (.ofNat i)) : Loses o key m (truncate o x m).2
  | setFlags {names : Option (List String)} {set clear : Flags} (cleared : clear.dontDelete) :
    Loses o key m (setFlags o names set clear m).2
  | addAccessor {name : String} {getter setter : Option ObjectId} (named : m.normalize name = key) :
    Loses o key m (define o name (.accessor getter setter {}) m).2

/-- So is a change of attributes, or an accessor in its place. -/
theorem Strips.loses (h : m.Strips n) (hm : m.heap.isProtected o key)
    (hn : n.heap.isProtected o key = false) : m.Loses o key n := by
  cases h with
  | setFlags o' names set clear =>
    have hcleared : ¬(o ≠ o' ∨ clear.dontDelete = false) := fun hother =>
      Bool.eq_false_iff.mp hn (Heap.isProtected_adjust hother hm _)
    simp only [ne_eq, not_or, Decidable.not_not, Bool.not_eq_false] at hcleared
    obtain ⟨rfl, hclear⟩ := hcleared
    exact .setFlags hclear
  | addAccessor o' name getter setter =>
    have hheap : (define o' name (.accessor getter setter {}) m).2.heap =
      m.heap.store o' (m.normalize name) (m.spelled name (.accessor getter setter {})) := rfl
    rw [hheap, Heap.isProtected, Heap.slot?_store] at hn
    split at hn
    · rename_i heq
      obtain ⟨rfl, hkey, _⟩ := heq
      exact .addAccessor hkey.symm
    · exact absurd hm (Bool.eq_false_iff.mp hn)

theorem Strips.arrays (h : m.Strips n) (ha : m.heap.isArray a) : n.heap.isArray a := by
  cases h with
  | setFlags o names set clear => exact (m.heap.isArray_adjust o a _ _).trans ha
  | addAccessor o name getter setter => exact (m.heap.isArray_store o _ _ a).trans ha

/-- Truncating an array is a way to lose a protected slot. -/
theorem loses_truncate {x : Number} (ha : m.heap.isArray a) (hm : m.heap.isProtected o key)
    (hn : (truncate a x m).2.heap.isProtected o key = false) :
    m.Loses o key (truncate a x m).2 := by
  rw [Heap.isProtected, slot?_truncate] at hn
  split at hn
  · rename_i hcut
    obtain ⟨rfl, hindex⟩ := hcut
    obtain ⟨i, hi, hle⟩ := (Option.any_eq_true _ _).mp hindex
    exact .truncate ha hi hle
  · exact absurd hm (Bool.eq_false_iff.mp hn)

end Movie

namespace Session

variable {σ α : Type}

/-! ## The course of a protected slot -/

/-- The slot has been protected in all movies so far. -/
structure Intact (o : ObjectId) (key : String) (s : State (Ledger σ)) : Prop where
  latest : ∃ older, s.embedder.past = s.movie :: older
  inOrder : s.movie.InOrder
  protects : ∀ m ∈ s.embedder.past, m.heap.isProtected o key

/-- Up to a movie the slot was protected, and the edit of that movie took the protection away. -/
def Lost (o : ObjectId) (key : String) (past : List Movie) : Prop :=
  ∃ newer n m older, past = newer ++ n :: m :: older ∧
    (∀ k ∈ m :: older, k.heap.isProtected o key) ∧ m.Loses o key n ∧
      n.heap.isProtected o key = false

theorem Lost.mono {o : ObjectId} {key : String} {past past' : List Movie} (h : Lost o key past)
    (hsuffix : past <:+ past') : Lost o key past' := by
  obtain ⟨newer, n, m, older, rfl, hm⟩ := h
  obtain ⟨later, rfl⟩ := hsuffix
  exact ⟨later ++ newer, n, m, older, (List.append_assoc ..).symm, hm⟩

/-- What happens to a protected slot from one state of a session to another. -/
structure Guarded (o : ObjectId) (key : String) (s t : State (Ledger σ)) : Prop where
  past : s.embedder.past <:+ t.embedder.past
  inOrder : s.movie.InOrder → t.movie.InOrder
  arrays : s.movie.InOrder → ∀ {a}, s.movie.heap.isArray a → t.movie.heap.isArray a
  fate : Intact o key s → Intact o key t ∨ Lost o key t.embedder.past

namespace Guarded

variable {o : ObjectId} {key : String} {s t u : State (Ledger σ)}

theorem refl (s : State (Ledger σ)) : Guarded o key s s :=
  ⟨List.suffix_refl _, id, fun _ _ => id, .inl⟩

theorem trans (h : Guarded o key s t) (h' : Guarded o key t u) : Guarded o key s u where
  past := h.past.trans h'.past
  inOrder hs := h'.inOrder (h.inOrder hs)
  arrays hs _ ha := h'.arrays (h.inOrder hs) (h.arrays hs ha)
  fate hs := by
    rcases h.fate hs with ht | hlost
    · exact h'.fate ht
    · exact .inr (hlost.mono h'.past)

/-- An edit that takes the protection of the slot only in one of the ways that there are. -/
theorem after (h : Guarded o key s t) {n : Movie} (hn : t.movie.Passes n)
    (harrays : t.movie.InOrder → ∀ {a}, t.movie.heap.isArray a → n.heap.isArray a)
    (hloses : Intact o key s → Intact o key t → n.heap.isProtected o key = false →
      t.movie.Loses o key n) : Guarded o key s (t.after n) where
  past := h.past.trans (List.suffix_cons _ _)
  inOrder hs := hn.inOrder (h.inOrder hs)
  arrays hs _ ha := harrays (h.inOrder hs) (h.arrays hs ha)
  fate hs := by
    rcases h.fate hs with ht | hlost
    · cases hprotected : n.heap.isProtected o key with
      | true =>
        exact .inl ⟨⟨_, rfl⟩, hn.inOrder ht.inOrder,
          List.forall_mem_cons.mpr ⟨hprotected, ht.protects⟩⟩
      | false =>
        obtain ⟨older, hlatest⟩ := ht.latest
        refine .inr ⟨[], n, t.movie, older, congrArg (n :: ·) hlatest, ?_,
          hloses hs ht hprotected, hprotected⟩
        rw [← hlatest]
        exact ht.protects
    · exact .inr (hlost.mono (List.suffix_cons _ _))

/-- A change of the records of the client alone. -/
theorem of_embedder {own : σ} {careful : Bool} :
    Guarded o key s { s with embedder := { s.embedder with own, careful } } :=
  ⟨List.suffix_refl _, id, fun _ _ => id, fun hs => .inl ⟨hs.latest, hs.inOrder, hs.protects⟩⟩

end Guarded

theorem Intact.movie {o : ObjectId} {key : String} {s : State (Ledger σ)} (h : Intact o key s) :
    s.movie.heap.isProtected o key := by
  obtain ⟨older, hlatest⟩ := h.latest
  refine h.protects _ ?_
  rw [hlatest]
  exact List.mem_cons_self

/-- The course on which one slot is watched. -/
def guarded (σ : Type) (o : ObjectId) (key : String) : Course (Ledger σ) where
  leads := Guarded o key
  refl := .refl
  trans := .trans
  edit h := Guarded.after (.refl _) h.toPasses h.arrays fun hs _ hn =>
    absurd (h.protects hs.inOrder hs.movie) (Bool.eq_false_iff.mp hn)
  strip h := Guarded.after (.refl _) h.passes (fun _ _ => h.arrays) fun hs _ hn =>
    h.loses hs.movie hn
  truncate ha h := h.after (Edit.Passes.modify _ (.truncate _) _)
    (fun _ _ harray => (Movie.isArray_truncate _ _ _ _).trans harray)
    fun hs ht hn => Movie.loses_truncate (h.arrays hs.inOrder ha) ht.movie hn
  store hnone h := h.after (Edit.Passes.storeAs _ _ _ _ _)
    (fun _ _ harray => (Heap.isArray_store _ _ _ _ _).trans harray) fun hs ht hn => by
      -- The slot that is stored was missing when the other one was protected.
      rw [Movie.isProtected_storeAs_of_ne] at hn
      · exact absurd ht.movie (Bool.eq_false_iff.mp hn)
      · rintro ⟨rfl, rfl⟩
        have hprotected := hs.movie
        rw [Heap.isProtected, hnone] at hprotected
        cases hprotected

/-! ## Clients that are gentle with slots -/

theorem Client.Each.abiding {rule : Movie → Call → Bool} {c : Client σ}
    {P : ∀ {α : Type}, Program (σ × List Movie) α → Prop}
    (h : c.Each fun program => P (program.abiding rule)) : (c.abiding rule).Each P :=
  ⟨h.function, h.initializeClass, h.notify, h.executeActions, h.executeFunction, h.resolveTarget,
    h.checkTimeout, h.now⟩

/-- The state that a client leads to from a movie by gentle calls. -/
def Client.resumeGently (c : Client σ) (depth : Nat) (m : Movie) (own : σ) (main : Program σ α) :
    State (Ledger (σ × List Movie)) :=
  c.resume (fun _ => Call.isGentle) depth m own main

section Run

variable {o : ObjectId} {key : String} {machine : Machine (Ledger (σ × List Movie))}

theorem audit_guarded (handles : List ObjectId) (proper : Bool) :
    (guarded σ o key).Updates (audit handles proper) := fun _ => .of_embedder

/-- A program that makes gentle calls only, by induction on its calls. -/
theorem Program.run_gently (h : (guarded (σ × List Movie) o key).Guides machine)
    (program : Program σ α) (inside : Bool) : (guarded (σ × List Movie) o key).Updates
      ((program.abiding fun _ => Call.isGentle).run machine inside) := by
  induction program with
  | done a => exact .pure
  | look next ih => exact fun s => ih s.movie s.embedder.own.1 s
  | keep own next ih => exact fun s => Guarded.of_embedder.trans (ih _)
  | ask call next ih =>
    intro s
    show Guarded o key s ((if call.isGentle then
        .ask call fun reply => .look fun m kept => .keep (kept.1, m :: kept.2)
          ((next reply).abiding fun _ => Call.isGentle)
      else (next (.error .tooDeep)).abiding fun _ => Call.isGentle :
        Program (σ × List Movie) α).run machine inside s).2
    split
    · rename_i hcall
      have hkept : ∀ reply, (guarded (σ × List Movie) o key).Updates
          ((Program.look fun m kept => .keep (kept.1, m :: kept.2)
            ((next reply).abiding fun _ => Call.isGentle)).run machine inside) :=
        fun reply _ => Guarded.of_embedder.trans (ih reply _)
      have hasked : (guarded (σ × List Movie) o key).Updates (do
          audit call.handles !(inside && call.isCollection)
          let reply ← (call.perform machine).run
          (Program.look fun m kept => .keep (kept.1, m :: kept.2)
            ((next reply).abiding fun _ => Call.isGentle)).run machine inside) :=
        .bind (audit_guarded _ _) fun _ => .bind (call.perform_runs_on h hcall) hkept
      exact hasked s
    · exact ih _ s

end Run

theorem Client.guides_guarded (c : Client σ) (depth : Nat) (o : ObjectId) (key : String) :
    (guarded (σ × List Movie) o key).Guides
      ((c.abiding fun _ => Call.isGentle).host.machine depth) :=
  Course.guides_machine
    (fun h => serves_on audit_guarded
      (Each.abiding (c.each_of_all fun program => program.run_gently h true))) depth

/-- Whatever a client does by gentle calls, a slot that is protected from deletion is an own slot
and protected in the end and in every movie on the way; or it was so up to a movie in which the
array was shortened to a length that is not above the index of the slot, the attribute was cleared,
or an accessor was put in the place of the slot. -/
theorem Reached.protected_slot_lasts {m : Movie} (hm : Reached m) {o : ObjectId} {key : String}
    (hp : m.heap.isProtected o key) (c : Client σ) (depth : Nat) (own : σ)
    (main : Program σ α) :
    ((c.resumeGently depth m own main).movie.heap.isProtected o key ∧
      ∀ n ∈ (c.resumeGently depth m own main).embedder.past, n.heap.isProtected o key) ∨
    ∃ newer n k older,
      (c.resumeGently depth m own main).embedder.past = newer ++ n :: k :: older ∧
        (∀ k' ∈ k :: older, k'.heap.isProtected o key) ∧ k.Loses o key n ∧
        n.heap.isProtected o key = false := by
  have hintact : Intact o key
      (⟨m, { own := (own, []), careful := true, past := [m] }⟩ : State (Ledger (σ × List Movie))) :=
    ⟨⟨[], rfl⟩, hm.inOrder, List.forall_mem_singleton.mpr hp⟩
  rcases (main.run_gently (c.guides_guarded depth o key) false _).fate hintact with hend | hlost
  · exact .inl ⟨hend.movie, hend.protects⟩
  · exact .inr hlost

/-! ## An element that is cut off -/

/-- The first handle of a session. -/
def soleArray : ObjectId := ⟨(Movie.new {}).heap.slots.size⟩

def undeletable : Flags where
  dontDelete := true

/-- Makes an array of one element and protects the element. -/
def protectSole : Program Unit Unit :=
  .ask (.data (.createArray [.null])) fun _ =>
    .ask (.setFlags soleArray (some ["0"]) undeletable {}) fun _ => .done ()

/-- The state that is left: an array with an element that cannot be deleted. -/
@[irreducible] def soleProtected : State (Ledger Unit) :=
  Client.begetting.play 1 {} () protectSole

theorem reached_soleProtected : Reached soleProtected.movie := by
  unfold soleProtected
  exact Client.begetting.reached_play 1 {} () protectSole

/-- Writes the length zero. -/
def clearSole : Program Unit Unit :=
  .ask (.data (.write soleArray "length" (.number 0))) fun _ => .done ()

theorem protected_slot_lasts_until_cleared :
    Reached soleProtected.movie ∧ soleProtected.movie.heap.isProtected soleArray "0" ∧
      ∃ newer n k older,
        (Client.begetting.resumeGently 1 soleProtected.movie () clearSole).embedder.past =
          newer ++ n :: k :: older ∧
        (∀ k' ∈ k :: older, k'.heap.isProtected soleArray "0") ∧ k.Loses soleArray "0" n ∧
        n.heap.isProtected soleArray "0" = false := by
  have hp : soleProtected.movie.heap.isProtected soleArray "0" := by decide +kernel
  refine ⟨reached_soleProtected, hp, ?_⟩
  refine (reached_soleProtected.protected_slot_lasts hp Client.begetting 1 ()
    clearSole).resolve_left fun hkept => ?_
  have hcut : (Client.begetting.resumeGently 1 soleProtected.movie ()
    clearSole).movie.heap.isProtected soleArray "0" = false := by decide +kernel
  exact Bool.eq_false_iff.mp hcut hkept.1

/-- The built-in function `pop`. -/
def popOfSole : Value :=
  ((soleProtected.movie.find? soleArray "pop").map Property.value).getD .undefined

/-- A deletion refuses the protected element; but it is gone once the length is written, and once
the array is popped. -/
theorem protected_slot_cut_off :
    Reached soleProtected.movie ∧ soleProtected.movie.heap.isProtected soleArray "0" ∧
      (Client.begetting.resumeGently 1 soleProtected.movie ()
        (.ask (.data (.delete soleArray "0")) fun _ => .done ())).movie.heap.isProtected soleArray
          "0" ∧
      (Client.begetting.resumeGently 1 soleProtected.movie ()
        clearSole).movie.heap.slot? soleArray "0" = none ∧
      (Client.begetting.resumeGently 2 soleProtected.movie ()
        (.ask (.call popOfSole (.object soleArray) []) fun _ => .done ())).movie.heap.slot?
          soleArray "0" = none :=
  ⟨reached_soleProtected, by decide +kernel, by decide +kernel, by decide +kernel,
    by decide +kernel⟩

end Session

end ActionScript
