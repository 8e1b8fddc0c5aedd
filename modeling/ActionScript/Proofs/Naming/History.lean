import ActionScript.Proofs.ChainKeys
import ActionScript.Proofs.Naming.Machine

/-! # Histories of names

A history is a list of acts on a movie: objects and arrays are created, slots are written, defined
and deleted by name, their attributes are changed, and arrays are pushed to. Beside the movie one
can keep a book of the names that the slots were given: a write names the slot that it adds, and a
definition names any slot. Whatever the history, enumeration shows the slots by the names in the
book, and these lead back to the slots (`Book.lists_of`). -/

namespace ActionScript

/-! ## Acts -/

inductive Act where
  | create (prototype : Option ObjectId)
  | createArray (elements : List Value)
  | write (o : ObjectId) (name : String) (v : Value)
  /-- A write by a text that a script supplies as a key. -/
  | writeAt (o : ObjectId) (name : String) (v : Value)
  | define (o : ObjectId) (name : String) (p : Property) (fresh : p.Fresh)
  | delete (o : ObjectId) (name : String)
  | setFlags (o : ObjectId) (names : Option (List String)) (set clear : Flags)
  | push (this : Value) (vs : List Value)

namespace Act

def perform {σ : Type} [Journal σ] (m : Machine σ) : Act → Run σ Unit
  | create prototype => discard (Movie.createWithPrototype prototype)
  | createArray elements => discard (Movie.createArray elements)
  | write o name v => m.write o name v
  | writeAt o name v => m.writeAt o (.string name) v
  | define o name p _ => Movie.define o name p
  | delete o name => discard (m.delete o name)
  | setFlags o names set clear => Movie.setFlags o names set clear
  | push this vs => discard (Builtin.pushAll m this vs)

/-- The movie after an act, whether it fails or not. -/
def leave (depth : Nat) (act : Act) (m : Movie) : Movie :=
  (act.perform ((Host.bare Unit).machine depth) ⟨m, ()⟩).2.movie

theorem leave_delete (depth : Nat) (o : ObjectId) (name : String) (m : Movie) :
    (delete o name).leave depth m =
      if (m.own? o name).any Property.isDeletable then
        { m with heap := m.heap.remove o (m.normalize name) }
      else m :=
  Machine.deleteKey_bare depth o (m.normalize name) (State.after ⟨m, ()⟩ m)

end Act

/-- Whether a write adds a slot of the key: a live object has none, and no accessor is met. -/
def Movie.adds (m : Movie) (o : ObjectId) (key : String) : Bool :=
  m.heap.isLive o && (m.heap.slot? o key).isNone && !m.heap.passesOn o key

/-- The name that an act gives to the slot of a key. -/
def Act.given? (m : Movie) (o : ObjectId) (key : String) : Act → Option String
  | write p name _ | writeAt p name _ =>
    if o = p ∧ key = m.normalize name ∧ m.adds o key then some name else none
  | define p name _ _ =>
    if o = p ∧ key = m.normalize name ∧ m.heap.isLive o then some name else none
  | _ => none

/-! ## Books -/

/-- A movie with a book of the names that its slots were given. -/
structure Book where
  movie : Movie
  names : ObjectId → String → String

namespace Book

/-- At first the names are those that the new movie shows. -/
def new (settings : Settings) : Book := ⟨Movie.new settings, (Movie.new settings).nameOf⟩

/-- The name in the book for a slot; the key where there is none. -/
def nameOf (book : Book) (o : ObjectId) (key : String) : String :=
  if (book.movie.heap.slot? o key).isSome then book.names o key else key

/-- Notes an act. A slot keeps its name unless it is given another one, and a new slot that is given
none is named by its key. -/
def note (depth : Nat) (book : Book) (act : Act) : Book where
  movie := act.leave depth book.movie
  names o key := (act.given? book.movie o key).getD (book.nameOf o key)

def of (depth : Nat) (settings : Settings) (acts : List Act) : Book :=
  acts.foldl (note depth) (new settings)

/-- The movie is tidy, and shows its slots by the names in the book. -/
structure Sound (book : Book) : Prop where
  tidy : book.movie.Tidy
  named : ∀ {o key p}, book.movie.heap.slot? o key = some p →
    book.movie.shownName key p = book.names o key

variable {book : Book}

namespace Sound

theorem nameOf_eq (h : book.Sound) (o : ObjectId) (key : String) :
    book.movie.nameOf o key = book.nameOf o key := by
  rw [Book.nameOf]
  cases hslot : book.movie.heap.slot? o key with
  | none => rw [Movie.nameOf_of_none hslot, Option.isSome_none, if_neg Bool.false_ne_true]
  | some p => rw [Movie.nameOf_of_some hslot, Option.isSome_some, if_pos rfl, h.named hslot]

/-! ## Noting an act -/

variable {depth : Nat} {act : Act}

/-- An act that keeps names gives none. -/
theorem note_of_keeps (h : book.Sound) (hkeeps : book.movie.KeepsTidy (act.leave depth book.movie))
    (hgiven : ∀ {o key q}, (act.leave depth book.movie).heap.slot? o key = some q →
      act.given? book.movie o key = none) : (book.note depth act).Sound := by
  refine ⟨hkeeps.tidy h.tidy, fun {o key q} hq => ?_⟩
  calc
    _ = (act.leave depth book.movie).nameOf o key := (Movie.nameOf_of_some hq).symm
    _ = book.movie.nameOf o key := hkeeps.nameOf_eq h.tidy hq
    _ = book.nameOf o key := h.nameOf_eq o key
    _ = (act.given? book.movie o key).getD (book.nameOf o key) := by
      rw [hgiven hq, Option.getD_none]

/-- An act that stores a slot gives it its name, and keeps the others. -/
theorem note_of_store (h : book.Sound) {o : ObjectId} {name : String} {p : Property} (hp : p.Fresh)
    (hkeeps : (Movie.storeAs o (book.movie.normalize name) name p book.movie).2.KeepsTidy
      (act.leave depth book.movie))
    (hgiven : ∀ o' key, act.given? book.movie o' key =
      if o' = o ∧ key = book.movie.normalize name ∧ book.movie.heap.isLive o' then some name
      else none) : (book.note depth act).Sound := by
  have hstored : (Movie.storeAs o _ name p book.movie).2.Tidy := h.tidy.store rfl hp
  refine ⟨hkeeps.tidy hstored, fun {o' key q} hq => ?_⟩
  calc
    _ = (act.leave depth book.movie).nameOf o' key := (Movie.nameOf_of_some hq).symm
    _ = (Movie.storeAs o _ name p book.movie).2.nameOf o' key := hkeeps.nameOf_eq hstored hq
    _ = if o' = o ∧ key = book.movie.normalize name ∧ book.movie.heap.isLive o' then name
        else book.nameOf o' key := by rw [Movie.nameOf_storeAs rfl hp, h.nameOf_eq]
    _ = (act.given? book.movie o' key).getD (book.nameOf o' key) := by
      rw [hgiven]
      split <;> rfl

theorem note_delete (h : book.Sound) (o : ObjectId) (name : String) :
    (book.note depth (.delete o name)).Sound := by
  have hleave := Act.leave_delete depth o name book.movie
  cases hdeletes : (book.movie.own? o name).any Property.isDeletable with
  | false =>
    rw [hdeletes, if_neg Bool.false_ne_true] at hleave
    refine h.note_of_keeps ?_ fun _ => rfl
    rw [hleave]
    exact .refl book.movie
  | true =>
    rw [hdeletes, if_pos rfl] at hleave
    have hold : ∀ {o' key q}, (book.note depth (.delete o name)).movie.heap.slot? o' key = some q →
        book.movie.heap.slot? o' key = some q := by
      intro o' key q hq
      rw [note, hleave, Heap.slot?_remove] at hq
      split at hq
      · cases hq
      · exact hq
    have hsettings : (book.note depth (.delete o name)).movie.settings = book.movie.settings := by
      rw [note, hleave]
    refine ⟨⟨?_, fun hq => (h.tidy.suits (hold hq)).of_settings hsettings⟩, fun {o' key q} hq => ?_⟩
    · rw [note, hleave]
      exact h.tidy.arena.modify _ _
    · calc
        _ = book.movie.shownName key q := Movie.shownName_congr hsettings rfl
        _ = book.movie.nameOf o' key := (Movie.nameOf_of_some (hold hq)).symm
        _ = book.nameOf o' key := h.nameOf_eq o' key

theorem note_write (h : book.Sound) (o : ObjectId) (name : String) (v : Value) :
    (book.note depth (.write o name v)).Sound := by
  have hwritten : book.movie.WrittenAs o (book.movie.normalize name) name
      ((Act.write o name v).leave depth book.movie) :=
    (Machine.keepsTidy_bare depth).writeKey (s := State.after ⟨book.movie, ()⟩ book.movie) h.tidy
      o _ name v
  cases hwritten with
  | kept hkeeps hadded =>
    refine h.note_of_keeps hkeeps fun {o' key q} hq => if_neg ?_
    rintro ⟨rfl, rfl, hadds⟩
    simp only [Movie.adds, Bool.and_eq_true, Option.isNone_iff_eq_none, Bool.not_eq_true'] at hadds
    have hpasses := hadded hadds.1.2 (by rw [hq]; exact Option.some_ne_none q)
    rw [hadds.2] at hpasses
    cases hpasses
  | stored hnone hdata hp hkeeps =>
    refine h.note_of_store hp hkeeps fun o' key => if_congr ?_ rfl rfl
    refine and_congr_right fun ho => and_congr_right fun hkey => ?_
    rw [ho, hkey, Movie.adds, hnone, hdata]
    simp

theorem note (h : book.Sound) (depth : Nat) (act : Act) : (book.note depth act).Sound := by
  have hmachine := Machine.keepsTidy_bare (σ := Unit) depth
  cases act with
  | create prototype => exact h.note_of_keeps (Edit.KeepsTidy.create _ _ _) fun _ => rfl
  | createArray vs => exact h.note_of_keeps (Edit.KeepsTidy.createArray vs _) fun _ => rfl
  | write o name v => exact h.note_write o name v
  | writeAt o name v => exact h.note_write o name v
  | define o name p hp => exact h.note_of_store hp (.refl _) fun _ _ => rfl
  | delete o name => exact h.note_delete o name
  | setFlags o names set clear =>
    exact h.note_of_keeps (Edit.KeepsTidy.setFlags o names set clear _) fun _ => rfl
  | push this vs =>
    have hpush := (hmachine.equips.pushAll this vs).discard
    exact h.note_of_keeps (hpush ⟨book.movie, ()⟩) fun _ => rfl

end Sound

theorem sound_of_tidy {m : Movie} (hm : m.Tidy) : Sound ⟨m, m.nameOf⟩ :=
  ⟨hm, fun hp => (Movie.nameOf_of_some hp).symm⟩

/-- The book of every history is sound. -/
theorem sound_of (depth : Nat) (settings : Settings) (acts : List Act) :
    (of depth settings acts).Sound := by
  rw [of]
  induction acts using List.reverseRecOn with
  | nil => exact sound_of_tidy (Movie.tidy_new settings)
  | append_singleton acts act ih =>
    rw [List.foldl_append]
    exact ih.note depth act

/-! ## Enumeration -/

/-- The names that enumeration shows are faithful to the slots and to the book. -/
structure Lists (book : Book) (o : ObjectId) : Prop where
  /-- The names lead to the keys of the enumerable slots, in the order of the table. -/
  keys : (book.movie.ownKeys o).map book.movie.normalize =
    (book.movie.heap.keysOf o).filter fun key => (book.movie.heap.shown? o key).isSome
  /-- No two names lead to one key. -/
  nodup : ((book.movie.ownKeys o).map book.movie.normalize).Nodup
  /-- A name leads back to the slot that it is shown for. -/
  back : ∀ name ∈ book.movie.ownKeys o, ∃ p,
    book.movie.heap.shown? o (book.movie.normalize name) = some p ∧
      book.movie.shownName (book.movie.normalize name) p = name ∧
      book.movie.own? o name = some p
  /-- The names are those in the book. -/
  named : book.movie.ownKeys o =
    ((book.movie.ownKeys o).map book.movie.normalize).map (book.names o)

theorem Sound.lists (h : book.Sound) (o : ObjectId) : book.Lists o := by
  have hentry : ∀ e ∈ book.movie.enumerable o,
      book.movie.normalize e.2 = e.1 ∧ book.names o e.1 = e.2 := by
    intro e he
    obtain ⟨p, hp, hname⟩ := Movie.mem_enumerable_iff.mp he
    obtain ⟨hslot, _⟩ := Heap.shown?_eq_some_iff.mp hp
    rw [hname]
    exact ⟨(h.tidy.suits hslot).named, (h.named hslot).symm⟩
  have hkeys : (book.movie.ownKeys o).map book.movie.normalize =
      (book.movie.enumerable o).map Prod.fst := by
    rw [Movie.ownKeys, List.map_map]
    exact List.map_congr_left fun e he => (hentry e he).1
  refine ⟨?_, ?_, ?_, ?_⟩
  · rw [hkeys, Movie.keys_enumerable]
  · rw [hkeys]
    exact book.movie.nodup_keys_enumerable o
  · intro name hname
    obtain ⟨e, he, rfl⟩ := List.mem_map.mp hname
    obtain ⟨p, hp, hshown⟩ := Movie.mem_enumerable_iff.mp he
    obtain ⟨hslot, _⟩ := Heap.shown?_eq_some_iff.mp hp
    rw [Movie.own?, (hentry e he).1]
    refine ⟨p, hp, hshown.symm, ?_⟩
    rw [Heap.own?, hslot]
  · rw [hkeys, List.map_map, Movie.ownKeys]
    exact List.map_congr_left fun e he => (hentry e he).2.symm

/-- After every history, and whatever the settings, enumeration of an object lists its enumerable
slots once each and in order, by names that lead back to them. They are spelled as in the write that
added the slot or in the last definition of it. -/
theorem lists_of (depth : Nat) (settings : Settings) (acts : List Act) (o : ObjectId) :
    (of depth settings acts).Lists o :=
  (sound_of depth settings acts).lists o

/-- Writes and definitions of two slots under several spellings, and a push. -/
def respellings (o : ObjectId) : List Act :=
  [.write o "Foo" .null, .write o "FOO" .null, .define o "Bar" (.data .null {}) (by decide),
    .define o "BAR" (.accessor none none {}) (by decide), .writeAt o "bar" .null,
    .delete o "foo", .write o "fOO" .null, .push (.object o) [.null]]

-- A definition spells its slot anew, and so does the write that adds a slot again.
example : (of 2 { version := 6 } (respellings (Movie.new { version := 6 }).global)).movie.ownKeys
    (Movie.new { version := 6 }).global = ["BAR", "fOO", "0", "length"] := by
  decide +kernel

end Book

end ActionScript
