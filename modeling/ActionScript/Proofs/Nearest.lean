import ActionScript.Host
import ActionScript.Movie.Setup
import ActionScript.Proofs.Evaluation

/-! # Nearest slots

The nearest slot of a key is the first that one meets on the way up the prototypes, however long the
way is (`Heap.Nearest`, `Heap.find?_eq_some_iff`). It alone decides whether a write is accepted. A
write that it refuses is no error: nothing runs and nothing changes
(`Machine.write_of_refusing_slot`). -/

namespace ActionScript

/-! ## Looks at the movie -/

section Looks

variable {σ : Type} [Journal σ]

/-- The state once a run has looked at the movie a number of times. Only a journal tells it from the
first. -/
def State.looked (s : State σ) : Nat → State σ
  | 0 => s
  | n + 1 => (s.looked n).after s.movie

@[simp] theorem State.movie_looked (s : State σ) (n : Nat) : (s.looked n).movie = s.movie := by
  cases n <;> rfl

/-- Looking is what a run does to read the movie. -/
theorem Run.look_apply {α : Type} (f : Movie → Run σ α) (s : State σ) :
    (liftM getMovie >>= f) s = f s.movie (s.looked 1) := rfl

theorem Update.look_apply {α : Type} (f : Movie → Update σ α) (s : State σ) :
    (liftM getMovie >>= f) s = f s.movie (s.looked 1) := rfl

end Looks

/-! ## Slots on the way up -/

namespace Heap

/-- The nearest slot of a key, with its owner: the own one, or else that of the prototype. -/
inductive Nearest (h : Heap) (key : String) : ObjectId → ObjectId → Property → Prop
  | own : h.own? o key = some p → Nearest h key o o p
  | inherited : h.own? o key = none → h.Link o q → Nearest h key q owner p →
    Nearest h key o owner p

variable {h h' : Heap} {o owner : ObjectId} {key : String} {p : Property}

theorem Nearest.own?_eq (hp : h.Nearest key o owner p) : h.own? owner key = some p := by
  induction hp with
  | own hown => exact hown
  | inherited _ _ _ ih => exact ih

/-- It is the stored slot of its owner, if there is one. -/
theorem Nearest.eq_of_slot? {p' : Property} (hp : h.Nearest key o owner p)
    (hslot : h.slot? owner key = some p') : p = p' := by
  have hown := hp.own?_eq
  rw [own?, hslot] at hown
  exact (Option.some.inj hown).symm

/-- The slots that a walk of a bounded length shows first are nearest. -/
theorem nearest_of_findSome? {n : Nat}
    (hfind : (h.chainUpTo n o).findSome? (fun owner => (h.own? owner key).map (owner, ·)) =
      some (owner, p)) : h.Nearest key o owner p := by
  induction n generalizing o with
  | zero => cases hfind
  | succ n ih =>
    rw [chainUpTo, List.findSome?_cons] at hfind
    cases hown : h.own? o key with
    | some q =>
      rw [hown, Option.map_some] at hfind
      cases hfind
      exact .own hown
    | none =>
      rw [hown, Option.map_none] at hfind
      cases hlink : h.prototype? o with
      | none => simp [hlink] at hfind
      | some q => exact .inherited hown hlink (ih (by simpa [hlink] using hfind))

/-- A nearest slot is shown by every walk that is long enough. -/
theorem Nearest.findSome?_eq (hp : h.Nearest key o owner p) :
    ∃ k, ∀ n, k ≤ n →
      (h.chainUpTo n o).findSome? (fun owner => (h.own? owner key).map (owner, ·)) =
        some (owner, p) := by
  induction hp with
  | own hown =>
    refine ⟨1, fun n hn => ?_⟩
    obtain ⟨n, rfl⟩ := Nat.exists_eq_add_of_le' hn
    rw [chainUpTo, List.findSome?_cons, hown]
    rfl
  | inherited hown hlink _ ih =>
    obtain ⟨k, hk⟩ := ih
    refine ⟨k + 1, fun n hn => ?_⟩
    obtain ⟨n, rfl⟩ := Nat.exists_eq_add_of_le' (Nat.le_trans (Nat.le_add_left 1 k) hn)
    rw [chainUpTo, List.findSome?_cons, hown, hlink]
    exact hk n (Nat.le_of_succ_le_succ hn)

/-- The bounded search finds what a search without a bound would find. -/
theorem find?_eq_some_iff : h.find? o key = some (owner, p) ↔ h.Nearest key o owner p := by
  constructor
  · exact nearest_of_findSome?
  · intro hp
    obtain ⟨k, hk⟩ := hp.findSome?_eq
    rw [find?_eq_findSome? key (Nat.lt_succ_of_le (Nat.le_max_left _ k))]
    exact hk _ (Nat.le_succ_of_le (Nat.le_max_right _ k))

theorem Nearest.congr (hown : ∀ q, h'.own? q key = h.own? q key)
    (hlink : ∀ q, h'.prototype? q = h.prototype? q) (hp : h.Nearest key o owner p) :
    h'.Nearest key o owner p := by
  induction hp with
  | own hslot => exact .own ((hown _).trans hslot)
  | inherited hnone hup _ ih => exact .inherited ((hown _).trans hnone) ((hlink _).trans hup) ih

theorem find?_congr (hown : ∀ q, h'.own? q key = h.own? q key)
    (hlink : ∀ q, h'.prototype? q = h.prototype? q) (o : ObjectId) :
    h'.find? o key = h.find? o key := by
  refine Option.ext fun ⟨owner, p⟩ => ?_
  rw [find?_eq_some_iff, find?_eq_some_iff]
  exact ⟨.congr (fun q => (hown q).symm) fun q => (hlink q).symm, .congr hown hlink⟩

end Heap

/-! ## Refused writes -/

/-- The slot takes no writes: it is read-only data, or an accessor without a setter. -/
def Property.Refuses (p : Property) : Prop :=
  p.isData ∧ p.isReadOnly ∨ p.isAccessor ∧ p.setter = none

theorem Property.isWritable_eq_false_iff {p : Property} : p.isWritable = false ↔ p.Refuses := by
  obtain ⟨access, _⟩ := p
  cases access <;> simp [Refuses, isWritable, isAccessor, isData, isReadOnly, setter]

namespace Heap

variable {h : Heap} {o : ObjectId} {key : String}

theorem canPut_of_nearest {owner : ObjectId} {p : Property} (hp : h.Nearest key o owner p) :
    h.canPut o key = p.isWritable := by
  rw [canPut_eq, find?_eq_some_iff.mpr hp, Option.all_some]

/-- A walk without a bound would ask the same slot, so the bound is nothing that one could see. -/
theorem canPutWithin_eq_canPut {n : Nat} (hn : h.slots.size < n) (o : ObjectId) (key : String) :
    h.canPutWithin key n o = h.canPut o key := by
  rw [canPutWithin_eq, canPut_eq, find?_eq_findSome? key hn]

theorem canPut_eq_false_iff :
    h.canPut o key = false ↔ ∃ owner p, h.Nearest key o owner p ∧ p.Refuses := by
  constructor
  · intro hput
    cases hfind : h.find? o key with
    | none =>
      rw [canPut_eq, hfind] at hput
      cases hput
    | some found =>
      have hnearest := find?_eq_some_iff.mp hfind
      rw [canPut_of_nearest hnearest] at hput
      exact ⟨found.1, found.2, hnearest, Property.isWritable_eq_false_iff.mp hput⟩
  · rintro ⟨owner, p, hp, hrefuses⟩
    rw [canPut_of_nearest hp]
    exact Property.isWritable_eq_false_iff.mpr hrefuses

/-- The prototype link accepts writes, so what refuses a write under its key is a stored slot. -/
theorem slot?_of_refused (hput : h.canPut o protoKey = false) :
    (h.slot? o protoKey).isSome := by
  cases hslot : h.slot? o protoKey with
  | some p => rfl
  | none =>
    obtain ⟨owner, p, hp, hrefuses⟩ := canPut_eq_false_iff.mp hput
    have hown : h.own? o protoKey =
        (h.prototype? o).map fun p => .data (.object p) .permanent := by
      rw [own?, hslot, if_pos rfl]
    cases hp with
    | own hp =>
      -- The slot that was met is the link itself.
      rw [hown, Option.map_eq_some_iff] at hp
      obtain ⟨q, _, rfl⟩ := hp
      rcases hrefuses with ⟨_, hreadOnly⟩ | ⟨haccessor, _⟩
      · cases hreadOnly
      · cases haccessor
    | inherited hnone hlink _ =>
      -- An object with a prototype has that slot, so no other one was met.
      rw [hown, hlink] at hnone
      cases hnone

end Heap

theorem Movie.find?_eq_some_iff {m : Movie} {o : ObjectId} {name : String} {p : Property} :
    m.find? o name = some p ↔ ∃ owner, m.heap.Nearest (m.normalize name) o owner p := by
  simp only [find?, Option.map_eq_some_iff, Prod.exists, ← Heap.find?_eq_some_iff]
  constructor
  · rintro ⟨owner, _, hfind, rfl⟩
    exact ⟨owner, hfind⟩
  · rintro ⟨owner, hfind⟩
    exact ⟨owner, p, hfind, rfl⟩

namespace Machine

variable {σ : Type} [Journal σ]

theorem write_apply (machine : Machine σ) (o : ObjectId) (name : String) (v : Value)
    (s : State σ) :
    machine.write o name v s = machine.writeKey o (s.movie.normalize name) name v (s.looked 1) :=
  rfl

theorem writeKey_refused (machine : Machine σ) {s : State σ} {o : ObjectId} {key : String}
    (hput : s.movie.heap.canPut o key = false) (name : String) (v : Value) :
    machine.writeKey o key name v s = (.ok (), s.looked 1) := by
  have hstored : ¬ (key = Heap.protoKey ∧ (s.movie.heap.slot? o key).isNone) := by
    rintro ⟨rfl, hnone⟩
    have hsome := Heap.slot?_of_refused hput
    rw [Option.isNone_iff_eq_none.mp hnone] at hsome
    cases hsome
  rw [writeKey, Run.look_apply, if_neg hstored, hput, Bool.not_false, if_pos rfl]
  rfl

/-- A write is refused exactly if the nearest slot of its name takes no writes. Then it succeeds
without having done anything, whatever the machine is that runs it: it calls no function, tells no
observer and leaves the movie as it is. -/
theorem write_of_refusing_slot (s : State σ) (o : ObjectId) (name : String) :
    (s.movie.canPut o name = false ↔
      ∃ owner p, s.movie.heap.Nearest (s.movie.normalize name) o owner p ∧
        s.movie.find? o name = some p ∧
        (p.isData ∧ p.isReadOnly ∨ p.isAccessor ∧ p.setter = none)) ∧
    (s.movie.canPut o name = false → ∀ (machine : Machine σ) (v : Value),
      machine.write o name v s = (.ok (), s.looked 2) ∧ (s.looked 2).movie = s.movie) := by
  constructor
  · rw [Movie.canPut, Heap.canPut_eq_false_iff]
    constructor
    · rintro ⟨owner, p, hp, hrefuses⟩
      exact ⟨owner, p, hp, Movie.find?_eq_some_iff.mpr ⟨owner, hp⟩, hrefuses⟩
    · rintro ⟨owner, p, hp, _, hrefuses⟩
      exact ⟨owner, p, hp, hrefuses⟩
  · intro hput machine v
    refine ⟨?_, s.movie_looked 2⟩
    rw [write_apply]
    exact machine.writeKey_refused (s := s.looked 1) hput name v

namespace LockedLink

/-- Makes an object, and an heir of it with a constant in the slot that else shows the link. -/
def create : Edit ObjectId := do
  let prototype ← Movie.createObject
  let o ← Movie.createWithPrototype (some prototype)
  Movie.define o Heap.protoKey (.data .null .constant)
  return o

def object : ObjectId := (create (Movie.new { version := 6 })).1

/-- A new movie with them, in which case does not count. -/
@[irreducible] def movie : Movie := (create (Movie.new { version := 6 })).2

end LockedLink

open LockedLink in
/-- The link of the object stays, though a write under its key else relinks. -/
theorem write_of_lockedLink :
    movie.canPut object "__PROTO__" = false ∧
    (∃ owner p, movie.heap.Nearest Heap.protoKey object owner p ∧
      movie.find? object "__PROTO__" = some p ∧ p.isReadOnly) ∧
    ((Host.bare Unit).machine 1).write object "__PROTO__" .null ⟨movie, ()⟩ =
      (.ok (), ⟨movie, ()⟩) ∧
    (movie.heap.prototype? object).isSome := by
  have hput : movie.canPut object "__PROTO__" = false := by decide +kernel
  have hkey : movie.normalize "__PROTO__" = Heap.protoKey := by decide +kernel
  have hlaw := write_of_refusing_slot (σ := Unit) ⟨movie, ()⟩ object "__PROTO__"
  obtain ⟨owner, p, hp, hfind, hrefuses⟩ := hlaw.1.mp hput
  have hdata : (movie.find? object "__PROTO__").all Property.isData := by decide +kernel
  refine ⟨hput, ⟨owner, p, hkey ▸ hp, hfind, ?_⟩, (hlaw.2 hput _ .null).1, by decide +kernel⟩
  rcases hrefuses with ⟨_, hreadOnly⟩ | ⟨haccessor, _⟩
  · exact hreadOnly
  · rw [hfind, Option.all_some] at hdata
    rw [Property.isAccessor, hdata] at haccessor
    cases haccessor

end Machine

end ActionScript
