import ActionScript.Host
import ActionScript.Movie.Setup
import ActionScript.Proofs.Evaluation
import ActionScript.Proofs.LowerCase

/-! # Keys that a script supplies

A script reads and writes properties by values. Where such a value has a text, the property is that
of the name which the text is, whatever the version of the movie is (`Machine.keyed_as_named`). But
the text of a number is a key as it stands. Where case does not count, that makes a difference for
the numbers that are not finite: their texts have capitals, and no name leads to such a key. -/

namespace ActionScript

/-- The key of a value follows the rules of names: case counts, or the value is no number whose text
has capitals. -/
def Movie.KeyedByName (m : Movie) (k : Value) : Prop :=
  m.settings.caseSensitive ∨ ∀ x, k = .number x → x.isFinite

theorem Movie.normalize_of_caseSensitive {m : Movie} (h : m.settings.caseSensitive)
    (name : String) : m.normalize name = name :=
  if_pos h

/-- The text of such a number is a name that is its own key. -/
theorem Movie.KeyedByName.normalize_text {m : Movie} {x : Number}
    (h : m.KeyedByName (.number x)) : m.normalize x.text = x.text := by
  rcases h with hcase | hfinite
  · exact Movie.normalize_of_caseSensitive hcase x.text
  · exact Settings.normalize_of_lower (Number.lower_text (hfinite x rfl)) m.settings

namespace Machine

variable {σ : Type} {machine : Machine σ} {s : State σ} {k : Value} {text : String}

/-! ## Keys of values -/

theorem read_eq (machine : Machine σ) (o : ObjectId) (name : String) (s : State σ) :
    machine.read o name s = machine.readKey o (s.movie.normalize name) s := rfl

theorem write_eq (machine : Machine σ) (o : ObjectId) (name : String) (v : Value) (s : State σ) :
    machine.write o name v s = machine.writeKey o (s.movie.normalize name) name v s := rfl

/-- The key of a value that is no number. -/
theorem toKey_of_toText (hk : machine.toText k s = (.ok text, s)) (hnumber : ∀ x, k ≠ .number x) :
    machine.toKey k s = (.ok (s.movie.normalize text), s) := by
  have hnamed : (do let name ← machine.toText k; return (← getMovie).normalize name :
      Run σ String) s = (.ok (s.movie.normalize text), s) := by
    rw [Run.bind_ok hk]
    rfl
  cases k with
  | number x => exact absurd rfl (hnumber x)
  | _ => exact hnamed

theorem readAt_of_toKey {key : String} (hkey : machine.toKey k s = (.ok key, s)) (o : ObjectId) :
    machine.readAt o k s = machine.readKey o key s := by
  rw [readAt, Run.bind_ok hkey]

/-- A write by a value that is no name is enumerated by its key. -/
theorem writeAt_of_toKey {key : String} (hkey : machine.toKey k s = (.ok key, s))
    (hstring : ∀ t, k ≠ .string t) (o : ObjectId) (v : Value) :
    machine.writeAt o k v s = machine.writeKey o key key v s := by
  have hkeyed : (do let key ← machine.toKey k; machine.writeKey o key key v : Run σ Unit) s =
      machine.writeKey o key key v s := by rw [Run.bind_ok hkey]
  cases k with
  | string t => exact absurd rfl (hstring t)
  | _ => exact hkeyed

/-! ## Reads and writes -/

theorem readAt_eq_read (hk : machine.toText k s = (.ok text, s)) (hnamed : s.movie.KeyedByName k)
    (o : ObjectId) : machine.readAt o k s = machine.read o text s := by
  rw [read_eq]
  cases k with
  | number x =>
    obtain rfl : x.text = text := by cases hk; rfl
    rw [hnamed.normalize_text]
    exact readAt_of_toKey rfl o
  | _ => exact readAt_of_toKey (toKey_of_toText hk fun _ => Value.noConfusion) o

/-- A write by a value is a write by a name with the key of the text, and by the text itself if the
value is a text or a number, or if case counts. -/
theorem writeAt_eq_write (hk : machine.toText k s = (.ok text, s))
    (hnamed : s.movie.KeyedByName k) (o : ObjectId) (v : Value) :
    ∃ name, s.movie.normalize name = s.movie.normalize text ∧
      ((∃ t, k = .string t) ∨ (∃ x, k = .number x) ∨ s.movie.settings.caseSensitive →
        name = text) ∧
      machine.writeAt o k v s = machine.write o name v s := by
  -- The name is the key, which has the key of the text because it has no capitals.
  have hkeyed : (∀ t, k ≠ .string t) → (∀ x, k ≠ .number x) →
      ∃ name, s.movie.normalize name = s.movie.normalize text ∧
        ((∃ t, k = .string t) ∨ (∃ x, k = .number x) ∨ s.movie.settings.caseSensitive →
          name = text) ∧
        machine.writeAt o k v s = machine.write o name v s := by
    intro hstring hnumber
    have hkey : s.movie.normalize (s.movie.normalize text) = s.movie.normalize text :=
      Settings.normalize_normalize s.movie.settings text
    refine ⟨s.movie.normalize text, hkey, ?_, ?_⟩
    · rintro (⟨t, ht⟩ | ⟨x, hx⟩ | hcase)
      · exact absurd ht (hstring t)
      · exact absurd hx (hnumber x)
      · exact Movie.normalize_of_caseSensitive hcase text
    · rw [write_eq, hkey]
      exact writeAt_of_toKey (toKey_of_toText hk hnumber) hstring o v
  cases k with
  | string t =>
    cases hk
    exact ⟨t, rfl, fun _ => rfl, rfl⟩
  | number x =>
    obtain rfl : x.text = text := by cases hk; rfl
    refine ⟨x.text, rfl, fun _ => rfl, ?_⟩
    rw [write_eq, hnamed.normalize_text]
    exact writeAt_of_toKey rfl (fun _ => Value.noConfusion) o v
  | _ => exact hkeyed (fun _ => Value.noConfusion) fun _ => Value.noConfusion

/-- A property that a script reads or writes by a value is the one of the name that the text of the
value is, if the text can be had without side effects: unless case does not count and the value is a
number that is not finite. The text of a number is its key, whether case counts or not. -/
theorem keyed_as_named (machine : Machine σ) {s : State σ} {k : Value} {text : String}
    (hk : machine.toText k s = (.ok text, s)) (o : ObjectId) (v : Value) :
    (s.movie.KeyedByName k → machine.readAt o k s = machine.read o text s ∧
      ∃ name, s.movie.normalize name = s.movie.normalize text ∧
        ((∃ t, k = .string t) ∨ (∃ x, k = .number x) ∨ s.movie.settings.caseSensitive →
          name = text) ∧
        machine.writeAt o k v s = machine.write o name v s) ∧
    ((∃ x, k = .number x) → machine.readAt o k s = machine.readKey o text s ∧
      machine.writeAt o k v s = machine.writeKey o text text v s) := by
  refine ⟨fun hnamed => ⟨readAt_eq_read hk hnamed o, writeAt_eq_write hk hnamed o v⟩, ?_⟩
  rintro ⟨x, rfl⟩
  cases hk
  exact ⟨readAt_of_toKey rfl o, writeAt_of_toKey rfl (fun _ => Value.noConfusion) o v⟩

namespace Caseless

/-- Makes an object with a slot `NaN`. -/
def create : Edit ObjectId := do
  let o ← Movie.createObject
  Movie.define o "NaN" (.data (.number 1) {})
  return o

def object : ObjectId := (create (Movie.new { version := 6 })).1

/-- A new movie with it, in which case does not count. -/
@[irreducible] def movie : Movie := (create (Movie.new { version := 6 })).2

end Caseless

open Caseless

theorem keyed_as_named_caseless :
    (((Host.bare Unit).machine 1).toText (.bool true) ⟨movie, ()⟩ = (.ok "true", ⟨movie, ()⟩) ∧
      ((Host.bare Unit).machine 1).readAt object (.bool true) ⟨movie, ()⟩ =
        ((Host.bare Unit).machine 1).read object "true" ⟨movie, ()⟩ ∧
      ∃ name, movie.normalize name = movie.normalize "true" ∧
        ((Host.bare Unit).machine 1).writeAt object (.bool true) .null ⟨movie, ()⟩ =
          ((Host.bare Unit).machine 1).write object name .null ⟨movie, ()⟩) ∧
    ((Host.bare Unit).machine 1).toText (.number 7) ⟨movie, ()⟩ = (.ok "7", ⟨movie, ()⟩) ∧
      ((Host.bare Unit).machine 1).writeAt object (.number 7) .null ⟨movie, ()⟩ =
        ((Host.bare Unit).machine 1).writeKey object "7" "7" .null ⟨movie, ()⟩ := by
  have hbool : ((Host.bare Unit).machine 1).toText (.bool true) ⟨movie, ()⟩ =
      (.ok "true", ⟨movie, ()⟩) := rfl
  have hseven : Number.text 7 = "7" := by decide +kernel
  have hnumber : ((Host.bare Unit).machine 1).toText (.number 7) ⟨movie, ()⟩ =
      (.ok "7", ⟨movie, ()⟩) := by
    rw [← hseven]
    rfl
  obtain ⟨hread, name, hname, _, hwrite⟩ := (keyed_as_named ((Host.bare Unit).machine 1) hbool
    object .null).1 (.inr fun _ => Value.noConfusion)
  exact ⟨⟨hbool, hread, name, hname, hwrite⟩, hnumber,
    ((keyed_as_named ((Host.bare Unit).machine 1) hnumber object .null).2 ⟨7, rfl⟩).2⟩

/-- The slot `NaN` has the key `nan`, to which the number does not lead. -/
theorem readAt_nan_ne_read :
    ((Host.bare Unit).machine 1).toText (.number .nan) ⟨movie, ()⟩ = (.ok "NaN", ⟨movie, ()⟩) ∧
    (((Host.bare Unit).machine 1).read object "NaN" ⟨movie, ()⟩).1 = .ok (.number 1) ∧
    (((Host.bare Unit).machine 1).readAt object (.number .nan) ⟨movie, ()⟩).1 =
      .ok .undefined := by
  refine ⟨rfl, ?_, ?_⟩
  · decide +kernel
  · decide +kernel

end Machine

end ActionScript
