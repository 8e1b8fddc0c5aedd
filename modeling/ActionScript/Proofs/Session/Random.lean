import ActionScript.Proofs.Session.ArrayLength
import ActionScript.Proofs.Session.Course
import ActionScript.Proofs.Session.Past

/-! # Random numbers in a session

The generator of a movie is started once, from the seed of its settings, and moves by draws only.
So whatever a client does, its state is never zero, and each number that it gives is 53 bits over
`2 ^ 53` (`Session.Reached.draws`). -/

namespace ActionScript

namespace Movie

/-- The movie once a random number has been drawn. -/
def drawn (m : Movie) : Movie := (nextRandom m).2

theorem random_iterate_drawn (m : Movie) (n : Nat) :
    (drawn^[n] m).random = Random.step^[n] m.random := by
  induction n generalizing m with
  | zero => rfl
  | succ n ih => exact ih m.drawn

theorem nextRandom_fst (m : Movie) : (nextRandom m).1 = Random.value m.drawn.random := rfl

end Movie

namespace Session

/-- The movie that a session begins with lasts in all its movies. -/
theorem Reached.lasts_new {m : Movie} (h : Reached m) : (Movie.new m.settings).Lasts m := by
  obtain ⟨σ, α, c, depth, settings, own, main, hm⟩ := h
  have horderly := c.orderly_play depth settings own main
  obtain ⟨newer, hpast⟩ : [Movie.new settings] <:+ (c.play depth settings own main).embedder.past :=
    Program.run_since (c.respects_since depth) main false (List.suffix_refl _)
  have hlasts : (Movie.new settings).Lasts m := by
    have hpairs := horderly.lasts
    rw [← hpast] at hm hpairs
    rcases List.mem_append.mp hm with hm | hm
    · exact (List.pairwise_append.mp hpairs).2.2 m hm _ List.mem_cons_self
    · rw [List.mem_singleton.mp hm]
      exact .refl _
  have hsettings : m.settings = settings :=
    hlasts.settings.trans (Movie.passes_new settings).settings
  rwa [hsettings]

theorem Reached.follows_start {m : Movie} (h : Reached m) :
    Random.Follows (Random.start m.settings.seed) m.random :=
  (Movie.passes_new m.settings).random.trans h.lasts_new.random

/-- In every movie of a session the generator has come from its seed by draws. However many numbers
are drawn from then on, its state is not zero, and the next number is `k / 2 ^ 53`, unrounded, for
some `k` below `2 ^ 53`. No draw merges two states. -/
theorem Reached.draws {m : Movie} (h : Reached m) (n : Nat) :
    Function.Bijective Random.step ∧
    Random.Follows (Random.start m.settings.seed) m.random ∧
    (Movie.drawn^[n] m).random = Random.step^[n] m.random ∧
    (Movie.drawn^[n] m).random ≠ 0 ∧
    ∃ k < 2 ^ 53, (Movie.nextRandom (Movie.drawn^[n] m)).1.isFinite ∧
      (Movie.nextRandom (Movie.drawn^[n] m)).1.isNegative = false ∧
      (Movie.nextRandom (Movie.drawn^[n] m)).1.value = (k : Nat) / 2 ^ 53 := by
  have hstate := h.follows_start
  have hrandom := Movie.random_iterate_drawn m n
  refine ⟨Random.step_bijective, hstate, hrandom, ?_,
    _, Random.draw_lt (Movie.drawn^[n] m).drawn.random, ?_⟩
  · rw [hrandom]
    exact Random.iterate_step_ne_zero (hstate.ne_zero (Random.start_ne_zero _)) n
  · rw [Movie.nextRandom_fst]
    exact Random.value_eq _

/-- The movie whose seed is zero. -/
@[irreducible] def unseeded : Movie := .new { seed := 0 }

theorem draws_unseeded :
    Reached unseeded ∧ unseeded.random ≠ 0 ∧ unseeded.drawn.random ≠ 0 ∧
      ∃ k < 2 ^ 53, (Movie.nextRandom unseeded.drawn).1.value = (k : Nat) / 2 ^ 53 := by
  have hreached : Reached unseeded := by
    rw [unseeded]
    exact reached_new _
  obtain ⟨-, -, -, hstart, -⟩ := hreached.draws 0
  obtain ⟨-, -, -, hnext, k, hk, -, -, hvalue⟩ := hreached.draws 1
  exact ⟨hreached, hstart, hnext, k, hk, hvalue⟩

end Session

end ActionScript
