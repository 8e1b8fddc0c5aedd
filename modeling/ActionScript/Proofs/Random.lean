import Mathlib.Data.FinEnum
import Mathlib.Logic.Function.Iterate
import ActionScript.Movie.Random
import ActionScript.Proofs.Rounding

/-! # The random number generator

A word exclusive-or itself shifted determines the word, so a step of the generator is a bijection
of the words (`Random.step_bijective`) and never leads from another word to zero. Each draw is its
53 bits over `2 ^ 53`, unrounded (`Random.value_eq`). -/

namespace ActionScript

/-! ## Shifts -/

section Shifts

variable {w k : Nat} {x y : BitVec w}

/-- A shift to the right makes every word but zero smaller. -/
theorem eq_zero_of_ushiftRight_eq (hk : 0 < k) (h : x >>> k = x) : x = 0#w := by
  have hvalue : x.toNat / 2 ^ k = x.toNat := by
    rw [← Nat.shiftRight_eq_div_pow, ← BitVec.toNat_ushiftRight, h]
  refine BitVec.eq_of_toNat_eq ?_
  rw [BitVec.toNat_zero]
  by_contra hne
  exact (Nat.div_lt_self (Nat.pos_of_ne_zero hne) (Nat.one_lt_two_pow hk.ne')).ne hvalue

/-- A shift to the left by `k` makes each bit the one `k` places below, and the lowest zero. -/
theorem eq_zero_of_shiftLeft_eq (hk : 0 < k) (h : x <<< k = x) : x = 0#w := by
  refine BitVec.eq_of_getLsbD_eq fun i _ => ?_
  rw [BitVec.getLsbD_zero]
  induction i using Nat.strong_induction_on with
  | _ i ih =>
    rw [← h, BitVec.getLsbD_shiftLeft]
    by_cases hi : i < k
    · simp [hi]
    · rw [ih (i - k) (by omega) (by omega), Bool.and_false]

/-- Where a shift respects differences and leaves none but zero as it is, a word is determined by
its difference to its shift. -/
theorem xor_shift_injective {shift : BitVec w → BitVec w}
    (hxor : ∀ x y, shift (x ^^^ y) = shift x ^^^ shift y) (hzero : ∀ {x}, shift x = x → x = 0#w) :
    Function.Injective fun x => x ^^^ shift x := by
  intro x y h
  have hdiff : (x ^^^ y) ^^^ shift (x ^^^ y) = 0#w := by
    have hcomm : (x ^^^ y) ^^^ (shift x ^^^ shift y) = (x ^^^ shift x) ^^^ (y ^^^ shift y) := by
      ac_rfl
    rw [hxor, hcomm]
    exact BitVec.xor_eq_zero_iff.mpr h
  exact BitVec.xor_eq_zero_iff.mp (hzero (BitVec.xor_eq_zero_iff.mp hdiff).symm)

theorem xor_ushiftRight_injective (hk : 0 < k) :
    Function.Injective fun x : BitVec w => x ^^^ x >>> k :=
  xor_shift_injective (fun x y => BitVec.ushiftRight_xor_distrib x y k)
    (eq_zero_of_ushiftRight_eq hk)

theorem xor_shiftLeft_injective (hk : 0 < k) :
    Function.Injective fun x : BitVec w => x ^^^ x <<< k :=
  xor_shift_injective (fun x y => BitVec.shiftLeft_xor_distrib x y k) (eq_zero_of_shiftLeft_eq hk)

end Shifts

namespace Random

variable {x y z : UInt64}

/-! ## Steps -/

theorem step_injective : Function.Injective step := by
  intro x y h
  -- The step is three words, each exclusive-or itself shifted, on the bits of the state.
  have hbits := (xor_ushiftRight_injective (w := 64) (k := 27) (by decide)).comp
    ((xor_shiftLeft_injective (k := 25) (by decide)).comp
      (xor_ushiftRight_injective (k := 12) (by decide)))
  exact UInt64.toBitVec_inj.mp (hbits (congrArg UInt64.toBitVec h))

/-- No two states are merged, and none is left out. -/
theorem step_bijective : Function.Bijective step :=
  Finite.injective_iff_bijective.mp step_injective

theorem step_zero : step 0 = 0 := by decide

theorem step_ne_zero (hx : x ≠ 0) : step x ≠ 0 :=
  fun h => hx (step_injective (h.trans step_zero.symm))

theorem iterate_step_ne_zero (hx : x ≠ 0) (n : Nat) : step^[n] x ≠ 0 := by
  induction n generalizing x with
  | zero => exact hx
  | succ n ih => exact ih (step_ne_zero hx)

theorem start_ne_zero (seed : UInt64) : start seed ≠ 0 :=
  fun h => absurd (UInt64.or_eq_zero_iff.mp h).2 (by decide)

/-- The second state is the first or comes some draws after it. -/
def Follows (x y : UInt64) : Prop := ∃ n, y = step^[n] x

namespace Follows

theorem refl (x : UInt64) : Follows x x := ⟨0, rfl⟩

theorem step (x : UInt64) : Follows x (step x) := ⟨1, rfl⟩

theorem trans (h : Follows x y) (h' : Follows y z) : Follows x z := by
  obtain ⟨n, rfl⟩ := h
  obtain ⟨k, rfl⟩ := h'
  exact ⟨k + n, (Function.iterate_add_apply _ k n x).symm⟩

theorem ne_zero (h : Follows x y) (hx : x ≠ 0) : y ≠ 0 := by
  obtain ⟨n, rfl⟩ := h
  exact iterate_step_ne_zero hx n

end Follows

/-! ## Draws -/

theorem draw_lt (x : UInt64) : (draw x).toNat < 2 ^ 53 := by
  rw [draw, UInt64.toNat_shiftRight, Nat.shiftRight_eq_div_pow]
  exact Nat.div_lt_of_lt_mul (UInt64.toNat_lt _)

end Random

namespace Number

/-- A natural number below `2 ^ 53` over a power of two is not rounded, unless the quotient is so
small that it loses digits. -/
theorem round_pow_two {n j : Nat} (hn : n < 2 ^ 53) (hj : j ≤ 1022) :
    (round false (n * unitsPerOne) (2 ^ j)).isFinite ∧
      (round false (n * unitsPerOne) (2 ^ j)).isNegative = false ∧
      (round false (n * unitsPerOne) (2 ^ j)).value = n / 2 ^ j := by
  obtain ⟨m, p, h, hunits⟩ : ∃ m p, Canonical m p ∧ n * unitsPerOne = m <<< p * 2 ^ j := by
    rcases Nat.eq_zero_or_pos n with rfl | hpos
    · exact ⟨0, 0, canonical_zero, by simp⟩
    · obtain ⟨m, hunits, hlow, hhigh⟩ := units_of_pos hpos hn
      have hlog : n.log2 < 53 := (Nat.log2_lt hpos.ne').mpr hn
      refine ⟨m, n.log2 + 1022 - j, ⟨hhigh, .inl hlow, by omega⟩, ?_⟩
      rw [hunits, Nat.shiftLeft_eq, Nat.mul_assoc, ← Nat.pow_add, Nat.sub_add_cancel (by omega)]
  rw [hunits, round_of_canonical h (Nat.two_pow_pos j)]
  refine ⟨rfl, rfl, ?_⟩
  rw [value_of_positive rfl, magnitude, div_eq_div_iff cast_unitsPerOne_pos.ne' (by positivity)]
  exact_mod_cast hunits.symm

end Number

/-- A draw is its bits over `2 ^ 53`, unrounded. -/
theorem Random.value_eq (x : UInt64) :
    (value x).isFinite ∧ (value x).isNegative = false ∧
      (value x).value = (draw x).toNat / 2 ^ 53 := by
  have hvalue : value x = .round false ((draw x).toNat * Number.unitsPerOne) (2 ^ 53) := rfl
  rw [hvalue]
  exact Number.round_pow_two (draw_lt x) (by decide)

end ActionScript
