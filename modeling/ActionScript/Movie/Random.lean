import ActionScript.Number.Basic

/-! # Random numbers

A shift-register generator of 64 bits, whose state is never zero. -/

namespace ActionScript.Random

/-- The state for a seed. -/
def start (seed : UInt64) : UInt64 := seed ||| 1

/-- The state after a draw. -/
def step (x : UInt64) : UInt64 :=
  let x := x ^^^ (x >>> 12)
  let x := x ^^^ (x <<< 25)
  x ^^^ (x >>> 27)

/-- The 53 bits drawn from a state. -/
def draw (x : UInt64) : UInt64 := (x * 0x2545f4914f6cdd1d) >>> 11

/-- The number in `[0, 1)` drawn from a state: its bits over `2 ^ 53`. -/
def value (x : UInt64) : Number :=
  .round false ((draw x).toNat * Number.unitsPerOne) 0x20000000000000

end ActionScript.Random
