import ActionScript.Number.Basic

/-! # Integers of numbers

Rounding to integers, and the conversions to integers of 32 bits, which keep the residue of the
truncated value modulo `2 ^ 32`. -/

namespace ActionScript.Number

/-- The value rounded toward zero; zero for what is not finite. -/
def toInt : Number → Int
  | x@(.finite negative _ _ _) =>
    let n : Nat := x.magnitude / unitsPerOne
    if negative then -n else n
  | _ => 0

/-- Rounds a finite magnitude to an integer and keeps the sign, so that a zero may be negative. -/
def mapMagnitude (f : Bool → Nat → Nat) : Number → Number
  | x@(.finite negative _ _ _) => round negative (f negative x.magnitude * unitsPerOne) 1
  | x => x

/-- Rounds toward zero. -/
def trunc : Number → Number := mapMagnitude fun _ u => u / unitsPerOne

/-- The least integer that is not below a number of units. -/
def ceilDiv (u : Nat) : Nat := (u + (unitsPerOne - 1)) / unitsPerOne

/-- Rounds down. -/
def floor : Number → Number :=
  mapMagnitude fun negative u => cond negative (ceilDiv u) (u / unitsPerOne)

/-- Rounds up. -/
def ceil : Number → Number :=
  mapMagnitude fun negative u => cond negative (u / unitsPerOne) (ceilDiv u)

/-- The nearest integer, the middle of two going up; the sum is itself rounded. -/
def roundHalfUp (x : Number) : Number := floor (x + 1 / 2)

/-- Whether the value is finite and has no fraction. -/
def isInteger : Number → Bool
  | x@(.finite ..) => x.magnitude % unitsPerOne == 0
  | _ => false

/-- Rounds toward zero; `nan` becomes zero and the infinities stay. -/
def toInteger : Number → Number
  | .nan => zero false
  | x => x.trunc

/-- The integer closest to the truncated value in `[-2 ^ 63, 2 ^ 63)`; zero for `nan`. -/
def toInt64 : Number → Int
  | .nan => 0
  | .infinite negative => if negative then -0x8000000000000000 else 0x7fffffffffffffff
  | x => Max.max (-0x8000000000000000) (Min.min x.toInt 0x7fffffffffffffff)

/-- The integer in `[-2 ^ 31, 2 ^ 31)` congruent to the truncated value; zero for what is not
finite. The remainder by `2 ^ 32` among the numbers is taken to an integer of 64 bits, of which the
low 32 are kept. -/
def toInt32 (x : Number) : Int :=
  if x.isFinite && !x.isZero then (BitVec.ofInt 32 (x.trunc % 0x100000000).toInt64).toInt else 0

/-- The integer in `[0, 2 ^ 32)` with the same bits as the signed one. -/
def toUInt32 (x : Number) : Nat := (BitVec.ofInt 32 x.toInt32).toNat

/-- The integer closest to the truncated value in `[0, bound]`; zero for `nan`. -/
def toNatUpTo (bound : Nat) : Number → Nat
  | .infinite false => bound
  | x => Min.min x.toInt.toNat bound

end ActionScript.Number
