/-! # Binary64 numbers

A finite number is an integer multiple of the least positive number `2 ^ -1074`: its magnitude is
`m * 2 ^ p` such units, with the significand `m` and the unit exponent `p` in the only normalised
form. Every operation computes its exact result as a fraction of units and rounds that once with
`Number.round`, to the nearest number and from the middle to an even significand. -/

namespace ActionScript

/-- The significand and unit exponent of a magnitude `m * 2 ^ p` in normalised form: the
significand is below `2 ^ 53`, and not below `2 ^ 52` unless the exponent is the least. -/
structure Number.Canonical (m p : Nat) : Prop where
  lt : m < 0x20000000000000
  normal : 0x10000000000000 ≤ m ∨ p = 0
  le : p ≤ 2045

instance Number.Canonical.decidable (m p : Nat) : Decidable (Number.Canonical m p) :=
  decidable_of_iff (m < 0x20000000000000 ∧ (0x10000000000000 ≤ m ∨ p = 0) ∧ p ≤ 2045)
    ⟨fun ⟨h₁, h₂, h₃⟩ => ⟨h₁, h₂, h₃⟩, fun ⟨h₁, h₂, h₃⟩ => ⟨h₁, h₂, h₃⟩⟩

/-- A number: not a number, an infinity, or a finite one, which is `m * 2 ^ p` times the least
positive number. -/
inductive Number where
  | nan
  | infinite (negative : Bool)
  | finite (negative : Bool) (m p : Nat) (canonical : Number.Canonical m p)
deriving DecidableEq

namespace Number

/-- The units in one, `2 ^ 1074`. -/
def unitsPerOne : Nat := 1 <<< 1074

theorem canonical_zero : Canonical 0 0 := ⟨by decide, .inr rfl, by decide⟩

/-- The zero of a sign. -/
def zero (negative : Bool) : Number := .finite negative 0 0 canonical_zero

instance : Inhabited Number := ⟨zero false⟩

/-- The number with the given sign, significand and unit exponent. Parts that are not normalised
stand for a magnitude above the largest finite number. -/
def ofParts (negative : Bool) (m p : Nat) : Number :=
  if h : Canonical m p then .finite negative m p h else .infinite negative

theorem ofParts_of_canonical {m p : Nat} (h : Canonical m p) (negative : Bool) :
    ofParts negative m p = .finite negative m p h := dif_pos h

/-! ## Rounding -/

/-- The integer nearest to `num / den`; the middle of two goes to the even one. -/
def roundDiv (num den : Nat) : Nat :=
  let q := num / den
  let r := num % den
  if den < 2 * r ∨ (2 * r = den ∧ q % 2 = 1) then q + 1 else q

/-- The number nearest to `num / den` units. -/
def round (negative : Bool) (num den : Nat) : Number :=
  let p := (num / den).log2 - 52
  let m := roundDiv num (den <<< p)
  if m = 0x20000000000000 then ofParts negative 0x10000000000000 (p + 1)
  else ofParts negative m p

/-- The number nearest to the integer `n`. -/
def ofNat (n : Nat) : Number := round false (n * unitsPerOne) 1

/-- The number nearest to the integer `n`; zero is positive. -/
def ofInt (n : Int) : Number := round (n < 0) (n.natAbs * unitsPerOne) 1

instance (n : Nat) : OfNat Number n := ⟨ofNat n⟩

/-! ## The 64-bit interchange format -/

/-- Every word with a full exponent field and a non-zero fraction is read as `nan`. -/
def ofBits (word : UInt64) : Number :=
  let negative := word.toNat >>> 63 == 1
  let field := (word.toNat >>> 52) % 2048
  let fraction := word.toNat % 0x10000000000000
  if field = 2047 then
    if fraction = 0 then .infinite negative else .nan
  else if field = 0 then ofParts negative fraction 0
  else ofParts negative (0x10000000000000 + fraction) (field - 1)

/-- The number in the layout of 64 bits. All that is not a number has one pattern. -/
def toBits : Number → UInt64
  | .nan => 0x7ff8000000000000
  | .infinite negative => cond negative 0xfff0000000000000 0x7ff0000000000000
  | .finite negative m p _ =>
    .ofNat (cond negative 0x8000000000000000 0 +
      if m < 0x10000000000000 then m else ((p + 1) <<< 52) + (m - 0x10000000000000))

/-! ## Classification and order -/

def isNaN : Number → Bool
  | .nan => true
  | _ => false

def isFinite : Number → Bool
  | .finite .. => true
  | _ => false

/-- Zero of either sign. -/
def isZero : Number → Bool
  | .finite _ m _ _ => m == 0
  | _ => false

/-- The magnitude in units; zero for what is not finite. -/
def magnitude : Number → Nat
  | .finite _ m p _ => m <<< p
  | _ => 0

/-- The signed value in units; zero for what is not finite. -/
def scaled : Number → Int
  | .finite negative m p _ => cond negative (-(m <<< p : Nat)) (m <<< p : Nat)
  | _ => 0

/-- Whether `x < y`; never for `nan`, and the two zeros are equal. -/
def lt : Number → Number → Bool
  | .nan, _ => false
  | _, .nan => false
  | .infinite s, .infinite t => s && !t
  | .infinite s, .finite .. => s
  | .finite .., .infinite t => !t
  | x@(.finite ..), y@(.finite ..) => x.scaled < y.scaled

/-- Whether `x ≤ y`; never for `nan`. -/
def le (x y : Number) : Bool := !x.isNaN && !y.isNaN && !lt y x

/-- Whether the sign is negative, as it is for the negative zero. -/
def isNegative : Number → Bool
  | .nan => false
  | .infinite negative => negative
  | .finite negative .. => negative

/-! ## Arithmetic -/

def neg : Number → Number
  | .nan => .nan
  | .infinite negative => .infinite !negative
  | .finite negative m p h => .finite (!negative) m p h

instance : Neg Number := ⟨neg⟩

def abs : Number → Number
  | .nan => .nan
  | .infinite _ => .infinite false
  | .finite _ m p h => .finite false m p h

/-- An exact sum of zero is negative only if both operands are. -/
def add : Number → Number → Number
  | .nan, _ => .nan
  | _, .nan => .nan
  | .infinite s, .infinite t => if s = t then .infinite s else .nan
  | .infinite s, .finite .. => .infinite s
  | .finite .., .infinite t => .infinite t
  | x@(.finite s _ _ _), y@(.finite t _ _ _) =>
    let sum := x.scaled + y.scaled
    if sum = 0 then zero (s && t) else round (sum < 0) sum.natAbs 1

instance : Add Number := ⟨add⟩

/-- The difference is the sum with the opposite number. -/
def sub (x y : Number) : Number := x + -y

instance : Sub Number := ⟨sub⟩

/-- The product, rounded once. -/
def mul (x y : Number) : Number :=
  let negative := x.isNegative != y.isNegative
  match x, y with
  | .nan, _ => .nan
  | _, .nan => .nan
  | .infinite _, y => if y.isZero then .nan else .infinite negative
  | x, .infinite _ => if x.isZero then .nan else .infinite negative
  | x, y => round negative (x.magnitude * y.magnitude) unitsPerOne

instance : Mul Number := ⟨mul⟩

/-- The quotient, rounded once. -/
def div (x y : Number) : Number :=
  let negative := x.isNegative != y.isNegative
  match x, y with
  | .nan, _ => .nan
  | _, .nan => .nan
  | .infinite _, .infinite _ => .nan
  | .infinite _, _ => .infinite negative
  | _, .infinite _ => zero negative
  | x, y =>
    if y.isZero then
      if x.isZero then .nan else .infinite negative
    else round negative (x.magnitude * unitsPerOne) y.magnitude

instance : Div Number := ⟨div⟩

/-- The exact remainder of a division rounded toward zero, with the sign of the dividend. -/
def rem (x y : Number) : Number :=
  match x, y with
  | .nan, _ => .nan
  | _, .nan => .nan
  | .infinite _, _ => .nan
  | x, .infinite _ => x
  | x, y => if y.isZero then .nan else round x.isNegative (x.magnitude % y.magnitude) 1

instance : Mod Number := ⟨rem⟩

/-- The integer square root of `n`, from its highest binary digit down to its lowest. -/
def floorSqrt (n : Nat) : Nat :=
  go (n.log2 / 2 + 1) 0
where
  go : Nat → Nat → Nat
    | 0, root => root
    | k + 1, root =>
      let next := root + (1 <<< k)
      if next * next ≤ n then go k next else go k root

/-- The root of `u` units is that of `u * 2 ^ 1074`, in units. Unless it is an integer, the half
above its integer part lies on the same side of every middle between two numbers. -/
def sqrt : Number → Number
  | .nan => .nan
  | .infinite negative => if negative then .nan else .infinite false
  | x@(.finite negative m _ _) =>
    if m = 0 then x
    else if negative then .nan
    else
      let square := x.magnitude * unitsPerOne
      let root := floorSqrt square
      if root * root = square then round false root 1 else round false (2 * root + 1) 2

/-- The larger of two numbers, of which neither is `nan`. -/
def max (x y : Number) : Number := if lt x y then y else x

/-- The smaller of two numbers, of which neither is `nan`. -/
def min (x y : Number) : Number := if lt y x then y else x

/-- A power as the platform's mathematical library computes it. -/
def pow (x y : Number) : Number :=
  ofBits (Float.pow (.ofBits x.toBits) (.ofBits y.toBits)).toBits

end Number

end ActionScript
