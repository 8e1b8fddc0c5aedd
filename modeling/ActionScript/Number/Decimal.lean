import ActionScript.Number.Basic

/-! # Decimal text of numbers

A number is written with the fewest digits that read back as it if those are at most fifteen, and
else with its exact value rounded to fifteen digits. Exponents from -5 to 14 are written
positionally. -/

namespace ActionScript

/-- The decimal fraction `coefficient * 10 ^ exponent`. -/
structure Decimal where
  coefficient : Nat
  exponent : Int
deriving DecidableEq

namespace Decimal

/-- Moves the factors ten of the coefficient into the exponent. -/
def strip (d : Decimal) : Decimal :=
  go d.coefficient.log2 d.coefficient d.exponent
where
  go : Nat → Nat → Int → Decimal
    | 0, c, e => ⟨c, e⟩
    | n + 1, c, e => if c % 10 = 0 then go n (c / 10) (e + 1) else ⟨c, e⟩

/-- The decimal digits of the coefficient. -/
def digits (d : Decimal) : List Char := Nat.toDigits 10 d.coefficient

/-- The power of ten of the first digit. -/
def leading (d : Decimal) : Int := d.exponent + d.digits.length - 1

/-- The number nearest to the decimal. Beyond the four hundredth power of ten either way it is
infinite or zero, whatever the digits are. -/
def toNumber (d : Decimal) : Number :=
  if d.coefficient = 0 then .zero false
  else if 400 < d.leading then .infinite false
  else if d.leading < -400 then .zero false
  else if 0 ≤ d.exponent then
    .round false (d.coefficient * Nat.pow 10 d.exponent.toNat * Number.unitsPerOne) 1
  else
    .round false (d.coefficient * Number.unitsPerOne) (Nat.pow 10 (-d.exponent).toNat)

/-- Exponents of the first digit that are written without an exponent mark. -/
def isPositional (leading : Int) : Bool := -5 ≤ leading && leading < 15

/-- Zeros stand between the digits and the point where they do not meet. -/
def positional (digits : List Char) (leading : Int) : List Char :=
  if leading < 0 then '0' :: '.' :: List.replicate (-leading - 1).toNat '0' ++ digits
  else
    let whole := (leading + 1).toNat
    if digits.length ≤ whole then digits ++ List.replicate (whole - digits.length) '0'
    else digits.take whole ++ '.' :: digits.drop whole

/-- One digit stands before the point; the exponent has a sign and no padding. -/
def scientific (digits : List Char) (leading : Int) : List Char :=
  let head := digits.take 1
  let tail := digits.drop 1
  let sign := if leading < 0 then '-' else '+'
  (if tail.isEmpty then head else head ++ '.' :: tail) ++
    'e' :: sign :: Nat.toDigits 10 leading.natAbs

/-- The text of digits of which the first stands for a power of ten. -/
def layout (digits : List Char) (leading : Int) : List Char :=
  if isPositional leading then positional digits leading else scientific digits leading

/-- The text of the digits, positional where the power of ten of the first is small. -/
def text (d : Decimal) : String := String.ofList (layout d.digits d.leading)

end Decimal

namespace Number

/-- Significant digits kept in the text of a number. -/
def precision : Nat := 15

/-- The power of ten of the first digit of a positive finite number. -/
def decimalExponent (x : Number) : Int :=
  let u := x.magnitude
  if unitsPerOne ≤ u then (Nat.toDigits 10 (u / unitsPerOne)).length - 1
  else -(Nat.toDigits 10 ((unitsPerOne - 1) / u)).length

/-- The value in steps of `10 ^ k`, as a numerator and a denominator. -/
def inSteps (x : Number) (k : Int) : Nat × Nat :=
  if 0 ≤ k then (x.magnitude, unitsPerOne * Nat.pow 10 k.toNat)
  else (x.magnitude * Nat.pow 10 (-k).toNat, unitsPerOne)

/-- The neighbour on the grid of `count` digits that reads back as the number; of two, the
nearer. -/
def readBack? (x : Number) (count : Nat) : Option Decimal :=
  let k := x.decimalExponent - count + 1
  let (num, den) := x.inSteps k
  let below : Decimal := ⟨num / den, k⟩
  let above : Decimal := ⟨num / den + 1, k⟩
  match below.toNumber == x, above.toNumber == x with
  | true, true => some (if den < 2 * (num % den) then above else below)
  | true, false => some below
  | false, true => some above
  | false, false => none

/-- The fewest digits, at most `limit`, that read back as a positive finite number. -/
def shortest? (limit : Nat) (x : Number) : Option Decimal :=
  ((List.range limit).findSome? fun n => x.readBack? (n + 1)).map Decimal.strip

/-- The exact value rounded to `count` digits, the middle of two going to the even digit. -/
def rounded (count : Nat) (x : Number) : Decimal :=
  let k := x.decimalExponent - count + 1
  let (num, den) := x.inSteps k
  Decimal.strip ⟨roundDiv num den, k⟩

/-- The digits that are written for a positive finite number. -/
def decimal (x : Number) : Decimal := (x.shortest? precision).getD (x.rounded precision)

/-- Both zeros are written alike. -/
def text : Number → String
  | .nan => "NaN"
  | .infinite negative => if negative then "-Infinity" else "Infinity"
  | x@(.finite negative m _ _) =>
    if m = 0 then "0"
    else if negative then "-" ++ x.abs.decimal.text
    else x.decimal.text

end Number

end ActionScript
