import ActionScript.Number.Literal

/-! # The digits of a literal

A shortest decimal literal may come from a printer that lays its digits out in some other way. Its
digits and the power of ten of the first one are taken out of the literal, and laid out anew. -/

namespace ActionScript

/-- The integer, if it fits in 32 bits. -/
def int32? (n : Int) : Option Int :=
  if -0x80000000 ≤ n ∧ n < 0x80000000 then some n else none

/-- The low 32 bits, signed. -/
def lowInt32 (n : Nat) : Int := (BitVec.ofNat 32 n).toInt

namespace Decimal

/-- Exponents may be marked in either case. -/
def isExponentMark (c : Char) : Bool := c = 'e' || c = 'E'

/-- What stands before the exponent. -/
def mantissa (literal : List Char) : List Char := literal.takeWhile (!isExponentMark ·)

/-- The exponent of a literal; zero if there is none, or none that fits in 32 bits. -/
def literalExponent (literal : List Char) : Int :=
  ((Number.readExponent? (literal.dropWhile (!isExponentMark ·))).bind int32?).getD 0

/-- The digits without zeros in front. -/
def dropZeros (cs : List Char) : List Char := cs.dropWhile (· = '0')

/-- The digits without zeros at the end. -/
def dropZerosEnd (cs : List Char) : List Char := (dropZeros cs.reverse).reverse

/-- The significant digits of an ASCII literal, without zeros at either end, and the power of ten of
the first; `none` where that sum does not fit in 32 bits. -/
def decompose? (literal : List Char) : Option (List Char × Int) :=
  let whole := (mantissa literal).takeWhile (· ≠ '.')
  let all := (mantissa literal).filter Number.isDigit
  let zeros := all.takeWhile (· = '0')
  let digits := dropZerosEnd (dropZeros all)
  if digits.isEmpty then some (['0'], 0)
  else do
    let behind ← int32? (lowInt32 whole.length - 1)
    let first ← int32? (behind - lowInt32 zeros.length)
    let leading ← int32? (first + literalExponent literal)
    return (digits, leading)

end Decimal

namespace Number

/-- The exact value of a positive finite number, rounded to `count` digits, with one digit before
the point. -/
def exactLiteral (count : Nat) (x : Number) : List Char :=
  let d := x.rounded count
  let digits := d.digits ++ List.replicate (count - d.digits.length) '0'
  digits.take 1 ++ '.' :: digits.drop 1 ++ 'e' :: (toString d.leading).toList

/-- The digits that are written for a positive finite number of which a printer gives the shortest
literal. -/
def significant? (literal : Number → List Char) (x : Number) : Option (List Char × Int) := do
  let (digits, leading) ← Decimal.decompose? (literal x)
  if digits.length ≤ precision then return (digits, leading)
  else Decimal.decompose? (x.exactLiteral precision)

/-- The text of a number by the literals of a printer. -/
def textBy? (literal : Number → List Char) : Number → Option String
  | .nan => some "NaN"
  | .infinite negative => some (if negative then "-Infinity" else "Infinity")
  | x@(.finite negative m _ _) =>
    if m = 0 then some "0"
    else (significant? literal x.abs).map fun (digits, leading) =>
      let body := Decimal.layout digits leading
      String.ofList (if negative then '-' :: body else body)

end Number

end ActionScript
