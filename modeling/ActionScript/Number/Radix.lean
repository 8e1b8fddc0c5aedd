import ActionScript.Number.Decimal
import ActionScript.Number.Integer

/-! # Text of numbers in other radices

Digits are split off by division and by multiplication in numbers, which are exact for integers
below `2 ^ 53`. -/

namespace ActionScript.Number

/-- The digits and small letters, in the order of their values. -/
def digitChar (d : Nat) : Char := if d < 10 then Char.ofNat (48 + d) else Char.ofNat (87 + d)

/-- The digits of an integral number before the given ones. No radix has more than 1024. -/
def integerDigits (radix : Number) : Nat → Number → List Char → List Char
  | 0, _, digits => digits
  | n + 1, x, digits =>
    if le 1 x then
      integerDigits radix n (x / radix).trunc (digitChar (x % radix).toInt.toNat :: digits)
    else digits

/-- Digits of a fraction below one, until less than `1e-10` is left or their number is
reached: a binary fraction need not end in another radix. -/
def fractionDigits (radix : Number) : Nat → Number → List Char
  | 0, _ => []
  | n + 1, x =>
    let shifted := x * radix
    let digit := shifted.trunc
    let rest := shifted - digit
    digitChar digit.toInt.toNat ::
      if lt rest (Decimal.toNumber ⟨1, -10⟩) then [] else fractionDigits radix n rest

/-- The text in a radix from 2 to 36, with at most twenty digits after the point. Radix ten,
radices out of range and what is not finite have the decimal text. -/
def textInRadix (x : Number) (radix : Nat) : String :=
  if radix = 10 ∨ radix < 2 ∨ 36 < radix ∨ x.isFinite = false then x.text
  else
    let whole := x.abs.trunc
    let fraction := x.abs - whole
    let digits := if whole.isZero then ['0'] else integerDigits (ofNat radix) 1024 whole []
    let digits :=
      if fraction.isZero then digits
      else digits ++ '.' :: fractionDigits (ofNat radix) 20 fraction
    String.ofList (if lt x 0 then '-' :: digits else digits)

end ActionScript.Number
