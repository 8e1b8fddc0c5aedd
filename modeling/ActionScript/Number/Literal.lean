import ActionScript.Number.Decimal
import ActionScript.Text.Blank

/-! # Reading numbers

The numeric value of a text: blanks at both ends, one sign, then `Infinity`, a hexadecimal integer
or a decimal fraction. Any other text is not a number; a blank one is zero. -/

namespace ActionScript.Number

/-- The value of a decimal digit. -/
def digitValue? (c : Char) : Option Nat :=
  if '0' ≤ c && c ≤ '9' then some (c.toNat - '0'.toNat) else none

/-- The value of a hexadecimal digit of either case. -/
def hexValue? (c : Char) : Option Nat :=
  if 'a' ≤ c && c ≤ 'f' then some (c.toNat - 'a'.toNat + 10)
  else if 'A' ≤ c && c ≤ 'F' then some (c.toNat - 'A'.toNat + 10)
  else digitValue? c

/-- The value of a numeral of decimal digits. -/
def digitsValue (cs : List Char) : Nat :=
  cs.foldl (fun acc c => acc * 10 + (digitValue? c).getD 0) 0

def isDigit (c : Char) : Bool := (digitValue? c).isSome

/-- The exponent after the mark `e` or `E`: an optional sign and at least one digit. -/
def readExponent? : List Char → Option Int
  | [] => some 0
  | mark :: cs =>
    if mark = 'e' ∨ mark = 'E' then
      let (negative, digits) :=
        match cs with
        | '-' :: rest => (true, rest)
        | '+' :: rest => (false, rest)
        | _ => (false, cs)
      if digits.isEmpty || !digits.all isDigit then none
      else some (if negative then -digitsValue digits else digitsValue digits)
    else none

/-- A decimal fraction without sign, with a digit before or after the point. -/
def readDecimal? (cs : List Char) : Option Decimal :=
  let whole := cs.takeWhile isDigit
  let rest := cs.dropWhile isDigit
  let (fraction, rest) :=
    match rest with
    | '.' :: rest => (rest.takeWhile isDigit, rest.dropWhile isDigit)
    | _ => ([], rest)
  if whole.isEmpty && fraction.isEmpty then none
  else (readExponent? rest).map fun e => ⟨digitsValue (whole ++ fraction), e - fraction.length⟩

/-- The value of a sequence of hexadecimal digits, accumulated in numbers. -/
def hexDigitsValue (cs : List Char) : Number :=
  cs.foldl (fun acc c => acc * 16 + ofNat ((hexValue? c).getD 0)) 0

/-- The magnitude that stands after the sign. -/
def readMagnitude : List Char → Number
  | ['I', 'n', 'f', 'i', 'n', 'i', 't', 'y'] => .infinite false
  | cs@('0' :: mark :: digits) =>
    if mark = 'x' ∨ mark = 'X' then
      if digits.isEmpty || digits.any (hexValue? · |>.isNone) then .nan else hexDigitsValue digits
    else ((readDecimal? cs).map Decimal.toNumber).getD .nan
  | cs => ((readDecimal? cs).map Decimal.toNumber).getD .nan

/-- The numeric value of a text. -/
def ofText (s : String) : Number :=
  match Text.trim s.toList with
  | [] => zero false
  | '-' :: cs => -readMagnitude cs
  | '+' :: cs => readMagnitude cs
  | cs => readMagnitude cs

end ActionScript.Number
