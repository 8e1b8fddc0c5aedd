/-! # UTF-16 units

Positions and lengths in scripts count the 16-bit units of UTF-16. A cut through a surrogate pair
leaves a unit that stands for no character and is read as U+FFFD. -/

namespace ActionScript.Text

/-- The one or two units of a character. -/
def charUnits (c : Char) : List UInt16 :=
  let n := c.toNat
  if n < 0x10000 then [.ofNat n]
  else [.ofNat (0xd800 + (n - 0x10000) / 0x400), .ofNat (0xdc00 + (n - 0x10000) % 0x400)]

/-- The units of a text. -/
def units (s : String) : List UInt16 := s.toList.flatMap charUnits

/-- Whether a unit is the first of a pair. -/
def isHighSurrogate (u : UInt16) : Bool := 0xd800 ≤ u && u < 0xdc00

/-- Whether a unit is the second of a pair. -/
def isLowSurrogate (u : UInt16) : Bool := 0xdc00 ≤ u && u < 0xe000

/-- The character of a surrogate pair. -/
def pairChar (high low : UInt16) : Char :=
  .ofNat (0x10000 + (high.toNat - 0xd800) * 0x400 + (low.toNat - 0xdc00))

/-- The character of a single unit. -/
def unitChar (u : UInt16) : Char :=
  if isHighSurrogate u || isLowSurrogate u then .ofNat 0xfffd else .ofNat u.toNat

/-- The characters of units; a unit that lacks its other half is replaced. -/
def charsOfUnits : List UInt16 → List Char
  | [] => []
  | [u] => [unitChar u]
  | u :: v :: rest =>
    if isHighSurrogate u && isLowSurrogate v then pairChar u v :: charsOfUnits rest
    else unitChar u :: charsOfUnits (v :: rest)

/-- The text of units. -/
def ofUnits (us : List UInt16) : String := String.ofList (charsOfUnits us)

/-- The first position at which `part` occurs in the units, where these start at position `i`. -/
def findUnitsFrom (part : List UInt16) : List UInt16 → Nat → Option Nat
  | [], i => if part.isEmpty then some i else none
  | us@(_ :: rest), i => if part.isPrefixOf us then some i else findUnitsFrom part rest (i + 1)

/-- The least position from `start` on at which `part` occurs in `whole`; `start` is at most the
length of `whole`. -/
def findUnits (whole part : List UInt16) (start : Nat) : Option Nat :=
  findUnitsFrom part (whole.drop start) start

end ActionScript.Text
