import ActionScript.Text.Case

/-! # Settings of a movie -/

namespace ActionScript

/-- What is fixed for the whole life of a movie. -/
structure Settings where
  /-- The version byte of the movie. Names are case-sensitive above version 6, and older versions
  convert `undefined` and the empty string differently. -/
  version : Nat := 10
  /-- The seed of the random numbers. -/
  seed : UInt64 := 1
  /-- The most elements of an array that are read in one pass. -/
  maxElements : Nat := 0x100000
deriving DecidableEq

namespace Settings

/-- Whether names that differ in their case are different names. -/
def caseSensitive (s : Settings) : Bool := 6 < s.version

/-- The key of a name: the name itself, or its lower case where case does not count. -/
def normalize (s : Settings) (name : String) : String :=
  if s.caseSensitive then name else Text.lower name

end Settings

end ActionScript
