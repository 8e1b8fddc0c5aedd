/-! # Splitting texts -/

namespace ActionScript.Text

/-- The parts between the occurrences of a character; there is one more than of those. -/
def splitChars (c : Char) : List Char → List (List Char)
  | [] => [[]]
  | x :: rest =>
    if x = c then [] :: splitChars c rest
    else
      match splitChars c rest with
      | [] => [[x]]
      | part :: parts => (x :: part) :: parts

/-- The parts of a text between the occurrences of a character. -/
def split (c : Char) (s : String) : List String := (splitChars c s.toList).map String.ofList

end ActionScript.Text
