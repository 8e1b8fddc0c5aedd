import ActionScript.Text.Printable

/-! # Quoted texts

A text in double quotes on one line. Tab, line ends, quotes, backslashes and the null character
have escapes of two characters; other characters that cannot be printed, and a combining one that
would join the opening quote, are written by code point. -/

namespace ActionScript.Text

/-- The escape by code point, in lower-case hexadecimal digits without padding. -/
def escapeCode (c : Char) : List Char :=
  '\\' :: 'u' :: '\x7b' :: Nat.toDigits 16 c.toNat ++ ['\x7d']

/-- A character between quotes. A mark that joins the character before it is escaped where it would
join the quote. -/
def quoteChar (first : Bool) (c : Char) : List Char :=
  if c = '\t' then ['\\', 't']
  else if c = '\r' then ['\\', 'r']
  else if c = '\n' then ['\\', 'n']
  else if c = '"' then ['\\', '"']
  else if c = '\\' then ['\\', '\\']
  else if c.toNat = 0 then ['\\', '0']
  else if (first && isCombining c) || !isPrintable c then escapeCode c
  else [c]

/-- A text between quotes, with escapes for what would not be seen. -/
def quote (s : String) : String :=
  let body :=
    match s.toList with
    | [] => []
    | c :: rest => quoteChar true c ++ rest.flatMap (quoteChar false)
  String.ofList ('"' :: body ++ ['"'])

end ActionScript.Text
