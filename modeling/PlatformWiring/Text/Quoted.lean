import PlatformWiring.Text.Hidden

/-!
# Quoted text

Messages show characters and texts between quotation marks. The mark itself, the backslash
and the common controls are written with a backslash; every other character without a
visible form is written by its code point.
-/

namespace PlatformWiring.Text

/-- The digits of a number in base sixteen, in small letters. -/
def hexDigits (n : Nat) : List Char := Nat.toDigits 16 n

/-- A character between quotation marks `mark`. -/
def quotedChar (mark c : Char) : List Char :=
  if c = '\x00' then ['\\', '0']
  else if c = '\t' then ['\\', 't']
  else if c = '\r' then ['\\', 'r']
  else if c = '\n' then ['\\', 'n']
  else if c = '\\' ∨ c = mark then ['\\', c]
  else if isHidden c then ['\\', 'u', '\x7b'] ++ hexDigits c.toNat ++ ['\x7d']
  else [c]

/-- A character in apostrophes. -/
def quoteChar (c : Char) : String :=
  String.ofList ('\'' :: (quotedChar '\'' c ++ ['\'']))

/-- A text in quotation marks. -/
def quote (s : String) : String :=
  String.ofList ('"' :: (s.toList.flatMap (quotedChar '"') ++ ['"']))

end PlatformWiring.Text
