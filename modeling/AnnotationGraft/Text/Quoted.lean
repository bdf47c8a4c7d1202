import AnnotationGraft.Text.Unprintable

/-!
# Quoted texts and characters

The form in which a message shows a text that came from a file.  A text stands between double
quotes, a character between single ones.  The quotation mark in use, the backslash, and the named
controls are written with a backslash; every other unprintable character is written by its number.
-/

namespace AnnotationGraft.Text

/-- The number of a character in lower-case hexadecimal digits, without leading zeros. -/
def hexDigits (n : Nat) : List Char := Nat.toDigits 16 n

/-- One character inside quotation marks `mark`. -/
def escape (mark c : Char) : List Char :=
  if c = mark then ['\\', c]
  else if c = '\\' then ['\\', '\\']
  else if c.toNat = 0 then ['\\', '0']
  else if c = '\t' then ['\\', 't']
  else if c = '\n' then ['\\', 'n']
  else if c = '\r' then ['\\', 'r']
  else if isUnprintable c then ['\\', 'u', '\x7b'] ++ hexDigits c.toNat ++ ['\x7d']
  else [c]

/-- A text between double quotes. -/
def quoted (s : String) : String :=
  String.ofList ('\"' :: s.toList.flatMap (escape '\"') ++ ['\"'])

/-- A character between single quotes. -/
def quotedChar (c : Char) : String :=
  String.ofList ('\'' :: escape '\'' c ++ ['\''])

end AnnotationGraft.Text
