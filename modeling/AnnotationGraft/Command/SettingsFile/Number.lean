import AnnotationGraft.Command.SettingsFile.Text
import AnnotationGraft.Text.Segments

/-!
# The numbers of a settings file

A number is whole, in one of four bases, or has a point or an exponent.  Single underscores may
stand between its digits.  Settings need no number, so that only its form is checked, and that it
can be held in 64 bits.
-/

namespace AnnotationGraft.SettingsFile

/-- Whether a text is made of digits of a kind; single underscores may stand between them. -/
def isDigits (isDigit : Char → Bool) (cs : List Char) : Bool :=
  (Text.segments '_' cs).all fun group => !group.isEmpty && group.all isDigit

/-- The number that digits are in a base, without their underscores. -/
def digitsValue (base : Nat) (cs : List Char) : Nat :=
  ((cs.filter (· != '_')).filterMap hexDigitValue?).foldl (fun n d => base * n + d) 0

/-- A text without the sign that it may begin with, and whether that is a minus. -/
def splitSign : List Char → Bool × List Char
  | '-' :: cs => (true, cs)
  | '+' :: cs => (false, cs)
  | cs => (false, cs)

/-- Whether a text is a whole number in decimal digits without a sign.  It has no leading zeros. -/
def isDecimal (cs : List Char) : Bool :=
  isDigits Char.isDigit cs && (cs.length ≤ 1 || cs.head? != some '0')

/-- Whether a whole number can be held in 64 bits with a sign. -/
def fits64 (negative : Bool) (n : Nat) : Bool :=
  n < 0x8000000000000000 || (negative && n == 0x8000000000000000)

/-- Whether a text is a whole number. -/
def isWhole : List Char → Bool
  | '0' :: 'x' :: cs => isDigits (fun c => (hexDigitValue? c).isSome) cs
      && fits64 false (digitsValue 16 cs)
  | '0' :: 'o' :: cs => isDigits (fun c => '0' ≤ c && c ≤ '7') cs && fits64 false (digitsValue 8 cs)
  | '0' :: 'b' :: cs => isDigits (fun c => c == '0' || c == '1') cs
      && fits64 false (digitsValue 2 cs)
  | cs =>
    let (negative, digits) := splitSign cs
    isDecimal digits && fits64 negative (digitsValue 10 digits)

/-- The least number that is too large to be rounded to a finite value of 64 bits: it lies half a
step above the greatest one. -/
def overflowBound : Nat := Nat.pow 2 1024 - Nat.pow 2 970

/-- Numbers below ten to the power of 308 are less than `overflowBound`, and those from ten to the
power of 309 on are more. -/
def overflowMagnitude : Int := 309

/-- Whether the number with the given digits, times a power of ten, is `overflowBound` or more.
Only a number of the same magnitude has to be compared with it. -/
def overflows (digits : List Char) (exponent : Int) : Bool :=
  let digits := (digits.filter (· != '_')).dropWhile (· == '0')
  let magnitude := digits.length + exponent
  if digits.isEmpty || magnitude < overflowMagnitude then false
  else if overflowMagnitude < magnitude then true
  else overflowBound * Nat.pow 10 (-exponent).toNat
    ≤ digitsValue 10 digits * Nat.pow 10 exponent.toNat

/-- A whole number with a sign. -/
def signedValue (cs : List Char) : Int :=
  let (negative, digits) := splitSign cs
  if negative then -(digitsValue 10 digits : Int) else digitsValue 10 digits

/-- Whether a text is a number with a point or an exponent, or names infinity or no number.  A
positive number may not be too large for 64 bits. -/
def isFractional (cs : List Char) : Bool :=
  let (negative, cs) := splitSign cs
  if cs = ['i', 'n', 'f'] ∨ cs = ['n', 'a', 'n'] then true
  else
    let mantissa := cs.takeWhile fun c => c != 'e' && c != 'E'
    let whole := mantissa.takeWhile (· != '.')
    let point := mantissa.drop whole.length
    let mark := cs.drop mantissa.length
    let fraction := point.drop 1
    let exponent := mark.drop 1
    isDecimal whole
      && (point.isEmpty || isDigits Char.isDigit fraction)
      && (mark.isEmpty || isDigits Char.isDigit (splitSign exponent).2)
      && !(point.isEmpty && mark.isEmpty)
      && (negative || !overflows (whole ++ fraction)
        (signedValue exponent - (fraction.filter (· != '_')).length))

end AnnotationGraft.SettingsFile
