/-!
# Floating-point values in positional notation

A finite binary value is written with the fewest decimal digits that still identify it, never with
an exponent and without a fraction when it is whole.

A value is `m * 2 ^ q`.  The decimals that identify it are those that lie in its rounding interval,
which reaches half way to each neighbour and holds its end points exactly when `m` is even.  The
search tries the value's two neighbours on the grid of one significant digit, then of two, and so
on; the first grid with a neighbour in the interval gives the digits.  Of two such neighbours the
nearer one is taken, and of two equally near ones the upper.
-/

namespace AnnotationGraft.PositionalDecimal

/-- A binary interchange format: the widths of its exponent and fraction fields, and a count of
significant decimal digits that identifies every value of the format. -/
structure Format where
  exponentBits : Nat
  fractionBits : Nat
  maxDigits : Nat

/-- The 32-bit format. -/
def single : Format := ⟨8, 23, 9⟩

/-- The 64-bit format. -/
def double : Format := ⟨11, 52, 17⟩

/-- A positive value with its rounding interval, all as numerators over one denominator. -/
structure Interval where
  low : Nat
  value : Nat
  high : Nat
  denominator : Nat
  /-- Whether the end points round to the value. -/
  closed : Bool

/-- The interval of a value whose fraction field is `fraction` and whose exponent field, which is
not the one of infinities, is `exponent`. -/
def Format.interval (f : Format) (exponent fraction : Nat) : Interval :=
  let significand := if exponent = 0 then fraction else fraction + Nat.pow 2 f.fractionBits
  -- the neighbour below a power of two is twice as near, except at the smallest exponent
  let below := if fraction = 0 ∧ 1 < exponent then 1 else 2
  -- quarters of the unit in the last place have the exponent `max exponent 1 - shift`
  let shift := Nat.pow 2 (f.exponentBits - 1) + 1 + f.fractionBits
  let numerator := Nat.pow 2 (max exponent 1 - shift)
  { low := (4 * significand - below) * numerator
    value := 4 * significand * numerator
    high := (4 * significand + 2) * numerator
    denominator := Nat.pow 2 (shift - max exponent 1)
    closed := significand % 2 = 0 }

/-- Whether `point / scale` lies in the interval. -/
def Interval.holds (i : Interval) (point scale : Nat) : Bool :=
  if i.closed then i.low * scale ≤ point * i.denominator && point * i.denominator ≤ i.high * scale
  else i.low * scale < point * i.denominator && point * i.denominator < i.high * scale

/-- The number of decimal digits of a number. -/
def digitCount (n : Nat) : Nat := (Nat.toDigits 10 n).length

/-- The exponent `e` with `10 ^ (e - 1) ≤ value < 10 ^ e`. -/
def Interval.magnitude (i : Interval) : Int :=
  if i.denominator ≤ i.value then digitCount (i.value / i.denominator)
  else 1 - digitCount ((i.denominator - 1) / i.value)

/-- The point of the grid of multiples of `10 ^ k` that stands for the value, if one does. -/
def Interval.onGrid (i : Interval) (k : Int) : Option Nat :=
  let up := Nat.pow 10 k.toNat
  let scale := Nat.pow 10 (-k).toNat
  let unit := i.denominator * up
  let lower := i.value * scale / unit
  let rest := i.value * scale % unit
  match i.holds (lower * up) scale, i.holds ((lower + 1) * up) scale with
  | true, true => some (if unit ≤ 2 * rest then lower + 1 else lower)
  | true, false => some lower
  | false, true => some (lower + 1)
  | false, false => none

/-- Tries the grids of `digits - remaining + 1` significant digits, of one more, and so on.  The
grid of `digits` of them always has a point, so that the answer for none remaining is not used. -/
def Interval.search (i : Interval) (digits : Nat) : Nat → Nat × Int
  | 0 => (0, 0)
  | remaining + 1 =>
    let k := i.magnitude - (digits - remaining : Nat)
    match i.onGrid k with
    | some d => (d, k)
    | none => i.search digits remaining

/-- The text of `d * 10 ^ k`. -/
def positional (d : Nat) (k : Int) : List Char :=
  let digits := Nat.toDigits 10 d
  if 0 ≤ k then digits ++ List.replicate k.toNat '0'
  else
    let places := (-k).toNat
    let padded := List.replicate (places + 1 - digits.length) '0' ++ digits
    let whole := padded.take (padded.length - places)
    let fraction := ((padded.drop (padded.length - places)).reverse.dropWhile (· == '0')).reverse
    if fraction.isEmpty then whole else whole ++ '.' :: fraction

/-- The text of a finite value that is not zero and has no sign. -/
def Format.magnitudeText (f : Format) (exponent fraction : Nat) : List Char :=
  let found := (f.interval exponent fraction).search f.maxDigits f.maxDigits
  positional found.1 found.2

/-- The text of a value given by its bits. -/
def Format.text (f : Format) (bits : Nat) : String :=
  let fraction := bits % Nat.pow 2 f.fractionBits
  let exponent := bits / Nat.pow 2 f.fractionBits % Nat.pow 2 f.exponentBits
  let negative := bits / Nat.pow 2 (f.fractionBits + f.exponentBits) % 2 = 1
  let largest := Nat.pow 2 f.exponentBits - 1
  if exponent = largest ∧ fraction ≠ 0 then "NaN"
  else
    let magnitude :=
      if exponent = largest then ['i', 'n', 'f']
      else if exponent = 0 ∧ fraction = 0 then ['0']
      else f.magnitudeText exponent fraction
    String.ofList (if negative then '-' :: magnitude else magnitude)

end AnnotationGraft.PositionalDecimal
