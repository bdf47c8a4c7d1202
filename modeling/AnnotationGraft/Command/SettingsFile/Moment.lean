import AnnotationGraft.Command.SettingsFile.Text

/-!
# The dates and times of a settings file

A moment is a date, a time of day, or both with `T` or a space between them; in the last case the
distance from universal time may follow.  Settings need no moment, so that only its form is read:
each scanner gives what follows it.
-/

namespace AnnotationGraft.SettingsFile

/-- The number that two digits at the beginning are, if it is in the given range, and what follows
them. -/
def twoDigits (least greatest : Nat) : List Char → Option (Nat × List Char)
  | a :: b :: rest =>
    if a.isDigit && b.isDigit then
      let n := 10 * (a.toNat - '0'.toNat) + (b.toNat - '0'.toNat)
      if least ≤ n && n ≤ greatest then some (n, rest) else none
    else none
  | _ => none

/-- What follows the given character at the beginning. -/
def after (mark : Char) : List Char → Option (List Char)
  | c :: rest => if c = mark then some rest else none
  | [] => none

/-- Whether a year has a leap day. -/
def isLeapYear (year : Nat) : Bool := year % 4 == 0 && (year % 100 != 0 || year % 400 == 0)

/-- How many days a month of a year has. -/
def daysOfMonth (year month : Nat) : Nat :=
  if month = 2 then if isLeapYear year then 29 else 28
  else if month = 4 ∨ month = 6 ∨ month = 9 ∨ month = 11 then 30
  else 31

/-- What follows the date at the beginning, a day that the calendar has. -/
def afterDate (cs : List Char) : Option (List Char) := do
  let (century, rest) ← twoDigits 0 99 cs
  let (yearOfCentury, rest) ← twoDigits 0 99 rest
  let (month, rest) ← twoDigits 1 12 (← after '-' rest)
  let (_, rest) ← twoDigits 1 (daysOfMonth (100 * century + yearOfCentury) month) (← after '-' rest)
  return rest

/-- What follows the time of day at the beginning.  Seconds may have decimal places, and a minute
may have a leap second. -/
def afterTime (cs : List Char) : Option (List Char) := do
  let (_, rest) ← twoDigits 0 23 cs
  let (_, rest) ← twoDigits 0 59 (← after ':' rest)
  let (_, rest) ← twoDigits 0 60 (← after ':' rest)
  match rest with
  | '.' :: d :: places =>
    if d.isDigit then return places.dropWhile Char.isDigit else return rest
  | _ => return rest

/-- What follows the distance from universal time at the beginning. -/
def afterOffset : List Char → Option (List Char)
  | c :: rest =>
    if c = 'Z' ∨ c = 'z' then some rest
    else if c = '+' ∨ c = '-' then do
      let (_, rest) ← twoDigits 0 23 rest
      let (_, rest) ← twoDigits 0 59 (← after ':' rest)
      return rest
    else none
  | [] => none

/-- What follows the time of day after a date, if there is one. -/
def afterTimeOfDate : List Char → Option (List Char)
  | c :: rest =>
    if c = 'T' ∨ c = 't' ∨ c = ' ' then do
      let rest ← afterTime rest
      return (afterOffset rest).getD rest
    else none
  | [] => none

/-- What follows the moment at the beginning. -/
def afterMoment (cs : List Char) : Option (List Char) :=
  match afterDate cs with
  | some rest => some ((afterTimeOfDate rest).getD rest)
  | none => afterTime cs

end AnnotationGraft.SettingsFile
