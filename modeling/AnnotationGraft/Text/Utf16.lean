/-!
# UTF-16 code units

A character below U+10000 is one 16-bit unit; a supplementary character is a pair of surrogates, the
high one first.  `decode` undoes `encode` and refuses surrogates that stand alone.
-/

namespace AnnotationGraft.Utf16

/-- Whether the unit opens a surrogate pair. -/
def isHighSurrogate (u : UInt16) : Bool := 0xD800 ≤ u.toNat && u.toNat < 0xDC00

/-- Whether the unit closes a surrogate pair. -/
def isLowSurrogate (u : UInt16) : Bool := 0xDC00 ≤ u.toNat && u.toNat < 0xE000

/-- The units of one character. -/
def ofChar (c : Char) : List UInt16 :=
  if c.toNat < 0x10000 then [UInt16.ofNat c.toNat]
  else [UInt16.ofNat (0xD800 + (c.toNat - 0x10000) / 0x400),
    UInt16.ofNat (0xDC00 + (c.toNat - 0x10000) % 0x400)]

/-- The units of a text. -/
def encode (s : List Char) : List UInt16 := s.flatMap ofChar

/-- The character of a surrogate pair. -/
def ofPair (high low : UInt16) : Char :=
  Char.ofNat (0x10000 + (high.toNat - 0xD800) * 0x400 + (low.toNat - 0xDC00))

/-- Reads the units that follow the characters already read, the latest of which comes first. -/
def decodeOnto (done : List Char) : List UInt16 → Option (List Char)
  | [] => some done.reverse
  | u :: rest =>
    if isHighSurrogate u then
      match rest with
      | v :: rest => if isLowSurrogate v then decodeOnto (ofPair u v :: done) rest else none
      | [] => none
    else if isLowSurrogate u then none
    else decodeOnto (Char.ofNat u.toNat :: done) rest

/-- The text of a sequence of units, if every surrogate in it is paired. -/
def decode (units : List UInt16) : Option (List Char) := decodeOnto [] units

end AnnotationGraft.Utf16
