import AnnotationGraft.Bytes.BigEndian
import AnnotationGraft.Text.Utf16

/-!
# Modified UTF-8

The text form of a class file's strings.  It writes the UTF-16 units of a text one by one, each in
one, two or three bytes, so a supplementary character takes six bytes; U+0000 takes two bytes, so
no written text holds a zero byte.

Reading is more liberal than writing: it accepts every group of the right form, whether or not a
shorter one exists for its unit.  Bytes that are all ASCII are taken as they are, without a look for
groups.
-/

namespace AnnotationGraft.ModifiedUtf8

/-- The bytes of one unit. -/
def unitBytes (u : UInt16) : Bytes :=
  if u.toNat = 0 ∨ (0x80 ≤ u.toNat ∧ u.toNat < 0x800) then
    [UInt8.ofNat (0xC0 + u.toNat / 0x40), UInt8.ofNat (0x80 + u.toNat % 0x40)]
  else if u.toNat < 0x80 then [UInt8.ofNat u.toNat]
  else
    [UInt8.ofNat (0xE0 + u.toNat / 0x1000), UInt8.ofNat (0x80 + u.toNat / 0x40 % 0x40),
      UInt8.ofNat (0x80 + u.toNat % 0x40)]

/-- The bytes of a text. -/
def encode (s : String) : Bytes := (Utf16.encode s.toList).flatMap unitBytes

/-- Whether a byte continues a group. -/
def isContinuation (b : UInt8) : Bool := 0x80 ≤ b.toNat && b.toNat < 0xC0

/-- The unit of a two-byte group. -/
def unitOfTwo (b1 b0 : UInt8) : UInt16 :=
  UInt16.ofNat (b1.toNat % 0x20 * 0x40 + b0.toNat % 0x40)

/-- The unit of a three-byte group. -/
def unitOfThree (b2 b1 b0 : UInt8) : UInt16 :=
  UInt16.ofNat (b2.toNat % 0x10 * 0x1000 + b1.toNat % 0x40 * 0x40 + b0.toNat % 0x40)

/-- Reads the groups that follow the units already read, the latest of which comes first. -/
def unitsOnto (done : List UInt16) : Bytes → Option (List UInt16)
  | [] => some done.reverse
  | b :: rest =>
    if b.toNat = 0 then none
    else if b.toNat < 0x80 then unitsOnto (b.toUInt16 :: done) rest
    else if 0xC0 ≤ b.toNat ∧ b.toNat < 0xE0 then
      match rest with
      | c :: rest =>
        if isContinuation c then unitsOnto (unitOfTwo b c :: done) rest else none
      | [] => none
    else if 0xE0 ≤ b.toNat ∧ b.toNat < 0xF0 then
      match rest with
      | c :: d :: rest =>
        if isContinuation c && isContinuation d then unitsOnto (unitOfThree b c d :: done) rest
        else none
      | _ => none
    else none

/-- The units of a byte sequence that splits into groups. -/
def units? (bytes : Bytes) : Option (List UInt16) := unitsOnto [] bytes

/-- The text of the groups of a byte sequence, if their surrogates are paired. -/
def decodeGroups (bytes : Bytes) : Option String :=
  (units? bytes).bind fun units => (Utf16.decode units).map String.ofList

/-- Whether every byte is a character of its own. -/
def isAscii (bytes : Bytes) : Bool := bytes.all fun b => b.toNat ≠ 0 && b.toNat < 0x80

/-- The text whose characters have the bytes as their numbers. -/
def asciiText (bytes : Bytes) : String := String.ofList (bytes.map fun b => Char.ofNat b.toNat)

/-- The text of a byte sequence, if it splits into groups whose surrogates are paired. -/
def decode (bytes : Bytes) : Option String :=
  if isAscii bytes then some (asciiText bytes) else decodeGroups bytes

end AnnotationGraft.ModifiedUtf8
