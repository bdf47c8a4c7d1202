import AnnotationGraft.ClassFile.DecodeError

/-!
# Scanning bytes

A `Scan` reads a value from the front of its input and leaves the rest.  The input knows its offset
in the file, for the report of an input that ends too early; a step that needs more bytes than there
are fails with the offset at which it began and the number of bytes it needed.
-/

namespace AnnotationGraft

/-- What is left of an input, and where in the file it begins. -/
structure Input where
  rest : Bytes
  offset : Nat
  deriving DecidableEq, Repr

/-- A step that reads a value from the front of its input. -/
abbrev Scan (α : Type) := StateT Input (Except DecodeError) α

namespace Scan

/-- Reads a byte. -/
def byte : Scan UInt8 := fun input =>
  match input.rest with
  | b0 :: rest => .ok (b0, ⟨rest, input.offset + 1⟩)
  | _ => .error (.truncated input.offset 1)

/-- Reads a word of two bytes. -/
def word16 : Scan UInt16 := fun input =>
  match input.rest with
  | b1 :: b0 :: rest => .ok (BigEndian.toUInt16 b1 b0, ⟨rest, input.offset + 2⟩)
  | _ => .error (.truncated input.offset 2)

/-- Reads a word of four bytes. -/
def word32 : Scan UInt32 := fun input =>
  match input.rest with
  | b3 :: b2 :: b1 :: b0 :: rest =>
    .ok (BigEndian.toUInt32 b3 b2 b1 b0, ⟨rest, input.offset + 4⟩)
  | _ => .error (.truncated input.offset 4)

/-- Reads a word of eight bytes. -/
def word64 : Scan UInt64 := fun input =>
  match input.rest with
  | b7 :: b6 :: b5 :: b4 :: b3 :: b2 :: b1 :: b0 :: rest =>
    .ok (BigEndian.toUInt64 b7 b6 b5 b4 b3 b2 b1 b0, ⟨rest, input.offset + 8⟩)
  | _ => .error (.truncated input.offset 8)

/-- Reads a given number of bytes. -/
def bytes (count : Nat) : Scan Bytes := fun input =>
  let found := input.rest.take count
  if found.length = count then .ok (found, ⟨input.rest.drop count, input.offset + count⟩)
  else .error (.truncated input.offset count)

/-- The offset at which the next step will begin. -/
def offset : Scan Nat := fun input => .ok (input.offset, input)

/-- Reads a given number of items. -/
def times {α : Type} (count : Nat) (item : Scan α) : Scan (List α) :=
  (List.replicate count ()).mapM fun _ => item

/-- Reads a table: a count of two bytes, then that many items. -/
def table {α : Type} (item : Scan α) : Scan (List α) := do
  let count ← word16
  times count.toNat item

/-- Lets a step read `body` alone, as if it began at `start`, and tells how many bytes of it the
step left. -/
def within {α : Type} (body : Bytes) (start : Nat) (step : Scan α) : Scan (α × Nat) := fun input =>
  match step ⟨body, start⟩ with
  | .ok (a, inner) => .ok ((a, inner.rest.length), input)
  | .error e => .error e

@[simp] theorem byte_run_cons (b : UInt8) (rest : Bytes) (n : Nat) :
    byte ⟨b :: rest, n⟩ = .ok (b, ⟨rest, n + 1⟩) := rfl

/-- A word is read from its bytes. -/
@[simp] theorem word16_run_append (w : UInt16) (rest : Bytes) (n : Nat) :
    word16 ⟨BigEndian.ofUInt16 w ++ rest, n⟩ = .ok (w, ⟨rest, n + 2⟩) := by
  simp only [word16, BigEndian.ofUInt16, List.cons_append, List.nil_append,
    BigEndian.toUInt16_bytes]

/-- A word is read from its bytes. -/
@[simp] theorem word32_run_append (w : UInt32) (rest : Bytes) (n : Nat) :
    word32 ⟨BigEndian.ofUInt32 w ++ rest, n⟩ = .ok (w, ⟨rest, n + 4⟩) := by
  simp only [word32, BigEndian.ofUInt32, List.cons_append, List.nil_append,
    BigEndian.toUInt32_bytes]

/-- A word is read from its bytes. -/
@[simp] theorem word64_run_append (w : UInt64) (rest : Bytes) (n : Nat) :
    word64 ⟨BigEndian.ofUInt64 w ++ rest, n⟩ = .ok (w, ⟨rest, n + 8⟩) := by
  simp only [word64, BigEndian.ofUInt64, List.cons_append, List.nil_append,
    BigEndian.toUInt64_bytes]

/-- As many bytes as a text has are that text. -/
@[simp] theorem bytes_run_append (text rest : Bytes) (n : Nat) :
    bytes text.length ⟨text ++ rest, n⟩ = .ok (text, ⟨rest, n + text.length⟩) := by
  simp [bytes]

end Scan

end AnnotationGraft
