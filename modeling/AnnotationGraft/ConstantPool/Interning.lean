import AnnotationGraft.ClassFile.EncodeError
import AnnotationGraft.ConstantPool.Basic

/-!
# Interning

A class is written against a pool that grows: each constant it needs is looked up, and added at the
end when no slot holds an equal one.  `Interning` threads the pool through such a computation.  A
computation that gives up leaves the pool as it had become by then.
-/

namespace AnnotationGraft

/-- A computation that may add constants to a pool. -/
abbrev Interning (α : Type) := EStateM EncodeError ConstantPool α

/-- The most slots a pool may have, and the longest text a string entry may hold. -/
def maxWord : Nat := 65535

namespace ConstantPool

/-- The first slot that holds the constant. -/
def indexOf? (pool : ConstantPool) (c : Constant) : Option Nat :=
  pool.slots.findIdx? fun slot => slot == some c

end ConstantPool

namespace Interning

/-- The index of a constant: that of the first equal entry, or else of a new one at the end. -/
def constant (c : Constant) : Interning UInt16 := fun pool =>
  match pool.indexOf? c with
  | some i => .ok (UInt16.ofNat i) pool
  | none =>
    let needed := pool.size + c.width
    if maxWord < needed then .error (.constantPoolOverflow needed) pool
    else .ok (UInt16.ofNat pool.size) (pool.push c)

/-- The index of a text. -/
def utf8 (text : String) : Interning UInt16 :=
  let bytes := ModifiedUtf8.encode text
  if maxWord < bytes.length then throw (.stringTooLong bytes.length)
  else constant (.utf8 bytes)

/-- The index of a class name; its text is interned first. -/
def className (name : String) : Interning UInt16 := do
  let text ← utf8 name
  constant (.classInfo text)

/-- The count of a table, as the word that announces it. -/
def tableCount (table : TableKind) (count : Nat) : Except EncodeError UInt16 :=
  if count ≤ maxWord then .ok (UInt16.ofNat count) else .error (.tableTooLarge table count)

end Interning

end AnnotationGraft
