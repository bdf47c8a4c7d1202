import AnnotationGraft.ConstantPool.Interning

/-!
# The pool's part of a class file

The pool is written as the number of its slots and then its entries, each after its tag; empty slots
are not written.  `ConstantPool.scan` reads that form and `ConstantPool.segment` writes it.
-/

namespace AnnotationGraft

namespace Constant

/-- Reads what follows the tag of an entry. -/
def scanBody : ConstantKind → Scan Constant
  | .utf8 => do
    let size ← Scan.word16
    return .utf8 (← Scan.bytes size.toNat)
  | .integer => do return .integer (← Scan.word32).toInt32
  | .float => do return .float (← Scan.word32)
  | .long => do return .long (← Scan.word64).toInt64
  | .double => do return .double (← Scan.word64)
  | .classInfo => do return .classInfo (← Scan.word16)
  | .string => do return .string (← Scan.word16)
  | .fieldRef => do return .fieldRef (← Scan.word16) (← Scan.word16)
  | .methodRef => do return .methodRef (← Scan.word16) (← Scan.word16)
  | .interfaceMethodRef => do return .interfaceMethodRef (← Scan.word16) (← Scan.word16)
  | .nameAndType => do return .nameAndType (← Scan.word16) (← Scan.word16)
  | .methodHandle => do return .methodHandle (← Scan.byte) (← Scan.word16)
  | .methodType => do return .methodType (← Scan.word16)
  | .dynamic => do return .dynamic (← Scan.word16) (← Scan.word16)
  | .invokeDynamic => do return .invokeDynamic (← Scan.word16) (← Scan.word16)
  | .moduleInfo => do return .moduleInfo (← Scan.word16)
  | .packageInfo => do return .packageInfo (← Scan.word16)

/-- Reads an entry, of which `index` will be the index. -/
def scan (index : UInt16) : Scan Constant := do
  let tag ← Scan.byte
  match ConstantKind.ofTag? tag with
  | some kind => scanBody kind
  | none => throw (.invalidConstantTag index tag)

/-- What follows the tag of an entry, for an entry that fits. -/
def body : Constant → Bytes
  | utf8 bytes => BigEndian.ofUInt16 (UInt16.ofNat bytes.length) ++ bytes
  | integer value => BigEndian.ofUInt32 value.toUInt32
  | float bits => BigEndian.ofUInt32 bits
  | long value => BigEndian.ofUInt64 value.toUInt64
  | double bits => BigEndian.ofUInt64 bits
  | classInfo i | string i | methodType i | moduleInfo i | packageInfo i => BigEndian.ofUInt16 i
  | fieldRef i j | methodRef i j | interfaceMethodRef i j | nameAndType i j
  | dynamic i j | invokeDynamic i j => BigEndian.ofUInt16 i ++ BigEndian.ofUInt16 j
  | methodHandle referenceKind i => referenceKind :: BigEndian.ofUInt16 i

/-- An entry as written, after its tag.  Only the length of a string may fail to fit. -/
def segment (c : Constant) : Except EncodeError Bytes :=
  match c with
  | utf8 bytes =>
    if maxWord < bytes.length then .error (.stringTooLong bytes.length) else .ok (c.tag :: c.body)
  | _ => .ok (c.tag :: c.body)

end Constant

namespace ConstantPool

/-- Reads entries until `remaining` further slots are filled. -/
def scanSlots : Nat → ConstantPool → Scan ConstantPool
  | 0, pool => pure pool
  | 1, pool => do
    let index := UInt16.ofNat pool.size
    let c ← Constant.scan index
    if c.isWide then throw (.invalidConstant index .wideInLastSlot) else pure (pool.push c)
  | remaining + 2, pool => do
    let c ← Constant.scan (UInt16.ofNat pool.size)
    if c.isWide then scanSlots remaining (pool.push c) else scanSlots (remaining + 1) (pool.push c)

/-- Reads a pool.  A count of zero is taken as one, since slot 0 is always there. -/
def scan : Scan ConstantPool := do
  let count ← Scan.word16
  scanSlots (count.toNat - 1) empty

/-- The pool as written. -/
def segment (pool : ConstantPool) : Except EncodeError Bytes := do
  let count ← Interning.tableCount .constantPool pool.size
  let entries ← pool.entries.mapM fun entry => entry.2.segment
  return BigEndian.ofUInt16 count ++ entries.flatten

end ConstantPool

end AnnotationGraft
