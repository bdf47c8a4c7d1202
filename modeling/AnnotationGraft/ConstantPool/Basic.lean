import AnnotationGraft.Bytes.Scan
import AnnotationGraft.Text.ModifiedUtf8

/-!
# The constant pool

The pool is a row of slots.  Slot 0 is never used; a long or double entry takes two slots, of which
the second stays empty.  Entries are never moved or removed, so that an index, once given out, keeps
its meaning.

The look-ups `get`, `utf8`, `className` and their like say why an index cannot be used.
-/

namespace AnnotationGraft

/-- The slots of a constant pool, with the empty ones. -/
structure ConstantPool where
  slots : Array (Option Constant)
  deriving DecidableEq, Repr

namespace ConstantPool

/-- A pool without entries. -/
def empty : ConstantPool := ⟨#[none]⟩

instance : Inhabited ConstantPool := ⟨empty⟩

/-- The number of slots, slot 0 and other empty ones included. -/
def size (pool : ConstantPool) : Nat := pool.slots.size

/-- Adds an entry at the end, with the empty slot that follows a wide one. -/
def push (pool : ConstantPool) (c : Constant) : ConstantPool :=
  if c.isWide then ⟨(pool.slots.push (some c)).push none⟩ else ⟨pool.slots.push (some c)⟩

/-- The entries with their indices, in order. -/
def entries (pool : ConstantPool) : List (UInt16 × Constant) :=
  pool.slots.toList.zipIdx.filterMap fun (slot, i) => slot.map fun c => (UInt16.ofNat i, c)

/-- The entry at an index, if there is one. -/
def get? (pool : ConstantPool) (index : UInt16) : Option Constant :=
  (pool.slots[index.toNat]?).join

/-- The entry at an index. -/
def get (pool : ConstantPool) (index : UInt16) : Except DecodeError Constant :=
  match pool.get? index with
  | some c => .ok c
  | none => .error (.invalidConstant index .unusable)

/-- The report of an entry of another kind than the one wanted. -/
def mistyped (index : UInt16) (wanted : ConstantKind) (found : Constant) : DecodeError :=
  .invalidConstant index (.mistyped wanted found.kind)

/-- The bytes of a string entry. -/
def utf8Bytes (pool : ConstantPool) (index : UInt16) : Except DecodeError Bytes := do
  match ← pool.get index with
  | .utf8 bytes => .ok bytes
  | other => .error (mistyped index .utf8 other)

/-- The text of a string entry. -/
def utf8 (pool : ConstantPool) (index : UInt16) : Except DecodeError String := do
  match ModifiedUtf8.decode (← pool.utf8Bytes index) with
  | some s => .ok s
  | none => .error (.invalidUtf8 index)

/-- The internal name that a class entry refers to. -/
def className (pool : ConstantPool) (index : UInt16) : Except DecodeError String := do
  match ← pool.get index with
  | .classInfo name => pool.utf8 name
  | other => .error (mistyped index .classInfo other)

/-- The value of an integer entry. -/
def integer (pool : ConstantPool) (index : UInt16) : Except DecodeError Int32 := do
  match ← pool.get index with
  | .integer value => .ok value
  | other => .error (mistyped index .integer other)

/-- The value of a long entry. -/
def long (pool : ConstantPool) (index : UInt16) : Except DecodeError Int64 := do
  match ← pool.get index with
  | .long value => .ok value
  | other => .error (mistyped index .long other)

/-- The bits of a float entry. -/
def floatBits (pool : ConstantPool) (index : UInt16) : Except DecodeError UInt32 := do
  match ← pool.get index with
  | .float bits => .ok bits
  | other => .error (mistyped index .float other)

/-- The bits of a double entry. -/
def doubleBits (pool : ConstantPool) (index : UInt16) : Except DecodeError UInt64 := do
  match ← pool.get index with
  | .double bits => .ok bits
  | other => .error (mistyped index .double other)

@[simp] theorem size_empty : empty.size = 1 := rfl

@[simp] theorem size_push (pool : ConstantPool) (c : Constant) :
    (pool.push c).size = pool.size + c.width := by
  unfold push Constant.width size
  split <;> simp

/-- An entry just added stands at the index that was the size of the pool. -/
theorem slots_push (pool : ConstantPool) (c : Constant) :
    (pool.push c).slots.toList
      = pool.slots.toList ++ some c :: List.replicate (c.width - 1) none := by
  unfold push Constant.width
  split <;> simp

end ConstantPool

end AnnotationGraft
