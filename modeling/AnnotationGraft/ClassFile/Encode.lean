import AnnotationGraft.Annotations.Wire
import AnnotationGraft.ClassFile.Basic
import AnnotationGraft.ConstantPool.Segment

/-!
# Writing class files

`ClassFile.encode` writes a class.  What follows the pool is written first, against a pool that
grows by the constants it needs; entries that were there keep their indices, so attributes that are
kept as they are stay valid.

The annotations of a retention are written where their slot is.  Without a slot they follow the
other attributes, and without annotations nothing is written for the slot.
-/

namespace AnnotationGraft

/-- An attribute before it is written: the index of its name, and its body. -/
structure WrittenAttribute where
  name : UInt16
  info : Bytes

namespace Interning

/-- The attribute of the annotations of a retention, if there are any. -/
def annotationAttribute (set : AnnotationSet) (r : Retention) :
    Interning (Option WrittenAttribute) := do
  match set.withRetention r with
  | [] => return none
  | selected => do
    let name ← utf8 r.attributeName
    let size ← count .annotations selected.length
    let bodies ← selected.mapM annotationUse
    return some ⟨name, size ++ bodies.flatten⟩

/-- The attribute of a slot, if there is one. -/
def slotAttribute (set : AnnotationSet) : AttributeSlot → Interning (Option WrittenAttribute)
  | .annotations r => annotationAttribute set r
  | .verbatim name info => return some ⟨← utf8 name, info⟩

/-- The retentions that have no slot. -/
def withoutSlot (slots : List AttributeSlot) : List Retention :=
  [.visible, .invisible].filter fun r => AttributeSlot.annotations r ∉ slots

/-- An attribute as written. -/
def attributeBytes (a : WrittenAttribute) : Except EncodeError Bytes :=
  if a.info.length < 0x100000000 then
    .ok (BigEndian.ofUInt16 a.name ++ BigEndian.ofUInt32 (UInt32.ofNat a.info.length) ++ a.info)
  else .error (.attributeTooLarge a.name a.info.length)

/-- An attribute table as written. -/
def attributes (table : AttributeTable) : Interning Bytes := do
  let placed ← table.slots.mapM (slotAttribute table.annotations)
  let added ← (withoutSlot table.slots).mapM (annotationAttribute table.annotations)
  let written := placed.filterMap id ++ added.filterMap id
  let size ← count .attributes written.length
  let bodies ← MonadExcept.ofExcept (written.mapM attributeBytes)
  return size ++ bodies.flatten

/-- A member as written. -/
def member (m : Member) : Interning Bytes := do
  let name ← reference (utf8 m.id.name)
  let descriptor ← reference (utf8 m.id.descriptor)
  let attributes ← attributes m.attributes
  return BigEndian.ofUInt16 m.accessFlags ++ name ++ descriptor ++ attributes

/-- A table of members as written. -/
def members (kind : TableKind) (ms : List Member) : Interning Bytes := do
  let size ← count kind ms.length
  let bodies ← ms.mapM member
  return size ++ bodies.flatten

/-- The name of the superclass as written; index 0 stands for none. -/
def superName : Option String → Interning Bytes
  | none => return BigEndian.ofUInt16 0
  | some name => reference (className name)

/-- What follows the pool, as written. -/
def classBody (c : ClassFile) : Interning Bytes := do
  let name ← reference (className c.name.internal)
  let superName ← superName c.superName
  let interfaceCount ← count .interfaces c.interfaces.length
  let interfaces ← c.interfaces.mapM fun i => reference (className i)
  let fields ← members .fields (c.membersOfKind .field)
  let methods ← members .methods (c.membersOfKind .method)
  let attributes ← attributes c.attributes
  return BigEndian.ofUInt16 c.accessFlags ++ name ++ superName ++ interfaceCount
    ++ interfaces.flatten ++ fields ++ methods ++ attributes

end Interning

namespace ClassFile

/-- What begins a class file, up to the pool. -/
def headerBytes (version : ClassVersion) : Bytes :=
  BigEndian.ofUInt32 classFileMagic ++ BigEndian.ofUInt16 version.minor
    ++ BigEndian.ofUInt16 version.major

/-- A class file with the content of the class. -/
def encode (c : ClassFile) : Except EncodeError Bytes :=
  match (Interning.classBody c).run c.pool with
  | .error e _ => .error e
  | .ok body pool => do
    let segment ← pool.segment
    return headerBytes c.version ++ segment ++ body

end ClassFile

end AnnotationGraft
