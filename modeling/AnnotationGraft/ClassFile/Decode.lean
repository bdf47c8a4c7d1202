import AnnotationGraft.Annotations.Wire
import AnnotationGraft.ClassFile.Basic
import AnnotationGraft.ConstantPool.References
import AnnotationGraft.ConstantPool.Segment

/-!
# Reading class files

`ClassFile.decode` reads a whole class file.  The pool and its references, the class's own name,
every descriptor and the annotations are checked as they are read, and the first thing that is wrong
is reported.

The first attribute of an annotation attribute's name becomes a part of the annotation set.  A later
one of the same name in the same table is kept as it is.
-/

namespace AnnotationGraft

namespace Scan

/-- An attribute table in the course of being read: the annotations so far, and the slots so far
with the latest first. -/
structure PartialTable where
  annotations : AnnotationSet
  slotsReversed : List AttributeSlot

/-- Reads one attribute more of a table. -/
def attributeInto (pool : ConstantPool) (done : PartialTable) : Scan PartialTable := do
  let name ← lookup pool.utf8
  let size ← word32
  let start ← offset
  let info ← bytes size.toNat
  match Retention.ofAttributeName? name with
  | none => return ⟨done.annotations, .verbatim name info :: done.slotsReversed⟩
  | some r =>
    if AttributeSlot.annotations r ∈ done.slotsReversed then
      return ⟨done.annotations, .verbatim name info :: done.slotsReversed⟩
    else
      let (set, unread) ← within info start (annotationsInto pool r done.annotations)
      if unread = 0 then return ⟨set, .annotations r :: done.slotsReversed⟩
      else throw (.attributeLength name size.toNat (size.toNat - unread))

/-- Reads an attribute table. -/
def attributes (pool : ConstantPool) : Scan AttributeTable := do
  let count ← word16
  let done ← (List.replicate count.toNat ()).foldlM (fun done _ => attributeInto pool done)
    (⟨.empty, []⟩ : PartialTable)
  return ⟨done.annotations, done.slotsReversed.reverse⟩

/-- Which texts describe the type of a member. -/
def isMemberDescriptor : MemberKind → String → Bool
  | .field => Descriptor.isFieldType
  | .method => Descriptor.isMethodType

/-- Reads a member of one kind. -/
def member (pool : ConstantPool) (kind : MemberKind) : Scan Member := do
  let accessFlags ← word16
  let name ← lookup pool.utf8
  let d ← descriptor pool (isMemberDescriptor kind)
  if name.isEmpty then throw (.unnamedMember kind)
  let attributes ← attributes pool
  return ⟨⟨kind, name, d⟩, accessFlags, attributes⟩

/-- Reads the name of the superclass; index 0 stands for none. -/
def superName (pool : ConstantPool) : Scan (Option String) := do
  let index ← word16
  if index = 0 then return none
  else return some (← MonadExcept.ofExcept (pool.className index))

/-- Reads what begins every class file, up to the pool. -/
def header : Scan ClassVersion := do
  let magic ← word32
  if magic ≠ classFileMagic then throw (.badMagic magic)
  let minor ← word16
  let major ← word16
  let version : ClassVersion := ⟨major, minor⟩
  if !version.isSupported then throw (.unsupportedVersion major minor)
  return version

/-- Reads what follows the pool. -/
def classBody (version : ClassVersion) (pool : ConstantPool) : Scan ClassFile := do
  let accessFlags ← word16
  let name ← lookup pool.className
  MonadExcept.ofExcept (requireDescriptor Descriptor.isClassName name)
  let superName ← superName pool
  let interfaces ← table (lookup pool.className)
  let fields ← table (member pool .field)
  let methods ← table (member pool .method)
  let attributes ← attributes pool
  return ⟨version, pool, accessFlags, ⟨name⟩, superName, interfaces, fields ++ methods, attributes⟩

/-- Reads a class file from the front of the input. -/
def classFile : Scan ClassFile := do
  let version ← header
  let pool ← ConstantPool.scan
  MonadExcept.ofExcept pool.checkReferences
  classBody version pool

end Scan

/-- Reads a class file that takes all the bytes. -/
def ClassFile.decode (bytes : Bytes) : Except DecodeError ClassFile := do
  let (c, input) ← Scan.classFile ⟨bytes, 0⟩
  if input.rest.isEmpty then return c
  else throw (.trailingBytes input.rest.length)

end AnnotationGraft
