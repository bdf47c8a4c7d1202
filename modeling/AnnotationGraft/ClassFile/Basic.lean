import AnnotationGraft.Annotations.Set
import AnnotationGraft.ClassFile.MemberKind
import AnnotationGraft.ConstantPool.Basic
import AnnotationGraft.Descriptor.SourceForm

/-!
# Classes

A compiled class in memory.  Its annotations and those of its members are open to change; of every
other attribute only the name is known, and its body is kept as it is.

An attribute table remembers the order in which its attributes stand in the file.  The annotations
of one retention share one attribute, whose slot says where it stands.
-/

namespace AnnotationGraft

/-- The internal name of a class, such as `com/example/Foo`. -/
structure ClassName where
  internal : String
  deriving DecidableEq, Inhabited, Repr

namespace ClassName

/-- The name in source code, with dots between packages. -/
def sourceName (name : ClassName) : String :=
  String.ofList (Descriptor.dotted name.internal.toList)

/-- The path of the class file below the root of its class tree. -/
def filePath (name : ClassName) : String := name.internal ++ ".class"

end ClassName

/-- The word with which every class file begins. -/
def classFileMagic : UInt32 := 0xCAFEBABE

/-- The version of the format in which a class file is written. -/
structure ClassVersion where
  major : UInt16
  minor : UInt16
  deriving DecidableEq, Repr

/-- Whether classes of the version can be read: those of versions 45 to 69. -/
def ClassVersion.isSupported (version : ClassVersion) : Bool :=
  45 ≤ version.major.toNat && version.major.toNat ≤ 69

/-- What stands at one position of an attribute table. -/
inductive AttributeSlot where
  /-- The annotations of a retention. -/
  | annotations (retention : Retention)
  /-- An attribute that is kept as it is. -/
  | verbatim (name : String) (info : Bytes)
  deriving DecidableEq

namespace AttributeSlot

/-- The name of the attribute. -/
def name : AttributeSlot → String
  | annotations r => r.attributeName
  | verbatim name _ => name

/-- Whether the attribute is kept as it is. -/
def isVerbatim : AttributeSlot → Bool
  | annotations _ => false
  | verbatim _ _ => true

end AttributeSlot

/-- The attributes of a class or a member: its annotations, and the positions of its attributes. -/
structure AttributeTable where
  annotations : AnnotationSet
  slots : List AttributeSlot
  deriving DecidableEq, Inhabited

namespace AttributeTable

/-- The table without attributes. -/
def empty : AttributeTable := ⟨.empty, []⟩

/-- The attributes that are kept as they are, in order. -/
def verbatim (table : AttributeTable) : List AttributeSlot :=
  table.slots.filter AttributeSlot.isVerbatim

/-- The body of the first attribute with the name among those that are kept as they are. -/
def verbatimNamed? (table : AttributeTable) (name : String) : Option Bytes :=
  table.slots.findSome? fun
    | .verbatim n info => if n = name then some info else none
    | .annotations _ => none

end AttributeTable

/-- What tells the members of a class apart. -/
structure MemberId where
  kind : MemberKind
  name : String
  descriptor : String
  deriving DecidableEq, Repr

namespace MemberId

/-- The identity in words. -/
def text (id : MemberId) : String := id.kind.word ++ " " ++ id.name ++ id.descriptor

/-- The declaration that source code would have, without modifiers. -/
def signature (id : MemberId) : String :=
  match id.kind with
  | .field => Descriptor.fieldSignature id.name id.descriptor
  | .method => Descriptor.methodSignature id.name id.descriptor

end MemberId

/-- A field or a method. -/
structure Member where
  id : MemberId
  accessFlags : UInt16
  attributes : AttributeTable
  deriving DecidableEq

/-- A compiled class. -/
structure ClassFile where
  version : ClassVersion
  pool : ConstantPool
  accessFlags : UInt16
  name : ClassName
  /-- The internal name of the superclass, if there is one. -/
  superName : Option String
  /-- The internal names of the interfaces. -/
  interfaces : List String
  /-- The fields, then the methods. -/
  members : List Member
  attributes : AttributeTable
  deriving DecidableEq

namespace ClassFile

/-- A public class of version 52 that extends `java/lang/Object` and has nothing else. -/
def new (name : ClassName) : ClassFile where
  version := ⟨52, 0⟩
  pool := .empty
  accessFlags := 0x0021
  name := name
  superName := some "java/lang/Object"
  interfaces := []
  members := []
  attributes := .empty

/-- The annotations of the class itself. -/
def annotations (c : ClassFile) : AnnotationSet := c.attributes.annotations

/-- The members of one kind, in order. -/
def membersOfKind (c : ClassFile) (kind : MemberKind) : List Member :=
  c.members.filter fun m => m.id.kind = kind

/-- The first member with an identity. -/
def findMember? (c : ClassFile) (id : MemberId) : Option Member :=
  c.members.find? fun m => m.id = id

/-- Adds a member: a method at the end, a field before the first method. -/
def addMember (c : ClassFile) (m : Member) : ClassFile :=
  match m.id.kind with
  | .method => { c with members := c.members ++ [m] }
  | .field =>
    { c with
      members := c.members.takeWhile (fun e => e.id.kind != .method)
        ++ m :: c.members.dropWhile (fun e => e.id.kind != .method) }

end ClassFile

end AnnotationGraft
