import AnnotationGraft.ClassFile.MemberKind
import AnnotationGraft.ConstantPool.Constant
import AnnotationGraft.Text.Quoted

/-!
# Why a class file cannot be read

Each cause for which reading gives up, with the message that reports it.
-/

namespace AnnotationGraft

/-- What is wrong with an entry of the constant pool or with a reference to one. -/
inductive ConstantFault where
  /-- The slot is past the end of the pool, or holds no entry. -/
  | unusable
  | mistyped (expected found : ConstantKind)
  | dangling (target : UInt16)
  | wrongTarget (target : UInt16) (found expected : ConstantKind)
  | badReferenceKind (kind : UInt8)
  /-- An entry of two slots starts in the last one. -/
  | wideInLastSlot
  deriving DecidableEq, Repr

namespace ConstantFault

/-- The fault in words. -/
def message : ConstantFault → String
  | unusable => "unusable or out of range slot"
  | mistyped expected found => "expected " ++ expected.name ++ ", found " ++ found.name
  | dangling target => "dangling reference to #" ++ toString target.toNat
  | wrongTarget target found expected =>
    "#" ++ toString target.toNat ++ " is " ++ found.name ++ " but " ++ expected.name
      ++ " was expected"
  | badReferenceKind kind => "invalid method handle kind " ++ toString kind.toNat
  | wideInLastSlot => "wide constant in last slot"

end ConstantFault

/-- Why a class file cannot be read. -/
inductive DecodeError where
  | badMagic (found : UInt32)
  | unsupportedVersion (major minor : UInt16)
  /-- The input ends before the `needed` bytes at `offset`. -/
  | truncated (offset needed : Nat)
  | invalidConstantTag (index : UInt16) (tag : UInt8)
  | invalidConstant (index : UInt16) (fault : ConstantFault)
  | invalidUtf8 (index : UInt16)
  | invalidDescriptor (text : String)
  | unnamedMember (kind : MemberKind)
  | invalidElementTag (tag : UInt8)
  /-- The body of an attribute ends before its declared length does. -/
  | attributeLength (name : String) (declared actual : Nat)
  | duplicateKind (kind : String)
  | nestingTooDeep (limit : Nat)
  | trailingBytes (count : Nat)
  deriving DecidableEq, Repr

namespace DecodeError

/-- A number in upper-case hexadecimal with at least eight digits. -/
private def hexWord (w : UInt32) : String :=
  let digits := (Nat.toDigits 16 w.toNat).map Char.toUpper
  String.ofList (List.replicate (8 - digits.length) '0' ++ digits)

/-- The cause in words. -/
def message : DecodeError → String
  | badMagic found => "Bad magic: 0x" ++ hexWord found
  | unsupportedVersion major minor =>
    "Unsupported class file version " ++ toString major.toNat ++ "." ++ toString minor.toNat
  | truncated offset needed =>
    "Truncated class file: needed " ++ toString needed ++ " bytes at offset " ++ toString offset
  | invalidConstantTag index tag =>
    "Invalid constant tag " ++ toString tag.toNat ++ " at pool index " ++ toString index.toNat
  | invalidConstant index fault =>
    "Invalid constant pool reference #" ++ toString index.toNat ++ ": " ++ fault.message
  | invalidUtf8 index => "Invalid modified UTF-8 in constant #" ++ toString index.toNat
  | invalidDescriptor text => "Invalid descriptor: " ++ Text.quoted text
  | unnamedMember kind =>
    "Invalid descriptor: " ++ Text.quoted ("empty " ++ kind.word ++ " name")
  | invalidElementTag tag =>
    "Invalid annotation element tag '" ++ String.singleton (Char.ofNat tag.toNat) ++ "'"
  | attributeLength name declared actual =>
    "Attribute " ++ name ++ " declares " ++ toString declared ++ " bytes but " ++ toString actual
      ++ " were read"
  | duplicateKind kind => "Annotation " ++ kind ++ " appears more than once on one element"
  | nestingTooDeep limit =>
    "Annotation values nested deeper than " ++ toString limit ++ " levels"
  | trailingBytes count => toString count ++ " trailing bytes after class structure"

end DecodeError

end AnnotationGraft
