import AnnotationGraft.Bytes.BigEndian

/-!
# Constants

The entries of a constant pool.  An entry that refers to another one holds its index.  Strings are
kept as their bytes, and floating-point numbers as their bits, so that whatever a file holds is
written back unchanged.
-/

namespace AnnotationGraft

/-- What an entry of the pool is. -/
inductive ConstantKind where
  | utf8
  | integer
  | float
  | long
  | double
  | classInfo
  | string
  | fieldRef
  | methodRef
  | interfaceMethodRef
  | nameAndType
  | methodHandle
  | methodType
  | dynamic
  | invokeDynamic
  | moduleInfo
  | packageInfo
  deriving DecidableEq, Repr

namespace ConstantKind

/-- The byte that announces an entry of the kind in a file. -/
def tag : ConstantKind → UInt8
  | utf8 => 1
  | integer => 3
  | float => 4
  | long => 5
  | double => 6
  | classInfo => 7
  | string => 8
  | fieldRef => 9
  | methodRef => 10
  | interfaceMethodRef => 11
  | nameAndType => 12
  | methodHandle => 15
  | methodType => 16
  | dynamic => 17
  | invokeDynamic => 18
  | moduleInfo => 19
  | packageInfo => 20

/-- The kind that a tag announces. -/
def ofTag? (tag : UInt8) : Option ConstantKind :=
  match tag.toNat with
  | 1 => some utf8
  | 3 => some integer
  | 4 => some float
  | 5 => some long
  | 6 => some double
  | 7 => some classInfo
  | 8 => some string
  | 9 => some fieldRef
  | 10 => some methodRef
  | 11 => some interfaceMethodRef
  | 12 => some nameAndType
  | 15 => some methodHandle
  | 16 => some methodType
  | 17 => some dynamic
  | 18 => some invokeDynamic
  | 19 => some moduleInfo
  | 20 => some packageInfo
  | _ => none

/-- The name of the kind in messages. -/
def name : ConstantKind → String
  | utf8 => "Utf8"
  | integer => "Integer"
  | float => "Float"
  | long => "Long"
  | double => "Double"
  | classInfo => "Class"
  | string => "String"
  | fieldRef => "Fieldref"
  | methodRef => "Methodref"
  | interfaceMethodRef => "InterfaceMethodref"
  | nameAndType => "NameAndType"
  | methodHandle => "MethodHandle"
  | methodType => "MethodType"
  | dynamic => "Dynamic"
  | invokeDynamic => "InvokeDynamic"
  | moduleInfo => "Module"
  | packageInfo => "Package"

@[simp] theorem ofTag?_tag (k : ConstantKind) : ofTag? k.tag = some k := by
  cases k <;> rfl

theorem tag_of_ofTag? {tag : UInt8} {k : ConstantKind} (h : ofTag? tag = some k) :
    k.tag = tag := by
  apply UInt8.toNat_inj.1
  unfold ofTag? at h
  split at h <;> cases h <;> simp_all [ConstantKind.tag]

end ConstantKind

/-- An entry of the constant pool. -/
inductive Constant where
  | utf8 (bytes : Bytes)
  | integer (value : Int32)
  | float (bits : UInt32)
  | long (value : Int64)
  | double (bits : UInt64)
  | classInfo (name : UInt16)
  | string (text : UInt16)
  | fieldRef (owner nameAndType : UInt16)
  | methodRef (owner nameAndType : UInt16)
  | interfaceMethodRef (owner nameAndType : UInt16)
  | nameAndType (name descriptor : UInt16)
  | methodHandle (referenceKind : UInt8) (reference : UInt16)
  | methodType (descriptor : UInt16)
  | dynamic (bootstrap nameAndType : UInt16)
  | invokeDynamic (bootstrap nameAndType : UInt16)
  | moduleInfo (name : UInt16)
  | packageInfo (name : UInt16)
  deriving DecidableEq, Repr

namespace Constant

/-- What the entry is. -/
def kind : Constant → ConstantKind
  | utf8 _ => .utf8
  | integer _ => .integer
  | float _ => .float
  | long _ => .long
  | double _ => .double
  | classInfo _ => .classInfo
  | string _ => .string
  | fieldRef _ _ => .fieldRef
  | methodRef _ _ => .methodRef
  | interfaceMethodRef _ _ => .interfaceMethodRef
  | nameAndType _ _ => .nameAndType
  | methodHandle _ _ => .methodHandle
  | methodType _ => .methodType
  | dynamic _ _ => .dynamic
  | invokeDynamic _ _ => .invokeDynamic
  | moduleInfo _ => .moduleInfo
  | packageInfo _ => .packageInfo

/-- The byte that announces the entry in a file. -/
def tag (c : Constant) : UInt8 := c.kind.tag

/-- Whether the entry takes two slots of the pool, of which the second cannot be used. -/
def isWide (c : Constant) : Bool :=
  match c.kind with
  | .long | .double => true
  | _ => false

/-- How many slots the entry takes. -/
def width (c : Constant) : Nat := if c.isWide then 2 else 1

/-- A constructor with its arguments in parentheses. -/
private def positionalFields (constructor : String) (fields : List String) : String :=
  constructor ++ "(" ++ ", ".intercalate fields ++ ")"

/-- A constructor with two named arguments in braces. -/
private def namedFields (constructor first : String) (value : String) (second : String)
    (reference : UInt16) : String :=
  constructor ++ " \x7b " ++ first ++ ": " ++ value ++ ", " ++ second ++ ": "
    ++ toString reference.toNat ++ " \x7d"

/-- A structural form of the entry: what it is, with everything it holds. -/
def describe : Constant → String
  | utf8 bytes =>
    positionalFields "Utf8" ["[" ++ ", ".intercalate (bytes.map fun b => toString b.toNat) ++ "]"]
  | integer value => positionalFields "Integer" [toString value.toInt]
  | float bits => positionalFields "Float" [toString bits.toNat]
  | long value => positionalFields "Long" [toString value.toInt]
  | double bits => positionalFields "Double" [toString bits.toNat]
  | classInfo name => positionalFields "Class" [toString name.toNat]
  | string text => positionalFields "String" [toString text.toNat]
  | fieldRef owner signature =>
    namedFields "FieldRef" "class" (toString owner.toNat) "name_and_type" signature
  | methodRef owner signature =>
    namedFields "MethodRef" "class" (toString owner.toNat) "name_and_type" signature
  | interfaceMethodRef owner signature =>
    namedFields "InterfaceMethodRef" "class" (toString owner.toNat) "name_and_type" signature
  | nameAndType name descriptor =>
    namedFields "NameAndType" "name" (toString name.toNat) "descriptor" descriptor
  | methodHandle referenceKind reference =>
    namedFields "MethodHandle" "kind" (toString referenceKind.toNat) "reference" reference
  | methodType descriptor => positionalFields "MethodType" [toString descriptor.toNat]
  | dynamic bootstrap signature =>
    namedFields "Dynamic" "bootstrap" (toString bootstrap.toNat) "name_and_type" signature
  | invokeDynamic bootstrap signature =>
    namedFields "InvokeDynamic" "bootstrap" (toString bootstrap.toNat) "name_and_type" signature
  | moduleInfo name => positionalFields "Module" [toString name.toNat]
  | packageInfo name => positionalFields "Package" [toString name.toNat]

end Constant

end AnnotationGraft
