/-!
# Why a class cannot be written

The counts and lengths of a class file are words of fixed size.  Each cause for which writing gives
up is one that does not fit, with the message that reports it.
-/

namespace AnnotationGraft

/-- A counted table of a class file. -/
inductive TableKind where
  | constantPool
  | interfaces
  | fields
  | methods
  | attributes
  | annotations
  | elementValuePairs
  | arrayValue
  deriving DecidableEq, Repr

/-- The name of the table in messages. -/
def TableKind.name : TableKind → String
  | constantPool => "constant_pool"
  | interfaces => "interfaces"
  | fields => "fields"
  | methods => "methods"
  | attributes => "attributes"
  | annotations => "annotations"
  | elementValuePairs => "element_value_pairs"
  | arrayValue => "array_value"

/-- Why a class cannot be written. -/
inductive EncodeError where
  /-- A further constant would take the pool to `needed` slots. -/
  | constantPoolOverflow (needed : Nat)
  | tableTooLarge (table : TableKind) (count : Nat)
  /-- The body of the attribute whose name is at index `name` takes `size` bytes. -/
  | attributeTooLarge (name : UInt16) (size : Nat)
  | stringTooLong (size : Nat)
  deriving DecidableEq, Repr

namespace EncodeError

/-- The cause in words. -/
def message : EncodeError → String
  | constantPoolOverflow needed =>
    "Constant pool overflow: " ++ toString needed ++ " slots required"
  | tableTooLarge table count => "Too many entries in " ++ table.name ++ ": " ++ toString count
  | attributeTooLarge name size =>
    "Attribute #" ++ toString name.toNat ++ " (" ++ toString size ++ " bytes) is too large"
  | stringTooLong size => "String constant too long: " ++ toString size ++ " bytes"

end EncodeError

end AnnotationGraft
