import AnnotationGraft.Annotations.Set
import AnnotationGraft.ConstantPool.Interning
import AnnotationGraft.Descriptor.Recognition

/-!
# Annotations in a class file

A written annotation refers to the constant pool for its kind, its names and its values.  The
retention is not written: it is that of the attribute that holds the annotation.

Values may be nested in annotations and arrays.  A value that stands directly in an annotation of an
attribute has depth 0; reading refuses values deeper than `maxDepth`.
-/

namespace AnnotationGraft

/-- The greatest depth at which a value is read. -/
def maxDepth : Nat := 64

/-- Gives up on a text that is not a descriptor of the form wanted. -/
def requireDescriptor (recognized : String → Bool) (d : String) : Except DecodeError Unit :=
  if recognized d then .ok () else .error (.invalidDescriptor d)

namespace Scan

/-- Reads an index and looks it up. -/
def lookup {α : Type} (find : UInt16 → Except DecodeError α) : Scan α := do
  let index ← word16
  MonadExcept.ofExcept (find index)

/-- Reads a text that has to be a descriptor of the form wanted. -/
def descriptor (pool : ConstantPool) (recognized : String → Bool) : Scan String := do
  let d ← lookup pool.utf8
  MonadExcept.ofExcept (requireDescriptor recognized d)
  return d

/-- Reads an annotation, given how to read the values in it. -/
def annotationOf (pool : ConstantPool) (r : Retention) (value : Scan ElementValue) :
    Scan AnnotationUse := do
  let kind ← descriptor pool Descriptor.isObjectType
  let elements ← table do
    let name ← lookup pool.utf8
    return (name, ← value)
  return ⟨kind, r, elements⟩

/-- Reads a value below which values may be nested in fewer than `levels` levels. -/
def elementValue (pool : ConstantPool) (r : Retention) : (levels : Nat) → Scan ElementValue
  | 0 => throw (.nestingTooDeep maxDepth)
  | levels + 1 => do
    let tag ← byte
    match Char.ofNat tag.toNat with
    | 'B' => return .byte (← lookup pool.integer)
    | 'C' => return .char (← lookup pool.integer)
    | 'I' => return .int (← lookup pool.integer)
    | 'S' => return .short (← lookup pool.integer)
    | 'Z' => return .boolean (← lookup pool.integer)
    | 'J' => return .long (← lookup pool.long)
    | 'F' => return .float (← lookup pool.floatBits)
    | 'D' => return .double (← lookup pool.doubleBits)
    | 's' => return .string (← lookup pool.utf8)
    | 'e' => do
      let type ← descriptor pool Descriptor.isObjectType
      return .enumConstant type (← lookup pool.utf8)
    | 'c' => return .classLiteral (← descriptor pool Descriptor.isResultType)
    | '@' => return .nested (← annotationOf pool r (elementValue pool r levels))
    | '[' => return .array (← table (elementValue pool r levels))
    | _ => throw (.invalidElementTag tag)

/-- Reads a value that stands at a given depth. -/
def elementValueAt (pool : ConstantPool) (r : Retention) (depth : Nat) : Scan ElementValue :=
  elementValue pool r (maxDepth + 1 - depth)

/-- Reads an annotation whose values stand at a given depth. -/
def annotationAt (pool : ConstantPool) (r : Retention) (depth : Nat) : Scan AnnotationUse :=
  annotationOf pool r (elementValueAt pool r depth)

/-- Reads one annotation more of a set in which every kind may occur once. -/
def annotationInto (pool : ConstantPool) (r : Retention) (set : AnnotationSet) :
    Scan AnnotationSet := do
  let a ← annotationAt pool r 0
  if set.contains a.kind then throw (.duplicateKind a.kind) else return set.insert a

/-- Reads the body of an annotation attribute into a set. -/
def annotationsInto (pool : ConstantPool) (r : Retention) (set : AnnotationSet) :
    Scan AnnotationSet := do
  let count ← word16
  (List.replicate count.toNat ()).foldlM (fun set _ => annotationInto pool r set) set

end Scan

namespace Interning

/-- An index as written. -/
def reference (index : Interning UInt16) : Interning Bytes := do
  return BigEndian.ofUInt16 (← index)

/-- The count of a table as written. -/
def count (table : TableKind) (items : Nat) : Interning Bytes := do
  return BigEndian.ofUInt16 (← MonadExcept.ofExcept (tableCount table items))

mutual

/-- A value as written. -/
def elementValue (x : ElementValue) : Interning Bytes :=
  match x with
  | .byte v => return 'B'.toUInt8 :: (← reference (constant (.integer v)))
  | .char v => return 'C'.toUInt8 :: (← reference (constant (.integer v)))
  | .int v => return 'I'.toUInt8 :: (← reference (constant (.integer v)))
  | .short v => return 'S'.toUInt8 :: (← reference (constant (.integer v)))
  | .boolean v => return 'Z'.toUInt8 :: (← reference (constant (.integer v)))
  | .long v => return 'J'.toUInt8 :: (← reference (constant (.long v)))
  | .float bits => return 'F'.toUInt8 :: (← reference (constant (.float bits)))
  | .double bits => return 'D'.toUInt8 :: (← reference (constant (.double bits)))
  | .string text => return 's'.toUInt8 :: (← reference (utf8 text))
  | .enumConstant type name => do
    let type ← reference (utf8 type)
    let name ← reference (utf8 name)
    return 'e'.toUInt8 :: type ++ name
  | .classLiteral d => return 'c'.toUInt8 :: (← reference (utf8 d))
  | .nested a => return '@'.toUInt8 :: (← annotationUse a)
  | .array vs => do
    let size ← count .arrayValue vs.length
    let values ← elementValuesAfter [] vs
    return '['.toUInt8 :: size ++ values
termination_by structural x

/-- Values as written, after those already written, the latest of which comes first. -/
def elementValuesAfter (done : List Bytes) (vs : List ElementValue) : Interning Bytes :=
  match vs with
  | [] => return done.reverse.flatten
  | v :: vs => do
    let bytes ← elementValue v
    elementValuesAfter (bytes :: done) vs
termination_by structural vs

/-- Elements as written, after those already written, the latest of which comes first. -/
def elementsAfter (done : List Bytes) (es : List (String × ElementValue)) : Interning Bytes :=
  match es with
  | [] => return done.reverse.flatten
  | (name, v) :: es => do
    let name ← reference (utf8 name)
    let bytes ← elementValue v
    elementsAfter ((name ++ bytes) :: done) es
termination_by structural es

/-- An annotation as written. -/
def annotationUse (a : AnnotationUse) : Interning Bytes :=
  match a with
  | ⟨kind, _, es⟩ => do
    let kind ← reference (utf8 kind)
    let size ← count .elementValuePairs es.length
    let elements ← elementsAfter [] es
    return kind ++ size ++ elements
termination_by structural a

end

end Interning

end AnnotationGraft
