import AnnotationGraft.Descriptor.FieldType

/-!
# Recognition of descriptors

Which texts are descriptors, of each of the forms that a class file uses.  A text is recognised when
the type read from its front takes all of it.
-/

namespace AnnotationGraft.Descriptor

/-- Whether a text is a field type and nothing else. -/
def isFieldTypeText (cs : List Char) : Bool :=
  match FieldType.scan? cs with
  | some (_, []) => true
  | _ => false

/-- Whether a text describes the type of a field. -/
def isFieldType (d : String) : Bool := isFieldTypeText d.toList

/-- Whether a text describes the type of a method. -/
def isMethodType (d : String) : Bool :=
  match MethodType.scan? d.toList with
  | some (_, []) => true
  | _ => false

/-- Whether a text describes an object type, the form of annotation kinds and enum types. -/
def isObjectType (d : String) : Bool :=
  match d.toList with
  | 'L' :: _ => isFieldType d
  | _ => false

/-- Whether a text describes a result type, the form of class literals. -/
def isResultType (d : String) : Bool := d == "V" || isFieldType d

/-- Whether a text names a class; an array class is named by its descriptor. -/
def isClassName (name : String) : Bool :=
  match name.toList with
  | '[' :: _ => isFieldType name
  | cs => isPlainClassName cs

/-- What an object descriptor holds between its `L` and its `;`. -/
def objectNameText? : List Char → Option (List Char)
  | 'L' :: rest => if rest.getLast? = some ';' then some rest.dropLast else none
  | _ => none

/-- The internal name that an object descriptor holds. -/
def objectName? (d : String) : Option String := (objectNameText? d.toList).map String.ofList

end AnnotationGraft.Descriptor
