import AnnotationGraft.Annotations.Basic
import AnnotationGraft.Descriptor.SourceForm
import AnnotationGraft.Text.PositionalDecimal
import AnnotationGraft.Text.Quoted

/-!
# Annotations as source code writes them

`AnnotationUse.sourceForm` shows an annotation as `@com.example.Json(name="id")`.  Its kinds, enum
types and class literals are shown by their source names.
-/

namespace AnnotationGraft

/-- The source form of a character constant: the character, or its number if there is none. -/
def characterSource (v : Int32) : String :=
  let n := v.toInt
  if 0 ≤ n ∧ (n < 0xD800 ∨ (0xDFFF < n ∧ n < 0x110000)) then
    Text.quotedChar (Char.ofNat n.toNat)
  else toString n

/-- An annotation of a kind, with its elements if it has any. -/
def useSource (kind : String) (elements : List String) : String :=
  let mark := "@" ++ Descriptor.sourceName kind
  if elements.isEmpty then mark else mark ++ "(" ++ ", ".intercalate elements ++ ")"

mutual

/-- The source form of a value. -/
def ElementValue.sourceForm (x : ElementValue) : String :=
  match x with
  | .byte v => toString v.toInt
  | .short v => toString v.toInt
  | .int v => toString v.toInt
  | .char v => characterSource v
  | .boolean v => if v = 0 then "false" else "true"
  | .long v => toString v.toInt ++ "L"
  | .float bits => PositionalDecimal.single.text bits.toNat ++ "f"
  | .double bits => PositionalDecimal.double.text bits.toNat
  | .string text => Text.quoted text
  | .enumConstant type constant => Descriptor.sourceName type ++ "." ++ constant
  | .classLiteral d => Descriptor.sourceName d ++ ".class"
  | .nested a => a.sourceForm
  | .array vs => "\x7b" ++ ", ".intercalate (ElementValue.sourceForms vs) ++ "\x7d"
termination_by structural x

/-- The source forms of values. -/
def ElementValue.sourceForms (vs : List ElementValue) : List String :=
  match vs with
  | [] => []
  | v :: vs => v.sourceForm :: ElementValue.sourceForms vs
termination_by structural vs

/-- The source forms of elements. -/
def ElementValue.elementSourceForms (es : List (String × ElementValue)) : List String :=
  match es with
  | [] => []
  | (name, v) :: es => (name ++ "=" ++ v.sourceForm) :: ElementValue.elementSourceForms es
termination_by structural es

/-- The source form of an annotation. -/
def AnnotationUse.sourceForm (a : AnnotationUse) : String :=
  match a with
  | ⟨kind, _, es⟩ => useSource kind (ElementValue.elementSourceForms es)
termination_by structural a

end

end AnnotationGraft
