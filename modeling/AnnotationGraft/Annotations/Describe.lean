import AnnotationGraft.Annotations.Basic
import AnnotationGraft.Text.Quoted

/-!
# The structural form of values

A text that shows a value with everything it holds: the constructor of the value, then its content
in parentheses or, with names, in braces.  Floating-point numbers are shown by their bits.  Messages
use this form for a value that stands where another one was wanted.
-/

namespace AnnotationGraft

/-- The name of a retention in structural forms. -/
def Retention.describe : Retention → String
  | visible => "Visible"
  | invisible => "Invisible"

mutual

/-- The structural form of a value. -/
def ElementValue.describe (x : ElementValue) : String :=
  match x with
  | .byte v => "Byte(" ++ toString v.toInt ++ ")"
  | .char v => "Char(" ++ toString v.toInt ++ ")"
  | .int v => "Int(" ++ toString v.toInt ++ ")"
  | .short v => "Short(" ++ toString v.toInt ++ ")"
  | .boolean v => "Boolean(" ++ toString v.toInt ++ ")"
  | .long v => "Long(" ++ toString v.toInt ++ ")"
  | .float bits => "Float(" ++ toString bits.toNat ++ ")"
  | .double bits => "Double(" ++ toString bits.toNat ++ ")"
  | .string text => "String(" ++ Text.quoted text ++ ")"
  | .enumConstant type constant =>
    "Enum \x7b type_descriptor: " ++ Text.quoted type ++ ", constant: " ++ Text.quoted constant
      ++ " \x7d"
  | .classLiteral d => "Class(" ++ Text.quoted d ++ ")"
  | .nested a => "Annotation(" ++ a.describe ++ ")"
  | .array vs => "Array([" ++ ", ".intercalate (ElementValue.describeValues vs) ++ "])"
termination_by structural x

/-- The structural forms of values. -/
def ElementValue.describeValues (vs : List ElementValue) : List String :=
  match vs with
  | [] => []
  | v :: vs => v.describe :: ElementValue.describeValues vs
termination_by structural vs

/-- The structural forms of elements. -/
def ElementValue.describeElements (es : List (String × ElementValue)) : List String :=
  match es with
  | [] => []
  | (name, v) :: es =>
    ("(" ++ Text.quoted name ++ ", " ++ v.describe ++ ")") :: ElementValue.describeElements es
termination_by structural es

/-- The structural form of an annotation. -/
def AnnotationUse.describe (a : AnnotationUse) : String :=
  match a with
  | ⟨kind, r, es⟩ =>
    "Annotation \x7b kind: " ++ Text.quoted kind ++ ", retention: " ++ r.describe ++ ", elements: ["
      ++ ", ".intercalate (ElementValue.describeElements es) ++ "] \x7d"
termination_by structural a

end

end AnnotationGraft
