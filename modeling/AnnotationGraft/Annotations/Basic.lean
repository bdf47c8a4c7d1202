/-!
# Annotations

An annotation has a kind, given by the descriptor of its type, a retention, and named elements in
the order in which they were written.  An element's value may hold further annotations, directly or
in an array; those are meant to have the retention of the annotation that holds them, and
`Annotation.normalize` gives it to them.
-/

namespace AnnotationGraft

/-- Which attribute of a class file holds an annotation: the one that a running program can see, or
the one that only tools read. -/
inductive Retention where
  | visible
  | invisible
  deriving DecidableEq, Repr

namespace Retention

/-- The name of the attribute. -/
def attributeName : Retention → String
  | visible => "RuntimeVisibleAnnotations"
  | invisible => "RuntimeInvisibleAnnotations"

/-- The retention whose attribute has the name. -/
def ofAttributeName? (name : String) : Option Retention :=
  if name = visible.attributeName then some visible
  else if name = invisible.attributeName then some invisible
  else none

@[simp] theorem ofAttributeName?_attributeName (r : Retention) :
    ofAttributeName? r.attributeName = some r := by
  cases r <;> decide

theorem attributeName_of_ofAttributeName? {name : String} {r : Retention}
    (h : ofAttributeName? name = some r) : r.attributeName = name := by
  unfold ofAttributeName? at h
  split at h
  · next hn => cases h; exact hn.symm
  · split at h
    · next hn => cases h; exact hn.symm
    · cases h

end Retention

mutual

/-- The value of an element.  Bytes, characters, shorts and truth values are kept as the integer
constant that a file holds for them, floating-point numbers as their bits. -/
inductive ElementValue where
  | byte (value : Int32)
  | char (value : Int32)
  | int (value : Int32)
  | short (value : Int32)
  | boolean (value : Int32)
  | long (value : Int64)
  | float (bits : UInt32)
  | double (bits : UInt64)
  | string (text : String)
  | enumConstant (type constant : String)
  | classLiteral (descriptor : String)
  | nested (use : AnnotationUse)
  | array (values : List ElementValue)

/-- An annotation with its elements in order. -/
structure AnnotationUse where
  kind : String
  retention : Retention
  elements : List (String × ElementValue)

end

namespace ElementValue

/-- The byte that announces a value of this form in a file. -/
def tag : ElementValue → UInt8
  | byte _ => 'B'.toUInt8
  | char _ => 'C'.toUInt8
  | int _ => 'I'.toUInt8
  | short _ => 'S'.toUInt8
  | boolean _ => 'Z'.toUInt8
  | long _ => 'J'.toUInt8
  | float _ => 'F'.toUInt8
  | double _ => 'D'.toUInt8
  | string _ => 's'.toUInt8
  | enumConstant _ _ => 'e'.toUInt8
  | classLiteral _ => 'c'.toUInt8
  | nested _ => '@'.toUInt8
  | array _ => '['.toUInt8

/-- The value of a truth value. -/
def ofBool (value : Bool) : ElementValue := boolean (if value then 1 else 0)

/-- The value of a 32-bit floating-point number. -/
def ofFloat32 (value : Float32) : ElementValue := float value.toBits

/-- The value of a 64-bit floating-point number. -/
def ofFloat (value : Float) : ElementValue := double value.toBits

end ElementValue

/-! ## Equality -/

mutual

/-- Whether two values are the same. -/
def ElementValue.same (x y : ElementValue) : Bool :=
  match x, y with
  | .byte a, .byte b => a == b
  | .char a, .char b => a == b
  | .int a, .int b => a == b
  | .short a, .short b => a == b
  | .boolean a, .boolean b => a == b
  | .long a, .long b => a == b
  | .float a, .float b => a == b
  | .double a, .double b => a == b
  | .string a, .string b => a == b
  | .enumConstant a c, .enumConstant b d => a == b && c == d
  | .classLiteral a, .classLiteral b => a == b
  | .nested a, .nested b => a.same b
  | .array as, .array bs => ElementValue.sameValues as bs
  | _, _ => false
termination_by structural x

/-- Whether two lists of values are the same. -/
def ElementValue.sameValues (x y : List ElementValue) : Bool :=
  match x, y with
  | [], [] => true
  | a :: as, b :: bs => a.same b && ElementValue.sameValues as bs
  | _, _ => false
termination_by structural x

/-- Whether two lists of elements are the same. -/
def ElementValue.sameElements (x y : List (String × ElementValue)) : Bool :=
  match x, y with
  | [], [] => true
  | (m, a) :: as, (n, b) :: bs => m == n && a.same b && ElementValue.sameElements as bs
  | _, _ => false
termination_by structural x

/-- Whether two annotations are the same. -/
def AnnotationUse.same (x y : AnnotationUse) : Bool :=
  match x, y with
  | ⟨k, r, as⟩, ⟨l, s, bs⟩ => k == l && r == s && ElementValue.sameElements as bs
termination_by structural x

end

mutual

theorem ElementValue.same_refl (x : ElementValue) : x.same x = true := by
  cases x with
  | nested a => simp [ElementValue.same, AnnotationUse.same_refl a]
  | array vs => simp [ElementValue.same, ElementValue.sameValues_refl vs]
  | _ => simp [ElementValue.same]

theorem ElementValue.sameValues_refl (vs : List ElementValue) :
    ElementValue.sameValues vs vs = true := by
  match vs with
  | [] => rfl
  | v :: vs => simp [ElementValue.sameValues, v.same_refl, ElementValue.sameValues_refl vs]

theorem ElementValue.sameElements_refl (es : List (String × ElementValue)) :
    ElementValue.sameElements es es = true := by
  match es with
  | [] => rfl
  | (n, v) :: es => simp [ElementValue.sameElements, v.same_refl, ElementValue.sameElements_refl es]

theorem AnnotationUse.same_refl (a : AnnotationUse) : a.same a = true := by
  match a with
  | ⟨_, _, es⟩ => simp [AnnotationUse.same, ElementValue.sameElements_refl es]

end

mutual

theorem ElementValue.eq_of_same {x y : ElementValue} (h : x.same y = true) : x = y := by
  match x, y with
  | .nested a, .nested b =>
    rw [ElementValue.same] at h
    rw [AnnotationUse.eq_of_same h]
  | .array as, .array bs =>
    rw [ElementValue.same] at h
    rw [ElementValue.eq_of_sameValues h]
  | .byte _, y => cases y <;> simp_all [ElementValue.same]
  | .char _, y => cases y <;> simp_all [ElementValue.same]
  | .int _, y => cases y <;> simp_all [ElementValue.same]
  | .short _, y => cases y <;> simp_all [ElementValue.same]
  | .boolean _, y => cases y <;> simp_all [ElementValue.same]
  | .long _, y => cases y <;> simp_all [ElementValue.same]
  | .float _, y => cases y <;> simp_all [ElementValue.same]
  | .double _, y => cases y <;> simp_all [ElementValue.same]
  | .string _, y => cases y <;> simp_all [ElementValue.same]
  | .enumConstant _ _, y => cases y <;> simp_all [ElementValue.same]
  | .classLiteral _, y => cases y <;> simp_all [ElementValue.same]
  | .nested _, .byte _ | .nested _, .char _ | .nested _, .int _
  | .nested _, .short _ | .nested _, .boolean _ | .nested _, .long _
  | .nested _, .float _ | .nested _, .double _ | .nested _, .string _
  | .nested _, .enumConstant _ _ | .nested _, .classLiteral _
  | .nested _, .array _ => simp [ElementValue.same] at h
  | .array _, .byte _ | .array _, .char _ | .array _, .int _ | .array _, .short _
  | .array _, .boolean _ | .array _, .long _ | .array _, .float _ | .array _, .double _
  | .array _, .string _ | .array _, .enumConstant _ _ | .array _, .classLiteral _
  | .array _, .nested _ => simp [ElementValue.same] at h

theorem ElementValue.eq_of_sameValues {vs ws : List ElementValue}
    (h : ElementValue.sameValues vs ws = true) : vs = ws := by
  match vs, ws with
  | [], [] => rfl
  | [], _ :: _ => simp [ElementValue.sameValues] at h
  | _ :: _, [] => simp [ElementValue.sameValues] at h
  | v :: vs, w :: ws =>
    rw [ElementValue.sameValues, Bool.and_eq_true] at h
    rw [ElementValue.eq_of_same h.1, ElementValue.eq_of_sameValues h.2]

theorem ElementValue.eq_of_sameElements {es fs : List (String × ElementValue)}
    (h : ElementValue.sameElements es fs = true) : es = fs := by
  match es, fs with
  | [], [] => rfl
  | [], _ :: _ => simp [ElementValue.sameElements] at h
  | _ :: _, [] => simp [ElementValue.sameElements] at h
  | (m, v) :: es, (n, w) :: fs =>
    rw [ElementValue.sameElements, Bool.and_eq_true, Bool.and_eq_true] at h
    rw [eq_of_beq h.1.1, ElementValue.eq_of_same h.1.2, ElementValue.eq_of_sameElements h.2]

theorem AnnotationUse.eq_of_same {a b : AnnotationUse} (h : a.same b = true) : a = b := by
  match a, b with
  | ⟨k, r, es⟩, ⟨l, s, fs⟩ =>
    rw [AnnotationUse.same, Bool.and_eq_true, Bool.and_eq_true] at h
    rw [eq_of_beq h.1.1, eq_of_beq h.1.2, ElementValue.eq_of_sameElements h.2]

end

instance : DecidableEq ElementValue := fun x y =>
  decidable_of_iff (x.same y = true) ⟨ElementValue.eq_of_same, fun h => h ▸ x.same_refl⟩

instance : DecidableEq AnnotationUse := fun a b =>
  decidable_of_iff (a.same b = true) ⟨AnnotationUse.eq_of_same, fun h => h ▸ a.same_refl⟩

instance : Inhabited AnnotationUse := ⟨⟨"", .visible, []⟩⟩

/-! ## Retention of nested annotations -/

mutual

/-- The value with retention `r` given to every annotation in it. -/
def ElementValue.withRetention (r : Retention) (x : ElementValue) : ElementValue :=
  match x with
  | .nested a => .nested (a.withRetention r)
  | .array vs => .array (ElementValue.valuesWithRetention r vs)
  | v => v
termination_by structural x

/-- The values with retention `r` given to every annotation in them. -/
def ElementValue.valuesWithRetention (r : Retention) (vs : List ElementValue) :
    List ElementValue :=
  match vs with
  | [] => []
  | v :: vs => v.withRetention r :: ElementValue.valuesWithRetention r vs
termination_by structural vs

/-- The elements with retention `r` given to every annotation in their values. -/
def ElementValue.elementsWithRetention (r : Retention) (es : List (String × ElementValue)) :
    List (String × ElementValue) :=
  match es with
  | [] => []
  | (n, v) :: es => (n, v.withRetention r) :: ElementValue.elementsWithRetention r es
termination_by structural es

/-- The annotation with retention `r`, for itself and for every annotation in it. -/
def AnnotationUse.withRetention (r : Retention) (a : AnnotationUse) : AnnotationUse :=
  match a with
  | ⟨k, _, es⟩ => ⟨k, r, ElementValue.elementsWithRetention r es⟩
termination_by structural a

end

namespace AnnotationUse

/-- The annotation with its own retention given to every annotation in it. -/
def normalize (a : AnnotationUse) : AnnotationUse := a.withRetention a.retention

/-- The value of the first element with the name. -/
def element? (a : AnnotationUse) (name : String) : Option ElementValue :=
  (a.elements.find? fun e => e.1 == name).map (·.2)

@[simp] theorem kind_withRetention (a : AnnotationUse) (r : Retention) :
    (a.withRetention r).kind = a.kind := by
  cases a; rfl

@[simp] theorem retention_withRetention (a : AnnotationUse) (r : Retention) :
    (a.withRetention r).retention = r := by
  cases a; rfl

@[simp] theorem kind_normalize (a : AnnotationUse) : a.normalize.kind = a.kind := by
  simp [normalize]

@[simp] theorem retention_normalize (a : AnnotationUse) : a.normalize.retention = a.retention := by
  simp [normalize]

end AnnotationUse

end AnnotationGraft
