import AnnotationGraft.Text.Segments

/-!
# Field and method types

The grammar of descriptors.  A field type is a base type or an object type below up to 255 array
dimensions; a method type lists field types for its parameters and has one for its result, or none.
`FieldType.text` and `MethodType.text` write a type, `FieldType.scan?` and `MethodType.scan?` read
one from the front of a text and give what follows it.

An object type names a class by its internal name: non-empty segments between slashes, free of the
characters that have a meaning of their own in descriptors.
-/

namespace AnnotationGraft

/-- A type that is neither an array nor an object. -/
inductive BaseType where
  | byte
  | char
  | double
  | float
  | int
  | long
  | short
  | boolean
  deriving DecidableEq, Repr

namespace BaseType

/-- The letter of a base type in descriptors. -/
def letter : BaseType → Char
  | byte => 'B'
  | char => 'C'
  | double => 'D'
  | float => 'F'
  | int => 'I'
  | long => 'J'
  | short => 'S'
  | boolean => 'Z'

/-- The base type of a letter. -/
def ofLetter? : Char → Option BaseType
  | 'B' => some byte
  | 'C' => some char
  | 'D' => some double
  | 'F' => some float
  | 'I' => some int
  | 'J' => some long
  | 'S' => some short
  | 'Z' => some boolean
  | _ => none

/-- The keyword of a base type in source code. -/
def keyword : BaseType → String
  | byte => "byte"
  | char => "char"
  | double => "double"
  | float => "float"
  | int => "int"
  | long => "long"
  | short => "short"
  | boolean => "boolean"

@[simp] theorem ofLetter?_letter (b : BaseType) : ofLetter? b.letter = some b := by
  cases b <;> rfl

theorem letter_of_ofLetter? {c : Char} {b : BaseType} (h : ofLetter? c = some b) :
    b.letter = c := by
  unfold ofLetter? at h
  split at h <;> cases h <;> rfl

end BaseType

/-- A segment of a class name: not empty, and without a dot, a semicolon or a bracket. -/
def isNameSegment (segment : List Char) : Bool :=
  !segment.isEmpty && segment.all fun c => c != '.' && c != ';' && c != '['

/-- An internal name of a class that is not an array. -/
def isPlainClassName (name : List Char) : Bool :=
  (Text.segments '/' name).all isNameSegment

/-- What an array holds, or the type itself if it is no array. -/
inductive ElementType where
  | base (type : BaseType)
  | object (name : List Char)
  deriving DecidableEq, Repr

/-- The type of a field, a parameter or a result. -/
structure FieldType where
  dimensions : Nat
  element : ElementType
  deriving DecidableEq, Repr

/-- The most dimensions an array type may have. -/
def maxDimensions : Nat := 255

namespace ElementType

/-- An element type as written in descriptors. -/
def text : ElementType → List Char
  | base type => [type.letter]
  | object name => 'L' :: name ++ [';']

/-- Whether a class named by the type has a proper name. -/
def isValid : ElementType → Bool
  | base _ => true
  | object name => isPlainClassName name

/-- Reads an element type from the front of a text. -/
def scan? : List Char → Option (ElementType × List Char)
  | [] => none
  | c :: rest =>
    if c = 'L' then
      let name := rest.takeWhile (· != ';')
      match rest.dropWhile (· != ';') with
      | _ :: rest => if isPlainClassName name then some (object name, rest) else none
      | [] => none
    else (BaseType.ofLetter? c).map fun type => (base type, rest)

/-- Reading an element type takes at least one character. -/
theorem length_lt_of_scan? {cs rest : List Char} {t : ElementType}
    (h : scan? cs = some (t, rest)) : rest.length < cs.length := by
  match cs with
  | [] => simp [scan?] at h
  | c :: tail =>
    simp only [scan?] at h
    by_cases hc : c = 'L'
    · simp only [hc, if_true] at h
      have hle : (tail.dropWhile (· != ';')).length ≤ tail.length :=
        (List.dropWhile_suffix _).length_le
      split at h
      · next d rest' hd =>
        by_cases hn : isPlainClassName (tail.takeWhile (· != ';'))
        · simp only [hn, if_true, Option.some.injEq, Prod.mk.injEq] at h
          rw [hd] at hle
          simp only [List.length_cons] at hle ⊢
          rw [← h.2]
          omega
        · simp [hn] at h
      · simp at h
    · simp only [hc, if_false, Option.map_eq_some_iff, Prod.mk.injEq] at h
      obtain ⟨_, _, _, rfl⟩ := h
      simp

end ElementType

namespace FieldType

/-- A field type as written in descriptors. -/
def text (t : FieldType) : List Char := List.replicate t.dimensions '[' ++ t.element.text

/-- Whether the type is within the limit on dimensions and names its class properly. -/
def isValid (t : FieldType) : Bool := t.dimensions ≤ maxDimensions && t.element.isValid

theorem isValid_iff {t : FieldType} :
    t.isValid = true ↔ t.dimensions ≤ maxDimensions ∧ t.element.isValid = true := by
  rw [isValid, Bool.and_eq_true, decide_eq_true_eq]

/-- Reads a field type from the front of a text. -/
def scan? (cs : List Char) : Option (FieldType × List Char) :=
  let dimensions := (cs.takeWhile (· == '[')).length
  if dimensions ≤ maxDimensions then
    (ElementType.scan? (cs.dropWhile (· == '['))).map fun found => (⟨dimensions, found.1⟩, found.2)
  else none

/-- Reading a field type takes at least one character. -/
theorem length_lt_of_scan? {cs rest : List Char} {t : FieldType}
    (h : scan? cs = some (t, rest)) : rest.length < cs.length := by
  simp only [scan?] at h
  split at h
  · obtain ⟨⟨e, rest'⟩, he, heq⟩ := Option.map_eq_some_iff.1 h
    simp only [Prod.mk.injEq] at heq
    have h1 := ElementType.length_lt_of_scan? he
    have h2 : (cs.dropWhile (· == '[')).length ≤ cs.length := (List.dropWhile_suffix _).length_le
    rw [← heq.2]
    omega
  · simp at h

end FieldType

/-- The parameters and the result of a method; a method without a result is `void`. -/
structure MethodType where
  parameters : List FieldType
  result : Option FieldType
  deriving DecidableEq, Repr

namespace MethodType

/-- A result type as written in descriptors. -/
def resultText : Option FieldType → List Char
  | none => ['V']
  | some t => t.text

/-- A method type as written in descriptors. -/
def text (t : MethodType) : List Char :=
  '(' :: t.parameters.flatMap FieldType.text ++ ')' :: resultText t.result

/-- Whether every type in it is valid. -/
def isValid (t : MethodType) : Bool :=
  t.parameters.all FieldType.isValid && t.result.all FieldType.isValid

theorem isValid_iff {t : MethodType} : t.isValid = true ↔
    t.parameters.all FieldType.isValid = true ∧ t.result.all FieldType.isValid = true := by
  rw [isValid, Bool.and_eq_true]

/-- Reads parameters up to the closing parenthesis and past it, after those already read, the
latest of which comes first. -/
def scanParametersOnto (done : List FieldType) (cs : List Char) :
    Option (List FieldType × List Char) :=
  match cs with
  | [] => none
  | c :: rest =>
    if c = ')' then some (done.reverse, rest)
    else
      match _hscan : FieldType.scan? (c :: rest) with
      | some (t, rest') => scanParametersOnto (t :: done) rest'
      | none => none
  termination_by cs.length
  decreasing_by exact FieldType.length_lt_of_scan? _hscan

/-- Reads a result type from the front of a text. -/
def scanResult? (cs : List Char) : Option (Option FieldType × List Char) :=
  match cs with
  | 'V' :: rest => some (none, rest)
  | _ => (FieldType.scan? cs).map fun found => (some found.1, found.2)

/-- Reads a method type from the front of a text. -/
def scan? : List Char → Option (MethodType × List Char)
  | '(' :: cs =>
    (scanParametersOnto [] cs).bind fun (parameters, cs) =>
      (scanResult? cs).map fun (result, rest) => (⟨parameters, result⟩, rest)
  | _ => none

end MethodType

end AnnotationGraft
