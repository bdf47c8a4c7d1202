import AnnotationGraft.Descriptor.Recognition
import Mathlib.Data.List.Basic

/-!
# The grammar of descriptors

Which texts are names, field types and method types, said of the texts alone and without a scanner.
A text of the grammar is a valid type as written, and the other way around (`isFieldText_iff`,
`isMethodText_iff`).
-/

namespace AnnotationGraft.Descriptor

variable {cs : List Char}

/-! ## Texts -/

/-- A segment of a name: some characters, none of which has a meaning of its own. -/
def IsSegment (cs : List Char) : Prop := cs ≠ [] ∧ ∀ c ∈ cs, c ∉ ['/', '.', ';', '[']

/-- A name: segments with a slash between each two. -/
inductive IsName : List Char → Prop
  /-- One segment is a name. -/
  | segment {cs : List Char} (h : IsSegment cs) : IsName cs
  /-- A segment and a slash may stand before a name. -/
  | slash {cs name : List Char} (h : IsSegment cs) (hname : IsName name) :
      IsName (cs ++ '/' :: name)

/-- What stands behind the brackets of a field type. -/
inductive IsElementText : List Char → Prop
  /-- The letter of a base type. -/
  | base {c : Char} (h : c ∈ ['B', 'C', 'D', 'F', 'I', 'J', 'S', 'Z']) : IsElementText [c]
  /-- A class by its name. -/
  | object {name : List Char} (h : IsName name) : IsElementText ('L' :: name ++ [';'])

/-- A field type: at most 255 brackets, and an element behind them. -/
inductive IsFieldText : List Char → Prop
  | brackets {dimensions : Nat} {element : List Char} (hmost : dimensions ≤ 255)
      (h : IsElementText element) : IsFieldText (List.replicate dimensions '[' ++ element)

/-- A result: a field type, or none. -/
def IsResultText (cs : List Char) : Prop := IsFieldText cs ∨ cs = ['V']

/-- A method type: field types in parentheses, and a result. -/
inductive IsMethodText : List Char → Prop
  | parentheses {parameters : List (List Char)} {result : List Char}
      (hparameters : ∀ p ∈ parameters, IsFieldText p) (hresult : IsResultText result) :
      IsMethodText ('(' :: parameters.flatten ++ ')' :: result)

/-! ## Names -/

theorem isSegment_iff : IsSegment cs ↔ isNameSegment cs = true ∧ '/' ∉ cs := by
  have hchars : (∀ c ∈ cs, c ∉ ['/', '.', ';', '[']) ↔
      (∀ c ∈ cs, c ≠ '.' ∧ c ≠ ';' ∧ c ≠ '[') ∧ '/' ∉ cs := by
    grind
  rw [IsSegment, hchars]
  simp [isNameSegment, and_assoc]

theorem isName_join {pieces : List (List Char)} (hne : pieces ≠ [])
    (h : ∀ piece ∈ pieces, IsSegment piece) : IsName (Text.join '/' pieces) := by
  induction pieces with
  | nil => exact absurd rfl hne
  | cons piece rest ih =>
    rw [List.forall_mem_cons] at h
    cases rest with
    | nil => exact .segment h.1
    | cons next rest => exact .slash h.1 (ih (List.cons_ne_nil next rest) h.2)

theorem isPlainClassName_iff : isPlainClassName cs = true ↔ IsName cs := by
  constructor
  · intro h
    rw [← Text.join_segments '/' cs]
    exact isName_join (Text.segments_ne_nil '/' cs) fun piece hpiece =>
      isSegment_iff.2 ⟨List.all_eq_true.1 h piece hpiece, Text.not_mem_of_mem_segments hpiece⟩
  · intro h
    induction h with
    | segment h =>
      obtain ⟨hsegment, hslash⟩ := isSegment_iff.1 h
      rw [isPlainClassName, Text.segments_of_not_mem hslash, List.all_cons, hsegment]
      rfl
    | slash h _ ih =>
      obtain ⟨hsegment, hslash⟩ := isSegment_iff.1 h
      rw [isPlainClassName, Text.segments_append_sep, Text.segments_of_not_mem hslash,
        List.singleton_append, List.all_cons, hsegment]
      exact ih

theorem IsName.not_mem {c : Char} (hc : c ∈ ['.', ';', '[']) (h : IsName cs) : c ∉ cs := by
  have hsegment : ∀ piece, IsSegment piece → c ∉ piece := fun piece hpiece hmem =>
    hpiece.2 c hmem (List.mem_cons_of_mem '/' hc)
  induction h with
  | segment h => exact hsegment _ h
  | slash h _ ih =>
    have hslash : c ≠ '/' := by
      rintro rfl
      exact absurd hc (by decide)
    simp [hsegment _ h, hslash, ih]

/-! ## Types as written -/

/-- An object descriptor holds what stands between its `L` and its `;`. -/
theorem objectNameText?_eq_some_iff {cs name : List Char} :
    objectNameText? cs = some name ↔ cs = 'L' :: (name ++ [';']) := by
  unfold objectNameText?
  split
  · next rest =>
    rw [List.cons.injEq, and_iff_right rfl]
    constructor
    · intro h
      split at h
      · next hlast =>
        rw [← Option.some.inj h, List.dropLast_append_getLast? _ hlast]
      · cases h
    · rintro rfl
      simp
  · next hne =>
    exact ⟨nofun, fun h => absurd h (hne _)⟩

theorem mem_letters_iff {c : Char} :
    c ∈ ['B', 'C', 'D', 'F', 'I', 'J', 'S', 'Z'] ↔ ∃ type : BaseType, type.letter = c := by
  have hletters : ['B', 'C', 'D', 'F', 'I', 'J', 'S', 'Z']
      = [BaseType.byte, .char, .double, .float, .int, .long, .short, .boolean].map
          BaseType.letter := rfl
  rw [hletters, List.mem_map]
  constructor
  · rintro ⟨type, -, hc⟩
    exact ⟨type, hc⟩
  · rintro ⟨type, hc⟩
    exact ⟨type, by cases type <;> decide, hc⟩

theorem isElementText_iff :
    IsElementText cs ↔ ∃ t : ElementType, t.isValid = true ∧ t.text = cs := by
  constructor
  · rintro (⟨hc⟩ | ⟨hname⟩)
    · obtain ⟨type, rfl⟩ := mem_letters_iff.1 hc
      exact ⟨.base type, rfl, rfl⟩
    · exact ⟨.object _, isPlainClassName_iff.2 hname, rfl⟩
  · rintro ⟨t, hvalid, rfl⟩
    cases t with
    | base type => exact .base (mem_letters_iff.2 ⟨type, rfl⟩)
    | object name => exact .object (isPlainClassName_iff.1 hvalid)

theorem isFieldText_iff : IsFieldText cs ↔ ∃ t : FieldType, t.isValid = true ∧ t.text = cs := by
  constructor
  · rintro ⟨hmost, h⟩
    obtain ⟨element, hvalid, rfl⟩ := isElementText_iff.1 h
    exact ⟨⟨_, element⟩, FieldType.isValid_iff.2 ⟨hmost, hvalid⟩, rfl⟩
  · rintro ⟨t, hvalid, rfl⟩
    obtain ⟨hmost, helement⟩ := FieldType.isValid_iff.1 hvalid
    exact .brackets hmost (isElementText_iff.2 ⟨t.element, helement, rfl⟩)

theorem isResultText_iff : IsResultText cs ↔
    ∃ result : Option FieldType, result.all FieldType.isValid = true
      ∧ MethodType.resultText result = cs := by
  constructor
  · rintro (h | rfl)
    · obtain ⟨t, hvalid, rfl⟩ := isFieldText_iff.1 h
      exact ⟨some t, hvalid, rfl⟩
    · exact ⟨none, rfl, rfl⟩
  · rintro ⟨result, hvalid, rfl⟩
    cases result with
    | none => exact .inr rfl
    | some t => exact .inl (isFieldText_iff.2 ⟨t, hvalid, rfl⟩)

/-- Texts of field types are valid types as written. -/
theorem exists_types_of_isFieldText {ps : List (List Char)} (h : ∀ p ∈ ps, IsFieldText p) :
    ∃ ts : List FieldType, ts.all FieldType.isValid = true ∧ ts.map FieldType.text = ps := by
  induction ps with
  | nil => exact ⟨[], rfl, rfl⟩
  | cons p ps ih =>
    rw [List.forall_mem_cons] at h
    obtain ⟨t, hvalid, rfl⟩ := isFieldText_iff.1 h.1
    obtain ⟨ts, hall, rfl⟩ := ih h.2
    exact ⟨t :: ts, by rw [List.all_cons, hvalid, hall]; rfl, rfl⟩

theorem isMethodText_iff :
    IsMethodText cs ↔ ∃ t : MethodType, t.isValid = true ∧ t.text = cs := by
  constructor
  · rintro ⟨hparameters, hresult⟩
    obtain ⟨parameters, hall, rfl⟩ := exists_types_of_isFieldText hparameters
    obtain ⟨result, hvalid, rfl⟩ := isResultText_iff.1 hresult
    refine ⟨⟨parameters, result⟩, MethodType.isValid_iff.2 ⟨hall, hvalid⟩, ?_⟩
    rw [MethodType.text, List.flatMap]
  · rintro ⟨t, hvalid, rfl⟩
    obtain ⟨hall, hresult⟩ := MethodType.isValid_iff.1 hvalid
    rw [MethodType.text, List.flatMap]
    refine .parentheses ?_ (isResultText_iff.2 ⟨t.result, hresult, rfl⟩)
    rw [List.forall_mem_map]
    exact fun p hp => isFieldText_iff.2 ⟨p, List.all_eq_true.1 hall p hp, rfl⟩

end AnnotationGraft.Descriptor
