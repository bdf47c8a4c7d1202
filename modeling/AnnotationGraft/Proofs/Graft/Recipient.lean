import AnnotationGraft.Proofs.ClassFile.RoundTrip
import AnnotationGraft.Proofs.Descriptor.Reading
import AnnotationGraft.Proofs.Graft.Grafting
import AnnotationGraft.Proofs.Graft.Transplant

/-!
# The literals that name a recipient

A recipient should be named by the literal of an object type.  What decides is instead the text
between the `L` and the `;` of the literal, which has to name a class, and an array type names a
class as well.  So a literal such as `L[I;`, which is no type at all, makes the array `[I` a
recipient.

`Settings.ResolvesObjects` is what should hold of a donor.  It holds exactly when the donor's
literal does not hold an array type, and so of every donor that was read from a file
(`Settings.resolvesObjects_iff`).
-/

namespace AnnotationGraft

/-! ## Object types -/

namespace Descriptor

/-- A descriptor of the form `L…;` with an array type in the place of the name. -/
def HoldsArray (d : String) : Prop :=
  ∃ name : String, d = "L" ++ name ++ ";" ∧ name.toList.head? = some '['
    ∧ isFieldType name = true

/-- A field type that begins with an `L` has a name up to its last character. -/
theorem IsFieldText.exists_isName {cs : List Char} (h : IsFieldText cs)
    (hletter : cs.head? = some 'L') : ∃ name, IsName name ∧ cs = 'L' :: (name ++ [';']) := by
  obtain ⟨-, helement⟩ := h
  next dimensions element =>
  cases dimensions with
  | succ dimensions => simp [List.replicate_succ] at hletter
  | zero =>
    cases helement with
    | base hbase =>
      obtain rfl : _ = 'L' := by simpa using hletter
      exact absurd hbase (by decide)
    | object hname => exact ⟨_, hname, rfl⟩

theorem isObjectType_iff {d : String} : isObjectType d = true ↔
    ∃ name : String, IsName name.toList ∧ d = "L" ++ name ++ ";" := by
  have htext : ∀ name : String, ("L" ++ name ++ ";").toList = 'L' :: (name.toList ++ [';']) :=
    fun name => by simp
  constructor
  · intro h
    unfold isObjectType at h
    split at h
    · next rest hd =>
      have hfield : IsFieldText d.toList := isFieldTypeText_iff.1 h
      obtain ⟨name, hname, hshape⟩ := hfield.exists_isName (by rw [hd]; rfl)
      refine ⟨String.ofList name, by rwa [String.toList_ofList], ?_⟩
      rw [← String.toList_inj, htext, String.toList_ofList, hshape]
    · cases h
  · rintro ⟨name, hname, rfl⟩
    have hfield : IsFieldText ("L" ++ name ++ ";").toList := by
      rw [htext]
      exact .brackets (Nat.zero_le 255) (.object hname)
    unfold isObjectType
    rw [htext]
    exact isFieldTypeText_iff.2 hfield

/-- The text of an object type determines its name. -/
theorem isObjectType_object_iff {name : String} :
    isObjectType ("L" ++ name ++ ";") = true ↔ IsName name.toList := by
  rw [isObjectType_iff]
  constructor
  · rintro ⟨name', hname', heq⟩
    have hsame := objectName?_eq_some_iff.2 heq
    rw [objectName?_eq_some_iff.2 rfl, Option.some.injEq] at hsame
    rwa [hsame]
  · exact fun h => ⟨name, h, rfl⟩

/-- A name is not an array type. -/
theorem IsName.head?_ne {cs : List Char} (h : IsName cs) : cs.head? ≠ some '[' := fun hhead =>
  h.not_mem (by decide) (List.mem_of_mem_head? hhead)

/-- A class is named by a name, or by an array type. -/
theorem isClassName_iff {name : String} : isClassName name = true ↔
    IsName name.toList ∨ name.toList.head? = some '[' ∧ isFieldType name = true := by
  unfold isClassName
  split
  · next rest harray =>
    have hhead : name.toList.head? = some '[' := by rw [harray]; rfl
    have hname : ¬ IsName name.toList := fun h => h.head?_ne hhead
    simp [hhead, hname]
  · next hother =>
    have hhead : name.toList.head? ≠ some '[' := fun h => by
      obtain ⟨rest, harray⟩ := List.head?_eq_some_iff.1 h
      exact hother rest harray
    simp [isPlainClassName_iff, hhead]

/-- A result type does not hold an array type in the place of a name. -/
theorem not_holdsArray_of_isResultType {d : String} (h : isResultType d = true) :
    ¬ HoldsArray d := by
  rintro ⟨name, rfl, hhead, -⟩
  have hobject : isObjectType ("L" ++ name ++ ";") = true := by
    rcases Bool.or_eq_true_iff.1 h with hvoid | hfield
    · have hletter := congrArg String.toList (beq_iff_eq.1 hvoid)
      simp at hletter
    · simpa [isObjectType] using hfield
  exact (isObjectType_object_iff.1 hobject).head?_ne hhead

end Descriptor

/-! ## The literal of a donor -/

namespace Settings

variable {settings : Settings} {donor : ClassFile} {name : ClassName} {d : String}

/-- The value of the donor's recipient marker is the class literal of a descriptor. -/
def HasLiteral (settings : Settings) (donor : ClassFile) (d : String) : Prop :=
  ∃ marker, donor.annotations.get? settings.recipientMarker = some marker
    ∧ marker.element? "value" = some (.classLiteral d)

/-- The donor names a class by a literal of the form `L…;`. -/
theorem names_iff : settings.Names donor name ↔
    settings.HasLiteral donor ("L" ++ name.internal ++ ";")
      ∧ Descriptor.isClassName name.internal = true := by
  simp only [Names, HasLiteral, exists_and_right, ← and_assoc]

/-- A literal either names a class between its `L` and its `;`, or it is refused. -/
theorem HasLiteral.recipientOf_cases (h : settings.HasLiteral donor d) :
    (∃ name : ClassName, d = "L" ++ name.internal ++ ";"
        ∧ Descriptor.isClassName name.internal = true
        ∧ settings.recipientOf donor = .ok name)
      ∨ settings.recipientOf donor = .error (.notClass d) := by
  obtain ⟨marker, hmarker, hvalue⟩ := h
  have heq : settings.recipientOf donor = recipientOfValue (some (.classLiteral d)) := by
    rw [recipientOf, hmarker, ← hvalue]
  rw [heq, recipientOfValue]
  split
  · next name hname =>
    split
    · next hclass => exact .inl ⟨⟨name⟩, Descriptor.objectName?_eq_some_iff.1 hname, hclass, rfl⟩
    · exact .inr rfl
  · exact .inr rfl

/-- The literal of a donor that was read is a result type. -/
theorem HasLiteral.isResultType_of_decode {bytes : Bytes} (h : settings.HasLiteral donor d)
    (hdecode : ClassFile.decode bytes = .ok donor) : Descriptor.isResultType d = true := by
  obtain ⟨⟨kind, r, elements⟩, hmarker, hvalue⟩ := h
  obtain ⟨element, helement, hliteral⟩ := Option.map_eq_some_iff.1 hvalue
  have hwf := (ClassFile.isWellFormed_of_decode hdecode).1.attributes.annotations.entries _
    (AnnotationSet.mem_of_get? hmarker)
  have hvalueWf := (AnnotationUse.isWellFormed_iff.1 hwf).2.2 element
    (List.mem_of_find?_eq_some helement)
  rw [hliteral, ElementValue.isWellFormed, Bool.and_eq_true] at hvalueWf
  exact hvalueWf.2

/-! ## Resolving recipients -/

/-- A donor's recipient is resolved exactly from the literal of an object type. -/
structure ResolvesObjects (settings : Settings) (donor : ClassFile) : Prop where
  /-- The recipient is what the literal of an object type holds between its `L` and its `;`. -/
  resolved : ∀ name, settings.recipientOf donor = .ok name ↔
    ∃ d, settings.HasLiteral donor d ∧ Descriptor.isObjectType d = true
      ∧ d = "L" ++ name.internal ++ ";"
  /-- No array is a recipient. -/
  notArray : ∀ name, settings.recipientOf donor = .ok name → name.internal.toList.head? ≠ some '['
  /-- The literal of anything else is refused, and the refusal tells it. -/
  refused : ∀ d, settings.HasLiteral donor d → Descriptor.isObjectType d = false →
    settings.recipientOf donor = .error (.notClass d)

/-- A literal that holds an array type makes the array a recipient. -/
theorem HasLiteral.recipientOf_of_isFieldType {name : String}
    (h : settings.HasLiteral donor ("L" ++ name ++ ";")) (hhead : name.toList.head? = some '[')
    (hfield : Descriptor.isFieldType name = true) :
    settings.recipientOf donor = .ok ⟨name⟩ :=
  recipientOf_eq_ok_iff.2 (names_iff.2 ⟨h, Descriptor.isClassName_iff.2 (.inr ⟨hhead, hfield⟩)⟩)

/-- Where the literal does not hold an array type, what it names is a name. -/
theorem isName_of_recipientOf (h : settings.recipientOf donor = .ok name)
    (hliteral : ∀ d, settings.HasLiteral donor d → ¬ Descriptor.HoldsArray d) :
    Descriptor.IsName name.internal.toList := by
  obtain ⟨hnamed, hclass⟩ := names_iff.1 (recipientOf_eq_ok_iff.1 h)
  rcases Descriptor.isClassName_iff.1 hclass with hname | ⟨hhead, hfield⟩
  · exact hname
  · exact absurd ⟨_, rfl, hhead, hfield⟩ (hliteral _ hnamed)

theorem resolvesObjects_of_not_holdsArray
    (hliteral : ∀ d, settings.HasLiteral donor d → ¬ Descriptor.HoldsArray d) :
    settings.ResolvesObjects donor where
  resolved name := by
    constructor
    · intro h
      obtain ⟨hnamed, -⟩ := names_iff.1 (recipientOf_eq_ok_iff.1 h)
      exact ⟨_, hnamed,
        Descriptor.isObjectType_object_iff.2 (isName_of_recipientOf h hliteral), rfl⟩
    · rintro ⟨d, hd, hobject, rfl⟩
      have hname := Descriptor.isObjectType_object_iff.1 hobject
      exact recipientOf_eq_ok_iff.2 (names_iff.2 ⟨hd, Descriptor.isClassName_iff.2 (.inl hname)⟩)
  notArray name h := (isName_of_recipientOf h hliteral).head?_ne
  refused d hd hobject := by
    rcases hd.recipientOf_cases with ⟨name, rfl, -, hname⟩ | hrefused
    · have hname := Descriptor.isObjectType_object_iff.2 (isName_of_recipientOf hname hliteral)
      rw [hname] at hobject
      cases hobject
    · exact hrefused

/-- A donor's recipient is resolved exactly from the literal of an object type if and only if the
donor's literal does not hold an array type; one that does makes the array a recipient.  In a donor
that was read no literal does. -/
theorem resolvesObjects_iff (settings : Settings) (donor : ClassFile) :
    (settings.ResolvesObjects donor ↔
        ∀ d, settings.HasLiteral donor d → ¬ Descriptor.HoldsArray d)
      ∧ (∀ name : String, settings.HasLiteral donor ("L" ++ name ++ ";") →
        name.toList.head? = some '[' → Descriptor.isFieldType name = true →
        settings.recipientOf donor = .ok ⟨name⟩)
      ∧ ∀ bytes, ClassFile.decode bytes = .ok donor → settings.ResolvesObjects donor := by
  refine ⟨⟨?_, resolvesObjects_of_not_holdsArray⟩,
    fun name h hhead hfield => h.recipientOf_of_isFieldType hhead hfield, fun bytes hdecode => ?_⟩
  · rintro hresolves _ hd ⟨name, rfl, hhead, hfield⟩
    exact hresolves.notArray _ (hd.recipientOf_of_isFieldType hhead hfield) hhead
  · exact resolvesObjects_of_not_holdsArray fun d hd =>
      Descriptor.not_holdsArray_of_isResultType (hd.isResultType_of_decode hdecode)

/-- A class whose recipient marker has the literal `L[I;`. -/
def arrayLiteral (settings : Settings) : ClassFile :=
  { ClassFile.new ⟨"A"⟩ with
    attributes := ⟨AnnotationSet.empty.insert
      ⟨settings.recipientMarker, .visible, [("value", .classLiteral "L[I;")]⟩, []⟩ }

/-- The recipient marker of any settings has that literal. -/
theorem hasLiteral_arrayLiteral (settings : Settings) :
    settings.HasLiteral settings.arrayLiteral "L[I;" :=
  ⟨_, (AnnotationSet.get?_insert ..).trans (if_pos rfl), rfl⟩

/-- The literal `L[I;` makes the array `[I` a recipient; the literal of a class that was read does
what it should. -/
theorem resolvesObjects_markedField :
    (shortMarkers.HasLiteral shortMarkers.arrayLiteral "L[I;"
        ∧ Descriptor.isObjectType "L[I;" = false
        ∧ shortMarkers.recipientOf shortMarkers.arrayLiteral = .ok ⟨"[I"⟩)
      ∧ ∃ donor, ClassFile.decode markedField = .ok donor
        ∧ shortMarkers.HasLiteral donor "LR;" ∧ shortMarkers.ResolvesObjects donor := by
  obtain ⟨-, hholding, -⟩ := resolvesObjects_iff shortMarkers shortMarkers.arrayLiteral
  have hliteral := hasLiteral_arrayLiteral shortMarkers
  obtain ⟨donor, recipient, hdonor, hrecipient, hgrafts⟩ :=
    outcome_graft_eq_encoded_iff.1 graft_plainField
  obtain ⟨-, -, hread⟩ := resolvesObjects_iff shortMarkers donor
  have hnamed := (names_iff.1 (recipientOf_eq_ok_iff.1 hgrafts.asked)).1
  exact ⟨⟨hliteral, by decide +kernel, hholding "[I" hliteral rfl (by decide +kernel)⟩,
    donor, hdonor, hnamed, hread _ hdonor⟩

/-- An array becomes a recipient, and this through a literal that is not of an object type. -/
theorem not_forall_resolvesObjects :
    ¬ ∀ (settings : Settings) (donor : ClassFile), settings.validate = .ok () →
      settings.ResolvesObjects donor := by
  intro h
  have hresolved : ({} : Settings).recipientOf ({} : Settings).arrayLiteral = .ok ⟨"[I"⟩ := by
    decide +kernel
  exact (h {} _ (by decide +kernel)).notArray _ hresolved rfl

end Settings

end AnnotationGraft
