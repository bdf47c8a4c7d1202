import AnnotationGraft.Graft.Transplant
import AnnotationGraft.Proofs.Descriptor.Grammar
import AnnotationGraft.Proofs.Graft.Mismatches

/-!
# What a transplant asks for

`Settings.Names` says which class a donor's recipient marker names, and `Settings.HasCounterparts`
that each fuse-marked member of a donor has exactly one counterpart in a recipient.  The first is
the condition under which a recipient is resolved (`Settings.recipientOf_eq_ok_iff`), and the second
the one under which the members are matched (`Settings.hasCounterparts_iff`).
-/

namespace AnnotationGraft

/-! ## The recipient -/

/-- An object descriptor holds a name between its `L` and its `;`. -/
theorem Descriptor.objectName?_eq_some_iff {d name : String} :
    objectName? d = some name ↔ d = "L" ++ name ++ ";" := by
  rw [objectName?, Option.map_eq_some_iff]
  constructor
  · rintro ⟨cs, hcs, rfl⟩
    rw [← String.toList_inj]
    simpa using objectNameText?_eq_some_iff.1 hcs
  · rintro rfl
    exact ⟨name.toList, objectNameText?_eq_some_iff.2 (by simp), by simp⟩

namespace Settings

variable {settings : Settings} {donor : ClassFile} {name : ClassName}

/-- The donor's recipient marker names a class. -/
def Names (settings : Settings) (donor : ClassFile) (name : ClassName) : Prop :=
  ∃ marker, donor.annotations.get? settings.recipientMarker = some marker
    ∧ marker.element? "value" = some (.classLiteral ("L" ++ name.internal ++ ";"))
    ∧ Descriptor.isClassName name.internal = true

theorem recipientOf_eq_ok_iff :
    settings.recipientOf donor = .ok name ↔ settings.Names donor name := by
  unfold recipientOf Names
  cases donor.annotations.get? settings.recipientMarker with
  | none => simp
  | some marker =>
    simp only [Option.some.injEq, exists_eq_left']
    unfold recipientOfValue
    split
    · next hnone => simp [hnone]
    · next d hliteral =>
      rw [hliteral, Option.some.injEq, ElementValue.classLiteral.injEq,
        ← Descriptor.objectName?_eq_some_iff]
      cases hobject : Descriptor.objectName? d with
      | none => simp
      | some internal =>
        by_cases hclass : Descriptor.isClassName internal = true
        · simp only [hclass, if_true, Except.ok.injEq, Option.some.injEq]
          constructor
          · rintro rfl
            exact ⟨rfl, hclass⟩
          · rintro ⟨rfl, -⟩
            rfl
        · simp only [hclass, Option.some.injEq]
          constructor
          · exact nofun
          · rintro ⟨rfl, hname⟩
            exact absurd hname hclass
    · next value hother hvalue =>
      constructor
      · exact nofun
      · rintro ⟨hliteral, -⟩
        rw [hvalue] at hliteral
        exact absurd (Option.some.inj hliteral) (hother _)

/-- The donor names one class at most. -/
theorem Names.unique (h : settings.Names donor name) {name' : ClassName}
    (h' : settings.Names donor name') : name = name' :=
  Except.ok.inj ((recipientOf_eq_ok_iff.2 h).symm.trans (recipientOf_eq_ok_iff.2 h'))

end Settings

/-! ## The members -/

namespace Settings

variable {settings : Settings} {donor recipient : ClassFile}

/-- Each fuse-marked member of the donor has exactly one counterpart in the recipient. -/
def HasCounterparts (settings : Settings) (donor recipient : ClassFile) : Prop :=
  ∀ d ∈ settings.fuseMembers donor, recipient.members.countP (fun m => m.id = d.id) = 1

theorem hasCounterparts_iff : settings.HasCounterparts donor recipient ↔
    ∃ pairs, recipient.matchAll (settings.fuseMembers donor) = .ok pairs :=
  ClassFile.exists_matchAll_iff.symm

end Settings

end AnnotationGraft
