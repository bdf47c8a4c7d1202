import AnnotationGraft.Graft.Matching
import AnnotationGraft.Graft.Merge
import AnnotationGraft.Graft.Transplant

/-!
# Fusing members

The annotations of a donor's members are put on their counterparts in the recipient, and, if asked
for, those of the class on the class; the markers themselves are left out.  `Fusing` threads the
recipient through these steps.  A step that fails leaves the recipient as the steps before it have
made it.
-/

namespace AnnotationGraft

/-- A member that was to be fused onto a position at which there is no member of its identity. -/
structure FusionFault where
  member : MemberId
  index : Nat
  deriving DecidableEq, Repr

/-- The fault in words. -/
def FusionFault.message (fault : FusionFault) : String :=
  fault.member.text ++ " cannot be fused onto recipient member #" ++ toString fault.index

/-- A computation that changes the recipient. -/
abbrev Fusing (α : Type) := EStateM FusionFault ClassFile α

/-- The member with other annotations. -/
def Member.withAnnotations (m : Member) (set : AnnotationSet) : Member :=
  { m with attributes := { m.attributes with annotations := set } }

/-- The class with other annotations on itself. -/
def ClassFile.withAnnotations (c : ClassFile) (set : AnnotationSet) : ClassFile :=
  { c with attributes := { c.attributes with annotations := set } }

namespace Settings

/-- Puts the annotations of a donor's member on the recipient's member at a position. -/
def fuse (settings : Settings) (pair : Pairing) : Fusing FusionReport := fun recipient =>
  match recipient.members[pair.index]? with
  | none => .error ⟨pair.donor.id, pair.index⟩ recipient
  | some target =>
    if target.id = pair.donor.id then
      let (merged, report) := target.attributes.annotations.merge
        pair.donor.attributes.annotations [settings.fuseMarker] (.member target.id)
      .ok report
        { recipient with
          members := recipient.members.set pair.index (target.withAnnotations merged) }
    else .error ⟨pair.donor.id, pair.index⟩ recipient

/-- Puts the annotations of the donor class on the recipient class. -/
def fuseClass (settings : Settings) (donor : ClassFile) : Fusing FusionReport := fun recipient =>
  let (merged, report) := recipient.annotations.merge donor.annotations
    [settings.fuseMarker, settings.recipientMarker] .wholeClass
  .ok report (recipient.withAnnotations merged)

/-- Fuses members in order, after what was done already. -/
def fuseAll (settings : Settings) (done : FusionReport) : List Pairing → Fusing FusionReport
  | [] => return done
  | pair :: pairs => do
    let report ← settings.fuse pair
    settings.fuseAll (done ++ report) pairs

/-- Fuses the class, if asked for, and then the members in order. -/
def applyFusion (settings : Settings) (donor : ClassFile) (pairs : List Pairing)
    (classLevel : Bool) : Fusing FusionReport := do
  let onClass ← if classLevel then settings.fuseClass donor else pure .empty
  settings.fuseAll onClass pairs

end Settings

end AnnotationGraft
