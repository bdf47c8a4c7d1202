import AnnotationGraft.Annotations.Describe
import AnnotationGraft.ClassFile.Basic
import AnnotationGraft.Graft.Settings

/-!
# Transplants

A class is a transplant when its recipient marker names a class.  The request of a transplant says
which class it is to be grafted onto, which of its members carry the fuse marker, and whether the
class itself does.
-/

namespace AnnotationGraft

/-- Why a class is not a transplant.  Such a class is passed over, not rejected. -/
inductive NotTransplant where
  | missingMarker (marker : String)
  /-- The marker has no element of the name that it needs. -/
  | missingValue
  /-- The marker's value is not a class literal. -/
  | notLiteral (value : ElementValue)
  /-- The marker's value is the literal of something other than a class with a proper name. -/
  | notClass (descriptor : String)
  deriving DecidableEq

namespace NotTransplant

/-- What was found in the place of a recipient, or which marker was not found. -/
def detail : NotTransplant → String
  | missingMarker marker => marker
  | missingValue => "missing value"
  | notLiteral value => value.describe
  | notClass descriptor => descriptor

/-- The reason in words. -/
def message : NotTransplant → String
  | missingMarker marker => "no " ++ marker ++ " annotation"
  | reason => "recipient marker value is not a class literal: " ++ reason.detail

end NotTransplant

/-- The class that the value of a recipient marker names. -/
def recipientOfValue : Option ElementValue → Except NotTransplant ClassName
  | none => .error .missingValue
  | some (.classLiteral d) =>
    match Descriptor.objectName? d with
    | some name => if Descriptor.isClassName name then .ok ⟨name⟩ else .error (.notClass d)
    | none => .error (.notClass d)
  | some value => .error (.notLiteral value)

/-- What a transplant asks for. -/
structure GraftRequest where
  recipient : ClassName
  /-- The members to be fused, in the order of their declaration. -/
  members : List Member
  /-- Whether the annotations of the class are to be fused as well. -/
  classLevel : Bool
  deriving DecidableEq

namespace Settings

/-- The class that a transplant is to be grafted onto. -/
def recipientOf (settings : Settings) (donor : ClassFile) : Except NotTransplant ClassName :=
  match donor.annotations.get? settings.recipientMarker with
  | none => .error (.missingMarker settings.recipientMarker)
  | some marker => recipientOfValue (marker.element? "value")

/-- Whether a class is a transplant. -/
def isTransplant (settings : Settings) (donor : ClassFile) : Bool :=
  match settings.recipientOf donor with
  | .ok _ => true
  | .error _ => false

/-- The members that carry the fuse marker, in the order of their declaration. -/
def fuseMembers (settings : Settings) (donor : ClassFile) : List Member :=
  donor.members.filter fun m => m.attributes.annotations.contains settings.fuseMarker

/-- Whether the class itself carries the fuse marker. -/
def fusesClass (settings : Settings) (donor : ClassFile) : Bool :=
  donor.annotations.contains settings.fuseMarker

/-- What a class asks for, if it is a transplant. -/
def request (settings : Settings) (donor : ClassFile) : Except NotTransplant GraftRequest := do
  let recipient ← settings.recipientOf donor
  return ⟨recipient, settings.fuseMembers donor, settings.fusesClass donor⟩

/-- The annotations of a donor's member that fusing it copies. -/
def transplantable (settings : Settings) (m : Member) : List AnnotationUse :=
  m.attributes.annotations.entries.filter fun a => a.kind != settings.fuseMarker

end Settings

end AnnotationGraft
