import AnnotationGraft.Annotations.SourceForm
import AnnotationGraft.Graft.Transplant
import AnnotationGraft.Text.Json

/-!
# Inspection of a class

What the inspection of a class shows: the class with its annotations, and each member with its
annotations and with those of them that it would fuse onto its counterpart.  A view can be printed
as text or as JSON.
-/

namespace AnnotationGraft

/-- What an inspection shows of a member. -/
structure MemberView where
  kind : MemberKind
  signature : String
  annotations : List String
  /-- The annotations that the member would fuse onto its counterpart. -/
  fuses : List String
  deriving DecidableEq, Repr

/-- What an inspection shows of a class. -/
structure ClassView where
  className : String
  version : String
  superClass : Option String
  /-- The recipient that the class is a transplant for. -/
  transplantOf : Option String
  annotations : List String
  members : List MemberView
  deriving DecidableEq, Repr

namespace Settings

/-- Whether a member has the identity of one that the class asks to fuse. -/
def isFuseRequested (settings : Settings) (c : ClassFile) (m : Member) : Bool :=
  settings.isTransplant c && (settings.fuseMembers c).any fun r => r.id = m.id

/-- What an inspection shows of a member. -/
def viewMember (settings : Settings) (c : ClassFile) (m : Member) : MemberView where
  kind := m.id.kind
  signature := m.id.signature
  annotations := m.attributes.annotations.entries.map AnnotationUse.sourceForm
  fuses :=
    if settings.isFuseRequested c m then
      (settings.transplantable m).map AnnotationUse.sourceForm
    else []

/-- What an inspection shows of a class. -/
def inspect (settings : Settings) (c : ClassFile) : ClassView where
  className := c.name.sourceName
  version := toString c.version.major.toNat ++ "." ++ toString c.version.minor.toNat
  superClass := c.superName.map fun name => ClassName.sourceName ⟨name⟩
  transplantOf := (settings.recipientOf c).toOption.map ClassName.sourceName
  annotations := c.annotations.entries.map AnnotationUse.sourceForm
  members := c.members.map (settings.viewMember c)

end Settings

namespace MemberView

/-- The member as text, after an empty line. -/
def text (view : MemberView) : String :=
  "\n" ++ String.join (view.annotations.map fun a => "  " ++ a ++ "\n")
    ++ "  " ++ view.signature ++ "\n"
    ++ (if view.fuses.isEmpty then "" else "    fuses " ++ " ".intercalate view.fuses ++ "\n")

/-- The member as JSON; without anything to fuse there is no list of it. -/
def json (view : MemberView) : Json :=
  .object
    ([("kind", .string view.kind.word), ("signature", .string view.signature),
      ("annotations", .array (view.annotations.map .string))]
      ++ if view.fuses.isEmpty then [] else [("fuses", .array (view.fuses.map .string))])

end MemberView

namespace ClassView

/-- The class as text. -/
def text (view : ClassView) : String :=
  String.join (view.annotations.map fun a => a ++ "\n")
    ++ "class " ++ view.className
    ++ (match view.superClass with
      | some name => " extends " ++ name
      | none => "")
    ++ " (class file " ++ view.version ++ ")\n"
    ++ (match view.transplantOf with
      | some name => "  transplant of " ++ name ++ "\n"
      | none => "")
    ++ String.join (view.members.map MemberView.text)

/-- The class as JSON. -/
def json (view : ClassView) : Json :=
  .object [("class", .string view.className), ("version", .string view.version),
    ("super_class", .ofOption view.superClass), ("transplant_of", .ofOption view.transplantOf),
    ("annotations", .array (view.annotations.map .string)),
    ("members", .array (view.members.map MemberView.json))]

end ClassView

end AnnotationGraft
