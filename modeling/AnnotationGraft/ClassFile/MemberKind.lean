/-!
# Kinds of members

A member of a class is a field or a method.
-/

namespace AnnotationGraft

/-- What a member of a class is. -/
inductive MemberKind where
  | field
  | method
  deriving DecidableEq, Repr

/-- The kind as messages write it. -/
def MemberKind.word : MemberKind → String
  | field => "field"
  | method => "method"

end AnnotationGraft
