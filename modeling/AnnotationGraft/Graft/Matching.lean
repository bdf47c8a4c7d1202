import AnnotationGraft.ClassFile.Basic

/-!
# Matching members

A member of a donor belongs to the one member of the recipient that has the same identity.  Members
that have no such counterpart, or more than one, are all reported together.
-/

namespace AnnotationGraft

/-- A member without exactly one counterpart. -/
inductive Mismatch where
  | unmatched (member : MemberId)
  | ambiguous (member : MemberId) (candidates : Nat)
  deriving DecidableEq, Repr

namespace Mismatch

/-- The member that was to be matched. -/
def member : Mismatch → MemberId
  | unmatched m => m
  | ambiguous m _ => m

/-- The mismatch in words. -/
def message : Mismatch → String
  | unmatched m => m.text ++ " has no match"
  | ambiguous m candidates => m.text ++ " matches " ++ toString candidates ++ " members"

end Mismatch

/-- A member of a donor with the position of its counterpart among the recipient's members. -/
structure Pairing where
  donor : Member
  index : Nat
  deriving DecidableEq

namespace ClassFile

/-- The positions of the members with an identity. -/
def positionsOf (c : ClassFile) (id : MemberId) : List Nat :=
  (c.members.zipIdx.filter fun m => m.1.id = id).map (·.2)

/-- The position of the one member with an identity. -/
def matchMember (recipient : ClassFile) (id : MemberId) : Except Mismatch Nat :=
  match recipient.positionsOf id with
  | [] => .error (.unmatched id)
  | [index] => .ok index
  | positions => .error (.ambiguous id positions.length)

/-- Pairs every requested member with its counterpart. -/
def matchAll (recipient : ClassFile) : List Member → Except (List Mismatch) (List Pairing)
  | [] => .ok []
  | m :: ms =>
    match recipient.matchMember m.id, recipient.matchAll ms with
    | .ok index, .ok pairs => .ok (⟨m, index⟩ :: pairs)
    | .ok _, .error mismatches => .error mismatches
    | .error mismatch, .ok _ => .error [mismatch]
    | .error mismatch, .error mismatches => .error (mismatch :: mismatches)

end ClassFile

end AnnotationGraft
