import AnnotationGraft.Annotations.Set
import AnnotationGraft.ClassFile.Basic

/-!
# Merging annotation sets

The annotations of a donor are put into those of a recipient one by one.  An annotation of a kind
that is there already takes its place; one of another kind follows the others.  The report says of
each whether it was added, replaced a different one, or was there already.
-/

namespace AnnotationGraft

/-- What annotations are put on. -/
inductive FusionTarget where
  | wholeClass
  | member (id : MemberId)
  deriving DecidableEq, Repr

/-- The target in words. -/
def FusionTarget.text : FusionTarget → String
  | wholeClass => "class"
  | member id => id.text

/-- A kind of annotation on a target. -/
structure FusedKind where
  target : FusionTarget
  kind : String
  deriving DecidableEq, Repr

/-- What fusing changed, in the order in which it was done. -/
structure FusionReport where
  added : List FusedKind
  overwritten : List FusedKind
  unchanged : List FusedKind
  deriving DecidableEq, Repr

namespace FusionReport

/-- The report of nothing done. -/
def empty : FusionReport := ⟨[], [], []⟩

/-- Whether nothing was changed. -/
def isNoop (report : FusionReport) : Bool := report.added.isEmpty && report.overwritten.isEmpty

/-- The kinds that were added. -/
def addedKinds (report : FusionReport) : List String := report.added.map (·.kind)

/-- The kinds that replaced a different annotation. -/
def overwrittenKinds (report : FusionReport) : List String := report.overwritten.map (·.kind)

/-- One report after another. -/
def append (first second : FusionReport) : FusionReport where
  added := first.added ++ second.added
  overwritten := first.overwritten ++ second.overwritten
  unchanged := first.unchanged ++ second.unchanged

instance : Append FusionReport := ⟨append⟩

end FusionReport

/-- What putting one annotation into a set does. -/
inductive InsertEffect where
  | added
  | overwritten
  | unchanged
  deriving DecidableEq, Repr

namespace AnnotationSet

/-- What inserting an annotation will do. -/
def insertEffect (set : AnnotationSet) (a : AnnotationUse) : InsertEffect :=
  match set.get? a.kind with
  | none => .added
  | some previous => if previous = a then .unchanged else .overwritten

/-- Inserts an annotation and notes the effect before those already noted. -/
def mergeStep (state : AnnotationSet × List (InsertEffect × String)) (a : AnnotationUse) :
    AnnotationSet × List (InsertEffect × String) :=
  (state.1.insert a, (state.1.insertEffect a, a.kind) :: state.2)

/-- The kinds with an effect, on a target. -/
def withEffect (effects : List (InsertEffect × String)) (effect : InsertEffect)
    (target : FusionTarget) : List FusedKind :=
  (effects.filter fun e => e.1 = effect).map fun e => ⟨target, e.2⟩

/-- Puts the annotations of `donor`, less those of the kinds in `excluded`, into a set. -/
def merge (before donor : AnnotationSet) (excluded : List String) (target : FusionTarget) :
    AnnotationSet × FusionReport :=
  let copied := donor.entries.filter fun a => a.kind ∉ excluded
  let (merged, reversed) := copied.foldl mergeStep (before, [])
  let effects := reversed.reverse
  (merged,
    { added := withEffect effects .added target
      overwritten := withEffect effects .overwritten target
      unchanged := withEffect effects .unchanged target })

end AnnotationSet

end AnnotationGraft
