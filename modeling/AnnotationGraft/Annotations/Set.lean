import AnnotationGraft.Annotations.Basic

/-!
# Annotation sets

The annotations of a class or of a member, in order.  A set is read as a map from kinds to
annotations: `get?` finds the annotation of a kind, `getThenInsert?` replaces it in its place or
adds one at the end, `getThenRemove?` takes it out.  Both also give back the annotation that has to
leave; `insert` and `remove` are the sets that they leave.  Sets built by these hold each kind once,
and every nested annotation with the retention of its holder.
-/

namespace AnnotationGraft

/-- The annotations of one element of a class, in order. -/
structure AnnotationSet where
  entries : List AnnotationUse
  deriving DecidableEq

namespace AnnotationSet

/-- The set without annotations. -/
def empty : AnnotationSet := ⟨[]⟩

instance : Inhabited AnnotationSet := ⟨empty⟩

/-- How many annotations there are. -/
def size (set : AnnotationSet) : Nat := set.entries.length

/-- Whether there are no annotations. -/
def isEmpty (set : AnnotationSet) : Bool := set.entries.isEmpty

/-- The kinds in order. -/
def kinds (set : AnnotationSet) : List String := set.entries.map (·.kind)

/-- The annotations of one retention, in order. -/
def withRetention (set : AnnotationSet) (r : Retention) : List AnnotationUse :=
  set.entries.filter fun a => a.retention = r

/-- The annotation of a kind. -/
def get? (set : AnnotationSet) (kind : String) : Option AnnotationUse :=
  set.entries.find? fun a => a.kind == kind

/-- Whether a kind occurs. -/
def contains (set : AnnotationSet) (kind : String) : Bool := (set.get? kind).isSome

/-- Where the annotation of a kind stands. -/
def position? (set : AnnotationSet) (kind : String) : Option Nat :=
  set.entries.findIdx? fun a => a.kind == kind

/-- Adds an annotation, normalized, in the place of the one of its kind, which is given back, or
else at the end. -/
def getThenInsert? (set : AnnotationSet) (a : AnnotationUse) :
    Option AnnotationUse × AnnotationSet :=
  match set.position? a.kind with
  | some i => (set.entries[i]?, ⟨set.entries.set i a.normalize⟩)
  | none => (none, ⟨set.entries ++ [a.normalize]⟩)

/-- Takes the annotation of a kind out and gives it back. -/
def getThenRemove? (set : AnnotationSet) (kind : String) : Option AnnotationUse × AnnotationSet :=
  match set.position? kind with
  | some i => (set.entries[i]?, ⟨set.entries.eraseIdx i⟩)
  | none => (none, set)

/-- The set that an insertion leaves. -/
def insert (set : AnnotationSet) (a : AnnotationUse) : AnnotationSet := (set.getThenInsert? a).2

/-- The set that a removal leaves. -/
def remove (set : AnnotationSet) (kind : String) : AnnotationSet := (set.getThenRemove? kind).2

theorem kind_of_get? {set : AnnotationSet} {kind : String} {a : AnnotationUse}
    (h : set.get? kind = some a) : a.kind = kind := by
  simpa using List.find?_some h

end AnnotationSet

end AnnotationGraft
