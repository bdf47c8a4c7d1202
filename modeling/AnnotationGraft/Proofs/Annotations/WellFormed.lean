import AnnotationGraft.Annotations.Wire
import AnnotationGraft.Proofs.Annotations.Set

/-!
# Well-formed annotations

An annotation is well-formed when everything in it can be read back: its kind, the kinds of the
annotations in it and its enum types are object descriptors, its class literals are result
descriptors, every annotation in it has the retention of the whole, and no value lies deeper than
`maxDepth`.  A set is well-formed when its annotations are and no kind occurs twice.

A well-formed annotation is its own normal form, so that putting it into a set does not change it.
-/

namespace AnnotationGraft

/-! ## Induction -/

/-- Whether a value holds no other values. -/
def ElementValue.isPlain : ElementValue → Bool
  | .nested _ | .array _ => false
  | _ => true

section Induction

variable {P : ElementValue → Prop} {Q : AnnotationUse → Prop}

mutual

private theorem ElementValue.holds_aux (plain : ∀ v, v.isPlain = true → P v)
    (nested : ∀ a, Q a → P (.nested a)) (array : ∀ vs, (∀ v ∈ vs, P v) → P (.array vs))
    (use : ∀ kind r es, (∀ e ∈ es, P e.2) → Q ⟨kind, r, es⟩) (v : ElementValue) : P v := by
  cases v with
  | nested a => exact nested a (AnnotationUse.holds_aux plain nested array use a)
  | array vs => exact array vs (ElementValue.holdsOfAll_aux plain nested array use vs)
  | _ => exact plain _ rfl

private theorem ElementValue.holdsOfAll_aux (plain : ∀ v, v.isPlain = true → P v)
    (nested : ∀ a, Q a → P (.nested a)) (array : ∀ vs, (∀ v ∈ vs, P v) → P (.array vs))
    (use : ∀ kind r es, (∀ e ∈ es, P e.2) → Q ⟨kind, r, es⟩) (vs : List ElementValue) :
    ∀ v ∈ vs, P v := by
  match vs with
  | [] => exact nofun
  | w :: ws =>
    exact List.forall_mem_cons.2 ⟨ElementValue.holds_aux plain nested array use w,
      ElementValue.holdsOfAll_aux plain nested array use ws⟩

private theorem ElementValue.holdsOfElements_aux (plain : ∀ v, v.isPlain = true → P v)
    (nested : ∀ a, Q a → P (.nested a)) (array : ∀ vs, (∀ v ∈ vs, P v) → P (.array vs))
    (use : ∀ kind r es, (∀ e ∈ es, P e.2) → Q ⟨kind, r, es⟩)
    (es : List (String × ElementValue)) : ∀ e ∈ es, P e.2 := by
  match es with
  | [] => exact nofun
  | (name, w) :: ws =>
    exact List.forall_mem_cons.2 ⟨ElementValue.holds_aux plain nested array use w,
      ElementValue.holdsOfElements_aux plain nested array use ws⟩

private theorem AnnotationUse.holds_aux (plain : ∀ v, v.isPlain = true → P v)
    (nested : ∀ a, Q a → P (.nested a)) (array : ∀ vs, (∀ v ∈ vs, P v) → P (.array vs))
    (use : ∀ kind r es, (∀ e ∈ es, P e.2) → Q ⟨kind, r, es⟩) (a : AnnotationUse) : Q a := by
  match a with
  | ⟨kind, r, es⟩ =>
    exact use kind r es (ElementValue.holdsOfElements_aux plain nested array use es)

end

/-- Induction over values and the annotations in them. -/
theorem nested_induction (plain : ∀ v, v.isPlain = true → P v) (nested : ∀ a, Q a → P (.nested a))
    (array : ∀ vs, (∀ v ∈ vs, P v) → P (.array vs))
    (use : ∀ kind r es, (∀ e ∈ es, P e.2) → Q ⟨kind, r, es⟩) : (∀ v, P v) ∧ ∀ a, Q a :=
  ⟨ElementValue.holds_aux plain nested array use, AnnotationUse.holds_aux plain nested array use⟩

end Induction

/-! ## Well-formedness -/

mutual

/-- Whether a value may stand at a depth of an annotation of retention `r`. -/
def ElementValue.isWellFormed (r : Retention) (depth : Nat) (x : ElementValue) : Bool :=
  match x with
  | .enumConstant type _ => depth ≤ maxDepth && Descriptor.isObjectType type
  | .classLiteral d => depth ≤ maxDepth && Descriptor.isResultType d
  | .nested a => depth ≤ maxDepth && a.isWellFormed r (depth + 1)
  | .array vs => depth ≤ maxDepth && ElementValue.areWellFormed r (depth + 1) vs
  | _ => depth ≤ maxDepth
termination_by structural x

/-- Whether all values may stand at a depth. -/
def ElementValue.areWellFormed (r : Retention) (depth : Nat) (vs : List ElementValue) : Bool :=
  match vs with
  | [] => true
  | v :: vs => v.isWellFormed r depth && ElementValue.areWellFormed r depth vs
termination_by structural vs

/-- Whether the values of all elements may stand at a depth. -/
def ElementValue.elementsWellFormed (r : Retention) (depth : Nat)
    (es : List (String × ElementValue)) : Bool :=
  match es with
  | [] => true
  | (_, v) :: es => v.isWellFormed r depth && ElementValue.elementsWellFormed r depth es
termination_by structural es

/-- Whether an annotation has retention `r` and is well-formed, when its values stand at a depth. -/
def AnnotationUse.isWellFormed (r : Retention) (depth : Nat) (a : AnnotationUse) : Bool :=
  match a with
  | ⟨kind, s, es⟩ =>
    s = r && Descriptor.isObjectType kind && ElementValue.elementsWellFormed r depth es
termination_by structural a

end

variable {r : Retention} {depth : Nat}

theorem ElementValue.areWellFormed_iff {vs : List ElementValue} :
    areWellFormed r depth vs = true ↔ ∀ v ∈ vs, v.isWellFormed r depth = true := by
  induction vs with
  | nil => simp [areWellFormed]
  | cons v vs ih => simp [areWellFormed, ih]

theorem ElementValue.elementsWellFormed_iff {es : List (String × ElementValue)} :
    elementsWellFormed r depth es = true ↔ ∀ e ∈ es, e.2.isWellFormed r depth = true := by
  induction es with
  | nil => simp [elementsWellFormed]
  | cons e es ih => simp [elementsWellFormed, ih]

theorem ElementValue.isWellFormed_nested {a : AnnotationUse} :
    (nested a).isWellFormed r depth = true ↔
      depth ≤ maxDepth ∧ a.isWellFormed r (depth + 1) = true := by
  simp [isWellFormed]

theorem ElementValue.isWellFormed_array {vs : List ElementValue} :
    (array vs).isWellFormed r depth = true ↔
      depth ≤ maxDepth ∧ ∀ v ∈ vs, v.isWellFormed r (depth + 1) = true := by
  simp [isWellFormed, areWellFormed_iff]

theorem ElementValue.depth_le_of_isWellFormed {v : ElementValue}
    (h : v.isWellFormed r depth = true) : depth ≤ maxDepth := by
  cases v <;> simp_all [isWellFormed]

theorem AnnotationUse.isWellFormed_iff {kind : String} {s : Retention}
    {es : List (String × ElementValue)} :
    (AnnotationUse.mk kind s es).isWellFormed r depth = true ↔
      s = r ∧ Descriptor.isObjectType kind = true
        ∧ ∀ e ∈ es, e.2.isWellFormed r depth = true := by
  simp [isWellFormed, ElementValue.elementsWellFormed_iff, and_assoc]

theorem AnnotationUse.retention_of_isWellFormed {a : AnnotationUse}
    (h : a.isWellFormed r depth = true) : a.retention = r := by
  cases a
  exact (isWellFormed_iff.1 h).1

/-! ## Normal form -/

theorem ElementValue.valuesWithRetention_eq_map (vs : List ElementValue) :
    valuesWithRetention r vs = vs.map (·.withRetention r) := by
  induction vs with
  | nil => rfl
  | cons v vs ih => rw [valuesWithRetention, ih, List.map_cons]

theorem ElementValue.elementsWithRetention_eq_map (es : List (String × ElementValue)) :
    elementsWithRetention r es = es.map fun e => (e.1, e.2.withRetention r) := by
  induction es with
  | nil => rfl
  | cons e es ih => rw [elementsWithRetention, ih, List.map_cons]

theorem ElementValue.withRetention_of_isPlain {v : ElementValue} (h : v.isPlain = true) :
    v.withRetention r = v := by
  cases v <;> first | rfl | cases h

/-- What is well-formed for a retention already has that retention everywhere. -/
theorem withRetention_of_isWellFormed :
    (∀ v : ElementValue, ∀ depth, v.isWellFormed r depth = true → v.withRetention r = v) ∧
      ∀ a : AnnotationUse, ∀ depth, a.isWellFormed r depth = true → a.withRetention r = a := by
  apply nested_induction
  case plain =>
    intro v hplain depth _
    exact ElementValue.withRetention_of_isPlain hplain
  case nested =>
    intro a ih depth h
    rw [ElementValue.withRetention, ih _ (ElementValue.isWellFormed_nested.1 h).2]
  case array =>
    intro vs ih depth h
    have hvs := (ElementValue.isWellFormed_array.1 h).2
    rw [ElementValue.withRetention, ElementValue.valuesWithRetention_eq_map,
      List.map_congr_left fun v hv => ih v hv _ (hvs v hv), List.map_id']
  case use =>
    intro kind s es ih depth h
    obtain ⟨rfl, -, hes⟩ := AnnotationUse.isWellFormed_iff.1 h
    rw [AnnotationUse.withRetention, ElementValue.elementsWithRetention_eq_map,
      List.map_congr_left (g := id) fun e he => by rw [ih e he _ (hes e he)]; rfl, List.map_id]

/-- A well-formed annotation is its own normal form. -/
theorem AnnotationUse.normalize_of_isWellFormed {a : AnnotationUse}
    (h : a.isWellFormed r depth = true) : a.normalize = a := by
  rw [normalize, retention_of_isWellFormed h]
  exact withRetention_of_isWellFormed.2 a depth h

namespace AnnotationSet

/-- Every annotation is well-formed, and no kind occurs twice. -/
structure IsWellFormed (set : AnnotationSet) : Prop where
  kinds_nodup : set.kinds.Nodup
  entries : ∀ a ∈ set.entries, a.isWellFormed a.retention 0 = true

theorem isWellFormed_empty : empty.IsWellFormed := ⟨List.nodup_nil, nofun⟩

theorem IsWellFormed.of_perm {s t : AnnotationSet} (hs : s.IsWellFormed)
    (h : s.entries.Perm t.entries) : t.IsWellFormed where
  kinds_nodup := (kinds_perm h).nodup_iff.1 hs.kinds_nodup
  entries a ha := hs.entries a (h.mem_iff.2 ha)

/-- Inserting a well-formed annotation keeps a set well-formed. -/
theorem IsWellFormed.insert {s : AnnotationSet} (hs : s.IsWellFormed) {a : AnnotationUse}
    (ha : a.isWellFormed a.retention 0 = true) : (s.insert a).IsWellFormed where
  kinds_nodup := nodup_kinds_insert hs.kinds_nodup a
  entries b hb := by
    rcases mem_entries_insert hb with rfl | hb
    · rwa [AnnotationUse.normalize_of_isWellFormed ha]
    · exact hs.entries b hb

end AnnotationSet

end AnnotationGraft
