import AnnotationGraft.Proofs.Annotations.Wire

/-!
# How deep values are read

Reading a value counts the levels on the way down, through arrays and through the annotations in it.
`ElementValue.atDepths` lists a value and all that is in it, each with its depth.  A value that was
written is read back if none of these lies deeper than `maxDepth`; if one does, reading fails with
`DecodeError.nestingTooDeep`, and with nothing else (`Scan.elementValueAt_of_elementValue`).

The pool from which a value is read may have grown since the value was written.
-/

namespace AnnotationGraft

/-! ## The values in a value -/

mutual

/-- The value and the values in it, with their depths, where the value itself stands at `depth`. -/
def ElementValue.atDepths (depth : Nat) (x : ElementValue) : List (Nat × ElementValue) :=
  match x with
  | .nested a => (depth, .nested a) :: a.atDepths (depth + 1)
  | .array vs => (depth, .array vs) :: ElementValue.valuesAtDepths (depth + 1) vs
  | v => [(depth, v)]
termination_by structural x

/-- Values that stand at `depth` and the values in them, with their depths. -/
def ElementValue.valuesAtDepths (depth : Nat) (vs : List ElementValue) :
    List (Nat × ElementValue) :=
  match vs with
  | [] => []
  | v :: vs => v.atDepths depth ++ ElementValue.valuesAtDepths depth vs
termination_by structural vs

/-- The values of elements, which stand at `depth`, and the values in them, with their depths. -/
def ElementValue.elementsAtDepths (depth : Nat) (es : List (String × ElementValue)) :
    List (Nat × ElementValue) :=
  match es with
  | [] => []
  | (_, v) :: es => v.atDepths depth ++ ElementValue.elementsAtDepths depth es
termination_by structural es

/-- The values in an annotation with their depths, where those of its elements stand at `depth`. -/
def AnnotationUse.atDepths (depth : Nat) (a : AnnotationUse) : List (Nat × ElementValue) :=
  match a with
  | ⟨_, _, es⟩ => ElementValue.elementsAtDepths depth es
termination_by structural a

end

variable {r : Retention} {depth : Nat}

theorem ElementValue.atDepths_of_isPlain {v : ElementValue} (h : v.isPlain = true) :
    v.atDepths depth = [(depth, v)] := by
  cases v <;> first | rfl | cases h

theorem ElementValue.forall_atDepths_array {vs : List ElementValue}
    {P : Nat × ElementValue → Prop} : (∀ x ∈ (array vs).atDepths depth, P x) ↔
      P (depth, array vs) ∧ ∀ v ∈ vs, ∀ x ∈ v.atDepths (depth + 1), P x := by
  have hvalues : valuesAtDepths (depth + 1) vs = vs.flatMap (atDepths (depth + 1)) := by
    induction vs with
    | nil => rfl
    | cons v vs ih => rw [valuesAtDepths, ih, List.flatMap_cons]
  rw [atDepths, List.forall_mem_cons, hvalues, List.forall_mem_flatMap]

theorem ElementValue.forall_atDepths_nested {a : AnnotationUse} {P : Nat × ElementValue → Prop} :
    (∀ x ∈ (nested a).atDepths depth, P x) ↔
      P (depth, nested a) ∧ ∀ x ∈ a.atDepths (depth + 1), P x := by
  rw [atDepths, List.forall_mem_cons]

theorem AnnotationUse.forall_atDepths {a : AnnotationUse} {P : Nat × ElementValue → Prop} :
    (∀ x ∈ a.atDepths depth, P x) ↔ ∀ e ∈ a.elements, ∀ x ∈ e.2.atDepths depth, P x := by
  have helements : ∀ es : List (String × ElementValue), ElementValue.elementsAtDepths depth es
      = es.flatMap fun e => e.2.atDepths depth := by
    intro es
    induction es with
    | nil => rfl
    | cons e es ih => rw [ElementValue.elementsAtDepths, ih, List.flatMap_cons]
  obtain ⟨kind, s, es⟩ := a
  rw [atDepths, helements, List.forall_mem_flatMap]

/-- The descriptor of the value itself, if it has one, is of the form that it has to be, and if it
is an annotation, it has retention `r`. -/
def ElementValue.IsProper (r : Retention) : ElementValue → Prop
  | .enumConstant type _ => Descriptor.isObjectType type = true
  | .classLiteral d => Descriptor.isResultType d = true
  | .nested a => a.retention = r ∧ Descriptor.isObjectType a.kind = true
  | _ => True

instance (r : Retention) : DecidablePred (ElementValue.IsProper r)
  | .enumConstant type _ => inferInstanceAs (Decidable (Descriptor.isObjectType type = true))
  | .classLiteral d => inferInstanceAs (Decidable (Descriptor.isResultType d = true))
  | .nested a =>
    inferInstanceAs (Decidable (a.retention = r ∧ Descriptor.isObjectType a.kind = true))
  | .byte _ | .char _ | .int _ | .short _ | .boolean _ | .long _ | .float _ | .double _
  | .string _ | .array _ => isTrue trivial

/-- A value may stand at a depth if it and all in it is proper and lies no deeper than allowed. -/
theorem isWellFormed_iff_atDepths :
    (∀ v : ElementValue, ∀ depth, v.isWellFormed r depth = true ↔
        ∀ x ∈ v.atDepths depth, x.1 ≤ maxDepth ∧ x.2.IsProper r) ∧
      ∀ a : AnnotationUse, ∀ depth, a.isWellFormed r depth = true ↔
        a.retention = r ∧ Descriptor.isObjectType a.kind = true
          ∧ ∀ x ∈ a.atDepths depth, x.1 ≤ maxDepth ∧ x.2.IsProper r := by
  apply nested_induction
  case plain =>
    intro v hplain depth
    rw [ElementValue.atDepths_of_isPlain hplain, List.forall_mem_singleton]
    cases v with
    | nested _ | array _ => cases hplain
    | _ => simp [ElementValue.isWellFormed, ElementValue.IsProper]
  case nested =>
    intro a ih depth
    rw [ElementValue.isWellFormed_nested, ElementValue.forall_atDepths_nested, ih,
      ElementValue.IsProper, and_assoc, and_assoc]
  case array =>
    intro vs ih depth
    rw [ElementValue.isWellFormed_array, ElementValue.forall_atDepths_array]
    simp only [ElementValue.IsProper, and_true]
    exact and_congr_right fun _ => forall₂_congr fun v hv => ih v hv (depth + 1)
  case use =>
    intro kind s es ih depth
    rw [AnnotationUse.isWellFormed_iff, AnnotationUse.forall_atDepths]
    exact and_congr_right fun _ => and_congr_right fun _ =>
      forall₂_congr fun e he => ih e he depth

namespace Scan

variable {pool : ConstantPool}

/-! ## Values that lie too deep -/

theorem elementValueAt_of_lt (h : maxDepth < depth) :
    elementValueAt pool r depth = throw (.nestingTooDeep maxDepth) := by
  rw [elementValueAt, Nat.sub_eq_zero_of_le h, elementValue]

/-- A proper value that was written is read back if nothing in it lies too deep. -/
theorem reads_elementValueAt (hsize : pool.size ≤ maxWord) {v : ElementValue} {bytes : Bytes}
    (hproper : ∀ x ∈ v.atDepths depth, x.2.IsProper r)
    (hdepths : ∀ x ∈ v.atDepths depth, x.1 ≤ maxDepth)
    (h : (Interning.elementValue v).Gives pool bytes) :
    Reads (elementValueAt pool r depth) bytes v := by
  have hwf : v.isWellFormed r depth = true :=
    (isWellFormed_iff_atDepths.1 v depth).2 fun x hx => ⟨hdepths x hx, hproper x hx⟩
  have hdepth := ElementValue.depth_le_of_isWellFormed hwf
  exact (reads_values hsize).1 v depth _ bytes (by omega) hwf h

/-- A level that is allowed leaves one level less to what is below. -/
theorem elementValueAt_of_le (h : depth ≤ maxDepth) :
    elementValueAt pool r depth = elementValue pool r (maxDepth + 1 - (depth + 1) + 1) := by
  rw [elementValueAt]
  congr 1
  omega

/-- Reading a proper value or annotation that was written fails if something in it lies too deep. -/
theorem fails_values (hsize : pool.size ≤ maxWord) :
    (∀ v : ElementValue, ∀ depth bytes, (∀ x ∈ v.atDepths depth, x.2.IsProper r) →
        (¬ ∀ x ∈ v.atDepths depth, x.1 ≤ maxDepth) →
        (Interning.elementValue v).Gives pool bytes →
        Fails (elementValueAt pool r depth) bytes (.nestingTooDeep maxDepth)) ∧
      ∀ a : AnnotationUse, ∀ depth bytes, Descriptor.isObjectType a.kind = true →
        (∀ x ∈ a.atDepths depth, x.2.IsProper r) → (¬ ∀ x ∈ a.atDepths depth, x.1 ≤ maxDepth) →
        (Interning.annotationUse a).Gives pool bytes →
        Fails (annotationAt pool r depth) bytes (.nestingTooDeep maxDepth) := by
  apply nested_induction
  case plain =>
    intro v hplain depth bytes _ hdeep _
    rw [ElementValue.atDepths_of_isPlain hplain, List.forall_mem_singleton, Nat.not_le] at hdeep
    rw [elementValueAt_of_lt hdeep]
    exact fails_throw _ _
  case nested =>
    intro a ih depth bytes hproper hdeep h
    rw [ElementValue.forall_atDepths_nested] at hproper hdeep
    rcases Nat.lt_or_ge maxDepth depth with hlt | hle
    · rw [elementValueAt_of_lt hlt]
      exact fails_throw _ _
    · obtain ⟨⟨-, hkind⟩, hinner⟩ := hproper
      obtain ⟨use, huse, rfl⟩ := Interning.gives_nested_iff.1 h
      have huseDeep := ih (depth + 1) use hkind hinner (fun hfits => hdeep ⟨hle, hfits⟩) huse
      rw [elementValueAt_of_le hle]
      exact (reads_byte _).bind_fails (huseDeep.map _)
  case array =>
    intro vs ih depth bytes hproper hdeep h
    rw [ElementValue.forall_atDepths_array] at hproper hdeep
    rcases Nat.lt_or_ge maxDepth depth with hlt | hle
    · rw [elementValueAt_of_lt hlt]
      exact fails_throw _ _
    · obtain ⟨-, hinner⟩ := hproper
      obtain ⟨hfits, parts, hparts, rfl⟩ := Interning.gives_array_iff.1 h
      have hvalues := fails_table (forall₂_of_gives hparts fun v hv part hpart =>
        ⟨fun hall => reads_elementValueAt hsize (hinner v hv) hall hpart,
          fun hsome => ih v hv (depth + 1) part (hinner v hv) hsome hpart⟩)
        (fun hall => hdeep ⟨hle, hall⟩) hfits
      rw [elementValueAt_of_le hle, List.cons_append]
      exact (reads_byte _).bind_fails (hvalues.map _)
  case use =>
    intro kind s es ih depth bytes hkind hproper hdeep h
    rw [AnnotationUse.forall_atDepths] at hproper hdeep
    obtain ⟨i, hi, hfits, parts, hparts, rfl⟩ := Interning.gives_annotationUse_iff.1 h
    rw [List.append_assoc]
    refine (reads_descriptor (Interning.utf8_of_gives hsize hi) hkind).bind_fails ?_
    refine (fails_table (forall₂_of_gives hparts fun e he part hpart => ?_) hdeep hfits).map _
    obtain ⟨j, value, hj, hvalue, rfl⟩ := Interning.gives_element_iff.1 hpart
    have hname := reads_lookup (Interning.utf8_of_gives hsize hj)
    refine ⟨fun hall => hname.bind ?_, fun hdeep => hname.bind_fails ?_⟩
    · exact (reads_elementValueAt hsize (hproper e he) hall hvalue).map fun v => (e.1, v)
    · exact (ih e he depth value (hproper e he) hdeep hvalue).map _

/-! ## The limit -/

/-- A proper value that was written is read back from any pool that begins with the one that writing
has left, if nothing in it lies too deep from the depth at which it stands; otherwise it is refused
for this reason. -/
theorem elementValueAt_of_elementValue {pool written larger : ConstantPool} {v : ElementValue}
    {bytes : Bytes} (hproper : ∀ x ∈ v.atDepths depth, x.2.IsProper r)
    (hwrite : Interning.elementValue v pool = .ok bytes written)
    (hextends : larger.Extends written) (hsize : larger.size ≤ maxWord) (rest : Bytes) (n : Nat) :
    elementValueAt larger r depth ⟨bytes ++ rest, n⟩ =
      if ∀ x ∈ v.atDepths depth, x.1 ≤ maxDepth then .ok (v, ⟨rest, n + bytes.length⟩)
      else .error (.nestingTooDeep maxDepth) := by
  have hgives : (Interning.elementValue v).Gives larger bytes :=
    (Interning.settles_elementValue v).again hwrite hextends
  split
  · next hfits => exact reads_elementValueAt hsize hproper hfits hgives rest n
  · next hdeep => exact (fails_values hsize).1 v depth bytes hproper hdeep hgives rest n

/-- An array with an enum constant and an annotation without elements. -/
def constantAndUse : ElementValue := .array [.enumConstant "LE;" "x", .nested ⟨"LA;", .visible, []⟩]

/-- What becomes of an empty pool when the array is written. -/
def constantAndUsePool : ConstantPool :=
  ⟨#[none, some (.utf8 [76, 69, 59]), some (.utf8 [120]), some (.utf8 [76, 65, 59])]⟩

/-- The array as it is written. -/
def constantAndUseBytes : Bytes := [91, 0, 2, 101, 0, 1, 0, 2, 64, 0, 3, 0, 0]

/-- When the pool has got a further entry, the array is read back at depth 63.  At depth 64 only the
array itself may be read, and what is in it is refused. -/
theorem elementValueAt_constantAndUse :
    elementValueAt (constantAndUsePool.push (.long 5)) .visible 63
        ⟨constantAndUseBytes ++ [7], 0⟩ = .ok (constantAndUse, ⟨[7], 13⟩)
      ∧ elementValueAt (constantAndUsePool.push (.long 5)) .visible 64
        ⟨constantAndUseBytes ++ [7], 0⟩ = .error (.nestingTooDeep 64) := by
  have hwrite : Interning.elementValue constantAndUse .empty
      = .ok constantAndUseBytes constantAndUsePool := by
    have hboth : (match Interning.elementValue constantAndUse .empty with
        | .ok found pool => some (found, pool)
        | .error _ _ => none) = some (constantAndUseBytes, constantAndUsePool) := by
      decide +kernel
    split at hboth
    · next heq =>
      cases hboth
      exact heq
    · cases hboth
  have hextends := ConstantPool.extends_push constantAndUsePool (.long 5)
  have hsize : (constantAndUsePool.push (.long 5)).size ≤ maxWord := by decide
  have hshallow : ∀ x ∈ constantAndUse.atDepths 63, x.2.IsProper .visible := by decide +kernel
  have hdeep : ∀ x ∈ constantAndUse.atDepths 64, x.2.IsProper .visible := by decide +kernel
  refine ⟨(elementValueAt_of_elementValue hshallow hwrite hextends hsize [7] 0).trans ?_,
    (elementValueAt_of_elementValue hdeep hwrite hextends hsize [7] 0).trans ?_⟩
  · exact if_pos (by decide +kernel)
  · exact if_neg (by decide +kernel)

end Scan

end AnnotationGraft
