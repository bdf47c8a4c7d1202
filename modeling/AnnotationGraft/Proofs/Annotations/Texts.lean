import AnnotationGraft.Proofs.Annotations.Wire
import AnnotationGraft.Proofs.ConstantPool.Segment
import AnnotationGraft.Proofs.Text.ShortestForm

/-!
# The texts of annotations

`AnnotationUse.texts` are the texts of an annotation: its kind, the names of its elements, and the
texts in their values.  Each of them is written as a string entry of the pool, if it fits in one.

What was read stood in such an entry, and is written no longer than it was read, so it fits
(`Scan.ensures_annotationAt_texts`).  `Interning.NeverTooLong` says of a computation that it gives
up on no text, and leaves no text in the pool that could not be written.  It is kept by everything
that writing is made of, so annotations whose texts fit are never found too long
(`Interning.neverTooLong_annotationUse`).
-/

namespace AnnotationGraft

/-! ## Texts -/

mutual

/-- The texts of a value. -/
def ElementValue.texts (x : ElementValue) : List String :=
  match x with
  | .string text => [text]
  | .enumConstant type name => [type, name]
  | .classLiteral d => [d]
  | .nested a => a.texts
  | .array vs => ElementValue.textsOfValues vs
  | _ => []
termination_by structural x

/-- The texts of values. -/
def ElementValue.textsOfValues (vs : List ElementValue) : List String :=
  match vs with
  | [] => []
  | v :: vs => v.texts ++ ElementValue.textsOfValues vs
termination_by structural vs

/-- The names of elements and the texts of their values. -/
def ElementValue.textsOfElements (es : List (String × ElementValue)) : List String :=
  match es with
  | [] => []
  | (name, v) :: es => name :: v.texts ++ ElementValue.textsOfElements es
termination_by structural es

/-- The texts of an annotation. -/
def AnnotationUse.texts (a : AnnotationUse) : List String :=
  match a with
  | ⟨kind, _, es⟩ => kind :: ElementValue.textsOfElements es
termination_by structural a

end

theorem ElementValue.mem_textsOfValues {vs : List ElementValue} {s : String} :
    s ∈ textsOfValues vs ↔ ∃ v ∈ vs, s ∈ v.texts := by
  induction vs with
  | nil => simp [textsOfValues]
  | cons v vs ih => simp [textsOfValues, ih]

theorem ElementValue.mem_textsOfElements {es : List (String × ElementValue)} {s : String} :
    s ∈ textsOfElements es ↔ ∃ e ∈ es, s = e.1 ∨ s ∈ e.2.texts := by
  induction es with
  | nil => simp [textsOfElements]
  | cons e es ih => simp [textsOfElements, ih, or_assoc]

/-- Whether a text is no longer than a string entry can hold. -/
def ModifiedUtf8.FitsEntry (s : String) : Prop := (encode s).length ≤ maxWord

open ModifiedUtf8 (FitsEntry)

/-- A text that was read fits where it was read from. -/
theorem ConstantPool.TextsFit.fitsEntry {pool : ConstantPool} (h : pool.TextsFit) {i : UInt16}
    {s : String} (hi : pool.utf8 i = .ok s) : FitsEntry s := by
  obtain ⟨bytes, hget, hdecode⟩ := utf8_eq_ok_iff.1 hi
  exact Nat.le_trans (ModifiedUtf8.length_encode_le_of_decode hdecode)
    (h bytes (mem_entries_of_get? hget))

/-! ## Texts that were read -/

namespace Scan

variable {pool : ConstantPool} {r : Retention}

theorem ensures_lookup_fits (hpool : pool.TextsFit) :
    Ensures (lookup pool.utf8) fun _ s => FitsEntry s := by
  refine ensures_lookup.mono ?_
  intro bytes s hs
  obtain ⟨i, -, hi⟩ := hs
  exact hpool.fitsEntry hi

theorem ensures_descriptor_fits (hpool : pool.TextsFit) {recognized : String → Bool} :
    Ensures (descriptor pool recognized) fun _ d => FitsEntry d := by
  refine ensures_descriptor.mono ?_
  intro bytes d hd
  obtain ⟨i, -, hi, -⟩ := hd
  exact hpool.fitsEntry hi

theorem ensures_annotationOf_texts (hpool : pool.TextsFit) {value : Scan ElementValue}
    (hvalue : Ensures value fun _ v => ∀ s ∈ v.texts, FitsEntry s) :
    Ensures (annotationOf pool r value) fun _ a => ∀ s ∈ a.texts, FitsEntry s := by
  refine (ensures_descriptor_fits hpool).bind ?_
  intro front kind hkind
  have helement : Ensures (lookup pool.utf8 >>= fun name => value >>= fun v => pure (name, v))
      fun _ e => FitsEntry e.1 ∧ ∀ s ∈ e.2.texts, FitsEntry s := by
    refine (ensures_lookup_fits hpool).bind ?_
    intro front name hname
    exact hvalue.map fun _ v hv => ⟨hname, hv⟩
  refine (ensures_table_forall helement).map ?_
  intro back es hes s hs
  rcases List.mem_cons.1 hs with rfl | hs
  · exact hkind
  · obtain ⟨e, he, hs⟩ := ElementValue.mem_textsOfElements.1 hs
    rcases hs with rfl | hs
    · exact (hes e he).1
    · exact (hes e he).2 s hs

/-- The texts of a value that was read fit. -/
theorem ensures_elementValue_texts (hpool : pool.TextsFit) (levels : Nat) :
    Ensures (elementValue pool r levels) fun _ v => ∀ s ∈ v.texts, FitsEntry s := by
  have hnumber : ∀ {α : Type} {find : UInt16 → Except DecodeError α} {g : α → ElementValue},
      (∀ a, (g a).texts = []) →
      Ensures (lookup find >>= fun a => pure (g a)) fun _ v => ∀ s ∈ v.texts, FitsEntry s := by
    intro α find g hg
    refine ensures_lookup.map ?_
    intro bytes a _ s hs
    rw [hg] at hs
    cases hs
  induction levels with
  | zero => exact ensures_throw _ _
  | succ levels ih =>
    refine ensures_byte.bind ?_
    intro front tag _
    split
    case h_1 | h_2 | h_3 | h_4 | h_5 | h_6 | h_7 | h_8 => exact hnumber fun _ => rfl
    case h_9 =>
      refine (ensures_lookup_fits hpool).map ?_
      intro bytes text htext s hs
      rwa [List.mem_singleton.1 hs]
    case h_10 =>
      refine (ensures_descriptor_fits hpool).bind ?_
      intro bytes type htype
      refine (ensures_lookup_fits hpool).map ?_
      intro bytes name hname s hs
      rcases List.mem_pair.1 hs with rfl | rfl
      · exact htype
      · exact hname
    case h_11 =>
      refine (ensures_descriptor_fits hpool).map ?_
      intro bytes d hd s hs
      rwa [List.mem_singleton.1 hs]
    case h_12 => exact (ensures_annotationOf_texts hpool ih).map fun _ a ha => ha
    case h_13 =>
      refine (ensures_table_forall ih).map ?_
      intro bytes vs hvs s hs
      obtain ⟨v, hv, hs⟩ := ElementValue.mem_textsOfValues.1 hs
      exact hvs v hv s hs
    case h_14 => exact ensures_throw _ _

/-- The texts of an annotation that was read fit. -/
theorem ensures_annotationAt_texts (hpool : pool.TextsFit) (depth : Nat) :
    Ensures (annotationAt pool r depth) fun _ a => ∀ s ∈ a.texts, FitsEntry s :=
  ensures_annotationOf_texts hpool (ensures_elementValue_texts hpool _)

end Scan

/-! ## Texts that are written -/

namespace Interning

variable {α β : Type}

/-- The computation gives up on no text, and what it leaves in the pool fits. -/
structure NeverTooLong (e : Interning α) : Prop where
  error_ne : ∀ {p q : ConstantPool} {err : EncodeError}, e p = .error err q →
    ∀ size, err ≠ .stringTooLong size
  textsFit : ∀ {p q : ConstantPool} {a : α}, e p = .ok a q → p.TextsFit → q.TextsFit

theorem neverTooLong_pure (a : α) : NeverTooLong (pure a : Interning α) where
  error_ne h := by cases h
  textsFit h hp := by cases h; exact hp

theorem neverTooLong_ofExcept {x : Except EncodeError α}
    (h : ∀ size, x ≠ .error (.stringTooLong size)) :
    NeverTooLong (MonadExcept.ofExcept x : Interning α) := by
  cases x with
  | error e =>
    refine ⟨fun hrun size => ?_, nofun⟩
    cases hrun
    exact fun heq => h size (congrArg Except.error heq)
  | ok a => exact neverTooLong_pure a

theorem NeverTooLong.bind {x : Interning α} {f : α → Interning β} (hx : x.NeverTooLong)
    (hf : ∀ a, (f a).NeverTooLong) : (x >>= f).NeverTooLong where
  error_ne h := by
    rcases bind_eq_error_iff.1 h with hxrun | ⟨a, mid, -, hfrun⟩
    · exact hx.error_ne hxrun
    · exact (hf a).error_ne hfrun
  textsFit h hp := by
    obtain ⟨a, mid, hxrun, hfrun⟩ := bind_eq_ok_iff.1 h
    exact (hf a).textsFit hfrun (hx.textsFit hxrun hp)

theorem NeverTooLong.map {x : Interning α} (hx : x.NeverTooLong) (g : α → β) :
    (x >>= fun a => pure (g a)).NeverTooLong :=
  hx.bind fun a => neverTooLong_pure (g a)

theorem NeverTooLong.mapM {f : α → Interning β} {as : List α}
    (h : ∀ a ∈ as, (f a).NeverTooLong) : (as.mapM f).NeverTooLong := by
  induction as with
  | nil => exact neverTooLong_pure []
  | cons a as ih =>
    rw [List.mapM_cons]
    refine (h a List.mem_cons_self).bind fun b => ?_
    exact (ih fun a' ha' => h a' (List.mem_cons_of_mem a ha')).map (b :: ·)

theorem neverTooLong_constant {c : Constant} (hc : c.Fits) : (constant c).NeverTooLong where
  error_ne h := by
    unfold constant at h
    split at h
    · cases h
    · simp only at h
      split at h
      · cases h
        exact nofun
      · cases h
  textsFit h hp := by
    rcases constant_eq_ok_iff.1 h with ⟨_, _, _, rfl⟩ | ⟨_, _, _, rfl⟩
    · exact hp
    · rw [ConstantPool.textsFit_iff, ConstantPool.entries_push, List.map_append]
      intro d hd
      rcases List.mem_append.1 hd with hold | hnew
      · exact ConstantPool.textsFit_iff.1 hp d hold
      · rw [List.mem_singleton.1 hnew]
        exact hc

theorem neverTooLong_utf8 {s : String} (hs : FitsEntry s) : (utf8 s).NeverTooLong := by
  unfold utf8
  simp only
  rw [if_neg (Nat.not_lt.2 hs)]
  refine neverTooLong_constant fun bytes hbytes => ?_
  cases hbytes
  exact hs

theorem neverTooLong_className {name : String} (h : FitsEntry name) :
    (className name).NeverTooLong :=
  (neverTooLong_utf8 h).bind fun _ => neverTooLong_constant nofun

theorem neverTooLong_reference {index : Interning UInt16} (h : index.NeverTooLong) :
    (reference index).NeverTooLong :=
  h.map _

theorem neverTooLong_count (table : TableKind) (items : Nat) :
    (count table items).NeverTooLong := by
  refine (neverTooLong_ofExcept fun size => ?_).map _
  unfold tableCount
  split <;> exact nofun

/-- A value and an annotation whose texts fit are never found too long. -/
theorem neverTooLong_values :
    (∀ v : ElementValue, (∀ s ∈ v.texts, FitsEntry s) → (elementValue v).NeverTooLong) ∧
      ∀ a : AnnotationUse, (∀ s ∈ a.texts, FitsEntry s) → (annotationUse a).NeverTooLong := by
  apply nested_induction
  case plain =>
    intro v hplain hv
    cases v with
    | byte _ | char _ | int _ | short _ | boolean _ | long _ | float _ | double _ =>
      rw [elementValue]
      refine (neverTooLong_reference (neverTooLong_constant fun text h => ?_)).map _
      cases h
    | string text =>
      rw [elementValue]
      have htext : text ∈ (ElementValue.string text).texts := by simp [ElementValue.texts]
      exact (neverTooLong_reference (neverTooLong_utf8 (hv text htext))).map _
    | enumConstant type name =>
      have htype : FitsEntry type := hv type (by simp [ElementValue.texts])
      have hname : FitsEntry name := hv name (by simp [ElementValue.texts])
      rw [elementValue]
      refine (neverTooLong_reference (neverTooLong_utf8 htype)).bind fun _ => ?_
      exact (neverTooLong_reference (neverTooLong_utf8 hname)).map _
    | classLiteral d =>
      rw [elementValue]
      exact (neverTooLong_reference (neverTooLong_utf8 (hv d (by simp [ElementValue.texts])))).map _
    | nested _ | array _ => cases hplain
  case nested =>
    intro a ih ha
    rw [elementValue]
    exact (ih ha).map _
  case array =>
    intro vs ih hvs
    rw [elementValue, elementValuesAfter_eq]
    refine (neverTooLong_count _ _).bind fun _ => ?_
    refine ((NeverTooLong.mapM fun v hv => ih v hv fun s hs => ?_).map _).map _
    exact hvs s (ElementValue.mem_textsOfValues.2 ⟨v, hv, hs⟩)
  case use =>
    intro kind r es ih ha
    have hkind : FitsEntry kind := ha kind (by simp [AnnotationUse.texts])
    have hes : ∀ e ∈ es, FitsEntry e.1 ∧ ∀ s ∈ e.2.texts, FitsEntry s := by
      intro e he
      have hmem : ∀ s, s = e.1 ∨ s ∈ e.2.texts → FitsEntry s := fun s hs =>
        ha s (List.mem_cons_of_mem _ (ElementValue.mem_textsOfElements.2 ⟨e, he, hs⟩))
      exact ⟨hmem _ (.inl rfl), fun s hs => hmem s (.inr hs)⟩
    rw [annotationUse, elementsAfter_eq]
    refine (neverTooLong_reference (neverTooLong_utf8 hkind)).bind fun _ => ?_
    refine (neverTooLong_count _ _).bind fun _ => ?_
    refine ((NeverTooLong.mapM fun e he => ?_).map _).map _
    refine (neverTooLong_reference (neverTooLong_utf8 (hes e he).1)).bind fun _ => ?_
    exact (ih e he (hes e he).2).map _

theorem neverTooLong_annotationUse {a : AnnotationUse} (h : ∀ s ∈ a.texts, FitsEntry s) :
    (annotationUse a).NeverTooLong :=
  neverTooLong_values.2 a h

end Interning

end AnnotationGraft
