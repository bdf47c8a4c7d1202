import AnnotationGraft.Proofs.Annotations.WellFormed

/-!
# Annotations in normal form

An annotation may hold others, in its elements and in theirs, directly and in arrays; `inner` lists
them all.  In normal form they have the retention of the whole.  `AnnotationUse.normalize` gives an
annotation its normal form: it keeps everything but the retentions of those it holds, and no other
annotation does so (`hasNormalForm_iff`).

A set is normal when no kind occurs twice and its annotations are in normal form.  That is all that
maps and merges need of a set; it asks less than `AnnotationSet.IsWellFormed`, which is about what
can be read back from a file.
-/

namespace AnnotationGraft

/-! ## The annotations in an annotation -/

mutual

/-- The annotations in a value, at every depth. -/
def ElementValue.inner (x : ElementValue) : List AnnotationUse :=
  match x with
  | .nested a => a :: a.inner
  | .array vs => ElementValue.innerOfValues vs
  | _ => []
termination_by structural x

/-- The annotations in several values, at every depth. -/
def ElementValue.innerOfValues (vs : List ElementValue) : List AnnotationUse :=
  match vs with
  | [] => []
  | v :: vs => v.inner ++ ElementValue.innerOfValues vs
termination_by structural vs

/-- The annotations in the values of several elements, at every depth. -/
def ElementValue.innerOfElements (es : List (String × ElementValue)) : List AnnotationUse :=
  match es with
  | [] => []
  | (_, v) :: es => v.inner ++ ElementValue.innerOfElements es
termination_by structural es

/-- The annotations in an annotation, at every depth. -/
def AnnotationUse.inner (a : AnnotationUse) : List AnnotationUse :=
  match a with
  | ⟨_, _, es⟩ => ElementValue.innerOfElements es
termination_by structural a

end

theorem ElementValue.inner_of_isPlain {v : ElementValue} (h : v.isPlain = true) :
    v.inner = [] := by
  cases v <;> first | rfl | cases h

theorem ElementValue.innerOfValues_eq_flatMap (vs : List ElementValue) :
    innerOfValues vs = vs.flatMap inner := by
  induction vs with
  | nil => rfl
  | cons v vs ih => rw [innerOfValues, ih, List.flatMap_cons]

theorem AnnotationUse.inner_eq_flatMap (a : AnnotationUse) :
    a.inner = a.elements.flatMap fun e => e.2.inner := by
  have helements : ∀ es : List (String × ElementValue),
      ElementValue.innerOfElements es = es.flatMap fun e => e.2.inner := by
    intro es
    induction es with
    | nil => rfl
    | cons e es ih => rw [ElementValue.innerOfElements, ih, List.flatMap_cons]
  cases a
  exact helements _

/-- Every annotation in the value has the retention. -/
def ElementValue.HasRetention (r : Retention) (v : ElementValue) : Prop :=
  ∀ b ∈ v.inner, b.retention = r

theorem ElementValue.hasRetention_nested {r : Retention} {a : AnnotationUse} :
    (nested a).HasRetention r ↔ a.retention = r ∧ ∀ b ∈ a.inner, b.retention = r := by
  rw [HasRetention, inner, List.forall_mem_cons]

theorem ElementValue.hasRetention_array {r : Retention} {vs : List ElementValue} :
    (array vs).HasRetention r ↔ ∀ v ∈ vs, v.HasRetention r := by
  rw [HasRetention, inner, innerOfValues_eq_flatMap]
  exact List.forall_mem_flatMap

theorem AnnotationUse.forall_mem_inner_iff {r : Retention} {a : AnnotationUse} :
    (∀ b ∈ a.inner, b.retention = r) ↔ ∀ e ∈ a.elements, e.2.HasRetention r := by
  rw [inner_eq_flatMap]
  exact List.forall_mem_flatMap

/-! ## The same but for retentions -/

mutual

/-- Values that are the same but for the retentions of the annotations in them. -/
inductive ElementValue.Alike : ElementValue → ElementValue → Prop
  | plain {v : ElementValue} (hv : v.isPlain = true) : v.Alike v
  | nested {a b : AnnotationUse} (h : a.Alike b) : (ElementValue.nested a).Alike (.nested b)
  | array {vs ws : List ElementValue} (h : List.Forall₂ ElementValue.Alike vs ws) :
      (ElementValue.array vs).Alike (.array ws)

/-- Annotations that are the same but for retentions. -/
inductive AnnotationUse.Alike : AnnotationUse → AnnotationUse → Prop
  | mk {a b : AnnotationUse} (kind : a.kind = b.kind)
      (names : a.elements.map (·.1) = b.elements.map (·.1))
      (values : List.Forall₂ ElementValue.Alike (a.elements.map (·.2)) (b.elements.map (·.2))) :
      a.Alike b

end

theorem alike_refl : (∀ v : ElementValue, v.Alike v) ∧ ∀ a : AnnotationUse, a.Alike a := by
  apply nested_induction
  case plain => exact fun v hplain => .plain hplain
  case nested => exact fun a ih => .nested ih
  case array => exact fun vs ih => .array (List.forall₂_same.2 ih)
  case use =>
    intro kind r es ih
    refine .mk rfl rfl (List.forall₂_same.2 fun v hv => ?_)
    obtain ⟨e, he, rfl⟩ := List.mem_map.1 hv
    exact ih e he

variable {r : Retention}

/-- Giving annotations a retention changes nothing else. -/
theorem alike_withRetention :
    (∀ v : ElementValue, v.Alike (v.withRetention r)) ∧
      ∀ a : AnnotationUse, a.Alike (a.withRetention r) := by
  apply nested_induction
  case plain =>
    intro v hplain
    rw [ElementValue.withRetention_of_isPlain hplain]
    exact .plain hplain
  case nested =>
    intro a ih
    exact .nested ih
  case array =>
    intro vs ih
    rw [ElementValue.withRetention, ElementValue.valuesWithRetention_eq_map]
    exact .array (List.forall₂_map_right_iff.2 (List.forall₂_same.2 ih))
  case use =>
    intro kind s es ih
    rw [AnnotationUse.withRetention, ElementValue.elementsWithRetention_eq_map]
    refine .mk rfl ?_ ?_
    · rw [List.map_map]
      rfl
    · rw [List.map_map, List.forall₂_map_left_iff, List.forall₂_map_right_iff]
      exact List.forall₂_same.2 ih

/-- The retention reaches every annotation. -/
theorem hasRetention_withRetention :
    (∀ v : ElementValue, (v.withRetention r).HasRetention r) ∧
      ∀ a : AnnotationUse, ∀ b ∈ (a.withRetention r).inner, b.retention = r := by
  apply nested_induction
  case plain =>
    intro v hplain b hb
    rw [ElementValue.withRetention_of_isPlain hplain, ElementValue.inner_of_isPlain hplain] at hb
    cases hb
  case nested =>
    intro a ih
    exact ElementValue.hasRetention_nested.2 ⟨AnnotationUse.retention_withRetention a r, ih⟩
  case array =>
    intro vs ih
    rw [ElementValue.withRetention, ElementValue.valuesWithRetention_eq_map,
      ElementValue.hasRetention_array, List.forall_mem_map]
    exact ih
  case use =>
    intro kind s es ih
    rw [AnnotationUse.withRetention, ElementValue.elementsWithRetention_eq_map,
      AnnotationUse.forall_mem_inner_iff, List.forall_mem_map]
    exact ih

theorem eq_map_of_forall₂ {α β : Type} {R : α → β → Prop} {f : α → β} {as : List α}
    {bs : List β} (h : List.Forall₂ R as bs) (hf : ∀ a ∈ as, ∀ b ∈ bs, R a b → b = f a) :
    bs = as.map f := by
  induction h with
  | nil => rfl
  | @cons a b as bs hab _ ih =>
    have htail := ih fun a' ha b' hb => hf a' (List.mem_cons_of_mem a ha) b'
      (List.mem_cons_of_mem b hb)
    rw [List.map_cons, ← htail, ← hf a List.mem_cons_self b List.mem_cons_self hab]

/-- Nothing else is the same with the retention everywhere. -/
theorem eq_withRetention_of_alike :
    (∀ v w : ElementValue, v.Alike w → w.HasRetention r → w = v.withRetention r) ∧
      ∀ a b : AnnotationUse, a.Alike b → b.retention = r → (∀ c ∈ b.inner, c.retention = r) →
        b = a.withRetention r := by
  apply nested_induction
  case plain =>
    intro v hplain w h _
    cases h with
    | plain => exact (ElementValue.withRetention_of_isPlain hplain).symm
    | nested | array => cases hplain
  case nested =>
    intro a ih w h hw
    cases h with
    | plain hplain => cases hplain
    | nested h =>
      obtain ⟨hb, hinner⟩ := ElementValue.hasRetention_nested.1 hw
      rw [ElementValue.withRetention, ih _ h hb hinner]
  case array =>
    intro vs ih w h hw
    cases h with
    | plain hplain => cases hplain
    | array h =>
      rw [ElementValue.hasRetention_array] at hw
      rw [ElementValue.withRetention, ElementValue.valuesWithRetention_eq_map,
        eq_map_of_forall₂ h fun v hv w' hw' hvw => ih v hv w' hvw (hw w' hw')]
  case use =>
    intro kind s es ih b h hb hinner
    obtain ⟨kind', s', fs⟩ := b
    obtain ⟨rfl, hnames, hvalues⟩ := h
    obtain rfl : s' = r := hb
    rw [AnnotationUse.forall_mem_inner_iff] at hinner
    have hvalues' : fs.map (·.2) = (es.map (·.2)).map (·.withRetention s') := by
      refine eq_map_of_forall₂ hvalues fun v hv w hw hvw => ?_
      obtain ⟨e, he, rfl⟩ := List.mem_map.1 hv
      obtain ⟨f, hf, rfl⟩ := List.mem_map.1 hw
      exact ih e he f.2 hvw (hinner f hf)
    have helements : fs = es.map fun e => (e.1, e.2.withRetention s') := by
      rw [← List.zip_unzip fs, List.unzip_eq_map]
      simp only [← hnames, hvalues', List.map_map]
      exact List.zip_map' ..
    rw [AnnotationUse.withRetention, ElementValue.elementsWithRetention_eq_map, helements]

/-! ## Normal form -/

/-- An annotation is another one with that one's retention given to every annotation in it. -/
structure AnnotationUse.HasNormalForm (a normal : AnnotationUse) : Prop where
  alike : a.Alike normal
  retention : normal.retention = a.retention
  inner : ∀ b ∈ normal.inner, b.retention = normal.retention

/-- Every annotation has one normal form. -/
theorem AnnotationUse.hasNormalForm_iff {a b : AnnotationUse} :
    a.HasNormalForm b ↔ b = a.normalize := by
  constructor
  · intro h
    exact eq_withRetention_of_alike.2 a b h.alike h.retention (h.retention ▸ h.inner)
  · rintro rfl
    have hretention := AnnotationUse.retention_normalize a
    exact ⟨alike_withRetention.2 a, hretention, by
      rw [hretention]
      exact hasRetention_withRetention.2 a⟩

theorem AnnotationUse.hasNormalForm_normalize (a : AnnotationUse) :
    a.HasNormalForm a.normalize := hasNormalForm_iff.2 rfl

/-- An annotation is its own normal form if the annotations in it have its retention. -/
theorem AnnotationUse.normalize_eq_self_iff {a : AnnotationUse} :
    a.normalize = a ↔ ∀ b ∈ a.inner, b.retention = a.retention := by
  constructor
  · intro h
    exact (hasNormalForm_iff.2 h.symm).inner
  · intro h
    exact (hasNormalForm_iff.1 ⟨alike_refl.2 a, rfl, h⟩).symm

namespace AnnotationSet

variable {s : AnnotationSet}

/-- No kind occurs twice, and every annotation is in normal form. -/
structure IsNormal (s : AnnotationSet) : Prop where
  kinds_nodup : s.kinds.Nodup
  inner : ∀ a ∈ s.entries, ∀ b ∈ a.inner, b.retention = a.retention

instance (s : AnnotationSet) : Decidable s.IsNormal :=
  decidable_of_iff (s.kinds.Nodup ∧ ∀ a ∈ s.entries, ∀ b ∈ a.inner, b.retention = a.retention)
    ⟨fun h => ⟨h.1, h.2⟩, fun h => ⟨h.kinds_nodup, h.inner⟩⟩

theorem IsNormal.normalize (hs : s.IsNormal) {a : AnnotationUse} (ha : a ∈ s.entries) :
    a.normalize = a := AnnotationUse.normalize_eq_self_iff.2 (hs.inner a ha)

theorem IsWellFormed.isNormal (hs : s.IsWellFormed) : s.IsNormal where
  kinds_nodup := hs.kinds_nodup
  inner a ha := AnnotationUse.normalize_eq_self_iff.1
    (AnnotationUse.normalize_of_isWellFormed (hs.entries a ha))

theorem isNormal_empty : empty.IsNormal := ⟨List.nodup_nil, nofun⟩

/-- What is inserted is in normal form, whatever it was before. -/
theorem IsNormal.insert (hs : s.IsNormal) (a : AnnotationUse) : (s.insert a).IsNormal where
  kinds_nodup := nodup_kinds_insert hs.kinds_nodup a
  inner b hb := by
    rcases mem_entries_insert hb with rfl | hb
    · exact a.hasNormalForm_normalize.inner
    · exact hs.inner b hb

theorem IsNormal.remove (hs : s.IsNormal) (kind : String) : (s.remove kind).IsNormal where
  kinds_nodup := nodup_kinds_remove hs.kinds_nodup kind
  inner a ha := hs.inner a (mem_of_mem_entries_remove ha)

end AnnotationSet

end AnnotationGraft
