import AnnotationGraft.Proofs.Annotations.WellFormed
import AnnotationGraft.Proofs.ConstantPool.Lookup

/-!
# Annotations written and read

The bytes of an annotation depend on the pool only through the indices of its texts and numbers, so
on a settled pool they are given by the shape of the annotation: `gives_array_iff`,
`gives_annotationUse_iff` and their like say which bytes those are.

A well-formed annotation is read back from its bytes (`reads_elementValue`).  An annotation that was
read is well-formed, and in a canonical pool its bytes are those that it was read from
(`ensures_elementValue`).
-/

namespace AnnotationGraft

namespace Interning

variable {α β : Type} {pool : ConstantPool}

/-! ## Writing settles -/

theorem settles_reference {index : Interning UInt16} (h : index.Settles) :
    (reference index).Settles :=
  h.bind fun _ => settles_pure _

theorem settles_count (table : TableKind) (items : Nat) : (count table items).Settles :=
  (settles_ofExcept _).bind fun _ => settles_pure _

/-- An element as written. -/
def element (e : String × ElementValue) : Interning Bytes := do
  let name ← reference (utf8 e.1)
  let bytes ← elementValue e.2
  return name ++ bytes

/-- The values of an array are written one by one. -/
theorem elementValuesAfter_eq (done : List Bytes) (vs : List ElementValue) :
    elementValuesAfter done vs
      = vs.mapM elementValue >>= fun parts => pure (done.reverse.flatten ++ parts.flatten) := by
  induction vs generalizing done with
  | nil => simp [elementValuesAfter]
  | cons v vs ih => simp [elementValuesAfter, ih]

/-- The elements of an annotation are written one by one. -/
theorem elementsAfter_eq (done : List Bytes) (es : List (String × ElementValue)) :
    elementsAfter done es
      = es.mapM element >>= fun parts => pure (done.reverse.flatten ++ parts.flatten) := by
  induction es generalizing done with
  | nil => simp [elementsAfter]
  | cons e es ih => simp [elementsAfter, element, ih]

theorem settles_element {e : String × ElementValue} (h : (elementValue e.2).Settles) :
    (element e).Settles :=
  (settles_reference (settles_utf8 e.1)).bind fun _ => h.bind fun _ => settles_pure _

/-- A constant that stands for itself, after a tag. -/
private theorem settles_tagged {c : Constant} {tag : UInt8}
    (hc : ∀ (pool : ConstantPool) (j : UInt16), pool.checkEntry (j, c) = .ok ()) :
    Settles (reference (constant c) >>= fun i => pure (tag :: i)) :=
  (settles_reference (settles_constant hc)).bind fun _ => settles_pure _

theorem settles_values :
    (∀ v, (elementValue v).Settles) ∧ ∀ a, (annotationUse a).Settles := by
  apply nested_induction
  case plain =>
    intro v hplain
    cases v with
    | byte _ | char _ | int _ | short _ | boolean _ | long _ | float _ | double _ =>
      rw [elementValue]
      exact settles_tagged fun _ _ => rfl
    | string text =>
      rw [elementValue]
      exact (settles_reference (settles_utf8 text)).bind fun _ => settles_pure _
    | enumConstant type name =>
      rw [elementValue]
      refine (settles_reference (settles_utf8 type)).bind fun _ => ?_
      exact (settles_reference (settles_utf8 name)).bind fun _ => settles_pure _
    | classLiteral d =>
      rw [elementValue]
      exact (settles_reference (settles_utf8 d)).bind fun _ => settles_pure _
    | nested _ | array _ => cases hplain
  case nested =>
    intro a ih
    rw [elementValue]
    exact ih.bind fun _ => settles_pure _
  case array =>
    intro vs ih
    rw [elementValue, elementValuesAfter_eq]
    refine (settles_count _ _).bind fun _ => ?_
    exact ((Settles.mapM ih).bind fun _ => settles_pure _).bind fun _ => settles_pure _
  case use =>
    intro kind r es ih
    rw [annotationUse, elementsAfter_eq]
    refine (settles_reference (settles_utf8 kind)).bind fun _ => ?_
    refine (settles_count _ _).bind fun _ => ?_
    have hes : ∀ e ∈ es, (element e).Settles := fun e he => settles_element (ih e he)
    exact ((Settles.mapM hes).bind fun _ => settles_pure _).bind fun _ => settles_pure _

theorem settles_elementValue (v : ElementValue) : (elementValue v).Settles := settles_values.1 v

theorem settles_annotationUse (a : AnnotationUse) : (annotationUse a).Settles := settles_values.2 a

/-! ## The bytes on a settled pool -/

theorem gives_map_iff {x : Interning α} (hx : x.Settles) {g : α → β} {b : β} :
    Gives (x >>= fun a => pure (g a)) pool b ↔ ∃ a, x.Gives pool a ∧ b = g a := by
  simp only [gives_bind_iff hx fun _ => settles_pure _, gives_pure_iff]

theorem gives_reference_iff {index : Interning UInt16} (h : index.Settles) {bytes : Bytes} :
    Gives (reference index) pool bytes ↔
      ∃ i, index.Gives pool i ∧ bytes = BigEndian.ofUInt16 i :=
  gives_map_iff h

theorem gives_count_iff {table : TableKind} {items : Nat} {bytes : Bytes} :
    Gives (count table items) pool bytes ↔
      items ≤ maxWord ∧ bytes = BigEndian.ofUInt16 (UInt16.ofNat items) := by
  rw [count, gives_map_iff (settles_ofExcept _)]
  simp only [gives_ofExcept_iff, tableCount_eq_ok_iff]
  constructor
  · intro h
    obtain ⟨_, ⟨hfits, rfl⟩, rfl⟩ := h
    exact ⟨hfits, rfl⟩
  · intro h
    obtain ⟨hfits, rfl⟩ := h
    exact ⟨_, ⟨hfits, rfl⟩, rfl⟩

theorem gives_tagged_iff {index : Interning UInt16} (h : index.Settles) {tag : UInt8}
    {bytes : Bytes} :
    Gives (reference index >>= fun i => pure (tag :: i)) pool bytes ↔
      ∃ i, index.Gives pool i ∧ bytes = tag :: BigEndian.ofUInt16 i := by
  rw [gives_map_iff (settles_reference h)]
  simp only [gives_reference_iff h]
  constructor
  · intro h
    obtain ⟨_, ⟨i, hi, rfl⟩, rfl⟩ := h
    exact ⟨i, hi, rfl⟩
  · intro h
    obtain ⟨i, hi, rfl⟩ := h
    exact ⟨_, ⟨i, hi, rfl⟩, rfl⟩

theorem gives_enumConstant_iff {type name : String} {bytes : Bytes} :
    Gives (elementValue (.enumConstant type name)) pool bytes ↔
      ∃ i j, Gives (utf8 type) pool i ∧ Gives (utf8 name) pool j
        ∧ bytes = 'e'.toUInt8 :: BigEndian.ofUInt16 i ++ BigEndian.ofUInt16 j := by
  have hname := settles_reference (settles_utf8 name)
  rw [elementValue, gives_bind_iff (settles_reference (settles_utf8 type)) fun _ =>
    hname.bind fun _ => settles_pure _]
  simp only [gives_map_iff hname, gives_reference_iff (settles_utf8 _)]
  constructor
  · intro h
    obtain ⟨_, ⟨i, hi, rfl⟩, _, ⟨j, hj, rfl⟩, rfl⟩ := h
    exact ⟨i, j, hi, hj, rfl⟩
  · intro h
    obtain ⟨i, j, hi, hj, rfl⟩ := h
    exact ⟨_, ⟨i, hi, rfl⟩, _, ⟨j, hj, rfl⟩, rfl⟩

theorem gives_nested_iff {a : AnnotationUse} {bytes : Bytes} :
    Gives (elementValue (.nested a)) pool bytes ↔
      ∃ use, Gives (annotationUse a) pool use ∧ bytes = '@'.toUInt8 :: use := by
  rw [elementValue, gives_map_iff (settles_annotationUse a)]

theorem gives_array_iff {vs : List ElementValue} {bytes : Bytes} :
    Gives (elementValue (.array vs)) pool bytes ↔
      vs.length ≤ maxWord ∧ ∃ parts : List Bytes,
        List.Forall₂ (fun v part => Gives (elementValue v) pool part) vs parts
          ∧ bytes = '['.toUInt8 :: BigEndian.ofUInt16 (UInt16.ofNat vs.length)
              ++ parts.flatten := by
  have hvs : (vs.mapM elementValue).Settles := Settles.mapM fun v _ => settles_elementValue v
  have hvalues := hvs.bind fun parts => settles_pure ([].reverse.flatten ++ parts.flatten)
  rw [elementValue, elementValuesAfter_eq, gives_bind_iff (settles_count _ _) fun _ =>
    hvalues.bind fun _ => settles_pure _]
  simp only [gives_map_iff hvalues, gives_map_iff hvs, gives_count_iff,
    gives_mapM_iff fun v _ => settles_elementValue v]
  constructor
  · intro h
    obtain ⟨_, ⟨hfits, rfl⟩, _, ⟨parts, hparts, rfl⟩, rfl⟩ := h
    exact ⟨hfits, parts, hparts, rfl⟩
  · intro h
    obtain ⟨hfits, parts, hparts, rfl⟩ := h
    exact ⟨_, ⟨hfits, rfl⟩, _, ⟨parts, hparts, rfl⟩, rfl⟩

theorem gives_element_iff {e : String × ElementValue} {bytes : Bytes} :
    Gives (element e) pool bytes ↔
      ∃ i value, Gives (utf8 e.1) pool i ∧ Gives (elementValue e.2) pool value
        ∧ bytes = BigEndian.ofUInt16 i ++ value := by
  have hvalue := settles_elementValue e.2
  rw [element, gives_bind_iff (settles_reference (settles_utf8 e.1)) fun _ =>
    hvalue.bind fun _ => settles_pure _]
  simp only [gives_map_iff hvalue, gives_reference_iff (settles_utf8 _)]
  constructor
  · intro h
    obtain ⟨_, ⟨i, hi, rfl⟩, value, hvalue, rfl⟩ := h
    exact ⟨i, value, hi, hvalue, rfl⟩
  · intro h
    obtain ⟨i, value, hi, hvalue, rfl⟩ := h
    exact ⟨_, ⟨i, hi, rfl⟩, value, hvalue, rfl⟩

theorem gives_annotationUse_iff {kind : String} {r : Retention} {es : List (String × ElementValue)}
    {bytes : Bytes} :
    Gives (annotationUse ⟨kind, r, es⟩) pool bytes ↔
      ∃ i, Gives (utf8 kind) pool i ∧ es.length ≤ maxWord ∧ ∃ parts : List Bytes,
        List.Forall₂ (fun e part => Gives (element e) pool part) es parts
          ∧ bytes = BigEndian.ofUInt16 i ++ BigEndian.ofUInt16 (UInt16.ofNat es.length)
              ++ parts.flatten := by
  have helement : ∀ e ∈ es, (element e).Settles := fun e _ =>
    settles_element (settles_elementValue _)
  have hes : (es.mapM element).Settles := Settles.mapM helement
  have helements := hes.bind fun parts => settles_pure ([].reverse.flatten ++ parts.flatten)
  rw [annotationUse, elementsAfter_eq,
    gives_bind_iff (settles_reference (settles_utf8 kind)) fun _ =>
      (settles_count _ _).bind fun _ => helements.bind fun _ => settles_pure _]
  simp only [gives_bind_iff (settles_count _ _) fun _ => helements.bind fun _ => settles_pure _,
    gives_map_iff helements, gives_map_iff hes, gives_count_iff,
    gives_reference_iff (settles_utf8 _), gives_mapM_iff helement]
  constructor
  · intro h
    obtain ⟨_, ⟨i, hi, rfl⟩, _, ⟨hfits, rfl⟩, _, ⟨parts, hparts, rfl⟩, rfl⟩ := h
    exact ⟨i, hi, hfits, parts, hparts, rfl⟩
  · intro h
    obtain ⟨i, hi, hfits, parts, hparts, rfl⟩ := h
    exact ⟨_, ⟨i, hi, rfl⟩, _, ⟨hfits, rfl⟩, _, ⟨parts, hparts, rfl⟩, rfl⟩

end Interning

namespace Scan

variable {pool : ConstantPool} {r : Retention}

/-! ## Reading what was written -/

theorem reads_descriptor {recognized : String → Bool} {i : UInt16} {d : String}
    (hi : pool.utf8 i = .ok d) (hd : recognized d = true) :
    Reads (descriptor pool recognized) (BigEndian.ofUInt16 i) d := by
  have hrequire : requireDescriptor recognized d = .ok () := if_pos hd
  have hread : Reads (descriptor pool recognized) (BigEndian.ofUInt16 i ++ []) d :=
    (reads_lookup hi).bind ((reads_ofExcept hrequire).bind_nil (reads_pure d))
  rwa [List.append_nil] at hread

/-- What follows for an item from the bytes that are written of it follows for each item of a list
that was written item by item. -/
theorem forall₂_of_gives {α : Type} {S : Bytes → α → Prop} {write : α → Interning Bytes}
    {as : List α} {parts : List Bytes}
    (h : List.Forall₂ (fun a part => (write a).Gives pool part) as parts)
    (hitem : ∀ a ∈ as, ∀ part, (write a).Gives pool part → S part a) :
    List.Forall₂ S parts as := by
  induction h with
  | nil => exact .nil
  | @cons a part as parts ha _ ih =>
    exact .cons (hitem a (by simp) part ha) (ih fun a' ha' => hitem a' (by simp [ha']))

/-- An annotation is read back if its values are. -/
theorem reads_annotationOf {depth : Nat} {value : Scan ElementValue} (hsize : pool.size ≤ maxWord)
    {a : AnnotationUse} {bytes : Bytes} (hwf : a.isWellFormed r depth = true)
    (hvalue : ∀ e ∈ a.elements, ∀ part, Interning.Gives (Interning.elementValue e.2) pool part →
      Reads value part e.2)
    (h : Interning.Gives (Interning.annotationUse a) pool bytes) :
    Reads (annotationOf pool r value) bytes a := by
  obtain ⟨kind, s, es⟩ := a
  obtain ⟨rfl, hkind, -⟩ := AnnotationUse.isWellFormed_iff.1 hwf
  obtain ⟨i, hi, hfits, parts, hparts, rfl⟩ := Interning.gives_annotationUse_iff.1 h
  rw [List.append_assoc]
  refine (reads_descriptor (Interning.utf8_of_gives hsize hi) hkind).bind ?_
  refine (reads_table (forall₂_of_gives hparts fun e he part hpart => ?_) hfits).map _
  obtain ⟨j, bytes, hj, hbytes, rfl⟩ := Interning.gives_element_iff.1 hpart
  exact (reads_lookup (Interning.utf8_of_gives hsize hj)).bind
    ((hvalue e he bytes hbytes).map fun v => (e.1, v))

/-- A constant that stands for itself is read back after its tag. -/
private theorem reads_tagged {α : Type} {find : UInt16 → Except DecodeError α} {c : Constant}
    {tag : UInt8} {a : α} {bytes : Bytes} {g : α → ElementValue} {s : UInt8 → Scan ElementValue}
    (hsize : pool.size ≤ maxWord)
    (hc : ∀ (pool : ConstantPool) (j : UInt16), pool.checkEntry (j, c) = .ok ())
    (h : Interning.Gives (Interning.reference (Interning.constant c) >>= fun i => pure (tag :: i))
      pool bytes)
    (hfind : ∀ i, pool.get? i = some c → find i = .ok a)
    (hs : s tag = lookup find >>= fun a => pure (g a)) :
    Reads (byte >>= s) bytes (g a) := by
  obtain ⟨i, hi, rfl⟩ := (Interning.gives_tagged_iff (Interning.settles_constant hc)).1 h
  show Reads _ ([tag] ++ BigEndian.ofUInt16 i) _
  refine (reads_byte tag).bind ?_
  rw [hs]
  exact (reads_lookup (hfind i (Interning.get?_of_gives_constant hsize hi))).map g

/-- A text is read back after its tag. -/
private theorem reads_taggedText {text : String} {tag : UInt8} {bytes : Bytes} {v : ElementValue}
    {s : UInt8 → Scan ElementValue} (hsize : pool.size ≤ maxWord)
    (h : Interning.Gives (Interning.reference (Interning.utf8 text) >>= fun i => pure (tag :: i))
      pool bytes)
    (hs : ∀ i, pool.utf8 i = .ok text → Reads (s tag) (BigEndian.ofUInt16 i) v) :
    Reads (byte >>= s) bytes v := by
  obtain ⟨i, hi, rfl⟩ := (Interning.gives_tagged_iff (Interning.settles_utf8 text)).1 h
  exact (reads_byte tag).bind (hs i (Interning.utf8_of_gives hsize hi))

/-- A well-formed value or annotation is read back from its bytes. -/
theorem reads_values (hsize : pool.size ≤ maxWord) :
    (∀ v : ElementValue, ∀ depth levels bytes, depth + levels = maxDepth + 1 →
        v.isWellFormed r depth = true → Interning.Gives (Interning.elementValue v) pool bytes →
        Reads (elementValue pool r levels) bytes v) ∧
      ∀ a : AnnotationUse, ∀ depth levels bytes, depth + levels = maxDepth + 1 →
        a.isWellFormed r depth = true → Interning.Gives (Interning.annotationUse a) pool bytes →
        Reads (annotationOf pool r (elementValue pool r levels)) bytes a := by
  apply nested_induction
  case plain =>
    intro v hplain depth levels bytes hlevels hwf h
    obtain ⟨levels, rfl⟩ : ∃ n, levels = n + 1 :=
      ⟨levels - 1, by have := ElementValue.depth_le_of_isWellFormed hwf; omega⟩
    cases v with
    | byte x | char x | int x | short x | boolean x =>
      rw [Interning.elementValue] at h
      exact reads_tagged hsize (fun _ _ => rfl) h
        (fun i hi => ConstantPool.integer_eq_ok_iff.2 hi) rfl
    | long x =>
      rw [Interning.elementValue] at h
      exact reads_tagged hsize (fun _ _ => rfl) h (fun i hi => ConstantPool.long_eq_ok_iff.2 hi) rfl
    | float x =>
      rw [Interning.elementValue] at h
      exact reads_tagged hsize (fun _ _ => rfl) h
        (fun i hi => ConstantPool.floatBits_eq_ok_iff.2 hi) rfl
    | double x =>
      rw [Interning.elementValue] at h
      exact reads_tagged hsize (fun _ _ => rfl) h
        (fun i hi => ConstantPool.doubleBits_eq_ok_iff.2 hi) rfl
    | string text =>
      rw [Interning.elementValue] at h
      exact reads_taggedText hsize h fun i hi => (reads_lookup hi).map ElementValue.string
    | classLiteral d =>
      rw [Interning.elementValue] at h
      have hd : Descriptor.isResultType d = true := by
        rw [ElementValue.isWellFormed, Bool.and_eq_true] at hwf
        exact hwf.2
      exact reads_taggedText hsize h fun i hi =>
        (reads_descriptor hi hd).map ElementValue.classLiteral
    | enumConstant type name =>
      obtain ⟨i, j, hi, hj, rfl⟩ := Interning.gives_enumConstant_iff.1 h
      have htype : Descriptor.isObjectType type = true := by
        rw [ElementValue.isWellFormed, Bool.and_eq_true] at hwf
        exact hwf.2
      rw [List.cons_append]
      refine (reads_byte _).bind ?_
      refine (reads_descriptor (Interning.utf8_of_gives hsize hi) htype).bind ?_
      exact (reads_lookup (Interning.utf8_of_gives hsize hj)).map (ElementValue.enumConstant type)
    | nested _ | array _ => cases hplain
  case nested =>
    intro a ih depth levels bytes hlevels hwf h
    obtain ⟨hdepth, hwfa⟩ := ElementValue.isWellFormed_nested.1 hwf
    obtain ⟨levels, rfl⟩ : ∃ n, levels = n + 1 := ⟨levels - 1, by omega⟩
    obtain ⟨use, huse, rfl⟩ := Interning.gives_nested_iff.1 h
    refine (reads_byte _).bind ?_
    exact (ih (depth + 1) levels use (by omega) hwfa huse).map ElementValue.nested
  case array =>
    intro vs ih depth levels bytes hlevels hwf h
    obtain ⟨hdepth, hwfvs⟩ := ElementValue.isWellFormed_array.1 hwf
    obtain ⟨levels, rfl⟩ : ∃ n, levels = n + 1 := ⟨levels - 1, by omega⟩
    obtain ⟨hfits, parts, hparts, rfl⟩ := Interning.gives_array_iff.1 h
    rw [List.cons_append]
    refine (reads_byte _).bind ?_
    refine (reads_table (forall₂_of_gives hparts fun v hv part hpart => ?_) hfits).map
      ElementValue.array
    exact ih v hv (depth + 1) levels part (by omega) (hwfvs v hv) hpart
  case use =>
    intro kind s es ih depth levels bytes hlevels hwf h
    refine reads_annotationOf hsize hwf (fun e he part hpart => ?_) h
    exact ih e he depth levels part hlevels ((AnnotationUse.isWellFormed_iff.1 hwf).2.2 e he) hpart

/-- A well-formed annotation is read back from its bytes. -/
theorem reads_annotationAt (hsize : pool.size ≤ maxWord) {a : AnnotationUse} {bytes : Bytes}
    (hwf : a.isWellFormed r 0 = true)
    (h : Interning.Gives (Interning.annotationUse a) pool bytes) :
    Reads (annotationAt pool r 0) bytes a :=
  (reads_values hsize).2 a 0 (maxDepth + 1) bytes (by omega) hwf h

end Scan

/-! ## Writing what was read -/

namespace Interning

variable {pool : ConstantPool}

/-- In a canonical pool the computation gives the bytes and adds nothing. -/
def Restores (e : Interning Bytes) (pool : ConstantPool) (bytes : Bytes) : Prop :=
  pool.IsCanonical → e.Gives pool bytes

/-- Items that were read with a property each all have it, and they are restored one by one. -/
theorem forall₂_restores {α : Type} {write : α → Interning Bytes} {Q : α → Prop} {as : List α}
    {parts : List Bytes}
    (h : List.Forall₂ (fun part a => Q a ∧ Restores (write a) pool part) parts as) :
    (∀ a ∈ as, Q a) ∧
      (pool.IsCanonical → List.Forall₂ (fun a part => (write a).Gives pool part) as parts) := by
  obtain ⟨hQ, hrestores⟩ := (List.forall₂_and_left _ _).1 h.flip
  exact ⟨hQ, fun hpool => hrestores.imp fun a part ha => ha hpool⟩

end Interning

namespace Scan

variable {pool : ConstantPool} {r : Retention}

/-- The byte of a character that announces a value. -/
theorem eq_toUInt8_of_ofNat {tag : UInt8} {c : Char} (h : Char.ofNat tag.toNat = c) :
    tag = c.toUInt8 := by
  have htag := tag.toNat_lt
  have hvalid : tag.toNat.isValidChar := Or.inl (by omega)
  apply UInt8.toNat_inj.1
  rw [← h, Char.ofNat, dif_pos hvalid, Char.toUInt8]
  show tag.toNat = tag.toNat % 256
  omega

theorem ensures_descriptor {recognized : String → Bool} :
    Ensures (descriptor pool recognized) fun bytes d =>
      ∃ i, bytes = BigEndian.ofUInt16 i ∧ pool.utf8 i = .ok d ∧ recognized d = true := by
  refine ensures_lookup.bind ?_
  intro front d h
  obtain ⟨i, rfl, hi⟩ := h
  refine (ensures_ofExcept (R := fun bytes _ => bytes = [] ∧ recognized d = true) ?_).map ?_
  · intro _ hd
    unfold requireDescriptor at hd
    split at hd
    · next h => exact ⟨rfl, h⟩
    · cases hd
  · intro bytes _ h
    obtain ⟨rfl, hd⟩ := h
    exact ⟨i, List.append_nil _, hi, hd⟩

/-- An annotation is well-formed, and restored, if its values are. -/
theorem ensures_annotationOf {depth : Nat} {value : Scan ElementValue}
    (hvalue : Ensures value fun bytes v =>
      v.isWellFormed r depth = true ∧ Interning.Restores (Interning.elementValue v) pool bytes) :
    Ensures (annotationOf pool r value) fun bytes a =>
      a.isWellFormed r depth = true
        ∧ Interning.Restores (Interning.annotationUse a) pool bytes := by
  have helement : Ensures (lookup pool.utf8 >>= fun name => value >>= fun v => pure (name, v))
      fun bytes e => e.2.isWellFormed r depth = true
        ∧ Interning.Restores (Interning.element e) pool bytes := by
    refine ensures_lookup.bind ?_
    intro front name h
    obtain ⟨i, rfl, hi⟩ := h
    refine hvalue.map ?_
    intro back v h
    obtain ⟨hwf, hv⟩ := h
    exact ⟨hwf, fun hpool => Interning.gives_element_iff.2
      ⟨i, back, hpool.gives_utf8 hi, hv hpool, rfl⟩⟩
  refine ensures_descriptor.bind ?_
  intro front kind h
  obtain ⟨i, rfl, hi, hkind⟩ := h
  refine (ensures_table helement).map ?_
  intro back es h
  obtain ⟨hfits, parts, rfl, hes⟩ := h
  obtain ⟨hwf, hparts⟩ := Interning.forall₂_restores hes
  refine ⟨AnnotationUse.isWellFormed_iff.2 ⟨rfl, hkind, hwf⟩, fun hpool => ?_⟩
  exact Interning.gives_annotationUse_iff.2
    ⟨i, hpool.gives_utf8 hi, hfits, parts, hparts hpool, (List.append_assoc _ _ _).symm⟩

/-- A constant that stands for itself is restored after its tag. -/
private theorem ensures_tagged {α : Type} {find : UInt16 → Except DecodeError α}
    {c : α → Constant} {tag : UInt8} {g : α → ElementValue} {depth : Nat}
    (hdepth : depth ≤ maxDepth)
    (hplain : ∀ a, (g a).isWellFormed r depth = decide (depth ≤ maxDepth))
    (hfind : ∀ i a, find i = .ok a → pool.get? i = some (c a))
    (hc : ∀ a (pool : ConstantPool) (j : UInt16), pool.checkEntry (j, c a) = .ok ())
    (hwrite : ∀ a, Interning.elementValue (g a)
      = Interning.reference (Interning.constant (c a)) >>= fun i => pure (tag :: i)) :
    Ensures (lookup find >>= fun a => pure (g a)) fun bytes v =>
      v.isWellFormed r depth = true
        ∧ Interning.Restores (Interning.elementValue v) pool ([tag] ++ bytes) := by
  refine ensures_lookup.map ?_
  intro bytes a h
  obtain ⟨i, rfl, hi⟩ := h
  refine ⟨by rw [hplain, decide_eq_true hdepth], fun hpool => ?_⟩
  rw [hwrite, Interning.gives_tagged_iff (Interning.settles_constant (hc a))]
  exact ⟨i, hpool.distinct.gives_constant (hfind i a hi), rfl⟩

/-- A value that was read is well-formed at its depth, and restored. -/
theorem ensures_elementValue (levels depth : Nat) (hlevels : depth + levels = maxDepth + 1) :
    Ensures (elementValue pool r levels) fun bytes v =>
      v.isWellFormed r depth = true
        ∧ Interning.Restores (Interning.elementValue v) pool bytes := by
  induction levels generalizing depth with
  | zero => exact ensures_throw _ _
  | succ levels ih =>
    have hdepth : depth ≤ maxDepth := by omega
    have hvalue := ih (depth + 1) (by omega)
    refine ensures_byte.bind ?_
    intro front tag h
    subst h
    split
    case h_1 heq | h_2 heq | h_3 heq | h_4 heq | h_5 heq =>
      obtain rfl := eq_toUInt8_of_ofNat heq
      exact ensures_tagged hdepth (fun _ => rfl)
        (fun _ _ => ConstantPool.integer_eq_ok_iff.1) (fun _ _ _ => rfl)
        fun _ => by rw [Interning.elementValue]
    case h_6 heq =>
      obtain rfl := eq_toUInt8_of_ofNat heq
      exact ensures_tagged hdepth (fun _ => rfl)
        (fun _ _ => ConstantPool.long_eq_ok_iff.1) (fun _ _ _ => rfl)
        fun _ => by rw [Interning.elementValue]
    case h_7 heq =>
      obtain rfl := eq_toUInt8_of_ofNat heq
      exact ensures_tagged hdepth (fun _ => rfl)
        (fun _ _ => ConstantPool.floatBits_eq_ok_iff.1) (fun _ _ _ => rfl)
        fun _ => by rw [Interning.elementValue]
    case h_8 heq =>
      obtain rfl := eq_toUInt8_of_ofNat heq
      exact ensures_tagged hdepth (fun _ => rfl)
        (fun _ _ => ConstantPool.doubleBits_eq_ok_iff.1) (fun _ _ _ => rfl)
        fun _ => by rw [Interning.elementValue]
    case h_9 heq =>
      obtain rfl := eq_toUInt8_of_ofNat heq
      refine ensures_lookup.map ?_
      intro bytes text h
      obtain ⟨i, rfl, hi⟩ := h
      refine ⟨decide_eq_true hdepth, fun hpool => ?_⟩
      rw [Interning.elementValue, Interning.gives_tagged_iff (Interning.settles_utf8 text)]
      exact ⟨i, hpool.gives_utf8 hi, rfl⟩
    case h_10 heq =>
      obtain rfl := eq_toUInt8_of_ofNat heq
      refine ensures_descriptor.bind ?_
      intro bytes type h
      obtain ⟨i, rfl, hi, htype⟩ := h
      refine ensures_lookup.map ?_
      intro bytes name h
      obtain ⟨j, rfl, hj⟩ := h
      refine ⟨by rw [ElementValue.isWellFormed, htype, decide_eq_true hdepth]; rfl, fun hpool => ?_⟩
      exact Interning.gives_enumConstant_iff.2
        ⟨i, j, hpool.gives_utf8 hi, hpool.gives_utf8 hj, rfl⟩
    case h_11 heq =>
      obtain rfl := eq_toUInt8_of_ofNat heq
      refine ensures_descriptor.map ?_
      intro bytes d h
      obtain ⟨i, rfl, hi, hd⟩ := h
      refine ⟨by rw [ElementValue.isWellFormed, hd, decide_eq_true hdepth]; rfl, fun hpool => ?_⟩
      rw [Interning.elementValue, Interning.gives_tagged_iff (Interning.settles_utf8 d)]
      exact ⟨i, hpool.gives_utf8 hi, rfl⟩
    case h_12 heq =>
      obtain rfl := eq_toUInt8_of_ofNat heq
      refine (ensures_annotationOf hvalue).map ?_
      intro bytes a h
      obtain ⟨hwf, ha⟩ := h
      refine ⟨ElementValue.isWellFormed_nested.2 ⟨hdepth, hwf⟩, fun hpool => ?_⟩
      exact Interning.gives_nested_iff.2 ⟨bytes, ha hpool, rfl⟩
    case h_13 heq =>
      obtain rfl := eq_toUInt8_of_ofNat heq
      refine (ensures_table hvalue).map ?_
      intro bytes vs h
      obtain ⟨hfits, parts, rfl, hvs⟩ := h
      obtain ⟨hwf, hparts⟩ := Interning.forall₂_restores hvs
      refine ⟨ElementValue.isWellFormed_array.2 ⟨hdepth, hwf⟩, fun hpool => ?_⟩
      exact Interning.gives_array_iff.2 ⟨hfits, parts, hparts hpool, rfl⟩
    case h_14 => exact ensures_throw _ _

/-- An annotation of an attribute that was read is well-formed, and restored. -/
theorem ensures_annotationAt :
    Ensures (annotationAt pool r 0) fun bytes a =>
      a.isWellFormed r 0 = true ∧ Interning.Restores (Interning.annotationUse a) pool bytes :=
  ensures_annotationOf (ensures_elementValue (maxDepth + 1) 0 (by omega))

end Scan

end AnnotationGraft
