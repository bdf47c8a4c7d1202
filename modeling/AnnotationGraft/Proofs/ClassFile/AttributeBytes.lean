import AnnotationGraft.ClassFile.Decode
import AnnotationGraft.Proofs.Annotations.Wire
import AnnotationGraft.Proofs.ClassFile.AttributeTable

/-!
# Attribute tables written and read

On a settled pool the bytes of a table are those of its written slots, one after another
(`gives_attributes_iff`).  So a table and the table it is regrouped to have the same bytes.

`meets_attributes` reads them back.  Where roles are kept the regrouped table is read.  Where one is
not, fewer verbatim slots are read than were written, so a reader that finds as many knows that all
roles were kept.  `ensures_attributes` is about a table that was read from bytes that nobody has
written: it is well-formed, and in a canonical pool its bytes are those that it was read from, if no
annotation attribute was empty.
-/

namespace AnnotationGraft

namespace Interning

variable {pool : ConstantPool} {set : AnnotationSet} {slot : AttributeSlot}

/-! ## Slots as written -/

/-- The annotations of one attribute as written. -/
def annotationsBody (as : List AnnotationUse) : Interning Bytes := do
  let size ← count .annotations as.length
  let bodies ← as.mapM annotationUse
  return size ++ bodies.flatten

/-- The body of an attribute as written. -/
def slotBody (set : AnnotationSet) : AttributeSlot → Interning Bytes
  | .annotations r => annotationsBody (set.withRetention r)
  | .verbatim _ info => pure info

/-- The attribute of a slot as written. -/
def slotBytes (set : AnnotationSet) (slot : AttributeSlot) : Interning Bytes := do
  let name ← utf8 slot.name
  let info ← slotBody set slot
  MonadExcept.ofExcept (attributeBytes ⟨name, info⟩)

/-- A slot writes what it holds. -/
theorem slotBytes_congr {set' : AnnotationSet} (h : slot.held set = slot.held set') :
    slotBytes set slot = slotBytes set' slot := by
  cases slot with
  | annotations r =>
    have hr : set.withRetention r = set'.withRetention r := h
    rw [slotBytes, slotBytes, slotBody, slotBody, hr]
  | verbatim name info => rfl

theorem slotAttribute_of_not_written (h : slot.isWritten set = false) :
    slotAttribute set slot = pure none := by
  cases slot with
  | verbatim name info => cases h
  | annotations r =>
    have hnone : set.withRetention r = [] := by
      simpa [AttributeSlot.isWritten, AttributeSlot.isVerbatim, AttributeSlot.held] using h
    rw [slotAttribute, annotationAttribute]
    split
    · rfl
    · next hne => exact absurd hnone hne

theorem slotAttribute_of_written (h : slot.isWritten set = true) :
    slotAttribute set slot =
      utf8 slot.name >>= fun name =>
        slotBody set slot >>= fun info => pure (some ⟨name, info⟩) := by
  cases slot with
  | verbatim name info => simp [slotAttribute, slotBody, AttributeSlot.name]
  | annotations r =>
    rw [AttributeSlot.isWritten_annotations_iff] at h
    rw [slotAttribute, annotationAttribute]
    split
    · next hnil => exact absurd hnil h
    · simp [slotBody, annotationsBody, AttributeSlot.name]

theorem settles_annotationsBody (as : List AnnotationUse) : (annotationsBody as).Settles :=
  (settles_count _ _).bind fun _ =>
    (Settles.mapM fun a _ => settles_annotationUse a).bind fun _ => settles_pure _

theorem settles_slotBody (set : AnnotationSet) (slot : AttributeSlot) :
    (slotBody set slot).Settles := by
  cases slot with
  | annotations r => exact settles_annotationsBody _
  | verbatim name info => exact settles_pure _

theorem settles_slotAttribute (set : AnnotationSet) (slot : AttributeSlot) :
    (slotAttribute set slot).Settles := by
  cases h : slot.isWritten set with
  | false =>
    rw [slotAttribute_of_not_written h]
    exact settles_pure _
  | true =>
    rw [slotAttribute_of_written h]
    exact (settles_utf8 _).bind fun _ => (settles_slotBody set slot).bind fun _ => settles_pure _

theorem settles_attributes (t : AttributeTable) : (attributes t).Settles := by
  refine (Settles.mapM fun slot _ => settles_slotAttribute _ slot).bind fun _ => ?_
  refine (Settles.mapM fun r _ => settles_slotAttribute _ (.annotations r)).bind fun _ => ?_
  exact (settles_count _ _).bind fun _ => (settles_ofExcept _).bind fun _ => settles_pure _

/-! ## The bytes on a settled pool -/

theorem gives_annotationsBody_iff {as : List AnnotationUse} {bytes : Bytes} :
    Gives (annotationsBody as) pool bytes ↔
      as.length ≤ maxWord ∧ ∃ parts : List Bytes,
        List.Forall₂ (fun a part => Gives (annotationUse a) pool part) as parts
          ∧ bytes = BigEndian.ofUInt16 (UInt16.ofNat as.length) ++ parts.flatten := by
  have has : (as.mapM annotationUse).Settles := Settles.mapM fun a _ => settles_annotationUse a
  rw [annotationsBody, gives_bind_iff (settles_count _ _) fun _ => has.bind fun _ => settles_pure _]
  simp only [gives_map_iff has, gives_count_iff, gives_mapM_iff fun a _ => settles_annotationUse a]
  constructor
  · intro h
    obtain ⟨_, ⟨hfits, rfl⟩, parts, hparts, rfl⟩ := h
    exact ⟨hfits, parts, hparts, rfl⟩
  · intro h
    obtain ⟨hfits, parts, hparts, rfl⟩ := h
    exact ⟨_, ⟨hfits, rfl⟩, parts, hparts, rfl⟩

theorem attributeBytes_eq_ok_iff {a : WrittenAttribute} {bytes : Bytes} :
    attributeBytes a = .ok bytes ↔
      a.info.length < 0x100000000
        ∧ bytes = BigEndian.ofUInt16 a.name ++ BigEndian.ofUInt32 (UInt32.ofNat a.info.length)
            ++ a.info := by
  unfold attributeBytes
  split
  · next h => simp [h, eq_comm]
  · next h => simp [h]

theorem gives_slotBytes_iff {bytes : Bytes} :
    Gives (slotBytes set slot) pool bytes ↔
      ∃ i info, Gives (utf8 slot.name) pool i ∧ Gives (slotBody set slot) pool info
        ∧ attributeBytes ⟨i, info⟩ = .ok bytes := by
  have hbody := settles_slotBody set slot
  rw [slotBytes, gives_bind_iff (settles_utf8 _) fun _ => hbody.bind fun _ => settles_ofExcept _]
  simp only [gives_bind_iff hbody fun _ => settles_ofExcept _, gives_ofExcept_iff]
  constructor
  · intro h
    obtain ⟨i, hi, info, hinfo, hbytes⟩ := h
    exact ⟨i, info, hi, hinfo, hbytes⟩
  · intro h
    obtain ⟨i, info, hi, hinfo, hbytes⟩ := h
    exact ⟨i, hi, info, hinfo, hbytes⟩

theorem gives_slotAttribute_iff_of_written (h : slot.isWritten set = true)
    {found : Option WrittenAttribute} :
    Gives (slotAttribute set slot) pool found ↔
      ∃ i info, Gives (utf8 slot.name) pool i ∧ Gives (slotBody set slot) pool info
        ∧ found = some ⟨i, info⟩ := by
  have hbody := settles_slotBody set slot
  rw [slotAttribute_of_written h,
    gives_bind_iff (settles_utf8 _) fun _ => hbody.bind fun _ => settles_pure _]
  simp only [gives_map_iff hbody]
  constructor
  · intro h
    obtain ⟨i, hi, info, hinfo, rfl⟩ := h
    exact ⟨i, info, hi, hinfo, rfl⟩
  · intro h
    obtain ⟨i, info, hi, hinfo, rfl⟩ := h
    exact ⟨i, hi, info, hinfo, rfl⟩

/-- Slots for which nothing is written do not show in the bytes. -/
theorem gives_slots_iff {slots : List AttributeSlot} {parts : List Bytes} :
    (∃ found, List.Forall₂ (fun slot f => Gives (slotAttribute set slot) pool f) slots found
        ∧ List.Forall₂ (fun a part => attributeBytes a = .ok part) (found.filterMap id) parts) ↔
      List.Forall₂ (fun slot part => Gives (slotBytes set slot) pool part)
        (slots.filter (AttributeSlot.isWritten set)) parts := by
  induction slots generalizing parts with
  | nil => simp
  | cons slot slots ih =>
    cases h : slot.isWritten set with
    | false =>
      rw [List.filter_cons_of_neg (by simp [h]), ← ih]
      constructor
      · intro hleft
        obtain ⟨_, hfound, hparts⟩ := hleft
        obtain ⟨f, found, hf, hrest, rfl⟩ := List.forall₂_cons_left_iff.1 hfound
        rw [slotAttribute_of_not_written h, gives_pure_iff] at hf
        subst hf
        exact ⟨found, hrest, hparts⟩
      · intro hright
        obtain ⟨found, hfound, hparts⟩ := hright
        refine ⟨none :: found, .cons ?_ hfound, hparts⟩
        rw [slotAttribute_of_not_written h, gives_pure_iff]
    | true =>
      rw [List.filter_cons_of_pos h, List.forall₂_cons_left_iff]
      constructor
      · intro hleft
        obtain ⟨_, hfound, hparts⟩ := hleft
        obtain ⟨f, found, hf, hrest, rfl⟩ := List.forall₂_cons_left_iff.1 hfound
        obtain ⟨i, info, hi, hinfo, rfl⟩ := (gives_slotAttribute_iff_of_written h).1 hf
        obtain ⟨part, parts, hpart, htail, rfl⟩ := List.forall₂_cons_left_iff.1 hparts
        exact ⟨part, parts, gives_slotBytes_iff.2 ⟨i, info, hi, hinfo, hpart⟩,
          ih.1 ⟨found, hrest, htail⟩, rfl⟩
      · intro hright
        obtain ⟨part, parts, hpart, htail, rfl⟩ := hright
        obtain ⟨i, info, hi, hinfo, hbytes⟩ := gives_slotBytes_iff.1 hpart
        obtain ⟨found, hfound, hparts⟩ := ih.2 htail
        refine ⟨some ⟨i, info⟩ :: found, .cons ?_ hfound, .cons hbytes hparts⟩
        exact (gives_slotAttribute_iff_of_written h).2 ⟨i, info, hi, hinfo, rfl⟩

/-- The slots that a table has and those that it lacks are written alike. -/
theorem attributes_eq (t : AttributeTable) :
    attributes t =
      (t.slots ++ (withoutSlot t.slots).map AttributeSlot.annotations).mapM
          (slotAttribute t.annotations)
        >>= fun found => count .attributes (found.filterMap id).length
        >>= fun size => MonadExcept.ofExcept ((found.filterMap id).mapM attributeBytes)
        >>= fun bodies => pure (size ++ bodies.flatten) := by
  have hadded : ((withoutSlot t.slots).map AttributeSlot.annotations).mapM
        (slotAttribute t.annotations)
      = (withoutSlot t.slots).mapM (annotationAttribute t.annotations) := by
    rw [List.mapM_map]
    rfl
  rw [List.mapM_append, hadded, attributes]
  simp

/-- The bytes of a table are those of its written slots. -/
theorem gives_attributes_iff {t : AttributeTable} {bytes : Bytes} :
    Gives (attributes t) pool bytes ↔
      t.writtenSlots.length ≤ maxWord ∧ ∃ parts : List Bytes,
        List.Forall₂ (fun slot part => Gives (slotBytes t.annotations slot) pool part)
            t.writtenSlots parts
          ∧ bytes = BigEndian.ofUInt16 (UInt16.ofNat t.writtenSlots.length) ++ parts.flatten := by
  have hslot : ∀ slot, (slotAttribute t.annotations slot).Settles := settles_slotAttribute _
  have hbodies : ∀ (written : List WrittenAttribute) (size : Bytes), Settles
      (MonadExcept.ofExcept (written.mapM attributeBytes) >>= fun bodies =>
        pure (size ++ bodies.flatten)) := fun _ _ =>
    (settles_ofExcept _).bind fun _ => settles_pure _
  rw [attributes_eq, gives_bind_iff (Settles.mapM fun slot _ => hslot slot) fun _ =>
    (settles_count _ _).bind fun _ => hbodies _ _]
  simp only [gives_bind_iff (settles_count _ _) fun _ => hbodies _ _, gives_count_iff,
    gives_mapM_iff fun slot _ => hslot slot, gives_map_iff (settles_ofExcept _),
    gives_ofExcept_iff, except_mapM_eq_ok_iff]
  constructor
  · intro h
    obtain ⟨found, hfound, _, ⟨hfits, rfl⟩, parts, hparts, rfl⟩ := h
    have hwritten := gives_slots_iff.1 ⟨found, hfound, hparts⟩
    have hlen : (found.filterMap id).length = t.writtenSlots.length :=
      hparts.length_eq.trans hwritten.length_eq.symm
    rw [hlen] at hfits ⊢
    exact ⟨hfits, parts, hwritten, rfl⟩
  · intro h
    obtain ⟨hfits, parts, hwritten, rfl⟩ := h
    obtain ⟨found, hfound, hparts⟩ := gives_slots_iff.2 hwritten
    have hlen : (found.filterMap id).length = t.writtenSlots.length :=
      hparts.length_eq.trans hwritten.length_eq.symm
    rw [← hlen] at hfits ⊢
    exact ⟨found, hfound, _, ⟨hfits, rfl⟩, parts, hparts, rfl⟩

/-- Regrouping a table does not change its bytes. -/
theorem gives_attributes_regrouped_iff {t : AttributeTable} (h : t.IsWellFormed) {bytes : Bytes} :
    Gives (attributes t.regrouped) pool bytes ↔ Gives (attributes t) pool bytes := by
  have hslots : ∀ slot, slotBytes t.regrouped.annotations slot = slotBytes t.annotations slot :=
    fun slot => slotBytes_congr (h.held_regrouped slot)
  rw [gives_attributes_iff, gives_attributes_iff, h.writtenSlots_regrouped]
  simp only [hslots]

end Interning

namespace Scan

variable {pool : ConstantPool} {r : Retention}

/-! ## The body of an annotation attribute -/

/-- One more annotation of a new kind is added at the end of the set. -/
theorem reads_annotationInto (hsize : pool.size ≤ maxWord) {set : AnnotationSet}
    {a : AnnotationUse} {part : Bytes} (hwf : a.isWellFormed r 0 = true) (hnew : a.kind ∉ set.kinds)
    (h : Interning.Gives (Interning.annotationUse a) pool part) :
    Reads (annotationInto pool r set) part ⟨set.entries ++ [a]⟩ := by
  have hcontains : set.contains a.kind = false := by
    rw [Bool.eq_false_iff, ne_eq, AnnotationSet.contains_eq_true_iff]
    exact hnew
  have hinsert : set.insert a = ⟨set.entries ++ [a]⟩ := by
    have hentries := AnnotationSet.entries_insert_of_not_mem hnew
    rw [AnnotationUse.normalize_of_isWellFormed hwf] at hentries
    rw [← hentries]
  have hnext : Reads (if set.contains a.kind then throw (.duplicateKind a.kind)
      else pure (set.insert a)) [] (⟨set.entries ++ [a]⟩ : AnnotationSet) := by
    rw [if_neg (by simp [hcontains]), hinsert]
    exact reads_pure _
  have hread : Reads (annotationInto pool r set) (part ++ []) _ :=
    (reads_annotationAt hsize hwf h).bind hnext
  rwa [List.append_nil] at hread

/-- The annotations of an attribute are read back into a set that holds none of their kinds. -/
theorem reads_annotationsInto (hsize : pool.size ≤ maxWord) {set : AnnotationSet}
    {as : List AnnotationUse} {body : Bytes} (hwf : ∀ a ∈ as, a.isWellFormed r 0 = true)
    (hnodup : (set.kinds ++ as.map (·.kind)).Nodup)
    (h : Interning.Gives (Interning.annotationsBody as) pool body) :
    Reads (annotationsInto pool r set) body ⟨set.entries ++ as⟩ := by
  obtain ⟨hfits, parts, hparts, rfl⟩ := Interning.gives_annotationsBody_iff.1 h
  refine (reads_word16 _).bind ?_
  rw [toNat_tableCount hfits]
  have hloop : Meets ((List.replicate as.length ()).foldlM
      (fun set _ => annotationInto pool r set) set) parts.flatten True
      (· = (⟨set.entries ++ as⟩ : AnnotationSet)) := by
    refine meets_foldlM (I := fun (front : List AnnotationUse) (state : AnnotationSet) =>
      state = ⟨set.entries ++ front⟩) hparts (by rw [List.append_nil]) ?_
    intro front a back part state has hpart hstate
    subst hstate
    have hnew : a.kind ∉ (⟨set.entries ++ front⟩ : AnnotationSet).kinds := by
      rw [has, List.map_append, List.map_cons, ← List.append_assoc] at hnodup
      have hdisjoint := (List.nodup_append.1 hnodup).2.2
      rw [AnnotationSet.kinds, List.map_append]
      exact fun hmem => hdisjoint _ hmem _ List.mem_cons_self rfl
    have hread := reads_annotationInto hsize (hwf a (by rw [has]; simp)) hnew hpart
    exact hread.meets (by rw [List.append_assoc]) True
  exact hloop.reads trivial

/-- What is read into a set are well-formed annotations of new kinds, and they are restored. -/
theorem ensures_annotationsInto (set : AnnotationSet) :
    Ensures (annotationsInto pool r set) fun bytes found =>
      ∃ as : List AnnotationUse, found.entries = set.entries ++ as
        ∧ (∀ a ∈ as, a.isWellFormed r 0 = true)
        ∧ (set.kinds.Nodup → found.kinds.Nodup)
        ∧ Interning.Restores (Interning.annotationsBody as) pool bytes := by
  refine ensures_word16.bind ?_
  intro front count hfront
  subst hfront
  refine (ensures_foldlM (I := fun n taken (state : AnnotationSet) => ∃ (as : List AnnotationUse)
      (parts : List Bytes), as.length = n ∧ taken = parts.flatten
        ∧ state.entries = set.entries ++ as ∧ (set.kinds.Nodup → state.kinds.Nodup)
        ∧ List.Forall₂ (fun part a => a.isWellFormed r 0 = true
            ∧ Interning.Restores (Interning.annotationUse a) pool part) parts as)
      ⟨[], [], rfl, rfl, (List.append_nil _).symm, id, .nil⟩ ?_ count.toNat).mono ?_
  · intro n taken state hstate
    obtain ⟨as, parts, hlen, rfl, hentries, hnodup, has⟩ := hstate
    refine ensures_annotationAt.bind ?_
    intro part a ha
    split
    · exact ensures_throw _ _
    · next hcontains =>
      have hnew : a.kind ∉ state.kinds := fun hmem =>
        hcontains (AnnotationSet.contains_eq_true_iff.2 hmem)
      refine ensures_pure ⟨as ++ [a], parts ++ [part], ?_, ?_, ?_, ?_, ?_⟩
      · rw [List.length_append, hlen, List.length_singleton]
      · simp
      · rw [AnnotationSet.entries_insert_of_not_mem hnew,
          AnnotationUse.normalize_of_isWellFormed ha.1, hentries, List.append_assoc]
      · exact fun hset => AnnotationSet.nodup_kinds_insert (hnodup hset) a
      · exact List.rel_append has (.cons ha .nil)
  · intro back found hfound
    obtain ⟨as, parts, hlen, rfl, hentries, hnodup, has⟩ := hfound
    obtain ⟨hwf, hparts⟩ := Interning.forall₂_restores has
    have hcount := count.toNat_lt
    refine ⟨as, hentries, hwf, hnodup, fun hpool => ?_⟩
    refine Interning.gives_annotationsBody_iff.2 ⟨?_, parts, hparts hpool, ?_⟩
    · simp only [maxWord]
      omega
    · rw [hlen, UInt16.ofNat_toNat]

end Scan

end AnnotationGraft
