import AnnotationGraft.Proofs.Annotations.Texts
import AnnotationGraft.Proofs.ClassFile.AttributeOrigin
import AnnotationGraft.Proofs.ClassFile.RoundTrip

/-!
# The texts of classes

`ClassFile.texts` are the texts of a class: its names, those of its members and attributes, and the
texts of its annotations.

The texts of a class that was read fit into string entries (`ClassFile.texts_of_decode`), and a
class whose texts fit may be too large to be written, but none of its texts is too long
(`ClassFile.encode_ne_stringTooLong`).
-/

namespace AnnotationGraft

open ModifiedUtf8 (FitsEntry)

/-- The names of the attributes of a table, and the texts of its annotations. -/
def AttributeTable.texts (t : AttributeTable) : List String :=
  t.slots.map AttributeSlot.name ++ t.annotations.entries.flatMap AnnotationUse.texts

/-- What a class is called and refers to by name, with its members' names and descriptors. -/
def ClassFile.names (c : ClassFile) : List String :=
  c.name.internal :: (c.superName.toList ++ c.interfaces
    ++ c.members.flatMap fun m => [m.id.name, m.id.descriptor])

/-- The texts of a class. -/
def ClassFile.texts (c : ClassFile) : List String :=
  c.names ++ c.tables.flatMap AttributeTable.texts

theorem AttributeTable.forall_mem_texts_iff {t : AttributeTable} {P : String → Prop} :
    (∀ s ∈ t.texts, P s) ↔
      (∀ slot ∈ t.slots, P slot.name) ∧ ∀ a ∈ t.annotations.entries, ∀ s ∈ a.texts, P s := by
  simp only [texts, List.forall_mem_append, List.forall_mem_map, List.mem_flatMap,
    forall_exists_index, and_imp]
  constructor
  · exact fun h => ⟨h.1, fun a ha s hs => h.2 s a ha hs⟩
  · exact fun h => ⟨h.1, fun s a ha hs => h.2 a ha s hs⟩

theorem ClassFile.forall_mem_names_iff {c : ClassFile} {P : String → Prop} :
    (∀ s ∈ c.names, P s) ↔
      P c.name.internal ∧ (∀ s ∈ c.superName, P s) ∧ (∀ s ∈ c.interfaces, P s)
        ∧ ∀ m ∈ c.members, P m.id.name ∧ P m.id.descriptor := by
  simp only [names, List.forall_mem_cons, List.forall_mem_append, Option.mem_toList,
    List.mem_flatMap, forall_exists_index, and_imp, and_assoc]
  refine and_congr_right fun _ => and_congr_right fun _ => and_congr_right fun _ => ?_
  constructor
  · exact fun h m hm => ⟨h _ m hm (by simp), h _ m hm (by simp)⟩
  · intro h s m hm hs
    rcases List.mem_pair.1 hs with rfl | rfl
    · exact (h m hm).1
    · exact (h m hm).2

theorem ClassFile.forall_mem_texts_iff {c : ClassFile} {P : String → Prop} :
    (∀ s ∈ c.texts, P s) ↔ (∀ s ∈ c.names, P s) ∧ ∀ t ∈ c.tables, ∀ s ∈ t.texts, P s := by
  simp only [texts, List.forall_mem_append, List.mem_flatMap, forall_exists_index, and_imp]
  refine and_congr_right fun _ => ?_
  exact ⟨fun h t ht s hs => h s t ht hs, fun h s t ht hs => h t ht s hs⟩

/-! ## Texts that were read -/

namespace Scan

variable {pool : ConstantPool}

theorem ensures_className_fits (hpool : pool.TextsFit) :
    Ensures (lookup pool.className) fun _ s => FitsEntry s := by
  refine ensures_lookup.mono ?_
  intro bytes s hs
  obtain ⟨i, -, hi⟩ := hs
  obtain ⟨text, -, htext⟩ := ConstantPool.className_eq_ok_iff.1 hi
  exact hpool.fitsEntry htext

theorem ensures_superName_fits (hpool : pool.TextsFit) :
    Ensures (superName pool) fun _ name => ∀ s ∈ name, FitsEntry s := by
  refine ensures_word16.bind ?_
  intro front i _
  split
  · exact ensures_pure nofun
  · refine (ensures_ofExcept (R := fun _ s => FitsEntry s) fun s hs => ?_).map ?_
    · obtain ⟨text, -, htext⟩ := ConstantPool.className_eq_ok_iff.1 hs
      exact hpool.fitsEntry htext
    · intro back name hname s hs
      rwa [← Option.some.inj hs]

theorem ensures_member_fits (hpool : pool.TextsFit) (kind : MemberKind) :
    Ensures (member pool kind) fun _ m => FitsEntry m.id.name ∧ FitsEntry m.id.descriptor := by
  refine ensures_word16.bind ?_
  intro flagBytes flags _
  refine (ensures_lookup_fits hpool).bind ?_
  intro nameBytes name hname
  refine (ensures_descriptor_fits hpool).bind ?_
  intro descriptorBytes d hd
  split
  · exact ensures_throw _ _
  · exact ensures_attributes.map fun _ _ _ => ⟨hname, hd⟩

theorem ensures_classBody_names (hpool : pool.TextsFit) (version : ClassVersion) :
    Ensures (classBody version pool) fun _ c => ∀ s ∈ c.names, FitsEntry s := by
  refine ensures_word16.bind ?_
  intro flagBytes flags _
  refine (ensures_className_fits hpool).bind ?_
  intro nameBytes name hname
  refine (ensures_ofExcept (R := fun _ _ => True) fun _ _ => trivial).bind ?_
  intro checkBytes _ _
  refine (ensures_superName_fits hpool).bind ?_
  intro superBytes super hsuper
  refine (ensures_table_forall (ensures_className_fits hpool)).bind ?_
  intro interfaceBytes interfaces hinterfaces
  refine (ensures_table_forall (ensures_member_fits hpool .field)).bind ?_
  intro fieldBytes fields hfields
  refine (ensures_table_forall (ensures_member_fits hpool .method)).bind ?_
  intro methodBytes methods hmethods
  refine ensures_attributes.map fun back t _ => ?_
  exact ClassFile.forall_mem_names_iff.2
    ⟨hname, hsuper, hinterfaces, List.forall_mem_append.2 ⟨hfields, hmethods⟩⟩

theorem ensures_classFile_names : Ensures classFile fun _ c => ∀ s ∈ c.names, FitsEntry s := by
  refine ensures_header.bind ?_
  intro headerBytes version _
  refine ConstantPool.ensures_scan.bind ?_
  intro segment pool hpool
  refine (ensures_ofExcept (R := fun _ _ => True) fun _ _ => trivial).bind ?_
  intro checkBytes _ _
  exact ensures_classBody_names hpool.2.2.1 version

end Scan

/-- The texts of a table fit where it stands for one of a file. -/
theorem AttributeTable.StandsIn.texts {pool : ConstantPool} {t : AttributeTable} {bytes : Bytes}
    (h : t.StandsIn pool bytes) (hgrouped : t.IsGrouped) (hpool : pool.TextsFit) :
    ∀ s ∈ t.texts, FitsEntry s := by
  obtain ⟨middle, -, -, parts, -, hslots⟩ := h
  have hslot : ∀ slot ∈ t.slots, ∃ part, slot.StandsFor pool t.annotations part := by
    intro slot hslot
    obtain ⟨i, hi, rfl⟩ := List.getElem_of_mem hslot
    exact ⟨_, hslots.get hi (hslots.length_eq ▸ hi)⟩
  refine AttributeTable.forall_mem_texts_iff.2 ⟨fun slot hmem => ?_, fun a ha => ?_⟩
  · obtain ⟨part, i, info, hi, -⟩ := hslot slot hmem
    exact hpool.fitsEntry hi
  · obtain ⟨part, i, info, -, -, start, finish, htable⟩ := hslot _ (hgrouped.annotations_mem ha)
    obtain ⟨-, -, has⟩ :=
      Scan.ensures_table_forall (Scan.ensures_annotationAt_texts hpool 0) _ _ _ htable
    exact has a (List.mem_filter.2 ⟨ha, by simp⟩)

namespace ClassFile

variable {c : ClassFile}

/-- The texts of a class that was read fit into string entries, and so do those of its pool. -/
theorem texts_of_decode {bytes : Bytes} (h : decode bytes = .ok c) :
    c.pool.TextsFit ∧ ∀ s ∈ c.texts, FitsEntry s := by
  obtain ⟨n, hrun⟩ := decode_eq_ok_iff.1 h
  obtain ⟨taken, -, ⟨⟨-, hgrouped, -, hpool, -⟩, hstands⟩, hnames⟩ :=
    ((Scan.ensures_classFile.and Scan.ensures_classFile_standsIn).and
      Scan.ensures_classFile_names) _ _ _ hrun
  exact ⟨hpool, forall_mem_texts_iff.2
    ⟨hnames, fun t ht => (hstands t ht).texts (hgrouped.tables t ht) hpool⟩⟩

end ClassFile

/-! ## Texts that are written -/

/-- A pool whose texts fit may have too many slots to be written, but no text that is too long. -/
theorem ConstantPool.segment_ne_stringTooLong {pool : ConstantPool} (hpool : pool.TextsFit)
    {e : EncodeError} (h : pool.segment = .error e) (size : Nat) : e ≠ .stringTooLong size := by
  rcases except_bind_eq_error_iff.1 h with hcount | ⟨count, -, hentries⟩
  · unfold Interning.tableCount at hcount
    split at hcount
    · cases hcount
    · cases hcount
      exact nofun
  · rcases except_bind_eq_error_iff.1 hentries with hmapM | ⟨parts, -, hpure⟩
    · obtain ⟨entry, hentry, he⟩ := exists_of_except_mapM_eq_error hmapM
      have hfits := textsFit_iff.1 hpool entry.2 (List.mem_map_of_mem hentry)
      rw [Constant.segment_eq_ok_iff.2 ⟨hfits, rfl⟩] at he
      cases he
    · cases hpure

namespace Interning

theorem neverTooLong_attributeBytes (as : List WrittenAttribute) :
    NeverTooLong (MonadExcept.ofExcept (as.mapM attributeBytes) : Interning (List Bytes)) := by
  refine neverTooLong_ofExcept fun size h => ?_
  obtain ⟨a, -, ha⟩ := exists_of_except_mapM_eq_error h
  unfold attributeBytes at ha
  split at ha <;> cases ha

theorem neverTooLong_slotAttribute {set : AnnotationSet} {slot : AttributeSlot}
    (hname : FitsEntry slot.name) (hset : ∀ a ∈ set.entries, ∀ s ∈ a.texts, FitsEntry s) :
    (slotAttribute set slot).NeverTooLong := by
  cases hwritten : slot.isWritten set with
  | false =>
    rw [slotAttribute_of_not_written hwritten]
    exact neverTooLong_pure none
  | true =>
    rw [slotAttribute_of_written hwritten]
    refine (neverTooLong_utf8 hname).bind fun i => NeverTooLong.map ?_ _
    cases slot with
    | verbatim name info => exact neverTooLong_pure info
    | annotations r =>
      refine (neverTooLong_count _ _).bind fun size => NeverTooLong.map ?_ _
      refine NeverTooLong.mapM fun a ha => neverTooLong_annotationUse ?_
      exact hset a (List.mem_filter.1 ha).1

theorem fitsEntry_attributeName (r : Retention) : FitsEntry r.attributeName := by
  cases r <;> unfold FitsEntry <;> decide +kernel

theorem neverTooLong_attributes {t : AttributeTable} (h : ∀ s ∈ t.texts, FitsEntry s) :
    (attributes t).NeverTooLong := by
  obtain ⟨hslots, hset⟩ := AttributeTable.forall_mem_texts_iff.1 h
  refine (NeverTooLong.mapM fun slot hslot => ?_).bind fun placed => ?_
  · exact neverTooLong_slotAttribute (hslots slot hslot) hset
  refine (NeverTooLong.mapM fun r _ => ?_).bind fun added => ?_
  · have hname : FitsEntry (AttributeSlot.annotations r).name := fitsEntry_attributeName r
    exact neverTooLong_slotAttribute hname hset
  refine (neverTooLong_count _ _).bind fun size => ?_
  exact (neverTooLong_attributeBytes _).map _

theorem neverTooLong_member {m : Member} (hname : FitsEntry m.id.name)
    (hdescriptor : FitsEntry m.id.descriptor) (h : ∀ s ∈ m.attributes.texts, FitsEntry s) :
    (member m).NeverTooLong := by
  refine (neverTooLong_reference (neverTooLong_utf8 hname)).bind fun _ => ?_
  refine (neverTooLong_reference (neverTooLong_utf8 hdescriptor)).bind fun _ => ?_
  exact (neverTooLong_attributes h).map _

theorem neverTooLong_members {kind : TableKind} {ms : List Member}
    (h : ∀ m ∈ ms, (member m).NeverTooLong) : (members kind ms).NeverTooLong :=
  (neverTooLong_count _ _).bind fun _ => (NeverTooLong.mapM h).map _

theorem neverTooLong_superName {name : Option String} (h : ∀ s ∈ name, FitsEntry s) :
    (superName name).NeverTooLong := by
  cases name with
  | none => exact neverTooLong_pure _
  | some name => exact neverTooLong_reference (neverTooLong_className (h name rfl))

theorem neverTooLong_classBody {c : ClassFile} (h : ∀ s ∈ c.texts, FitsEntry s) :
    (classBody c).NeverTooLong := by
  obtain ⟨hnames, htables⟩ := ClassFile.forall_mem_texts_iff.1 h
  obtain ⟨hname, hsuper, hinterfaces, hids⟩ := ClassFile.forall_mem_names_iff.1 hnames
  have hmembers : ∀ kind, ∀ m ∈ c.membersOfKind kind, (member m).NeverTooLong := by
    intro kind m hm
    have hmem := (List.mem_filter.1 hm).1
    exact neverTooLong_member (hids m hmem).1 (hids m hmem).2
      (htables _ (ClassFile.mem_tables_of_mem hmem))
  refine (neverTooLong_reference (neverTooLong_className hname)).bind fun _ => ?_
  refine (neverTooLong_superName hsuper).bind fun _ => ?_
  refine (neverTooLong_count _ _).bind fun _ => ?_
  refine (NeverTooLong.mapM fun i hi => ?_).bind fun _ => ?_
  · exact neverTooLong_reference (neverTooLong_className (hinterfaces i hi))
  refine (neverTooLong_members (hmembers .field)).bind fun _ => ?_
  refine (neverTooLong_members (hmembers .method)).bind fun _ => ?_
  exact (neverTooLong_attributes (htables _ ClassFile.attributes_mem_tables)).map _

end Interning

/-- A class whose texts fit, and those of its pool, has no text that is too long to be written. -/
theorem ClassFile.encode_ne_stringTooLong {c : ClassFile} (hpool : c.pool.TextsFit)
    (htexts : ∀ s ∈ c.texts, FitsEntry s) {e : EncodeError} (h : c.encode = .error e)
    (size : Nat) : e ≠ .stringTooLong size := by
  have hbody := Interning.neverTooLong_classBody htexts
  have hrun : (Interning.classBody c).run c.pool = Interning.classBody c c.pool := rfl
  unfold encode at h
  rw [hrun] at h
  cases hwritten : Interning.classBody c c.pool with
  | error e' pool =>
    rw [hwritten] at h
    cases h
    exact hbody.error_ne hwritten size
  | ok body pool =>
    rw [hwritten] at h
    rcases except_bind_eq_error_iff.1 h with hsegment | ⟨segment, -, hpure⟩
    · exact ConstantPool.segment_ne_stringTooLong (hbody.textsFit hwritten hpool) hsegment size
    · cases hpure

end AnnotationGraft
