import AnnotationGraft.Proofs.ClassFile.AttributeOrigin
import AnnotationGraft.Proofs.ClassFile.RoundTrip
import AnnotationGraft.Proofs.ConstantPool.Layout

/-!
# What reading establishes

`ClassFile.IsSoundIn` lists what may be relied on in a class that was read from a file: about its
pool, its names, its members, and each of its attribute tables.  `ClassFile.isSoundIn_of_decode`
says that every class has all of it that is read from any bytes at all.
-/

namespace AnnotationGraft

/-- What may be relied on in an attribute table that was read. -/
structure AttributeTable.IsSoundIn (pool : ConstantPool) (t : AttributeTable) (bytes : Bytes) :
    Prop where
  /-- No kind occurs twice, be it in one attribute or in both. -/
  kinds : t.annotations.kinds.Nodup
  /-- Kinds and enum types are object descriptors and class literals are result descriptors, the
  annotations within an annotation have its retention, and no value lies deeper than `maxDepth`. -/
  annotations : ∀ a ∈ t.annotations.entries, a.isWellFormed a.retention 0 = true
  /-- Each retention has at most one slot. -/
  atMostOneSlot : ∀ r, t.slots.count (.annotations r) ≤ 1
  /-- Every annotation belongs to the slot of its retention. -/
  slotOf : ∀ a ∈ t.annotations.entries, .annotations a.retention ∈ t.slots
  /-- A verbatim slot of an annotation attribute's name follows the slot of the annotations. -/
  verbatimAfter : ∀ front r info back, t.slots = front ++ .verbatim r.attributeName info :: back →
    .annotations r ∈ front
  /-- The slots stand for attributes of the file, and an annotation has the retention of the
  attribute from which it was read. -/
  origin : t.StandsIn pool bytes

/-- What may be relied on in a class that was read from `bytes`. -/
structure ClassFile.IsSoundIn (c : ClassFile) (bytes : Bytes) : Prop where
  version : 45 ≤ c.version.major.toNat ∧ c.version.major.toNat ≤ 69
  /-- The pool has as many slots as the file announces. -/
  slotCount : ConstantPool.declaredSlots? bytes = some c.pool.size
  /-- Slot 0 is empty, and the slot after each long or double entry, and no other. -/
  emptySlots : ∀ k, c.pool.slots.toList[k]? = some none ↔
    k = 0 ∨ ∃ j entry, k = j + 1 ∧ c.pool.slots.toList[j]? = some (some entry)
      ∧ (entry.kind = .long ∨ entry.kind = .double)
  /-- Every reference of an entry leads to an entry of the kind that it needs. -/
  linked : c.pool.IsLinked
  name : Descriptor.isClassName c.name.internal = true
  /-- The fields stand before the methods. -/
  fieldsFirst : ∃ fields methods, c.members = fields ++ methods
    ∧ (∀ m ∈ fields, m.id.kind = .field) ∧ ∀ m ∈ methods, m.id.kind = .method
  named : ∀ m ∈ c.members, m.id.name ≠ ""
  fieldTypes : ∀ m ∈ c.members, m.id.kind = .field →
    Descriptor.isFieldType m.id.descriptor = true
  methodTypes : ∀ m ∈ c.members, m.id.kind = .method →
    Descriptor.isMethodType m.id.descriptor = true
  tables : ∀ t ∈ c.tables, t.IsSoundIn c.pool bytes

/-- A well-formed table whose annotations stand in the order of their slots has all that may be
relied on, once its origin is known. -/
theorem AttributeTable.IsWellFormed.isSoundIn {pool : ConstantPool} {t : AttributeTable}
    {bytes : Bytes} (hwf : t.IsWellFormed) (hgrouped : t.IsGrouped)
    (horigin : t.StandsIn pool bytes) : t.IsSoundIn pool bytes where
  kinds := hwf.annotations.kinds_nodup
  annotations := hwf.annotations.entries
  atMostOneSlot := hwf.atMostOne
  slotOf _ ha := hgrouped.annotations_mem ha
  verbatimAfter front r info back hslots :=
    hwf.rolesKept front (.verbatim r.attributeName info) back hslots r rfl
      (Retention.ofAttributeName?_attributeName r)
  origin := horigin

/-- A class file announces the slots of the pool that stands in it. -/
theorem ConstantPool.declaredSlots?_eq {version : ClassVersion} {pool : ConstantPool}
    {segment body : Bytes} (h : pool.segment = .ok segment) :
    declaredSlots? (ClassFile.headerBytes version ++ segment ++ body) = some pool.size := by
  obtain ⟨hsize, -, rfl⟩ := segment_eq_ok_iff.1 h
  have hheader : (ClassFile.headerBytes version).length = 8 := by
    simp [ClassFile.headerBytes]
  rw [List.append_assoc, List.append_assoc, declaredSlots?_append hheader,
    Scan.toNat_tableCount hsize]

namespace ClassFile

/-- A class that was read has all that may be relied on, whatever the bytes. -/
theorem isSoundIn_of_decode {bytes : Bytes} {c : ClassFile} (h : decode bytes = .ok c) :
    c.IsSoundIn bytes := by
  obtain ⟨n, hrun⟩ := decode_eq_ok_iff.1 h
  obtain ⟨taken, htaken, ⟨hwf, hgrouped, -, -, segment, body, hbytes, hsegment, -⟩, hstands⟩ :=
    (Scan.ensures_classFile.and Scan.ensures_classFile_standsIn) _ _ _ hrun
  obtain rfl : bytes = taken := htaken.trans (List.append_nil taken)
  have hversion := hwf.version
  simp only [ClassVersion.isSupported, Bool.and_eq_true, decide_eq_true_eq] at hversion
  have hkind : ∀ kind, ∀ m ∈ c.membersOfKind kind, m.id.kind = kind := fun kind m hm =>
    of_decide_eq_true (List.mem_filter.1 hm).2
  refine ⟨hversion, ?_, fun k => hwf.laidOut.getElem?_eq_none_iff,
    ConstantPool.linked_of_checkReferences hwf.references, hwf.name,
    ⟨_, _, hwf.fieldsFirst.symm, hkind .field, hkind .method⟩, fun m hm => (hwf.members m hm).named,
    fun m hm hfield => ?_, fun m hm hmethod => ?_,
    fun t ht => (hwf.tables t ht).isSoundIn (hgrouped.tables t ht) (hstands t ht)⟩
  · rw [hbytes]
    exact ConstantPool.declaredSlots?_eq hsegment
  · have hdescriptor := (hwf.members m hm).descriptor
    rwa [hfield] at hdescriptor
  · have hdescriptor := (hwf.members m hm).descriptor
    rwa [hmethod] at hdescriptor

/-- A class with a long entry, and with annotations of both retentions on a field. -/
theorem twoRetentionsRead_isSoundIn : decode twoRetentionsBytes = .ok twoRetentionsRead ∧
    twoRetentionsRead.IsSoundIn twoRetentionsBytes :=
  ⟨decode_twoRetentionsBytes, isSoundIn_of_decode decode_twoRetentionsBytes⟩

end ClassFile

end AnnotationGraft
