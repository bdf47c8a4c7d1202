import AnnotationGraft.Proofs.ClassFile.ClassScan

/-!
# Where slots come from

A slot of a table that was read stands for an attribute of the file (`AttributeSlot.StandsFor`).
For a verbatim slot, name and body are those of the attribute.  For an annotation slot, the body of
the attribute, read as a table of annotations and to its end, gives just the annotations that the
set has of the slot's retention.

`Scan.ensures_attributes_standsIn` says so of one table.  A class has many tables, and each of them
stands somewhere in its bytes (`Scan.ensures_classFile_standsIn`).
-/

namespace AnnotationGraft

open AttributeSlot (held)

/-! ## Slots and attributes -/

/-- The body of an attribute holds what the slot does. -/
def AttributeSlot.HasBody (pool : ConstantPool) (set : AnnotationSet) :
    AttributeSlot → Bytes → Prop
  | annotations r, info => ∃ start finish,
      Scan.table (Scan.annotationAt pool r 0) ⟨info, start⟩
        = .ok (set.withRetention r, ⟨[], finish⟩)
  | verbatim _ body, info => info = body

/-- The slot stands for the attribute whose bytes are `part`. -/
def AttributeSlot.StandsFor (pool : ConstantPool) (set : AnnotationSet) (slot : AttributeSlot)
    (part : Bytes) : Prop :=
  ∃ i info, pool.utf8 i = .ok slot.name
    ∧ Interning.attributeBytes ⟨i, info⟩ = .ok part
    ∧ slot.HasBody pool set info

/-- Each slot of the table stands for an attribute of the table whose bytes are `bytes`. -/
def AttributeTable.StandsFor (pool : ConstantPool) (t : AttributeTable) (bytes : Bytes) : Prop :=
  t.slots.length ≤ maxWord ∧ ∃ parts : List Bytes,
    bytes = BigEndian.ofUInt16 (UInt16.ofNat t.slots.length) ++ parts.flatten
      ∧ List.Forall₂ (AttributeSlot.StandsFor pool t.annotations) t.slots parts

/-- The table stands for an attribute table within `bytes`. -/
def AttributeTable.StandsIn (pool : ConstantPool) (t : AttributeTable) (bytes : Bytes) : Prop :=
  ∃ middle, middle <:+: bytes ∧ t.StandsFor pool middle

/-- The attribute tables of a class: its own and those of its members. -/
def ClassFile.tables (c : ClassFile) : List AttributeTable :=
  c.attributes :: c.members.map Member.attributes

namespace ClassFile

variable {c : ClassFile}

theorem attributes_mem_tables : c.attributes ∈ c.tables := List.mem_cons_self

theorem mem_tables_of_mem {m : Member} (hm : m ∈ c.members) : m.attributes ∈ c.tables :=
  List.mem_cons_of_mem _ (List.mem_map_of_mem hm)

theorem forall_mem_tables_iff {P : AttributeTable → Prop} :
    (∀ t ∈ c.tables, P t) ↔ P c.attributes ∧ ∀ m ∈ c.members, P m.attributes := by
  rw [tables, List.forall_mem_cons, List.forall_mem_map]

theorem IsWellFormed.tables (h : c.IsWellFormed) : ∀ t ∈ c.tables, t.IsWellFormed :=
  forall_mem_tables_iff.2 ⟨h.attributes, fun m hm => (h.members m hm).attributes⟩

theorem IsGrouped.tables (h : c.IsGrouped) : ∀ t ∈ c.tables, t.IsGrouped :=
  forall_mem_tables_iff.2 ⟨h.attributes, h.members⟩

end ClassFile

variable {pool : ConstantPool}

/-- What a slot stands for depends on the annotations that it holds only. -/
theorem AttributeSlot.StandsFor.congr {s t : AnnotationSet} {slot : AttributeSlot} {part : Bytes}
    (h : slot.StandsFor pool s part) (hheld : slot.held t = slot.held s) :
    slot.StandsFor pool t part := by
  obtain ⟨i, info, hi, hpart, hbody⟩ := h
  refine ⟨i, info, hi, hpart, ?_⟩
  cases slot with
  | verbatim name body => exact hbody
  | annotations r =>
    have hr : t.withRetention r = s.withRetention r := hheld
    rwa [HasBody, hr]

theorem AttributeTable.StandsIn.mono {t : AttributeTable} {part bytes : Bytes}
    (h : t.StandsIn pool part) (hpart : part <:+: bytes) : t.StandsIn pool bytes := by
  obtain ⟨middle, hmiddle, ht⟩ := h
  exact ⟨middle, hmiddle.trans hpart, ht⟩

namespace Scan

/-! ## One attribute -/

/-- Reading annotations into a set is reading them as a table, and adding them at the end. -/
theorem table_of_annotationsInto {r : Retention} {set found : AnnotationSet} {input after : Input}
    (h : annotationsInto pool r set input = .ok (found, after)) :
    ∃ as, table (annotationAt pool r 0) input = .ok (as, after)
      ∧ found.entries = set.entries ++ as ∧ ∀ a ∈ as, a.retention = r := by
  suffices hloop : ∀ (n : Nat) (set : AnnotationSet) (input : Input),
      (List.replicate n ()).foldlM (fun set _ => annotationInto pool r set) set input
        = .ok (found, after) →
      ∃ as, times n (annotationAt pool r 0) input = .ok (as, after)
        ∧ found.entries = set.entries ++ as ∧ ∀ a ∈ as, a.retention = r by
    obtain ⟨count, mid, hcount, hrest⟩ := bind_eq_ok_iff.1 h
    obtain ⟨as, htimes, hentries⟩ := hloop _ _ _ hrest
    exact ⟨as, bind_eq_ok_iff.2 ⟨count, mid, hcount, htimes⟩, hentries⟩
  intro n
  induction n with
  | zero =>
    intro set input hrun
    cases hrun
    exact ⟨[], rfl, (List.append_nil _).symm, nofun⟩
  | succ n ih =>
    intro set input hrun
    rw [List.replicate_succ, List.foldlM_cons] at hrun
    obtain ⟨next, mid, hnext, hrest⟩ := bind_eq_ok_iff.1 hrun
    obtain ⟨a, _, ha, hinsert⟩ := bind_eq_ok_iff.1 hnext
    obtain ⟨_, -, hwf, -⟩ := ensures_annotationAt _ _ _ ha
    obtain ⟨as, htimes, hentries, has⟩ := ih _ _ hrest
    split at hinsert
    · cases hinsert
    next hcontains =>
    cases hinsert
    have hnew : a.kind ∉ set.kinds := fun hmem =>
      hcontains (AnnotationSet.contains_eq_true_iff.2 hmem)
    refine ⟨a :: as, ?_, ?_, ?_⟩
    · rw [times, List.replicate_succ, List.mapM_cons]
      exact bind_eq_ok_iff.2 ⟨a, _, ha, bind_eq_ok_iff.2 ⟨as, _, htimes, rfl⟩⟩
    · rw [hentries, AnnotationSet.entries_insert_of_not_mem hnew,
        AnnotationUse.normalize_of_isWellFormed hwf, List.append_assoc]
      rfl
    · exact List.forall_mem_cons.2 ⟨AnnotationUse.retention_of_isWellFormed hwf, has⟩

/-- The body of an attribute that is taken for annotations is a table of them, read to its end. -/
theorem table_of_takeAttribute {done done' : PartialTable} {name : String} {r : Retention}
    {size : UInt32} {start : Nat} {info : Bytes} {input after : Input}
    (hr : Retention.ofAttributeName? name = some r)
    (hnot : AttributeSlot.annotations r ∉ done.slotsReversed)
    (h : takeAttribute pool done name size start info input = .ok (done', after)) :
    after = input ∧ ∃ as finish,
      table (annotationAt pool r 0) ⟨info, start⟩ = .ok (as, ⟨[], finish⟩)
        ∧ done'.table = done.table.addAnnotations r as ∧ ∀ a ∈ as, a.retention = r := by
  rw [takeAttribute_of_not_isKept hr hnot] at h
  obtain ⟨⟨set, unread⟩, mid, hwithin, hrest⟩ := bind_eq_ok_iff.1 h
  unfold within at hwithin
  split at hwithin
  · next found inner hbody =>
    cases hwithin
    dsimp only at hrest
    split at hrest
    · next hunread =>
      cases hrest
      obtain ⟨as, htable, hentries, has⟩ := table_of_annotationsInto hbody
      obtain ⟨rest, finish⟩ := inner
      obtain rfl : rest = [] := List.eq_nil_of_length_eq_zero hunread
      obtain rfl : set = ⟨done.annotations.entries ++ as⟩ := congrArg AnnotationSet.mk hentries
      refine ⟨rfl, as, finish, htable, ?_, has⟩
      simp [PartialTable.table, AttributeTable.addAnnotations]
    · cases hrest
  · cases hwithin

/-- A further attribute is one that a slot stands for, and the slots before stand for theirs. -/
theorem ensures_attributeInto_standsFor {done : PartialTable} {parts : List Bytes}
    (hgrouped : done.table.IsGrouped)
    (h : List.Forall₂ (AttributeSlot.StandsFor pool done.table.annotations) done.table.slots
      parts) :
    Ensures (attributeInto pool done) fun part done' =>
      List.Forall₂ (AttributeSlot.StandsFor pool done'.table.annotations) done'.table.slots
        (parts ++ [part]) := by
  refine ensures_attributeInto fun i name size start info part hi hpart => ?_
  rcases isKept_or done name with hkept | ⟨r, hr, hnot⟩
  · rw [takeAttribute_of_isKept hkept]
    refine ensures_pure ?_
    have hslot : (AttributeSlot.verbatim name info).StandsFor pool done.annotations part :=
      ⟨i, info, hi, hpart, rfl⟩
    simpa [PartialTable.table] using List.rel_append h (.cons hslot .nil)
  · intro input done' after hrun
    obtain ⟨rfl, as, finish, htable, htaken, has⟩ := table_of_takeAttribute hr hnot hrun
    have hrslots : AttributeSlot.annotations r ∉ done.table.slots := fun hmem =>
      hnot (List.mem_reverse.1 hmem)
    have hslot : (AttributeSlot.annotations r).StandsFor pool
        (done.table.addAnnotations r as).annotations part := by
      refine ⟨i, info, ?_, hpart, start, finish, ?_⟩
      · rw [hi, ← Retention.attributeName_of_ofAttributeName? hr]
        rfl
      · rw [AttributeTable.withRetention_addAnnotations
          (hgrouped.withRetention_eq_nil hrslots) has]
        exact htable
    -- The slots before hold what they held.
    have hslots := (List.forall₂_and_left (p := (· ∈ done.table.slots)) _ _).2 ⟨fun _ => id, h⟩
    have hbefore := hslots.imp fun slot part hslot =>
      hslot.2.congr (AttributeTable.held_addAnnotations (t := done.table)
        (fun heq => hrslots (heq ▸ hslot.1)) has)
    refine ⟨[], rfl, ?_⟩
    simp only [htaken, List.append_nil]
    exact List.rel_append hbefore (.cons hslot .nil)

/-! ## Tables -/

/-- The slots of a table that was read stand for its attributes. -/
theorem ensures_attributes_standsFor :
    Ensures (attributes pool) fun bytes t => t.StandsFor pool bytes := by
  refine ensures_word16.bind ?_
  intro front count hfront
  subst hfront
  have hinit : Recovered pool (PartialTable.table ⟨.empty, []⟩) [] := recovered_empty pool
  refine (ensures_foldlM (I := fun n taken (done : PartialTable) => ∃ parts : List Bytes,
      taken = parts.flatten ∧ done.slotsReversed.length = n ∧ Recovered pool done.table parts
        ∧ List.Forall₂ (AttributeSlot.StandsFor pool done.table.annotations) done.table.slots parts)
      ⟨[], rfl, rfl, hinit, .nil⟩ ?_ count.toNat).map ?_
  · intro n taken done hdone
    obtain ⟨parts, rfl, hlen, hrecovered, hstands⟩ := hdone
    refine ((ensures_attributeInto_recovered hrecovered).and
      (ensures_attributeInto_standsFor hrecovered.grouped hstands)).mono ?_
    intro bytes done' hdone'
    exact ⟨parts ++ [bytes], by simp, by rw [hdone'.1.2, hlen], hdone'.1.1, hdone'.2⟩
  · intro bytes done hdone
    obtain ⟨parts, rfl, hlen, -, hstands⟩ := hdone
    have hword := count.toNat_lt
    have hcount : done.slotsReversed.reverse.length = count.toNat := by
      rw [List.length_reverse, hlen]
    refine ⟨?_, parts, ?_, hstands⟩
    · simp only [maxWord]
      omega
    · rw [hcount, UInt16.ofNat_toNat]

theorem ensures_member_standsIn (kind : MemberKind) :
    Ensures (member pool kind) fun bytes m => m.attributes.StandsIn pool bytes := by
  refine ensures_word16.bind ?_
  intro flagBytes flags _
  refine ensures_lookup.bind ?_
  intro nameBytes name _
  refine ensures_descriptor.bind ?_
  intro descriptorBytes d _
  split
  · exact ensures_throw _ _
  refine ensures_attributes_standsFor.map ?_
  intro back t ht
  exact ⟨back, ⟨flagBytes ++ nameBytes ++ descriptorBytes, [], by simp⟩, ht⟩

theorem ensures_members_standsIn (kind : MemberKind) :
    Ensures (table (member pool kind)) fun bytes ms =>
      ∀ m ∈ ms, m.attributes.StandsIn pool bytes := by
  refine (ensures_table (ensures_member_standsIn kind)).mono ?_
  intro bytes ms hms m hm
  obtain ⟨-, parts, rfl, hparts⟩ := hms
  obtain ⟨i, hi, rfl⟩ := List.getElem_of_mem hm
  have hlen := hparts.length_eq
  have hmem : parts[i] ∈ parts := List.getElem_mem (hlen ▸ hi)
  exact (hparts.get (hlen ▸ hi) hi).mono
    ((List.infix_of_mem_flatten hmem).trans (List.suffix_append _ _).isInfix)

/-- Every table of a class stands in its bytes. -/
theorem ensures_classBody_standsIn (version : ClassVersion) :
    Ensures (classBody version pool) fun bytes c =>
      ∀ t ∈ c.tables, t.StandsIn pool bytes := by
  refine ensures_word16.bind ?_
  intro flagBytes flags _
  refine ensures_lookup.bind ?_
  intro nameBytes name _
  refine (ensures_ofExcept (R := fun _ _ => True) fun _ _ => trivial).bind ?_
  intro checkBytes _ _
  refine ensures_superName.bind ?_
  intro superBytes superName _
  refine ensures_interfaces.bind ?_
  intro interfaceBytes interfaces _
  refine (ensures_members_standsIn .field).bind ?_
  intro fieldBytes fields hfields
  refine (ensures_members_standsIn .method).bind ?_
  intro methodBytes methods hmethods
  refine ensures_attributes_standsFor.map ?_
  intro back t ht
  refine ClassFile.forall_mem_tables_iff.2 ⟨?_, fun m hm => ?_⟩
  · exact ⟨back, ⟨flagBytes ++ nameBytes ++ checkBytes ++ superBytes ++ interfaceBytes ++ fieldBytes
      ++ methodBytes, [], by simp⟩, ht⟩
  rcases List.mem_append.1 hm with hm | hm
  · exact (hfields m hm).mono
      ⟨flagBytes ++ nameBytes ++ checkBytes ++ superBytes ++ interfaceBytes, methodBytes ++ back,
        by simp⟩
  · exact (hmethods m hm).mono
      ⟨flagBytes ++ nameBytes ++ checkBytes ++ superBytes ++ interfaceBytes ++ fieldBytes, back,
        by simp⟩

/-- Every table of a class file stands in it. -/
theorem ensures_classFile_standsIn :
    Ensures classFile fun bytes c => ∀ t ∈ c.tables, t.StandsIn c.pool bytes := by
  refine ensures_header.bind ?_
  intro headerBytes version hversion
  refine ConstantPool.ensures_scan.bind ?_
  intro segment pool hpool
  refine (ensures_ofExcept (R := fun _ _ => pool.checkReferences = .ok ()) fun _ h => h).bind ?_
  intro checkBytes _ hreferences
  refine ((ensures_classBody hversion.2 hpool.1 hreferences).and
    (ensures_classBody_standsIn version)).mono ?_
  intro body c hc t ht
  have hstands := hc.2 t ht
  rw [← hc.1.2.1] at hstands
  exact hstands.mono ⟨headerBytes ++ segment ++ checkBytes, [], by simp⟩

end Scan

end AnnotationGraft
