import AnnotationGraft.Proofs.Annotations.Items
import AnnotationGraft.Proofs.ClassFile.RoundTrip

/-!
# Which classes can be written

The counts and lengths of a class file are words of fixed size, and so are the indices into its
pool.  `ClassFile.items` are the items of a class, in the order in which the writer comes to them,
and `ClassFile.IsWithinLimits` says that each of them fits and that the pool has room for what is
missing in it.  A class can be written exactly if this is so (`ClassFile.exists_encode_iff`): no
count is cut off, and no class is refused that could be written.
-/

namespace AnnotationGraft

open Item (requests sizes)

/-! ## The items of a class -/

/-- The items in the body of an attribute.  What was kept as it is has none. -/
def AttributeSlot.bodyItems (set : AnnotationSet) : AttributeSlot → List Item
  | annotations r =>
    .count .annotations (set.withRetention r).length
      :: (set.withRetention r).flatMap AnnotationUse.items
  | verbatim _ _ => []

/-- The bytes in the body of an attribute. -/
def AttributeSlot.bodySize (set : AnnotationSet) : AttributeSlot → Nat
  | verbatim _ info => info.length
  | slot => sizes (slot.bodyItems set)

/-- The items of an attribute, without the length that is written when all bodies are there. -/
def AttributeSlot.items (set : AnnotationSet) (slot : AttributeSlot) : List Item :=
  .index (.text slot.name) :: slot.bodyItems set

/-- The items of an attribute table: those of the attributes that are written, their count, and the
lengths of their bodies. -/
def AttributeTable.items (t : AttributeTable) : List Item :=
  t.writtenSlots.flatMap (AttributeSlot.items t.annotations)
    ++ .count .attributes t.writtenSlots.length
      :: t.writtenSlots.map fun slot => .length (slot.bodySize t.annotations)

/-- The items of a member. -/
def Member.items (m : Member) : List Item :=
  .index (.text m.id.name) :: .index (.text m.id.descriptor) :: m.attributes.items

/-- The items of a table of members. -/
def Member.itemsOfTable (kind : TableKind) (ms : List Member) : List Item :=
  .count kind ms.length :: ms.flatMap Member.items

/-- The items of a class, less those of its pool. -/
def ClassFile.items (c : ClassFile) : List Item :=
  .index (.className c.name.internal)
    :: (c.superName.toList.map fun name => .index (.className name))
    ++ .count .interfaces c.interfaces.length
    :: (c.interfaces.map fun name => .index (.className name))
    ++ Member.itemsOfTable .fields (c.membersOfKind .field)
    ++ Member.itemsOfTable .methods (c.membersOfKind .method)
    ++ c.attributes.items

/-- Nothing in the class is larger than a class file can hold. -/
structure ClassFile.IsWithinLimits (c : ClassFile) : Prop where
  /-- No table has too many entries: not those of a class and its members, and not those in
  annotations, at any nesting. -/
  tables : ∀ table entries, .count table entries ∈ c.items → entries ≤ 65535
  /-- No text that is written, of itself or as the name of a class, is too long for an entry. -/
  texts : ∀ s, .index (.text s) ∈ c.items ∨ .index (.className s) ∈ c.items →
    (ModifiedUtf8.encode s).length ≤ 65535
  /-- No text in the pool is too long. -/
  poolTexts : ∀ bytes, some (.utf8 bytes) ∈ c.pool.slots.toList → bytes.length ≤ 65535
  bodies : ∀ size, .length size ∈ c.items → size < 4294967296
  /-- The pool has room for the constants that are asked for and that are missing in it. -/
  slots : c.pool.size + ConstantPool.slotsOf (c.pool.missing (requests c.items)) ≤ 65535

namespace Interning

/-! ## Attributes -/

theorem writes_slotBody (set : AnnotationSet) (slot : AttributeSlot) :
    (slotBody set slot).Asks (slot.bodyItems set) fun info =>
      info.length = slot.bodySize set := by
  cases slot with
  | verbatim name info => exact asks_pure rfl
  | annotations r =>
    have hbodies : Writes _ ((set.withRetention r).flatMap AnnotationUse.items) :=
      Writes.flatten fun a _ => writes_annotationUse a
    have h := (writes_count .annotations (set.withRetention r).length).append hbodies
    simp only [bind_assoc, pure_bind] at h
    exact h

/-- A slot for which nothing is written asks for nothing. -/
theorem asks_slotAttribute (set : AnnotationSet) (slot : AttributeSlot) :
    (slotAttribute set slot).Asks (if slot.isWritten set then slot.items set else [])
      fun found => found.toList.map (·.info.length)
        = if slot.isWritten set then [slot.bodySize set] else [] := by
  cases hwritten : slot.isWritten set with
  | false =>
    rw [slotAttribute_of_not_written hwritten]
    exact asks_pure rfl
  | true =>
    rw [slotAttribute_of_written hwritten]
    refine (asks_index (.text slot.name) nofun).bind fun i _ => ?_
    refine (writes_slotBody set slot).map fun info hinfo => ?_
    rw [← hinfo]
    rfl

theorem asks_attributeBytes (as : List WrittenAttribute) :
    Asks (MonadExcept.ofExcept (as.mapM attributeBytes) : Interning (List Bytes))
      (as.map fun a => .length a.info.length) fun _ => True := by
  refine asks_ofExcept ?_ ?_
  · induction as with
    | nil => rfl
    | cons a as ih => exact ih
  · rw [List.forall_mem_map]
    constructor
    · intro h a ha
      obtain ⟨parts, hparts⟩ := h
      obtain ⟨i, hi, rfl⟩ := List.getElem_of_mem ha
      have hparts := except_mapM_eq_ok_iff.1 hparts
      exact (attributeBytes_eq_ok_iff.1 (hparts.get hi (hparts.length_eq ▸ hi))).1
    · intro h
      induction as with
      | nil => exact ⟨[], rfl⟩
      | cons a as ih =>
        obtain ⟨ha, has⟩ := List.forall_mem_cons.1 h
        obtain ⟨parts, hparts⟩ := ih has
        exact ⟨_, except_mapM_eq_ok_iff.2 (.cons (attributeBytes_eq_ok_iff.2 ⟨ha, rfl⟩)
          (except_mapM_eq_ok_iff.1 hparts))⟩

/-- What was found for slots has the sizes of those for which something is written. -/
theorem map_length_found {set : AnnotationSet} {slots : List AttributeSlot}
    {found : List (Option WrittenAttribute)}
    (h : List.Forall₂ (fun slot (f : Option WrittenAttribute) => f.toList.map (·.info.length)
      = if slot.isWritten set then [slot.bodySize set] else []) slots found) :
    (found.filterMap id).map (·.info.length)
      = (slots.filter (AttributeSlot.isWritten set)).map (AttributeSlot.bodySize set) := by
  induction h with
  | nil => rfl
  | @cons slot f slots found hslot _ ih =>
    have hcons : (f :: found).filterMap id = f.toList ++ found.filterMap id := by
      cases f <;> rfl
    rw [hcons, List.map_append, hslot, ih]
    cases hwritten : slot.isWritten set <;> simp [hwritten]

theorem flatMap_items_written (set : AnnotationSet) (slots : List AttributeSlot) :
    slots.flatMap (fun slot => if slot.isWritten set then slot.items set else [])
      = (slots.filter (AttributeSlot.isWritten set)).flatMap (AttributeSlot.items set) := by
  induction slots with
  | nil => rfl
  | cons slot slots ih =>
    rw [List.flatMap_cons, ih]
    cases hwritten : slot.isWritten set <;> simp [hwritten]

theorem asks_attributes (t : AttributeTable) : (attributes t).Asks t.items fun _ => True := by
  rw [attributes_eq, AttributeTable.items, AttributeTable.writtenSlots, ← flatMap_items_written]
  refine (Asks.mapM fun slot _ => asks_slotAttribute t.annotations slot).bind fun found hfound => ?_
  have hsizes := map_length_found hfound
  have hcount := congrArg List.length hsizes
  rw [List.length_map, List.length_map] at hcount
  have hlengths : (found.filterMap id).map (fun a => Item.length a.info.length)
      = ((found.filterMap id).map (·.info.length)).map Item.length := by
    rw [List.map_map]
    rfl
  have hbodies := asks_attributeBytes (found.filterMap id)
  rw [hlengths, hsizes, List.map_map] at hbodies
  rw [hcount]
  exact (writes_count _ _).bind fun size _ => hbodies.map fun _ _ => trivial

/-! ## Members and classes -/

theorem asks_member (m : Member) : (member m).Asks m.items fun _ => True := by
  refine (writes_text m.id.name).bind fun _ _ => ?_
  refine (writes_text m.id.descriptor).bind fun _ _ => ?_
  exact (asks_attributes m.attributes).map fun _ _ => trivial

theorem asks_members (kind : TableKind) (ms : List Member) :
    (members kind ms).Asks (Member.itemsOfTable kind ms) fun _ => True := by
  refine (writes_count kind ms.length).bind fun _ _ => ?_
  exact (Asks.mapM fun m _ => asks_member m).map fun _ _ => trivial

theorem asks_superName (name : Option String) :
    (superName name).Asks (name.toList.map fun name => .index (.className name))
      fun _ => True := by
  cases name with
  | none => exact asks_pure trivial
  | some name => exact (writes_className name).mono fun _ _ => trivial

theorem asks_interfaces (names : List String) :
    Asks (names.mapM fun name => reference (className name))
      (names.map fun name => .index (.className name)) fun _ => True := by
  rw [List.map_eq_flatMap]
  exact (Asks.mapM fun name _ => writes_className name).mono fun _ _ => trivial

/-- A class body asks for the items of the class. -/
theorem asks_classBody (c : ClassFile) : (classBody c).Asks c.items fun _ => True := by
  rw [ClassFile.items]
  simp only [List.append_assoc, List.cons_append]
  refine (writes_className c.name.internal).bind fun name _ => ?_
  refine (asks_superName c.superName).bind fun super _ => ?_
  refine (writes_count .interfaces c.interfaces.length).bind fun size _ => ?_
  refine (asks_interfaces c.interfaces).bind fun interfaces _ => ?_
  refine (asks_members .fields (c.membersOfKind .field)).bind fun fields _ => ?_
  refine (asks_members .methods (c.membersOfKind .method)).bind fun methods _ => ?_
  exact (asks_attributes c.attributes).map fun _ _ => trivial

end Interning

/-! ## The classes that can be written -/

/-- A class can be written exactly if it is within the limits of a class file. -/
theorem ClassFile.exists_encode_iff (c : ClassFile) :
    (∃ bytes, c.encode = .ok bytes) ↔ c.IsWithinLimits := by
  have hasks := Interning.asks_classBody c
  have hpoolTexts : c.pool.TextsFit ↔
      ∀ bytes, some (.utf8 bytes) ∈ c.pool.slots.toList → bytes.length ≤ 65535 := by
    simp [ConstantPool.TextsFit, ConstantPool.map_snd_entries, maxWord]
  constructor
  · intro h
    obtain ⟨bytes, hbytes⟩ := h
    obtain ⟨pool, body, segment, hbody, hsegment, -⟩ := encode_eq_ok_iff.1 hbytes
    obtain ⟨hsize, htexts, -⟩ := ConstantPool.segment_eq_ok_iff.1 hsegment
    obtain ⟨rfl, hfits, -, -⟩ := hasks.leaves hbody
    obtain ⟨htables, hwritten, hbodies⟩ := Item.forall_fits_iff.1 hfits
    rw [ConstantPool.size_grown] at hsize
    exact ⟨htables, hwritten, hpoolTexts.1 ((ConstantPool.extends_grown _ _).textsFit htexts),
      hbodies, hsize⟩
  · intro h
    have hfits := Item.forall_fits_iff.2 ⟨h.tables, h.texts, h.bodies⟩
    have hsize : (c.pool.grown (requests c.items)).size ≤ maxWord := by
      rw [ConstantPool.size_grown]
      exact h.slots
    obtain ⟨body, pool, hbody⟩ := hasks.succeeds hfits hsize
    obtain ⟨rfl, -, htexts, -⟩ := hasks.leaves hbody
    have hsegment := ConstantPool.segment_eq_ok_iff.2
      ⟨hsize, htexts (hpoolTexts.2 h.poolTexts), rfl⟩
    exact ⟨_, encode_eq_ok_iff.2 ⟨_, ⟨body, _, hbody, hsegment, rfl⟩⟩⟩

end AnnotationGraft
