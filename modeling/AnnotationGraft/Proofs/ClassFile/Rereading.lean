import AnnotationGraft.Proofs.ClassFile.RoundTrip

/-!
# Classes read, written and read again

Of a class that was read, writing leaves out the annotation attributes without annotations.  A
second attribute of the same name, which was kept as it is, may then be the first of its name, and
the next reader takes it for annotations.  `exists_hasContentOf_iff` says that this is the only
loss: the class is read again with its content exactly when every attribute that was kept under the
name of an annotation attribute comes with annotations of that retention (`RolesStay`).  Then
nothing but the empty attributes is gone, and the pool may have grown.

The condition cannot be dropped: `emptyThenKept` is a class that loses an attribute.
-/

namespace AnnotationGraft

/-- What a table has in common with one that has the same content: the attributes that are kept as
they are, and the annotations of each retention. -/
structure AttributeTable.HasContentOf (again t : AttributeTable) : Prop where
  verbatim : again.verbatim = t.verbatim
  withRetention : ∀ r, again.annotations.withRetention r = t.annotations.withRetention r

/-- The tables of a class and of its members have the content of those of another class. -/
structure ClassFile.HasContentOf (again c : ClassFile) : Prop where
  members : List.Forall₂ (fun m m' => m.attributes.HasContentOf m'.attributes)
    again.members c.members
  attributes : again.attributes.HasContentOf c.attributes

/-- The class without the annotation slots that hold nothing. -/
def ClassFile.withoutEmptySlots (c : ClassFile) : ClassFile :=
  { c with
    members := c.members.map fun m => { m with attributes := m.attributes.withoutEmptySlots }
    attributes := c.attributes.withoutEmptySlots }

theorem AttributeTable.withoutEmptySlots_hasContentOf (t : AttributeTable) :
    t.withoutEmptySlots.HasContentOf t where
  verbatim := by
    rw [verbatim, withoutEmptySlots, List.filter_filter, verbatim]
    refine List.filter_congr fun slot _ => ?_
    cases slot <;> simp [AttributeSlot.isWritten, AttributeSlot.isVerbatim]
  withRetention _ := rfl

namespace ClassFile

variable {c again : ClassFile} {pool : ConstantPool} {bytes written : Bytes}

theorem withoutEmptySlots_hasContentOf (c : ClassFile) (pool : ConstantPool) :
    ({ c.withoutEmptySlots with pool := pool } : ClassFile).HasContentOf c where
  members := by
    show List.Forall₂ _ (c.members.map _) c.members
    rw [List.forall₂_map_left_iff, List.forall₂_same]
    exact fun m _ => m.attributes.withoutEmptySlots_hasContentOf
  attributes := c.attributes.withoutEmptySlots_hasContentOf

/-- Of a grouped class, regrouping only leaves out the empty slots. -/
theorem IsGrouped.regrouped_eq (h : c.IsGrouped) : c.regrouped = c.withoutEmptySlots := by
  have hmembers : c.members.map Member.regrouped
      = c.members.map fun m => { m with attributes := m.attributes.withoutEmptySlots } := by
    refine List.map_congr_left fun m hm => ?_
    rw [Member.regrouped, (h.members m hm).regrouped_eq]
  rw [regrouped, hmembers, h.attributes.regrouped_eq]
  rfl

theorem KeepsRoles.rolesStay (h : c.KeepsRoles) : c.RolesStay where
  members m hm := (h.members m hm).rolesStay
  attributes := h.attributes.rolesStay

/-- If the content of a class is read from its bytes, then roles stay. -/
theorem WritesWith.rolesStay (h : c.WritesWith pool bytes) (hwf : c.IsWellFormed)
    (hdecode : decode bytes = .ok again) (hcontent : again.HasContentOf c) : c.RolesStay := by
  have hread := h.readAs hwf hdecode
  refine (hread.keepsRoles ?_ hcontent.attributes.verbatim).rolesStay
  exact hcontent.members.flip.imp fun _ _ hm => hm.verbatim

/-- Where roles stay, writing loses the empty slots only. -/
theorem WritesWith.decode_eq_withoutEmptySlots (h : c.WritesWith pool bytes)
    (hwf : c.IsWellFormed) (hgrouped : c.IsGrouped) (hstay : c.RolesStay) :
    decode bytes = .ok { c.withoutEmptySlots with pool := pool } := by
  rw [h.decode_eq hwf (hwf.keepsRoles hstay), hgrouped.regrouped_eq]

/-- A class that was read and written is read again with the same content exactly when its roles
stay.  Then only the empty slots are gone, and the pool may have grown. -/
theorem exists_hasContentOf_iff (h : decode bytes = .ok c) (hencode : c.encode = .ok written) :
    ((∃ again, decode written = .ok again ∧ again.HasContentOf c) ↔ c.RolesStay)
      ∧ (c.RolesStay → ∃ pool, pool.Extends c.pool
        ∧ decode written = .ok { c.withoutEmptySlots with pool := pool }) := by
  obtain ⟨hwf, hgrouped⟩ := isWellFormed_of_decode h
  obtain ⟨pool, hwritten⟩ := encode_eq_ok_iff.1 hencode
  have hreread : c.RolesStay → decode written = .ok { c.withoutEmptySlots with pool := pool } :=
    hwritten.decode_eq_withoutEmptySlots hwf hgrouped
  refine ⟨⟨?_, ?_⟩, fun hstay => ⟨pool, hwritten.extends_pool, hreread hstay⟩⟩
  · intro hagain
    obtain ⟨again, hdecode, hcontent⟩ := hagain
    exact hwritten.rolesStay hwf hdecode hcontent
  · intro hstay
    exact ⟨_, hreread hstay, c.withoutEmptySlots_hasContentOf pool⟩

/-! ## Two classes with a repeated attribute -/

/-- A class with one field. -/
def withField (pool : ConstantPool) (field table : AttributeTable) : ClassFile where
  version := ⟨52, 0⟩
  pool := pool
  accessFlags := 0x0021
  name := ⟨"T"⟩
  superName := none
  interfaces := []
  members := [⟨⟨.field, "x", "I"⟩, 2, field⟩]
  attributes := table

/-- A class whose field has two attributes of visible annotations, of which the first holds one.
Two other annotation attributes are empty. -/
def emptyBesideKept : ClassFile :=
  withField
    (ConstantPool.empty.pushAll [.utf8 [84], .classInfo 1, .utf8 [120], .utf8 [73],
      .utf8 (ModifiedUtf8.encode "RuntimeInvisibleAnnotations"), .utf8 [76, 65, 59],
      .utf8 (ModifiedUtf8.encode "RuntimeVisibleAnnotations"),
      .utf8 (ModifiedUtf8.encode "Deprecated")])
    ⟨⟨[⟨"LA;", .visible, []⟩]⟩,
      [.annotations .invisible, .annotations .visible,
        .verbatim "RuntimeVisibleAnnotations" [255]]⟩
    ⟨.empty, [.annotations .visible, .verbatim "Deprecated" []]⟩

/-- The bytes that `emptyBesideKept` is read from. -/
def emptyBesideKeptBytes : Bytes :=
  [202, 254, 186, 190, 0, 0, 0, 52, 0, 9, 1, 0, 1, 84, 7, 0, 1, 1, 0, 1, 120, 1, 0, 1, 73, 1, 0, 27,
    82, 117, 110, 116, 105, 109, 101, 73, 110, 118, 105, 115, 105, 98, 108, 101, 65, 110, 110, 111,
    116, 97, 116, 105, 111, 110, 115, 1, 0, 3, 76, 65, 59, 1, 0, 25, 82, 117, 110, 116, 105, 109,
    101, 86, 105, 115, 105, 98, 108, 101, 65, 110, 110, 111, 116, 97, 116, 105, 111, 110, 115, 1, 0,
    10, 68, 101, 112, 114, 101, 99, 97, 116, 101, 100, 0, 33, 0, 2, 0, 0, 0, 0, 0, 1, 0, 2, 0, 3, 0,
    4, 0, 3, 0, 5, 0, 0, 0, 2, 0, 0, 0, 7, 0, 0, 0, 6, 0, 1, 0, 6, 0, 0, 0, 7, 0, 0, 0, 1, 255, 0,
    0, 0, 2, 0, 7, 0, 0, 0, 2, 0, 0, 0, 8, 0, 0, 0, 0]

/-- The bytes of `emptyBesideKept`, without the empty attributes. -/
def emptyBesideKeptWritten : Bytes :=
  [202, 254, 186, 190, 0, 0, 0, 52, 0, 9, 1, 0, 1, 84, 7, 0, 1, 1, 0, 1, 120, 1, 0, 1, 73, 1, 0, 27,
    82, 117, 110, 116, 105, 109, 101, 73, 110, 118, 105, 115, 105, 98, 108, 101, 65, 110, 110, 111,
    116, 97, 116, 105, 111, 110, 115, 1, 0, 3, 76, 65, 59, 1, 0, 25, 82, 117, 110, 116, 105, 109,
    101, 86, 105, 115, 105, 98, 108, 101, 65, 110, 110, 111, 116, 97, 116, 105, 111, 110, 115, 1, 0,
    10, 68, 101, 112, 114, 101, 99, 97, 116, 101, 100, 0, 33, 0, 2, 0, 0, 0, 0, 0, 1, 0, 2, 0, 3, 0,
    4, 0, 2, 0, 7, 0, 0, 0, 6, 0, 1, 0, 6, 0, 0, 0, 7, 0, 0, 0, 1, 255, 0, 0, 0, 1, 0, 8, 0, 0, 0,
    0]

/-- The attribute that is kept under an annotation attribute's name comes with an annotation. -/
theorem rolesStay_emptyBesideKept : emptyBesideKept.RolesStay where
  members m hm name info r hslot hname := by
    obtain rfl := List.mem_singleton.1 hm
    obtain ⟨rfl, -⟩ : name = "RuntimeVisibleAnnotations" ∧ info = [255] := by simpa using hslot
    obtain rfl : r = .visible := Option.some.inj (hname.symm.trans (by decide))
    decide
  attributes name info r hslot hname := by
    obtain ⟨rfl, -⟩ : name = "Deprecated" ∧ info = [] := by
      simpa [emptyBesideKept, withField] using hslot
    exact absurd hname (by decide +revert)

/-- The second attribute of visible annotations stays what it is, for annotations come first. -/
theorem exists_hasContentOf_emptyBesideKept :
    decode emptyBesideKeptBytes = .ok emptyBesideKept
      ∧ emptyBesideKept.encode = .ok emptyBesideKeptWritten
      ∧ emptyBesideKept.RolesStay
      ∧ (∃ again, decode emptyBesideKeptWritten = .ok again
        ∧ again.HasContentOf emptyBesideKept)
      ∧ ∃ pool, pool.Extends emptyBesideKept.pool
        ∧ decode emptyBesideKeptWritten
          = .ok { emptyBesideKept.withoutEmptySlots with pool := pool } := by
  have hdecode : decode emptyBesideKeptBytes = .ok emptyBesideKept := by decide +kernel
  have hencode : emptyBesideKept.encode = .ok emptyBesideKeptWritten := by decide +kernel
  have hstay := rolesStay_emptyBesideKept
  obtain ⟨hiff, hreread⟩ := exists_hasContentOf_iff hdecode hencode
  exact ⟨hdecode, hencode, hstay, hiff.2 hstay, hreread hstay⟩

/-- The pool of `emptyThenKept`. -/
def emptyThenKeptPool : ConstantPool :=
  ConstantPool.empty.pushAll [.utf8 [84], .classInfo 1, .utf8 [120], .utf8 [73],
    .utf8 (ModifiedUtf8.encode "RuntimeVisibleAnnotations"), .utf8 [76, 65, 59]]

/-- A class whose field has two attributes of visible annotations, of which the first is empty. -/
def emptyThenKept : ClassFile :=
  withField emptyThenKeptPool
    ⟨.empty, [.annotations .visible, .verbatim "RuntimeVisibleAnnotations" [0, 1, 0, 6, 0, 0]]⟩
    .empty

/-- The bytes that `emptyThenKept` is read from. -/
def emptyThenKeptBytes : Bytes :=
  [202, 254, 186, 190, 0, 0, 0, 52, 0, 7, 1, 0, 1, 84, 7, 0, 1, 1, 0, 1, 120, 1, 0, 1, 73, 1, 0, 25,
    82, 117, 110, 116, 105, 109, 101, 86, 105, 115, 105, 98, 108, 101, 65, 110, 110, 111, 116, 97,
    116, 105, 111, 110, 115, 1, 0, 3, 76, 65, 59, 0, 33, 0, 2, 0, 0, 0, 0, 0, 1, 0, 2, 0, 3, 0, 4,
    0, 2, 0, 5, 0, 0, 0, 2, 0, 0, 0, 5, 0, 0, 0, 6, 0, 1, 0, 6, 0, 0, 0, 0, 0, 0]

/-- The bytes of `emptyThenKept`: what was the second attribute is now the first. -/
def emptyThenKeptWritten : Bytes :=
  [202, 254, 186, 190, 0, 0, 0, 52, 0, 7, 1, 0, 1, 84, 7, 0, 1, 1, 0, 1, 120, 1, 0, 1, 73, 1, 0, 25,
    82, 117, 110, 116, 105, 109, 101, 86, 105, 115, 105, 98, 108, 101, 65, 110, 110, 111, 116, 97,
    116, 105, 111, 110, 115, 1, 0, 3, 76, 65, 59, 0, 33, 0, 2, 0, 0, 0, 0, 0, 1, 0, 2, 0, 3, 0, 4,
    0, 1, 0, 5, 0, 0, 0, 6, 0, 1, 0, 6, 0, 0, 0, 0, 0, 0]

/-- What was read as the second attribute of visible annotations is read again as annotations. -/
theorem not_forall_exists_hasContentOf :
    ¬ ∀ (bytes written : Bytes) (c : ClassFile), decode bytes = .ok c → c.encode = .ok written →
      ∃ again, decode written = .ok again ∧ again.HasContentOf c := by
  intro h
  have hdecode : decode emptyThenKeptBytes = .ok emptyThenKept := by decide +kernel
  have hencode : emptyThenKept.encode = .ok emptyThenKeptWritten := by decide +kernel
  have hreread : decode emptyThenKeptWritten
      = .ok (withField emptyThenKeptPool ⟨⟨[⟨"LA;", .visible, []⟩]⟩, [.annotations .visible]⟩
        .empty) := by decide +kernel
  obtain ⟨again, hagain, hcontent⟩ := h _ _ _ hdecode hencode
  obtain rfl := Except.ok.inj (hreread.symm.trans hagain)
  obtain ⟨hfield, -⟩ := List.forall₂_cons.1 hcontent.members
  exact absurd hfield.verbatim (by decide)

end ClassFile

end AnnotationGraft
