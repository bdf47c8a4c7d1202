import AnnotationGraft.Proofs.ClassFile.ClassScan

/-!
# Class files written and read

`decode_of_encode` reads a well-formed class back from its bytes, with its pool grown and with the
annotations of each table in the order of their attributes.  `encode_of_decode` writes a class that
was read as the very bytes that it was read from, if nothing in them could have been written
otherwise.
-/

namespace AnnotationGraft

/-! ## Copies -/

/-- What a table has in common with the one that it is a copy of: the same attributes in the order
in which they are written, and the same annotations of each retention. -/
structure AttributeTable.IsCopyOf (copy t : AttributeTable) : Prop where
  slots : copy.slots = t.writtenSlots
  verbatim : copy.verbatim = t.verbatim
  withRetention : ∀ r, copy.annotations.withRetention r = t.annotations.withRetention r

/-- What a member has in common with the one that it is a copy of. -/
structure Member.IsCopyOf (copy m : Member) : Prop where
  id : copy.id = m.id
  accessFlags : copy.accessFlags = m.accessFlags
  attributes : copy.attributes.IsCopyOf m.attributes

/-- What a class has in common with the one that it is a copy of.  The pool may have grown. -/
structure ClassFile.IsCopyOf (copy c : ClassFile) : Prop where
  version : copy.version = c.version
  pool : copy.pool.Extends c.pool
  accessFlags : copy.accessFlags = c.accessFlags
  name : copy.name = c.name
  superName : copy.superName = c.superName
  interfaces : copy.interfaces = c.interfaces
  members : List.Forall₂ Member.IsCopyOf copy.members c.members
  attributes : copy.attributes.IsCopyOf c.attributes

theorem AttributeTable.IsWellFormed.regrouped_isCopyOf {t : AttributeTable} (h : t.IsWellFormed) :
    t.regrouped.IsCopyOf t :=
  ⟨rfl, t.verbatim_regrouped, h.withRetention_regrouped⟩

/-- Before every verbatim slot of an annotation attribute's name, annotations are written. -/
structure ClassFile.RolesStay (c : ClassFile) : Prop where
  members : ∀ m ∈ c.members, m.attributes.RolesStay
  attributes : c.attributes.RolesStay

namespace ClassFile

variable {c : ClassFile} {pool : ConstantPool} {bytes : Bytes}

theorem decode_eq_ok_iff :
    decode bytes = .ok c ↔ ∃ n, Scan.classFile ⟨bytes, 0⟩ = .ok (c, ⟨[], n⟩) := by
  unfold decode
  rw [except_bind_eq_ok_iff]
  constructor
  · intro h
    obtain ⟨⟨found, rest, n⟩, hfound, hrest⟩ := h
    simp only at hrest
    by_cases hempty : rest.isEmpty = true
    · rw [if_pos hempty] at hrest
      cases hrest
      exact ⟨n, List.isEmpty_iff.1 hempty ▸ hfound⟩
    · rw [if_neg hempty] at hrest
      cases hrest
  · intro h
    obtain ⟨n, hfound⟩ := h
    exact ⟨_, hfound, rfl⟩

/-! ## What writing leaves -/

/-- The bytes are written of the class, and `pool` is what its pool has become by then. -/
structure WritesWith (c : ClassFile) (pool : ConstantPool) (bytes : Bytes) : Prop where
  parts : ∃ body segment, Interning.classBody c c.pool = .ok body pool
    ∧ pool.segment = .ok segment ∧ bytes = headerBytes c.version ++ segment ++ body

theorem encode_eq_ok_iff : c.encode = .ok bytes ↔ ∃ pool, c.WritesWith pool bytes := by
  have hrun : (Interning.classBody c).run c.pool = Interning.classBody c c.pool := rfl
  unfold encode
  rw [hrun]
  cases hbody : Interning.classBody c c.pool with
  | error e pool =>
    constructor
    · exact nofun
    · intro h
      obtain ⟨_, ⟨_, _, hok, _, _⟩⟩ := h
      rw [hbody] at hok
      cases hok
  | ok body pool =>
    simp only [except_bind_eq_ok_iff]
    constructor
    · intro h
      obtain ⟨segment, hsegment, hbytes⟩ := h
      exact ⟨pool, ⟨body, segment, hbody, hsegment, (Except.ok.inj hbytes).symm⟩⟩
    · intro h
      obtain ⟨_, ⟨body', segment, hok, hsegment, rfl⟩⟩ := h
      rw [hbody] at hok
      cases hok
      exact ⟨segment, hsegment, rfl⟩

namespace WritesWith

theorem extends_pool (h : c.WritesWith pool bytes) : pool.Extends c.pool := by
  obtain ⟨body, segment, hbody, -, -⟩ := h.parts
  exact (Interning.settles_classBody c).extends_run hbody

/-- The pool that writing leaves is sound, for it could be written. -/
theorem isSound (h : c.WritesWith pool bytes) (hwf : c.IsWellFormed) : pool.IsSound := by
  obtain ⟨body, segment, hbody, hsegment, -⟩ := h.parts
  have hfits := (ConstantPool.segment_eq_ok_iff.1 hsegment).1
  have hsize := h.extends_pool.size_le
  exact (Interning.settles_classBody c).sound hbody
    ⟨hwf.laidOut, Nat.le_trans hsize hfits, hwf.references⟩

theorem meets (h : c.WritesWith pool bytes) (hwf : c.IsWellFormed) :
    Scan.Meets Scan.classFile bytes c.KeepsRoles (c.ReadAs pool) := by
  have hsound := h.isSound hwf
  obtain ⟨body, segment, hbody, hsegment, rfl⟩ := h.parts
  exact Scan.meets_classFile hwf hsound hsegment ((Interning.settles_classBody c).gives hbody)

/-- Whatever is read of the bytes tells whether every role was kept. -/
theorem readAs (h : c.WritesWith pool bytes) (hwf : c.IsWellFormed) {c' : ClassFile}
    (hdecode : decode bytes = .ok c') : c.ReadAs pool c' := by
  have hrun := h.meets hwf [] 0
  rw [List.append_nil] at hrun
  obtain ⟨n, hfound⟩ := decode_eq_ok_iff.1 hdecode
  rw [hfound] at hrun
  exact hrun.2

/-- Where every role is kept, the regrouped class is read. -/
theorem decode_eq (h : c.WritesWith pool bytes) (hwf : c.IsWellFormed) (hkept : c.KeepsRoles) :
    decode bytes = .ok { c.regrouped with pool := pool } := by
  have hmeets := (h.meets hwf).mono id fun c' hc' => hc'.eq_regrouped hkept
  have hrun := hmeets.reads hkept [] 0
  rw [List.append_nil] at hrun
  exact decode_eq_ok_iff.2 ⟨_, hrun⟩

/-- The class that is read is written as the same bytes, and adds nothing to its pool. -/
theorem regrouped (h : c.WritesWith pool bytes) (hms : ∀ m ∈ c.members, m.attributes.IsWellFormed)
    (hc : c.attributes.IsWellFormed) :
    ({ c.regrouped with pool := pool } : ClassFile).WritesWith pool bytes := by
  obtain ⟨body, segment, hbody, hsegment, hbytes⟩ := h.parts
  have hgives := (Interning.settles_classBody c).gives hbody
  exact ⟨body, segment, (Interning.gives_classBody_regrouped_iff hms hc).2 hgives, hsegment, hbytes⟩

end WritesWith

theorem IsWellFormed.keepsRoles (hwf : c.IsWellFormed) (hstay : c.RolesStay) : c.KeepsRoles where
  members m hm := (hwf.members m hm).attributes.keepsRoles (hstay.members m hm)
  attributes := hwf.attributes.keepsRoles hstay.attributes

theorem IsWellFormed.regrouped_isCopyOf (hwf : c.IsWellFormed) (hpool : pool.Extends c.pool) :
    ({ c.regrouped with pool := pool } : ClassFile).IsCopyOf c where
  version := rfl
  pool := hpool
  accessFlags := rfl
  name := rfl
  superName := rfl
  interfaces := rfl
  members := by
    show List.Forall₂ Member.IsCopyOf (c.members.map Member.regrouped) c.members
    rw [List.forall₂_map_left_iff, List.forall₂_same]
    intro m hm
    exact ⟨rfl, rfl, (hwf.members m hm).attributes.regrouped_isCopyOf⟩
  attributes := hwf.attributes.regrouped_isCopyOf

/-! ## Reading back what was written -/

/-- A well-formed class that is written can be read back, and what is read is a copy of it. -/
theorem decode_of_encode (hwf : c.IsWellFormed) (hstay : c.RolesStay) (h : c.encode = .ok bytes) :
    ∃ copy, decode bytes = .ok copy ∧ copy.IsCopyOf c := by
  obtain ⟨pool, hpool⟩ := encode_eq_ok_iff.1 h
  exact ⟨_, hpool.decode_eq hwf (hwf.keepsRoles hstay), hwf.regrouped_isCopyOf hpool.extends_pool⟩

/-- A class whose field has annotations of both retentions, of which only one has a slot. -/
def twoRetentions : ClassFile where
  version := ⟨52, 0⟩
  pool := ConstantPool.empty.push (.long 1)
  accessFlags := 0x0021
  name := ⟨"T"⟩
  superName := none
  interfaces := []
  members := [{
    id := ⟨.field, "x", "I"⟩
    accessFlags := 2
    attributes :=
      { annotations := ⟨[⟨"LA;", .invisible, [("v", .array [.int 7])]⟩, ⟨"LB;", .visible, []⟩]⟩
        slots := [.annotations .visible, .verbatim "Synthetic" []] } }]
  attributes := .empty

/-- The bytes of `twoRetentions`. -/
def twoRetentionsBytes : Bytes :=
  [202, 254, 186, 190, 0, 0, 0, 52, 0, 14, 5, 0, 0, 0, 0, 0, 0, 0, 1, 1, 0, 1, 84, 7, 0, 3, 1, 0,
    1, 120, 1, 0, 1, 73, 1, 0, 25, 82, 117, 110, 116, 105, 109, 101, 86, 105, 115, 105, 98, 108,
    101, 65, 110, 110, 111, 116, 97, 116, 105, 111, 110, 115, 1, 0, 3, 76, 66, 59, 1, 0, 9, 83,
    121, 110, 116, 104, 101, 116, 105, 99, 1, 0, 27, 82, 117, 110, 116, 105, 109, 101, 73, 110,
    118, 105, 115, 105, 98, 108, 101, 65, 110, 110, 111, 116, 97, 116, 105, 111, 110, 115, 1, 0,
    3, 76, 65, 59, 1, 0, 1, 118, 3, 0, 0, 0, 7, 0, 33, 0, 4, 0, 0, 0, 0, 0, 1, 0, 2, 0, 5, 0, 6,
    0, 3, 0, 7, 0, 0, 0, 6, 0, 1, 0, 8, 0, 0, 0, 9, 0, 0, 0, 0, 0, 10, 0, 0, 0, 14, 0, 1, 0, 11,
    0, 1, 0, 12, 91, 0, 1, 73, 0, 13, 0, 0, 0, 0]

theorem twoRetentions_isWellFormed : twoRetentions.IsWellFormed where
  version := by decide
  laidOut := ⟨[.long 1], rfl⟩
  references := by decide +kernel
  name := by decide +kernel
  fieldsFirst := rfl
  members m hm := by
    obtain rfl := List.mem_singleton.1 hm
    refine ⟨by decide +kernel, by decide +kernel, ⟨by decide +kernel, by decide +kernel⟩, ?_, ?_⟩
    · intro r
      cases r <;> decide +kernel
    · refine AttributeSlot.rolesKept_of_forall fun name info hmem => ?_
      obtain ⟨rfl, rfl⟩ : name = "Synthetic" ∧ info = [] := by simpa using hmem
      decide +kernel
  attributes := ⟨AnnotationSet.isWellFormed_empty, fun r => by cases r <;> decide,
    AttributeSlot.rolesKept_nil⟩

theorem twoRetentions_rolesStay : twoRetentions.RolesStay where
  members m hm := by
    obtain rfl := List.mem_singleton.1 hm
    intro name info r hmem hname
    obtain ⟨rfl, rfl⟩ : name = "Synthetic" ∧ info = [] := by simpa using hmem
    rw [show Retention.ofAttributeName? "Synthetic" = none by decide +kernel] at hname
    cases hname
  attributes := fun _ _ _ hmem => absurd hmem List.not_mem_nil

/-- The annotations of the two retentions are read back apart. -/
theorem decode_twoRetentions : twoRetentions.encode = .ok twoRetentionsBytes ∧
    ∃ copy, decode twoRetentionsBytes = .ok copy ∧ copy.IsCopyOf twoRetentions := by
  have hencode : twoRetentions.encode = .ok twoRetentionsBytes := by decide +kernel
  exact ⟨hencode, decode_of_encode twoRetentions_isWellFormed twoRetentions_rolesStay hencode⟩

/-! ## Writing what was read -/

/-- A class that was read is well-formed, and its annotations stand in the order of their slots. -/
theorem isWellFormed_of_decode (h : decode bytes = .ok c) : c.IsWellFormed ∧ c.IsGrouped := by
  obtain ⟨n, hrun⟩ := decode_eq_ok_iff.1 h
  obtain ⟨taken, -, hwf, hgrouped, -⟩ := Scan.ensures_classFile _ _ _ hrun
  exact ⟨hwf, hgrouped⟩

/-- A class that was read is written as the bytes that it was read from, if its pool holds no entry
twice and every text in its shortest form, and no annotation attribute was empty. -/
theorem encode_of_decode (h : decode bytes = .ok c) (hshortest : c.pool.HasShortestTexts)
    (hdistinct : c.pool.HasDistinctEntries) (hslots : c.HasNoEmptySlot) :
    c.encode = .ok bytes := by
  obtain ⟨n, hrun⟩ := decode_eq_ok_iff.1 h
  obtain ⟨taken, htaken, -, -, -, hfit, segment, body, rfl, hsegment, hbody⟩ :=
    Scan.ensures_classFile _ _ _ hrun
  have hgives := hbody hslots ⟨hdistinct, hshortest, hfit⟩
  rw [List.append_nil] at htaken
  exact encode_eq_ok_iff.2 ⟨c.pool, body, segment, hgives, hsegment, htaken⟩

/-- The class that is read from the bytes of `twoRetentions`. -/
def twoRetentionsRead : ClassFile :=
  { twoRetentions.regrouped with
    pool := ConstantPool.empty.pushAll [.long 1, .utf8 [84], .classInfo 3, .utf8 [120], .utf8 [73],
      .utf8 (ModifiedUtf8.encode "RuntimeVisibleAnnotations"), .utf8 [76, 66, 59],
      .utf8 (ModifiedUtf8.encode "Synthetic"),
      .utf8 (ModifiedUtf8.encode "RuntimeInvisibleAnnotations"), .utf8 [76, 65, 59], .utf8 [118],
      .integer 7] }

theorem decode_twoRetentionsBytes : decode twoRetentionsBytes = .ok twoRetentionsRead := by
  decide +kernel

/-- The bytes are written again as they were. -/
theorem encode_twoRetentionsRead : decode twoRetentionsBytes = .ok twoRetentionsRead ∧
    twoRetentionsRead.encode = .ok twoRetentionsBytes := by
  have hdecode : decode twoRetentionsBytes = .ok twoRetentionsRead := by decide +kernel
  refine ⟨hdecode, encode_of_decode hdecode (by decide +kernel) (by decide +kernel) ⟨?_, ?_⟩⟩
  · intro m hm r hr
    obtain rfl := List.mem_singleton.1 hm
    cases r <;> decide +kernel
  · exact fun r hr => absurd hr (by cases r <;> decide +kernel)

end ClassFile

end AnnotationGraft
