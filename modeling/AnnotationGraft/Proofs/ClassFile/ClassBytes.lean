import AnnotationGraft.Proofs.ClassFile.AttributeScan

/-!
# Classes written

The bytes of a class body on a settled pool, taken apart into those of its parts
(`gives_classBody_iff`).  A class and the class it is regrouped to have the same body.
-/

namespace AnnotationGraft

/-- The member that the bytes of a member stand for. -/
def Member.regrouped (m : Member) : Member := { m with attributes := m.attributes.regrouped }

/-- The class that the bytes of a class stand for. -/
def ClassFile.regrouped (c : ClassFile) : ClassFile :=
  { c with members := c.members.map Member.regrouped, attributes := c.attributes.regrouped }

/-- A change that leaves the kinds of members alone leaves those of each kind together. -/
theorem ClassFile.membersOfKind_of_map {c d : ClassFile} {f : Member → Member}
    (h : d.members = c.members.map f) (hkind : ∀ m, (f m).id.kind = m.id.kind)
    (kind : MemberKind) : d.membersOfKind kind = (c.membersOfKind kind).map f := by
  rw [membersOfKind, membersOfKind, h, List.filter_map]
  simp only [Function.comp_def, hkind]

theorem ClassFile.membersOfKind_regrouped (c : ClassFile) (kind : MemberKind) :
    c.regrouped.membersOfKind kind = (c.membersOfKind kind).map Member.regrouped :=
  membersOfKind_of_map (f := Member.regrouped) rfl (fun _ => rfl) kind

namespace Interning

variable {pool : ConstantPool}

/-! ## Writing settles -/

theorem settles_member (m : Member) : (member m).Settles :=
  (settles_reference (settles_utf8 _)).bind fun _ =>
    (settles_reference (settles_utf8 _)).bind fun _ =>
      (settles_attributes _).bind fun _ => settles_pure _

theorem settles_members (kind : TableKind) (ms : List Member) : (members kind ms).Settles :=
  (settles_count _ _).bind fun _ =>
    (Settles.mapM fun m _ => settles_member m).bind fun _ => settles_pure _

theorem settles_superName (name : Option String) : (superName name).Settles := by
  cases name with
  | none => exact settles_pure _
  | some name => exact settles_reference (settles_className name)

theorem settles_interfaces (names : List String) :
    (names.mapM fun i => reference (className i)).Settles :=
  Settles.mapM fun i _ => settles_reference (settles_className i)

theorem settles_classBody (c : ClassFile) : (classBody c).Settles := by
  refine (settles_reference (settles_className _)).bind fun _ => ?_
  refine (settles_superName _).bind fun _ => (settles_count _ _).bind fun _ => ?_
  refine (settles_interfaces _).bind fun _ => (settles_members _ _).bind fun _ => ?_
  refine (settles_members _ _).bind fun _ => ?_
  exact (settles_attributes _).bind fun _ => settles_pure _

/-! ## The bytes on a settled pool -/

theorem gives_member_iff {m : Member} {bytes : Bytes} :
    Gives (member m) pool bytes ↔
      ∃ i j table, Gives (utf8 m.id.name) pool i ∧ Gives (utf8 m.id.descriptor) pool j
        ∧ Gives (attributes m.attributes) pool table
        ∧ bytes = BigEndian.ofUInt16 m.accessFlags ++ BigEndian.ofUInt16 i
            ++ BigEndian.ofUInt16 j ++ table := by
  have htext : ∀ text, (reference (utf8 text)).Settles := fun text =>
    settles_reference (settles_utf8 text)
  have htable := settles_attributes m.attributes
  rw [member, gives_bind_iff (htext _) fun _ => (htext _).bind fun _ =>
    htable.bind fun _ => settles_pure _]
  simp only [gives_bind_iff (htext _) fun _ => htable.bind fun _ => settles_pure _,
    gives_map_iff htable, gives_reference_iff (settles_utf8 _)]
  constructor
  · intro h
    obtain ⟨_, ⟨i, hi, rfl⟩, _, ⟨j, hj, rfl⟩, table, htable, rfl⟩ := h
    exact ⟨i, j, table, hi, hj, htable, rfl⟩
  · intro h
    obtain ⟨i, j, table, hi, hj, htable, rfl⟩ := h
    exact ⟨_, ⟨i, hi, rfl⟩, _, ⟨j, hj, rfl⟩, table, htable, rfl⟩

theorem gives_members_iff {kind : TableKind} {ms : List Member} {bytes : Bytes} :
    Gives (members kind ms) pool bytes ↔
      ms.length ≤ maxWord ∧ ∃ parts : List Bytes,
        List.Forall₂ (fun m part => Gives (member m) pool part) ms parts
          ∧ bytes = BigEndian.ofUInt16 (UInt16.ofNat ms.length) ++ parts.flatten := by
  have hms : (ms.mapM member).Settles := Settles.mapM fun m _ => settles_member m
  rw [members, gives_bind_iff (settles_count _ _) fun _ => hms.bind fun _ => settles_pure _]
  simp only [gives_map_iff hms, gives_count_iff, gives_mapM_iff fun m _ => settles_member m]
  constructor
  · intro h
    obtain ⟨_, ⟨hfits, rfl⟩, parts, hparts, rfl⟩ := h
    exact ⟨hfits, parts, hparts, rfl⟩
  · intro h
    obtain ⟨hfits, parts, hparts, rfl⟩ := h
    exact ⟨_, ⟨hfits, rfl⟩, parts, hparts, rfl⟩

/-- The parts of a class body. -/
theorem gives_classBody_iff {c : ClassFile} {bytes : Bytes} :
    Gives (classBody c) pool bytes ↔
      ∃ i super fields methods table, ∃ names : List Bytes,
        Gives (className c.name.internal) pool i ∧ Gives (superName c.superName) pool super
        ∧ c.interfaces.length ≤ maxWord
        ∧ List.Forall₂ (fun name part => Gives (reference (className name)) pool part)
            c.interfaces names
        ∧ Gives (members .fields (c.membersOfKind .field)) pool fields
        ∧ Gives (members .methods (c.membersOfKind .method)) pool methods
        ∧ Gives (attributes c.attributes) pool table
        ∧ bytes = BigEndian.ofUInt16 c.accessFlags ++ BigEndian.ofUInt16 i ++ super
            ++ BigEndian.ofUInt16 (UInt16.ofNat c.interfaces.length) ++ names.flatten
            ++ fields ++ methods ++ table := by
  have hname := settles_className c.name.internal
  have hsuper := settles_superName c.superName
  have hcount := settles_count .interfaces c.interfaces.length
  have hnames := settles_interfaces c.interfaces
  have hfields := settles_members .fields (c.membersOfKind .field)
  have hmethods := settles_members .methods (c.membersOfKind .method)
  have htable := settles_attributes c.attributes
  have hnone : ∀ a : Bytes, Settles (pure a) := settles_pure
  rw [classBody, gives_bind_iff (settles_reference hname) fun _ => hsuper.bind fun _ =>
    hcount.bind fun _ => hnames.bind fun _ => hfields.bind fun _ => hmethods.bind fun _ =>
      htable.bind fun _ => hnone _]
  simp only [
    gives_bind_iff hsuper fun _ => hcount.bind fun _ => hnames.bind fun _ => hfields.bind fun _ =>
      hmethods.bind fun _ => htable.bind fun _ => hnone _,
    gives_bind_iff hcount fun _ => hnames.bind fun _ => hfields.bind fun _ =>
      hmethods.bind fun _ => htable.bind fun _ => hnone _,
    gives_bind_iff hnames fun _ => hfields.bind fun _ => hmethods.bind fun _ =>
      htable.bind fun _ => hnone _,
    gives_bind_iff hfields fun _ => hmethods.bind fun _ => htable.bind fun _ => hnone _,
    gives_bind_iff hmethods fun _ => htable.bind fun _ => hnone _,
    gives_map_iff htable, gives_reference_iff hname, gives_count_iff,
    gives_mapM_iff fun i _ => settles_reference (settles_className i)]
  constructor
  · intro h
    obtain ⟨_, ⟨i, hi, rfl⟩, super, hsuper, _, ⟨hfits, rfl⟩, names, hnames, fields, hfields,
      methods, hmethods, table, htable, rfl⟩ := h
    exact ⟨i, super, fields, methods, table, names, hi, hsuper, hfits, hnames, hfields, hmethods,
      htable, rfl⟩
  · intro h
    obtain ⟨i, super, fields, methods, table, names, hi, hsuper, hfits, hnames, hfields, hmethods,
      htable, rfl⟩ := h
    exact ⟨_, ⟨i, hi, rfl⟩, super, hsuper, _, ⟨hfits, rfl⟩, names, hnames, fields, hfields,
      methods, hmethods, table, htable, rfl⟩

/-! ## Regrouping -/

theorem gives_member_regrouped_iff {m : Member} (h : m.attributes.IsWellFormed) {bytes : Bytes} :
    Gives (member m.regrouped) pool bytes ↔ Gives (member m) pool bytes := by
  rw [gives_member_iff, gives_member_iff]
  simp only [Member.regrouped, gives_attributes_regrouped_iff h]

theorem gives_members_regrouped_iff {kind : TableKind} {ms : List Member}
    (h : ∀ m ∈ ms, m.attributes.IsWellFormed) {bytes : Bytes} :
    Gives (members kind (ms.map Member.regrouped)) pool bytes ↔
      Gives (members kind ms) pool bytes := by
  have hparts : ∀ parts : List Bytes,
      List.Forall₂ (fun m part => Gives (member m) pool part) (ms.map Member.regrouped) parts ↔
        List.Forall₂ (fun m part => Gives (member m) pool part) ms parts := by
    intro parts
    rw [List.forall₂_map_left_iff]
    induction ms generalizing parts with
    | nil => rw [List.forall₂_nil_left_iff, List.forall₂_nil_left_iff]
    | cons m ms ih =>
      have htail := ih fun m' hm' => h m' (List.mem_cons_of_mem m hm')
      rw [List.forall₂_cons_left_iff, List.forall₂_cons_left_iff]
      simp only [htail, gives_member_regrouped_iff (h m List.mem_cons_self)]
  rw [gives_members_iff, gives_members_iff]
  simp only [hparts, List.length_map]

/-- Regrouping a class does not change the bytes of its body. -/
theorem gives_classBody_regrouped_iff {c : ClassFile}
    (hms : ∀ m ∈ c.members, m.attributes.IsWellFormed) (hc : c.attributes.IsWellFormed)
    {bytes : Bytes} :
    Gives (classBody c.regrouped) pool bytes ↔ Gives (classBody c) pool bytes := by
  have hkind : ∀ kind, ∀ m ∈ c.membersOfKind kind, m.attributes.IsWellFormed := fun kind m hm =>
    hms m (List.mem_filter.1 hm).1
  rw [gives_classBody_iff, gives_classBody_iff]
  simp only [c.membersOfKind_regrouped, gives_members_regrouped_iff (hkind .field),
    gives_members_regrouped_iff (hkind .method)]
  simp only [ClassFile.regrouped, gives_attributes_regrouped_iff hc]

end Interning

end AnnotationGraft
