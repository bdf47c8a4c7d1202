import AnnotationGraft.Proofs.ClassFile.ClassBytes
import AnnotationGraft.Proofs.ConstantPool.Segment

/-!
# Classes read

`meets_classBody` reads a class back from its bytes: where every table keeps its roles, the
regrouped class, with the pool that was written.  `ensures_classBody` is about a class that was
read: it is well-formed, and in a canonical pool its bytes are those that it was read from, if no
annotation attribute was empty.
-/

namespace AnnotationGraft

/-! ## Well-formed classes -/

/-- What every member of a class has that was read. -/
structure Member.IsWellFormed (m : Member) : Prop where
  named : m.id.name ≠ ""
  descriptor : Scan.isMemberDescriptor m.id.kind m.id.descriptor = true
  attributes : m.attributes.IsWellFormed

/-- What every class has that was read. -/
structure ClassFile.IsWellFormed (c : ClassFile) : Prop where
  version : c.version.isSupported = true
  laidOut : c.pool.IsLaidOut
  references : c.pool.checkReferences = .ok ()
  name : Descriptor.isClassName c.name.internal = true
  /-- The fields stand before the methods. -/
  fieldsFirst : c.membersOfKind .field ++ c.membersOfKind .method = c.members
  members : ∀ m ∈ c.members, m.IsWellFormed
  attributes : c.attributes.IsWellFormed

/-- Every annotation slot of the class and of its members holds an annotation. -/
structure ClassFile.HasNoEmptySlot (c : ClassFile) : Prop where
  members : ∀ m ∈ c.members, m.attributes.HasNoEmptySlot
  attributes : c.attributes.HasNoEmptySlot

/-- In the class and in its members the annotations stand in the order of their slots. -/
structure ClassFile.IsGrouped (c : ClassFile) : Prop where
  members : ∀ m ∈ c.members, m.attributes.IsGrouped
  attributes : c.attributes.IsGrouped

/-- What is read of the bytes of a member. -/
structure Member.ReadAs (m m' : Member) : Prop where
  id : m'.id = m.id
  accessFlags : m'.accessFlags = m.accessFlags
  attributes : m.attributes.ReadAs m'.attributes

/-- Every table of the class keeps its roles. -/
structure ClassFile.KeepsRoles (c : ClassFile) : Prop where
  members : ∀ m ∈ c.members, m.attributes.KeepsRoles
  attributes : c.attributes.KeepsRoles

/-- What is read of the bytes of a class that was written with the pool. -/
structure ClassFile.ReadAs (c : ClassFile) (pool : ConstantPool) (c' : ClassFile) : Prop where
  version : c'.version = c.version
  pool : c'.pool = pool
  accessFlags : c'.accessFlags = c.accessFlags
  name : c'.name = c.name
  superName : c'.superName = c.superName
  interfaces : c'.interfaces = c.interfaces
  members : List.Forall₂ Member.ReadAs c.members c'.members
  attributes : c.attributes.ReadAs c'.attributes

theorem Member.ReadAs.eq_regrouped {m m' : Member} (h : m.ReadAs m')
    (hkept : m.attributes.KeepsRoles) : m' = m.regrouped := by
  obtain ⟨id', flags', table'⟩ := m'
  obtain ⟨rfl, rfl, htable⟩ := h
  rw [Member.regrouped, ← htable.eq_regrouped hkept]

/-- Where roles are kept, the regrouped class is read. -/
theorem ClassFile.ReadAs.eq_regrouped {c c' : ClassFile} {pool : ConstantPool}
    (h : c.ReadAs pool c') (hkept : c.KeepsRoles) : c' = { c.regrouped with pool := pool } := by
  have hmembers : c'.members = c.members.map Member.regrouped := by
    have hms := (List.forall₂_and_left (p := fun m : Member => m.attributes.KeepsRoles) _ _).2
      ⟨hkept.members, h.members⟩
    have heq := hms.imp fun m m' hm => hm.2.eq_regrouped hm.1
    rw [← List.forall₂_eq_eq_eq, List.forall₂_map_right_iff]
    exact heq.flip
  obtain ⟨version', pool', flags', name', super', interfaces', members', table'⟩ := c'
  obtain ⟨rfl, rfl, rfl, rfl, rfl, rfl, -, htable⟩ := h
  have htable' := htable.eq_regrouped hkept.attributes
  simp only at hmembers htable'
  rw [ClassFile.regrouped, hmembers, htable']

/-- Where every verbatim attribute is read back, roles are kept. -/
theorem ClassFile.ReadAs.keepsRoles {c c' : ClassFile} {pool : ConstantPool}
    (h : c.ReadAs pool c')
    (hmembers : List.Forall₂ (fun m m' => m'.attributes.verbatim = m.attributes.verbatim)
      c.members c'.members)
    (hclass : c'.attributes.verbatim = c.attributes.verbatim) : c.KeepsRoles where
  members := by
    have hkept : List.Forall₂ (fun m _ => m.attributes.KeepsRoles ∧ True) c.members c'.members :=
      List.Forall₂.mp (fun m m' hm hm' =>
        ⟨hm.attributes.keepsRoles (congrArg List.length hm'), trivial⟩) h.members hmembers
    exact ((List.forall₂_and_left _ _).1 hkept).1
  attributes := h.attributes.keepsRoles (congrArg List.length hclass)

namespace Scan

variable {pool : ConstantPool}

/-! ## Reading what was written -/

theorem meets_member (hsize : pool.size ≤ maxWord) {m : Member} (hwf : m.IsWellFormed)
    {part : Bytes} (h : Interning.Gives (Interning.member m) pool part) :
    Meets (member pool m.id.kind) part m.attributes.KeepsRoles m.ReadAs := by
  obtain ⟨i, j, table, hi, hj, htable, rfl⟩ := Interning.gives_member_iff.1 h
  have hname := Interning.utf8_of_gives hsize hi
  have hdescriptor := Interning.utf8_of_gives hsize hj
  have hempty : m.id.name.isEmpty = false := by
    simpa using hwf.named
  rw [List.append_assoc, List.append_assoc]
  refine (reads_word16 _).bind_meets ?_
  refine (reads_lookup hname).bind_meets ?_
  refine (reads_descriptor hdescriptor hwf.descriptor).bind_meets ?_
  rw [hempty]
  refine (meets_attributes hsize hwf.attributes htable).map fun t' ht' => ?_
  exact ⟨rfl, rfl, ht'⟩

/-- Index 0 names no class. -/
theorem ne_zero_of_className (hlaid : pool.IsLaidOut) {i : UInt16} {name : String}
    (h : pool.className i = .ok name) : i ≠ 0 := by
  intro hzero
  obtain ⟨text, hget, -⟩ := ConstantPool.className_eq_ok_iff.1 h
  rw [hzero, hlaid.get?_zero] at hget
  cases hget

theorem reads_superName (hlaid : pool.IsLaidOut) (hsize : pool.size ≤ maxWord)
    {name : Option String} {bytes : Bytes}
    (h : Interning.Gives (Interning.superName name) pool bytes) :
    Reads (superName pool) bytes name := by
  cases name with
  | none =>
    obtain rfl := Interning.gives_pure_iff.1 h
    exact (reads_word16 0).bind (reads_pure none)
  | some name =>
    obtain ⟨i, hi, rfl⟩ := (Interning.gives_reference_iff (Interning.settles_className name)).1 h
    have hname := Interning.className_of_gives hsize hi
    rw [← List.append_nil (BigEndian.ofUInt16 i)]
    refine (reads_word16 i).bind ?_
    rw [if_neg (ne_zero_of_className hlaid hname)]
    exact (reads_ofExcept hname).map some

theorem reads_interfaces (hsize : pool.size ≤ maxWord) {names : List String} {parts : List Bytes}
    (hfits : names.length ≤ maxWord)
    (h : List.Forall₂ (fun name part =>
      Interning.Gives (Interning.reference (Interning.className name)) pool part) names parts) :
    Reads (table (lookup pool.className))
      (BigEndian.ofUInt16 (UInt16.ofNat names.length) ++ parts.flatten) names := by
  refine reads_table (forall₂_of_gives h fun name _ part hpart => ?_) hfits
  obtain ⟨i, hi, rfl⟩ := (Interning.gives_reference_iff (Interning.settles_className name)).1 hpart
  exact reads_lookup (Interning.className_of_gives hsize hi)

theorem meets_members (hsize : pool.size ≤ maxWord) {kind : MemberKind} {counted : TableKind}
    {ms : List Member} (hms : ∀ m ∈ ms, m.IsWellFormed ∧ m.id.kind = kind) {bytes : Bytes}
    (h : Interning.Gives (Interning.members counted ms) pool bytes) :
    Meets (table (member pool kind)) bytes (∀ m ∈ ms, m.attributes.KeepsRoles)
      (fun ms' => List.Forall₂ Member.ReadAs ms ms') := by
  obtain ⟨hfits, parts, hparts, rfl⟩ := Interning.gives_members_iff.1 h
  refine meets_table (List.Forall₂.flip ?_) hfits
  refine ((List.forall₂_and_left _ _).2 ⟨hms, hparts⟩).imp fun m part hm => ?_
  have hmember := meets_member hsize hm.1.1 hm.2
  rwa [hm.1.2] at hmember

/-- A class is read back from its bytes. -/
theorem meets_classBody (hlaid : pool.IsLaidOut) (hsize : pool.size ≤ maxWord) {c : ClassFile}
    (hwf : c.IsWellFormed) {bytes : Bytes}
    (h : Interning.Gives (Interning.classBody c) pool bytes) :
    Meets (classBody c.version pool) bytes c.KeepsRoles (c.ReadAs pool) := by
  obtain ⟨i, super, fields, methods, table, names, hi, hsuper, hfits, hnames, hfields, hmethods,
    htable, rfl⟩ := Interning.gives_classBody_iff.1 h
  have hkind : ∀ kind, ∀ m ∈ c.membersOfKind kind, m.IsWellFormed ∧ m.id.kind = kind := by
    intro kind m hm
    obtain ⟨hmem, hkind⟩ := List.mem_filter.1 hm
    exact ⟨hwf.members m hmem, of_decide_eq_true hkind⟩
  have hkept : c.KeepsRoles → ∀ kind, ∀ m ∈ c.membersOfKind kind, m.attributes.KeepsRoles :=
    fun hall kind m hm => hall.members m (List.mem_filter.1 hm).1
  simp only [List.append_assoc]
  rw [← List.append_assoc (BigEndian.ofUInt16 (UInt16.ofNat c.interfaces.length))]
  refine (reads_word16 _).bind_meets ?_
  refine (reads_lookup (Interning.className_of_gives hsize hi)).bind_meets ?_
  have hrequire : requireDescriptor Descriptor.isClassName c.name.internal = .ok () :=
    if_pos hwf.name
  show Meets _ ([] ++ _) _ _
  refine (reads_ofExcept hrequire).bind_meets ?_
  refine (reads_superName hlaid hsize hsuper).bind_meets ?_
  refine (reads_interfaces hsize hfits hnames).bind_meets ?_
  refine ((meets_members hsize (hkind .field) hfields).mono
    (fun hall => hkept hall .field) fun _ => id).bind fun fields' hfields' => ?_
  refine ((meets_members hsize (hkind .method) hmethods).mono
    (fun hall => hkept hall .method) fun _ => id).bind fun methods' hmethods' => ?_
  refine ((meets_attributes hsize hwf.attributes htable).mono
    ClassFile.KeepsRoles.attributes fun _ => id).map fun table' htable' => ?_
  refine ⟨rfl, rfl, rfl, rfl, rfl, rfl, ?_, htable'⟩
  rw [← hwf.fieldsFirst]
  exact List.rel_append hfields' hmethods'

theorem reads_header {version : ClassVersion} (h : version.isSupported = true) :
    Reads header (ClassFile.headerBytes version) version := by
  rw [ClassFile.headerBytes, List.append_assoc]
  refine (reads_word32 _).bind ?_
  rw [if_neg (by simp)]
  refine (reads_word16 _).bind ?_
  rw [← List.append_nil (BigEndian.ofUInt16 version.major)]
  refine (reads_word16 _).bind ?_
  simp only [h]
  exact reads_pure version

/-- A class is read back from the bytes of its version, its pool and its body. -/
theorem meets_classFile {c : ClassFile} (hwf : c.IsWellFormed) (hpool : pool.IsSound)
    {segment body : Bytes} (hsegment : pool.segment = .ok segment)
    (hbody : Interning.Gives (Interning.classBody c) pool body) :
    Meets classFile (ClassFile.headerBytes c.version ++ segment ++ body) c.KeepsRoles
      (c.ReadAs pool) := by
  rw [List.append_assoc]
  refine (reads_header hwf.version).bind_meets ?_
  refine (ConstantPool.reads_scan hpool.laidOut hsegment).bind_meets ?_
  show Meets _ ([] ++ _) _ _
  refine (reads_ofExcept hpool.references).bind_meets ?_
  exact meets_classBody hpool.laidOut hpool.size_le hwf hbody

/-! ## Writing what was read -/

theorem ensures_member (kind : MemberKind) : Ensures (member pool kind) fun bytes m =>
    (m.id.kind = kind ∧ m.IsWellFormed ∧ m.attributes.IsGrouped) ∧
      (m.attributes.HasNoEmptySlot → Interning.Restores (Interning.member m) pool bytes) := by
  refine ensures_word16.bind ?_
  intro front flags hfront
  subst hfront
  refine ensures_lookup.bind ?_
  intro front name hname
  obtain ⟨i, rfl, hi⟩ := hname
  refine ensures_descriptor.bind ?_
  intro front d hd
  obtain ⟨j, rfl, hj, hd⟩ := hd
  split
  · exact ensures_throw _ _
  · next hempty =>
    refine ensures_attributes.map ?_
    intro back t ht
    obtain ⟨hwf, hgrouped, hrestores⟩ := ht
    refine ⟨⟨rfl, ⟨by simpa using hempty, hd, hwf⟩, hgrouped⟩, fun hslots hpool => ?_⟩
    refine Interning.gives_member_iff.2
      ⟨i, j, back, hpool.gives_utf8 hi, hpool.gives_utf8 hj, hrestores hslots hpool, ?_⟩
    simp only [List.append_assoc]

theorem ensures_members (kind : MemberKind) (counted : TableKind) :
    Ensures (table (member pool kind)) fun bytes ms =>
      (∀ m ∈ ms, m.id.kind = kind ∧ m.IsWellFormed ∧ m.attributes.IsGrouped) ∧
        ((∀ m ∈ ms, m.attributes.HasNoEmptySlot) →
          Interning.Restores (Interning.members counted ms) pool bytes) := by
  refine (ensures_table (ensures_member kind)).mono ?_
  intro bytes ms hms
  obtain ⟨hfits, parts, rfl, hparts⟩ := hms
  obtain ⟨hwf, hrestores⟩ := (List.forall₂_and_left _ _).1 hparts.flip
  refine ⟨hwf, fun hslots hpool => Interning.gives_members_iff.2 ⟨hfits, parts, ?_, rfl⟩⟩
  have hboth := (List.forall₂_and_left _ _).2 ⟨hslots, hrestores⟩
  exact hboth.imp fun m part hm => hm.2 hm.1 hpool

theorem ensures_superName : Ensures (superName pool) fun bytes name =>
    Interning.Restores (Interning.superName name) pool bytes := by
  refine ensures_word16.bind ?_
  intro front i hfront
  subst hfront
  split
  · next hzero =>
    refine ensures_pure fun _ => ?_
    rw [hzero]
    rfl
  · refine (ensures_ofExcept (R := fun bytes name => bytes = [] ∧ pool.className i = .ok name)
      fun name hname => ⟨rfl, hname⟩).map ?_
    intro back name hname
    obtain ⟨rfl, hname⟩ := hname
    intro hpool
    rw [List.append_nil]
    exact (Interning.gives_reference_iff (Interning.settles_className name)).2
      ⟨i, hpool.gives_className hname, rfl⟩

theorem ensures_interfaces : Ensures (table (lookup pool.className)) fun bytes names =>
    names.length ≤ maxWord ∧ ∃ parts : List Bytes,
      bytes = BigEndian.ofUInt16 (UInt16.ofNat names.length) ++ parts.flatten
        ∧ (pool.IsCanonical → List.Forall₂ (fun name part =>
            Interning.Gives (Interning.reference (Interning.className name)) pool part)
              names parts) := by
  refine (ensures_table ensures_lookup).mono ?_
  intro bytes names hnames
  obtain ⟨hfits, parts, rfl, hparts⟩ := hnames
  refine ⟨hfits, parts, rfl, fun hpool => hparts.flip.imp fun name part hpart => ?_⟩
  obtain ⟨i, rfl, hi⟩ := hpart
  exact (Interning.gives_reference_iff (Interning.settles_className name)).2
    ⟨i, hpool.gives_className hi, rfl⟩

/-- Fields and then methods are what a class has of each kind. -/
theorem membersOfKind_append {c : ClassFile} {fields methods : List Member}
    (hc : c.members = fields ++ methods) (hfields : ∀ m ∈ fields, m.id.kind = .field)
    (hmethods : ∀ m ∈ methods, m.id.kind = .method) :
    c.membersOfKind .field = fields ∧ c.membersOfKind .method = methods := by
  have hall : ∀ (kind : MemberKind) (ms : List Member), (∀ m ∈ ms, m.id.kind = kind) →
      ms.filter (fun m => m.id.kind = kind) = ms := fun kind ms hms =>
    List.filter_eq_self.2 fun m hm => decide_eq_true (hms m hm)
  have hnone : ∀ (kind other : MemberKind) (ms : List Member), (∀ m ∈ ms, m.id.kind = other) →
      other ≠ kind → ms.filter (fun m => m.id.kind = kind) = [] := fun kind other ms hms hne =>
    List.filter_eq_nil_iff.2 fun m hm => by simp [hms m hm, hne]
  rw [ClassFile.membersOfKind, ClassFile.membersOfKind, hc, List.filter_append, List.filter_append,
    hall _ _ hfields, hall _ _ hmethods, hnone .field .method methods hmethods (by decide),
    hnone .method .field fields hfields (by decide), List.append_nil, List.nil_append]
  exact ⟨rfl, rfl⟩

/-- A class that was read is well-formed, names itself by an entry of its pool, and is restored if
no annotation slot is empty. -/
theorem ensures_classBody {version : ClassVersion} (hversion : version.isSupported = true)
    (hlaid : pool.IsLaidOut) (hreferences : pool.checkReferences = .ok ()) :
    Ensures (classBody version pool) fun bytes c =>
      c.version = version ∧ c.pool = pool ∧ c.IsWellFormed ∧ c.IsGrouped
        ∧ (∃ i, pool.className i = .ok c.name.internal)
        ∧ (c.HasNoEmptySlot → Interning.Restores (Interning.classBody c) pool bytes) := by
  refine ensures_word16.bind ?_
  intro front flags hfront
  subst hfront
  refine ensures_lookup.bind ?_
  intro front name hname
  obtain ⟨i, rfl, hi⟩ := hname
  refine (ensures_ofExcept (R := fun bytes _ => bytes = [] ∧ Descriptor.isClassName name = true)
    ?_).bind ?_
  · intro _ hd
    unfold requireDescriptor at hd
    split at hd
    · next h => exact ⟨rfl, h⟩
    · cases hd
  intro front _ hfront
  obtain ⟨rfl, hclassName⟩ := hfront
  refine ensures_superName.bind ?_
  intro super superName hsuper
  refine ensures_interfaces.bind ?_
  intro front interfaces hinterfaces
  obtain ⟨hfits, names, rfl, hnames⟩ := hinterfaces
  refine (ensures_members .field .fields).bind ?_
  intro fieldBytes fields hfields
  refine (ensures_members .method .methods).bind ?_
  intro methodBytes methods hmethods
  refine ensures_attributes.map ?_
  intro back t ht
  obtain ⟨hwf, hgrouped, hrestores⟩ := ht
  have hkinds := membersOfKind_append (c := ⟨version, pool, flags, ⟨name⟩, superName, interfaces,
    fields ++ methods, t⟩) rfl (fun m hm => (hfields.1 m hm).1) fun m hm => (hmethods.1 m hm).1
  have hmembers : ∀ m ∈ fields ++ methods, m.IsWellFormed ∧ m.attributes.IsGrouped := by
    intro m hm
    rcases List.mem_append.1 hm with hm | hm
    · exact (hfields.1 m hm).2
    · exact (hmethods.1 m hm).2
  refine ⟨rfl, rfl, ⟨hversion, hlaid, hreferences, hclassName, ?_, fun m hm => (hmembers m hm).1,
    hwf⟩, ⟨fun m hm => (hmembers m hm).2, hgrouped⟩, ⟨i, hi⟩, fun hslots hpool => ?_⟩
  · rw [hkinds.1, hkinds.2]
  · refine Interning.gives_classBody_iff.2 ⟨i, super, fieldBytes, methodBytes, back, names,
      hpool.gives_className hi, hsuper hpool, hfits, hnames hpool, ?_, ?_, ?_, ?_⟩
    · rw [hkinds.1]
      exact hfields.2 (fun m hm => hslots.members m (List.mem_append_left _ hm)) hpool
    · rw [hkinds.2]
      exact hmethods.2 (fun m hm => hslots.members m (List.mem_append_right _ hm)) hpool
    · exact hrestores hslots.attributes hpool
    · simp only [List.append_assoc, List.nil_append]

theorem ensures_header : Ensures header fun bytes version =>
    bytes = ClassFile.headerBytes version ∧ version.isSupported = true := by
  refine ensures_word32.bind ?_
  intro front magic hfront
  subst hfront
  split
  · exact ensures_throw _ _
  next hmagic =>
  refine ensures_word16.bind ?_
  intro front minor hfront
  subst hfront
  refine ensures_word16.bind ?_
  intro front major hfront
  subst hfront
  dsimp only
  split
  · exact ensures_throw _ _
  next hsupported =>
  refine ensures_pure ⟨?_, by simpa using hsupported⟩
  rw [ClassFile.headerBytes, not_not.1 hmagic, List.append_nil, List.append_assoc]

/-- A class file that was read is well-formed, and it is written as the bytes that it was read from,
if its pool is canonical and no annotation slot is empty. -/
theorem ensures_classFile : Ensures classFile fun bytes c =>
    c.IsWellFormed ∧ c.IsGrouped ∧ c.pool.size ≤ maxWord ∧ c.pool.TextsFit
      ∧ ∃ segment body, bytes = ClassFile.headerBytes c.version ++ segment ++ body
        ∧ c.pool.segment = .ok segment
        ∧ (c.HasNoEmptySlot → Interning.Restores (Interning.classBody c) c.pool body) := by
  refine ensures_header.bind ?_
  intro front version hversion
  obtain ⟨rfl, hversion⟩ := hversion
  refine ConstantPool.ensures_scan.bind ?_
  intro segment pool hpool
  obtain ⟨hlaid, hsize, hfit, hsegment⟩ := hpool
  refine (ensures_ofExcept (R := fun bytes _ => bytes = [] ∧ pool.checkReferences = .ok ())
    fun _ h => ⟨rfl, h⟩).bind ?_
  intro front _ hfront
  obtain ⟨rfl, hreferences⟩ := hfront
  refine (ensures_classBody hversion hlaid hreferences).mono ?_
  intro body c hc
  obtain ⟨rfl, rfl, hwf, hgrouped, ⟨i, hi⟩, hrestores⟩ := hc
  -- The class names itself by an entry, so the pool has one.
  have hone : 1 < c.pool.size := by
    obtain ⟨text, hget, -⟩ := ConstantPool.className_eq_ok_iff.1 hi
    obtain ⟨hlt, -⟩ := List.getElem?_eq_some_iff.1 (ConstantPool.get?_eq_some_iff.1 hget)
    have hne := ne_zero_of_className hlaid hi
    have hpos : i.toNat ≠ 0 := fun h => hne (UInt16.toNat_inj.1 h)
    have hlen : i.toNat < c.pool.size := hlt
    omega
  refine ⟨hwf, hgrouped, hsize, hfit, segment, body, ?_, hsegment hone, hrestores⟩
  simp only [List.append_assoc, List.nil_append]

end Scan

end AnnotationGraft
