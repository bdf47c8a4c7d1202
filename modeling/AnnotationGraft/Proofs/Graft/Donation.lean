import AnnotationGraft.Proofs.Graft.Fusion

/-!
# What a donor gives

`Settings.donated` is the annotation that a donor gives to the members of an identity under a kind,
and `Settings.donatedToClass` the one that it gives to the class.  A fused class holds what is
given, and under every other kind what it held before: `get?_fusedMember` and `get?_fusedSet`.

A class that holds all that a donor gives is not changed by it (`Holds.fused_eq_self`), and a fused
class holds all that (`holds_fused`).  So the second fusion is the last.
-/

namespace AnnotationGraft.Settings

variable {settings : Settings} {donor recipient c : ClassFile} {set : AnnotationSet}
  {ds : List Member} {id : MemberId} {kind : String}

/-! ## Donated annotations -/

/-- The annotation of a kind on the last of the members that have one. -/
def lastHeld (ds : List Member) (kind : String) : Option AnnotationUse :=
  ds.reverse.findSome? fun d => d.attributes.annotations.get? kind

/-- What a donor gives to the members of an identity under a kind: of its fuse-marked members of the
identity, the annotation of the last that has one.  The fuse marker itself is not given. -/
def donated (settings : Settings) (donor : ClassFile) (id : MemberId) (kind : String) :
    Option AnnotationUse :=
  if kind = settings.fuseMarker then none else lastHeld (settings.donorsOf donor id) kind

/-- What a donor gives to the class under a kind: if it carries the fuse marker, its own annotation.
The markers themselves are not given. -/
def donatedToClass (settings : Settings) (donor : ClassFile) (kind : String) :
    Option AnnotationUse :=
  if settings.fusesClass donor ∧ kind ≠ settings.fuseMarker ∧ kind ≠ settings.recipientMarker then
    donor.annotations.get? kind
  else none

theorem lastHeld_cons (d : Member) (ds : List Member) (kind : String) :
    lastHeld (d :: ds) kind = (lastHeld ds kind).or (d.attributes.annotations.get? kind) := by
  rw [lastHeld, List.reverse_cons, List.findSome?_append, List.findSome?_singleton]
  rfl

theorem lastOfKind_flatMap_copiedFrom (hds : ∀ d ∈ ds, d.attributes.annotations.IsWellFormed)
    (kind : String) :
    AnnotationSet.lastOfKind (ds.flatMap settings.copiedFrom) kind =
      if kind = settings.fuseMarker then none else lastHeld ds kind := by
  induction ds with
  | nil =>
    split <;> rfl
  | cons d ds ih =>
    have hnodup := (hds d List.mem_cons_self).kinds_nodup
    rw [List.flatMap_cons, AnnotationSet.lastOfKind_append,
      ih fun d' hd' => hds d' (List.mem_cons_of_mem d hd'), copiedFrom,
      AnnotationSet.lastOfKind_copied hnodup, lastHeld_cons]
    simp only [List.mem_singleton]
    split <;> rfl

theorem lastOfKind_copiedFromClass (hdonor : donor.annotations.IsWellFormed)
    (hfuses : settings.fusesClass donor = true) (kind : String) :
    AnnotationSet.lastOfKind (settings.copiedFromClass donor) kind =
      settings.donatedToClass donor kind := by
  rw [copiedFromClass, AnnotationSet.lastOfKind_copied hdonor.kinds_nodup, donatedToClass, hfuses]
  by_cases hfuse : kind = settings.fuseMarker
  · simp [hfuse]
  · by_cases hrecipient : kind = settings.recipientMarker
    · simp [hrecipient]
    · simp [hfuse, hrecipient]

/-! ## What fusing leaves -/

section Fused

variable (hdonor : donor.IsWellFormed)

include hdonor

theorem isWellFormed_of_mem_donorsOf {d : Member} (hd : d ∈ settings.donorsOf donor id) :
    d.attributes.annotations.IsWellFormed :=
  (hdonor.members d (List.mem_filter.1 (List.mem_filter.1 hd).1).1).attributes.annotations

theorem isWellFormed_of_mem_copied {a : AnnotationUse}
    (ha : a ∈ (settings.donorsOf donor id).flatMap settings.copiedFrom) :
    a.isWellFormed a.retention 0 = true := by
  obtain ⟨d, hd, ha⟩ := List.mem_flatMap.1 ha
  exact (isWellFormed_of_mem_donorsOf hdonor hd).isWellFormed_of_mem_copied _ ha

/-- A fused member holds what is given to its identity, and otherwise what it held before. -/
theorem get?_fusedMember (m : Member) (kind : String) :
    (settings.fusedMember donor m).attributes.annotations.get? kind =
      (settings.donated donor m.id kind).or (m.attributes.annotations.get? kind) := by
  have hnormal : ∀ a ∈ (settings.donorsOf donor m.id).flatMap settings.copiedFrom,
      a.normalize = a := fun a ha =>
    AnnotationUse.normalize_of_isWellFormed (isWellFormed_of_mem_copied hdonor ha)
  have hds : ∀ d ∈ settings.donorsOf donor m.id, d.attributes.annotations.IsWellFormed :=
    fun d hd => isWellFormed_of_mem_donorsOf hdonor hd
  show (settings.withDonors _ _).get? kind = _
  rw [withDonors, AnnotationSet.get?_insertAll _ hnormal, lastOfKind_flatMap_copiedFrom hds,
    donated]

/-- A fused class holds what is given to it, and otherwise what it held before. -/
theorem get?_fusedSet (set : AnnotationSet) (kind : String) :
    (settings.fusedSet donor set).get? kind =
      (settings.donatedToClass donor kind).or (set.get? kind) := by
  have hset := hdonor.attributes.annotations
  have hnormal : ∀ a ∈ settings.copiedFromClass donor, a.normalize = a := fun a ha =>
    hset.isNormal.normalize_of_mem_copied _ ha
  unfold fusedSet
  split
  · next hfuses =>
    rw [AnnotationSet.get?_insertAll set hnormal, lastOfKind_copiedFromClass hset hfuses]
  · next hfuses =>
    rw [donatedToClass, if_neg fun h => hfuses h.1]
    rfl

theorem isWellFormed_fusedMember {m : Member} (hm : m.IsWellFormed) :
    (settings.fusedMember donor m).IsWellFormed where
  named := hm.named
  descriptor := hm.descriptor
  attributes := hm.attributes.withAnnotations
    (hm.attributes.annotations.insertAll fun _ ha => isWellFormed_of_mem_copied hdonor ha)

theorem isWellFormed_fusedSet (hset : set.IsWellFormed) :
    (settings.fusedSet donor set).IsWellFormed := by
  unfold fusedSet
  split
  · exact hset.insertAll fun _ ha =>
      hdonor.attributes.annotations.isWellFormed_of_mem_copied _ ha
  · exact hset

/-- Fusing keeps a class well-formed. -/
theorem isWellFormed_fused (hc : c.IsWellFormed) : (settings.fused donor c).IsWellFormed where
  version := hc.version
  laidOut := hc.laidOut
  references := hc.references
  name := hc.name
  fieldsFirst := by
    have hkind := ClassFile.membersOfKind_of_map (c := c) (d := settings.fused donor c) rfl
      fun _ => rfl
    rw [hkind, hkind, ← List.map_append, hc.fieldsFirst]
    rfl
  members m hm := by
    obtain ⟨before, hbefore, rfl⟩ := List.mem_map.1 hm
    exact isWellFormed_fusedMember hdonor (hc.members before hbefore)
  attributes := hc.attributes.withAnnotations
    (isWellFormed_fusedSet hdonor hc.attributes.annotations)

end Fused

/-! ## Grafts -/

/-- What grafting leaves of a member: its annotations are those that are given to its identity, and
otherwise those that it had. -/
structure IsMemberGraftOf (settings : Settings) (donor : ClassFile) (before after : Member) :
    Prop where
  id : after.id = before.id
  accessFlags : after.accessFlags = before.accessFlags
  verbatim : after.attributes.verbatim = before.attributes.verbatim
  annotations : ∀ kind, after.attributes.annotations.get? kind =
    (settings.donated donor before.id kind).or (before.attributes.annotations.get? kind)

/-- What grafting leaves of a recipient: its annotations are those that are given to it, and
otherwise those that it had. -/
structure IsGraftOf (settings : Settings) (donor before after : ClassFile) : Prop where
  version : after.version = before.version
  pool : after.pool.Extends before.pool
  accessFlags : after.accessFlags = before.accessFlags
  name : after.name = before.name
  superName : after.superName = before.superName
  interfaces : after.interfaces = before.interfaces
  members : List.Forall₂ (settings.IsMemberGraftOf donor) before.members after.members
  verbatim : after.attributes.verbatim = before.attributes.verbatim
  annotations : ∀ kind, after.annotations.get? kind =
    (settings.donatedToClass donor kind).or (before.annotations.get? kind)

/-- Writing the fused class and reading it back leaves a graft of the recipient. -/
theorem isGraftOf_regrouped_fused (hdonor : donor.IsWellFormed) (hc : c.IsWellFormed)
    {pool : ConstantPool} (hpool : pool.Extends c.pool) :
    settings.IsGraftOf donor c { (settings.fused donor c).regrouped with pool := pool } where
  version := rfl
  pool := hpool
  accessFlags := rfl
  name := rfl
  superName := rfl
  interfaces := rfl
  members := by
    show List.Forall₂ _ c.members
      ((c.members.map (settings.fusedMember donor)).map Member.regrouped)
    rw [List.forall₂_map_right_iff, List.forall₂_map_right_iff, List.forall₂_same]
    intro m hm
    have hmember : (settings.fusedMember donor m).IsWellFormed :=
      isWellFormed_fusedMember hdonor (hc.members m hm)
    refine ⟨rfl, rfl, AttributeTable.verbatim_regrouped _, fun kind => ?_⟩
    rw [← get?_fusedMember hdonor]
    exact hmember.attributes.get?_regrouped kind
  verbatim := AttributeTable.verbatim_regrouped _
  annotations kind := by
    have hfused : (settings.fused donor c).IsWellFormed := isWellFormed_fused hdonor hc
    rw [← get?_fusedSet hdonor]
    exact hfused.attributes.get?_regrouped kind

/-- The identities of the members stay as they are. -/
theorem IsGraftOf.map_id (h : settings.IsGraftOf donor recipient c) :
    c.members.map (·.id) = recipient.members.map (·.id) := by
  rw [← List.forall₂_eq_eq_eq, List.forall₂_map_left_iff, List.forall₂_map_right_iff]
  exact (h.members.imp fun _ _ hm => hm.id).flip

/-! ## Fusing again -/

/-- The class holds all that a donor gives. -/
structure Holds (settings : Settings) (donor c : ClassFile) : Prop where
  members : ∀ m ∈ c.members, ∀ kind a, settings.donated donor m.id kind = some a →
    m.attributes.annotations.get? kind = some a
  annotations : ∀ kind a, settings.donatedToClass donor kind = some a →
    c.annotations.get? kind = some a

/-- A graft holds all that its donor gives. -/
theorem IsGraftOf.holds (h : settings.IsGraftOf donor recipient c) : settings.Holds donor c where
  members := by
    have hheld : List.Forall₂ (fun before after : Member => (∀ kind a,
        settings.donated donor after.id kind = some a →
          after.attributes.annotations.get? kind = some a) ∧ True) recipient.members c.members := by
      refine h.members.imp fun before after hm => ⟨fun kind a ha => ?_, trivial⟩
      rw [hm.annotations, ← hm.id, ha]
      rfl
    exact ((List.forall₂_and_left _ _).1 hheld.flip).1
  annotations kind a ha := by
    rw [h.annotations, ha]
    rfl

/-- A class that holds all that a donor gives is not changed by it. -/
theorem Holds.fused_eq_self (h : settings.Holds donor c) (hdonor : donor.IsWellFormed)
    (hc : c.IsWellFormed) : settings.fused donor c = c := by
  have hmember : ∀ m ∈ c.members, settings.fusedMember donor m = m := by
    intro m hm
    have hset : settings.withDonors m.attributes.annotations (settings.donorsOf donor m.id)
        = m.attributes.annotations := by
      refine AnnotationSet.insertAll_eq_self (hc.members m hm).attributes.annotations.kinds_nodup
        (fun a ha => AnnotationUse.normalize_of_isWellFormed
          (isWellFormed_of_mem_copied hdonor ha)) fun kind a ha => h.members m hm kind a ?_
      rwa [lastOfKind_flatMap_copiedFrom fun d hd => isWellFormed_of_mem_donorsOf hdonor hd]
        at ha
    rw [fusedMember, hset]
    rfl
  have hset : settings.fusedSet donor c.annotations = c.annotations := by
    have hdonated := hdonor.attributes.annotations
    unfold fusedSet
    split
    · next hfuses =>
      refine AnnotationSet.insertAll_eq_self hc.attributes.annotations.kinds_nodup
        (fun a ha => hdonated.isNormal.normalize_of_mem_copied _ ha) fun kind a ha =>
          h.annotations kind a ?_
      rwa [lastOfKind_copiedFromClass hdonated hfuses] at ha
    · rfl
  rw [fused, hset, List.map_congr_left (g := id) hmember, List.map_id]
  rfl

/-- Fusing a member whose annotations are all there changes nothing. -/
theorem fuse_eq_self {pair : Pairing} {target : Member}
    (htarget : c.members[pair.index]? = some target) (hid : target.id = pair.donor.id)
    (htable : target.attributes.IsWellFormed) (hpair : pair.donor.attributes.IsWellFormed)
    (hheld : ∀ a ∈ settings.copiedFrom pair.donor,
      target.attributes.annotations.get? a.kind = some a) :
    ∃ report, settings.fuse pair c = .ok report c ∧ report.isNoop = true := by
  obtain ⟨hsame, hnoop⟩ := AnnotationSet.merge_eq_self htable.annotations.kinds_nodup
    hpair.annotations.isNormal hheld (.member target.id)
  rw [AnnotationSet.merge_fst] at hsame
  obtain ⟨hlt, hget⟩ := List.getElem?_eq_some_iff.1 htarget
  have hmember : c.members.set pair.index (target.withAnnotations
      (target.attributes.annotations.insertAll (settings.copiedFrom pair.donor))) = c.members := by
    rw [copiedFrom, hsame]
    subst hget
    exact List.set_getElem_self hlt
  refine ⟨_, (fuse_eq_ok htarget hid).trans ?_, hnoop⟩
  rw [hmember]

theorem fuseAll_eq_self {pairs : List Pairing} {done : FusionReport}
    (hpairs : ∀ p ∈ pairs, ∃ report, settings.fuse p c = .ok report c ∧ report.isNoop = true)
    (hdone : done.isNoop = true) :
    ∃ report, settings.fuseAll done pairs c = .ok report c ∧ report.isNoop = true := by
  induction pairs generalizing done with
  | nil => exact ⟨done, rfl, hdone⟩
  | cons p pairs ih =>
    obtain ⟨report, hfuse, hnoop⟩ := hpairs p List.mem_cons_self
    rw [fuseAll_cons hfuse]
    exact ih (fun q hq => hpairs q (List.mem_cons_of_mem p hq))
      (FusionReport.isNoop_append hdone hnoop)

/-- If the identities of the fuse-marked members are distinct, each is alone with its identity. -/
theorem donorsOf_eq_singleton (hnodup : ((settings.fuseMembers donor).map (·.id)).Nodup)
    {d : Member} (hd : d ∈ settings.fuseMembers donor) : settings.donorsOf donor d.id = [d] := by
  unfold donorsOf
  generalize settings.fuseMembers donor = ms at hnodup hd
  induction ms with
  | nil => cases hd
  | cons m ms ih =>
    rw [List.map_cons, List.nodup_cons] at hnodup
    have hfirst : ∀ e ∈ ms, e.id ≠ m.id := fun e he heq =>
      hnodup.1 (heq ▸ List.mem_map_of_mem he)
    rcases List.mem_cons.1 hd with rfl | hd
    · rw [List.filter_cons_of_pos (by simp), List.filter_eq_nil_iff.2 (by simpa using hfirst)]
    · rw [List.filter_cons_of_neg (by simpa using (hfirst d hd).symm), ih hnodup.2 hd]

/-- Fusing the class again changes nothing. -/
theorem Holds.isNoop_classReport (h : settings.Holds donor c) (hdonor : donor.IsWellFormed)
    (hc : c.IsWellFormed) : (settings.classReport donor c.annotations).isNoop = true := by
  have hdonated := hdonor.attributes.annotations
  unfold classReport
  split
  · next hfuses =>
    refine (AnnotationSet.merge_eq_self hc.attributes.annotations.kinds_nodup hdonated.isNormal
      (fun a ha => h.annotations a.kind a ?_) .wholeClass).2
    rw [← lastOfKind_copiedFromClass hdonated hfuses]
    exact AnnotationSet.lastOfKind_of_mem_copied hdonated.kinds_nodup ha
  · rfl

/-- Fusing again is reported to change nothing, if the identities of the fuse-marked members are
distinct.  Members that share one may take an annotation from each other every time. -/
theorem Holds.isNoop_of_applyFusion (h : settings.Holds donor c) (hdonor : donor.IsWellFormed)
    (hc : c.IsWellFormed) (hnodup : ((settings.fuseMembers donor).map (·.id)).Nodup)
    {pairs : List Pairing} (hpairs : c.matchAll (settings.fuseMembers donor) = .ok pairs)
    {report : FusionReport} {c' : ClassFile}
    (hfused : settings.applyFusion donor pairs (settings.fusesClass donor) c = .ok report c') :
    report.isNoop = true := by
  have hstep : ∀ p ∈ pairs, ∃ report, settings.fuse p c = .ok report c ∧ report.isNoop = true := by
    intro p hp
    obtain ⟨hd, target, htarget, hid⟩ := ClassFile.exists_of_matchAll hpairs hp
    have hmem := List.mem_of_getElem? htarget
    have hset := (hdonor.members p.donor (List.mem_filter.1 hd).1).attributes
    refine fuse_eq_self htarget hid (hc.members target hmem).attributes hset fun a ha => ?_
    refine h.members target hmem a.kind a ?_
    rw [hid, donated, donorsOf_eq_singleton hnodup hd, ← lastOfKind_flatMap_copiedFrom]
    · rw [List.flatMap_singleton]
      exact AnnotationSet.lastOfKind_of_mem_copied hset.annotations.kinds_nodup ha
    · intro d hd
      rw [List.mem_singleton.1 hd]
      exact hset.annotations
  obtain ⟨report', hreport, hnoop⟩ := fuseAll_eq_self hstep (h.isNoop_classReport hdonor hc)
  have hsame : settings.fusedSet donor c.annotations = c.annotations :=
    congrArg ClassFile.annotations (h.fused_eq_self hdonor hc)
  rw [applyFusion_eq, hsame] at hfused
  cases hreport.symm.trans hfused
  exact hnoop

end AnnotationGraft.Settings
