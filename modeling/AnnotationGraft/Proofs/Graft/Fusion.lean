import AnnotationGraft.Graft.Fusion
import AnnotationGraft.Proofs.ClassFile.ClassScan
import AnnotationGraft.Proofs.Graft.Matching
import AnnotationGraft.Proofs.Graft.Merge

/-!
# Fusion in one pass

Fusion changes the recipient pair by pair.  `Settings.fused` says in one pass what becomes of it: on
each member the annotations of the donor's members of its identity are put, one member after
another, and on the class those of the donor, if asked for.  `applyFusion_eq_ok` proves the two
equal.

Identities and everything but the annotations stay as they are.
-/

namespace AnnotationGraft

namespace Settings

variable (settings : Settings)

/-! ## The pass -/

/-- What fusing a donor's member copies. -/
def copiedFrom (d : Member) : List AnnotationUse :=
  d.attributes.annotations.copied [settings.fuseMarker]

/-- What fusing a donor's class copies. -/
def copiedFromClass (donor : ClassFile) : List AnnotationUse :=
  donor.annotations.copied [settings.fuseMarker, settings.recipientMarker]

/-- A set after fusing members onto it, one after another. -/
def withDonors (set : AnnotationSet) (ds : List Member) : AnnotationSet :=
  set.insertAll (ds.flatMap settings.copiedFrom)

/-- The members of a donor that are fused onto an identity. -/
def donorsOf (donor : ClassFile) (id : MemberId) : List Member :=
  (settings.fuseMembers donor).filter fun d => d.id = id

/-- A member after the fusion. -/
def fusedMember (donor : ClassFile) (m : Member) : Member :=
  m.withAnnotations
    (settings.withDonors m.attributes.annotations (settings.donorsOf donor m.id))

/-- The annotations of a class after the fusion. -/
def fusedSet (donor : ClassFile) (set : AnnotationSet) : AnnotationSet :=
  if settings.fusesClass donor then set.insertAll (settings.copiedFromClass donor) else set

/-- The report of fusing a donor's class, if that is asked for. -/
def classReport (donor : ClassFile) (set : AnnotationSet) : FusionReport :=
  if settings.fusesClass donor then
    (set.merge donor.annotations [settings.fuseMarker, settings.recipientMarker] .wholeClass).2
  else .empty

/-- A class after the fusion. -/
def fused (donor recipient : ClassFile) : ClassFile :=
  { recipient with
    members := recipient.members.map (settings.fusedMember donor)
    attributes :=
      { recipient.attributes with
        annotations := settings.fusedSet donor recipient.annotations } }

/-! ## The pass and the steps -/

variable {settings}

theorem withDonors_cons (set : AnnotationSet) (d : Member) (ds : List Member) :
    settings.withDonors set (d :: ds) =
      settings.withDonors (set.insertAll (settings.copiedFrom d)) ds := by
  rw [withDonors, List.flatMap_cons, AnnotationSet.insertAll_append]
  rfl

/-- One step of the fusion, at a position where there is a member of the identity. -/
theorem fuse_eq_ok {c : ClassFile} {pair : Pairing} {target : Member}
    (htarget : c.members[pair.index]? = some target) (hid : target.id = pair.donor.id) :
    settings.fuse pair c =
      .ok (target.attributes.annotations.merge pair.donor.attributes.annotations
          [settings.fuseMarker] (.member target.id)).2
        { c with
          members := c.members.set pair.index (target.withAnnotations
            (target.attributes.annotations.insertAll (settings.copiedFrom pair.donor))) } := by
  unfold fuse
  rw [htarget]
  simp only [if_pos hid, copiedFrom, AnnotationSet.merge_fst]

/-- Where there was a member of an identity, there still is one after a member was annotated. -/
theorem exists_member_set {ms : List Member} {i j : Nat} {target : Member} {id : MemberId}
    (htarget : ms[i]? = some target) (set : AnnotationSet)
    (h : ∃ m, ms[j]? = some m ∧ m.id = id) :
    ∃ m, (ms.set i (target.withAnnotations set))[j]? = some m ∧ m.id = id := by
  obtain ⟨m, hm, hid⟩ := h
  by_cases hij : i = j
  · subst hij
    rw [htarget] at hm
    obtain rfl := Option.some.inj hm
    obtain ⟨hlt, -⟩ := List.getElem?_eq_some_iff.1 htarget
    exact ⟨_, List.getElem?_set_self hlt, hid⟩
  · exact ⟨m, (List.getElem?_set_ne hij).trans hm, hid⟩

theorem fuseAll_cons {c c' : ClassFile} {pair : Pairing} {pairs : List Pairing}
    {done report : FusionReport} (h : settings.fuse pair c = .ok report c') :
    settings.fuseAll done (pair :: pairs) c = settings.fuseAll (done ++ report) pairs c' := by
  rw [fuseAll]
  show EStateM.bind _ _ _ = _
  unfold EStateM.bind
  rw [h]

/-- The steps on positions that exist come to one pass over the members. -/
theorem fuseAll_eq_ok (pairs : List Pairing) (c : ClassFile) (done : FusionReport)
    (h : ∀ p ∈ pairs, ∃ target, c.members[p.index]? = some target ∧ target.id = p.donor.id) :
    ∃ report, settings.fuseAll done pairs c = .ok report
      { c with
        members := c.members.mapIdx fun i m => m.withAnnotations
          (settings.withDonors m.attributes.annotations
            ((pairs.filter fun p => p.index = i).map (·.donor))) } := by
  induction pairs generalizing c done with
  | nil =>
    refine ⟨done, ?_⟩
    have hsame : c.members.mapIdx (fun i m => m.withAnnotations
        (settings.withDonors m.attributes.annotations
          ((([] : List Pairing).filter fun p => p.index = i).map (·.donor)))) = c.members :=
      List.ext_getElem? fun i => by
        rw [List.getElem?_mapIdx]
        exact Option.map_id'
    rw [hsame]
    rfl
  | cons p pairs ih =>
    obtain ⟨target, htarget, hid⟩ := h p List.mem_cons_self
    rw [fuseAll_cons (fuse_eq_ok htarget hid)]
    have hkept := fun q hq => exists_member_set htarget
      (target.attributes.annotations.insertAll (settings.copiedFrom p.donor))
      (h q (List.mem_cons_of_mem p hq))
    obtain ⟨report, hreport⟩ := ih { c with members := _ } _ hkept
    refine ⟨report, hreport.trans ?_⟩
    congr 2
    apply List.ext_getElem?
    intro i
    rw [List.getElem?_mapIdx, List.getElem?_mapIdx]
    by_cases hindex : p.index = i
    · obtain ⟨hlt, -⟩ := List.getElem?_eq_some_iff.1 htarget
      subst hindex
      rw [htarget, List.getElem?_set_self hlt, List.filter_cons_of_pos (by simp), List.map_cons,
        Option.map_some, Option.map_some, withDonors_cons]
      rfl
    · rw [List.getElem?_set_ne hindex, List.filter_cons_of_neg (by simpa using hindex)]

/-- At matched positions, the steps and the pass do the same to the members. -/
theorem mapIdx_withDonors {recipient : ClassFile} {requests : List Member} {pairs : List Pairing}
    (h : recipient.matchAll requests = .ok pairs) :
    (recipient.members.mapIdx fun i m => m.withAnnotations
        (settings.withDonors m.attributes.annotations
          ((pairs.filter fun p => p.index = i).map (·.donor))))
      = recipient.members.map fun m => m.withAnnotations (settings.withDonors
          m.attributes.annotations (requests.filter fun d => d.id = m.id)) := by
  apply List.ext_getElem?
  intro i
  rw [List.getElem?_mapIdx, List.getElem?_map]
  cases hi : recipient.members[i]? with
  | none => rfl
  | some m => rw [Option.map_some, Option.map_some, ClassFile.donors_of_matchAll h hi]

/-- The recipient after the fusion of the class, if that is asked for. -/
def withClassOf (settings : Settings) (donor recipient : ClassFile) : Bool → ClassFile
  | false => recipient
  | true => recipient.withAnnotations
      (recipient.annotations.insertAll (settings.copiedFromClass donor))

/-- The report of the fusion of the class, if that is asked for. -/
def reportOfClass (settings : Settings) (donor recipient : ClassFile) : Bool → FusionReport
  | false => .empty
  | true => (recipient.annotations.merge donor.annotations
      [settings.fuseMarker, settings.recipientMarker] .wholeClass).2

/-- The class is fused first, if asked for, and then the members are. -/
theorem applyFusion_eq_fuseAll (donor recipient : ClassFile) (pairs : List Pairing)
    (classLevel : Bool) : settings.applyFusion donor pairs classLevel recipient =
      settings.fuseAll (settings.reportOfClass donor recipient classLevel) pairs
        (settings.withClassOf donor recipient classLevel) := by
  cases classLevel with
  | false => rfl
  | true =>
    rw [withClassOf, copiedFromClass, ← AnnotationSet.merge_fst _ _ _ .wholeClass]
    rfl

/-- A graft asks for the fusion of the class when the donor is marked. -/
theorem applyFusion_eq (donor recipient : ClassFile) (pairs : List Pairing) :
    settings.applyFusion donor pairs (settings.fusesClass donor) recipient =
      settings.fuseAll (settings.classReport donor recipient.annotations) pairs
        (recipient.withAnnotations (settings.fusedSet donor recipient.annotations)) := by
  rw [applyFusion_eq_fuseAll]
  unfold classReport fusedSet
  cases settings.fusesClass donor <;> rfl

/-- Fusing what was matched succeeds, and it does what the pass does. -/
theorem applyFusion_eq_ok {donor recipient : ClassFile} {pairs : List Pairing}
    (h : recipient.matchAll (settings.fuseMembers donor) = .ok pairs) :
    ∃ report, settings.applyFusion donor pairs (settings.fusesClass donor) recipient
      = .ok report (settings.fused donor recipient) := by
  have hpositions := fun p hp => (ClassFile.exists_of_matchAll h (p := p) hp).2
  obtain ⟨report, hreport⟩ := fuseAll_eq_ok pairs
    (recipient.withAnnotations (settings.fusedSet donor recipient.annotations))
    (settings.classReport donor recipient.annotations) hpositions
  refine ⟨report, (applyFusion_eq donor recipient pairs).trans (hreport.trans ?_)⟩
  congr 2
  show recipient.members.mapIdx _ = _
  exact mapIdx_withDonors h

end Settings

end AnnotationGraft
