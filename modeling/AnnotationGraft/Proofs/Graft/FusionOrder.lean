import AnnotationGraft.Proofs.Graft.Fusion
import Mathlib.Data.List.Nodup

/-!
# The order of fusion

Fusing members changes annotations and nothing else, and it takes them from the members that were
asked for (`ClassFile.DiffersInAnnotations`).  Members of different identities are fused onto
different positions, so what one of them does is not seen by another: in any order the recipient
becomes the same, and the report has the same entries (`Settings.applyFusion_in_any_order`).
-/

namespace AnnotationGraft

/-! ## Reports together -/

namespace FusionReport

/-- Several reports, one after another. -/
def together (reports : List FusionReport) : FusionReport where
  added := reports.flatMap (·.added)
  overwritten := reports.flatMap (·.overwritten)
  unchanged := reports.flatMap (·.unchanged)

theorem append_together_nil (report : FusionReport) : report ++ together [] = report := by
  show append _ _ = _
  simp [append, together]

theorem append_together_cons (done report : FusionReport) (reports : List FusionReport) :
    done ++ together (report :: reports) = done ++ report ++ together reports := by
  show append _ _ = append (append _ _) _
  simp [append, together]

/-- The entries of one report are those of another, in some order. -/
structure IsReordering (report other : FusionReport) : Prop where
  added : report.added.Perm other.added
  overwritten : report.overwritten.Perm other.overwritten
  unchanged : report.unchanged.Perm other.unchanged

theorem isReordering_together (done : FusionReport) {reports others : List FusionReport}
    (h : reports.Perm others) :
    (done ++ together reports).IsReordering (done ++ together others) where
  added := (h.flatMap_right _).append_left done.added
  overwritten := (h.flatMap_right _).append_left done.overwritten
  unchanged := (h.flatMap_right _).append_left done.unchanged

end FusionReport

/-- A class that differs from another one in annotations at most: in those of the members at some
positions and, if `onClass`, in its own. -/
structure ClassFile.DiffersInAnnotations (after before : ClassFile) (positions : List Nat)
    (onClass : Bool) : Prop where
  version : after.version = before.version
  pool : after.pool = before.pool
  accessFlags : after.accessFlags = before.accessFlags
  name : after.name = before.name
  superName : after.superName = before.superName
  interfaces : after.interfaces = before.interfaces
  slots : after.attributes.slots = before.attributes.slots
  annotations : onClass = false → after.annotations = before.annotations
  length : after.members.length = before.members.length
  /-- A member keeps its identity, its flags and its other attributes. -/
  member : ∀ (i : Nat) (m : Member), before.members[i]? = some m →
    ∃ set, after.members[i]? = some (m.withAnnotations set)
  others : ∀ i : Nat, i ∉ positions → after.members[i]? = before.members[i]?

/-! ## Positions of pairings -/

section Positions

variable {recipient : ClassFile} {requests : List Member} {pairs pairs' : List Pairing}

theorem ClassFile.map_donor_of_matchAll (h : recipient.matchAll requests = .ok pairs) :
    pairs.map (·.donor) = requests := by
  rw [matchAll_eq_ok_iff] at h
  induction h with
  | nil => rfl
  | cons hd _ ih => rw [List.map_cons, hd.1, ih]

/-- Members of different identities are fused onto different positions. -/
theorem ClassFile.nodup_index_of_matchAll (h : recipient.matchAll requests = .ok pairs)
    (hdistinct : (requests.map (·.id)).Nodup) : (pairs.map (·.index)).Nodup := by
  rw [← map_donor_of_matchAll h, List.map_map] at hdistinct
  refine List.pairwise_map.2 ((List.pairwise_map.1 hdistinct).imp_of_mem ?_)
  intro p q hp hq hids hindex
  obtain ⟨-, m, hm, hid⟩ := exists_of_matchAll h hp
  obtain ⟨-, m', hm', hid'⟩ := exists_of_matchAll h hq
  rw [hindex, hm'] at hm
  cases hm
  exact hids (hid.symm.trans hid')

/-- At most one member is fused onto each position, so their order is of no account. -/
theorem filter_index_eq_of_perm (hperm : pairs'.Perm pairs)
    (hdistinct : (pairs.map (·.index)).Nodup) (i : Nat) :
    (pairs'.filter fun p => p.index = i) = pairs.filter fun p => p.index = i := by
  have hfilter := hperm.filter fun p => decide (p.index = i)
  have hnodup : ((pairs.filter fun p => p.index = i).map (·.index)).Nodup :=
    hdistinct.sublist (List.filter_sublist.map _)
  have hindex : ∀ p ∈ pairs.filter fun p => p.index = i, p.index = i := fun p hp => by
    simpa using (List.mem_filter.1 hp).2
  generalize (pairs.filter fun p => p.index = i) = found at hfilter hnodup hindex
  rcases found with _ | ⟨p, _ | ⟨q, found⟩⟩
  · exact List.perm_nil.1 hfilter
  · exact List.perm_singleton.1 hfilter
  · have hp := hindex p List.mem_cons_self
    have hq := hindex q (List.mem_cons_of_mem p List.mem_cons_self)
    have hne : p.index ∉ (q :: found).map (·.index) := (List.nodup_cons.1 hnodup).1
    rw [hp, ← hq] at hne
    exact absurd List.mem_cons_self hne

end Positions

namespace Settings

variable {settings : Settings} {c donor recipient : ClassFile} {pairs pairs' : List Pairing}
  {requests : List Member}

/-! ## Members at different positions -/

/-- What fusing a donor's member onto the one at its position reports. -/
def pairReport (settings : Settings) (recipient : ClassFile) (p : Pairing) : FusionReport :=
  match recipient.members[p.index]? with
  | some target => (target.attributes.annotations.merge p.donor.attributes.annotations
      [settings.fuseMarker] (.member target.id)).2
  | none => .empty

theorem pairReport_congr {c' : ClassFile} {p : Pairing}
    (h : c'.members[p.index]? = c.members[p.index]?) :
    settings.pairReport c' p = settings.pairReport c p := by
  rw [pairReport, pairReport, h]

/-- A member that is fused onto a position of its own reports what it does to the recipient as it
was at first. -/
theorem fuseAll_reports (done : FusionReport)
    (h : ∀ p ∈ pairs, ∃ target, c.members[p.index]? = some target ∧ target.id = p.donor.id)
    (hdistinct : (pairs.map (·.index)).Nodup) :
    ∃ after, settings.fuseAll done pairs c
      = .ok (done ++ .together (pairs.map (settings.pairReport c))) after := by
  induction pairs generalizing c done with
  | nil => exact ⟨c, by rw [List.map_nil, FusionReport.append_together_nil]; rfl⟩
  | cons p pairs ih =>
    obtain ⟨target, htarget, hid⟩ := h p List.mem_cons_self
    rw [List.map_cons, List.nodup_cons] at hdistinct
    let members := c.members.set p.index (target.withAnnotations
      (target.attributes.annotations.insertAll (settings.copiedFrom p.donor)))
    have hstep : settings.fuse p c = .ok (settings.pairReport c p) { c with members } := by
      rw [pairReport, htarget]
      exact fuse_eq_ok htarget hid
    have hkept : ∀ q ∈ pairs, members[q.index]? = c.members[q.index]? := by
      intro q hq
      refine List.getElem?_set_ne fun hsame => hdistinct.1 ?_
      rw [hsame]
      exact List.mem_map_of_mem hq
    obtain ⟨after, hafter⟩ := ih (c := { c with members }) (done ++ settings.pairReport c p)
      (fun q hq => hkept q hq ▸ h q (List.mem_cons_of_mem p hq)) hdistinct.2
    refine ⟨after, ?_⟩
    rw [fuseAll_cons hstep, hafter, List.map_cons, FusionReport.append_together_cons]
    congr 3
    exact List.map_congr_left fun q hq => pairReport_congr (hkept q hq)

/-! ## What was matched -/

/-- The recipient after the fusion of requested members and, if asked for, of the class. -/
def fusedBy (settings : Settings) (donor : ClassFile) (requests : List Member) (classLevel : Bool)
    (recipient : ClassFile) : ClassFile :=
  { settings.withClassOf donor recipient classLevel with
    members := recipient.members.map fun m => m.withAnnotations
      (settings.withDonors m.attributes.annotations (requests.filter fun d => d.id = m.id)) }

theorem members_withClassOf (settings : Settings) (donor recipient : ClassFile)
    (classLevel : Bool) :
    (settings.withClassOf donor recipient classLevel).members = recipient.members := by
  cases classLevel <;> rfl

/-- What becomes of the recipient depends on the order only among pairings of one position. -/
theorem exists_applyFusion (donor : ClassFile) (classLevel : Bool)
    (h : recipient.matchAll requests = .ok pairs) (hmem : ∀ p ∈ pairs', p ∈ pairs)
    (hfilter : ∀ i, (pairs'.filter fun p => p.index = i) = pairs.filter fun p => p.index = i) :
    ∃ report, settings.applyFusion donor pairs' classLevel recipient
      = .ok report (settings.fusedBy donor requests classLevel recipient) := by
  obtain ⟨report, hreport⟩ := fuseAll_eq_ok pairs'
    (settings.withClassOf donor recipient classLevel)
    (settings.reportOfClass donor recipient classLevel) fun p hp => by
      rw [members_withClassOf]
      exact (ClassFile.exists_of_matchAll h (hmem p hp)).2
  refine ⟨report, (applyFusion_eq_fuseAll donor recipient pairs' classLevel).trans ?_⟩
  rw [hreport, members_withClassOf]
  simp only [hfilter]
  rw [mapIdx_withDonors h, fusedBy]

/-- At positions of their own, members report what they do to the recipient as it was at first. -/
theorem applyFusion_reports (donor : ClassFile) (classLevel : Bool)
    (h : ∀ p ∈ pairs, ∃ target, recipient.members[p.index]? = some target ∧ target.id = p.donor.id)
    (hdistinct : (pairs.map (·.index)).Nodup) :
    ∃ after, settings.applyFusion donor pairs classLevel recipient
      = .ok (settings.reportOfClass donor recipient classLevel
          ++ .together (pairs.map (settings.pairReport recipient))) after := by
  rw [applyFusion_eq_fuseAll]
  rw [← members_withClassOf settings donor recipient classLevel] at h
  obtain ⟨after, hafter⟩ := fuseAll_reports (settings.reportOfClass donor recipient classLevel) h
    hdistinct
  refine ⟨after, hafter.trans ?_⟩
  congr 3
  exact List.map_congr_left fun p _ => pairReport_congr (by rw [members_withClassOf])

/-- The fusion of what was matched changes annotations only, and only those asked for. -/
theorem differsInAnnotations_fusedBy (donor : ClassFile) (classLevel : Bool)
    (h : recipient.matchAll requests = .ok pairs) :
    (settings.fusedBy donor requests classLevel recipient).DiffersInAnnotations recipient
      (pairs.map (·.index)) classLevel where
  version := by cases classLevel <;> rfl
  pool := by cases classLevel <;> rfl
  accessFlags := by cases classLevel <;> rfl
  name := by cases classLevel <;> rfl
  superName := by cases classLevel <;> rfl
  interfaces := by cases classLevel <;> rfl
  slots := by cases classLevel <;> rfl
  annotations := by rintro rfl; rfl
  length := List.length_map _
  member i m hm := ⟨_, by rw [fusedBy, List.getElem?_map, hm, Option.map_some]⟩
  others i hi := by
    rw [fusedBy, List.getElem?_map]
    cases hm : recipient.members[i]? with
    | none => rfl
    | some m =>
      have hnone : (pairs.filter fun p => p.index = i) = [] :=
        List.filter_eq_nil_iff.2 fun p hp hindex =>
          hi (List.mem_map.2 ⟨p, hp, of_decide_eq_true hindex⟩)
      rw [Option.map_some, ← ClassFile.donors_of_matchAll h hm, hnone]
      rfl

/-- Fusing what was matched succeeds and changes annotations only, those of the class if asked for
and those of the matched members: on each it puts, in order, what the requested members of its
identity have.  Requests of different identities can be fused in any order, to the same effect. -/
theorem applyFusion_in_any_order (settings : Settings) (donor recipient : ClassFile)
    (classLevel : Bool) (h : recipient.matchAll requests = .ok pairs) :
    ∃ report, settings.applyFusion donor pairs classLevel recipient
        = .ok report (settings.fusedBy donor requests classLevel recipient)
      ∧ (settings.fusedBy donor requests classLevel recipient).DiffersInAnnotations recipient
        (pairs.map (·.index)) classLevel
      ∧ ((requests.map (·.id)).Nodup → ∀ pairs' : List Pairing, pairs'.Perm pairs →
        ∃ report', settings.applyFusion donor pairs' classLevel recipient
            = .ok report' (settings.fusedBy donor requests classLevel recipient)
          ∧ report'.IsReordering report) := by
  obtain ⟨report, hreport⟩ := exists_applyFusion donor classLevel h (fun p hp => hp) fun _ => rfl
  refine ⟨report, hreport, differsInAnnotations_fusedBy donor classLevel h, ?_⟩
  intro hids pairs' hperm
  have hindices := ClassFile.nodup_index_of_matchAll h hids
  obtain ⟨report', hreport'⟩ := exists_applyFusion donor classLevel h
    (fun p hp => hperm.mem_iff.1 hp) (filter_index_eq_of_perm hperm hindices)
  have htargets := fun p hp => (ClassFile.exists_of_matchAll h (p := p) hp).2
  obtain ⟨after, hafter⟩ := applyFusion_reports donor classLevel htargets hindices
  obtain ⟨after', hafter'⟩ := applyFusion_reports donor classLevel
    (fun p hp => htargets p (hperm.mem_iff.1 hp)) ((hperm.map _).nodup_iff.2 hindices)
  rw [hreport] at hafter
  rw [hreport'] at hafter'
  injection hafter with hsame
  injection hafter' with hsame'
  refine ⟨report', hreport', ?_⟩
  rw [hsame, hsame']
  exact FusionReport.isReordering_together _ (hperm.map _)

/-- A field with annotations of some kinds. -/
def fieldWith (name : String) (kinds : List String) : Member :=
  ⟨⟨.field, name, "I"⟩, 0, { AttributeTable.empty with
    annotations := ⟨kinds.map fun kind => ⟨kind, .visible, []⟩⟩ }⟩

/-- Three fields, two of which are asked for. -/
def threeFields : ClassFile :=
  { ClassFile.new ⟨"R"⟩ with
    members := [fieldWith "x" ["LA;"], fieldWith "y" [], fieldWith "z" ["LB;"]] }

/-- A marked class with two marked fields, in another order. -/
def twoMarked : ClassFile :=
  { ClassFile.new ⟨"D"⟩ with
    members := [fieldWith "y" ["LF;", "LA;"], fieldWith "x" ["LF;", "LA;", "LC;"]]
    attributes := { AttributeTable.empty with
      annotations := ⟨[⟨"LF;", .visible, []⟩, ⟨"LC;", .visible, []⟩]⟩ } }

/-- Two marked members, with the class, are fused forwards and backwards. -/
theorem applyFusion_twoMarked :
    let settings : Settings := { fuseMarker := "LF;" }
    let requests := settings.fuseMembers twoMarked
    let pairs := [⟨fieldWith "y" ["LF;", "LA;"], 1⟩, ⟨fieldWith "x" ["LF;", "LA;", "LC;"], 0⟩]
    threeFields.matchAll requests = .ok pairs
    ∧ (requests.map (·.id)).Nodup ∧ pairs.reverse.Perm pairs
    ∧ ∃ report report' fused,
      settings.applyFusion twoMarked pairs true threeFields = .ok report fused
      ∧ settings.applyFusion twoMarked pairs.reverse true threeFields = .ok report' fused
      ∧ fused.members.map (·.attributes.annotations.kinds) = [["LA;", "LC;"], ["LA;"], ["LB;"]]
      ∧ fused.annotations.kinds = ["LC;"]
      ∧ fused.members[2]? = threeFields.members[2]?
      ∧ report'.IsReordering report := by
  intro settings requests pairs
  have hmatch : threeFields.matchAll requests = .ok pairs := by decide
  have hids : (requests.map (·.id)).Nodup := by decide
  have hperm : pairs.reverse.Perm pairs := List.reverse_perm pairs
  obtain ⟨report, hreport, hframe, horder⟩ :=
    applyFusion_in_any_order settings twoMarked threeFields true hmatch
  obtain ⟨report', hreport', hsame⟩ := horder hids _ hperm
  exact ⟨hmatch, hids, hperm, report, report', _, hreport, hreport', by decide, by decide,
    hframe.others 2 (by decide), hsame⟩

end Settings

end AnnotationGraft
