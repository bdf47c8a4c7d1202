import AnnotationGraft.Proofs.Graft.FusionOrder

/-!
# Interrupted fusions

A pairing fits a class that has a member of its identity at its position (`Pairing.Fits`).  One that
fits is fused, and one that does not is refused and changes nothing: `Settings.fuse_cases`.

Each step is taken on what the steps before it have made.  No step moves an identity, so a pairing
fits then exactly when it fitted at first, and the fusion goes on to the first pairing that did not
(`Settings.exists_fuses_misfit`).  `Settings.Fuses` is the fusion up to there, with what each of its
steps reports.
-/

namespace AnnotationGraft

/-! ## Pairings that fit -/

namespace Pairing

variable {p : Pairing} {c c' : ClassFile}

/-- There is a member of the donor's identity at the position. -/
def Fits (p : Pairing) (c : ClassFile) : Prop :=
  ∃ target, c.members[p.index]? = some target ∧ target.id = p.donor.id

/-- What is reported of a pairing that does not fit. -/
def fault (p : Pairing) : FusionFault := ⟨p.donor.id, p.index⟩

theorem fits_iff : p.Fits c ↔ (c.members.map (·.id))[p.index]? = some p.donor.id := by
  rw [Fits, List.getElem?_map, Option.map_eq_some_iff]

instance : Decidable (p.Fits c) := decidable_of_iff _ fits_iff.symm

/-- Whether a pairing fits depends on the identities only. -/
theorem fits_congr (h : c'.members.map (·.id) = c.members.map (·.id)) : p.Fits c' ↔ p.Fits c := by
  rw [fits_iff, fits_iff, h]

/-- A pairing does not fit when its position is out of range or that of another identity. -/
theorem not_fits_iff : ¬ p.Fits c ↔
    c.members.length ≤ p.index ∨ ∃ m, c.members[p.index]? = some m ∧ m.id ≠ p.donor.id := by
  constructor
  · intro hmisfit
    rcases Nat.lt_or_ge p.index c.members.length with hlt | hge
    · have hm := List.getElem?_eq_getElem hlt
      exact .inr ⟨_, hm, fun hid => hmisfit ⟨_, hm, hid⟩⟩
    · exact .inl hge
  · rintro (hge | ⟨m, hm, hid⟩) ⟨target, htarget, hsame⟩
    · rw [List.getElem?_eq_none hge] at htarget
      cases htarget
    · rw [hm] at htarget
      cases htarget
      exact hid hsame

end Pairing

namespace Settings

variable {settings : Settings} {c after : ClassFile} {p : Pairing} {pairs : List Pairing}
  {report : FusionReport} {reports : List FusionReport}

/-! ## One step -/

/-- A pairing that fits is fused and leaves every identity in its place; one that does not is
refused and leaves the class as it is. -/
theorem fuse_cases (settings : Settings) (p : Pairing) (c : ClassFile) :
    (p.Fits c ∧ ∃ report after, settings.fuse p c = .ok report after
        ∧ after.members.map (·.id) = c.members.map (·.id))
      ∨ ¬ p.Fits c ∧ settings.fuse p c = .error p.fault c := by
  by_cases hfits : p.Fits c
  · obtain ⟨target, htarget, hid⟩ := hfits
    refine .inl ⟨⟨target, htarget, hid⟩, _, _, fuse_eq_ok htarget hid, ?_⟩
    obtain ⟨hlt, rfl⟩ := List.getElem?_eq_some_iff.1 htarget
    have hlt' : p.index < (c.members.map (·.id)).length := by rwa [List.length_map]
    have hsame := List.set_getElem_self hlt'
    rw [List.getElem_map] at hsame
    exact List.map_set.trans hsame
  · refine .inr ⟨hfits, ?_⟩
    unfold fuse
    cases htarget : c.members[p.index]? with
    | none => rfl
    | some target =>
      have hid : target.id ≠ p.donor.id := fun hid => hfits ⟨target, htarget, hid⟩
      exact if_neg hid

/-! ## Steps one after another -/

/-- Pairings are fused one after another, each onto what those before it have made of the class; and
what each of them reports. -/
inductive Fuses (settings : Settings) :
    ClassFile → List Pairing → List FusionReport → ClassFile → Prop where
  | done {c : ClassFile} : Fuses settings c [] [] c
  | step {c next after : ClassFile} {p : Pairing} {pairs : List Pairing} {report : FusionReport}
    {reports : List FusionReport} (fused : settings.fuse p c = .ok report next)
    (rest : Fuses settings next pairs reports after) :
    Fuses settings c (p :: pairs) (report :: reports) after

/-- The loop goes through steps that can be taken, and on from there. -/
theorem Fuses.fuseAll_append (h : settings.Fuses c pairs reports after) (done : FusionReport)
    (back : List Pairing) : settings.fuseAll done (pairs ++ back) c
      = settings.fuseAll (done ++ .together reports) back after := by
  induction h generalizing done with
  | done => rw [FusionReport.append_together_nil, List.nil_append]
  | step fused _ ih =>
    rw [List.cons_append, fuseAll_cons fused, ih, FusionReport.append_together_cons]

/-- The loop comes to its end with the reports of the steps together. -/
theorem Fuses.fuseAll_eq_ok (h : settings.Fuses c pairs reports after) (done : FusionReport) :
    settings.fuseAll done pairs c = .ok (done ++ .together reports) after := by
  have hall := h.fuseAll_append done []
  rwa [List.append_nil] at hall

/-- A pairing that is refused ends the loop. -/
theorem fuseAll_cons_of_error {fault : FusionFault} (h : settings.fuse p c = .error fault c)
    (done : FusionReport) : settings.fuseAll done (p :: pairs) c = .error fault c := by
  rw [fuseAll]
  show EStateM.bind _ _ _ = _
  unfold EStateM.bind
  rw [h]

/-- Pairings that fit at first can all be fused. -/
theorem exists_fuses (settings : Settings) (h : ∀ p ∈ pairs, p.Fits c) :
    ∃ reports after, settings.Fuses c pairs reports after
      ∧ after.members.map (·.id) = c.members.map (·.id) := by
  induction pairs generalizing c with
  | nil => exact ⟨[], c, .done, rfl⟩
  | cons p pairs ih =>
    rw [List.forall_mem_cons] at h
    rcases fuse_cases settings p c with ⟨-, report, next, hfused, hids⟩ | ⟨hmisfit, -⟩
    · obtain ⟨reports, after, hrest, hafter⟩ :=
        ih fun q hq => (Pairing.fits_congr hids).2 (h.2 q hq)
      exact ⟨report :: reports, after, .step hfused hrest, hafter.trans hids⟩
    · exact absurd h.1 hmisfit

/-- The loop stops at the first pairing that does not fit, with what the steps before it have made,
whatever follows. -/
theorem exists_fuses_misfit (settings : Settings) {front : List Pairing}
    (hfront : ∀ q ∈ front, q.Fits c) (hp : ¬ p.Fits c) :
    ∃ reports left, settings.Fuses c front reports left
      ∧ ∀ done back, settings.fuseAll done (front ++ p :: back) c = .error p.fault left := by
  obtain ⟨reports, left, hfuses, hids⟩ := exists_fuses settings hfront
  refine ⟨reports, left, hfuses, fun done back => ?_⟩
  rcases fuse_cases settings p left with ⟨hfits, -⟩ | ⟨-, hrefused⟩
  · exact absurd ((Pairing.fits_congr hids).1 hfits) hp
  · rw [hfuses.fuseAll_append, fuseAll_cons_of_error hrefused]

/-- All pairings fit, or there is a first one that does not. -/
theorem fits_cases (pairs : List Pairing) (c : ClassFile) :
    (∀ p ∈ pairs, p.Fits c)
      ∨ ∃ front p back, pairs = front ++ p :: back ∧ (∀ q ∈ front, q.Fits c) ∧ ¬ p.Fits c := by
  cases hfind : pairs.find? fun p => !decide (p.Fits c) with
  | none => exact .inl (by simpa using hfind)
  | some p =>
    obtain ⟨hp, front, back, hpairs, hfront⟩ := List.find?_eq_some_iff_append.1 hfind
    exact .inr ⟨front, p, back, hpairs, by simpa using hfront, by simpa using hp⟩

/-! ## The whole fusion -/

/-- What becomes of a fusion onto a recipient, in each of its steps and as a whole. -/
structure StopsAtMisfit (settings : Settings) (donor recipient : ClassFile) (pairs : List Pairing)
    (classLevel : Bool) : Prop where
  /-- A position that is out of range or that of another identity is refused, and nothing is
  changed. -/
  refused : ∀ p : Pairing,
    recipient.members.length ≤ p.index
        ∨ (∃ m, recipient.members[p.index]? = some m ∧ m.id ≠ p.donor.id) →
      settings.fuse p recipient = .error ⟨p.donor.id, p.index⟩ recipient
  fails : (∃ fault left, settings.applyFusion donor pairs classLevel recipient = .error fault left)
    ↔ ∃ p ∈ pairs, ¬ p.Fits recipient
  /-- The first pairing that does not fit is reported, and what is left is what comes of the fusion
  with the pairings before it. -/
  stops : ∀ fault left, settings.applyFusion donor pairs classLevel recipient = .error fault left ↔
    ∃ front p back report, pairs = front ++ p :: back ∧ (∀ q ∈ front, q.Fits recipient)
      ∧ ¬ p.Fits recipient ∧ fault = ⟨p.donor.id, p.index⟩
      ∧ settings.applyFusion donor front classLevel recipient = .ok report left
  /-- The report is that of the class, if it is fused, and then those of the steps in order. -/
  reports : ∀ report after, settings.applyFusion donor pairs classLevel recipient = .ok report after
    ↔ ∃ reports,
      settings.Fuses (settings.withClassOf donor recipient classLevel) pairs reports after
        ∧ report = settings.reportOfClass donor recipient classLevel ++ .together reports

section Whole

variable (settings) (donor recipient : ClassFile) (classLevel : Bool) {left : ClassFile}
  {fault : FusionFault}

theorem fits_withClassOf (p : Pairing) :
    p.Fits (settings.withClassOf donor recipient classLevel) ↔ p.Fits recipient :=
  Pairing.fits_congr (by rw [members_withClassOf])

theorem applyFusion_of_fits (h : ∀ p ∈ pairs, p.Fits recipient) :
    ∃ reports after,
      settings.Fuses (settings.withClassOf donor recipient classLevel) pairs reports after
        ∧ settings.applyFusion donor pairs classLevel recipient
          = .ok (settings.reportOfClass donor recipient classLevel ++ .together reports) after := by
  obtain ⟨reports, after, hfuses, -⟩ := exists_fuses settings fun p hp =>
    (fits_withClassOf settings donor recipient classLevel p).2 (h p hp)
  refine ⟨reports, after, hfuses, ?_⟩
  rw [applyFusion_eq_fuseAll, hfuses.fuseAll_eq_ok]

theorem applyFusion_of_misfit {front : List Pairing} (hfront : ∀ q ∈ front, q.Fits recipient)
    (hp : ¬ p.Fits recipient) (back : List Pairing) :
    ∃ report left, settings.applyFusion donor front classLevel recipient = .ok report left
      ∧ settings.applyFusion donor (front ++ p :: back) classLevel recipient
        = .error p.fault left := by
  have hfits := fits_withClassOf settings donor recipient classLevel
  obtain ⟨reports, left, hfuses, hstop⟩ := exists_fuses_misfit settings
    (fun q hq => (hfits q).2 (hfront q hq)) (mt (hfits p).1 hp)
  have hok := hfuses.fuseAll_eq_ok (settings.reportOfClass donor recipient classLevel)
  exact ⟨_, left, (applyFusion_eq_fuseAll donor recipient front classLevel).trans hok,
    (applyFusion_eq_fuseAll donor recipient _ classLevel).trans (hstop _ back)⟩

theorem exists_applyFusion_error_iff :
    (∃ fault left, settings.applyFusion donor pairs classLevel recipient = .error fault left)
      ↔ ∃ p ∈ pairs, ¬ p.Fits recipient := by
  constructor
  · rintro ⟨fault, left, herror⟩
    by_contra hnone
    have hall : ∀ p ∈ pairs, p.Fits recipient := by simpa using hnone
    obtain ⟨reports, after, -, hok⟩ :=
      applyFusion_of_fits settings donor recipient classLevel hall
    rw [hok] at herror
    cases herror
  · rintro ⟨q, hq, hmisfit⟩
    rcases fits_cases pairs recipient with hall | ⟨front, p, back, rfl, hfront, hp⟩
    · exact absurd (hall q hq) hmisfit
    · obtain ⟨-, left, -, herror⟩ :=
        applyFusion_of_misfit settings donor recipient classLevel hfront hp back
      exact ⟨_, left, herror⟩

theorem applyFusion_eq_error_iff :
    settings.applyFusion donor pairs classLevel recipient = .error fault left ↔
      ∃ front p back report, pairs = front ++ p :: back ∧ (∀ q ∈ front, q.Fits recipient)
        ∧ ¬ p.Fits recipient ∧ fault = p.fault
        ∧ settings.applyFusion donor front classLevel recipient = .ok report left := by
  constructor
  · intro herror
    rcases fits_cases pairs recipient with hall | ⟨front, p, back, rfl, hfront, hp⟩
    · obtain ⟨reports, after, -, hok⟩ :=
        applyFusion_of_fits settings donor recipient classLevel hall
      rw [hok] at herror
      cases herror
    · obtain ⟨report, left', hok, herror'⟩ :=
        applyFusion_of_misfit settings donor recipient classLevel hfront hp back
      rw [herror'] at herror
      cases herror
      exact ⟨front, p, back, report, rfl, hfront, hp, rfl, hok⟩
  · rintro ⟨front, p, back, report, rfl, hfront, hp, rfl, hok⟩
    obtain ⟨report', left', hok', herror⟩ :=
      applyFusion_of_misfit settings donor recipient classLevel hfront hp back
    rw [hok] at hok'
    cases hok'
    exact herror

theorem applyFusion_eq_ok_iff :
    settings.applyFusion donor pairs classLevel recipient = .ok report after ↔
      ∃ reports,
        settings.Fuses (settings.withClassOf donor recipient classLevel) pairs reports after
          ∧ report = settings.reportOfClass donor recipient classLevel ++ .together reports := by
  constructor
  · intro hok
    rcases fits_cases pairs recipient with hall | ⟨front, p, back, rfl, hfront, hp⟩
    · obtain ⟨reports, after', hfuses, hok'⟩ :=
        applyFusion_of_fits settings donor recipient classLevel hall
      rw [hok'] at hok
      cases hok
      exact ⟨reports, hfuses, rfl⟩
    · obtain ⟨-, left, -, herror⟩ :=
        applyFusion_of_misfit settings donor recipient classLevel hfront hp back
      rw [herror] at hok
      cases hok
  · rintro ⟨reports, hfuses, rfl⟩
    rw [applyFusion_eq_fuseAll, hfuses.fuseAll_eq_ok]

end Whole

/-- A fusion stops at the first pairing that does not fit the recipient, and leaves what the class
and the pairings before it have made.  It fails for no other reason, and when it succeeds it reports
what its steps report, in order. -/
theorem stopsAtMisfit_applyFusion (settings : Settings) (donor recipient : ClassFile)
    (pairs : List Pairing) (classLevel : Bool) :
    settings.StopsAtMisfit donor recipient pairs classLevel where
  refused p hp := by
    rcases fuse_cases settings p recipient with ⟨hfits, -⟩ | ⟨-, hfuse⟩
    · exact absurd hfits (Pairing.not_fits_iff.2 hp)
    · exact hfuse
  fails := exists_applyFusion_error_iff settings donor recipient classLevel
  stops _ _ := applyFusion_eq_error_iff settings donor recipient classLevel
  reports _ _ := applyFusion_eq_ok_iff settings donor recipient classLevel

-- The second pairing names the position of another identity, and the third is not reached.
example :
    let settings : Settings := { fuseMarker := "LF;" }
    let pairs := [⟨fieldWith "y" ["LF;", "LA;"], 1⟩, ⟨fieldWith "x" ["LA;"], 2⟩,
      ⟨fieldWith "z" ["LC;"], 2⟩]
    (match settings.applyFusion twoMarked pairs true threeFields with
      | .error fault left => some (fault, left.annotations.kinds,
        left.members.map (·.attributes.annotations.kinds))
      | .ok _ _ => none)
    = some (⟨⟨.field, "x", "I"⟩, 2⟩, ["LC;"], [["LA;"], ["LA;"], ["LB;"]]) := by
  decide

end Settings

end AnnotationGraft
