import AnnotationGraft.Proofs.Graft.FusedOutput
import AnnotationGraft.Proofs.Graft.Grafting
import AnnotationGraft.Proofs.Graft.Transplant

/-!
# How an attempt ends

An attempt on a donor and a recipient that can be read has six ways to end.  `Settings.EndsIn` lists
them with what was found out on the way, and `Settings.endsIn_graft` says that the attempt ends in
one of them.  From these cases `Settings.endsDuly_graft` tells when each of them occurs: no attempt
fails for a text that is too long, none at a position that was matched, and verification fails only
for a recipient that repeats an annotation attribute.
-/

namespace AnnotationGraft

open ModifiedUtf8 (FitsEntry)

/-! ## Steps that fail -/

/-- A class is not matched because it is another one, or because members lack a counterpart. -/
theorem GraftRequest.matchOnto_eq_error {request : GraftRequest} {recipient : ClassFile}
    {e : GraftError} (h : request.matchOnto recipient = .error e) :
    (recipient.name ≠ request.recipient
        ∧ e = .recipientMismatch request.recipient recipient.name)
      ∨ recipient.name = request.recipient ∧ ∃ mismatches,
        recipient.matchAll request.members = .error mismatches
          ∧ e = .unmatchedMembers mismatches := by
  unfold matchOnto at h
  by_cases hname : recipient.name = request.recipient
  · rw [if_neg (not_not.2 hname)] at h
    cases hall : recipient.matchAll request.members with
    | ok pairs =>
      rw [hall] at h
      cases h
    | error mismatches =>
      rw [hall] at h
      cases h
      exact .inr ⟨hname, mismatches, rfl, rfl⟩
  · rw [if_pos hname] at h
    cases h
    exact .inl ⟨hname, rfl⟩

namespace Awaiting

variable {settings : Settings} {attempt : Awaiting} {recipient grafted : ClassFile}
  {pairs : List Pairing} {report : FusionReport} {bytes : Bytes} {e : GraftError}

/-- What could be fused fails to be grafted only where it cannot be written. -/
theorem graftedBytes_eq_error
    (hfused : settings.applyFusion attempt.donor pairs attempt.request.classLevel recipient
      = .ok report grafted)
    (h : attempt.graftedBytes settings recipient pairs = .error e) :
    ∃ cause, grafted.encode = .error cause ∧ e = .encode cause := by
  have hmatched := Settings.fuseMatched_eq_ok_iff.2 hfused
  rcases except_bind_eq_error_iff.1 h with hfault | ⟨found, hfound, hwrite⟩
  · rw [hmatched] at hfault
    cases hfault
  · rw [hmatched] at hfound
    cases hfound
    cases hencode : grafted.encode with
    | ok bytes =>
      simp only [hencode] at hwrite
      cases hwrite
    | error cause =>
      simp only [hencode] at hwrite
      cases hwrite
      exact ⟨cause, rfl, rfl⟩

theorem verify_eq_error_iff :
    attempt.verify settings recipient bytes = .error e ↔
      settings.verifyOutput = true ∧ ∃ fault, recipient.verifyGrafted bytes = .error fault
        ∧ e = .verification attempt.request.recipient fault := by
  unfold verify
  split
  · next hverify =>
    cases recipient.verifyGrafted bytes with
    | error fault => simp [hverify, eq_comm]
    | ok u => simp
  · next hverify => simp [hverify]

end Awaiting

namespace Settings

variable {settings : Settings} {donor recipient : ClassFile} {donorBytes recipientBytes : Bytes}

/-! ## The six endings -/

/-- The outcome of an attempt whose donor and recipient could be read, with what was found out on
the way to it. -/
inductive EndsIn (settings : Settings) (donor recipient : ClassFile) : Outcome → Prop where
  | skipped {reason : NotTransplant} (unnamed : ∀ name, ¬ settings.Names donor name) :
    EndsIn settings donor recipient (.skipped reason)
  | mismatch {name : ClassName} (named : settings.Names donor name)
    (differs : recipient.name ≠ name) :
    EndsIn settings donor recipient (.failed (.recipientMismatch name recipient.name))
  | unmatched {mismatches : List Mismatch} (named : settings.Names donor recipient.name)
    (lacks : ¬ settings.HasCounterparts donor recipient) :
    EndsIn settings donor recipient (.failed (.unmatchedMembers mismatches))
  | unwritten {report : FusionReport} {e : EncodeError}
    (named : settings.Names donor recipient.name)
    (counterparts : settings.HasCounterparts donor recipient)
    (fused : settings.fuseClasses donor recipient = .ok (settings.fused donor recipient, report))
    (unwritten : (settings.fused donor recipient).encode = .error e) :
    EndsIn settings donor recipient (.failed (.encode e))
  | unverified {report : FusionReport} {bytes : Bytes} {fault : VerificationFault}
    (named : settings.Names donor recipient.name)
    (counterparts : settings.HasCounterparts donor recipient)
    (fused : settings.fuseClasses donor recipient = .ok (settings.fused donor recipient, report))
    (written : (settings.fused donor recipient).encode = .ok bytes)
    (verify : settings.verifyOutput = true)
    (unverified : recipient.verifyGrafted bytes = .error fault) :
    EndsIn settings donor recipient (.failed (.verification recipient.name fault))
  | encoded {report : FusionReport} {bytes : Bytes}
    (named : settings.Names donor recipient.name)
    (counterparts : settings.HasCounterparts donor recipient)
    (fused : settings.fuseClasses donor recipient = .ok (settings.fused donor recipient, report))
    (written : (settings.fused donor recipient).encode = .ok bytes) :
    EndsIn settings donor recipient (.encoded recipient.name bytes report)

/-- In memory a class is matched and fused as an attempt does it, step for step. -/
theorem fuseClasses_eq_bind {request : GraftRequest}
    (hrequest : settings.request donor = .ok request) :
    settings.fuseClasses donor recipient
      = (request.matchOnto recipient).bind fun pairs =>
          settings.fuseMatched donor request pairs recipient := by
  unfold fuseClasses
  rw [hrequest]
  dsimp only
  cases hmatch : request.matchOnto recipient with
  | error e =>
    rcases GraftRequest.matchOnto_eq_error hmatch with ⟨hname, rfl⟩ | ⟨hname, mismatches, hall, rfl⟩
    · rw [if_pos hname.symm]
      rfl
    · rw [if_neg (not_not.2 hname.symm), hall]
      rfl
  | ok pairs =>
    obtain ⟨hname, hall⟩ := GraftRequest.matchOnto_eq_ok_iff.1 hmatch
    rw [if_neg (not_not.2 hname.symm), hall]
    dsimp only [Except.bind]
    unfold fuseMatched
    cases (settings.applyFusion donor pairs request.classLevel).run recipient <;> rfl

/-- Where the names agree and the members are matched, the class in memory is fused. -/
theorem fuseClasses_eq_ok {request : GraftRequest} {pairs : List Pairing}
    (hrequest : settings.request donor = .ok request)
    (hmatch : request.matchOnto recipient = .ok pairs) :
    ∃ report, settings.applyFusion donor pairs request.classLevel recipient
        = .ok report (settings.fused donor recipient)
      ∧ settings.fuseClasses donor recipient = .ok (settings.fused donor recipient, report) := by
  obtain ⟨-, hmembers, hclass⟩ := request_eq_ok_iff.1 hrequest
  have hall := (GraftRequest.matchOnto_eq_ok_iff.1 hmatch).2
  rw [hmembers] at hall
  obtain ⟨report, hfused⟩ := applyFusion_eq_ok hall
  rw [← hclass] at hfused
  refine ⟨report, hfused, ?_⟩
  rw [fuseClasses_eq_bind hrequest]
  exact except_bind_eq_ok_iff.2 ⟨pairs, hmatch, fuseMatched_eq_ok_iff.2 hfused⟩

section Resolved

variable {attempt : Awaiting} (hrequest : settings.request attempt.donor = .ok attempt.request)

include hrequest

/-- An attempt that is not matched ends with the reason for it. -/
theorem endsIn_of_matchOnto_eq_error {e : GraftError}
    (h : attempt.request.matchOnto recipient = .error e) :
    settings.EndsIn attempt.donor recipient (.failed e) := by
  obtain ⟨hasked, hmembers, -⟩ := request_eq_ok_iff.1 hrequest
  have hnamed := recipientOf_eq_ok_iff.1 hasked
  rcases GraftRequest.matchOnto_eq_error h with ⟨hname, rfl⟩ | ⟨hname, mismatches, hall, rfl⟩
  · exact .mismatch hnamed hname
  · rw [← hname] at hnamed
    refine .unmatched hnamed fun hcounterparts => ?_
    obtain ⟨pairs, hpairs⟩ := hasCounterparts_iff.1 hcounterparts
    rw [← hmembers, hall] at hpairs
    cases hpairs

/-- An attempt that has resolved ends in one of the endings. -/
theorem endsIn_complete (hrecipient : ClassFile.decode recipientBytes = .ok recipient) :
    settings.EndsIn attempt.donor recipient
      (attempt.complete settings (.ok recipientBytes)).outcome := by
  obtain ⟨hasked, hmembers, -⟩ := request_eq_ok_iff.1 hrequest
  unfold Awaiting.complete
  cases hloaded : attempt.matchLoaded (.ok recipientBytes) with
  | error e =>
    simp only [Awaiting.matchLoaded, hrecipient] at hloaded
    rcases except_bind_eq_error_iff.1 hloaded with hmatch | ⟨pairs, -, hpure⟩
    · exact endsIn_of_matchOnto_eq_error hrequest hmatch
    · cases hpure
  | ok matched =>
    obtain ⟨found, pairs⟩ := matched
    obtain ⟨_, hbytes, hfound, hmatch⟩ := Awaiting.matchLoaded_eq_ok_iff.1 hloaded
    cases hbytes
    obtain rfl : recipient = found := Except.ok.inj (hrecipient.symm.trans hfound)
    obtain ⟨report, hfused, hclasses⟩ := fuseClasses_eq_ok hrequest hmatch
    obtain ⟨hname, hall⟩ := GraftRequest.matchOnto_eq_ok_iff.1 hmatch
    have hcounterparts : settings.HasCounterparts attempt.donor recipient :=
      hasCounterparts_iff.2 ⟨pairs, hmembers ▸ hall⟩
    have hnamed := recipientOf_eq_ok_iff.1 hasked
    rw [← hname] at hnamed
    cases hgrafted : attempt.graftedBytes settings recipient pairs with
    | error e =>
      obtain ⟨cause, hunwritten, rfl⟩ := Awaiting.graftedBytes_eq_error hfused hgrafted
      simp only [hgrafted]
      exact .unwritten hnamed hcounterparts hclasses hunwritten
    | ok written =>
      obtain ⟨fusion, bytes⟩ := written
      obtain ⟨_, hgraft, hwritten⟩ := Awaiting.graftedBytes_eq_ok_iff.1 hgrafted
      obtain ⟨rfl, rfl⟩ := EStateM.Result.ok.inj (hfused.symm.trans hgraft)
      cases hverify : attempt.verify settings recipient bytes with
      | error e =>
        obtain ⟨hon, fault, hunverified, rfl⟩ := Awaiting.verify_eq_error_iff.1 hverify
        simp only [hgrafted, hverify, ← hname]
        exact .unverified hnamed hcounterparts hclasses hwritten hon hunverified
      | ok u =>
        simp only [hgrafted, hverify, ← hname]
        exact .encoded hnamed hcounterparts hclasses hwritten

end Resolved

/-- An attempt on a donor and a recipient that can be read ends in one of the endings. -/
theorem endsIn_graft (hdonor : ClassFile.decode donorBytes = .ok donor)
    (hrecipient : ClassFile.decode recipientBytes = .ok recipient) :
    settings.EndsIn donor recipient (settings.graft donorBytes recipientBytes).outcome := by
  unfold graft attempt prepare
  rw [hdonor]
  cases hrequest : settings.request donor with
  | error reason =>
    rcases except_bind_eq_error_iff.1 hrequest with hasked | ⟨name, -, hpure⟩
    · simp only [hrequest]
      refine .skipped fun name hnamed => ?_
      rw [recipientOf_eq_ok_iff.2 hnamed] at hasked
      cases hasked
    · cases hpure
  | ok request =>
    simp only [hrequest]
    have hresolved : settings.request (Awaiting.mk "donor" donor request).donor
        = .ok (Awaiting.mk "donor" donor request).request := hrequest
    exact endsIn_complete hresolved hrecipient

/-! ## What an ending means -/

/-- An attempt on the donor and the recipient ends as they give reason to, and for no other reason.
Each case is that of an attempt to which those before it do not apply. -/
structure EndsDuly (settings : Settings) (donor recipient : ClassFile) (outcome : Outcome) :
    Prop where
  skipped : (∃ reason, outcome = .skipped reason) ↔ ∀ name, ¬ settings.Names donor name
  mismatch : ∀ name, settings.Names donor name →
    ((∃ expected found, outcome = .failed (.recipientMismatch expected found))
      ↔ recipient.name ≠ name)
  unmatched : settings.Names donor recipient.name →
    ((∃ mismatches, outcome = .failed (.unmatchedMembers mismatches))
      ↔ ¬ settings.HasCounterparts donor recipient)
  /-- The class is fused; the attempt fails to write it, or it is what the attempt ends in, unless
  it fails verification. -/
  fused : settings.Names donor recipient.name → settings.HasCounterparts donor recipient →
    ∃ grafted report, settings.fuseClasses donor recipient = .ok (grafted, report)
      ∧ (∀ e, outcome = .failed (.encode e) ↔ grafted.encode = .error e)
      ∧ ∀ bytes, grafted.encode = .ok bytes →
        outcome = .encoded recipient.name bytes report
          ∨ settings.verifyOutput = true
            ∧ ∃ fault, outcome = .failed (.verification recipient.name fault)
  fits : ∀ size, outcome ≠ .failed (.encode (.stringTooLong size))
  verification : ∀ name fault, outcome = .failed (.verification name fault) →
    ∃ t ∈ recipient.tables, t.RepeatsAnnotations
  noFusionFault : ∀ fault, outcome ≠ .failed (.fusionTarget fault)

namespace EndsIn

variable {outcome : Outcome} (h : settings.EndsIn donor recipient outcome)

include h

theorem skipped_iff :
    (∃ reason, outcome = .skipped reason) ↔ ∀ name, ¬ settings.Names donor name := by
  cases h with
  | skipped unnamed => exact ⟨fun _ => unnamed, fun _ => ⟨_, rfl⟩⟩
  | mismatch named | unmatched named | unwritten named | unverified named | encoded named =>
    exact ⟨nofun, fun hnone => absurd named (hnone _)⟩

theorem mismatch_iff {name : ClassName} (hnamed : settings.Names donor name) :
    (∃ expected found, outcome = .failed (.recipientMismatch expected found)) ↔
      recipient.name ≠ name := by
  cases h with
  | skipped unnamed => exact absurd hnamed (unnamed name)
  | mismatch named differs =>
    obtain rfl := named.unique hnamed
    exact ⟨fun _ => differs, fun _ => ⟨_, _, rfl⟩⟩
  | unmatched named | unwritten named | unverified named | encoded named =>
    exact ⟨nofun, fun hne => absurd (named.unique hnamed) hne⟩

theorem unmatched_iff (hnamed : settings.Names donor recipient.name) :
    (∃ mismatches, outcome = .failed (.unmatchedMembers mismatches)) ↔
      ¬ settings.HasCounterparts donor recipient := by
  cases h with
  | skipped unnamed => exact absurd hnamed (unnamed _)
  | mismatch named differs => exact absurd (hnamed.unique named) differs
  | unmatched named lacks => exact ⟨fun _ => lacks, fun _ => ⟨_, rfl⟩⟩
  | unwritten _ counterparts | unverified _ counterparts | encoded _ counterparts =>
    exact ⟨nofun, fun hlacks => absurd counterparts hlacks⟩

/-- A matched attempt ends as writing the fused class does, and as verification does. -/
theorem of_fused (hnamed : settings.Names donor recipient.name)
    (hcounterparts : settings.HasCounterparts donor recipient) :
    ∃ grafted report, settings.fuseClasses donor recipient = .ok (grafted, report)
      ∧ (∀ e, outcome = .failed (.encode e) ↔ grafted.encode = .error e)
      ∧ ∀ bytes, grafted.encode = .ok bytes →
        outcome = .encoded recipient.name bytes report
          ∨ settings.verifyOutput = true
            ∧ ∃ fault, outcome = .failed (.verification recipient.name fault) := by
  cases h with
  | skipped unnamed => exact absurd hnamed (unnamed _)
  | mismatch named differs => exact absurd (hnamed.unique named) differs
  | unmatched _ lacks => exact absurd hcounterparts lacks
  | unwritten _ _ fused unwritten =>
    refine ⟨_, _, fused, fun e => ?_, fun bytes hbytes => ?_⟩
    · simp [unwritten]
    · simp [unwritten] at hbytes
  | unverified _ _ fused written verify =>
    refine ⟨_, _, fused, fun e => ?_, fun bytes _ => .inr ⟨verify, _, rfl⟩⟩
    simp [written]
  | encoded _ _ fused written =>
    refine ⟨_, _, fused, fun e => ?_, fun bytes hbytes => .inl ?_⟩
    · simp [written]
    · rw [Except.ok.inj (written.symm.trans hbytes)]

theorem ne_stringTooLong (hdonor : ClassFile.decode donorBytes = .ok donor)
    (hrecipient : ClassFile.decode recipientBytes = .ok recipient) (size : Nat) :
    outcome ≠ .failed (.encode (.stringTooLong size)) := by
  cases h with
  | unwritten _ _ _ unwritten =>
    obtain ⟨hread, hrecipientTexts⟩ := ClassFile.texts_of_decode hrecipient
    have hpool : (settings.fused donor recipient).pool.TextsFit := hread
    have htexts : ∀ s ∈ (settings.fused donor recipient).texts, FitsEntry s :=
      texts_fused (ClassFile.isWellFormed_of_decode hdonor).1
        (ClassFile.texts_of_decode hdonor).2 hrecipientTexts
    rintro ⟨⟩
    exact ClassFile.encode_ne_stringTooLong hpool htexts unwritten size rfl
  | skipped | mismatch | unmatched | unverified | encoded => exact nofun

theorem exists_repeatsAnnotations (hdonor : donor.IsWellFormed)
    (hrecipient : recipient.IsWellFormed) {name : ClassName}
    {fault : VerificationFault} (hfault : outcome = .failed (.verification name fault)) :
    ∃ t ∈ recipient.tables, t.RepeatsAnnotations := by
  cases h with
  | unverified _ _ _ written _ unverified =>
    by_contra hnone
    have hrepeats : ∀ t ∈ recipient.tables, ¬ t.RepeatsAnnotations :=
      fun t ht hrepeat => hnone ⟨t, ht, hrepeat⟩
    rw [verifyGrafted_fused hdonor hrecipient hrepeats written] at unverified
    cases unverified
  | skipped | mismatch | unmatched | unwritten | encoded => cases hfault

theorem ne_fusionTarget (fault : FusionFault) :
    outcome ≠ .failed (.fusionTarget fault) := by
  cases h <;> exact nofun

end EndsIn

/-- Grafting onto a class that can be read ends as the donor and the recipient give reason to. -/
theorem endsDuly_graft (hdonor : ClassFile.decode donorBytes = .ok donor)
    (hrecipient : ClassFile.decode recipientBytes = .ok recipient) :
    settings.EndsDuly donor recipient (settings.graft donorBytes recipientBytes).outcome :=
  have hends : settings.EndsIn donor recipient (settings.graft donorBytes recipientBytes).outcome :=
    endsIn_graft hdonor hrecipient
  { skipped := hends.skipped_iff
    mismatch := fun _ => hends.mismatch_iff
    unmatched := hends.unmatched_iff
    fused := hends.of_fused
    fits := hends.ne_stringTooLong hdonor hrecipient
    verification := fun _ _ => hends.exists_repeatsAnnotations
      (ClassFile.isWellFormed_of_decode hdonor).1 (ClassFile.isWellFormed_of_decode hrecipient).1
    noFusionFault := hends.ne_fusionTarget }

theorem endsDuly_plainField : ∃ donor recipient, ClassFile.decode markedField = .ok donor
    ∧ ClassFile.decode plainField = .ok recipient
    ∧ shortMarkers.EndsDuly donor recipient
      (shortMarkers.graft markedField plainField).outcome := by
  obtain ⟨donor, recipient, hdonor, hrecipient, -⟩ :=
    outcome_graft_eq_encoded_iff.1 graft_plainField
  exact ⟨donor, recipient, hdonor, hrecipient, endsDuly_graft hdonor hrecipient⟩

/-- The class `R`, whose field `x` has two attributes of invisible annotations: the first carries
`LA;` and the second is empty. -/
def repeatedField : Bytes :=
  [202, 254, 186, 190, 0, 0, 0, 52, 0, 7, 1, 0, 1, 82, 7, 0, 1, 1, 0, 1, 120, 1, 0, 1, 73, 1, 0,
    27, 82, 117, 110, 116, 105, 109, 101, 73, 110, 118, 105, 115, 105, 98, 108, 101, 65, 110, 110,
    111, 116, 97, 116, 105, 111, 110, 115, 1, 0, 3, 76, 65, 59, 0, 33, 0, 2, 0, 0, 0, 0, 0, 1, 0, 0,
    0, 3, 0, 4, 0, 2, 0, 5, 0, 0, 0, 6, 0, 1, 0, 6, 0, 0, 0, 5, 0, 0, 0, 2, 0, 0, 0, 0, 0, 0]

-- The donor's visible `LA;` empties the first attribute, so the second is read in its place.
example : (shortMarkers.graft markedField repeatedField).outcome
    = .failed (.verification ⟨"R"⟩ (.memberAttributes ⟨.field, "x", "I"⟩)) := by
  decide +kernel

end Settings

end AnnotationGraft
