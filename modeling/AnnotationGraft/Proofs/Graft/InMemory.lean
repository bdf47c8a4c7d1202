import AnnotationGraft.Proofs.Graft.Endings

/-!
# Grafting in memory

A class can be fused in memory (`Settings.fuseClasses`), where every failure is handed on, and in
an attempt on bytes, which turns each failure into an outcome of its own.  Both resolve, match and
fuse, and both stop at the same failure: `Settings.outcomeOfFusion` says how the attempt ends by
what the fusion in memory gives, and `Settings.outcome_graft_eq` that it does end so.
-/

namespace AnnotationGraft

namespace Settings

variable {settings : Settings} {donor recipient grafted : ClassFile} {pairs : List Pairing}
  {donorBytes recipientBytes bytes : Bytes} {report : FusionReport} {e : GraftError}

/-- How an attempt ends, by what fusing the classes in memory gives. -/
def outcomeOfFusion (settings : Settings) (recipient : ClassFile) :
    Except GraftError (ClassFile × FusionReport) → Outcome
  | .error (.notTransplant reason) => .skipped reason
  | .error e => .failed e
  | .ok (grafted, report) =>
    match grafted.encode with
    | .error e => .failed (.encode e)
    | .ok bytes =>
      match settings.verifyOutput, recipient.verifyGrafted bytes with
      | true, .error fault => .failed (.verification recipient.name fault)
      | _, _ => .encoded recipient.name bytes report

theorem outcomeOfFusion_error (h : ∀ reason, e ≠ .notTransplant reason) :
    settings.outcomeOfFusion recipient (.error e) = .failed e := by
  cases e with
  | notTransplant reason => exact absurd rfl (h reason)
  | _ => rfl

theorem outcomeOfFusion_unwritten {cause : EncodeError} (h : grafted.encode = .error cause) :
    settings.outcomeOfFusion recipient (.ok (grafted, report)) = .failed (.encode cause) := by
  rw [outcomeOfFusion, h]

theorem outcomeOfFusion_unverified {fault : VerificationFault} (h : grafted.encode = .ok bytes)
    (hverify : settings.verifyOutput = true)
    (hfault : recipient.verifyGrafted bytes = .error fault) :
    settings.outcomeOfFusion recipient (.ok (grafted, report))
      = .failed (.verification recipient.name fault) := by
  rw [outcomeOfFusion, h]
  dsimp only
  rw [hverify, hfault]

theorem outcomeOfFusion_written (h : grafted.encode = .ok bytes)
    (hverified : settings.verifyOutput = true → recipient.verifyGrafted bytes = .ok ()) :
    settings.outcomeOfFusion recipient (.ok (grafted, report))
      = .encoded recipient.name bytes report := by
  rw [outcomeOfFusion, h]
  dsimp only
  cases hverify : settings.verifyOutput with
  | false => rfl
  | true => rw [hverified hverify]

/-! ## Where the fusion in memory fails -/

/-- A donor is skipped before it is matched, and for no reason that matching gives. -/
theorem ne_notTransplant_of_matchOnto {request : GraftRequest}
    (h : request.matchOnto recipient = .error e) (reason : NotTransplant) :
    e ≠ .notTransplant reason := by
  rcases GraftRequest.matchOnto_eq_error h with ⟨-, rfl⟩ | ⟨-, mismatches, -, rfl⟩
  · exact nofun
  · exact nofun

theorem fuseClasses_of_request_error {reason : NotTransplant}
    (h : settings.request donor = .error reason) :
    settings.fuseClasses donor recipient = .error (.notTransplant reason) := by
  rw [fuseClasses, h]

theorem fuseClasses_of_matchOnto_error {request : GraftRequest}
    (hrequest : settings.request donor = .ok request)
    (hmatch : request.matchOnto recipient = .error e) :
    settings.fuseClasses donor recipient = .error e := by
  rw [fuseClasses_eq_bind hrequest, hmatch]
  rfl

/-! ## Both ways -/

section Resolved

variable (attempt : Awaiting) (hrequest : settings.request attempt.donor = .ok attempt.request)

include hrequest

/-- An attempt that has resolved ends as the fusion in memory does. -/
theorem outcome_complete_eq (hrecipient : ClassFile.decode recipientBytes = .ok recipient) :
    (attempt.complete settings (.ok recipientBytes)).outcome
      = settings.outcomeOfFusion recipient (settings.fuseClasses attempt.donor recipient) := by
  unfold Awaiting.complete
  cases hmatch : attempt.request.matchOnto recipient with
  | error e =>
    have hloaded : attempt.matchLoaded (.ok recipientBytes) = .error e := by
      simp only [Awaiting.matchLoaded, hrecipient, hmatch]
      rfl
    rw [hloaded, fuseClasses_of_matchOnto_error hrequest hmatch,
      outcomeOfFusion_error (ne_notTransplant_of_matchOnto hmatch)]
    rfl
  | ok pairs =>
    have hloaded := Awaiting.matchLoaded_eq_ok_iff.2 ⟨recipientBytes, rfl, hrecipient, hmatch⟩
    obtain ⟨report, hfused, hclasses⟩ := fuseClasses_eq_ok hrequest hmatch
    have hname := (GraftRequest.matchOnto_eq_ok_iff.1 hmatch).1
    simp only [hloaded, hclasses]
    cases hgrafted : attempt.graftedBytes settings recipient pairs with
    | error e =>
      obtain ⟨cause, hunwritten, rfl⟩ := Awaiting.graftedBytes_eq_error hfused hgrafted
      simp only [outcomeOfFusion_unwritten hunwritten]
      rfl
    | ok written =>
      obtain ⟨fusion, bytes⟩ := written
      obtain ⟨_, hgraft, hwritten⟩ := Awaiting.graftedBytes_eq_ok_iff.1 hgrafted
      obtain ⟨rfl, rfl⟩ := EStateM.Result.ok.inj (hfused.symm.trans hgraft)
      cases hverify : attempt.verify settings recipient bytes with
      | error e =>
        obtain ⟨hon, fault, hunverified, rfl⟩ := Awaiting.verify_eq_error_iff.1 hverify
        simp only [hverify, outcomeOfFusion_unverified hwritten hon hunverified, hname]
        rfl
      | ok u =>
        have hverified := Awaiting.verify_eq_ok_iff.1 hverify
        simp only [hverify, outcomeOfFusion_written hwritten hverified, hname]
        rfl

end Resolved

/-- What is loaded counts only once a donor has resolved, and then as what it is read as. -/
theorem outcome_attempt_eq {label : String} {load : ClassName → Loaded}
    (hdonor : ClassFile.decode donorBytes = .ok donor)
    (hload : ∀ name, settings.recipientOf donor = .ok name → load name = .ok recipientBytes)
    (hrecipient : ClassFile.decode recipientBytes = .ok recipient) :
    (settings.attempt label donorBytes load).outcome
      = settings.outcomeOfFusion recipient (settings.fuseClasses donor recipient) := by
  unfold attempt prepare
  rw [hdonor]
  cases hrequest : settings.request donor with
  | error reason =>
    simp only [hrequest, fuseClasses_of_request_error hrequest]
    rfl
  | ok request =>
    simp only [hrequest, hload _ (request_eq_ok_iff.1 hrequest).1]
    exact outcome_complete_eq ⟨label, donor, request⟩ hrequest hrecipient

/-- Only onto the class that the donor names is it fused. -/
theorem recipientOf_of_fuseClasses {fused : ClassFile × FusionReport}
    (h : settings.fuseClasses donor recipient = .ok fused) :
    settings.recipientOf donor = .ok recipient.name := by
  cases hrequest : settings.request donor with
  | error reason =>
    rw [fuseClasses_of_request_error hrequest] at h
    cases h
  | ok request =>
    rw [fuseClasses_eq_bind hrequest] at h
    obtain ⟨pairs, hmatch, -⟩ := except_bind_eq_ok_iff.1 h
    rw [(GraftRequest.matchOnto_eq_ok_iff.1 hmatch).1]
    exact (request_eq_ok_iff.1 hrequest).1

/-- An attempt on classes that can be read ends as their fusion in memory does: in the reason for
which the donor is passed over, in the same error, or with what is written of the fused class and
the same report, for the recipient that the donor names. -/
theorem outcome_graft_eq (hdonor : ClassFile.decode donorBytes = .ok donor)
    (hrecipient : ClassFile.decode recipientBytes = .ok recipient) :
    (settings.graft donorBytes recipientBytes).outcome
        = settings.outcomeOfFusion recipient (settings.fuseClasses donor recipient)
      ∧ ∀ fused, settings.fuseClasses donor recipient = .ok fused →
        settings.recipientOf donor = .ok recipient.name :=
  ⟨outcome_attempt_eq hdonor (fun _ _ => rfl) hrecipient, fun _ => recipientOf_of_fuseClasses⟩

/-- A field's annotation is replaced, in memory as on bytes. -/
theorem outcome_graft_plainField : ∃ donor recipient, ClassFile.decode markedField = .ok donor
    ∧ ClassFile.decode plainField = .ok recipient
    ∧ shortMarkers.outcomeOfFusion recipient (shortMarkers.fuseClasses donor recipient)
      = .encoded ⟨"R"⟩ graftedField ⟨[], [⟨.member ⟨.field, "x", "I"⟩, "LA;"⟩], []⟩
    ∧ ∃ fused, shortMarkers.fuseClasses donor recipient = .ok fused
      ∧ shortMarkers.recipientOf donor = .ok recipient.name := by
  obtain ⟨donor, recipient, hdonor, hrecipient, -⟩ :=
    outcome_graft_eq_encoded_iff.1 graft_plainField
  obtain ⟨hsame, hresolved⟩ : (shortMarkers.graft markedField plainField).outcome = _ ∧ _ :=
    outcome_graft_eq hdonor hrecipient
  rw [graft_plainField] at hsame
  refine ⟨donor, recipient, hdonor, hrecipient, hsame.symm, ?_⟩
  cases hfused : shortMarkers.fuseClasses donor recipient with
  | error e =>
    rw [hfused] at hsame
    cases e <;> cases hsame
  | ok fused => exact ⟨fused, rfl, hresolved fused hfused⟩

end Settings

end AnnotationGraft
