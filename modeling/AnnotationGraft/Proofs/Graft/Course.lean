import AnnotationGraft.Proofs.Graft.Chain
import AnnotationGraft.Proofs.Graft.Endings
import Mathlib.Data.List.Chain

/-!
# The course of an attempt

The outcome of an attempt determines the states that it has passed through: an error can only be
raised where its cause is looked at, so `GraftError.passed` names the states up to there, and
`Outcome.course` adds the state in which it ends.  Each state may be reached from the one before
(`Outcome.isCourse_course`).

`Settings.ReportsAs` lists the reports that there are, one constructor for each way to end, and
`Settings.reportsAs_attempt` says that there is no other.  States and diagnostics are read off it.
How often a recipient is loaded cannot be read off a report: `Settings.attemptWith` is an attempt
whose loading may be watched.

`Settings.isAccount_attempt` puts these together.
-/

namespace AnnotationGraft

/-! ## Courses -/

/-- The states through which an attempt has passed when the error is raised. -/
def GraftError.passed : GraftError → List AttemptState
  | .invalidSettings _ | .notTransplant _ | .malformedDonor _ => [.pending]
  | .malformedRecipient _ _ | .recipientUnavailable _ _ | .recipientMismatch _ _
  | .unmatchedMembers _ => [.pending, .resolved]
  | .fusionTarget _ | .encode _ => [.pending, .resolved, .matched]
  | .verification _ _ => [.pending, .resolved, .matched, .fused]

namespace Outcome

/-- The state in which an attempt with the outcome ends. -/
def state : Outcome → AttemptState
  | encoded _ _ _ => .encoded
  | skipped _ => .skipped
  | failed _ => .failed

/-- The states through which an attempt with the outcome passes before it ends. -/
def passed : Outcome → List AttemptState
  | encoded _ _ _ => [.pending, .resolved, .matched, .fused]
  | skipped _ => [.pending]
  | failed error => error.passed

/-- The states of an attempt with the outcome. -/
def course (outcome : Outcome) : List AttemptState := outcome.passed ++ [outcome.state]

end Outcome

namespace AttemptState

variable {states : List AttemptState} {now next : AttemptState}

/-- The states of an attempt that has come to a state and has not ended. -/
structure IsUnderWay (states : List AttemptState) (now : AttemptState) : Prop where
  begins : states.head? = some .pending
  advances : states.IsChain fun before after => before.canAdvanceTo after = true
  reached : states.getLast? = some now
  running : ∀ s ∈ states, s.isTerminal = false

/-- The states of an attempt that has advanced as it may, and that has ended in the last state and
in no state before. -/
structure IsCourse (states : List AttemptState) (last : AttemptState) : Prop where
  begins : states.head? = some .pending
  advances : states.IsChain fun before after => before.canAdvanceTo after = true
  ends : states.getLast? = some last
  terminal : last.isTerminal = true
  running : ∀ s ∈ states.dropLast, s.isTerminal = false

theorem isUnderWay_pending : IsUnderWay [.pending] .pending where
  begins := rfl
  advances := .singleton _
  reached := rfl
  running := by decide

theorem IsUnderWay.isChain_concat (h : IsUnderWay states now)
    (hstep : now.canAdvanceTo next = true) :
    (states ++ [next]).IsChain fun before after => before.canAdvanceTo after = true := by
  refine List.isChain_append.2 ⟨h.advances, .singleton _, ?_⟩
  intro before hbefore after hafter
  obtain rfl : now = before := Option.some.inj (h.reached.symm.trans hbefore)
  obtain rfl : next = after := Option.some.inj hafter
  exact hstep

theorem IsUnderWay.head?_concat (h : IsUnderWay states now) :
    (states ++ [next]).head? = some .pending := by
  rw [List.head?_append, h.begins]
  rfl

theorem IsUnderWay.advance (h : IsUnderWay states now) (hstep : now.canAdvanceTo next = true)
    (hnext : next.isTerminal = false) : IsUnderWay (states ++ [next]) next where
  begins := h.head?_concat
  advances := h.isChain_concat hstep
  reached := List.getLast?_concat
  running := by
    intro s hs
    rcases List.mem_append.1 hs with hs | hs
    · exact h.running s hs
    · rwa [List.mem_singleton.1 hs]

theorem IsUnderWay.finish (h : IsUnderWay states now) (hstep : now.canAdvanceTo next = true)
    (hnext : next.isTerminal = true) : IsCourse (states ++ [next]) next where
  begins := h.head?_concat
  advances := h.isChain_concat hstep
  ends := List.getLast?_concat
  terminal := hnext
  running := by
    rw [List.dropLast_concat]
    exact h.running

theorem isUnderWay_resolved : IsUnderWay [.pending, .resolved] .resolved :=
  isUnderWay_pending.advance rfl rfl

theorem isUnderWay_matched : IsUnderWay [.pending, .resolved, .matched] .matched :=
  isUnderWay_resolved.advance rfl rfl

theorem isUnderWay_fused : IsUnderWay [.pending, .resolved, .matched, .fused] .fused :=
  isUnderWay_matched.advance rfl rfl

end AttemptState

theorem GraftError.isCourse_passed (error : GraftError) :
    AttemptState.IsCourse (error.passed ++ [.failed]) .failed := by
  cases error with
  | invalidSettings | notTransplant | malformedDonor =>
    exact AttemptState.isUnderWay_pending.finish rfl rfl
  | malformedRecipient | recipientUnavailable | recipientMismatch | unmatchedMembers =>
    exact AttemptState.isUnderWay_resolved.finish rfl rfl
  | fusionTarget | encode => exact AttemptState.isUnderWay_matched.finish rfl rfl
  | verification => exact AttemptState.isUnderWay_fused.finish rfl rfl

/-- Whatever its outcome, an attempt follows a course. -/
theorem Outcome.isCourse_course (outcome : Outcome) :
    AttemptState.IsCourse outcome.course outcome.state := by
  cases outcome with
  | encoded => exact AttemptState.isUnderWay_fused.finish rfl rfl
  | skipped => exact AttemptState.isUnderWay_pending.finish rfl rfl
  | failed error => exact error.isCourse_passed

/-! ## Which errors are raised where -/

namespace Awaiting

variable {settings : Settings} {attempt : Awaiting} {loaded : Loaded} {recipient : ClassFile}
  {pairs : List Pairing} {bytes : Bytes} {e : GraftError}

theorem passed_of_matchLoaded (h : attempt.matchLoaded loaded = .error e) :
    e.passed = [.pending, .resolved] := by
  cases loaded with
  | error causes =>
    cases h
    rfl
  | ok bytes =>
    unfold matchLoaded at h
    cases hdecode : ClassFile.decode bytes with
    | error fault =>
      simp only [hdecode] at h
      cases h
      rfl
    | ok found =>
      simp only [hdecode] at h
      rcases except_bind_eq_error_iff.1 h with hmatch | ⟨pairs, -, hpure⟩
      · rcases GraftRequest.matchOnto_eq_error hmatch with ⟨-, rfl⟩ | ⟨-, mismatches, -, rfl⟩
        · rfl
        · rfl
      · cases hpure

theorem passed_of_graftedBytes (h : attempt.graftedBytes settings recipient pairs = .error e) :
    e.passed = [.pending, .resolved, .matched] := by
  unfold graftedBytes Settings.fuseMatched at h
  cases hfused : (settings.applyFusion attempt.donor pairs attempt.request.classLevel).run
      recipient with
  | error fault left =>
    rw [hfused] at h
    cases h
    rfl
  | ok report grafted =>
    obtain ⟨cause, -, rfl⟩ := graftedBytes_eq_error hfused h
    rfl

end Awaiting

/-! ## What is reported -/

namespace Settings

/-- The diagnostic tells how the members and annotations of a donor were fused onto the recipient
that was loaded for it. -/
def TellsFusion (settings : Settings) (donorBytes : Bytes) (load : ClassName → Loaded)
    (name : ClassName) (fusion : FusionReport) (told : Diagnostic) : Prop :=
  ∃ donor recipientBytes recipient pairs grafted, ClassFile.decode donorBytes = .ok donor
    ∧ load name = .ok recipientBytes ∧ ClassFile.decode recipientBytes = .ok recipient
    ∧ recipient.matchAll (settings.fuseMembers donor) = .ok pairs
    ∧ settings.applyFusion donor pairs (settings.fusesClass donor) recipient = .ok fusion grafted
    ∧ told = .fused pairs.length fusion.addedKinds fusion.overwrittenKinds

variable {settings : Settings} {label : String} {donorBytes : Bytes} {load : ClassName → Loaded}
  {report : AttemptReport}

/-- The reports of an attempt, one for each way to end. -/
inductive ReportsAs (settings : Settings) (label : String) (donorBytes : Bytes)
    (load : ClassName → Loaded) : AttemptReport → Prop where
  | malformed {e : DecodeError} :
    ReportsAs settings label donorBytes load
      ⟨label, none, none, [.pending, .failed], [.failed (.malformedDonor e)],
        .failed (.malformedDonor e)⟩
  | skipped {donor : ClassName} {reason : NotTransplant} :
    ReportsAs settings label donorBytes load
      ⟨label, some donor, none, [.pending, .skipped], [.skipped reason], .skipped reason⟩
  | unfused {donor name : ClassName} {e : GraftError}
    (raised : e.passed = [.pending, .resolved] ∨ e.passed = [.pending, .resolved, .matched]) :
    ReportsAs settings label donorBytes load
      ⟨label, some donor, some name, e.passed ++ [.failed], [e.diagnostic], .failed e⟩
  | unverified {donor name : ClassName} {fusion : FusionReport} {told : Diagnostic}
    {fault : VerificationFault} (tells : settings.TellsFusion donorBytes load name fusion told) :
    ReportsAs settings label donorBytes load
      ⟨label, some donor, some name, [.pending, .resolved, .matched, .fused, .failed],
        [told, .failed (.verification name fault)], .failed (.verification name fault)⟩
  | encoded {donor name : ClassName} {fusion : FusionReport} {told : Diagnostic} {bytes : Bytes}
    (tells : settings.TellsFusion donorBytes load name fusion told) :
    ReportsAs settings label donorBytes load
      ⟨label, some donor, some name, [.pending, .resolved, .matched, .fused, .encoded],
        [told, .encoded name bytes.length], .encoded name bytes fusion⟩

theorem reportsAs_complete {attempt : Awaiting} (hlabel : attempt.label = label)
    (hdonor : ClassFile.decode donorBytes = .ok attempt.donor)
    (hrequest : settings.request attempt.donor = .ok attempt.request) :
    settings.ReportsAs label donorBytes load
      (attempt.complete settings (load attempt.request.recipient)) := by
  subst hlabel
  unfold Awaiting.complete
  cases hloaded : attempt.matchLoaded (load attempt.request.recipient) with
  | error e =>
    have hpassed := Awaiting.passed_of_matchLoaded hloaded
    simp only [Awaiting.failure, ← hpassed]
    exact .unfused (.inl hpassed)
  | ok matched =>
    obtain ⟨recipient, pairs⟩ := matched
    simp only
    cases hgrafted : attempt.graftedBytes settings recipient pairs with
    | error e =>
      have hpassed := Awaiting.passed_of_graftedBytes hgrafted
      simp only [Awaiting.failure, ← hpassed]
      exact .unfused (.inr hpassed)
    | ok written =>
      obtain ⟨fusion, bytes⟩ := written
      obtain ⟨recipientBytes, hbytes, hrecipient, hmatch⟩ :=
        Awaiting.matchLoaded_eq_ok_iff.1 hloaded
      obtain ⟨grafted, hfused, -⟩ := Awaiting.graftedBytes_eq_ok_iff.1 hgrafted
      obtain ⟨-, hmembers, hclass⟩ := request_eq_ok_iff.1 hrequest
      have hall := (GraftRequest.matchOnto_eq_ok_iff.1 hmatch).2
      rw [hmembers] at hall
      rw [hclass] at hfused
      have htells : settings.TellsFusion donorBytes load attempt.request.recipient fusion
          (.fused pairs.length fusion.addedKinds fusion.overwrittenKinds) :=
        ⟨attempt.donor, recipientBytes, recipient, pairs, grafted, hdonor, hbytes, hrecipient,
          hall, hfused, rfl⟩
      simp only
      cases hverify : attempt.verify settings recipient bytes with
      | error e =>
        obtain ⟨-, fault, -, rfl⟩ := Awaiting.verify_eq_error_iff.1 hverify
        exact .unverified htells
      | ok u => exact .encoded htells

theorem reportsAs_attempt (settings : Settings) (label : String) (donorBytes : Bytes)
    (load : ClassName → Loaded) :
    settings.ReportsAs label donorBytes load (settings.attempt label donorBytes load) := by
  unfold attempt prepare
  cases hdonor : ClassFile.decode donorBytes with
  | error e => exact .malformed
  | ok donor =>
    simp only
    cases hrequest : settings.request donor with
    | error reason => exact .skipped
    | ok request => exact reportsAs_complete rfl hdonor hrequest

namespace ReportsAs

variable (h : settings.ReportsAs label donorBytes load report)

include h

theorem states_eq : report.states = report.outcome.course := by
  cases h <;> rfl

theorem donor_eq_none_iff :
    report.donor = none ↔ ∃ e, report.outcome = .failed (.malformedDonor e) := by
  cases h with
  | malformed => exact ⟨fun _ => ⟨_, rfl⟩, fun _ => rfl⟩
  | skipped | unverified | encoded => exact ⟨nofun, nofun⟩
  | unfused raised =>
    constructor
    · exact nofun
    · intro hmalformed
      obtain ⟨e, he⟩ := hmalformed
      cases he
      simp [GraftError.passed] at raised

theorem recipient_isSome_iff : report.recipient.isSome = true ↔ .resolved ∈ report.states := by
  cases h with
  | malformed | skipped => simp
  | unverified | encoded => simp
  | unfused raised => rcases raised with raised | raised <;> simp [raised]

theorem diagnostics_of_encoded {name : ClassName} {bytes : Bytes} {fusion : FusionReport}
    (ho : report.outcome = .encoded name bytes fusion) :
    ∃ told, settings.TellsFusion donorBytes load name fusion told
      ∧ report.diagnostics = [told, .encoded name bytes.length] := by
  cases h with
  | malformed | skipped | unfused | unverified => cases ho
  | encoded tells =>
    cases ho
    exact ⟨_, tells, rfl⟩

theorem diagnostics_of_skipped {reason : NotTransplant} (ho : report.outcome = .skipped reason) :
    report.diagnostics = [.skipped reason] := by
  cases h with
  | malformed | unfused | unverified | encoded => cases ho
  | skipped =>
    cases ho
    rfl

theorem diagnostics_of_unverified {name : ClassName} {fault : VerificationFault}
    (ho : report.outcome = .failed (.verification name fault)) :
    ∃ fusion told, settings.TellsFusion donorBytes load name fusion told
      ∧ report.diagnostics = [told, .failed (.verification name fault)] := by
  cases h with
  | malformed | skipped | encoded => cases ho
  | unfused raised =>
    cases ho
    simp [GraftError.passed] at raised
  | unverified tells =>
    cases ho
    exact ⟨_, _, tells, rfl⟩

/-- A failure is told alone, unless it came after fusing. -/
theorem diagnostics_of_failed {e : GraftError} (ho : report.outcome = .failed e)
    (hfused : ∀ name fault, e ≠ .verification name fault) :
    report.diagnostics = [e.diagnostic] := by
  cases h with
  | skipped | encoded => cases ho
  | malformed | unfused =>
    cases ho
    rfl
  | unverified =>
    cases ho
    exact absurd rfl (hfused _ _)

end ReportsAs

/-! ## Loading -/

/-- An attempt whose recipient is loaded by a computation. -/
def attemptWith {m : Type → Type} [Monad m] (settings : Settings) (label : String)
    (donorBytes : Bytes) (load : ClassName → m Loaded) : m AttemptReport :=
  match settings.prepare label donorBytes with
  | .error report => pure report
  | .ok awaiting => return awaiting.complete settings (← load awaiting.request.recipient)

/-- Where the computation does nothing else than load, it is the attempt. -/
theorem attemptWith_pure {m : Type → Type} [Monad m] [LawfulMonad m] (settings : Settings)
    (label : String) (donorBytes : Bytes) (load : ClassName → Loaded) :
    settings.attemptWith label donorBytes (fun name => (pure (load name) : m Loaded))
      = pure (settings.attempt label donorBytes load) := by
  unfold attemptWith attempt
  cases settings.prepare label donorBytes with
  | error report => rfl
  | ok awaiting => exact pure_bind _ _

/-- Loads recipients, and notes each one that was asked for. -/
def noting (load : ClassName → Loaded) (name : ClassName) : StateM (List ClassName) Loaded :=
  fun asked => (load name, asked ++ [name])

/-- An attempt asks for its recipient once, and for nothing else. -/
theorem attemptWith_noting (settings : Settings) (label : String) (donorBytes : Bytes)
    (load : ClassName → Loaded) (asked : List ClassName) :
    (settings.attemptWith label donorBytes (noting load)).run asked
      = (settings.attempt label donorBytes load,
        asked ++ (settings.recipientOfBytes? donorBytes).toList) := by
  rw [recipientOfBytes?_eq_toOption settings label]
  unfold attemptWith attempt prepare
  cases ClassFile.decode donorBytes with
  | error e => exact Prod.ext rfl (List.append_nil asked).symm
  | ok donor =>
    simp only
    cases settings.request donor with
    | error reason => exact Prod.ext rfl (List.append_nil asked).symm
    | ok request => rfl

/-! ## The account -/

/-- The report is a full account of the attempt on a donor, for which recipients are loaded as
given. -/
structure IsAccount (settings : Settings) (label : String) (donorBytes : Bytes)
    (load : ClassName → Loaded) (report : AttemptReport) : Prop where
  /-- The states are a course, which ends as the outcome says. -/
  course : AttemptState.IsCourse report.states report.outcome.state
  donor : report.donor = none ↔ ∃ e, report.outcome = .failed (.malformedDonor e)
  recipient : report.recipient.isSome = true ↔ .resolved ∈ report.states
  /-- The recipient that the report names is loaded once, and nothing else is. -/
  loads : ∀ asked, (settings.attemptWith label donorBytes (noting load)).run asked
    = (report, asked ++ report.recipient.toList)
  encoded : ∀ name bytes fusion, report.outcome = .encoded name bytes fusion →
    ∃ told, settings.TellsFusion donorBytes load name fusion told
      ∧ report.diagnostics = [told, .encoded name bytes.length]
  skipped : ∀ reason, report.outcome = .skipped reason → report.diagnostics = [.skipped reason]
  unverified : ∀ name fault, report.outcome = .failed (.verification name fault) →
    ∃ fusion told, settings.TellsFusion donorBytes load name fusion told
      ∧ report.diagnostics = [told, .failed (.verification name fault)]
  unmatched : ∀ mismatches, report.outcome = .failed (.unmatchedMembers mismatches) →
    report.diagnostics = [.unmatched mismatches]
  /-- Every other failure is told as what it is. -/
  failed : ∀ e, report.outcome = .failed e → (∀ name fault, e ≠ .verification name fault) →
    (∀ mismatches, e ≠ .unmatchedMembers mismatches) → report.diagnostics = [.failed e]

/-- Every attempt reports in full, whatever its donor is and whatever loading gives. -/
theorem isAccount_attempt (settings : Settings) (label : String) (donorBytes : Bytes)
    (load : ClassName → Loaded) :
    settings.IsAccount label donorBytes load (settings.attempt label donorBytes load) := by
  have h := reportsAs_attempt settings label donorBytes load
  constructor
  case course =>
    rw [h.states_eq]
    exact Outcome.isCourse_course _
  case donor => exact h.donor_eq_none_iff
  case recipient => exact h.recipient_isSome_iff
  case loads =>
    intro asked
    rw [attemptWith_noting, recipient_attempt]
  case encoded => exact fun _ _ _ => h.diagnostics_of_encoded
  case skipped => exact fun _ => h.diagnostics_of_skipped
  case unverified => exact fun _ _ => h.diagnostics_of_unverified
  case unmatched => exact fun _ ho => h.diagnostics_of_failed ho nofun
  case failed =>
    intro e ho hfused hmatched
    rw [h.diagnostics_of_failed ho hfused]
    cases e with
    | unmatchedMembers mismatches => exact absurd rfl (hmatched mismatches)
    | _ => rfl

end Settings

end AnnotationGraft
