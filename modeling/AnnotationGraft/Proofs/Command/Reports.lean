import Mathlib.Algebra.Ring.Nat
import AnnotationGraft.Command.Run
import AnnotationGraft.Proofs.Graft.Course
import AnnotationGraft.Proofs.Graft.Parallel

/-!
# What reports show

The report of a batch is read by people or by other programs.  What they find in it is said here
without a look at how it is made: of a JSON document by the fields of its objects
(`Json.ShowsBatch`), and of a text by its lines, one for each attempt that was not passed over
(`IsBatchText`).  Both have the number of classes that were stored, and the counts of the attempts,
of which each is counted once (`BatchSummary.Counts`).

`Formats.shows_report` says that the report of a batch shows all of this.  That a line of text tells
how many members were fused is because an attempt that succeeds has a diagnostic with this number:
`Settings.ReportsAs.hasLine`.
-/

namespace AnnotationGraft

/-! ## Counts -/

/-- The counts are those of the reports, of which each is counted once. -/
structure BatchSummary.Counts (summary : BatchSummary) (reports : List AttemptReport) : Prop where
  encoded : summary.encoded = (reports.filterMap AttemptReport.encoded?).length
  skipped : summary.skipped = reports.countP fun report => report.state = .skipped
  failed : summary.failed = reports.countP fun report => report.state = .failed
  overwritten : summary.overwritten = (reports.map AttemptReport.overwrittenCount).sum
  total : summary.encoded + summary.skipped + summary.failed = reports.length

/-! ## JSON -/

/-- The state with a name. -/
def AttemptState.ofName? (name : String) : Option AttemptState :=
  all.find? fun state => state.name = name

namespace Json

/-- The value of a field of an object. -/
def field? : Json → String → Option Json
  | object fields, name => fields.lookup name
  | _, _ => none

variable (document : Json)

/-- The document shows a member. -/
structure ShowsMember (id : MemberId) : Prop where
  kind : document.field? "kind" = some (.string (if id.kind = .field then "field" else "method"))
  name : document.field? "name" = some (.string id.name)
  descriptor : document.field? "descriptor" = some (.string id.descriptor)

/-- The document shows a member that has no counterpart, or several. -/
inductive ShowsMismatch : Mismatch → Prop where
  | unmatched {id : MemberId} {member : Json}
    (kind : document.field? "mismatch" = some (.string "unmatched"))
    (named : document.field? "member" = some member) (shown : member.ShowsMember id) :
    ShowsMismatch (.unmatched id)
  | ambiguous {id : MemberId} {count : Nat} {member : Json}
    (kind : document.field? "mismatch" = some (.string "ambiguous"))
    (named : document.field? "member" = some member) (shown : member.ShowsMember id)
    (counted : document.field? "candidates" = some (.number count)) :
    ShowsMismatch (.ambiguous id count)

/-- The document shows why a class was passed over: it has no marker, or the value of the marker is
not a class literal. -/
inductive ShowsReason : NotTransplant → Prop where
  | missing {marker : String}
    (kind : document.field? "reason" = some (.string "missing_recipient_marker"))
    (detail : document.field? "detail" = some (.string marker)) :
    ShowsReason (.missingMarker marker)
  | invalid {reason : NotTransplant} (marked : ∀ marker, reason ≠ .missingMarker marker)
    (kind : document.field? "reason" = some (.string "invalid_recipient_value"))
    (detail : document.field? "detail" = some (.string reason.detail)) :
    ShowsReason reason

/-- The document shows what happened in the course of an attempt. -/
inductive ShowsDiagnostic : Diagnostic → Prop where
  | skipped {reason : NotTransplant} {why : Json}
    (event : document.field? "event" = some (.string "skipped"))
    (told : document.field? "reason" = some why) (shown : why.ShowsReason reason) :
    ShowsDiagnostic (.skipped reason)
  | failed {e : GraftError} (event : document.field? "event" = some (.string "failed"))
    (told : document.field? "error" = some (.string e.message)) :
    ShowsDiagnostic (.failed e)
  | unmatched {mismatches : List Mismatch} {items : List Json}
    (event : document.field? "event" = some (.string "unmatched"))
    (told : document.field? "members" = some (.array items))
    (shown : List.Forall₂ ShowsMismatch items mismatches) :
    ShowsDiagnostic (.unmatched mismatches)
  | fused {members : Nat} {added overwritten : List String}
    (event : document.field? "event" = some (.string "fused"))
    (counted : document.field? "fused_members" = some (.number members))
    (gained : document.field? "added" = some (.array (added.map .string)))
    (lost : document.field? "overwritten" = some (.array (overwritten.map .string))) :
    ShowsDiagnostic (.fused members added overwritten)
  | encoded {name : ClassName} {size : Nat}
    (event : document.field? "event" = some (.string "encoded"))
    (written : document.field? "recipient" = some (.string name.internal))
    (counted : document.field? "bytes" = some (.number size)) :
    ShowsDiagnostic (.encoded name size)

/-- The document shows the report of an attempt.  How it ended is the last of the states. -/
structure ShowsAttempt (report : AttemptReport) : Prop where
  donor : document.field? "donor" = some (.string report.label)
  donorClass : document.field? "donor_class"
    = some (report.donor.elim .null fun name => .string name.internal)
  recipient : document.field? "recipient"
    = some (report.recipient.elim .null fun name => .string name.internal)
  states : ∃ names : List String, document.field? "states" = some (.array (names.map .string))
    ∧ names.map AttemptState.ofName? = report.states.map some
  diagnostics : ∃ told, document.field? "diagnostics" = some (.array told)
    ∧ List.Forall₂ ShowsDiagnostic told report.diagnostics

/-- The document shows the counts of a batch. -/
structure ShowsCounts (summary : BatchSummary) : Prop where
  encoded : document.field? "encoded" = some (.number summary.encoded)
  skipped : document.field? "skipped" = some (.number summary.skipped)
  failed : document.field? "failed" = some (.number summary.failed)
  overwritten : document.field? "overwritten" = some (.number summary.overwritten)

/-- The document shows the reports of a batch of which `written` classes were stored. -/
structure ShowsBatch (reports : List AttemptReport) (written : Nat) (dryRun : Bool) : Prop where
  dryRun : document.field? "dry_run" = some (.bool dryRun)
  written : document.field? "written" = some (.number written)
  summary : ∃ counts : Json, ∃ summary : BatchSummary, document.field? "summary" = some counts
    ∧ counts.ShowsCounts summary ∧ summary.Counts reports
  attempts : ∃ items, document.field? "attempts" = some (.array items)
    ∧ List.Forall₂ ShowsAttempt items reports

end Json

/-! ## Text -/

/-- The line of an attempt, or nothing when it was passed over.  A line tells how many members were
fused and annotations added, and what was overwritten; or else why the attempt failed. -/
inductive AttemptReport.HasLine (report : AttemptReport) : String → Prop where
  | encoded {name : ClassName} {bytes : Bytes} {fusion : FusionReport} {members : Nat}
    (outcome : report.outcome = .encoded name bytes fusion)
    (fused : .fused members fusion.addedKinds fusion.overwrittenKinds ∈ report.diagnostics)
    (kept : fusion.overwritten = []) :
    HasLine report ("ok    " ++ report.label ++ " -> " ++ name.sourceName
      ++ " (" ++ toString members ++ " member(s), " ++ toString fusion.added.length ++ " added)\n")
  | overwriting {name : ClassName} {bytes : Bytes} {fusion : FusionReport} {members : Nat}
    (outcome : report.outcome = .encoded name bytes fusion)
    (fused : .fused members fusion.addedKinds fusion.overwrittenKinds ∈ report.diagnostics)
    (lost : fusion.overwritten ≠ []) :
    HasLine report ("ok    " ++ report.label ++ " -> " ++ name.sourceName
      ++ " (" ++ toString members ++ " member(s), " ++ toString fusion.added.length
      ++ " added, overwrote "
      ++ ", ".intercalate (fusion.overwrittenKinds.map Descriptor.sourceName) ++ ")\n")
  | failed {error : GraftError} (outcome : report.outcome = .failed error) :
    HasLine report ("FAIL  " ++ report.label ++ ": " ++ error.message ++ "\n")
  | skipped {reason : NotTransplant} (outcome : report.outcome = .skipped reason) :
    HasLine report ""

/-- The text has the lines of the attempts in their order, and then the counts of the batch, of
which `written` classes were stored. -/
def IsBatchText (reports : List AttemptReport) (written : Nat) (dryRun : Bool) (text : String) :
    Prop :=
  ∃ (lines : List String) (summary : BatchSummary),
    List.Forall₂ AttemptReport.HasLine reports lines ∧ summary.Counts reports
    ∧ text = String.join lines
      ++ toString summary.encoded ++ " encoded, " ++ toString summary.skipped ++ " skipped, "
      ++ toString summary.failed ++ " failed, " ++ toString summary.overwritten
      ++ " annotation(s) overwritten"
      ++ (if dryRun then "; dry run, nothing written\n"
        else "; " ++ toString written ++ " class file(s) written\n")

/-- The output shows the reports of a batch in the form that was asked for. -/
inductive Formats.Shows (formats : Formats) (arguments : GraftArguments)
    (reports : List AttemptReport) (written : Nat) : String → Prop where
  | json {document : Json} (asked : arguments.json = true)
    (shown : document.ShowsBatch reports written arguments.dryRun) :
    Shows formats arguments reports written (formats.json document ++ "\n")
  | text {output : String} (asked : arguments.json = false)
    (shown : IsBatchText reports written arguments.dryRun output) :
    Shows formats arguments reports written output

/-! ## Documents show what they are made of -/

theorem AttemptState.ofName?_name (state : AttemptState) : ofName? state.name = some state := by
  cases state <;> decide

theorem forall₂_map_left {α β : Type} {R : β → α → Prop} {f : α → β} (h : ∀ a, R (f a) a)
    (as : List α) : List.Forall₂ R (as.map f) as := by
  rw [List.forall₂_map_left_iff, List.forall₂_same]
  exact fun a _ => h a

theorem MemberId.json_showsMember (id : MemberId) : id.json.ShowsMember id := by
  obtain ⟨kind, name, descriptor⟩ := id
  exact ⟨by cases kind <;> rfl, rfl, rfl⟩

theorem Mismatch.json_showsMismatch (mismatch : Mismatch) :
    mismatch.json.ShowsMismatch mismatch := by
  cases mismatch with
  | unmatched id => exact .unmatched rfl rfl id.json_showsMember
  | ambiguous id candidates => exact .ambiguous rfl rfl id.json_showsMember rfl

theorem NotTransplant.json_showsReason (reason : NotTransplant) :
    reason.json.ShowsReason reason := by
  cases reason with
  | missingMarker marker => exact .missing rfl rfl
  | missingValue | notLiteral | notClass => exact .invalid nofun rfl rfl

theorem Diagnostic.json_showsDiagnostic (diagnostic : Diagnostic) :
    diagnostic.json.ShowsDiagnostic diagnostic := by
  cases diagnostic with
  | skipped reason => exact .skipped rfl rfl reason.json_showsReason
  | failed error => exact .failed rfl rfl
  | unmatched mismatches =>
    exact .unmatched rfl rfl (forall₂_map_left Mismatch.json_showsMismatch mismatches)
  | fused members added overwritten => exact .fused rfl rfl rfl rfl
  | encoded recipient size => exact .encoded rfl rfl rfl

theorem AttemptReport.json_showsAttempt (report : AttemptReport) :
    report.json.ShowsAttempt report where
  donor := rfl
  donorClass := by
    rw [json]
    cases report.donor <;> rfl
  recipient := by
    rw [json]
    cases report.recipient <;> rfl
  states := by
    refine ⟨report.states.map AttemptState.name, ?_, ?_⟩
    · rw [List.map_map]
      rfl
    · rw [List.map_map]
      exact List.map_congr_left fun state _ => state.ofName?_name
  diagnostics := ⟨_, rfl, forall₂_map_left Diagnostic.json_showsDiagnostic report.diagnostics⟩

theorem AttemptReport.HasLine.of_encoded {report : AttemptReport} {name : ClassName}
    {bytes : Bytes} {fusion : FusionReport} {members size : Nat}
    (houtcome : report.outcome = .encoded name bytes fusion)
    (hdiagnostics : report.diagnostics
      = [.fused members fusion.addedKinds fusion.overwrittenKinds, .encoded name size]) :
    report.HasLine report.line := by
  have hfused : .fused members fusion.addedKinds fusion.overwrittenKinds ∈ report.diagnostics := by
    rw [hdiagnostics]
    exact List.mem_cons_self
  have hcount : fusion.addedKinds.length = fusion.added.length := List.length_map _
  rw [line, houtcome]
  by_cases hkept : fusion.overwritten = []
  · convert AttemptReport.HasLine.encoded houtcome hfused hkept using 1
    simp [Diagnostic.text, hdiagnostics, hcount, FusionReport.overwrittenKinds, hkept,
      String.append_assoc, String.join]
  · have hgap (rest : String) :
        " added" ++ (", overwrote " ++ rest) = " added, overwrote " ++ rest := by
      rw [← String.append_assoc]
      rfl
    convert AttemptReport.HasLine.overwriting houtcome hfused hkept using 1
    simp [Diagnostic.text, hdiagnostics, hcount, FusionReport.overwrittenKinds, hkept,
      String.append_assoc, String.join, hgap]

/-! ## Reports of batches -/

/-- An attempt succeeds, is passed over or fails. -/
theorem AttemptReport.counted_once (report : AttemptReport) :
    (if report.encoded?.isSome then 1 else 0) + (if report.isSkipped then 1 else 0)
      + (if report.isFailed then 1 else 0) = 1 := by
  unfold encoded? isSkipped isFailed
  cases report.outcome <;> rfl

theorem BatchSummary.total_of (reports : List AttemptReport) :
    (of reports).encoded + (of reports).skipped + (of reports).failed = reports.length := by
  induction reports with
  | nil => rfl
  | cons report reports ih =>
    have hone := report.counted_once
    simp only [of, List.countP_cons, List.length_cons] at ih ⊢
    omega

/-- Where the states of each report are those of its outcome, the counts are right. -/
theorem BatchSummary.counts_of {reports : List AttemptReport}
    (h : ∀ report ∈ reports, report.states = report.outcome.course) :
    (BatchSummary.of reports).Counts reports := by
  have hstate : ∀ report ∈ reports, report.state = report.outcome.state := by
    intro report hreport
    rw [AttemptReport.state, h report hreport, Outcome.course, List.getLastD_concat]
  refine ⟨List.length_filterMap_eq_countP.symm, ?_, ?_, ?_, total_of reports⟩
  · refine List.countP_congr fun report hreport => ?_
    rw [hstate report hreport, AttemptReport.isSkipped]
    cases report.outcome <;> simp [Outcome.state]
  · refine List.countP_congr fun report hreport => ?_
    rw [hstate report hreport, AttemptReport.isFailed]
    cases report.outcome <;> simp [Outcome.state]
  · rw [List.sum_eq_foldr, List.foldr_map]
    rfl

namespace Settings

variable {settings : Settings} {source : ClassName → Loaded} {donors : List Donor}
  {report : AttemptReport}

theorem exists_reportsAs_of_mem_runBatch (h : report ∈ settings.runBatch source donors) :
    ∃ donorBytes load, settings.ReportsAs report.label donorBytes load report := by
  rw [runBatch_eq_chain] at h
  obtain ⟨i, hi⟩ := List.mem_iff_getElem?.1 h
  obtain ⟨donor, load, -, rfl⟩ := exists_attempt_of_chain hi
  rw [label_attempt]
  exact ⟨donor.bytes, load, settings.reportsAs_attempt donor.label donor.bytes load⟩

/-- An attempt has the line that the text has for it. -/
theorem ReportsAs.hasLine {label : String} {donorBytes : Bytes} {load : ClassName → Loaded}
    (h : settings.ReportsAs label donorBytes load report) : report.HasLine report.line := by
  cases h with
  | malformed | unfused | unverified => exact .failed rfl
  | skipped => exact .skipped rfl
  | encoded tells =>
    obtain ⟨-, -, -, pairs, -, -, -, -, -, -, rfl⟩ := tells
    exact .of_encoded rfl rfl

end Settings

/-- The report of a batch shows its attempts, their counts and the number of classes that were
stored. -/
theorem Formats.shows_report (formats : Formats) (arguments : GraftArguments)
    (settings : Settings) (source : ClassName → Loaded) (donors : List Donor) (written : Nat) :
    formats.Shows arguments (settings.runBatch source donors) written
      (formats.report arguments (settings.runBatch source donors) written) := by
  generalize hreports : settings.runBatch source donors = reports
  have hcounts : (BatchSummary.of reports).Counts reports := by
    refine BatchSummary.counts_of fun report hreport => ?_
    rw [← hreports] at hreport
    obtain ⟨donorBytes, load, h⟩ := Settings.exists_reportsAs_of_mem_runBatch hreport
    exact h.states_eq
  rw [report]
  split
  · next hjson =>
    refine .json hjson ⟨rfl, rfl, ⟨_, _, rfl, ⟨rfl, rfl, rfl, rfl⟩, hcounts⟩, _, rfl, ?_⟩
    exact forall₂_map_left AttemptReport.json_showsAttempt reports
  · next hjson =>
    refine .text (Bool.eq_false_of_not_eq_true hjson)
      ⟨reports.map AttemptReport.line, _, ?_, hcounts, ?_⟩
    · rw [List.forall₂_map_right_iff, List.forall₂_same]
      intro report hreport
      rw [← hreports] at hreport
      obtain ⟨donorBytes, load, h⟩ := Settings.exists_reportsAs_of_mem_runBatch hreport
      exact h.hasLine
    · simp only [batchText, BatchSummary.text, String.append_assoc]

end AnnotationGraft
