import AnnotationGraft.Descriptor.SourceForm
import AnnotationGraft.Graft.Batch
import AnnotationGraft.Text.Json

/-!
# Reports of a batch

A batch can be reported as text, where donors that were passed over appear in the counts only, or as
JSON, which has every state and diagnostic of every attempt.
-/

namespace AnnotationGraft

namespace Diagnostic

/-- What the text report says of a diagnostic: how many members were fused, and what was
overwritten. -/
def text : Diagnostic → String
  | fused members added overwritten =>
    " (" ++ toString members ++ " member(s), " ++ toString added.length ++ " added"
      ++ (if overwritten.isEmpty then ""
        else ", overwrote " ++ ", ".intercalate (overwritten.map Descriptor.sourceName))
      ++ ")"
  | _ => ""

end Diagnostic

/-- The line of an attempt in the text report. -/
def AttemptReport.line (report : AttemptReport) : String :=
  match report.outcome with
  | .encoded recipient _ _ =>
    "ok    " ++ report.label ++ " -> " ++ recipient.sourceName
      ++ String.join (report.diagnostics.map Diagnostic.text) ++ "\n"
  | .failed error => "FAIL  " ++ report.label ++ ": " ++ error.message ++ "\n"
  | .skipped _ => ""

/-- The counts of a batch as text. -/
def BatchSummary.text (summary : BatchSummary) : String :=
  toString summary.encoded ++ " encoded, " ++ toString summary.skipped ++ " skipped, "
    ++ toString summary.failed ++ " failed, " ++ toString summary.overwritten
    ++ " annotation(s) overwritten"

/-- The text report of a batch of which `written` classes were stored. -/
def batchText (reports : List AttemptReport) (written : Nat) (dryRun : Bool) : String :=
  String.join (reports.map AttemptReport.line) ++ (BatchSummary.of reports).text
    ++ (if dryRun then "; dry run, nothing written\n"
      else "; " ++ toString written ++ " class file(s) written\n")

/-! ## JSON -/

/-- The identity of a member as JSON. -/
def MemberId.json (id : MemberId) : Json :=
  .object [("kind", .string id.kind.word), ("name", .string id.name),
    ("descriptor", .string id.descriptor)]

/-- A mismatch as JSON. -/
def Mismatch.json : Mismatch → Json
  | unmatched m => .object [("mismatch", .string "unmatched"), ("member", m.json)]
  | ambiguous m candidates =>
    .object [("mismatch", .string "ambiguous"), ("member", m.json),
      ("candidates", .number candidates)]

/-- The reason for passing over a class, as JSON. -/
def NotTransplant.json (reason : NotTransplant) : Json :=
  let kind := match reason with
    | missingMarker _ => "missing_recipient_marker"
    | _ => "invalid_recipient_value"
  .object [("reason", .string kind), ("detail", .string reason.detail)]

/-- A diagnostic as JSON. -/
def Diagnostic.json : Diagnostic → Json
  | skipped reason => .object [("event", .string "skipped"), ("reason", reason.json)]
  | failed error => .object [("event", .string "failed"), ("error", .string error.message)]
  | unmatched mismatches =>
    .object [("event", .string "unmatched"), ("members", .array (mismatches.map Mismatch.json))]
  | fused members added overwritten =>
    .object [("event", .string "fused"), ("fused_members", .number members),
      ("added", .array (added.map .string)), ("overwritten", .array (overwritten.map .string))]
  | encoded recipient size =>
    .object [("event", .string "encoded"), ("recipient", .string recipient.internal),
      ("bytes", .number size)]

/-- An attempt as JSON. -/
def AttemptReport.json (report : AttemptReport) : Json :=
  .object [("donor", .string report.label),
    ("donor_class", .ofOption (report.donor.map ClassName.internal)),
    ("recipient", .ofOption (report.recipient.map ClassName.internal)),
    ("states", .array (report.states.map fun s => .string s.name)),
    ("diagnostics", .array (report.diagnostics.map Diagnostic.json))]

/-- The counts of a batch as JSON. -/
def BatchSummary.json (summary : BatchSummary) : Json :=
  .object [("encoded", .number summary.encoded), ("skipped", .number summary.skipped),
    ("failed", .number summary.failed), ("overwritten", .number summary.overwritten)]

/-- The JSON report of a batch of which `written` classes were stored. -/
def batchJson (reports : List AttemptReport) (written : Nat) (dryRun : Bool) : Json :=
  .object [("dry_run", .bool dryRun), ("written", .number written),
    ("summary", (BatchSummary.of reports).json),
    ("attempts", .array (reports.map AttemptReport.json))]

end AnnotationGraft
