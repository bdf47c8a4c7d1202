import AnnotationGraft.ClassFile.Decode
import AnnotationGraft.ClassFile.Encode
import AnnotationGraft.Graft.GraftError

/-!
# Attempts

An attempt takes one donor from its bytes to the bytes of the grafted recipient.  It passes
through states, and its report tells which, what happened on the way, and how it ended.

An attempt has two halves.  `Settings.prepare` reads the donor and finds out what it asks for; it
ends the attempt or leaves an `Awaiting`, which needs the recipient's bytes.  `Awaiting.complete`
does the rest.  So a recipient is loaded once, and only for an attempt that has resolved.
-/

namespace AnnotationGraft

/-- How far an attempt has come. -/
inductive AttemptState where
  | pending
  | resolved
  | matched
  | fused
  | encoded
  | skipped
  | failed
  deriving DecidableEq, Repr

namespace AttemptState

/-- Every state, from the first on. -/
def all : List AttemptState := [pending, resolved, matched, fused, encoded, skipped, failed]

/-- The name of the state in reports. -/
def name : AttemptState → String
  | pending => "pending"
  | resolved => "resolved"
  | matched => "matched"
  | fused => "fused"
  | encoded => "encoded"
  | skipped => "skipped"
  | failed => "failed"

/-- Whether an attempt ends in the state. -/
def isTerminal : AttemptState → Bool
  | encoded | skipped | failed => true
  | pending | resolved | matched | fused => false

/-- Whether an attempt may go from one state to another. -/
def canAdvanceTo : AttemptState → AttemptState → Bool
  | pending, resolved | pending, skipped | pending, failed => true
  | resolved, matched | resolved, failed => true
  | matched, fused | matched, failed => true
  | fused, encoded | fused, failed => true
  | _, _ => false

end AttemptState

/-- Something that happened in the course of an attempt. -/
inductive Diagnostic where
  | skipped (reason : NotTransplant)
  | failed (error : GraftError)
  | unmatched (mismatches : List Mismatch)
  | fused (members : Nat) (added overwritten : List String)
  | encoded (recipient : ClassName) (size : Nat)
  deriving DecidableEq

/-- How an attempt ended. -/
inductive Outcome where
  | encoded (recipient : ClassName) (bytes : Bytes) (fusion : FusionReport)
  | skipped (reason : NotTransplant)
  | failed (error : GraftError)
  deriving DecidableEq

/-- The report of one attempt. -/
structure AttemptReport where
  /-- What the donor is called in reports. -/
  label : String
  donor : Option ClassName
  recipient : Option ClassName
  states : List AttemptState
  diagnostics : List Diagnostic
  outcome : Outcome
  deriving DecidableEq

namespace AttemptReport

/-- The state in which the attempt ended. -/
def state (report : AttemptReport) : AttemptState := report.states.getLastD .pending

/-- Whether the attempt failed. -/
def isFailed (report : AttemptReport) : Bool :=
  match report.outcome with
  | .failed _ => true
  | _ => false

/-- Whether the donor was passed over. -/
def isSkipped (report : AttemptReport) : Bool :=
  match report.outcome with
  | .skipped _ => true
  | _ => false

/-- The recipient and its new bytes, if the attempt succeeded. -/
def encoded? (report : AttemptReport) : Option (ClassName × Bytes) :=
  match report.outcome with
  | .encoded recipient bytes _ => some (recipient, bytes)
  | _ => none

end AttemptReport

/-- The diagnostic of a failure: mismatches are listed, other errors are told. -/
def GraftError.diagnostic : GraftError → Diagnostic
  | .unmatchedMembers mismatches => .unmatched mismatches
  | error => .failed error

/-- What loading a recipient gives: its bytes, or the causes of the failure, outermost first. -/
abbrev Loaded := Except (List String) Bytes

/-- An attempt that has resolved to a recipient and waits for its bytes. -/
structure Awaiting where
  label : String
  donor : ClassFile
  request : GraftRequest

namespace ClassFile

/-- Compares the members of a class with those read back, as far as fusion may not change them. -/
def verifyMembers : List Member → List Member → Except VerificationFault Unit
  | before :: befores, after :: afters =>
    if before.id ≠ after.id ∨ before.accessFlags ≠ after.accessFlags then
      .error (.memberChanged before.id after.id)
    else if before.attributes.verbatim ≠ after.attributes.verbatim then
      .error (.memberAttributes before.id)
    else verifyMembers befores afters
  | _, _ => .ok ()

/-- Reads what was written of a class and compares it with the class, as far as fusion may not
change it. -/
def verifyGrafted (before : ClassFile) (bytes : Bytes) : Except VerificationFault Unit := do
  match decode bytes with
  | .error e => throw (.unreadable e)
  | .ok grafted =>
    if grafted.name ≠ before.name ∨ grafted.superName ≠ before.superName then
      throw .identityChanged
    if grafted.members.length ≠ before.members.length then
      throw (.memberCount before.members.length grafted.members.length)
    verifyMembers before.members grafted.members
    if before.attributes.verbatim ≠ grafted.attributes.verbatim then throw .classAttributes

end ClassFile

namespace Settings

/-- Grafts a class in memory onto another one.  Nothing is changed unless every requested member
has its counterpart. -/
def fuseClasses (settings : Settings) (donor recipient : ClassFile) :
    Except GraftError (ClassFile × FusionReport) :=
  match settings.request donor with
  | .error reason => .error (.notTransplant reason)
  | .ok request =>
    if request.recipient ≠ recipient.name then
      .error (.recipientMismatch request.recipient recipient.name)
    else
      match recipient.matchAll request.members with
      | .error mismatches => .error (.unmatchedMembers mismatches)
      | .ok pairs =>
        match (settings.applyFusion donor pairs request.classLevel).run recipient with
        | .error fault _ => .error (.fusionTarget fault)
        | .ok report grafted => .ok (grafted, report)

/-- The first half of an attempt: ends it, or leaves it waiting for its recipient. -/
def prepare (settings : Settings) (label : String) (donorBytes : Bytes) :
    Except AttemptReport Awaiting :=
  match ClassFile.decode donorBytes with
  | .error e =>
    let error := GraftError.malformedDonor e
    .error ⟨label, none, none, [.pending, .failed], [error.diagnostic], .failed error⟩
  | .ok donor =>
    match settings.request donor with
    | .error reason =>
      .error ⟨label, some donor.name, none, [.pending, .skipped], [.skipped reason],
        .skipped reason⟩
    | .ok request => .ok ⟨label, donor, request⟩

/-- Fuses the paired members and, if asked for, the class. -/
def fuseMatched (settings : Settings) (donor : ClassFile) (request : GraftRequest)
    (pairs : List Pairing) (recipient : ClassFile) :
    Except GraftError (ClassFile × FusionReport) :=
  match (settings.applyFusion donor pairs request.classLevel).run recipient with
  | .ok report grafted => .ok (grafted, report)
  | .error fault _ => .error (.fusionTarget fault)

end Settings

/-- Checks that a class is the one asked for, and pairs the requested members with its members. -/
def GraftRequest.matchOnto (request : GraftRequest) (recipient : ClassFile) :
    Except GraftError (List Pairing) := do
  if recipient.name ≠ request.recipient then
    throw (.recipientMismatch request.recipient recipient.name)
  match recipient.matchAll request.members with
  | .ok pairs => return pairs
  | .error mismatches => throw (.unmatchedMembers mismatches)

namespace Awaiting

/-- The report of an attempt that ends after the given states and diagnostics. -/
def report (attempt : Awaiting) (states : List AttemptState) (diagnostics : List Diagnostic)
    (outcome : Outcome) : AttemptReport :=
  ⟨attempt.label, some attempt.donor.name, some attempt.request.recipient, states, diagnostics,
    outcome⟩

/-- The report of an attempt that fails after the given states and diagnostics. -/
def failure (attempt : Awaiting) (states : List AttemptState) (diagnostics : List Diagnostic)
    (error : GraftError) : AttemptReport :=
  attempt.report (states ++ [.failed]) (diagnostics ++ [error.diagnostic]) (.failed error)

/-- Reads the recipient and pairs the requested members with its members. -/
def matchLoaded (attempt : Awaiting) (loaded : Loaded) :
    Except GraftError (ClassFile × List Pairing) := do
  match loaded with
  | .error causes => throw (.recipientUnavailable attempt.request.recipient causes)
  | .ok bytes =>
    match ClassFile.decode bytes with
    | .error e => throw (.malformedRecipient attempt.request.recipient e)
    | .ok recipient => return (recipient, ← attempt.request.matchOnto recipient)

/-- Fuses the paired members onto the recipient and writes the result. -/
def graftedBytes (attempt : Awaiting) (settings : Settings) (recipient : ClassFile)
    (pairs : List Pairing) : Except GraftError (FusionReport × Bytes) := do
  let (grafted, fusion) ← settings.fuseMatched attempt.donor attempt.request pairs recipient
  match grafted.encode with
  | .ok bytes => return (fusion, bytes)
  | .error e => throw (.encode e)

/-- Checks what was written, if the settings ask for it. -/
def verify (attempt : Awaiting) (settings : Settings) (recipient : ClassFile) (bytes : Bytes) :
    Except GraftError Unit :=
  if settings.verifyOutput then
    match recipient.verifyGrafted bytes with
    | .ok () => .ok ()
    | .error fault => .error (.verification attempt.request.recipient fault)
  else .ok ()

/-- The second half of an attempt. -/
def complete (attempt : Awaiting) (settings : Settings) (loaded : Loaded) : AttemptReport :=
  match attempt.matchLoaded loaded with
  | .error e => attempt.failure [.pending, .resolved] [] e
  | .ok (recipient, pairs) =>
    match attempt.graftedBytes settings recipient pairs with
    | .error e => attempt.failure [.pending, .resolved, .matched] [] e
    | .ok (fusion, bytes) =>
      let fused := Diagnostic.fused pairs.length fusion.addedKinds fusion.overwrittenKinds
      match attempt.verify settings recipient bytes with
      | .error e => attempt.failure [.pending, .resolved, .matched, .fused] [fused] e
      | .ok () =>
        attempt.report [.pending, .resolved, .matched, .fused, .encoded]
          [fused, .encoded attempt.request.recipient bytes.length]
          (.encoded attempt.request.recipient bytes fusion)

end Awaiting

namespace Settings

/-- Runs an attempt on a donor, given how to load a recipient. -/
def attempt (settings : Settings) (label : String) (donorBytes : Bytes)
    (load : ClassName → Loaded) : AttemptReport :=
  match settings.prepare label donorBytes with
  | .error report => report
  | .ok awaiting => awaiting.complete settings (load awaiting.request.recipient)

/-- Grafts one donor onto a recipient that is at hand. -/
def graft (settings : Settings) (donorBytes recipientBytes : Bytes) : AttemptReport :=
  settings.attempt "donor" donorBytes fun _ => .ok recipientBytes

end Settings

end AnnotationGraft
