import AnnotationGraft.Graft.Attempt
import AnnotationGraft.Graft.Grouping

/-!
# Batches

A batch runs an attempt for each donor, in order.  Donors of one recipient build on each other: each
is grafted onto what the latest successful one before it has written.

Donors of different recipients do not depend on each other, so a batch may also be taken apart into
one chain for each recipient; `Settings.runBatch` does so when the settings allow it, and puts the
reports back into the order of the donors.
-/

namespace AnnotationGraft

/-- A donor of a batch. -/
structure Donor where
  /-- What the donor is called in reports, such as its path. -/
  label : String
  bytes : Bytes
  deriving DecidableEq

/-- What a chain has written so far, the latest first. -/
abbrev Grafted := List (ClassName × Bytes)

/-- Loads a recipient: what was last written of it, or else what its source gives. -/
def Grafted.load (grafted : Grafted) (source : ClassName → Loaded) (recipient : ClassName) :
    Loaded :=
  match grafted.lookup recipient with
  | some bytes => .ok bytes
  | none => source recipient

/-- Notes what an attempt has written. -/
def Grafted.note (grafted : Grafted) (report : AttemptReport) : Grafted :=
  match report.encoded? with
  | some output => output :: grafted
  | none => grafted

namespace Settings

/-- Runs donors in order, after what was written before, until a report is a reason to stop. -/
def runChain (settings : Settings) (source : ClassName → Loaded) (stop : AttemptReport → Bool)
    (grafted : Grafted) : List Donor → List AttemptReport
  | [] => []
  | donor :: donors =>
    let report := settings.attempt donor.label donor.bytes (grafted.load source)
    if stop report then [report]
    else report :: settings.runChain source stop (grafted.note report) donors

/-- The recipient that a donor names, unless its attempt ends without one. -/
def recipientOfBytes? (settings : Settings) (donorBytes : Bytes) : Option ClassName :=
  match ClassFile.decode donorBytes with
  | .error _ => none
  | .ok donor => (settings.recipientOf donor).toOption

/-- Runs the donors at the given positions as a chain of their own, and tells for each report the
position it belongs to. -/
def runGroup (settings : Settings) (source : ClassName → Loaded) (donors : List Donor)
    (group : List Nat) : List (Nat × AttemptReport) :=
  group.zip (settings.runChain source (fun _ => false) []
    (group.filterMap fun position => donors[position]?))

/-- Runs donors of different recipients in chains of their own, in the order of the groups. -/
def runGrouped (settings : Settings) (source : ClassName → Loaded) (donors : List Donor) :
    List AttemptReport :=
  let groups := groupByRecipient (donors.map fun d => settings.recipientOfBytes? d.bytes)
  let indexed := groups.flatMap (settings.runGroup source donors)
  (indexed.mergeSort fun a b => a.1 ≤ b.1).map (·.2)

/-- Runs every donor of a batch; the reports are in the order of the donors. -/
def runBatch (settings : Settings) (source : ClassName → Loaded) (donors : List Donor) :
    List AttemptReport :=
  if settings.parallel then settings.runGrouped source donors
  else settings.runChain source (fun _ => false) [] donors

/-- Runs the donors of a batch one after another, up to and including the first whose report is a
reason to stop. -/
def runBatchUntil (settings : Settings) (source : ClassName → Loaded)
    (stop : AttemptReport → Bool) (donors : List Donor) : List AttemptReport :=
  settings.runChain source stop [] donors

end Settings

/-- The counts of a batch. -/
structure BatchSummary where
  encoded : Nat
  skipped : Nat
  failed : Nat
  /-- How many annotations replaced a different one, over all successful attempts. -/
  overwritten : Nat
  deriving DecidableEq, Repr

/-- How many annotations replaced a different one in a successful attempt. -/
def AttemptReport.overwrittenCount (report : AttemptReport) : Nat :=
  match report.outcome with
  | .encoded _ _ fusion => fusion.overwritten.length
  | _ => 0

/-- The counts of the reports of a batch. -/
def BatchSummary.of (reports : List AttemptReport) : BatchSummary where
  encoded := reports.countP fun r => r.encoded?.isSome
  skipped := reports.countP AttemptReport.isSkipped
  failed := reports.countP AttemptReport.isFailed
  overwritten := reports.foldr (fun r count => r.overwrittenCount + count) 0

/-- A recipient that could not be stored; the causes begin with the outermost. -/
structure EmissionError where
  recipient : ClassName
  causes : List String
  deriving DecidableEq

/-- What went wrong, and then why, outermost first. -/
def EmissionError.chain (error : EmissionError) : List String :=
  ("Failed to store rewritten " ++ error.recipient.sourceName) :: error.causes

/-- Hands what a batch has written to `accept`, in order, after `count` acceptances; stops at the
first one that is refused.  Gives the number of acceptances. -/
def emitFrom {m : Type → Type} [Monad m]
    (accept : ClassName → Bytes → m (Except (List String) Unit)) (count : Nat) :
    List (ClassName × Bytes) → m (Except EmissionError Nat)
  | [] => return .ok count
  | (recipient, bytes) :: outputs => do
    match ← accept recipient bytes with
    | .ok () => emitFrom accept (count + 1) outputs
    | .error causes => return .error ⟨recipient, causes⟩

/-- Hands what a batch has written to `accept`, in the order of the reports. -/
def emit {m : Type → Type} [Monad m] (accept : ClassName → Bytes → m (Except (List String) Unit))
    (reports : List AttemptReport) : m (Except EmissionError Nat) :=
  emitFrom accept 0 (reports.filterMap AttemptReport.encoded?)

end AnnotationGraft
