import AnnotationGraft.Command.Arguments
import AnnotationGraft.Text.Segments

/-!
# How a run of the command ends

A run prints its report, or fails for a reason that it tells, or was asked for something that it
cannot understand.  Each of these has an exit code of its own; a report of a batch in which a donor
failed has the code of a failure too.
-/

namespace AnnotationGraft

/-- How a run of the command ends. -/
inductive Ending where
  /-- It prints a report, which may tell of donors that failed. -/
  | reported (output : String) (hasFailures : Bool)
  /-- It fails; the causes begin with the outermost. -/
  | failed (causes : List String)
  /-- Its arguments are at fault. -/
  | misused (error : UsageError)
  deriving DecidableEq, Repr

/-- A cause after a heading: its first line follows the heading, each other one an indent. -/
def indentedCause (heading indent cause : String) : String :=
  heading ++ (String.ofList ['\n'] ++ indent).intercalate
    ((Text.segments '\n' cause.toList).map String.ofList)

/-- A cause with its number. -/
def numberedCause (number : Nat) (cause : String) : String :=
  let digits := toString number
  indentedCause ("".pushn ' ' (5 - digits.length) ++ digits ++ ": ") "       " cause

/-- What is printed of a failure.  A single cause stands without a number. -/
def failureText : List String → String
  | [] => "Error: "
  | [outermost] => "Error: " ++ outermost
  | [outermost, cause] =>
    "Error: " ++ outermost ++ "\n\nCaused by:\n" ++ indentedCause "    " "    " cause
  | outermost :: causes =>
    "Error: " ++ outermost ++ "\n\nCaused by:\n"
      ++ "\n".intercalate (causes.zipIdx.map fun (cause, number) => numberedCause number cause)

namespace Ending

/-- The exit code. -/
def code : Ending → Nat
  | reported _ hasFailures => if hasFailures then 1 else 0
  | failed _ => 1
  | misused _ => 2

/-- What is printed to the output. -/
def output : Ending → String
  | reported output _ => output
  | failed _ | misused _ => ""

/-- What is printed of a failure, without a line feed at its end. -/
def failure? : Ending → Option String
  | failed causes => some (failureText causes)
  | reported _ _ | misused _ => none

end Ending

end AnnotationGraft
