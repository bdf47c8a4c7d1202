import AnnotationGraft.Command.BatchReport
import AnnotationGraft.Command.ClassTree
import AnnotationGraft.Command.Ending
import AnnotationGraft.Command.Formats
import AnnotationGraft.Command.Inspection

/-!
# Running the command

The command on an arbitrary file system, with arbitrary formats.  `graft` runs a batch over the
class files of a directory and stores what it grafted, in place or in another directory; `inspect`
prints one class.  A run that fails prints nothing but the reason.
-/

namespace AnnotationGraft

/-- The result of a file operation, or its failure under a description of what was tried. -/
def describeFailure {α : Type} (description : String) (result : Except FileError α) :
    Except (List String) α :=
  match result with
  | .ok a => .ok a
  | .error e => .error [description, e.message]

/-- The text that bytes are in UTF-8. -/
def decodeUtf8? (bytes : Bytes) : Option String := String.fromUTF8? ⟨bytes.toArray⟩

/-- The settings in the content of a settings file. -/
def Formats.settings (formats : Formats) (path : String) (content : Bytes) :
    Except (List String) Settings :=
  match decodeUtf8? content with
  | none => .error ["Failed to read config " ++ path, "stream did not contain valid UTF-8"]
  | some source =>
    match formats.settingsFile source with
    | none => .error ["Invalid config " ++ path]
    | some settings => .ok settings

/-- The report of a batch in the form that was asked for. -/
def Formats.report (formats : Formats) (arguments : GraftArguments) (reports : List AttemptReport)
    (written : Nat) : String :=
  if arguments.json then formats.json (batchJson reports written arguments.dryRun) ++ "\n"
  else batchText reports written arguments.dryRun

/-- The view of a class in the form that was asked for. -/
def Formats.view (formats : Formats) (arguments : InspectArguments) (view : ClassView) : String :=
  if arguments.json then formats.json view.json ++ "\n" else view.text

/-- Checks that settings can be used. -/
def Settings.check (settings : Settings) : Except (List String) Unit :=
  match settings.validate with
  | .ok () => .ok ()
  | .error fault =>
    .error ["Invalid configuration", "Invalid configuration: " ++ fault.message]

variable {m : Type → Type} [Monad m]

/-- Loads the settings file, if one is given. -/
def loadSettings (formats : Formats) (fileSystem : FileSystem m) :
    Option String → ExceptT (List String) m Settings
  | none => return {}
  | some path => do
    let content ← describeFailure ("Failed to read config " ++ path) (← fileSystem.read path)
    formats.settings path content

/-- Stores what a batch has written, and tells how many classes that are. -/
def ClassTree.storeAll (tree : ClassTree m) (reports : List AttemptReport) :
    ExceptT (List String) m Nat :=
  ExceptT.mk do
    match ← emit tree.store reports with
    | .ok count => return .ok count
    | .error e => return .error e.chain

/-- Grafts every transplant of a directory, and prints the report. -/
def runGraft (formats : Formats) (fileSystem : FileSystem m) (settings : Settings)
    (arguments : GraftArguments) : ExceptT (List String) m Ending := do
  let root ← describeFailure ("Invalid classes directory " ++ arguments.directory)
    (← fileSystem.canonical arguments.directory)
  let settings :=
    if arguments.sequential then { settings with parallel := false } else settings
  settings.check
  let tree : ClassTree m := ⟨fileSystem, root⟩
  let donors ← tree.donors
  let source ← tree.recipients settings donors
  let reports := settings.runBatch source donors
  let written ←
    if arguments.dryRun then pure 0
    else ClassTree.storeAll ⟨fileSystem, arguments.out.getD root⟩ reports
  return .reported (formats.report arguments reports written)
    (reports.any AttemptReport.isFailed)

/-- Prints one class. -/
def runInspect (formats : Formats) (fileSystem : FileSystem m) (settings : Settings)
    (arguments : InspectArguments) : ExceptT (List String) m Ending := do
  let content ← describeFailure ("Failed to read " ++ arguments.file)
    (← fileSystem.read arguments.file)
  match ClassFile.decode content with
  | .error e => throw ["Failed to decode " ++ arguments.file, e.message]
  | .ok c => return .reported (formats.view arguments (settings.inspect c)) false

/-- Runs a subcommand with the settings in a settings file. -/
def runSubcommand (formats : Formats) (fileSystem : FileSystem m) (config : Option String)
    (subcommand : Subcommand) : ExceptT (List String) m Ending := do
  let settings ← loadSettings formats fileSystem config
  match subcommand with
  | .graft arguments => runGraft formats fileSystem settings arguments
  | .inspect arguments => runInspect formats fileSystem settings arguments

/-- What `--version` prints. -/
def versionText : String := "graftt 0.1.1\n"

/-- What `--help` prints. -/
def helpText : String :=
  "Fuse annotations from transplant classes onto compiled classes\n\n"
    ++ "Usage: graftt [OPTIONS] <COMMAND>\n\n"
    ++ "Commands:\n"
    ++ "  graft    Apply every transplant found in a classes directory\n"
    ++ "  inspect  Show the members and annotations of one class file\n"

/-- Runs the command with the given formats. -/
def runCommandWith (formats : Formats) (fileSystem : FileSystem m) (arguments : List String) :
    m Ending := do
  match formats.commandLine arguments with
  | .error e => return .misused e
  | .ok .version => return .reported versionText false
  | .ok .help => return .reported helpText false
  | .ok (.run config subcommand) =>
    match ← (runSubcommand formats fileSystem config subcommand).run with
    | .ok ending => return ending
    | .error causes => return .failed causes

/-- Runs the command. -/
def runCommand (fileSystem : FileSystem m) (arguments : List String) : m Ending :=
  runCommandWith .standard fileSystem arguments

end AnnotationGraft
