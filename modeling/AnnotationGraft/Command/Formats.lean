import AnnotationGraft.Command.Arguments
import AnnotationGraft.Command.SettingsFile
import AnnotationGraft.Text.Json

/-!
# Formats

How a command line and a settings file are read, and how JSON is written, is not for the command to
say: it takes these three as they are given to it.  `Formats.standard` are the ones with which it is
run.
-/

namespace AnnotationGraft

/-- The formats of what the command reads and writes besides class files. -/
structure Formats where
  /-- What a command line asks for. -/
  commandLine : List String → Except UsageError Invocation
  /-- The settings that the text of a settings file gives, if it gives any. -/
  settingsFile : String → Option Settings
  /-- The text of a JSON document, without a line break at its end. -/
  json : Json → String

/-- The formats with which the command is run. -/
def Formats.standard : Formats where
  commandLine := Invocation.ofArguments
  settingsFile := Settings.ofFile?
  json := Json.pretty

end AnnotationGraft
