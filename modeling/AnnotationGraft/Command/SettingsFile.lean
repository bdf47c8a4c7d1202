import AnnotationGraft.Command.SettingsFile.Statement
import AnnotationGraft.Graft.Settings

/-!
# Settings files

The settings are read from the keys of a settings file that are outside of every section.  A key
that names no setting is passed over, and so is every section; but the file has to be well formed
throughout, and no key may be given twice.
-/

namespace AnnotationGraft

/-- The document that a text is, if it is well formed.  A byte order mark may stand before it. -/
def SettingsFile.Document.ofText? (source : String) : Option Document :=
  let cs := match source.toList with
    | '\uFEFF' :: cs => cs
    | cs => cs
  Document.addAll cs.length {} cs

/-- The settings that a settings file gives, if it is well formed and each setting is of the right
kind.  A setting that it does not give has its default. -/
def Settings.ofFile? (source : String) : Option Settings := do
  let document ← SettingsFile.Document.ofText? source
  let default : Settings := {}
  return {
    recipientMarker := ← document.text? "recipient_marker" default.recipientMarker
    fuseMarker := ← document.text? "fuse_marker" default.fuseMarker
    parallel := ← document.flag? "parallel" default.parallel
    verifyOutput := ← document.flag? "verify_output" default.verifyOutput }

end AnnotationGraft
