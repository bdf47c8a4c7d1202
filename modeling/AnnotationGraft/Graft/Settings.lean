import AnnotationGraft.Annotations.Wire
import AnnotationGraft.Text.Quoted

/-!
# Settings

The two annotations that mark a transplant, and how a batch is run.  The recipient marker names the
class to graft onto; the fuse marker stands on each member whose annotations are to be fused.
Settings are usable when both markers are object descriptors and they differ.
-/

namespace AnnotationGraft

/-- The settings of grafting. -/
structure Settings where
  recipientMarker : String := "Lnet/onedaybeard/graftt/Graft$Recipient;"
  fuseMarker : String := "Lnet/onedaybeard/graftt/Graft$Fuse;"
  /-- Whether the donors of different recipients are taken apart and run group by group. -/
  parallel : Bool := true
  /-- Whether every grafted class is read again and compared before it is reported. -/
  verifyOutput : Bool := true
  deriving DecidableEq, Repr

/-- Why settings cannot be used. -/
inductive SettingsFault where
  | recipientMarkerForm (marker : String)
  | fuseMarkerForm (marker : String)
  | equalMarkers
  deriving DecidableEq, Repr

namespace SettingsFault

/-- The report of a marker that is not an object descriptor. -/
private def formMessage (key marker : String) : String :=
  key ++ " must be an object type descriptor like Lcom/example/Marker; (got "
    ++ Text.quoted marker ++ ")"

/-- The fault in words. -/
def message : SettingsFault → String
  | recipientMarkerForm marker => formMessage "recipient_marker" marker
  | fuseMarkerForm marker => formMessage "fuse_marker" marker
  | equalMarkers => "recipient_marker and fuse_marker must differ"

end SettingsFault

namespace Settings

/-- Checks that settings can be used. -/
def validate (settings : Settings) : Except SettingsFault Unit :=
  if !Descriptor.isObjectType settings.recipientMarker then
    .error (.recipientMarkerForm settings.recipientMarker)
  else if !Descriptor.isObjectType settings.fuseMarker then
    .error (.fuseMarkerForm settings.fuseMarker)
  else if settings.recipientMarker = settings.fuseMarker then .error .equalMarkers
  else .ok ()

end Settings

end AnnotationGraft
