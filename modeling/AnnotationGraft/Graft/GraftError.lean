import AnnotationGraft.ClassFile.EncodeError
import AnnotationGraft.Graft.Fusion

/-!
# Why a transplant cannot be grafted

Each cause for which an attempt fails, with the message that reports it.
-/

namespace AnnotationGraft

/-- What differs between a recipient and what was written of it. -/
inductive VerificationFault where
  | unreadable (error : DecodeError)
  | identityChanged
  | memberCount (before after : Nat)
  | memberChanged (before after : MemberId)
  | memberAttributes (member : MemberId)
  | classAttributes
  deriving DecidableEq, Repr

/-- The fault in words. -/
def VerificationFault.message : VerificationFault → String
  | unreadable error => error.message
  | identityChanged => "class identity changed"
  | memberCount before after =>
    "member count changed from " ++ toString before ++ " to " ++ toString after
  | memberChanged before after => before.text ++ " became " ++ after.text
  | memberAttributes member => "attributes of " ++ member.text ++ " changed"
  | classAttributes => "class attributes changed"

/-- Why a transplant cannot be grafted. -/
inductive GraftError where
  | invalidSettings (fault : SettingsFault)
  | notTransplant (reason : NotTransplant)
  | malformedDonor (error : DecodeError)
  | malformedRecipient (recipient : ClassName) (error : DecodeError)
  /-- The recipient could not be loaded; the causes begin with the outermost. -/
  | recipientUnavailable (recipient : ClassName) (causes : List String)
  | recipientMismatch (expected found : ClassName)
  | unmatchedMembers (mismatches : List Mismatch)
  | fusionTarget (fault : FusionFault)
  | encode (error : EncodeError)
  | verification (recipient : ClassName) (fault : VerificationFault)
  deriving DecidableEq

/-- The cause in words. -/
def GraftError.message : GraftError → String
  | invalidSettings fault => "Invalid configuration: " ++ fault.message
  | notTransplant reason => "Not a transplant: " ++ reason.message
  | malformedDonor error => "Malformed donor: " ++ error.message
  | malformedRecipient recipient error =>
    "Malformed recipient " ++ recipient.sourceName ++ ": " ++ error.message
  | recipientUnavailable recipient causes =>
    "Recipient " ++ recipient.sourceName ++ " unavailable: " ++ ": ".intercalate causes
  | recipientMismatch expected found =>
    "Expected recipient " ++ expected.sourceName ++ " but the supplied class is "
      ++ found.sourceName
  | unmatchedMembers mismatches =>
    toString mismatches.length ++ " fuse request(s) without a target: "
      ++ ", ".intercalate (mismatches.map Mismatch.message)
  | fusionTarget fault => fault.message
  | encode error => "Encode error: " ++ error.message
  | verification recipient fault =>
    "Rewritten " ++ recipient.sourceName ++ " failed verification: " ++ fault.message

end AnnotationGraft
