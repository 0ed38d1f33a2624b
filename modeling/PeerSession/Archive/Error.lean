import PeerSession.Record.Error
import PeerSession.Recipient
import PeerSession.Storage.Error

namespace PeerSession.Archive

/-!
# Archive errors

Saving and deleting report errors with the recipient concerned. Loading reports
none: what stopped it is told along with the loaded session.
-/

/-- Why a session could not be saved or deleted. -/
inductive Error where
  | encode (recipient : RecipientId) (error : Record.Error)
  | save (recipient : RecipientId) (error : Storage.Error)
  | delete (recipient : RecipientId) (error : Storage.Error)
  deriving DecidableEq, Repr

namespace Error

/-- The text for an activity that failed for a recipient. -/
def failedTo
    (activity : String)
    (recipient : RecipientId)
    (cause : String) :
    String :=
  "Failed to " ++ activity ++ " session record for recipient " ++
    toString recipient.toNat ++ ": " ++ cause

/-- The text shown for an archive error. -/
def message : Error → String
  | .encode recipient error => failedTo "encode" recipient error.message
  | .save recipient error => failedTo "save" recipient error.text
  | .delete recipient error => failedTo "delete" recipient error.text

/-- The texts of the errors behind this one, nearest first. -/
def causes : Error → List String
  | .encode _ error => error.message :: error.causes
  | .save _ error => [error.text]
  | .delete _ error => [error.text]

end Error

end PeerSession.Archive
