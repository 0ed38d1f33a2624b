import PeerSession.Key.Identity
import PeerSession.Record.Field
import PeerSession.Wire.Error

namespace PeerSession.Record

/-!
# Record errors

A record is rejected when a field does not fit or when the sealer refuses the
session key. A stored identity key that does not parse is worse: it was written
by the library itself, so reading crashes instead of reporting an error.
-/

/-- Why a record could not be read or written. -/
inductive Error where
  | wire (error : Wire.Error)
  | key (error : Key.Error)
  deriving DecidableEq, Repr

namespace Error

/-- The text shown for a record error. -/
def message : Error → String
  | .wire error => error.message
  | .key error => "Session key error: " ++ error.message

/-- The texts of the errors behind this one, nearest first. -/
def causes : Error → List String
  | .wire _ => []
  | .key error => [error.message]

/-- The octets end inside this field. -/
def truncated (field : Field) : Error :=
  .wire (.truncated field.name)

/-- Different fields are reported differently. -/
@[simp] theorem truncated_inj (left right : Field) :
    truncated left = truncated right ↔ left = right := by
  cases left <;> cases right <;> simp [truncated, Field.name]

end Error

/-- How reading a record can fail. -/
inductive Failure where
  | rejected (error : Error)
  | crashed (fault : IdentityKey.Fault)
  deriving DecidableEq, Repr

/-- The text of the crash at a stored identity key that does not parse. -/
def crashMessage (fault : IdentityKey.Fault) : String :=
  "stored identity key failed to parse: " ++ fault.toError.message

end PeerSession.Record
