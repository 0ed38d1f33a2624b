import PeerSession.Key.Sealer
import PeerSession.Record.Error
import PeerSession.Record.Layout

namespace PeerSession.Record

/-!
# Writing records

A session is always written in the newest format: the stored values first, then
the sealed session key as a blob, if there is a key.
-/

/-- The blob that stands for an identity key, empty for none. -/
def identityBlob : Option IdentityKey → Bytes
  | none => []
  | some key => key.toBytes

/-- The values that are stored for a session. -/
def layoutOf (session : Session) : Layout :=
  .v3
    session.counter
    session.id
    session.version
    (identityBlob session.identity)
    (Wire.flagWord session.verified)
    (Wire.flagWord session.prekeyRequired)
    session.negotiated

/-- The octets of the session key behind the stored values. -/
def encodeKey
    (sealer : Sealer)
    (master : MasterSecret) :
    Option SessionKey →
    Except Error Bytes
  | none => .ok []
  | some key =>
      match sealer.enclose key master with
      | .error error => .error (.key error)
      | .ok blob => (Wire.Value.blob blob).encode.mapError .wire

/-- Write a session as a record. -/
def encode
    (sealer : Sealer)
    (master : MasterSecret)
    (session : Session) :
    Except Error Bytes :=
  match (layoutOf session).encode with
  | .error error => .error (.wire error)
  | .ok stored =>
      match encodeKey sealer master session.key with
      | .error error => .error error
      | .ok key => .ok (stored ++ key)

end PeerSession.Record
