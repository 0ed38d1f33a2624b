import PeerSession.Key.Identity
import PeerSession.Key.Session
import PeerSession.Recipient
import PeerSession.Session.Version

namespace PeerSession

/-!
# Sessions

A session is the state kept for one recipient. The two fingerprints of its
session id belong together, so they are one value. Its key is handed out only
for exactly the key identifiers that it was derived for.
-/

/-- The two fingerprints that identify a session. -/
structure SessionId where
  localFingerprint : Bytes
  remoteFingerprint : Bytes
  deriving DecidableEq, Repr

namespace SessionId

/-- The session id before any is known. -/
def blank : SessionId where
  localFingerprint := []
  remoteFingerprint := []

/-- Whether both fingerprints are known; an empty one counts as unknown. -/
def isComplete (id : SessionId) : Bool :=
  !id.localFingerprint.isEmpty && !id.remoteFingerprint.isEmpty

end SessionId

/-- The state of the session with one recipient. -/
@[ext] structure Session where
  recipient : RecipientId
  counter : UInt32
  id : SessionId
  version : Version
  negotiated : Version
  identity : Option IdentityKey
  key : Option SessionKey
  verified : Bool
  prekeyRequired : Bool
  deriving DecidableEq

namespace Session

/-- The session with a recipient of whom nothing is known. -/
def fresh (recipient : RecipientId) : Session where
  recipient := recipient
  counter := 0
  id := .blank
  version := .unset
  negotiated := .unset
  identity := none
  key := none
  verified := false
  prekeyRequired := false

/-- The session key for exactly these key identifiers. -/
def keyFor?
    (session : Session)
    (ids : KeyIds) :
    Option SessionKey :=
  session.key.filter fun key => key.ids = ids

end Session

end PeerSession
