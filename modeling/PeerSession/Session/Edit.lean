import PeerSession.Session.Basic

namespace PeerSession

/-!
# Editing sessions

These are all the changes that a user of a session can make. None of them
changes the recipient, and none of them verifies a session: that is left to
reading a record which says so.
-/

/-- One change to a session. -/
inductive Edit where
  | incrementCounter
  | setId (id : SessionId)
  | setVersion (version : Version)
  | setNegotiated (version : Version)
  | setIdentity (identity : Option IdentityKey)
  | setPrekeyRequired (required : Bool)
  | setKey (key : SessionKey)
  | clearKey
  deriving DecidableEq

namespace Session

/-- The session after one change. -/
def edit (session : Session) : Edit → Session
  | .incrementCounter => { session with counter := session.counter + 1 }
  | .setId id => { session with id := id }
  | .setVersion version => { session with version := version }
  | .setNegotiated version => { session with negotiated := version }
  | .setIdentity identity => { session with identity := identity }
  | .setPrekeyRequired required => { session with prekeyRequired := required }
  | .setKey key => { session with key := some key }
  | .clearKey => { session with key := none }

/-- The session after several changes, in order. -/
def editAll (session : Session) (edits : List Edit) : Session :=
  edits.foldl edit session

/-- No change touches the recipient. -/
@[simp] theorem recipient_edit (session : Session) (change : Edit) :
    (session.edit change).recipient = session.recipient := by
  cases change <;> rfl

/-- No change touches whether a session is verified. -/
@[simp] theorem verified_edit (session : Session) (change : Edit) :
    (session.edit change).verified = session.verified := by
  cases change <;> rfl

end Session

end PeerSession
