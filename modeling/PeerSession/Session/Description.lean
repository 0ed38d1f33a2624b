import PeerSession.Session.Basic

namespace PeerSession.Session

/-!
# Sessions in diagnostics

A session is shown on one line with its stored words; octets are decimal lists
and keys show nothing secret.
-/

/-- A field that may be absent. -/
def describeOption : Option String → String
  | none => "None"
  | some text => "Some(" ++ text ++ ")"

/-- Octets as a bracketed list of decimal numbers. -/
def describeBytes (bytes : Bytes) : String :=
  "[" ++ ", ".intercalate (bytes.map fun octet => toString octet.toNat) ++ "]"

/-- A truth value. -/
def describeBool (value : Bool) : String :=
  if value then "true" else "false"

/-- The names and texts of the fields, in the order in which they are shown. -/
def describedFields (session : Session) : List (String × String) :=
  [ ("recipient_id", toString session.recipient.toNat),
    ("counter", toString session.counter.toNat),
    ("local_fingerprint", describeBytes session.id.localFingerprint),
    ("remote_fingerprint", describeBytes session.id.remoteFingerprint),
    ("current_session_version", toString session.version.raw.toNat),
    ("negotiated_session_version", toString session.negotiated.raw.toNat),
    ("identity_key",
      describeOption (session.identity.map IdentityKey.description)),
    ("session_key",
      describeOption (session.key.map SessionKey.description)),
    ("verified_session_key", describeBool session.verified),
    ("prekey_bundle_required", describeBool session.prekeyRequired) ]

/-- A session as it is shown in diagnostics. -/
def description (session : Session) : String :=
  "SessionState \x7b " ++
    ", ".intercalate
      (session.describedFields.map fun field =>
        field.1 ++ ": " ++ field.2) ++
    " \x7d"

end PeerSession.Session
