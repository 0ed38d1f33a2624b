namespace PeerSession.Record

/-!
# Fields of a record

The names under which the fields of a record are reported, in the order in
which the newest layout stores them.
-/

/-- A field of a record. -/
inductive Field where
  | versionMarker
  | counter
  | localFingerprint
  | remoteFingerprint
  | version
  | identity
  | verified
  | prekeyRequired
  | negotiated
  | key
  deriving DecidableEq, Repr

/-- The name under which a field is reported. -/
def Field.name : Field → String
  | .versionMarker => "version marker"
  | .counter => "counter"
  | .localFingerprint => "local fingerprint"
  | .remoteFingerprint => "remote fingerprint"
  | .version => "current session version"
  | .identity => "identity key"
  | .verified => "verified session key"
  | .prekeyRequired => "prekey bundle required"
  | .negotiated => "negotiated session version"
  | .key => "session key"

end PeerSession.Record
