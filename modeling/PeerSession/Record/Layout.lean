import PeerSession.Record.Field
import PeerSession.Record.Format
import PeerSession.Session.Basic
import PeerSession.Wire.Value

namespace PeerSession.Record

/-!
# Record layouts

A layout lists the stored values of a record in front of the session key, one
list of fields per format. Truth values are kept as the words that were stored,
and an identity key as its blob, so every record that was ever written has one.
-/

/-- The stored values of a record, by format. -/
inductive Layout where
  | unmarked
      (counter : UInt32)
      (id : SessionId)
  | v1
      (counter : UInt32)
      (id : SessionId)
      (version : Version)
  | v2
      (counter : UInt32)
      (id : SessionId)
      (version : Version)
      (identity : Bytes)
      (verified : UInt32)
  | v3
      (counter : UInt32)
      (id : SessionId)
      (version : Version)
      (identity : Bytes)
      (verified : UInt32)
      (prekeyRequired : UInt32)
      (negotiated : Version)
  deriving DecidableEq

namespace Layout

/-- The format that a layout belongs to. -/
def format : Layout → Format
  | .unmarked counter _ => .unmarked counter
  | .v1 .. => .v1
  | .v2 .. => .v2
  | .v3 .. => .v3

/-- The fields of a session id. -/
def idFields (id : SessionId) : List (Field × Wire.Value) :=
  [ (.localFingerprint, .blob id.localFingerprint),
    (.remoteFingerprint, .blob id.remoteFingerprint) ]

/-- The fields of a record in the order in which they are stored. -/
def fields : Layout → List (Field × Wire.Value)
  | .unmarked counter id =>
      (.versionMarker, .word counter) :: idFields id
  | .v1 counter id version =>
      [ (.versionMarker, .word Format.markerV1),
        (.counter, .word counter) ] ++
      idFields id ++
      [ (.version, .word version.raw) ]
  | .v2 counter id version identity verified =>
      [ (.versionMarker, .word Format.markerV2),
        (.counter, .word counter) ] ++
      idFields id ++
      [ (.version, .word version.raw),
        (.identity, .blob identity),
        (.verified, .word verified) ]
  | .v3 counter id version identity verified prekeyRequired negotiated =>
      [ (.versionMarker, .word Format.markerV3),
        (.counter, .word counter) ] ++
      idFields id ++
      [ (.version, .word version.raw),
        (.identity, .blob identity),
        (.verified, .word verified),
        (.prekeyRequired, .word prekeyRequired),
        (.negotiated, .word negotiated.raw) ]

/-- The stored values in order. -/
def values (layout : Layout) : List Wire.Value :=
  layout.fields.map Prod.snd

/-- The octets of a record up to the session key, if its blobs are not too long. -/
def encode (layout : Layout) : Except Wire.Error Bytes :=
  Wire.encode layout.values

end Layout

end PeerSession.Record
