import PeerSession.Key.Error
import PeerSession.Key.Session
import PeerSession.Wire.Schema

namespace PeerSession

/-!
# Sealing session keys

A sealer turns a session key into the blob that a record carries, and back. The
record never looks inside the blob, so encryption at rest is the sealer's own
concern. The plain sealer encrypts nothing; the others stand for sealers that
transform the blob or refuse to work.
-/

/-- How session keys become blobs under a master secret, and back. -/
structure Sealer where
  enclose : SessionKey → MasterSecret → Except Key.Error Bytes
  disclose : Bytes → MasterSecret → Except Key.Error SessionKey

/-- What a sealer encloses, it discloses as the same key. -/
def Sealer.Restores
    (sealer : Sealer)
    (master : MasterSecret)
    (key : SessionKey) :
    Prop :=
  ∀ blob,
    sealer.enclose key master = .ok blob →
    sealer.disclose blob master = .ok key

namespace SessionKey

/-- The fields of a plain blob. -/
def plainSchema : Wire.Schema :=
  [ (.word, "local key id"),
    (.word, "remote key id"),
    (.blob, "cipher key"),
    (.blob, "mac key") ]

/-- The values of a plain blob. -/
def plainValues (key : SessionKey) : List Wire.Value :=
  [ .word key.ids.localId,
    .word key.ids.remoteId,
    .blob key.cipher,
    .blob key.mac ]

/-- The session key with the given plain values. -/
def ofPlainValues? : List Wire.Value → Option SessionKey
  | [.word localId, .word remoteId, .blob cipher, .blob mac] =>
      some
        { ids := { localId := localId, remoteId := remoteId }
          cipher := cipher
          mac := mac }
  | _ => none

/-- The plain blob of a session key. -/
def toPlain (key : SessionKey) : Except Key.Error Bytes :=
  match Wire.encode key.plainValues with
  | .ok blob => .ok blob
  | .error _ => .error .malformedSessionKey

/-- The session key of a plain blob, which must end with the last field. -/
def ofPlain (blob : Bytes) : Except Key.Error SessionKey :=
  match (Wire.Cursor.ofBytes blob).readAll plainSchema with
  | (.error _, _) => .error .malformedSessionKey
  | (.ok values, cursor) =>
      match ofPlainValues? values with
      | none => .error .malformedSessionKey
      | some key =>
          if cursor.remaining = 0 then
            .ok key
          else
            .error .malformedSessionKey

end SessionKey

namespace Sealer

/-- Seal without encryption: identifiers, then both keys as blobs. -/
def plain : Sealer where
  enclose key _ := key.toPlain
  disclose blob _ := SessionKey.ofPlain blob

/-- Combine octets with a pattern that is repeated as often as needed. -/
def mask (pattern bytes : Bytes) : Bytes :=
  let table := pattern.toArray
  bytes.mapIdx fun index octet =>
    octet ^^^ table.getD (index % table.size) 0

/-- Seal plainly, then mask the blob with the master secret. -/
def masked : Sealer where
  enclose key master :=
    match key.toPlain with
    | .ok blob => .ok (mask master.bytes blob)
    | .error error => .error error
  disclose blob master :=
    SessionKey.ofPlain (mask master.bytes blob)

/-- Refuse both directions as malformed. -/
def refusing : Sealer where
  enclose _ _ := .error .malformedSessionKey
  disclose _ _ := .error .malformedSessionKey

/-- Seal plainly, but refuse every blob as malformed. -/
def sealOnly : Sealer where
  enclose key _ := key.toPlain
  disclose _ _ := .error .malformedSessionKey

/-- Refuse both directions, giving the refused direction as the reason. -/
def unavailable : Sealer where
  enclose _ _ := .error (.invalidMaterial "encode refused")
  disclose _ _ := .error (.invalidMaterial "decode refused")

end Sealer

end PeerSession
