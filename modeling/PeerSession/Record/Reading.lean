import PeerSession.Key.Sealer
import PeerSession.Record.Format
import PeerSession.Record.Scan

namespace PeerSession.Record

/-!
# Reading records

One pass reads all formats: each layout only appends fields to the one before
it, and what a format lacks is filled in without reading. Left-over octets mean
that a sealed session key follows.
-/

/-- Read the first word and tell the format from it. -/
def scanFormat : Scan Format := do
  let first ← Scan.word .versionMarker
  pure (Format.ofFirst first)

/-- Take over the counter, which an unmarked record has as its first word. -/
def scanCounter : Format → Scan Unit
  | .unmarked counter => Scan.commit (.counter counter)
  | .v1 | .v2 | .v3 => do
      let counter ← Scan.word .counter
      Scan.commit (.counter counter)

/-- Take over both fingerprints, once both are read. -/
def scanId : Scan Unit := do
  let localFingerprint ← Scan.blob .localFingerprint
  let remoteFingerprint ← Scan.blob .remoteFingerprint
  Scan.commit
    (.id
      { localFingerprint := localFingerprint
        remoteFingerprint := remoteFingerprint })

/-- Read the version in effect, which an unmarked record does not know. -/
def readVersion : Format → Scan Version
  | .unmarked _ => pure .unset
  | .v1 | .v2 | .v3 => do
      let version ← Scan.word .version
      pure { raw := version }

/-- Take over the version in effect. -/
def scanVersion (format : Format) : Scan Version := do
  let version ← readVersion format
  Scan.commit (.version version)
  pure version

/-- The identity key of a stored blob; an empty blob stands for none. -/
def identityOfBlob (blob : Bytes) : Except IdentityKey.Fault (Option IdentityKey) :=
  if blob.isEmpty then
    .ok none
  else
    (IdentityKey.parse blob 0).map some

/-- Take over an identity key, crashing if the blob holds none. -/
def commitIdentity (blob : Bytes) : Scan Unit :=
  match identityOfBlob blob with
  | .ok identity => Scan.commit (.identity identity)
  | .error fault => Scan.fail (.crashed fault)

/-- Take over that a session is verified; a flag that is not set says nothing. -/
def commitVerified (verified : Bool) : Scan Unit :=
  if verified then
    Scan.commit .verified
  else
    pure ()

/-- Take over the identity key and its verification, where the format has them. -/
def scanIdentity : Format → Scan Unit
  | .unmarked _ | .v1 => pure ()
  | .v2 | .v3 => do
      let blob ← Scan.blob .identity
      commitIdentity blob
      let verified ← Scan.flag .verified
      commitVerified verified

/-- Take over the negotiated version, the one in effect where the format has none. -/
def scanNegotiation (version : Version) : Format → Scan Unit
  | .unmarked _ | .v1 | .v2 => Scan.commit (.negotiated version)
  | .v3 => do
      let required ← Scan.flag .prekeyRequired
      Scan.commit (.prekeyRequired required)
      let negotiated ← Scan.word .negotiated
      Scan.commit (.negotiated { raw := negotiated })

/-- Take over a session key, unless the sealer refuses its blob. -/
def commitKey
    (sealer : Sealer)
    (master : MasterSecret)
    (blob : Bytes) :
    Scan Unit :=
  match sealer.disclose blob master with
  | .ok key => Scan.commit (.key key)
  | .error error => Scan.fail (.rejected (.key error))

/-- Read a session key that may follow. -/
def scanKey
    (sealer : Sealer)
    (master : MasterSecret)
    (finished : Bool) :
    Scan Unit :=
  if finished then
    pure ()
  else do
    let blob ← Scan.blob .key
    commitKey sealer master blob

/-- Read a record of any format from its first octet. -/
def scan
    (sealer : Sealer)
    (master : MasterSecret) :
    Scan Format := do
  let format ← scanFormat
  scanCounter format
  scanId
  let version ← scanVersion format
  scanIdentity format
  scanNegotiation version format
  let finished ← Scan.atEnd
  scanKey sealer master finished
  pure format

/-- What reading a record yields: the commits made and how it ended. -/
structure Decoding where
  commits : List Commit
  ending : Except Failure Format

/-- Read a record. -/
def read
    (sealer : Sealer)
    (master : MasterSecret)
    (bytes : Bytes) :
    Decoding :=
  let scanned := (scan sealer master).run (Wire.Cursor.ofBytes bytes)
  { commits := scanned.commits
    ending := scanned.ending.map Prod.fst }

/-- Read a record over a session, which keeps what was committed before a failure. -/
def decodeOver
    (sealer : Sealer)
    (master : MasterSecret)
    (session : Session)
    (bytes : Bytes) :
    Session × Except Failure Format :=
  let decoding := read sealer master bytes
  (session.commitAll decoding.commits, decoding.ending)

/-- Read a recipient's record as a session of its own. -/
def decode
    (sealer : Sealer)
    (master : MasterSecret)
    (recipient : RecipientId)
    (bytes : Bytes) :
    Except Failure (Session × Format) :=
  match decodeOver sealer master (.fresh recipient) bytes with
  | (session, .ok format) => .ok (session, format)
  | (_, .error failure) => .error failure

/-- Tell the format of a record without reading more than its first word. -/
def formatOf (bytes : Bytes) : Except Error Format :=
  match (Wire.Cursor.ofBytes bytes).readWord Field.versionMarker.name with
  | (.ok first, _) => .ok (Format.ofFirst first)
  | (.error error, _) => .error (.wire error)

end PeerSession.Record
