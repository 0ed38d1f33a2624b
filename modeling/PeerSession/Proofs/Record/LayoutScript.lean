import PeerSession.Proofs.Record.Following
import PeerSession.Record.Layout
import PeerSession.Record.Reading

namespace PeerSession.Record

/-!
# Scripts of layouts

Every layout has a script: the fields that its format stores, with the commits
that are made as soon as they are read, and those that stand in for a field
which the format lacks. Reading a record follows the script of any layout that
its first word tells apart, and all octets complete or stop the script of some
such layout.
-/

/-- The first word of a record of this format. -/
def Format.firstWord : Format → UInt32
  | .unmarked counter => counter
  | .v1 => markerV1
  | .v2 => markerV2
  | .v3 => markerV3

/-- The steps of taking over both fingerprints. -/
def idSteps (id : SessionId) : Script :=
  [ .read .localFingerprint (.blob id.localFingerprint),
    .read .remoteFingerprint (.blob id.remoteFingerprint),
    .commit (.id id) ]

/-- The step that an identity blob leads to: its key is taken over, or it has none. -/
def identityStep (blob : Bytes) : Step :=
  match identityOfBlob blob with
  | .ok identity => .commit (.identity identity)
  | .error fault => .refuse (.crashed fault)

/-- The steps that a verification word leads to: only the word 1 says something. -/
def verifiedSteps (word : UInt32) : Script :=
  if word = 1 then
    [.commit .verified]
  else
    []

namespace Layout

/-- A layout is told apart by its first word: a counter must not be a marker. -/
def Recognizable : Layout → Prop
  | .unmarked counter _ =>
      counter ≠ Format.markerV1 ∧
        counter ≠ Format.markerV2 ∧
        counter ≠ Format.markerV3
  | .v1 .. => True
  | .v2 .. => True
  | .v3 .. => True

/-- The stored counter. -/
def counter : Layout → UInt32
  | .unmarked counter _ => counter
  | .v1 counter .. => counter
  | .v2 counter .. => counter
  | .v3 counter .. => counter

/-- The stored fingerprints. -/
def id : Layout → SessionId
  | .unmarked _ id => id
  | .v1 _ id _ => id
  | .v2 _ id .. => id
  | .v3 _ id .. => id

/-- The stored version in effect, unset where there is none. -/
def version : Layout → Version
  | .unmarked .. => .unset
  | .v1 _ _ version => version
  | .v2 _ _ version .. => version
  | .v3 _ _ version .. => version

/-- The stored blob of the identity key, empty where there is none. -/
def identityBlob : Layout → Bytes
  | .unmarked .. => []
  | .v1 .. => []
  | .v2 _ _ _ identity _ => identity
  | .v3 _ _ _ identity .. => identity

/-- The stored word of the verification. -/
def verified? : Layout → Option UInt32
  | .unmarked .. => none
  | .v1 .. => none
  | .v2 _ _ _ _ verified => some verified
  | .v3 _ _ _ _ verified .. => some verified

/-- The stored word of the prekey requirement. -/
def prekeyRequired? : Layout → Option UInt32
  | .unmarked .. => none
  | .v1 .. => none
  | .v2 .. => none
  | .v3 _ _ _ _ _ prekeyRequired _ => some prekeyRequired

/-- The stored negotiated version, the one in effect where there is none. -/
def negotiated (layout : Layout) : Version :=
  match layout with
  | .unmarked .. | .v1 .. | .v2 .. => layout.version
  | .v3 _ _ _ _ _ _ negotiated => negotiated

/-- The steps of taking over the counter, which may be known from the first word. -/
def counterSteps (layout : Layout) : Script :=
  match layout with
  | .unmarked counter _ =>
      [.commit (.counter counter)]
  | .v1 counter .. | .v2 counter .. | .v3 counter .. =>
      [ .read .counter (.word counter),
        .commit (.counter counter) ]

/-- The steps of taking over the version in effect. -/
def versionSteps (layout : Layout) : Script :=
  match layout with
  | .unmarked .. =>
      [.commit (.version .unset)]
  | .v1 _ _ version | .v2 _ _ version .. | .v3 _ _ version .. =>
      [ .read .version (.word version.raw),
        .commit (.version version) ]

/-- The steps of taking over an identity key and its verification. -/
def identitySteps (layout : Layout) : Script :=
  match layout with
  | .unmarked .. | .v1 .. => []
  | .v2 _ _ _ identity verified | .v3 _ _ _ identity verified .. =>
      .read .identity (.blob identity) ::
        identityStep identity ::
          .read .verified (.word verified) ::
            verifiedSteps verified

/-- The steps of taking over the prekey requirement and the negotiated version. -/
def negotiationSteps (layout : Layout) : Script :=
  match layout with
  | .unmarked .. | .v1 .. | .v2 .. =>
      [.commit (.negotiated layout.version)]
  | .v3 _ _ _ _ _ prekeyRequired negotiated =>
      [ .read .prekeyRequired (.word prekeyRequired),
        .commit (.prekeyRequired (prekeyRequired == 1)),
        .read .negotiated (.word negotiated.raw),
        .commit (.negotiated negotiated) ]

/-- The steps behind the first word. -/
def laterSteps (layout : Layout) : Script :=
  layout.counterSteps ++
    (idSteps layout.id ++
      (layout.versionSteps ++
        (layout.identitySteps ++ layout.negotiationSteps)))

/-- The steps of taking over a record of this layout, up to the session key. -/
def script (layout : Layout) : Script :=
  .read .versionMarker (.word layout.format.firstWord) ::
    layout.laterSteps

end Layout

/-- Read the fields of a record, up to the session key. -/
def scanFields : Scan Format := do
  let format ← scanFormat
  scanCounter format
  scanId
  let version ← scanVersion format
  scanIdentity format
  scanNegotiation version format
  pure format

/-- Read what follows the fields of a record. -/
def scanEnd
    (sealer : Sealer)
    (master : MasterSecret) :
    Scan Unit := do
  let finished ← Scan.atEnd
  scanKey sealer master finished

/-- A record is read field by field, and then to its end. -/
theorem scan_eq
    (sealer : Sealer)
    (master : MasterSecret) :
    scan sealer master =
      scanFields >>= fun format =>
        scanEnd sealer master >>= fun _ => pure format := by
  simp only [scan, scanFields, scanEnd, Scan.bind_assoc]
  rfl

/-- The format of every first word has that first word. -/
theorem Format.firstWord_ofFirst (first : UInt32) :
    (Format.ofFirst first).firstWord = first := by
  unfold Format.ofFirst
  split
  · rename_i same
    exact same.symm
  · split
    · rename_i same
      exact same.symm
    · split
      · rename_i same
        exact same.symm
      · rfl

/-- A layout is told apart exactly when its first word leads back to its format. -/
theorem Layout.recognizable_iff (layout : Layout) :
    layout.Recognizable ↔
      Format.ofFirst layout.format.firstWord = layout.format := by
  cases layout with
  | unmarked counter id =>
      simp only [Layout.Recognizable, Layout.format, Format.firstWord,
        Format.ofFirst]
      grind
  | v1 | v2 | v3 =>
      simp only [Layout.Recognizable, Layout.format, true_iff]
      decide

end PeerSession.Record
