import PeerSession.Proofs.Record.Contents
import PeerSession.Proofs.Wire.Addressing

namespace PeerSession.Record

/-!
# Reading records by position

A walk reads a record by position, over a session that it changes as soon as a
field is read. It takes the same course as a scan, but whatever a machine computes
on the way could be a trap. None ever is: over a record of addressable length a
walk takes over what the scan commits, and ends as the scan ends.
-/

/-- The identity key of a stored blob, by position: its type octet, then a copy of the rest. -/
def identityByPosition
    (blob : Bytes) :
    Except Wire.Trap (Except IdentityKey.Fault (Option IdentityKey)) :=
  if blob.isEmpty then
    .ok (.ok none)
  else if blob.length < IdentityKey.serializedLength then
    .ok (.error .tooShort)
  else
    match Wire.slice blob 0 1 with
    | .error trap => .error trap
    | .ok kind =>
        if kind = [IdentityKey.typeOctet] then
          match Wire.slice blob 1 IdentityKey.serializedLength with
          | .error trap => .error trap
          | .ok publicKey =>
              match IdentityKey.ofPublicKey? publicKey with
              | some key => .ok (.ok (some key))
              | none => .error .unequalLengths
        else
          .ok (.error .unknownType)

/-- A blob is only sliced if it has all octets of a key. -/
theorem identityByPosition_eq (blob : Bytes) :
    identityByPosition blob = .ok (identityOfBlob blob) := by
  cases blob with
  | nil =>
      rfl
  | cons kind material =>
      rw [identityOfBlob_cons]
      by_cases enough : 32 ≤ material.length
      · have long :
            ¬ (kind :: material).length < IdentityKey.serializedLength := by
          simp only [List.length_cons, IdentityKey.serializedLength,
            IdentityKey.keyLength]
          omega
        have first := IdentityKey.slice_type kind material
        obtain ⟨others, copied⟩ := IdentityKey.slice_publicKey kind enough
        simp only [identityByPosition, List.isEmpty_cons,
          Bool.false_eq_true, long, first, others, copied, enough,
          List.cons.injEq, and_true, ↓reduceIte, ↓reduceDIte]
        split <;> rfl
      · have short :
            (kind :: material).length < IdentityKey.serializedLength := by
          simp only [List.length_cons, IdentityKey.serializedLength,
            IdentityKey.keyLength]
          omega
        simp only [identityByPosition, List.isEmpty_cons,
          Bool.false_eq_true, short, enough, ↓reduceIte, ↓reduceDIte]

/-- What a walk did: the session it left, and its result with the reader behind it. -/
structure Walked (α : Type) where
  session : Session
  ending : Except Failure (α × Wire.Reader)

/-- A step of reading a record by position. -/
structure Walk (α : Type) where
  run : Session → Wire.Reader → Except Wire.Trap (Walked α)

namespace Walk

/-- Go on from where a walk ended, over the session that it left. -/
def continueWith
    {α β : Type}
    (walked : Except Wire.Trap (Walked α))
    (next : α → Walk β) :
    Except Wire.Trap (Walked β) :=
  match walked with
  | .error trap => .error trap
  | .ok { session := session, ending := .error failure } =>
      .ok { session := session, ending := .error failure }
  | .ok { session := session, ending := .ok (value, reader) } =>
      (next value).run session reader

instance : Monad Walk where
  pure value :=
    { run := fun session reader =>
        .ok { session := session, ending := .ok (value, reader) } }
  bind walk next :=
    { run := fun session reader =>
        continueWith (walk.run session reader) next }

/-- A sequence goes on from where its first part ended. -/
theorem run_bind
    {α β : Type}
    (walk : Walk α)
    (next : α → Walk β)
    (session : Session)
    (reader : Wire.Reader) :
    (walk >>= next).run session reader =
      continueWith (walk.run session reader) next :=
  rfl

/-- Fail, keeping what was taken over. -/
def fail {α : Type} (failure : Failure) : Walk α where
  run session _ :=
    .ok { session := session, ending := .error failure }

/-- Take one change over. -/
def commit (change : Commit) : Walk Unit where
  run session reader :=
    .ok { session := session.commit change, ending := .ok ((), reader) }

/-- Whether all octets are read. -/
def atEnd : Walk Bool where
  run session reader :=
    reader.remaining.map fun remaining =>
      { session := session, ending := .ok (remaining == 0, reader) }

/-- Read one field by position. -/
def ofRead
    {α : Type}
    (read : Wire.Reader → Wire.Reached α) :
    Walk α where
  run session reader :=
    match read reader with
    | .error trap => .error trap
    | .ok (.ok value, next) =>
        .ok { session := session, ending := .ok (value, next) }
    | .ok (.error error, _) =>
        .ok { session := session, ending := .error (.rejected (.wire error)) }

/-- Read a word. -/
def word (field : Field) : Walk UInt32 :=
  ofRead fun reader => reader.readWord field.name

/-- Read a flag. -/
def flag (field : Field) : Walk Bool :=
  ofRead fun reader => reader.readFlag field.name

/-- Read a blob. -/
def blob (field : Field) : Walk Bytes :=
  ofRead fun reader => reader.readBlob field.name

/-- A walk and a scan fail alike, or end at one place with one value. -/
inductive EndsAlike
    {α : Type} :
    Except Failure (α × Wire.Reader) →
    Except Failure (α × Wire.Cursor) →
    Prop where
  | failed (failure : Failure) :
      EndsAlike (.error failure) (.error failure)
  | finished
      {reader : Wire.Reader}
      {cursor : Wire.Cursor}
      (value : α)
      (isAt : reader.At cursor) :
      EndsAlike (.ok (value, reader)) (.ok (value, cursor))

theorem EndsAlike.map_fst
    {α : Type}
    {walked : Except Failure (α × Wire.Reader)}
    {scanned : Except Failure (α × Wire.Cursor)}
    (alike : EndsAlike walked scanned) :
    walked.map Prod.fst = scanned.map Prod.fst := by
  cases alike with
  | failed failure =>
      rfl
  | finished value isAt =>
      rfl

/-- A walk runs into no trap, takes over what a scan commits, and ends alike. -/
def Agrees
    {α : Type}
    (walk : Walk α)
    (scan : Scan α) :
    Prop :=
  ∀ (session : Session) {reader : Wire.Reader} {cursor : Wire.Cursor},
    reader.At cursor →
    ∃ ending,
      walk.run session reader =
          .ok
            { session := session.commitAll (scan.run cursor).commits
              ending := ending } ∧
        EndsAlike ending (scan.run cursor).ending

namespace Agrees

theorem pure
    {α : Type}
    (value : α) :
    (Pure.pure value : Walk α).Agrees (Pure.pure value) := by
  intro session reader cursor isAt
  exact ⟨_, rfl, .finished value isAt⟩

theorem fail
    {α : Type}
    (failure : Failure) :
    (Walk.fail failure : Walk α).Agrees (Scan.fail failure) := by
  intro session reader cursor isAt
  exact ⟨_, rfl, .failed failure⟩

theorem commit (change : Commit) :
    (Walk.commit change).Agrees (Scan.commit change) := by
  intro session reader cursor isAt
  exact ⟨_, rfl, .finished () isAt⟩

theorem atEnd : Walk.atEnd.Agrees Scan.atEnd := by
  intro session reader cursor isAt
  refine ⟨.ok (cursor.remaining == 0, reader), ?_, .finished _ isAt⟩
  simp only [Walk.atEnd, isAt.remaining]
  rfl

/-- A field is read alike if the reader's read agrees with the cursor's. -/
theorem ofRead
    {α : Type}
    {byPosition : Wire.Reader → Wire.Reached α}
    {read : Wire.Cursor → Except Wire.Error α × Wire.Cursor}
    (agrees :
      ∀ {reader : Wire.Reader} {cursor : Wire.Cursor},
        reader.At cursor → (byPosition reader).Agrees (read cursor)) :
    (Walk.ofRead byPosition).Agrees (Scan.ofRead read) := by
  intro session reader cursor isAt
  obtain ⟨next, reached, nextAt⟩ := agrees isAt
  rcases answered : read cursor with ⟨error | value, behind⟩
  · rw [answered] at reached
    rw [Scan.run_ofRead_error answered]
    exact ⟨_, by simp only [Walk.ofRead, reached]; rfl, .failed _⟩
  · rw [answered] at reached nextAt
    rw [Scan.run_ofRead_ok answered]
    exact
      ⟨_, by simp only [Walk.ofRead, reached]; rfl,
        .finished value nextAt⟩

theorem word (field : Field) :
    (Walk.word field).Agrees (Scan.word field) :=
  ofRead fun isAt => isAt.readWord field.name

theorem flag (field : Field) :
    (Walk.flag field).Agrees (Scan.flag field) :=
  ofRead fun isAt => isAt.readFlag field.name

theorem blob (field : Field) :
    (Walk.blob field).Agrees (Scan.blob field) :=
  ofRead fun isAt => isAt.readBlob field.name

/-- Steps in sequence agree if the first ones do, and the later ones for every value. -/
theorem bind
    {α β : Type}
    {walk : Walk α}
    {scan : Scan α}
    {walkNext : α → Walk β}
    {scanNext : α → Scan β}
    (first : walk.Agrees scan)
    (later : ∀ value, (walkNext value).Agrees (scanNext value)) :
    (walk >>= walkNext).Agrees (scan >>= scanNext) := by
  intro session reader cursor isAt
  obtain ⟨ending, ran, alike⟩ := first session isAt
  rw [Scan.run_bind, run_bind, ran]
  rcases scanned : scan.run cursor with ⟨commits, scanEnding⟩
  rw [scanned] at alike
  cases alike with
  | failed failure =>
      exact ⟨_, rfl, .failed failure⟩
  | @finished next behind value nextAt =>
      obtain ⟨last, laterRan, lastAlike⟩ :=
        later value (session.commitAll commits) nextAt
      refine ⟨last, ?_, lastAlike⟩
      simp only [continueWith, Scan.continueWith, laterRan,
        Session.commitAll_append]

end Agrees

end Walk

/-- Read the first word and tell the format from it. -/
def walkFormat : Walk Format := do
  let first ← Walk.word .versionMarker
  pure (Format.ofFirst first)

/-- Take over the counter, which an unmarked record has as its first word. -/
def walkCounter : Format → Walk Unit
  | .unmarked counter => Walk.commit (.counter counter)
  | .v1 | .v2 | .v3 => do
      let counter ← Walk.word .counter
      Walk.commit (.counter counter)

/-- Take over both fingerprints, once both are read. -/
def walkId : Walk Unit := do
  let localFingerprint ← Walk.blob .localFingerprint
  let remoteFingerprint ← Walk.blob .remoteFingerprint
  Walk.commit
    (.id
      { localFingerprint := localFingerprint
        remoteFingerprint := remoteFingerprint })

/-- Read the version in effect, which an unmarked record does not know. -/
def walkedVersion : Format → Walk Version
  | .unmarked _ => pure .unset
  | .v1 | .v2 | .v3 => do
      let version ← Walk.word .version
      pure { raw := version }

/-- Take over the version in effect. -/
def walkVersion (format : Format) : Walk Version := do
  let version ← walkedVersion format
  Walk.commit (.version version)
  pure version

/-- Take over an identity key, crashing if the blob holds none. -/
def walkIdentityBlob (blob : Bytes) : Walk Unit where
  run session reader :=
    match identityByPosition blob with
    | .error trap => .error trap
    | .ok (.ok identity) =>
        (Walk.commit (.identity identity)).run session reader
    | .ok (.error fault) =>
        (Walk.fail (.crashed fault)).run session reader

/-- Take over that a session is verified; a flag that is not set says nothing. -/
def walkVerified (verified : Bool) : Walk Unit :=
  if verified then
    Walk.commit .verified
  else
    pure ()

/-- Take over the identity key and its verification, where the format has them. -/
def walkIdentity : Format → Walk Unit
  | .unmarked _ | .v1 => pure ()
  | .v2 | .v3 => do
      let blob ← Walk.blob .identity
      walkIdentityBlob blob
      let verified ← Walk.flag .verified
      walkVerified verified

/-- Take over the negotiated version, the one in effect where the format has none. -/
def walkNegotiation (version : Version) : Format → Walk Unit
  | .unmarked _ | .v1 | .v2 => Walk.commit (.negotiated version)
  | .v3 => do
      let required ← Walk.flag .prekeyRequired
      Walk.commit (.prekeyRequired required)
      let negotiated ← Walk.word .negotiated
      Walk.commit (.negotiated { raw := negotiated })

/-- Take over a session key, unless the sealer refuses its blob. -/
def walkKeyBlob
    (sealer : Sealer)
    (master : MasterSecret)
    (blob : Bytes) :
    Walk Unit :=
  match sealer.disclose blob master with
  | .ok key => Walk.commit (.key key)
  | .error error => Walk.fail (.rejected (.key error))

/-- Read a session key that may follow. -/
def walkKey
    (sealer : Sealer)
    (master : MasterSecret)
    (finished : Bool) :
    Walk Unit :=
  if finished then
    pure ()
  else do
    let blob ← Walk.blob .key
    walkKeyBlob sealer master blob

/-- Read a record of any format by position, from its first octet. -/
def walk
    (sealer : Sealer)
    (master : MasterSecret) :
    Walk Format := do
  let format ← walkFormat
  walkCounter format
  walkId
  let version ← walkVersion format
  walkIdentity format
  walkNegotiation version format
  let finished ← Walk.atEnd
  walkKey sealer master finished
  pure format

namespace Walk

theorem format_agrees : walkFormat.Agrees scanFormat :=
  (Agrees.word .versionMarker).bind fun first =>
    .pure (Format.ofFirst first)

theorem counter_agrees (format : Format) :
    (walkCounter format).Agrees (scanCounter format) := by
  cases format with
  | unmarked counter =>
      exact .commit (.counter counter)
  | v1 | v2 | v3 =>
      apply (Agrees.word .counter).bind
      intro counter
      exact .commit (.counter counter)

theorem id_agrees : walkId.Agrees scanId := by
  apply (Agrees.blob .localFingerprint).bind
  intro localFingerprint
  apply (Agrees.blob .remoteFingerprint).bind
  intro remoteFingerprint
  exact .commit (.id _)

theorem version_agrees (format : Format) :
    (walkVersion format).Agrees (scanVersion format) := by
  have inEffect : (walkedVersion format).Agrees (readVersion format) := by
    cases format with
    | unmarked counter =>
        exact .pure Version.unset
    | v1 | v2 | v3 =>
        apply (Agrees.word .version).bind
        intro version
        exact .pure (Version.mk version)
  apply inEffect.bind
  intro version
  apply (Agrees.commit (.version version)).bind
  intro _
  exact .pure version

theorem identityBlob_agrees (blob : Bytes) :
    (walkIdentityBlob blob).Agrees (commitIdentity blob) := by
  unfold walkIdentityBlob commitIdentity
  rw [identityByPosition_eq]
  cases identityOfBlob blob with
  | ok identity =>
      exact .commit (.identity identity)
  | error fault =>
      exact .fail (.crashed fault)

theorem verified_agrees (verified : Bool) :
    (walkVerified verified).Agrees (commitVerified verified) := by
  cases verified with
  | false =>
      exact .pure ()
  | true =>
      exact .commit .verified

theorem identity_agrees (format : Format) :
    (walkIdentity format).Agrees (scanIdentity format) := by
  cases format with
  | unmarked | v1 =>
      exact .pure ()
  | v2 | v3 =>
      apply (Agrees.blob .identity).bind
      intro blob
      apply (identityBlob_agrees blob).bind
      intro _
      exact (Agrees.flag .verified).bind verified_agrees

theorem negotiation_agrees
    (version : Version)
    (format : Format) :
    (walkNegotiation version format).Agrees
      (scanNegotiation version format) := by
  cases format with
  | unmarked | v1 | v2 =>
      exact .commit (.negotiated version)
  | v3 =>
      apply (Agrees.flag .prekeyRequired).bind
      intro required
      apply (Agrees.commit (.prekeyRequired required)).bind
      intro _
      apply (Agrees.word .negotiated).bind
      intro negotiated
      exact .commit (.negotiated { raw := negotiated })

theorem keyBlob_agrees
    (sealer : Sealer)
    (master : MasterSecret)
    (blob : Bytes) :
    (walkKeyBlob sealer master blob).Agrees
      (commitKey sealer master blob) := by
  unfold walkKeyBlob commitKey
  cases sealer.disclose blob master with
  | ok key =>
      exact .commit (.key key)
  | error error =>
      exact .fail (.rejected (.key error))

theorem key_agrees
    (sealer : Sealer)
    (master : MasterSecret)
    (finished : Bool) :
    (walkKey sealer master finished).Agrees
      (scanKey sealer master finished) := by
  cases finished with
  | true =>
      exact .pure ()
  | false =>
      exact (Agrees.blob .key).bind (keyBlob_agrees sealer master)

end Walk

/-- Reading by position takes the course of reading. -/
theorem walk_agrees
    (sealer : Sealer)
    (master : MasterSecret) :
    (walk sealer master).Agrees (scan sealer master) := by
  apply Walk.format_agrees.bind
  intro format
  apply (Walk.counter_agrees format).bind
  intro _
  apply Walk.id_agrees.bind
  intro _
  apply (Walk.version_agrees format).bind
  intro version
  apply (Walk.identity_agrees format).bind
  intro _
  apply (Walk.negotiation_agrees version format).bind
  intro _
  apply Walk.Agrees.atEnd.bind
  intro finished
  apply (Walk.key_agrees sealer master finished).bind
  intro _
  exact .pure format

/-- Read a record over a session by position, which a trap would stop. -/
def decodeByPosition
    (sealer : Sealer)
    (master : MasterSecret)
    (session : Session)
    (bytes : Bytes) :
    Except Wire.Trap (Session × Except Failure Format) :=
  ((walk sealer master).run session (.ofBytes bytes)).map fun walked =>
    (walked.session, walked.ending.map Prod.fst)

/-- Over a record of addressable length no trap is run into: a position is always enough. -/
theorem decodeByPosition_eq
    (sealer : Sealer)
    (master : MasterSecret)
    (session : Session)
    {bytes : Bytes}
    (addressable : bytes.length < Wire.addressLimit) :
    decodeByPosition sealer master session bytes =
      .ok (decodeOver sealer master session bytes) := by
  obtain ⟨ending, ran, alike⟩ :=
    walk_agrees sealer master session
      (Wire.Reader.at_ofBytes addressable)
  rw [decodeByPosition, ran, decodeOver, read, ← alike.map_fst]
  rfl

end PeerSession.Record
