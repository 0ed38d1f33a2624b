import PeerSession.Proofs.Record.Acceptance

namespace PeerSession.Record

/-!
# What reading leaves of an earlier session

A record that is read to its end over a session need not replace all of it. An
identity key and a prekey requirement stay where the format stores none, a
session key stays where none follows, and a session that was verified stays so.
Everything else is what the record alone decodes to; the whole session is that
exactly if nothing of the earlier one stays.
-/

/-- Whether records of a format store an identity key. -/
def Format.storesIdentity : Format → Bool
  | .unmarked _ | .v1 => false
  | .v2 | .v3 => true

/-- Whether records of a format store the prekey requirement. -/
def Format.storesPrekeyRequired : Format → Bool
  | .unmarked _ | .v1 | .v2 => false
  | .v3 => true

/-- A decoded session with what stays of an earlier one when its record is read over that. -/
def withResidue (format : Format) (prior decoded : Session) : Session :=
  { decoded with
    identity :=
      if format.storesIdentity then decoded.identity else prior.identity
    key := decoded.key <|> prior.key
    verified := prior.verified || decoded.verified
    prekeyRequired :=
      if format.storesPrekeyRequired then
        decoded.prekeyRequired
      else
        prior.prekeyRequired }

/-- Nothing of an earlier session stays when a record is read over it. -/
structure Superseded
    (format : Format)
    (prior decoded : Session) :
    Prop where
  identity : format.storesIdentity = false → prior.identity = none
  key : decoded.key = none → prior.key = none
  verified : prior.verified = true → decoded.verified = true
  prekeyRequired :
    format.storesPrekeyRequired = false → prior.prekeyRequired = false

/-- What a format does not store, a decoded session does not have. -/
structure Bare (format : Format) (decoded : Session) : Prop where
  identity : format.storesIdentity = false → decoded.identity = none
  prekeyRequired :
    format.storesPrekeyRequired = false → decoded.prekeyRequired = false

/-- A layout that is taken over leaves what its format does not store. -/
theorem takenOver_eq_withResidue
    {layout : Layout}
    {identity : Option IdentityKey}
    (prior : Session)
    (key : Option SessionKey) :
    { layout.takenOver identity prior with key := key <|> prior.key } =
      withResidue layout.format prior
        { layout.takenOver identity (.fresh prior.recipient) with
          key := key } := by
  cases layout <;>
    simp [Layout.takenOver, withResidue, Layout.format, Layout.counter,
      Layout.id, Layout.version, Layout.negotiated, Layout.verified?,
      Layout.prekeyRequired?, Format.storesIdentity,
      Format.storesPrekeyRequired, Session.fresh]

/-- A described session has nothing that the format does not store. -/
theorem Layout.Describes.bare
    {layout : Layout}
    {session : Session}
    (describes : layout.Describes session) :
    Bare layout.format session where
  identity := by
    intro lacks
    have stores := describes.identity
    cases layout with
    | unmarked | v1 =>
        exact (storesIdentity_nil_iff session.identity).mp stores
    | v2 | v3 =>
        cases lacks
  prekeyRequired := by
    intro lacks
    have required := describes.prekeyRequired
    cases layout with
    | unmarked | v1 | v2 =>
        simpa [Layout.prekeyRequired?] using required
    | v3 =>
        cases lacks

theorem bare_of_decode
    {sealer : Sealer}
    {master : MasterSecret}
    {recipient : RecipientId}
    {bytes : Bytes}
    {decoded : Session}
    {format : Format}
    (decodes :
      decode sealer master recipient bytes = .ok (decoded, format)) :
    Bare format decoded := by
  obtain ⟨layout, _, _, _, rfl, _, _, _, _, describes⟩ :=
    exists_layout_of_decode decodes
  exact describes.bare

/--
Both readers make the same commits, one over the session before and the other
one over a fresh one.
-/
theorem Reads.commitAll_eq_withResidue
    {sealer : Sealer}
    {master : MasterSecret}
    {bytes : Bytes}
    {commits : List Commit}
    {format : Format}
    (reads : Reads sealer master bytes commits (.ok format))
    (prior : Session) :
    prior.commitAll commits =
      withResidue format prior
        ((Session.fresh prior.recipient).commitAll commits) := by
  obtain ⟨layout, _, _, key, _, rfl, _, _, ⟨identity, stores⟩, _, rfl⟩ :=
    (reads_ok_iff ..).mp reads
  rw [commitAll_fresh stores, Session.commitAll_append,
    commitAll_script prior stores, commitAll_keyCommits]
  exact takenOver_eq_withResidue prior key

/-- Reading to the end leaves what the record decodes to, with the residue of the session before. -/
theorem decodeOver_eq_ok_iff
    (sealer : Sealer)
    (master : MasterSecret)
    (prior left : Session)
    (bytes : Bytes)
    (format : Format) :
    decodeOver sealer master prior bytes = (left, .ok format) ↔
      ∃ decoded,
        decode sealer master prior.recipient bytes =
            .ok (decoded, format) ∧
          left = withResidue format prior decoded := by
  rw [decodeOver_eq_iff]
  constructor
  · intro taken
    obtain ⟨commits, reads, rfl⟩ := taken
    refine ⟨(Session.fresh prior.recipient).commitAll commits, ?_,
      reads.commitAll_eq_withResidue prior⟩
    exact (decode_eq_ok_iff ..).mpr ⟨commits, reads, rfl⟩
  · intro decodes
    obtain ⟨decoded, decodes, rfl⟩ := decodes
    obtain ⟨commits, reads, rfl⟩ := (decode_eq_ok_iff ..).mp decodes
    exact ⟨commits, reads,
      (reads.commitAll_eq_withResidue prior).symm⟩

/-- The residue changes nothing exactly if nothing of the earlier session stays. -/
theorem withResidue_eq_self_iff
    {format : Format}
    {decoded : Session}
    (bare : Bare format decoded)
    (prior : Session) :
    withResidue format prior decoded = decoded ↔
      Superseded format prior decoded := by
  constructor
  · intro same
    have identity := congrArg Session.identity same
    have key := congrArg Session.key same
    have verified := congrArg Session.verified same
    have prekeyRequired := congrArg Session.prekeyRequired same
    simp only [withResidue] at identity key verified prekeyRequired
    refine ⟨?_, ?_, ?_, ?_⟩
    · intro lacks
      simpa [lacks, bare.identity lacks] using identity
    · intro none
      simpa [none] using key
    · intro wasVerified
      simpa [wasVerified] using verified.symm
    · intro lacks
      simpa [lacks, bare.prekeyRequired lacks] using prekeyRequired
  · intro superseded
    apply Session.ext
    case recipient | counter | id | version | negotiated =>
      rfl
    · cases stores : format.storesIdentity with
      | true =>
          simp [withResidue, stores]
      | false =>
          simp [withResidue, stores, bare.identity stores,
            superseded.identity stores]
    · cases present : decoded.key with
      | some key =>
          simp [withResidue, present]
      | none =>
          simp [withResidue, present, superseded.key present]
    · cases wasVerified : prior.verified with
      | true =>
          simp [withResidue, superseded.verified wasVerified]
      | false =>
          simp [withResidue, wasVerified]
    · cases stores : format.storesPrekeyRequired with
      | true =>
          simp [withResidue, stores]
      | false =>
          simp [withResidue, stores, bare.prekeyRequired stores,
            superseded.prekeyRequired stores]

/--
What is left of a session over which a record is read to its end is the session
that the record decodes to for the same recipient, with the residue of the one
before. It is exactly the decoded session if and only if there is no residue.
-/
theorem left_eq_decoded_iff
    (sealer : Sealer)
    (master : MasterSecret)
    (prior left : Session)
    (bytes : Bytes)
    (format : Format)
    (ended :
      decodeOver sealer master prior bytes = (left, .ok format)) :
    ∃ decoded,
      decode sealer master prior.recipient bytes =
          .ok (decoded, format) ∧
        left = withResidue format prior decoded ∧
        (left = decoded ↔ Superseded format prior decoded) := by
  obtain ⟨decoded, decodes, rfl⟩ := (decodeOver_eq_ok_iff ..).mp ended
  have superseded :=
    withResidue_eq_self_iff (bare_of_decode decodes) prior
  exact ⟨decoded, decodes, rfl, superseded⟩

/-- A session that has everything which an unmarked record cannot replace. -/
def settledSession : Session where
  recipient := 5
  counter := 1
  id := { localFingerprint := [1], remoteFingerprint := [2] }
  version := { raw := 3 }
  negotiated := { raw := 3 }
  identity :=
    some { publicKey := List.replicate 32 8, length_eq := by decide }
  key :=
    some
      { ids := { localId := 1, remoteId := 2 }
        cipher := [4]
        mac := [5] }
  verified := true
  prekeyRequired := true

/-- An unmarked record without a session key. -/
def bareRecord : Bytes :=
  Wire.wordBytes 7 ++ Wire.blobBytes [8] ++ Wire.blobBytes [9]

/-- The bare record is read over the settled session, of which four parts stay. -/
theorem left_eq_decoded_iff_settledSession :
    ∃ left decoded,
      decodeOver .plain { bytes := [] } settledSession bareRecord =
          (left, .ok (.unmarked 7)) ∧
        decode .plain { bytes := [] } 5 bareRecord =
          .ok (decoded, .unmarked 7) ∧
        left =
          { decoded with
            identity := settledSession.identity
            key := settledSession.key
            verified := true
            prekeyRequired := true } := by
  obtain ⟨decoded, decodes, isLeft, _⟩ :=
    left_eq_decoded_iff .plain { bytes := [] } settledSession _ bareRecord
      (.unmarked 7) rfl
  cases decodes
  exact ⟨_, _, rfl, rfl, isLeft⟩

/-- Reading to the end does not always leave what the record decodes to. -/
theorem exists_left_ne_decoded :
    ¬ ∀ (sealer : Sealer) (master : MasterSecret)
        (prior left : Session) (bytes : Bytes) (format : Format),
      decodeOver sealer master prior bytes = (left, .ok format) →
        decode sealer master prior.recipient bytes =
          .ok (left, format) := by
  intro always
  have decodes :=
    always .plain { bytes := [] } settledSession _ bareRecord
      (.unmarked 7) rfl
  -- The session that is left is verified, and the decoded one is not.
  cases decodes

end PeerSession.Record
