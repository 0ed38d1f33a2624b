import PeerSession.Proofs.Record.Contents
import PeerSession.Proofs.Record.Reads
import PeerSession.Record.Writing

namespace PeerSession.Record

/-!
# Round trip of records

A session is encoded exactly when its fingerprints and the blob of its key have
a length that can be stored. Such a record is one of the newest format, and
decoding it for the session's recipient gives the session back, whatever versions,
flags and keys it has.
-/

theorem storesIdentity_identityBlob (identity : Option IdentityKey) :
    StoresIdentity (identityBlob identity) identity := by
  cases identity with
  | none =>
      rfl
  | some key =>
      exact ⟨[], (List.append_nil _).symm⟩

theorem length_identityBlob_lt (identity : Option IdentityKey) :
    (identityBlob identity).length < Wire.blobLimit := by
  cases identity with
  | none =>
      decide
  | some key =>
      rw [identityBlob, key.length_toBytes]
      decide

/-- The stored values of a session fit exactly when its fingerprints are short enough. -/
theorem exists_encode_layoutOf_iff (session : Session) :
    (∃ stored, (layoutOf session).encode = .ok stored) ↔
      session.id.localFingerprint.length < Wire.blobLimit ∧
        session.id.remoteFingerprint.length < Wire.blobLimit := by
  have identityFits := length_identityBlob_lt session.identity
  simp [Layout.encode, Wire.encode_eq_ok_iff, layoutOf, Layout.values,
    Layout.fields, Layout.idFields, Wire.Value.Fits, identityFits]

theorem mapError_eq_ok_iff
    {ε ε' α : Type}
    (change : ε → ε')
    (result : Except ε α)
    (value : α) :
    result.mapError change = .ok value ↔ result = .ok value := by
  cases result with
  | ok present =>
      constructor
      · rintro ⟨⟩
        rfl
      · rintro ⟨⟩
        rfl
  | error error =>
      exact iff_of_false nofun nofun

/-- The octets of a session key are those of the blob that the sealer encloses it in. -/
theorem encodeKey_some_eq_ok_iff
    (sealer : Sealer)
    (master : MasterSecret)
    (key : SessionKey)
    (bytes : Bytes) :
    encodeKey sealer master (some key) = .ok bytes ↔
      ∃ blob,
        sealer.enclose key master = .ok blob ∧
          blob.length < Wire.blobLimit ∧
          bytes = Wire.blobBytes blob := by
  cases enclosed : sealer.enclose key master with
  | error error =>
      simp [encodeKey, enclosed]
  | ok blob =>
      simp [encodeKey, enclosed, mapError_eq_ok_iff,
        Wire.Value.encode_eq_ok_iff, Wire.Value.Fits, Wire.Value.bytes]

/-- Whether a session key can be stored depends on the sealer and the length of the blob. -/
theorem exists_encodeKey_iff
    (sealer : Sealer)
    (master : MasterSecret)
    (key : Option SessionKey) :
    (∃ bytes, encodeKey sealer master key = .ok bytes) ↔
      ∀ present,
        key = some present →
        ∃ blob,
          sealer.enclose present master = .ok blob ∧
            blob.length < Wire.blobLimit := by
  cases key with
  | none =>
      simp [encodeKey]
  | some present =>
      simp only [encodeKey_some_eq_ok_iff, Option.some.injEq,
        forall_eq']
      constructor
      · rintro ⟨_, blob, encloses, fits, _⟩
        exact ⟨blob, encloses, fits⟩
      · rintro ⟨blob, encloses, fits⟩
        exact ⟨_, blob, encloses, fits, rfl⟩

theorem encode_eq_ok_iff
    (sealer : Sealer)
    (master : MasterSecret)
    (session : Session)
    (record : Bytes) :
    encode sealer master session = .ok record ↔
      ∃ stored key,
        (layoutOf session).encode = .ok stored ∧
          encodeKey sealer master session.key = .ok key ∧
          record = stored ++ key := by
  unfold encode
  cases (layoutOf session).encode with
  | error error =>
      simp
  | ok stored =>
      cases encodeKey sealer master session.key with
      | error error =>
          simp
      | ok key =>
          simp [eq_comm]

/-- Taking over the stored values of a session restores all of it but the key. -/
theorem takenOver_layoutOf (session : Session) :
    (layoutOf session).takenOver session.identity
        (.fresh session.recipient) =
      { session with key := none } := by
  have flag (value : Bool) : (Wire.flagWord value == 1) = value := by
    cases value <;> rfl
  simp [Layout.takenOver, layoutOf, Layout.counter, Layout.id,
    Layout.version, Layout.negotiated, Layout.verified?,
    Layout.prekeyRequired?, Session.fresh, flag]

theorem recognizable_layoutOf (session : Session) :
    (layoutOf session).Recognizable :=
  trivial

theorem completes_layoutOf
    {session : Session}
    {stored : Bytes}
    (encoded : (layoutOf session).encode = .ok stored)
    (rest : Bytes) :
    (layoutOf session).script.Completes (stored ++ rest) rest :=
  ((layoutOf session).completes_script_iff _ rest).mpr
    ⟨⟨stored, encoded, rfl⟩,
      session.identity, storesIdentity_identityBlob session.identity⟩

/-- A record leads back to its session if the sealer restores the key in it. -/
theorem decodeOver_encode
    {sealer : Sealer}
    {master : MasterSecret}
    {session : Session}
    {record : Bytes}
    (encoded : encode sealer master session = .ok record)
    (restores :
      ∀ key, session.key = some key → sealer.Restores master key) :
    decodeOver sealer master (.fresh session.recipient) record =
      (session, .ok .v3) := by
  obtain ⟨stored, keyBytes, storedEncoded, keyEncoded, rfl⟩ :=
    (encode_eq_ok_iff sealer master session record).mp encoded
  have completes := completes_layoutOf storedEncoded keyBytes
  have recognizable := recognizable_layoutOf session
  have stores :
      StoresIdentity (layoutOf session).identityBlob session.identity :=
    storesIdentity_identityBlob session.identity
  have taken :
      (Session.fresh session.recipient).commitAll
          (layoutOf session).script.commits =
        { session with key := none } := by
    rw [commitAll_script _ stores, takenOver_layoutOf]
  cases present : session.key with
  | none =>
      rw [present] at keyEncoded
      cases keyEncoded
      have reads : Reads sealer master (stored ++ []) _ _ :=
        .whole recognizable completes
      rw [reads.decodeOver_eq, taken, ← present]
      rfl
  | some key =>
      rw [present] at keyEncoded
      obtain ⟨blob, encloses, fits, rfl⟩ :=
        (encodeKey_some_eq_ok_iff sealer master key keyBytes).mp keyEncoded
      have discloses : sealer.disclose blob master = .ok key :=
        restores key present blob encloses
      have keyCompletes :
          (keySteps sealer master blob).Completes
            (Wire.blobBytes blob) [] :=
        (completes_keySteps_iff ..).mpr
          ⟨fits, (List.append_nil _).symm, key, discloses⟩
      have reads :
          Reads sealer master (stored ++ Wire.blobBytes blob) _ _ :=
        .sealed recognizable completes (Wire.blobBytes_ne_nil blob)
          keyCompletes
      rw [reads.decodeOver_eq, Session.commitAll_append, taken,
        commits_keySteps discloses]
      simp only [Session.commitAll_cons, Session.commit, ← present]
      rfl

/--
A session has a record exactly when its fingerprints and the blob of its key are
short enough. If the sealer discloses the key that it enclosed, the record tells
the newest format and decodes to the session, in every part.
-/
theorem encode_roundTrip
    (sealer : Sealer)
    (master : MasterSecret)
    (session : Session) :
    ((∃ record, encode sealer master session = .ok record) ↔
        (session.id.localFingerprint.length < Wire.blobLimit ∧
          session.id.remoteFingerprint.length < Wire.blobLimit) ∧
        ∀ key,
          session.key = some key →
          ∃ blob,
            sealer.enclose key master = .ok blob ∧
              blob.length < Wire.blobLimit) ∧
      ∀ record,
        encode sealer master session = .ok record →
        (∀ key, session.key = some key → sealer.Restores master key) →
        formatOf record = .ok .v3 ∧
          decode sealer master session.recipient record =
            .ok (session, .v3) := by
  constructor
  · rw [← exists_encode_layoutOf_iff, ← exists_encodeKey_iff]
    simp only [encode_eq_ok_iff]
    constructor
    · rintro ⟨_, stored, key, storedEncoded, keyEncoded, _⟩
      exact ⟨⟨stored, storedEncoded⟩, key, keyEncoded⟩
    · rintro ⟨⟨stored, storedEncoded⟩, key, keyEncoded⟩
      exact ⟨_, stored, key, storedEncoded, keyEncoded, rfl⟩
  · intro record encoded restores
    constructor
    · obtain ⟨stored, key, storedEncoded, _, rfl⟩ :=
        (encode_eq_ok_iff sealer master session record).mp encoded
      have completes := completes_layoutOf storedEncoded key
      exact formatOf_of_completes (recognizable_layoutOf session) completes
    · simp only [decode, decodeOver_encode encoded restores]

/--
A session with everything in it: a version that is 0 beside one that is unset,
an identity key, both flags differing, and a key sealed under a master secret.
-/
def busySession : Session where
  recipient := 7
  counter := 4294967295
  id := { localFingerprint := [], remoteFingerprint := [1, 2, 3] }
  version := { raw := 0 }
  negotiated := .unset
  identity :=
    some { publicKey := List.replicate 32 9, length_eq := by decide }
  key :=
    some
      { ids := { localId := 1, remoteId := 2 }
        cipher := [4, 5]
        mac := [] }
  verified := true
  prekeyRequired := false

/-- The busy session makes the round trip under the masking sealer. -/
theorem encode_roundTrip_busySession :
    ∃ record,
      encode .masked { bytes := [6] } busySession = .ok record ∧
        formatOf record = .ok .v3 ∧
        decode .masked { bytes := [6] } 7 record =
          .ok (busySession, .v3) := by
  refine ⟨_, rfl, ?_⟩
  refine
    (encode_roundTrip .masked { bytes := [6] } busySession).2 _ rfl ?_
  rintro key ⟨⟩ blob ⟨⟩
  rfl

end PeerSession.Record
