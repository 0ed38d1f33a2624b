import PeerSession.Proofs.Archive.Unguarded
import PeerSession.Proofs.Record.Disclosure

namespace PeerSession

/-!
# Clients with different sealers

Clients may differ in their sealers and master secrets. What they write differs
in the blob of the session key only, and what they read differs in the session
key only. A client that cannot disclose another one's key still loads all the
rest of the session.
-/

/-- A session that is loaded with what the reader's sealer answers for its key. -/
def Loaded.ofAnswer
    (session : Session) :
    Except Key.Error SessionKey →
    Loaded
  | .ok key =>
      { session := { session with key := some key }
        status := .complete .v3 }
  | .error error =>
      { session := { session with key := none }
        status := .incomplete (.decode (.key error)) }

/-- The record of a session is loaded as that session, with the key that the reader can disclose. -/
theorem Loaded.ofRecord_encode
    {sealer : Sealer}
    {master : MasterSecret}
    {session : Session}
    {record : Bytes}
    (written : Record.encode sealer master session = .ok record)
    (reader : Sealer)
    (readerMaster : MasterSecret) :
    let loaded := ofRecord reader readerMaster session.recipient record
    (session.key = none ∧
        loaded = .ok { session := session, status := .complete .v3 }) ∨
      ∃ key blob,
        session.key = some key ∧
          sealer.enclose key master = .ok blob ∧
          loaded =
            .ok (.ofAnswer session (reader.disclose blob readerMaster)) := by
  rcases Record.decodeOver_encode_any written reader readerMaster with
      ⟨keyless, read⟩ | ⟨key, blob, present, encloses, read⟩
  · refine Or.inl ⟨keyless, ?_⟩
    simp only [ofRecord, read]
  · refine Or.inr ⟨key, blob, present, encloses, ?_⟩
    simp only [ofRecord, read]
    cases reader.disclose blob readerMaster <;> rfl

/-- A client loads the record of a session, whoever wrote it, with the key that it can disclose. -/
theorem Client.load_encode
    {σ : Type}
    [Storage.Backend σ]
    (client : Client)
    {archive : Archive σ}
    {sealer : Sealer}
    {master : MasterSecret}
    {session : Session}
    {record : Bytes}
    (allFree : archive.mutexes.AllFree)
    (written : Record.encode sealer master session = .ok record)
    (stored :
      (Storage.Backend.read archive.backend session.recipient).1 =
        .ok record) :
    let attempt := (client.load archive session.recipient).1
    (session.key = none ∧
        attempt =
          .finished { session := session, status := .complete .v3 }) ∨
      ∃ key blob,
        session.key = some key ∧
          sealer.enclose key master = .ok blob ∧
          attempt =
            .finished
              (.ofAnswer session
                (client.sealer.disclose blob client.master)) := by
  intro attempt
  have finished
      {loaded : Loaded}
      (interpreted :
        Loaded.ofRecord client.sealer client.master session.recipient record =
          .ok loaded) :
      attempt = .finished loaded := by
    simp only [attempt, client.load_of_allFree allFree, stored, interpret,
      interpreted, Outcome.ofExcept]
  rcases Loaded.ofRecord_encode written client.sealer client.master with
      ⟨keyless, interpreted⟩ | ⟨key, blob, present, encloses, interpreted⟩
  · exact Or.inl ⟨keyless, finished interpreted⟩
  · exact Or.inr ⟨key, blob, present, encloses, finished interpreted⟩

/--
Two clients, however they seal, write the same octets in front of the blob of the
session key, and the same record if there is no key. When they read the same
octets over the same session, either no blob is handed to a sealer and all is the
same, or the same blob is handed to both and the sessions differ at most in their
keys. What one has written the other one loads with everything but the key, even
if it cannot disclose that.
-/
theorem sealer_decides_key_only
    {σ : Type}
    [Storage.Backend σ]
    (left right : Client) :
    (∀ session leftRecord rightRecord,
        Record.encode left.sealer left.master session = .ok leftRecord →
        Record.encode right.sealer right.master session = .ok rightRecord →
          ∃ stored,
            (Record.layoutOf session).encode = .ok stored ∧
              ((session.key = none ∧
                  leftRecord = stored ∧ rightRecord = stored) ∨
                ∃ key leftBlob rightBlob,
                  session.key = some key ∧
                    left.sealer.enclose key left.master = .ok leftBlob ∧
                    right.sealer.enclose key right.master =
                      .ok rightBlob ∧
                    leftRecord = stored ++ Wire.blobBytes leftBlob ∧
                    rightRecord = stored ++ Wire.blobBytes rightBlob)) ∧
      (∀ session bytes,
        let leftRead :=
          Record.decodeOver left.sealer left.master session bytes
        let rightRead :=
          Record.decodeOver right.sealer right.master session bytes
        ((∀ layout identity blob,
            ¬ Record.HandsOver bytes layout identity blob) ∧
            leftRead = rightRead) ∨
          ∃ layout identity blob,
            Record.HandsOver bytes layout identity blob ∧
              (let taken := layout.takenOver identity session
              leftRead =
                  Record.answered taken layout.format
                    (left.sealer.disclose blob left.master) ∧
                rightRead =
                  Record.answered taken layout.format
                    (right.sealer.disclose blob right.master)) ∧
              { leftRead.1 with key := none } =
                { rightRead.1 with key := none }) ∧
      ∀ (archive : Archive σ) (session : Session) (record : Bytes),
        archive.mutexes.AllFree →
        Record.encode left.sealer left.master session = .ok record →
        (Storage.Backend.read archive.backend session.recipient).1 =
            .ok record →
          let attempt := (right.load archive session.recipient).1
          (session.key = none ∧
              attempt =
                .finished { session := session, status := .complete .v3 }) ∨
            ∃ key blob,
              session.key = some key ∧
                left.sealer.enclose key left.master = .ok blob ∧
                attempt =
                  .finished
                    (.ofAnswer session
                      (right.sealer.disclose blob right.master)) := by
  refine ⟨?_, ?_, ?_⟩
  · intro session leftRecord rightRecord leftWritten rightWritten
    exact Record.encode_alike_up_to_key leftWritten rightWritten
  · intro session bytes
    exact Record.decodeOver_alike_up_to_key ..
  · intro archive session record allFree written stored
    exact right.load_encode allFree written stored

/-- A client that masks session keys with a repeated octet. -/
def maskingClient (octet : UInt8) : Client where
  sealer := .masked
  master := { bytes := [octet] }
  lock := .process

/--
Two clients mask a key with different octets. Their records differ in its blob,
and the one that loads what the other one wrote gets all but the key.
-/
theorem sealer_decides_key_only_maskingClient :
    ∃ leftRecord rightRecord : Bytes,
      leftRecord ≠ rightRecord ∧
        (∃ stored leftBlob rightBlob,
          leftRecord = stored ++ Wire.blobBytes leftBlob ∧
            rightRecord = stored ++ Wire.blobBytes rightBlob) ∧
        let archive : Archive Storage.Memory :=
          .ofBackend (Storage.Memory.empty.put 7 leftRecord)
        ((maskingClient 7).load archive 7).1 =
          .finished
            { session := { Record.busySession with key := none }
              status := .incomplete (.decode (.key .malformedSessionKey)) } := by
  obtain ⟨writesAlike, _, loads⟩ :=
    sealer_decides_key_only (σ := Storage.Memory)
      (maskingClient 6) (maskingClient 7)
  obtain ⟨stored, _, ⟨⟨⟩, _⟩ | ⟨_, leftBlob, rightBlob, _, _, _, splits⟩⟩ :=
    writesAlike Record.busySession _ _ rfl rfl
  refine ⟨_, _, ?_, ⟨stored, leftBlob, rightBlob, splits⟩, ?_⟩
  · decide
  · intro archive
    rcases loads archive Record.busySession _ Guard.Mutexes.allFree_unused
        rfl rfl with ⟨⟨⟩, _⟩ | ⟨_, _, ⟨⟩, ⟨⟩, loaded⟩
    exact loaded

end PeerSession
