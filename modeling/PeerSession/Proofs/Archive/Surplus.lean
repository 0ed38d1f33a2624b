import PeerSession.Proofs.Archive.Rounds
import PeerSession.Proofs.Record.Surplus
import PeerSession.Proofs.Record.Truncation

namespace PeerSession

/-!
# Complete loads

A load is complete exactly if the stored record is decoded. Octets behind the
session key then go unnoticed, so a complete load does not mean that every octet
of the record was accounted for, unless the session has no key.
-/

/-- A record is loaded completely exactly if it is decoded. -/
theorem Loaded.ofRecord_eq_complete_iff
    (sealer : Sealer)
    (master : MasterSecret)
    (recipient : RecipientId)
    (record : Bytes)
    (session : Session)
    (format : Record.Format) :
    ofRecord sealer master recipient record =
        .ok { session := session, status := .complete format } ↔
      Record.decode sealer master recipient record =
        .ok (session, format) := by
  unfold ofRecord Record.decode
  obtain ⟨left, ending⟩ :=
    Record.decodeOver sealer master (.fresh recipient) record
  rcases ending with (error | fault) | read <;> simp

/-- A client that finds a record loads it completely exactly if it is decoded. -/
theorem Client.load_eq_complete_iff
    {σ : Type}
    [Storage.Backend σ]
    (client : Client)
    {archive : Archive σ}
    {recipient : RecipientId}
    {record : Bytes}
    (free :
      (archive.mutexes (client.lock.slot recipient)).isHeld = false)
    (stored :
      (Storage.Backend.read archive.backend recipient).1 = .ok record)
    (session : Session)
    (format : Record.Format) :
    (client.load archive recipient).1 =
        .finished { session := session, status := .complete format } ↔
      Record.decode client.sealer client.master recipient record =
        .ok (session, format) := by
  rw [client.load_eq_finished_iff, stored, interpret,
    Loaded.ofRecord_eq_complete_iff]
  exact and_iff_right free

/--
A record is decoded, and every load that finds it is complete. All its octets are
accounted for exactly if it would not be decoded to the same any more with fewer of
them. That is so if the session has no key, and for every record that was encoded.
If the session has a key, more octets behind the record are never accounted for,
and still it is decoded to the same, and loads that find it are complete.
-/
theorem decoded_accountedFor_iff
    {σ : Type}
    [Storage.Backend σ]
    (client : Client)
    (archive : Archive σ)
    (recipient : RecipientId)
    (record : Bytes)
    (session : Session)
    (format : Record.Format)
    (decoded :
      Record.decode client.sealer client.master recipient record =
        .ok (session, format)) :
    (Record.AccountedFor format record ↔
        ∀ cut < record.length,
          Record.decode client.sealer client.master recipient
              (record.take cut) ≠
            .ok (session, format)) ∧
      (session.key = none → Record.AccountedFor format record) ∧
      (Record.encode client.sealer client.master session = .ok record →
        Record.AccountedFor format record) ∧
      (session.key ≠ none →
        ∀ surplus,
          (Record.AccountedFor format (record ++ surplus) ↔
              Record.AccountedFor format record ∧ surplus = []) ∧
            Record.decode client.sealer client.master recipient
                (record ++ surplus) =
              .ok (session, format)) ∧
      ((archive.mutexes (client.lock.slot recipient)).isHeld = false →
        ∀ surplus,
          (session.key = none → surplus = []) →
          (Storage.Backend.read archive.backend recipient).1 =
              .ok (record ++ surplus) →
            (client.load archive recipient).1 =
              .finished
                { session := session, status := .complete format }) := by
  refine
    ⟨Record.accountedFor_iff_no_shorter decoded,
      Record.accountedFor_of_keyless decoded,
      Record.accountedFor_of_encode decoded, ?_, ?_⟩
  · intro keyed surplus
    exact (Record.decode_append_of_keyed decoded keyed surplus).symm
  · intro free surplus onlyBehindKey stored
    rw [client.load_eq_complete_iff free stored]
    by_cases keyless : session.key = none
    · rw [onlyBehindKey keyless, List.append_nil]
      exact decoded
    · exact (Record.decode_append_of_keyed decoded keyless surplus).1

/-- The octets of the session of which nothing is known but a key. -/
def keyedRecord : Bytes :=
  Wire.octets
    [ .word Record.Format.markerV3,
      .word 0,
      .blob [],
      .blob [],
      .word Version.unset.raw,
      .blob [],
      .word 0,
      .word 0,
      .word Version.unset.raw,
      .blob (Wire.octets [.word 1, .word 2, .blob [], .blob []]) ]

/-- That record with an octet behind it, in a memory. -/
def surplusMemory : Storage.Memory :=
  Storage.Memory.empty.put 7 (keyedRecord ++ [255])

/-- An octet behind the session key is not accounted for, but the load is complete. -/
theorem decoded_accountedFor_iff_surplusMemory :
    let client := Client.standard { bytes := [] }
    Record.encode client.sealer client.master Record.keyedSession =
        .ok keyedRecord ∧
      Record.AccountedFor .v3 keyedRecord ∧
      ¬ Record.AccountedFor .v3 (keyedRecord ++ [255]) ∧
      (client.load (.ofBackend surplusMemory) 7).1 =
        .finished
          { session := Record.keyedSession, status := .complete .v3 } := by
  intro client
  obtain ⟨_, _, accounted, keyed, loads⟩ :=
    decoded_accountedFor_iff client (.ofBackend surplusMemory) 7
      keyedRecord Record.keyedSession .v3 rfl
  have unaccounted := (keyed (by decide) [255]).1
  refine ⟨rfl, accounted rfl, ?_, loads rfl [255] nofun rfl⟩
  rw [unaccounted]
  rintro ⟨_, ⟨⟩⟩

/--
It is not so that a decoded record has all its octets accounted for, nor that
octets behind the session key keep a record from being decoded.
-/
theorem exists_decoded_not_accountedFor :
    (¬ ∀ (sealer : Sealer) (master : MasterSecret)
        (recipient : RecipientId) (record : Bytes) (session : Session)
        (format : Record.Format),
        Record.decode sealer master recipient record =
            .ok (session, format) →
          Record.AccountedFor format record) ∧
      ¬ ∀ (sealer : Sealer) (master : MasterSecret) (session : Session)
          (record surplus : Bytes),
          Record.encode sealer master session = .ok record →
          session.key ≠ none →
          (∀ key, session.key = some key → sealer.Restores master key) →
          surplus ≠ [] →
          ∃ failure,
            Record.decode sealer master session.recipient
                (record ++ surplus) =
              .error failure := by
  constructor
  · intro always
    have accounted :=
      always .plain { bytes := [] } 7 (keyedRecord ++ [255])
        Record.keyedSession .v3 rfl
    have decoded :
        Record.decode .plain { bytes := [] } 7 keyedRecord =
          .ok (Record.keyedSession, .v3) :=
      rfl
    have surplus :=
      (Record.decode_append_of_keyed decoded (by decide) [255]).2
    cases (surplus.mp accounted).2
  · intro always
    obtain ⟨failure, fails⟩ :=
      always .plain { bytes := [] } Record.keyedSession keyedRecord [255]
        rfl (by decide) (fun key _ => Sealer.plain_restores _ key)
        (by decide)
    cases fails

end PeerSession
