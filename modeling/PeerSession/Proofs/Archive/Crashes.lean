import PeerSession.Proofs.Archive.Unguarded
import PeerSession.Proofs.Record.Crashes

namespace PeerSession

/-!
# Operations that crash

Of all operations only loading and opening read a record, so only they can crash,
and only at a malformed identity. They need the recipient's mutex for that: whoever
has to wait for it does not read.
-/

/-- Guarded work crashes if it can start, and fails. -/
theorem Archive.crash?_guarded_iff
    {σ ε α : Type}
    (archive : Archive σ)
    (slot : Guard.Slot)
    (recipient : RecipientId)
    (work : σ → Except ε α × σ)
    (fault : ε) :
    (archive.guarded slot recipient work).1.crash? = some fault ↔
      (archive.mutexes slot).isHeld = false ∧
        (work archive.backend).1 = .error fault := by
  unfold guarded Guard.Mutexes.acquire?
  cases (archive.mutexes slot).isHeld with
  | true =>
      simp [Outcome.crash?]
  | false =>
      rcases work archive.backend with ⟨failed | value, backend⟩ <;>
        simp [Outcome.crash?]

namespace Client

variable {σ : Type} [Storage.Backend σ]

/-- A reply of the backend makes loading crash only if it is a record with a malformed identity. -/
theorem interpret_eq_error_iff
    (client : Client)
    (recipient : RecipientId)
    (answer : Except Storage.Error Bytes)
    (fault : IdentityKey.Fault) :
    client.interpret recipient answer = .error fault ↔
      ∃ record,
        answer = .ok record ∧ Record.MalformedIdentity record fault := by
  cases answer with
  | error error =>
      simp [interpret]
  | ok record =>
      simp only [interpret, Loaded.ofRecord, Except.ok.injEq,
        exists_eq_left',
        ← Record.decodeOver_crashed_iff client.sealer client.master
          (.fresh recipient)]
      rcases Record.decodeOver client.sealer client.master
          (.fresh recipient) record with
          ⟨session, (error | other) | format⟩ <;>
        simp

theorem crash?_load_iff
    (client : Client)
    (archive : Archive σ)
    (recipient : RecipientId)
    (fault : IdentityKey.Fault) :
    (client.load archive recipient).1.crash? = some fault ↔
      (archive.mutexes (client.lock.slot recipient)).isHeld = false ∧
        ∃ record,
          (Storage.Backend.read archive.backend recipient).1 =
              .ok record ∧
            Record.MalformedIdentity record fault := by
  rw [← client.interpret_eq_error_iff recipient]
  exact archive.crash?_guarded_iff ..

theorem crash?_save
    (client : Client)
    (archive : Archive σ)
    (session : Session) :
    (client.save archive session).1.crash? = none := by
  apply Option.eq_none_iff_forall_ne_some.mpr
  intro fault crashed
  unfold save at crashed
  split at crashed
  next error failed =>
    cases crashed
  next record encoded =>
    rw [archive.crash?_guarded_iff] at crashed
    cases crashed.2

theorem crash?_delete
    (client : Client)
    (archive : Archive σ)
    (recipient : RecipientId) :
    (client.delete archive recipient).1.crash? = none := by
  apply Option.eq_none_iff_forall_ne_some.mpr
  intro fault crashed
  rw [delete, archive.crash?_guarded_iff] at crashed
  cases crashed.2

/-- Loading and opening crash at a malformed identity, and nothing else crashes. -/
theorem crash?_perform_iff
    (client : Client)
    (archive : Archive σ)
    (operation : Operation)
    (fault : IdentityKey.Fault) :
    let recipient := operation.recipient
    (client.perform archive operation).1.crash? = some fault ↔
      (operation = .load recipient ∨
          operation = .openSession recipient) ∧
        (archive.mutexes (client.lock.slot recipient)).isHeld = false ∧
        ∃ record,
          (Storage.Backend.read archive.backend recipient).1 =
              .ok record ∧
            Record.MalformedIdentity record fault := by
  cases operation with
  | load recipient =>
      simpa [perform, OperationAnswer.crash?, Operation.recipient] using
        client.crash?_load_iff archive recipient fault
  | openSession recipient =>
      simpa [perform, openSession, OperationAnswer.crash?,
        Operation.recipient] using
        client.crash?_load_iff archive recipient fault
  | save session =>
      simp [perform, OperationAnswer.crash?, crash?_save]
  | delete recipient =>
      simp [perform, OperationAnswer.crash?, crash?_delete]
  | contains recipient =>
      simp [perform, OperationAnswer.crash?]

end Client

/--
A malformed identity is all that makes reading crash. A record of addressable length
is read by position without any other trap: differences, sums, slices and copies
are all in range. Whether reading crashes, over a session or as one of its own,
depends on the octets alone. Of the operations of a client, loading and opening
crash, exactly if they need not wait for the mutex and the backend answers such
octets. No first part of a record that was written makes reading crash.
-/
theorem crash_iff_malformedIdentity
    {σ : Type}
    [Storage.Backend σ]
    (client : Client)
    (session : Session)
    (bytes : Bytes) :
    let read (octets : Bytes) :=
      Record.decodeOver client.sealer client.master session octets
    (bytes.length < Wire.addressLimit →
        Record.decodeByPosition client.sealer client.master session bytes =
          .ok (read bytes)) ∧
      (∀ fault,
        (read bytes).2 = .error (.crashed fault) ↔
          Record.MalformedIdentity bytes fault) ∧
      (∀ recipient fault,
        Record.decode client.sealer client.master recipient bytes =
            .error (.crashed fault) ↔
          Record.MalformedIdentity bytes fault) ∧
      (∀ (archive : Archive σ) (operation : Operation) fault,
        let recipient := operation.recipient
        (client.perform archive operation).1.crash? = some fault ↔
          (operation = .load recipient ∨
              operation = .openSession recipient) ∧
            (archive.mutexes (client.lock.slot recipient)).isHeld = false ∧
            ∃ record,
              (Storage.Backend.read archive.backend recipient).1 =
                  .ok record ∧
                Record.MalformedIdentity record fault) ∧
      ∀ sealer master written record count fault,
        Record.encode sealer master written = .ok record →
          (read (record.take count)).2 ≠ .error (.crashed fault) := by
  intro read
  have crashes (octets : Bytes) (fault : IdentityKey.Fault) :
      (read octets).2 = .error (.crashed fault) ↔
        Record.MalformedIdentity octets fault :=
    Record.decodeOver_crashed_iff ..
  refine ⟨?_, crashes bytes, ?_, ?_, ?_⟩
  · intro addressable
    exact Record.decodeByPosition_eq _ _ session addressable
  · intro recipient fault
    exact Record.decode_crashed_iff ..
  · intro archive operation fault
    exact client.crash?_perform_iff archive operation fault
  · intro sealer master written record count fault encoded crashed
    apply Record.not_malformedIdentity_take encoded count fault
    exact (crashes (record.take count) fault).mp crashed

/-- A record of the second versioned layout, up to an identity blob of another type. -/
def foreignRecord : Bytes :=
  Wire.octets
    (Record.valuesToIdentity Record.Format.markerV2 3 .blank .unset
      (List.replicate 33 6))

/-- A memory with the foreign record as that of recipient 4. -/
def foreignMemory : Storage.Memory :=
  Storage.Memory.empty.put 4 foreignRecord

/--
The foreign record crashes by position, read alone and loaded, and the record of
a session that is cut off within its identity blob does not.
-/
theorem crash_iff_malformedIdentity_foreignRecord :
    let client := Client.standard { bytes := [] }
    let identified : Session :=
      { Session.fresh 4 with
        identity := IdentityKey.ofPublicKey? (List.replicate 32 6) }
    (∃ session,
        Record.decodeByPosition client.sealer client.master identified
            foreignRecord =
          .ok (session, .error (.crashed .unknownType))) ∧
      (client.perform (.ofBackend foreignMemory) (.load 4)).1.crash? =
        some .unknownType ∧
      ∃ record,
        Record.encode client.sealer client.master identified = .ok record ∧
          ∀ fault,
            (Record.decodeOver client.sealer client.master identified
                (record.take 40)).2 ≠
              .error (.crashed fault) := by
  intro client identified
  have malformed : Record.MalformedIdentity foreignRecord .unknownType :=
    ⟨Record.Format.markerV2, 3, .blank, .unset, List.replicate 33 6, [],
      Or.inl rfl, by decide, by simp [foreignRecord], by decide⟩
  obtain ⟨byPosition, crashes, _, operations, written⟩ :=
    crash_iff_malformedIdentity (σ := Storage.Memory) client identified
      foreignRecord
  refine ⟨?_, ?_, ?_⟩
  · rw [byPosition (by decide)]
    exact ⟨_, congrArg Except.ok
      (Prod.ext rfl ((crashes .unknownType).mpr malformed))⟩
  · apply (operations (.ofBackend foreignMemory) (.load 4) _).mpr
    exact ⟨Or.inl rfl, rfl, foreignRecord, rfl, malformed⟩
  · exact ⟨_, rfl, fun fault =>
      written client.sealer client.master identified _ 40 fault rfl⟩

end PeerSession
