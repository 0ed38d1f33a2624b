import PeerSession.Proofs.Record.Addressing
import PeerSession.Proofs.Record.Verification

namespace PeerSession.Record

/-!
# Records that crash

Reading crashes at a stored identity key that does not parse, and at nothing
else. The octets alone decide about that: they start with a marker of one of the
two newest formats and hold all fields up to an identity blob that is neither
empty nor a key. No sealer, no master secret and no session can avoid it, and
nothing that follows the blob can. Octets that are written never do, even if they
are cut off.
-/

/--
A blob is not empty and holds no key. Too few octets are reported as such, and
only with enough of them the type octet is looked at.
-/
def HoldsNoKey
    (blob : Bytes)
    (fault : IdentityKey.Fault) :
    Prop :=
  blob ≠ [] ∧
    ((blob.length < IdentityKey.serializedLength ∧
        fault.reason = "identity key too short") ∨
      (IdentityKey.serializedLength ≤ blob.length ∧
        blob.head? ≠ some IdentityKey.typeOctet ∧
        fault.reason = "unknown identity key type"))

instance
    (blob : Bytes)
    (fault : IdentityKey.Fault) :
    Decidable (HoldsNoKey blob fault) :=
  inferInstanceAs (Decidable (_ ∧ _))

/-- Exactly the blobs that are neither empty nor a key have no identity. -/
theorem identityOfBlob_eq_error_iff
    (blob : Bytes)
    (fault : IdentityKey.Fault) :
    identityOfBlob blob = .error fault ↔ HoldsNoKey blob fault := by
  cases blob with
  | nil =>
      simp [identityOfBlob, HoldsNoKey]
  | cons kind material =>
      have length :
          IdentityKey.serializedLength ≤ material.length + 1 ↔
            32 ≤ material.length := by
        simp only [IdentityKey.serializedLength, IdentityKey.keyLength]
        omega
      rw [identityOfBlob_cons]
      by_cases enough : 32 ≤ material.length
      · by_cases isKey : kind = IdentityKey.typeOctet <;>
          cases fault <;>
            simp [HoldsNoKey, ← Nat.not_le, length, enough, isKey,
              IdentityKey.Fault.reason]
      · cases fault <;>
          simp [HoldsNoKey, ← Nat.not_le, length, enough,
            IdentityKey.Fault.reason]

/-- The values of a record that stores an identity blob, up to that blob. -/
def valuesToIdentity
    (marker counter : UInt32)
    (id : SessionId)
    (version : Version)
    (blob : Bytes) :
    List Wire.Value :=
  [ .word marker,
    .word counter,
    .blob id.localFingerprint,
    .blob id.remoteFingerprint,
    .word version.raw,
    .blob blob ]

/-- Octets hold all fields up to an identity blob, and that blob holds no key. -/
def MalformedIdentity
    (bytes : Bytes)
    (fault : IdentityKey.Fault) :
    Prop :=
  ∃ (marker counter : UInt32) (id : SessionId) (version : Version)
      (blob rest : Bytes),
    (marker = Format.markerV2 ∨ marker = Format.markerV3) ∧
      (∀ value ∈ valuesToIdentity marker counter id version blob,
        value.Fits) ∧
      bytes =
        Wire.octets (valuesToIdentity marker counter id version blob) ++
          rest ∧
      HoldsNoKey blob fault

/-- What follows a malformed identity blob changes nothing about it. -/
theorem MalformedIdentity.append
    {bytes : Bytes}
    {fault : IdentityKey.Fault}
    (malformed : MalformedIdentity bytes fault)
    (tail : Bytes) :
    MalformedIdentity (bytes ++ tail) fault := by
  obtain ⟨marker, counter, id, version, blob, rest, isMarker, allFit, rfl,
    holdsNoKey⟩ := malformed
  exact ⟨marker, counter, id, version, blob, rest ++ tail, isMarker, allFit,
    List.append_assoc .., holdsNoKey⟩

namespace Layout

/-- The steps up to the identity blob. -/
def stepsToIdentity (layout : Layout) : Script :=
  layout.leadingSteps ++
    [.read .identity (.blob layout.identityBlob)]

/-- The steps up to the identity blob refuse nothing, so only their values matter. -/
theorem completes_stepsToIdentity_iff
    (layout : Layout)
    (bytes rest : Bytes) :
    layout.stepsToIdentity.Completes bytes rest ↔
      (∀ value ∈ layout.stepsToIdentity.values, value.Fits) ∧
        bytes = Wire.octets layout.stepsToIdentity.values ++ rest := by
  have unrefused : ∀ failure, .refuse failure ∉ layout.stepsToIdentity := by
    intro failure member
    simp [stepsToIdentity, refuse_notMem_leadingSteps] at member
  rw [Script.completes_iff, and_iff_right unrefused]

end Layout

/-- A malformed identity is what the steps of some layout lead to. -/
theorem malformedIdentity_iff_exists_layout
    (bytes : Bytes)
    (fault : IdentityKey.Fault) :
    MalformedIdentity bytes fault ↔
      ∃ (layout : Layout) (rest : Bytes),
        layout.Recognizable ∧
          layout.stepsToIdentity.Completes bytes rest ∧
          identityOfBlob layout.identityBlob = .error fault := by
  simp only [Layout.completes_stepsToIdentity_iff,
    identityOfBlob_eq_error_iff]
  constructor
  · rintro ⟨marker, counter, id, version, blob, rest, rfl | rfl, allFit,
      same, holdsNoKey⟩
    · exact ⟨.v2 counter id version blob 0, rest, trivial,
        ⟨allFit, same⟩, holdsNoKey⟩
    · exact ⟨.v3 counter id version blob 0 0 version, rest, trivial,
        ⟨allFit, same⟩, holdsNoKey⟩
  · rintro ⟨layout, rest, _, ⟨allFit, same⟩, holdsNoKey⟩
    cases layout with
    | unmarked | v1 =>
        exact (holdsNoKey.1 rfl).elim
    | v2 counter id version blob =>
        exact ⟨Format.markerV2, counter, id, version, blob, rest,
          Or.inl rfl, allFit, same, holdsNoKey⟩
    | v3 counter id version blob =>
        exact ⟨Format.markerV3, counter, id, version, blob, rest,
          Or.inr rfl, allFit, same, holdsNoKey⟩

/-- Reading over a session crashes exactly at a malformed identity. -/
theorem decodeOver_crashed_iff
    (sealer : Sealer)
    (master : MasterSecret)
    (session : Session)
    (bytes : Bytes)
    (fault : IdentityKey.Fault) :
    (decodeOver sealer master session bytes).2 = .error (.crashed fault) ↔
      MalformedIdentity bytes fault := by
  rw [malformedIdentity_iff_exists_layout]
  constructor
  · intro crashed
    obtain ⟨commits, ending, reads⟩ := exists_reads sealer master bytes
    rw [reads.decodeOver_eq] at crashed
    subst crashed
    have interruption := reads.interruption session
    generalize session.commitAll commits = left at interruption
    cases interruption with
    | malformed recognizable completes holdsNoKey =>
        exact ⟨_, _, recognizable, completes, holdsNoKey⟩
  · rintro ⟨layout, rest, recognizable, completes, holdsNoKey⟩
    have reads : Reads sealer master bytes _ (.error (.crashed fault)) :=
      .stopped recognizable (Layout.stops_of_malformed completes holdsNoKey)
    rw [reads.decodeOver_eq]

/-- Reading a session of its own crashes exactly at a malformed identity. -/
theorem decode_crashed_iff
    (sealer : Sealer)
    (master : MasterSecret)
    (recipient : RecipientId)
    (bytes : Bytes)
    (fault : IdentityKey.Fault) :
    decode sealer master recipient bytes = .error (.crashed fault) ↔
      MalformedIdentity bytes fault := by
  rw [← decodeOver_crashed_iff sealer master (.fresh recipient), decode]
  rcases decodeOver sealer master (.fresh recipient) bytes with
      ⟨session, failure | format⟩ <;>
    simp

/-- A session is written with a whole identity key or none, wherever its record is cut off. -/
theorem not_malformedIdentity_take
    {sealer : Sealer}
    {master : MasterSecret}
    {session : Session}
    {record : Bytes}
    (encoded : encode sealer master session = .ok record)
    (count : Nat)
    (fault : IdentityKey.Fault) :
    ¬ MalformedIdentity (record.take count) fault := by
  intro malformed
  have whole : MalformedIdentity record fault := by
    have longer := malformed.append (record.drop count)
    rwa [List.take_append_drop] at longer
  obtain ⟨key, error?, read⟩ :=
    exists_decodeOver_encode encoded sealer master
  have crashed :=
    (decodeOver_crashed_iff sealer master (.fresh session.recipient)
      record fault).mpr whole
  rw [read] at crashed
  cases error? <;> cases crashed

end PeerSession.Record
