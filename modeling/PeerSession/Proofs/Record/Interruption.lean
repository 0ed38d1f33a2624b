import PeerSession.Proofs.Record.Contents
import PeerSession.Proofs.Record.Reads

namespace PeerSession.Record

/-!
# Interrupted reading

When reading fails, the session has taken over what was committed by the steps
in front of the one that failed, and nothing else. Fingerprints come in pairs, a
malformed identity key leaves the old one in place, and neither the recipient
nor the session key is ever touched.
-/

theorem read_ne_identityStep
    (field : Field)
    (value : Wire.Value)
    (blob : Bytes) :
    .read field value ≠ identityStep blob := by
  unfold identityStep
  cases identityOfBlob blob <;> simp

theorem read_notMem_verifiedSteps
    (field : Field)
    (value : Wire.Value)
    (word : UInt32) :
    .read field value ∉ verifiedSteps word := by
  unfold verifiedSteps
  split <;> simp

namespace Layout

/-- The steps up to the version in effect, which every layout has. -/
def leadingSteps (layout : Layout) : Script :=
  .read .versionMarker (.word layout.format.firstWord) ::
    (layout.counterSteps ++
      (idSteps layout.id ++ layout.versionSteps))

theorem script_eq (layout : Layout) :
    layout.script =
      layout.leadingSteps ++
        (layout.identitySteps ++ layout.negotiationSteps) := by
  simp only [script, laterSteps, leadingSteps, List.cons_append,
    List.append_assoc]

theorem commits_leadingSteps (layout : Layout) :
    layout.leadingSteps.commits =
      [ .counter layout.counter,
        .id layout.id,
        .version layout.version ] := by
  cases layout <;>
    simp [leadingSteps, counterSteps, idSteps, versionSteps, counter, id,
      version]

theorem refuse_notMem_leadingSteps
    (layout : Layout)
    (failure : Failure) :
    .refuse failure ∉ layout.leadingSteps := by
  cases layout <;>
    simp [leadingSteps, counterSteps, idSteps, versionSteps]

theorem identitySteps_of_verified
    {layout : Layout}
    {verified : UInt32}
    (stored : layout.verified? = some verified) :
    layout.identitySteps =
      .read .identity (.blob layout.identityBlob) ::
        identityStep layout.identityBlob ::
          .read .verified (.word verified) ::
            verifiedSteps verified := by
  cases layout <;> cases stored <;> rfl

theorem key_notMem_commits_script
    (layout : Layout)
    (key : SessionKey) :
    .key key ∉ layout.script.commits := by
  have unidentified (blob : Bytes) :
      .commit (.key key) ≠ identityStep blob := by
    unfold identityStep
    cases identityOfBlob blob <;> simp
  have unverified (word : UInt32) :
      .commit (.key key) ∉ verifiedSteps word := by
    unfold verifiedSteps
    split <;> simp
  have absent : .commit (.key key) ∉ layout.script := by
    cases layout <;>
      simp [script, laterSteps, counterSteps, idSteps, versionSteps,
        identitySteps, negotiationSteps, unidentified, unverified]
  intro member
  obtain ⟨step, inScript, commits⟩ := List.mem_filterMap.mp member
  cases step with
  | commit change =>
      cases commits
      exact absent inScript
  | read | refuse =>
      cases commits

end Layout

/-- Neither fingerprint is taken over before both are complete. -/
theorem done_eq_nil_of_stops_idSteps
    {id : SessionId}
    {bytes : Bytes}
    {done : List Commit}
    {failure : Failure}
    (stops : (idSteps id).Stops bytes done failure) :
    done = [] := by
  unfold idSteps at stops
  cases stops with
  | here =>
      rfl
  | read _ _ _ later =>
      cases later with
      | here =>
          rfl
      | read _ _ _ last =>
          cases last with
          | here _ stops =>
              cases stops
          | commit _ stops =>
              cases stops

namespace Layout

/-- Only the counter is taken over from octets that end inside of a fingerprint. -/
theorem done_eq_of_cut_fingerprint
    {layout : Layout}
    {bytes : Bytes}
    {done : List Commit}
    {field : Field}
    (isFingerprint : field = .localFingerprint ∨ field = .remoteFingerprint)
    (stops :
      layout.script.Stops bytes done (.rejected (.truncated field))) :
    done = [.counter layout.counter] := by
  have split :
      layout.script =
        (.read .versionMarker (.word layout.format.firstWord) ::
            layout.counterSteps) ++
          (idSteps layout.id ++
            (layout.versionSteps ++
              (layout.identitySteps ++ layout.negotiationSteps))) :=
    rfl
  have unrefused :
      .refuse (.rejected (.truncated field)) ∉ layout.script := by
    intro member
    obtain ⟨_, _, impossible⟩ :=
      (layout.refuse_mem_script_iff _).mp member
    cases impossible
  rw [split, List.mem_append, List.mem_append, not_or, not_or] at unrefused
  obtain ⟨inCounterUnrefused, _, beyondUnrefused⟩ := unrefused
  rw [split] at stops
  rcases stops.of_append with inCounter | ⟨_, _, _, behind, rfl⟩
  · refine (Script.Stops.not_truncated ?_ inCounterUnrefused inCounter).elim
    rcases isFingerprint with rfl | rfl <;>
      cases layout <;> simp [counterSteps]
  · rcases behind.of_append with inId | ⟨_, _, _, beyond, _⟩
    · rw [done_eq_nil_of_stops_idSteps inId]
      cases layout <;> rfl
    · refine (Script.Stops.not_truncated ?_ beyondUnrefused beyond).elim
      rcases isFingerprint with rfl | rfl <;>
        cases layout <;>
          simp [versionSteps, identitySteps, negotiationSteps,
            read_ne_identityStep, read_notMem_verifiedSteps]

/-- The script of a layout with a malformed identity blob refuses the record behind that blob. -/
theorem script_of_malformed
    {layout : Layout}
    {fault : IdentityKey.Fault}
    (malformed : identityOfBlob layout.identityBlob = .error fault) :
    ∃ back,
      layout.script =
        (layout.leadingSteps ++
            [.read .identity (.blob layout.identityBlob)]) ++
          .refuse (.crashed fault) :: back := by
  cases stored : layout.verified? with
  | none =>
      cases layout <;> cases stored <;> cases malformed
  | some verified =>
      have refuses :
          identityStep layout.identityBlob =
            .refuse (.crashed fault) := by
        simp only [identityStep, malformed]
      refine
        ⟨.read .verified (.word verified) ::
          (verifiedSteps verified ++ layout.negotiationSteps), ?_⟩
      rw [script_eq, identitySteps_of_verified stored, refuses]
      simp

/--
A crash comes from a malformed identity blob that is complete, and by then the
counter, both fingerprints and the version in effect are taken over.
-/
theorem crash_of_stops
    {layout : Layout}
    {bytes : Bytes}
    {done : List Commit}
    {fault : IdentityKey.Fault}
    (stops : layout.script.Stops bytes done (.crashed fault)) :
    (∃ rest,
        Script.Completes
          (layout.leadingSteps ++
            [.read .identity (.blob layout.identityBlob)])
          bytes rest) ∧
      identityOfBlob layout.identityBlob = .error fault ∧
      done =
        [ .counter layout.counter,
          .id layout.id,
          .version layout.version ] := by
  obtain ⟨_, malformed, same⟩ :=
    (layout.refuse_mem_script_iff _).mp stops.refuse_mem_of_crash
  cases same
  obtain ⟨back, split⟩ := script_of_malformed malformed
  rw [split] at stops
  rcases stops.of_append with
      inFront | ⟨middle, later, completes, behind, rfl⟩
  · have early := inFront.refuse_mem_of_crash
    simp [refuse_notMem_leadingSteps] at early
  · cases behind with
    | here =>
        refine ⟨⟨middle, completes⟩, malformed, ?_⟩
        simp [commits_leadingSteps]

/-- A malformed identity blob that is complete makes reading crash right behind it. -/
theorem stops_of_malformed
    {layout : Layout}
    {bytes ahead : Bytes}
    {fault : IdentityKey.Fault}
    (completes :
      Script.Completes
        (layout.leadingSteps ++
          [.read .identity (.blob layout.identityBlob)])
        bytes ahead)
    (malformed : identityOfBlob layout.identityBlob = .error fault) :
    layout.script.Stops bytes
      [ .counter layout.counter,
        .id layout.id,
        .version layout.version ]
      (.crashed fault) := by
  obtain ⟨back, split⟩ := script_of_malformed malformed
  rw [split]
  have stops :=
    Script.Stops.append_right completes
      (.here back (.refused ahead (.crashed fault)))
  simpa [commits_leadingSteps] using stops

end Layout

/--
Taking over a session key stops inside of its blob, or when the sealer refuses
the complete blob. Nothing is committed in both cases.
-/
theorem keySteps_stops
    {sealer : Sealer}
    {master : MasterSecret}
    {blob bytes : Bytes}
    {done : List Commit}
    {failure : Failure}
    (stops : (keySteps sealer master blob).Stops bytes done failure) :
    done = [] ∧
      (failure = .rejected (.truncated .key) ∨
        ∃ surplus error,
          blob.length < Wire.blobLimit ∧
            bytes = Wire.blobBytes blob ++ surplus ∧
            sealer.disclose blob master = .error error ∧
            failure = .rejected (.key error)) := by
  unfold keySteps at stops
  cases stops with
  | here _ stops =>
      cases stops
      exact ⟨rfl, Or.inl rfl⟩
  | @read _ surplus _ _ _ _ fits later =>
      unfold keyStep at later
      cases disclosed : sealer.disclose blob master with
      | ok key =>
          rw [disclosed] at later
          cases later with
          | here _ stops =>
              cases stops
          | commit _ stops =>
              cases stops
      | error error =>
          rw [disclosed] at later
          cases later with
          | here _ stops =>
              cases stops
              exact ⟨rfl, Or.inr
                ⟨surplus, error, fits, rfl, rfl, rfl⟩⟩

/-- Reading fails exactly if the steps of a record are stopped, and it does not end before. -/
theorem reads_error_iff
    (sealer : Sealer)
    (master : MasterSecret)
    (bytes : Bytes)
    (done : List Commit)
    (failure : Failure) :
    Reads sealer master bytes done (.error failure) ↔
      ∃ (layout : Layout) (blob : Bytes),
        layout.Recognizable ∧
          ¬ layout.script.Completes bytes [] ∧
          Script.Stops (layout.script ++ keySteps sealer master blob)
            bytes done failure := by
  constructor
  · intro reads
    have unfinished
        {layout : Layout}
        (recognizable : layout.Recognizable) :
        ¬ layout.script.Completes bytes [] := by
      intro completes
      have whole : Reads sealer master bytes _ _ :=
        .whole recognizable completes
      have same := reads.read_eq.symm.trans whole.read_eq
      cases congrArg Decoding.ending same
    cases reads with
    | @stopped layout _ _ _ recognizable stops =>
        exact ⟨layout, [], recognizable, unfinished recognizable,
          stops.append_left (keySteps sealer master [])⟩
    | @keyStopped layout _ rest blob _ _ recognizable completes _ stops =>
        exact ⟨layout, blob, recognizable, unfinished recognizable,
          .append_right completes stops⟩
  · rintro ⟨layout, blob, recognizable, unfinished, stops⟩
    rcases stops.of_append with
        inLayout | ⟨rest, later, completes, inKey, rfl⟩
    · exact .stopped recognizable inLayout
    · have more : rest ≠ [] := by
        rintro rfl
        exact unfinished completes
      exact .keyStopped recognizable completes more inKey

/-- No session key is committed before reading fails. -/
theorem Reads.key_notMem
    {sealer : Sealer}
    {master : MasterSecret}
    {bytes : Bytes}
    {done : List Commit}
    {failure : Failure}
    (reads : Reads sealer master bytes done (.error failure))
    (key : SessionKey) :
    .key key ∉ done := by
  intro member
  cases reads with
  | @stopped layout _ _ _ _ stops =>
      exact layout.key_notMem_commits_script key
        (stops.isPrefix.subset member)
  | @keyStopped layout _ _ _ _ _ _ _ _ stops =>
      rw [(keySteps_stops stops).1, List.append_nil] at member
      exact layout.key_notMem_commits_script key member

/-- How reading over a session can fail, and what the session is left as. -/
inductive Interruption
    (sealer : Sealer)
    (master : MasterSecret)
    (session : Session)
    (bytes : Bytes) :
    Session → Failure → Prop where
  /-- The octets end inside of a field; of two fingerprints neither is taken over. -/
  | cut
      {left : Session}
      (field : Field)
      (paired :
        field = .localFingerprint ∨ field = .remoteFingerprint →
          left = { session with counter := left.counter }) :
      Interruption sealer master session bytes
        left (.rejected (.truncated field))
  /-- The identity blob is complete, but malformed; the old key stays. -/
  | malformed
      {layout : Layout}
      {fault : IdentityKey.Fault}
      {ahead : Bytes}
      (recognizable : layout.Recognizable)
      (completes :
        Script.Completes
          (layout.leadingSteps ++
            [.read .identity (.blob layout.identityBlob)])
          bytes ahead)
      (holdsNoKey : identityOfBlob layout.identityBlob = .error fault) :
      Interruption sealer master session bytes
        { session with
          counter := layout.counter
          id := layout.id
          version := layout.version }
        (.crashed fault)
  /-- The sealer refuses a complete blob behind a whole layout, which is taken over. -/
  | refused
      {layout : Layout}
      {identity : Option IdentityKey}
      {error : Key.Error}
      {stored blob surplus : Bytes}
      (recognizable : layout.Recognizable)
      (encoded : layout.encode = .ok stored)
      (stores : StoresIdentity layout.identityBlob identity)
      (fits : blob.length < Wire.blobLimit)
      (split : bytes = stored ++ (Wire.blobBytes blob ++ surplus))
      (refuses : sealer.disclose blob master = .error error) :
      Interruption sealer master session bytes
        (layout.takenOver identity session)
        (.rejected (.key error))

/-- Octets that end inside of a fingerprint change nothing but the counter. -/
theorem Interruption.counter_only
    {sealer : Sealer}
    {master : MasterSecret}
    {session left : Session}
    {bytes : Bytes}
    {failure : Failure}
    {field : Field}
    (interruption :
      Interruption sealer master session bytes left failure)
    (isFingerprint : field = .localFingerprint ∨ field = .remoteFingerprint)
    (cut : failure = .rejected (.truncated field)) :
    left = { session with counter := left.counter } := by
  cases interruption with
  | cut other paired =>
      rw [Failure.rejected.injEq, Error.truncated_inj] at cut
      subst cut
      exact paired isFingerprint
  | malformed | refused =>
      cases cut

theorem Reads.interruption
    {sealer : Sealer}
    {master : MasterSecret}
    {bytes : Bytes}
    {done : List Commit}
    {failure : Failure}
    (reads : Reads sealer master bytes done (.error failure))
    (session : Session) :
    Interruption sealer master session bytes
      (session.commitAll done) failure := by
  cases reads with
  | @stopped layout _ _ _ recognizable stops =>
      rcases stops.cause with ⟨field, _, _, rfl⟩ | refused
      · refine .cut field ?_
        intro isFingerprint
        rw [Layout.done_eq_of_cut_fingerprint isFingerprint stops]
        rfl
      · obtain ⟨fault, _, rfl⟩ :=
          (layout.refuse_mem_script_iff _).mp refused
        obtain ⟨⟨ahead, completes⟩, holdsNoKey, rfl⟩ :=
          Layout.crash_of_stops stops
        exact .malformed recognizable completes holdsNoKey
  | @keyStopped layout _ rest blob _ _ recognizable completes _ stops =>
      obtain ⟨rfl, rfl | ⟨surplus, error, fits, rfl, refuses, rfl⟩⟩ :=
        keySteps_stops stops
      · refine .cut .key ?_
        rintro (impossible | impossible) <;> cases impossible
      · obtain ⟨⟨stored, encoded, split⟩, identity, stores⟩ :=
          (layout.completes_script_iff bytes _).mp completes
        rw [List.append_nil, commitAll_script session stores]
        exact .refused recognizable encoded stores fits split refuses

/--
When reading fails, a session has taken over exactly what the steps in front of
the failing one commit. Its recipient and its key are the old ones. Octets that
end inside of a fingerprint leave both fingerprints alone, a malformed identity
blob leaves the old identity key in place, and a session key is only refused by
the sealer itself, behind a whole layout that was taken over.
-/
theorem decodeOver_keeps_committed
    (sealer : Sealer)
    (master : MasterSecret)
    (session left : Session)
    (bytes : Bytes)
    (failure : Failure) :
    (decodeOver sealer master session bytes = (left, .error failure) ↔
        ∃ (layout : Layout) (blob : Bytes)
            (front : Script) (step : Step) (back : Script) (ahead : Bytes),
          layout.Recognizable ∧
            ¬ layout.script.Completes bytes [] ∧
            layout.script ++ keySteps sealer master blob =
              front ++ step :: back ∧
            front.Completes bytes ahead ∧
            step.StopsAt ahead failure ∧
            left = session.commitAll front.commits) ∧
      (decodeOver sealer master session bytes = (left, .error failure) →
        left.recipient = session.recipient ∧
          left.key = session.key ∧
          Interruption sealer master session bytes left failure) := by
  rw [decodeOver_eq_iff]
  constructor
  · simp only [reads_error_iff, Script.stops_iff_exists_step]
    constructor
    · rintro ⟨_, ⟨layout, blob, recognizable, unfinished, front, step,
        back, ahead, split, completes, stops, rfl⟩, rfl⟩
      exact ⟨layout, blob, front, step, back, ahead, recognizable,
        unfinished, split, completes, stops, rfl⟩
    · rintro ⟨layout, blob, front, step, back, ahead, recognizable,
        unfinished, split, completes, stops, rfl⟩
      exact ⟨_, ⟨layout, blob, recognizable, unfinished, front, step,
        back, ahead, split, completes, stops, rfl⟩, rfl⟩
  · rintro ⟨done, reads, rfl⟩
    exact ⟨session.recipient_commitAll done,
      session.key_commitAll reads.key_notMem,
      reads.interruption session⟩

/-- A session with two fingerprints of one octet each. -/
def pairedSession : Session where
  recipient := 3
  counter := 1
  id := { localFingerprint := [1], remoteFingerprint := [2] }
  version := .unset
  negotiated := .unset
  identity := none
  key := none
  verified := false
  prekeyRequired := false

/-- A record of the first versioned layout that ends inside of the remote fingerprint. -/
def cutRecord : Bytes :=
  Wire.wordBytes Format.markerV1 ++
    Wire.wordBytes 9 ++
    Wire.blobBytes [7] ++
    Wire.wordBytes 2 ++
    [8]

/-- The cut record replaces the counter and neither fingerprint. -/
theorem decodeOver_keeps_committed_cutRecord :
    ∃ left,
      decodeOver .plain { bytes := [] } pairedSession cutRecord =
          (left, .error (.rejected (.truncated .remoteFingerprint))) ∧
        left = { pairedSession with counter := 9 } := by
  refine ⟨_, rfl, ?_⟩
  obtain ⟨_, _, interruption⟩ :=
    (decodeOver_keeps_committed .plain { bytes := [] } pairedSession _
      cutRecord (.rejected (.truncated .remoteFingerprint))).2 rfl
  exact interruption.counter_only (Or.inr rfl) rfl

end PeerSession.Record
