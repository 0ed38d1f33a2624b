import PeerSession.Proofs.Record.OlderLayouts
import PeerSession.Proofs.Record.RoundTrip

namespace PeerSession.Record

/-!
# Records that verify a session

A record says that its session is verified if it stores the word 1 for that and
everything in front of that word can be taken over. Reading a record makes a
session verified exactly then, whatever becomes of the rest of the record, and
a session that is written says so exactly if it is verified.
-/

/-- The steps of taking over a record up to the word of the verification. -/
def Layout.stepsToVerified (layout : Layout) : Script :=
  layout.leadingSteps ++
    [ .read .identity (.blob layout.identityBlob),
      identityStep layout.identityBlob,
      .read .verified (.word (layout.verified?.getD 0)) ]

/-- A record says that its session is verified: reading reaches that word, and it is 1. -/
def SaysVerified (bytes : Bytes) : Prop :=
  ∃ (layout : Layout) (rest : Bytes),
    layout.verified? = some 1 ∧
      layout.stepsToVerified.Completes bytes rest

/-- A session is verified after some commits if it was before or if one of them verifies it. -/
theorem verified_commitAll_iff
    (session : Session)
    (commits : List Commit) :
    (session.commitAll commits).verified = true ↔
      session.verified = true ∨ .verified ∈ commits := by
  induction commits generalizing session with
  | nil =>
      simp [Session.commitAll]
  | cons change commits inductionHypothesis =>
      rw [Session.commitAll_cons, inductionHypothesis]
      cases change <;> simp [Session.commit]

theorem verified_mem_identityStep_iff
    (blob : Bytes)
    (script : Script) :
    .verified ∈ Script.commits (identityStep blob :: script) ↔
      .verified ∈ script.commits := by
  unfold identityStep
  cases identityOfBlob blob <;> simp [Script.commits, Step.commit?]

theorem verified_mem_verifiedSteps_iff (word : UInt32) :
    .verified ∈ (verifiedSteps word).commits ↔ word = 1 := by
  unfold verifiedSteps
  by_cases isOne : word = 1 <;> simp [isOne]

namespace Layout

variable {layout : Layout}

/-- A script verifies a session exactly if the layout stores the word 1 for that. -/
theorem verified_mem_script_iff (layout : Layout) :
    .verified ∈ layout.script.commits ↔ layout.verified? = some 1 := by
  rw [layout.commits_script]
  cases layout <;>
    simp [identitySteps, negotiationSteps, verified?,
      verified_mem_identityStep_iff, verified_mem_verifiedSteps_iff]

/-- Behind the word 1 the session becomes verified before anything else is read. -/
theorem script_of_verified
    (isOne : layout.verified? = some 1) :
    layout.script =
      layout.stepsToVerified ++
        .commit .verified :: layout.negotiationSteps := by
  rw [script_eq, identitySteps_of_verified isOne]
  simp [stepsToVerified, isOne, verifiedSteps]

theorem verified_notMem_stepsToVerified (layout : Layout) :
    .verified ∉ layout.stepsToVerified.commits := by
  simp [stepsToVerified, commits_leadingSteps,
    verified_mem_identityStep_iff]

theorem recognizable_of_verified
    {word : UInt32}
    (stored : layout.verified? = some word) :
    layout.Recognizable := by
  cases layout with
  | unmarked | v1 =>
      cases stored
  | v2 | v3 =>
      trivial

/-- What is stored behind the verification can be chosen so that any octets decide it. -/
theorem exists_decided_negotiation
    (isOne : layout.verified? = some 1)
    (bytes : Bytes) :
    ∃ other : Layout,
      other.verified? = some 1 ∧
        other.stepsToVerified = layout.stepsToVerified ∧
        other.negotiationSteps.Decided bytes := by
  cases layout with
  | unmarked | v1 =>
      cases isOne
  | v2 counter id version blob verified =>
      exact ⟨.v2 counter id version blob verified, isOne, rfl,
        .commit _ (.nil bytes)⟩
  | v3 counter id version blob verified _ _ =>
      let prekeyRequired := Wire.wordAhead bytes
      let negotiated := Wire.wordAhead prekeyRequired.2
      exact ⟨.v3 counter id version blob verified prekeyRequired.1
          { raw := negotiated.1 },
        isOne, rfl,
        .word .prekeyRequired (.commit _
          (.word .negotiated (.commit _ (.nil _))))⟩

end Layout

/-- Reading that verifies a session has reached the word 1 in a record. -/
theorem Reads.saysVerified
    {sealer : Sealer}
    {master : MasterSecret}
    {bytes : Bytes}
    {commits : List Commit}
    {ending : Except Failure Format}
    (reads : Reads sealer master bytes commits ending)
    (member : .verified ∈ commits) :
    SaysVerified bytes := by
  -- Once the whole layout is completed, so are its steps up to that word.
  have completed
      {layout : Layout}
      {rest : Bytes}
      (completes : layout.script.Completes bytes rest)
      (inLayout : .verified ∈ layout.script.commits) :
      SaysVerified bytes := by
    have isOne := layout.verified_mem_script_iff.mp inLayout
    rw [Layout.script_of_verified isOne] at completes
    obtain ⟨middle, front, _⟩ :=
      (Script.completes_append_iff ..).mp completes
    exact ⟨layout, middle, isOne, front⟩
  cases reads with
  | whole _ completes =>
      exact completed completes member
  | @sealed layout _ _ blob _ _ completes _ key =>
      obtain ⟨_, _, _, discloses⟩ := (completes_keySteps_iff ..).mp key
      refine completed completes ?_
      simpa [commits_keySteps discloses] using member
  | keyStopped _ completes _ stops =>
      refine completed completes ?_
      simpa [(keySteps_stops stops).1] using member
  | @stopped layout _ _ _ _ stops =>
      have isOne :=
        layout.verified_mem_script_iff.mp (stops.isPrefix.subset member)
      rw [Layout.script_of_verified isOne] at stops
      rcases stops.of_append with
          inFront | ⟨middle, _, front, _, _⟩
      · exact (layout.verified_notMem_stepsToVerified
          (inFront.isPrefix.subset member)).elim
      · exact ⟨layout, middle, isOne, front⟩

/-- A record that says so makes reading verify the session, whatever follows the word. -/
theorem SaysVerified.exists_reads
    {bytes : Bytes}
    (saying : SaysVerified bytes)
    (sealer : Sealer)
    (master : MasterSecret) :
    ∃ commits ending,
      Reads sealer master bytes commits ending ∧ .verified ∈ commits := by
  obtain ⟨first, rest, firstIsOne, firstCompletes⟩ := saying
  obtain ⟨layout, isOne, sameSteps, decided⟩ :=
    Layout.exists_decided_negotiation firstIsOne rest
  have recognizable := Layout.recognizable_of_verified isOne
  have script := Layout.script_of_verified isOne
  rw [← sameSteps] at firstCompletes
  rcases decided with ⟨tail, completes⟩ | ⟨done, failure, stops⟩
  · have whole : layout.script.Completes bytes tail := by
      rw [script]
      exact (Script.completes_append_iff ..).mpr
        ⟨rest, firstCompletes, .commit .verified completes⟩
    obtain ⟨key, error?, behind⟩ := exists_read_behind sealer master tail
    refine ⟨_, _, (reads_iff ..).mpr (behind recognizable whole), ?_⟩
    exact List.mem_append_left _ (layout.verified_mem_script_iff.mpr isOne)
  · have stopsBehind :
        layout.script.Stops bytes
          (layout.stepsToVerified.commits ++ .verified :: done) failure := by
      rw [script]
      exact .append_right firstCompletes (.commit .verified stops)
    exact ⟨_, _, .stopped recognizable stopsBehind, by simp⟩

/--
A session is verified after reading a record over it exactly if it was before or
if the record says so, even when reading fails.
-/
theorem verified_decodeOver_iff
    (sealer : Sealer)
    (master : MasterSecret)
    (session : Session)
    (bytes : Bytes) :
    (decodeOver sealer master session bytes).1.verified = true ↔
      session.verified = true ∨ SaysVerified bytes := by
  obtain ⟨commits, ending, reads⟩ := exists_reads sealer master bytes
  rw [reads.decodeOver_eq, verified_commitAll_iff]
  refine or_congr_right ⟨reads.saysVerified, ?_⟩
  intro saying
  obtain ⟨_, _, others, member⟩ := saying.exists_reads sealer master
  have same := others.read_eq.symm.trans reads.read_eq
  cases same
  exact member

/-- A fresh session is verified after reading a record over it exactly if the record says so. -/
theorem verified_decodeOver_fresh_iff
    (sealer : Sealer)
    (master : MasterSecret)
    (recipient : RecipientId)
    (bytes : Bytes) :
    (decodeOver sealer master (.fresh recipient) bytes).1.verified = true ↔
      SaysVerified bytes :=
  (verified_decodeOver_iff sealer master (.fresh recipient) bytes).trans
    (or_iff_right Bool.false_ne_true)

/-- A session's record is read up to the key as the session itself, and never crashes reading. -/
theorem exists_decodeOver_encode
    {sealer : Sealer}
    {master : MasterSecret}
    {session : Session}
    {record : Bytes}
    (encoded : encode sealer master session = .ok record)
    (reader : Sealer)
    (readerMaster : MasterSecret) :
    ∃ (key : Option SessionKey) (error? : Option Error),
      decodeOver reader readerMaster (.fresh session.recipient) record =
        ({ session with key := key }, endingOf .v3 error?) := by
  obtain ⟨stored, keyBytes, storedEncoded, _, rfl⟩ :=
    (encode_eq_ok_iff sealer master session record).mp encoded
  obtain ⟨key, error?, behind⟩ :=
    exists_read_behind reader readerMaster keyBytes
  have read :=
    behind (recognizable_layoutOf session)
      (completes_layoutOf storedEncoded keyBytes)
  have stores :
      StoresIdentity (layoutOf session).identityBlob session.identity :=
    storesIdentity_identityBlob session.identity
  refine ⟨key, error?, ?_⟩
  simp only [decodeOver, read]
  rw [commitAll_fresh stores, takenOver_layoutOf]
  rfl

/-- The record of a session says that it is verified exactly if it is. -/
theorem saysVerified_encode_iff
    {sealer : Sealer}
    {master : MasterSecret}
    {session : Session}
    {record : Bytes}
    (encoded : encode sealer master session = .ok record) :
    SaysVerified record ↔ session.verified = true := by
  obtain ⟨key, error?, decoded⟩ :=
    exists_decodeOver_encode encoded sealer master
  rw [← verified_decodeOver_fresh_iff sealer master session.recipient record,
    decoded]

end PeerSession.Record
