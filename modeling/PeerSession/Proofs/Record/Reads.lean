import PeerSession.Proofs.Record.LayoutReading

namespace PeerSession.Record

/-!
# What reading does

A relation between octets and what reading them yields, told by layouts and
their scripts alone. A record is read to its end if it is a layout and nothing
else, or a layout in front of the blob of a session key; otherwise reading stops
somewhere in the layout or in that blob. Reading yields exactly what the
relation says.
-/

/-- The step that a session key's blob leads to: the sealer discloses it or refuses. -/
def keyStep
    (sealer : Sealer)
    (master : MasterSecret)
    (blob : Bytes) :
    Step :=
  match sealer.disclose blob master with
  | .ok key => .commit (.key key)
  | .error error => .refuse (.rejected (.key error))

/-- The steps of taking over a session key. -/
def keySteps
    (sealer : Sealer)
    (master : MasterSecret)
    (blob : Bytes) :
    Script :=
  [.read .key (.blob blob), keyStep sealer master blob]

/-- What reading octets yields: the commits made and how it ends. -/
inductive Reads
    (sealer : Sealer)
    (master : MasterSecret) :
    Bytes → List Commit → Except Failure Format → Prop where
  /-- The octets are a layout. -/
  | whole
      {layout : Layout}
      {bytes : Bytes}
      (recognizable : layout.Recognizable)
      (completes : layout.script.Completes bytes []) :
      Reads sealer master bytes layout.script.commits (.ok layout.format)
  /-- The octets are a layout, the blob of a session key, and perhaps a surplus. -/
  | sealed
      {layout : Layout}
      {bytes rest blob surplus : Bytes}
      (recognizable : layout.Recognizable)
      (completes : layout.script.Completes bytes rest)
      (more : rest ≠ [])
      (key : (keySteps sealer master blob).Completes rest surplus) :
      Reads sealer master bytes
        (layout.script.commits ++ (keySteps sealer master blob).commits)
        (.ok layout.format)
  /-- The octets stop a layout. -/
  | stopped
      {layout : Layout}
      {bytes : Bytes}
      {done : List Commit}
      {failure : Failure}
      (recognizable : layout.Recognizable)
      (stops : layout.script.Stops bytes done failure) :
      Reads sealer master bytes done (.error failure)
  /-- The octets are a layout, and what follows stops taking over a session key. -/
  | keyStopped
      {layout : Layout}
      {bytes rest blob : Bytes}
      {done : List Commit}
      {failure : Failure}
      (recognizable : layout.Recognizable)
      (completes : layout.script.Completes bytes rest)
      (more : rest ≠ [])
      (stops : (keySteps sealer master blob).Stops rest done failure) :
      Reads sealer master bytes
        (layout.script.commits ++ done)
        (.error failure)

theorem commitKey_follows
    (sealer : Sealer)
    (master : MasterSecret)
    (blob : Bytes) :
    (commitKey sealer master blob).Follows
      [keyStep sealer master blob] () := by
  unfold commitKey keyStep
  cases sealer.disclose blob master with
  | ok key =>
      exact Scan.Follows.commit (.key key)
  | error error =>
      exact Scan.Follows.fail (.rejected (.key error)) ()

theorem scanKey_follows
    (sealer : Sealer)
    (master : MasterSecret)
    (blob : Bytes) :
    (scanKey sealer master false).Follows
      (keySteps sealer master blob) () :=
  (Scan.Follows.blob .key blob).bind
    (commitKey_follows sealer master blob)

/-- A session key is taken over if its blob is complete and the sealer discloses it. -/
theorem completes_keySteps_iff
    (sealer : Sealer)
    (master : MasterSecret)
    (blob bytes surplus : Bytes) :
    (keySteps sealer master blob).Completes bytes surplus ↔
      blob.length < Wire.blobLimit ∧
        bytes = Wire.blobBytes blob ++ surplus ∧
        ∃ key, sealer.disclose blob master = .ok key := by
  rw [Script.completes_iff]
  cases disclosed : sealer.disclose blob master <;>
    simp [keySteps, keyStep, disclosed, Wire.octets, Wire.Value.bytes,
      Wire.Value.Fits]

theorem commits_keySteps
    {sealer : Sealer}
    {master : MasterSecret}
    {blob : Bytes}
    {key : SessionKey}
    (discloses : sealer.disclose blob master = .ok key) :
    (keySteps sealer master blob).commits = [.key key] := by
  simp [keySteps, keyStep, discloses]

theorem run_scanEnd_nil
    (sealer : Sealer)
    (master : MasterSecret)
    (position : Nat) :
    (scanEnd sealer master).run { position := position, rest := [] } =
      { commits := []
        ending := .ok ((), { position := position, rest := [] }) } :=
  rfl

theorem run_scanEnd_of_ne_nil
    (sealer : Sealer)
    (master : MasterSecret)
    (position : Nat)
    {rest : Bytes}
    (more : rest ≠ []) :
    (scanEnd sealer master).run { position := position, rest := rest } =
      (scanKey sealer master false).run
        { position := position, rest := rest } := by
  cases rest with
  | nil =>
      exact (more rfl).elim
  | cons octet rest =>
      have unfinished : (octet :: rest).length ≠ 0 :=
        Nat.succ_ne_zero rest.length
      change
        Scan.continueWith
            { commits := []
              ending := .ok ((octet :: rest).length == 0, _) }
            (scanKey sealer master) =
          _
      rw [beq_false_of_ne unfinished]
      rfl

/-- Once the fields are completed, the commits of what follows are made behind theirs. -/
theorem read_of_completes
    {sealer : Sealer}
    {master : MasterSecret}
    {layout : Layout}
    {bytes rest : Bytes}
    {later : List Commit}
    (ending : Except Failure Unit)
    (recognizable : layout.Recognizable)
    (completes : layout.script.Completes bytes rest)
    (ends :
      ∀ position,
        ∃ behind,
          (scanEnd sealer master).run
              { position := position, rest := rest } =
            { commits := later
              ending := ending.map fun value => (value, behind) }) :
    read sealer master bytes =
      { commits := layout.script.commits ++ later
        ending := ending.map fun _ => layout.format } := by
  obtain ⟨between, fields⟩ :=
    (scanFields_follows recognizable).completes 0 completes
  obtain ⟨behind, last⟩ := ends between
  unfold read
  rw [scan_eq, Wire.Cursor.ofBytes, Scan.run_bind, fields]
  simp only [Scan.continueWith, Scan.run_bind, last]
  cases ending with
  | ok value =>
      simp only [Except.map, Scan.run_pure, List.append_nil]
  | error failure =>
      simp only [Except.map]

/-- What the relation tells is what reading yields. -/
theorem Reads.read_eq
    {sealer : Sealer}
    {master : MasterSecret}
    {bytes : Bytes}
    {commits : List Commit}
    {ending : Except Failure Format}
    (reads : Reads sealer master bytes commits ending) :
    read sealer master bytes =
      { commits := commits, ending := ending } := by
  cases reads with
  | @whole layout _ recognizable completes =>
      have finished :
          read sealer master bytes =
            { commits := layout.script.commits ++ []
              ending := .ok layout.format } :=
        read_of_completes (.ok ()) recognizable completes
          fun position => ⟨_, run_scanEnd_nil sealer master position⟩
      rwa [List.append_nil] at finished
  | sealed recognizable completes more key =>
      refine read_of_completes (.ok ()) recognizable completes ?_
      intro position
      obtain ⟨behind, disclosed⟩ :=
        (scanKey_follows sealer master _).completes position key
      rw [run_scanEnd_of_ne_nil sealer master position more]
      exact ⟨_, disclosed⟩
  | stopped recognizable stops =>
      unfold read
      rw [scan_eq, Wire.Cursor.ofBytes, Scan.run_bind,
        (scanFields_follows recognizable).stops 0 stops]
      rfl
  | @keyStopped _ _ _ _ _ failure recognizable completes more stops =>
      refine read_of_completes (.error failure) recognizable completes ?_
      intro position
      rw [run_scanEnd_of_ne_nil sealer master position more]
      exact ⟨Wire.Cursor.ofBytes [],
        (scanKey_follows sealer master _).stops position stops⟩

/-- A session becomes what the relation tells, wherever reading ends. -/
theorem Reads.decodeOver_eq
    {sealer : Sealer}
    {master : MasterSecret}
    {bytes : Bytes}
    {commits : List Commit}
    {ending : Except Failure Format}
    (reads : Reads sealer master bytes commits ending)
    (session : Session) :
    decodeOver sealer master session bytes =
      (session.commitAll commits, ending) := by
  simp only [decodeOver, reads.read_eq]

theorem decided_keySteps
    (sealer : Sealer)
    (master : MasterSecret)
    (bytes : Bytes) :
    ∃ blob, (keySteps sealer master blob).Decided bytes := by
  refine ⟨(Wire.blobAhead bytes).1, .blob .key ?_⟩
  unfold keyStep
  cases sealer.disclose (Wire.blobAhead bytes).1 master with
  | ok key =>
      exact .commit (.key key) (.nil _)
  | error error =>
      exact .refuse _ [] _

/-- The relation tells something of all octets. -/
theorem exists_reads
    (sealer : Sealer)
    (master : MasterSecret)
    (bytes : Bytes) :
    ∃ commits ending, Reads sealer master bytes commits ending := by
  have recognizable := recognizable_layoutAhead bytes
  rcases decided_layoutAhead bytes with
      ⟨rest, completes⟩ | ⟨done, failure, stops⟩
  · by_cases more : rest = []
    · subst more
      exact ⟨_, _, .whole recognizable completes⟩
    · obtain ⟨blob, ⟨surplus, key⟩ | ⟨done, failure, stops⟩⟩ :=
        decided_keySteps sealer master rest
      · exact ⟨_, _, .sealed recognizable completes more key⟩
      · exact ⟨_, _, .keyStopped recognizable completes more stops⟩
  · exact ⟨_, _, .stopped recognizable stops⟩

/-- Reading yields exactly what the relation tells. -/
theorem reads_iff
    (sealer : Sealer)
    (master : MasterSecret)
    (bytes : Bytes)
    (commits : List Commit)
    (ending : Except Failure Format) :
    Reads sealer master bytes commits ending ↔
      read sealer master bytes =
        { commits := commits, ending := ending } := by
  constructor
  · exact Reads.read_eq
  · intro same
    obtain ⟨_, _, reads⟩ := exists_reads sealer master bytes
    rw [reads.read_eq, Decoding.mk.injEq] at same
    obtain ⟨rfl, rfl⟩ := same
    exact reads

/-- What reading yields, a session takes over. -/
theorem decodeOver_eq_iff
    (sealer : Sealer)
    (master : MasterSecret)
    (session left : Session)
    (bytes : Bytes)
    (ending : Except Failure Format) :
    decodeOver sealer master session bytes = (left, ending) ↔
      ∃ commits,
        Reads sealer master bytes commits ending ∧
          left = session.commitAll commits := by
  simp only [reads_iff, decodeOver, Prod.mk.injEq]
  cases read sealer master bytes with
  | mk commits reached =>
      simp only [Decoding.mk.injEq]
      constructor
      · rintro ⟨rfl, rfl⟩
        exact ⟨commits, ⟨rfl, rfl⟩, rfl⟩
      · rintro ⟨_, ⟨rfl, rfl⟩, rfl⟩
        exact ⟨rfl, rfl⟩

end PeerSession.Record
