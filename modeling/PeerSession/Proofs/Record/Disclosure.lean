import PeerSession.Proofs.Record.Interruption
import PeerSession.Proofs.Record.RoundTrip

namespace PeerSession.Record

/-!
# What the sealer decides

A sealer and a master secret come into play in one place only: where the session
key is enclosed in its blob, and where that blob is disclosed. All octets in
front of the blob are written without them. Reading either does not get as far
as a complete blob, and goes the same way under every sealer, or it has taken
over a whole layout by then, and the sealer's answer decides the rest.
-/

/-- Octets hand a blob over to the sealer: it is complete and behind a whole layout. -/
structure HandsOver
    (bytes : Bytes)
    (layout : Layout)
    (identity : Option IdentityKey)
    (blob : Bytes) :
    Prop where
  recognizable : layout.Recognizable
  stores : StoresIdentity layout.identityBlob identity
  fits : blob.length < Wire.blobLimit
  split :
    ∃ stored surplus,
      layout.encode = .ok stored ∧
        bytes = stored ++ (Wire.blobBytes blob ++ surplus)

/-- How reading ends once the sealer has answered for the blob that it was handed. -/
def answered
    (taken : Session)
    (format : Format) :
    Except Key.Error SessionKey →
    Session × Except Failure Format
  | .ok key => ({ taken with key := some key }, .ok format)
  | .error error => (taken, .error (.rejected (.key error)))

/-- Whatever the sealer answers, it changes nothing but the key. -/
theorem keyless_answered
    (taken : Session)
    (format : Format)
    (answer : Except Key.Error SessionKey) :
    { (answered taken format answer).1 with key := none } =
      { taken with key := none } := by
  cases answer <;> rfl

/-- Once a layout is completed, a complete blob behind it is handed over. -/
theorem exists_handsOver
    {layout : Layout}
    {bytes blob surplus : Bytes}
    (recognizable : layout.Recognizable)
    (completes :
      layout.script.Completes bytes (Wire.blobBytes blob ++ surplus))
    (fits : blob.length < Wire.blobLimit) :
    ∃ identity, HandsOver bytes layout identity blob := by
  obtain ⟨⟨stored, encoded, split⟩, identity, stores⟩ :=
    (layout.completes_script_iff bytes _).mp completes
  exact ⟨identity, recognizable, stores, fits, stored, surplus, encoded,
    split⟩

namespace HandsOver

variable {bytes : Bytes} {layout : Layout}
variable {identity : Option IdentityKey} {blob : Bytes}

theorem completes
    (handsOver : HandsOver bytes layout identity blob) :
    ∃ surplus,
      layout.script.Completes bytes (Wire.blobBytes blob ++ surplus) := by
  obtain ⟨stored, surplus, encoded, split⟩ := handsOver.split
  refine ⟨surplus, (layout.completes_script_iff bytes _).mpr ?_⟩
  exact ⟨⟨stored, encoded, split⟩, identity, handsOver.stores⟩

/-- Reading that hands a blob over depends on the sealer's answer for that blob alone. -/
theorem decodeOver_eq
    (handsOver : HandsOver bytes layout identity blob)
    (sealer : Sealer)
    (master : MasterSecret)
    (session : Session) :
    decodeOver sealer master session bytes =
      answered (layout.takenOver identity session) layout.format
        (sealer.disclose blob master) := by
  obtain ⟨surplus, completes⟩ := handsOver.completes
  have more : Wire.blobBytes blob ++ surplus ≠ [] := by
    simp [Wire.blobBytes_ne_nil]
  have taken := commitAll_script session handsOver.stores
  cases disclosed : sealer.disclose blob master with
  | ok key =>
      have keyCompletes :
          (keySteps sealer master blob).Completes
            (Wire.blobBytes blob ++ surplus) surplus :=
        (completes_keySteps_iff ..).mpr
          ⟨handsOver.fits, rfl, key, disclosed⟩
      have reads :=
        Reads.sealed handsOver.recognizable completes more keyCompletes
      rw [reads.decodeOver_eq, Session.commitAll_append, taken,
        commits_keySteps disclosed]
      rfl
  | error error =>
      have refuses :
          keyStep sealer master blob = .refuse (.rejected (.key error)) := by
        simp only [keyStep, disclosed]
      have stops :
          (keySteps sealer master blob).Stops
            (Wire.blobBytes blob ++ surplus) []
            (.rejected (.key error)) := by
        unfold keySteps
        rw [refuses]
        apply Script.Stops.read .key (.blob blob) handsOver.fits
        exact .here [] (.refused surplus _)
      have reads :=
        Reads.keyStopped handsOver.recognizable completes more stops
      rw [reads.decodeOver_eq, List.append_nil, taken]
      rfl

end HandsOver

/-- What stops taking over a key in front of its sealer stops it under every sealer. -/
theorem keySteps_stops_or_complete
    {sealer : Sealer}
    {master : MasterSecret}
    {blob bytes : Bytes}
    {done : List Commit}
    {failure : Failure}
    (stops : (keySteps sealer master blob).Stops bytes done failure)
    (otherSealer : Sealer)
    (otherMaster : MasterSecret) :
    (keySteps otherSealer otherMaster blob).Stops bytes done failure ∨
      blob.length < Wire.blobLimit ∧
        ∃ surplus, bytes = Wire.blobBytes blob ++ surplus := by
  unfold keySteps at stops ⊢
  cases stops with
  | here _ cut =>
      exact Or.inl (.here _ cut)
  | @read _ surplus _ _ _ _ fits _ =>
      exact Or.inr ⟨fits, surplus, rfl⟩

/-- Reading that hands nothing over goes the same way under every sealer. -/
theorem decodeOver_alike
    {bytes : Bytes}
    (nothing :
      ∀ layout identity blob, ¬ HandsOver bytes layout identity blob)
    (leftSealer rightSealer : Sealer)
    (leftMaster rightMaster : MasterSecret)
    (session : Session) :
    decodeOver leftSealer leftMaster session bytes =
      decodeOver rightSealer rightMaster session bytes := by
  have impossible
      {layout : Layout}
      {blob surplus : Bytes}
      (recognizable : layout.Recognizable)
      (completes :
        layout.script.Completes bytes (Wire.blobBytes blob ++ surplus))
      (fits : blob.length < Wire.blobLimit) :
      False := by
    obtain ⟨identity, handsOver⟩ :=
      exists_handsOver recognizable completes fits
    exact nothing layout identity blob handsOver
  obtain ⟨commits, ending, reads⟩ := exists_reads leftSealer leftMaster bytes
  have same : Reads rightSealer rightMaster bytes commits ending := by
    cases reads with
    | whole recognizable completes =>
        exact .whole recognizable completes
    | stopped recognizable stops =>
        exact .stopped recognizable stops
    | sealed recognizable completes _ key =>
        obtain ⟨fits, rfl, _⟩ := (completes_keySteps_iff ..).mp key
        exact (impossible recognizable completes fits).elim
    | keyStopped recognizable completes more stops =>
        rcases keySteps_stops_or_complete stops rightSealer rightMaster with
            alike | ⟨fits, surplus, rfl⟩
        · exact .keyStopped recognizable completes more alike
        · exact (impossible recognizable completes fits).elim
  rw [reads.decodeOver_eq, same.decodeOver_eq]

/-- A record that holds a key hands its blob over, behind the values of its session. -/
theorem handsOver_of_encode
    {session : Session}
    {stored blob : Bytes}
    (encoded : (layoutOf session).encode = .ok stored)
    (fits : blob.length < Wire.blobLimit) :
    HandsOver (stored ++ Wire.blobBytes blob)
      (layoutOf session) session.identity blob where
  recognizable := recognizable_layoutOf session
  stores := storesIdentity_identityBlob session.identity
  fits := fits
  split := ⟨stored, [], encoded, by rw [List.append_nil]⟩

/-- The octets in front of the key's blob do not depend on how the key is enclosed. -/
theorem encode_eq_stored_append
    {sealer : Sealer}
    {master : MasterSecret}
    {session : Session}
    {stored record : Bytes}
    (encoded : (layoutOf session).encode = .ok stored)
    (written : encode sealer master session = .ok record) :
    (session.key = none ∧ record = stored) ∨
      ∃ key blob,
        session.key = some key ∧
          sealer.enclose key master = .ok blob ∧
          blob.length < Wire.blobLimit ∧
          record = stored ++ Wire.blobBytes blob := by
  obtain ⟨front, keyBytes, frontEncoded, keyEncoded, rfl⟩ :=
    (encode_eq_ok_iff ..).mp written
  have same : front = stored :=
    Except.ok.inj (frontEncoded.symm.trans encoded)
  subst same
  cases present : session.key with
  | none =>
      rw [present] at keyEncoded
      cases keyEncoded
      exact Or.inl ⟨rfl, List.append_nil front⟩
  | some key =>
      rw [present] at keyEncoded
      obtain ⟨blob, encloses, fits, rfl⟩ :=
        (encodeKey_some_eq_ok_iff ..).mp keyEncoded
      exact Or.inr ⟨key, blob, rfl, encloses, fits, rfl⟩

/-- Two records of a session are the same in front of the blobs of its key. -/
theorem encode_alike_up_to_key
    {leftSealer rightSealer : Sealer}
    {leftMaster rightMaster : MasterSecret}
    {session : Session}
    {leftRecord rightRecord : Bytes}
    (leftWritten :
      encode leftSealer leftMaster session = .ok leftRecord)
    (rightWritten :
      encode rightSealer rightMaster session = .ok rightRecord) :
    ∃ stored,
      (layoutOf session).encode = .ok stored ∧
        ((session.key = none ∧
            leftRecord = stored ∧ rightRecord = stored) ∨
          ∃ key leftBlob rightBlob,
            session.key = some key ∧
              leftSealer.enclose key leftMaster = .ok leftBlob ∧
              rightSealer.enclose key rightMaster = .ok rightBlob ∧
              leftRecord = stored ++ Wire.blobBytes leftBlob ∧
              rightRecord = stored ++ Wire.blobBytes rightBlob) := by
  obtain ⟨stored, _, encoded, _, _⟩ := (encode_eq_ok_iff ..).mp leftWritten
  refine ⟨stored, encoded, ?_⟩
  have leftSplit := encode_eq_stored_append encoded leftWritten
  have rightSplit := encode_eq_stored_append encoded rightWritten
  rcases leftSplit with
      ⟨keyless, leftSame⟩ | ⟨key, leftBlob, present, leftEncloses, _, leftIs⟩
  · rcases rightSplit with ⟨_, rightSame⟩ | ⟨_, _, present, _⟩
    · exact Or.inl ⟨keyless, leftSame, rightSame⟩
    · cases keyless.symm.trans present
  · rcases rightSplit with
        ⟨keyless, _⟩ | ⟨_, rightBlob, same, rightEncloses, _, rightIs⟩
    · cases keyless.symm.trans present
    · cases present.symm.trans same
      exact Or.inr ⟨key, leftBlob, rightBlob, present, leftEncloses,
        rightEncloses, leftIs, rightIs⟩

/--
Under two sealers the same octets hand nothing over, and are read alike, or they
hand the same blob over and leave the same session but for the key.
-/
theorem decodeOver_alike_up_to_key
    (leftSealer rightSealer : Sealer)
    (leftMaster rightMaster : MasterSecret)
    (session : Session)
    (bytes : Bytes) :
    let left := decodeOver leftSealer leftMaster session bytes
    let right := decodeOver rightSealer rightMaster session bytes
    ((∀ layout identity blob, ¬ HandsOver bytes layout identity blob) ∧
        left = right) ∨
      ∃ layout identity blob,
        HandsOver bytes layout identity blob ∧
          (let taken := layout.takenOver identity session
          left =
              answered taken layout.format
                (leftSealer.disclose blob leftMaster) ∧
            right =
              answered taken layout.format
                (rightSealer.disclose blob rightMaster)) ∧
          { left.1 with key := none } = { right.1 with key := none } := by
  intro left right
  by_cases reached :
      ∃ layout identity blob, HandsOver bytes layout identity blob
  · obtain ⟨layout, identity, blob, handsOver⟩ := reached
    have leftAnswered :=
      handsOver.decodeOver_eq leftSealer leftMaster session
    have rightAnswered :=
      handsOver.decodeOver_eq rightSealer rightMaster session
    refine Or.inr ⟨layout, identity, blob, handsOver,
      ⟨leftAnswered, rightAnswered⟩, ?_⟩
    simp only [left, right, leftAnswered, rightAnswered, keyless_answered]
  · have nothing :
        ∀ layout identity blob, ¬ HandsOver bytes layout identity blob := by
      intro layout identity blob handsOver
      exact reached ⟨layout, identity, blob, handsOver⟩
    exact Or.inl ⟨nothing, decodeOver_alike nothing ..⟩

/--
A record leads any reader back to its session, apart from the key: without a key
to all of it, and with one to what the reader's sealer makes of the blob.
-/
theorem decodeOver_encode_any
    {sealer : Sealer}
    {master : MasterSecret}
    {session : Session}
    {record : Bytes}
    (written : encode sealer master session = .ok record)
    (reader : Sealer)
    (readerMaster : MasterSecret) :
    let read :=
      decodeOver reader readerMaster (.fresh session.recipient) record
    (session.key = none ∧ read = (session, .ok .v3)) ∨
      ∃ key blob,
        session.key = some key ∧
          sealer.enclose key master = .ok blob ∧
          read =
            answered { session with key := none } .v3
              (reader.disclose blob readerMaster) := by
  obtain ⟨stored, _, encoded, _, _⟩ := (encode_eq_ok_iff ..).mp written
  rcases encode_eq_stored_append encoded written with
      ⟨keyless, rfl⟩ | ⟨key, blob, present, encloses, fits, rfl⟩
  · have restores :
        ∀ key, session.key = some key → reader.Restores readerMaster key := by
      intro key present
      rw [keyless] at present
      cases present
    have written : encode reader readerMaster session = .ok record := by
      refine (encode_eq_ok_iff ..).mpr ⟨record, [], encoded, ?_, ?_⟩
      · rw [keyless]
        rfl
      · exact (List.append_nil record).symm
    exact Or.inl ⟨keyless, decodeOver_encode written restores⟩
  · have read :=
      (handsOver_of_encode encoded fits).decodeOver_eq reader readerMaster
        (.fresh session.recipient)
    rw [takenOver_layoutOf] at read
    exact Or.inr ⟨key, blob, present, encloses, read⟩

end PeerSession.Record
