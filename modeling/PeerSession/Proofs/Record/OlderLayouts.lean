import PeerSession.Proofs.Record.Acceptance
import PeerSession.Proofs.Record.Interruption

namespace PeerSession.Record

/-!
# Older layouts

What an older layout does not store has a value all the same: the one that the
newest layout would have to store in its place. Reading an older record and
reading the newest one with those values leave a fresh session alike and end
alike, whatever follows the two and wherever it goes wrong.
-/

/-- The layout of the newest format that stores the values which an older one lacks. -/
def Layout.filledIn : Layout → Layout
  | .unmarked counter id =>
      .v3 counter id .unset [] 0 0 .unset
  | .v1 counter id version =>
      .v3 counter id version [] 0 0 version
  | .v2 counter id version identity verified =>
      .v3 counter id version identity verified 0 version
  | .v3 counter id version identity verified prekeyRequired negotiated =>
      .v3 counter id version identity verified prekeyRequired negotiated

/-- How reading ends behind a layout of some format: with an error or without one. -/
def endingOf (format : Format) : Option Error → Except Failure Format
  | none => .ok format
  | some error => .error (.rejected error)

/--
What follows a layout is read in the same way behind every layout: it adds the
same key, if any, and it ends with the format of the layout or the same error.
-/
theorem exists_read_behind
    (sealer : Sealer)
    (master : MasterSecret)
    (tail : Bytes) :
    ∃ (key : Option SessionKey) (error? : Option Error),
      ∀ {layout : Layout} {bytes : Bytes},
        layout.Recognizable →
        layout.script.Completes bytes tail →
        read sealer master bytes =
          { commits := layout.script.commits ++ keyCommits key
            ending := endingOf layout.format error? } := by
  by_cases more : tail = []
  · subst more
    refine ⟨none, none, ?_⟩
    intro layout bytes recognizable completes
    rw [keyCommits, Option.toList_none, List.map_nil, List.append_nil]
    exact (Reads.whole recognizable completes).read_eq
  · obtain ⟨blob, ⟨surplus, keyCompletes⟩ | ⟨done, failure, stops⟩⟩ :=
      decided_keySteps sealer master tail
    · obtain ⟨_, _, key, discloses⟩ :=
        (completes_keySteps_iff ..).mp keyCompletes
      refine ⟨some key, none, ?_⟩
      intro layout bytes recognizable completes
      have read :=
        (Reads.sealed recognizable completes more keyCompletes).read_eq
      rw [commits_keySteps discloses] at read
      exact read
    · obtain ⟨rfl, rejected⟩ := keySteps_stops stops
      have errs : ∃ error, failure = .rejected error := by
        rcases rejected with same | ⟨_, _, _, _, _, same⟩ <;>
          exact ⟨_, same⟩
      obtain ⟨error, rfl⟩ := errs
      refine ⟨none, some error, ?_⟩
      intro layout bytes recognizable completes
      exact (Reads.keyStopped recognizable completes more stops).read_eq

namespace Layout

variable {layout : Layout}

theorem recognizable_filledIn (layout : Layout) :
    layout.filledIn.Recognizable := by
  cases layout <;> trivial

theorem format_filledIn (layout : Layout) :
    layout.filledIn.format = .v3 := by
  cases layout <;> rfl

theorem identityBlob_filledIn (layout : Layout) :
    layout.filledIn.identityBlob = layout.identityBlob := by
  cases layout <;> rfl

/-- The values to fill in are short enough to be stored. -/
theorem exists_encode_filledIn
    {stored : Bytes}
    (encoded : layout.encode = .ok stored) :
    ∃ newer, layout.filledIn.encode = .ok newer := by
  obtain ⟨allFit, _⟩ := (Wire.encode_eq_ok_iff _ stored).mp encoded
  refine ⟨_, (Wire.encode_eq_ok_iff _ _).mpr ⟨?_, rfl⟩⟩
  cases layout <;>
    simpa [filledIn, values, fields, idFields, Wire.Value.Fits,
      Wire.blobLimit] using allFit

/-- A fresh session takes over the same from a layout and from the one filled in. -/
theorem takenOver_filledIn
    {identity : Option IdentityKey}
    (stores : StoresIdentity layout.identityBlob identity)
    (recipient : RecipientId) :
    layout.filledIn.takenOver identity (.fresh recipient) =
      layout.takenOver identity (.fresh recipient) := by
  cases layout with
  | unmarked | v1 =>
      rw [(storesIdentity_nil_iff identity).mp stores]
      rfl
  | v2 | v3 =>
      rfl

/-- The octets of a layout complete the first steps of its script, if these refuse nothing. -/
theorem exists_completes_front
    {front back : Script}
    {stored : Bytes}
    (split : layout.script = front ++ back)
    (unrefused : ∀ failure, .refuse failure ∉ front)
    (encoded : layout.encode = .ok stored)
    (tail : Bytes) :
    ∃ ahead, front.Completes (stored ++ tail) ahead := by
  obtain ⟨allFit, rfl⟩ := (Wire.encode_eq_ok_iff _ stored).mp encoded
  have values : layout.values = front.values ++ back.values := by
    rw [← layout.values_script, split, Script.values_append]
  rw [values] at allFit ⊢
  refine ⟨Wire.octets back.values ++ tail,
    (Script.completes_iff ..).mpr ⟨?_, unrefused, ?_⟩⟩
  · intro value member
    exact allFit value (List.mem_append_left _ member)
  · simp [Wire.octets]

/-- A complete layout with a malformed identity blob makes reading crash. -/
theorem read_malformed
    {stored : Bytes}
    {fault : IdentityKey.Fault}
    (recognizable : layout.Recognizable)
    (encoded : layout.encode = .ok stored)
    (malformed : identityOfBlob layout.identityBlob = .error fault)
    (sealer : Sealer)
    (master : MasterSecret)
    (tail : Bytes) :
    read sealer master (stored ++ tail) =
      { commits :=
          [ .counter layout.counter,
            .id layout.id,
            .version layout.version ]
        ending := .error (.crashed fault) } := by
  obtain ⟨_, split⟩ := script_of_malformed malformed
  have unrefused :
      ∀ failure,
        .refuse failure ∉
          layout.leadingSteps ++
            [.read .identity (.blob layout.identityBlob)] := by
    simp [refuse_notMem_leadingSteps]
  obtain ⟨_, completes⟩ :=
    exists_completes_front split unrefused encoded tail
  exact (Reads.stopped recognizable
    (stops_of_malformed completes malformed)).read_eq

end Layout

/--
An older record, and the newest one that stores what the older one lacks, leave
a fresh session alike when the same octets follow them. Both are read to their
end, each in its own format, or both fail in the same way.
-/
theorem decodeOver_filledIn
    (sealer : Sealer)
    (master : MasterSecret)
    (recipient : RecipientId)
    (layout : Layout)
    (stored tail : Bytes)
    (recognizable : layout.Recognizable)
    (encoded : layout.encode = .ok stored) :
    ∃ newer,
      layout.filledIn.encode = .ok newer ∧
        let fresh := Session.fresh recipient
        let old := decodeOver sealer master fresh (stored ++ tail)
        let new := decodeOver sealer master fresh (newer ++ tail)
        new.1 = old.1 ∧
          ((old.2 = .ok layout.format ∧ new.2 = .ok .v3) ∨
            ∃ failure,
              old.2 = .error failure ∧ new.2 = .error failure) := by
  obtain ⟨newer, newerEncoded⟩ := Layout.exists_encode_filledIn encoded
  have newerRecognizable := layout.recognizable_filledIn
  refine ⟨newer, newerEncoded, ?_⟩
  cases identified : identityOfBlob layout.identityBlob with
  | error fault =>
      have newerMalformed :
          identityOfBlob layout.filledIn.identityBlob = .error fault := by
        rw [layout.identityBlob_filledIn, identified]
      have oldRead :=
        Layout.read_malformed recognizable encoded identified
          sealer master tail
      have newRead :=
        Layout.read_malformed newerRecognizable newerEncoded newerMalformed
          sealer master tail
      simp only [decodeOver, oldRead, newRead]
      refine ⟨?_, Or.inr ⟨.crashed fault, rfl, rfl⟩⟩
      cases layout <;> rfl
  | ok identity =>
      have stores : StoresIdentity layout.identityBlob identity :=
        (identityOfBlob_eq_ok_iff _ identity).mp identified
      have newerStores :
          StoresIdentity layout.filledIn.identityBlob identity := by
        rwa [layout.identityBlob_filledIn]
      have completes : layout.script.Completes (stored ++ tail) tail :=
        (layout.completes_script_iff _ tail).mpr
          ⟨⟨stored, encoded, rfl⟩, identity, stores⟩
      have newerCompletes :
          layout.filledIn.script.Completes (newer ++ tail) tail :=
        (layout.filledIn.completes_script_iff _ tail).mpr
          ⟨⟨newer, newerEncoded, rfl⟩, identity, newerStores⟩
      obtain ⟨key, error?, behind⟩ :=
        exists_read_behind sealer master tail
      simp only [decodeOver, behind recognizable completes,
        behind newerRecognizable newerCompletes, Session.commitAll_append,
        commitAll_script _ stores, commitAll_script _ newerStores,
        Layout.takenOver_filledIn stores, layout.format_filledIn,
        true_and]
      cases error? with
      | none =>
          exact Or.inl ⟨rfl, rfl⟩
      | some error =>
          exact Or.inr ⟨.rejected error, rfl, rfl⟩

/-- A layout of the second versioned format with an identity blob of two octets. -/
def shortIdentityLayout : Layout :=
  .v2 5 { localFingerprint := [1], remoteFingerprint := [] } { raw := 3 }
    [IdentityKey.typeOctet, 7] 2

/-- A layout of the first versioned format, which stores no identity. -/
def firstVersionLayout : Layout :=
  .v1 6 { localFingerprint := [1], remoteFingerprint := [2] } { raw := 4 }

/-- The blob of a key with two identifiers and nothing else, as it follows a layout. -/
def smallKeyBlob : Bytes :=
  [0, 0, 0, 16, 0, 0, 0, 1, 0, 0, 0, 2, 0, 0, 0, 0, 0, 0, 0, 0]

/--
A malformed identity makes reading crash in both formats. Without one both are read to
their end, each in its own format, and the key that follows them is taken over.
-/
theorem decodeOver_filledIn_bothEndings :
    (∃ stored newer,
      shortIdentityLayout.encode = .ok stored ∧
        shortIdentityLayout.filledIn.encode = .ok newer ∧
        let fresh := Session.fresh 7
        let old := decodeOver .plain { bytes := [] } fresh (stored ++ [9])
        let new := decodeOver .plain { bytes := [] } fresh (newer ++ [9])
        new.1 = old.1 ∧
          old.2 = .error (.crashed .tooShort) ∧
          new.2 = .error (.crashed .tooShort)) ∧
      ∃ stored newer,
        firstVersionLayout.encode = .ok stored ∧
          firstVersionLayout.filledIn.encode = .ok newer ∧
          let fresh := Session.fresh 7
          let old :=
            decodeOver .plain { bytes := [] } fresh (stored ++ smallKeyBlob)
          let new :=
            decodeOver .plain { bytes := [] } fresh (newer ++ smallKeyBlob)
          new.1 = old.1 ∧
            old.2 = .ok .v1 ∧
            new.2 = .ok .v3 ∧
            new.1.counter = 6 ∧
            new.1.key =
              some
                { ids := { localId := 1, remoteId := 2 }
                  cipher := []
                  mac := [] } := by
  constructor
  · obtain ⟨newer, newerEncoded, same, ends⟩ :=
      decodeOver_filledIn .plain { bytes := [] } 7 shortIdentityLayout _
        [9] trivial rfl
    refine ⟨_, newer, rfl, newerEncoded, same, rfl, ?_⟩
    rcases ends with ⟨⟨⟩, _⟩ | ⟨_, ⟨⟩, newFails⟩
    exact newFails
  · obtain ⟨newer, newerEncoded, same, ends⟩ :=
      decodeOver_filledIn .plain { bytes := [] } 7 firstVersionLayout _
        smallKeyBlob trivial rfl
    rcases ends with ⟨oldEnds, newEnds⟩ | ⟨_, ⟨⟩, _⟩
    refine ⟨_, newer, rfl, newerEncoded, same, oldEnds, newEnds, ?_, ?_⟩
    · rw [same]
      rfl
    · rw [same]
      rfl

end PeerSession.Record
