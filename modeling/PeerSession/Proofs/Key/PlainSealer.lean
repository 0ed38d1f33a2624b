import PeerSession.Key.Sealer
import PeerSession.Proofs.Wire.Octets

namespace PeerSession

/-!
# Plain blobs

A plain blob lists the values of a session key and nothing else. Reading it back
gives the same key, and no other octets are read as that key. Octets that are no
plain blob end before one does or go on behind one, and either way they are
malformed.
-/

namespace SessionKey

/-- The plain blob of a key consists of the octets of its values, if these fit. -/
theorem toPlain_eq_ok_iff
    (key : SessionKey)
    (blob : Bytes) :
    key.toPlain = .ok blob ↔
      (∀ value ∈ key.plainValues, value.Fits) ∧
        blob = Wire.octets key.plainValues := by
  rw [← Wire.encode_eq_ok_iff, toPlain]
  cases Wire.encode key.plainValues <;> simp

theorem ofPlain_octets
    {key : SessionKey}
    (allFit : ∀ value ∈ key.plainValues, value.Fits) :
    ofPlain (Wire.octets key.plainValues) = .ok key := by
  have read :=
    Wire.Cursor.readAll_octets plainSchema rfl allFit 0 []
  rw [List.append_nil] at read
  simp only [ofPlain, Wire.Cursor.ofBytes, read]
  rfl

theorem ofPlainValues?_eq_some_iff
    (values : List Wire.Value)
    (key : SessionKey) :
    ofPlainValues? values = some key ↔ values = key.plainValues := by
  constructor
  · intro read
    unfold ofPlainValues? at read
    split at read
    · cases read
      rfl
    · cases read
  · rintro rfl
    rfl

/-- Octets that are read as a key are the plain blob of that key. -/
theorem ofPlain_eq_ok_iff
    (blob : Bytes)
    (key : SessionKey) :
    ofPlain blob = .ok key ↔ key.toPlain = .ok blob := by
  rw [toPlain_eq_ok_iff]
  constructor
  · intro disclosed
    unfold ofPlain at disclosed
    split at disclosed
    · cases disclosed
    · rename_i values cursor read
      split at disclosed
      · cases disclosed
      · rename_i found assembled
        split at disclosed
        · rename_i finished
          cases disclosed
          have wordsAndBlobs :
              ∀ entry ∈ plainSchema, entry.1 ≠ .flag := by
            decide
          obtain ⟨allFit, same⟩ :=
            Wire.Cursor.readAll_eq_ok wordsAndBlobs read
          have nothingLeft : cursor.rest = [] :=
            List.length_eq_zero_iff.mp finished
          rw [nothingLeft, List.append_nil] at same
          rw [(ofPlainValues?_eq_some_iff values key).mp assembled]
            at allFit same
          exact ⟨allFit, same⟩
        · cases disclosed
  · rintro ⟨allFit, rfl⟩
    exact ofPlain_octets allFit

/-- The plain blob of a key is its identifiers and its secrets, if these are short enough. -/
theorem toPlain_eq_blobs_iff
    (key : SessionKey)
    (blob : Bytes) :
    key.toPlain = .ok blob ↔
      (key.cipher.length < Wire.blobLimit ∧
          key.mac.length < Wire.blobLimit) ∧
        blob =
          Wire.wordBytes key.ids.localId ++
            Wire.wordBytes key.ids.remoteId ++
            Wire.blobBytes key.cipher ++
            Wire.blobBytes key.mac := by
  simp [toPlain_eq_ok_iff, plainValues, Wire.Value.Fits, Wire.octets,
    Wire.Value.bytes]

/-- A key has a plain blob exactly if both of its secrets are short enough. -/
theorem exists_toPlain_iff (key : SessionKey) :
    (∃ blob, key.toPlain = .ok blob) ↔
      key.cipher.length < Wire.blobLimit ∧
        key.mac.length < Wire.blobLimit := by
  simp only [toPlain_eq_blobs_iff, exists_and_left, exists_eq, and_true]

/-- Octets that are refused are refused as malformed. -/
theorem eq_malformed_of_ofPlain
    {blob : Bytes}
    {error : Key.Error}
    (refused : ofPlain blob = .error error) :
    error = .malformedSessionKey := by
  unfold ofPlain at refused
  split at refused
  · exact (Except.error.inj refused).symm
  · split at refused
    · exact (Except.error.inj refused).symm
    · split at refused
      · cases refused
      · exact (Except.error.inj refused).symm

/-- Octets are malformed exactly if they are not the plain blob of a key. -/
theorem ofPlain_eq_malformed_iff (blob : Bytes) :
    ofPlain blob = .error .malformedSessionKey ↔
      ∀ key : SessionKey, key.toPlain ≠ .ok blob := by
  simp only [ne_eq, ← ofPlain_eq_ok_iff]
  cases read : ofPlain blob with
  | ok key =>
      simp
  | error error =>
      simp [eq_malformed_of_ofPlain read]

/-- With more octets this would be a plain blob. -/
def EndsEarly (blob : Bytes) : Prop :=
  ∃ (key : SessionKey) (missing : Bytes),
    missing ≠ [] ∧ key.toPlain = .ok (blob ++ missing)

/-- There is a plain blob in front of these octets, and more behind it. -/
def GoesOn (blob : Bytes) : Prop :=
  ∃ (key : SessionKey) (whole surplus : Bytes),
    key.toPlain = .ok whole ∧ surplus ≠ [] ∧ blob = whole ++ surplus

/-- No plain blob goes on behind another one. -/
theorem toPlain_append_inj
    {left right : SessionKey}
    {leftBlob rightBlob leftRest rightRest : Bytes}
    (leftPlain : left.toPlain = .ok leftBlob)
    (rightPlain : right.toPlain = .ok rightBlob)
    (same : leftBlob ++ leftRest = rightBlob ++ rightRest) :
    leftRest = rightRest := by
  obtain ⟨leftFit, rfl⟩ := (left.toPlain_eq_ok_iff leftBlob).mp leftPlain
  obtain ⟨rightFit, rfl⟩ :=
    (right.toPlain_eq_ok_iff rightBlob).mp rightPlain
  have kinds :
      left.plainValues.map Wire.Value.kind =
        right.plainValues.map Wire.Value.kind :=
    rfl
  exact (Wire.octets_append_inj kinds leftFit rightFit same).2

/-- Values of the kinds of a plain blob are those of a key. -/
theorem exists_plainValues
    {values : List Wire.Value}
    (kinds : values.map Wire.Value.kind = plainSchema.map Prod.fst) :
    ∃ key : SessionKey, values = key.plainValues := by
  match values with
  | [.word localId, .word remoteId, .blob cipher, .blob mac] =>
      exact
        ⟨{ ids := { localId := localId, remoteId := remoteId }
           cipher := cipher
           mac := mac }, rfl⟩

/-- Octets are no plain blob exactly if they end early or go on behind one. -/
theorem no_plain_blob_iff (blob : Bytes) :
    (∀ key : SessionKey, key.toPlain ≠ .ok blob) ↔
      EndsEarly blob ∨ GoesOn blob := by
  constructor
  · intro isNone
    have notFlags : ∀ kind ∈ plainSchema.map Prod.fst, kind ≠ .flag := by
      decide
    obtain ⟨values, kinds, allFit, split⟩ :=
      Wire.octets_whole_or_cut notFlags blob
    obtain ⟨key, rfl⟩ := exists_plainValues kinds
    have plain : key.toPlain = .ok (Wire.octets key.plainValues) :=
      (key.toPlain_eq_ok_iff _).mpr ⟨allFit, rfl⟩
    rcases split with ⟨surplus, rfl⟩ | ⟨missing, some, same⟩
    · refine Or.inr ⟨key, _, surplus, plain, ?_, rfl⟩
      rintro rfl
      rw [List.append_nil] at isNone
      exact isNone key plain
    · rw [same] at plain
      exact Or.inl ⟨key, missing, some, plain⟩
  · rintro (⟨whole, missing, some, wholePlain⟩ |
        ⟨whole, wholeBlob, surplus, wholePlain, some, rfl⟩) key plain
    · exact some
        (toPlain_append_inj plain wholePlain (List.append_nil _).symm)
    · exact some
        (toPlain_append_inj wholePlain plain (List.append_nil _).symm)

end SessionKey

/-- The plain sealer discloses every key that it encloses. -/
theorem Sealer.plain_restores
    (master : MasterSecret)
    (key : SessionKey) :
    Sealer.plain.Restores master key := by
  intro blob encloses
  obtain ⟨allFit, rfl⟩ := (key.toPlain_eq_ok_iff blob).mp encloses
  exact SessionKey.ofPlain_octets allFit

/--
The plain sealer opens exactly the blobs that it makes, and each one as the key that
it was made of, under any master secrets. A key has a blob if and only if its
secrets are short enough, and the blob is its identifiers and its secrets with their
lengths. Everything else ends before such a blob does or goes on behind one, and is
refused as malformed.
-/
theorem Sealer.plain_discloses_iff_encloses
    (blob : Bytes)
    (key : SessionKey)
    (master other : MasterSecret) :
    (plain.disclose blob master = .ok key ↔
        plain.enclose key other = .ok blob) ∧
      ((∃ sealed, plain.enclose key other = .ok sealed) ↔
        key.cipher.length < Wire.blobLimit ∧
          key.mac.length < Wire.blobLimit) ∧
      (plain.enclose key other = .ok blob ↔
        (key.cipher.length < Wire.blobLimit ∧
            key.mac.length < Wire.blobLimit) ∧
          blob =
            Wire.wordBytes key.ids.localId ++
              Wire.wordBytes key.ids.remoteId ++
              Wire.blobBytes key.cipher ++
              Wire.blobBytes key.mac) ∧
      (plain.disclose blob master = .error .malformedSessionKey ↔
        ∀ present, plain.enclose present other ≠ .ok blob) ∧
      (plain.disclose blob master = .error .malformedSessionKey ↔
        SessionKey.EndsEarly blob ∨ SessionKey.GoesOn blob) := by
  have malformed := SessionKey.ofPlain_eq_malformed_iff blob
  exact
    ⟨SessionKey.ofPlain_eq_ok_iff blob key, key.exists_toPlain_iff,
      key.toPlain_eq_blobs_iff blob, malformed,
      malformed.trans (SessionKey.no_plain_blob_iff blob)⟩

end PeerSession
