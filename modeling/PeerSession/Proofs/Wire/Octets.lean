import PeerSession.Wire.Schema

namespace PeerSession.Wire

/-!
# Octets of values

Octets that are still to be read either start with a complete value of the kind
that is asked for, or end inside of it. In the first case the reader takes
exactly that value; in the second it reports the field as truncated, and with
more octets there would be a value. Values are encoded exactly when every one of
them fits.
-/

/-- The octets of several values, one after the other. -/
def octets (values : List Value) : Bytes :=
  values.flatMap Value.bytes

/-- Octets end inside the value that they start with. -/
def Kind.CutIn : Kind → Bytes → Prop
  | .word, bytes => bytes.length < wordSize
  | .flag, bytes => bytes.length < wordSize
  | .blob, bytes =>
      bytes.length < wordSize ∨
        ∃ length body,
          bytes = wordBytes length ++ body ∧
            body.length < length.toNat

/-- Values are encoded exactly when all of them fit, one after the other. -/
theorem encode_eq_ok_iff
    (values : List Value)
    (bytes : Bytes) :
    encode values = .ok bytes ↔
      (∀ value ∈ values, value.Fits) ∧ bytes = octets values := by
  induction values generalizing bytes with
  | nil =>
      simp [encode, octets, eq_comm]
  | cons value rest inductionHypothesis =>
      constructor
      · intro encoded
        simp only [encode] at encoded
        split at encoded
        · cases encoded
        · rename_i front valueEncoded
          split at encoded
          · cases encoded
          · rename_i back restEncoded
            cases encoded
            obtain ⟨fits, rfl⟩ :=
              (value.encode_eq_ok_iff front).mp valueEncoded
            obtain ⟨restFits, rfl⟩ :=
              (inductionHypothesis back).mp restEncoded
            exact ⟨List.forall_mem_cons.mpr ⟨fits, restFits⟩, rfl⟩
      · rintro ⟨allFit, rfl⟩
        obtain ⟨fits, restFits⟩ := List.forall_mem_cons.mp allFit
        have valueEncoded : value.encode = .ok value.bytes :=
          (value.encode_eq_ok_iff value.bytes).mpr ⟨fits, rfl⟩
        have restEncoded : encode rest = .ok (octets rest) :=
          (inductionHypothesis (octets rest)).mpr ⟨restFits, rfl⟩
        simp only [encode, valueEncoded, restEncoded, octets,
          List.flatMap_cons]

theorem blobBytes_ne_nil (blob : Bytes) : blobBytes blob ≠ [] := by
  simp [blobBytes, wordBytes]

/-- The word that octets start with, 0 if they are cut off in it, and what follows. -/
def wordAhead : Bytes → UInt32 × Bytes
  | first :: second :: third :: fourth :: rest =>
      (wordOf first second third fourth, rest)
  | _ => (0, [])

/-- The blob that octets start with, as far as they go, and what follows. -/
def blobAhead (bytes : Bytes) : Bytes × Bytes :=
  let length := (wordAhead bytes).1.toNat
  let body := (wordAhead bytes).2
  (body.take length, body.drop length)

/-- Octets start with the word ahead unless there are too few of them. -/
theorem eq_wordAhead_or_cut (bytes : Bytes) :
    bytes = wordBytes (wordAhead bytes).1 ++ (wordAhead bytes).2 ∨
      bytes.length < wordSize := by
  match bytes with
  | first :: second :: third :: fourth :: rest =>
      refine Or.inl ?_
      simp only [wordAhead, wordBytes_wordOf]
      rfl
  | [] | [_] | [_, _] | [_, _, _] =>
      exact Or.inr (by simp [wordSize])

/-- Octets start with the blob ahead unless they end inside of it. -/
theorem eq_blobAhead_or_cut (bytes : Bytes) :
    ((blobAhead bytes).1.length < blobLimit ∧
        bytes = blobBytes (blobAhead bytes).1 ++ (blobAhead bytes).2) ∨
      Kind.blob.CutIn bytes := by
  rcases eq_wordAhead_or_cut bytes with same | short
  · unfold blobAhead
    generalize (wordAhead bytes).1 = length at same ⊢
    generalize (wordAhead bytes).2 = body at same ⊢
    by_cases enough : length.toNat ≤ body.length
    · have size : (body.take length.toNat).length = length.toNat :=
        List.length_take_of_le enough
      refine Or.inl ⟨?_, ?_⟩
      · rw [size]
        exact length.toNat_lt
      · rw [same, blobBytes, size, UInt32.ofNat_toNat,
          List.append_assoc, List.take_append_drop]
    · exact Or.inr
        (Or.inr ⟨length, body, same, Nat.lt_of_not_le enough⟩)
  · exact Or.inr (Or.inl short)

/-- Octets start with a complete value of a kind, other than a flag, or end inside of it. -/
theorem Kind.complete_or_cut
    {kind : Kind}
    (notFlag : kind ≠ .flag)
    (bytes : Bytes) :
    (∃ (value : Value) (rest : Bytes),
        value.kind = kind ∧ value.Fits ∧ bytes = value.bytes ++ rest) ∨
      kind.CutIn bytes := by
  cases kind with
  | word =>
      rcases eq_wordAhead_or_cut bytes with same | short
      · exact Or.inl ⟨.word _, _, rfl, trivial, same⟩
      · exact Or.inr short
  | flag =>
      exact (notFlag rfl).elim
  | blob =>
      rcases eq_blobAhead_or_cut bytes with ⟨fits, same⟩ | cut
      · exact Or.inl ⟨.blob _, _, rfl, fits, same⟩
      · exact Or.inr cut

/-- Not all octets of a value that fits: they end inside of it. -/
theorem Value.cutIn_take
    (value : Value)
    {cut : Nat}
    (fits : value.Fits)
    (shorter : cut < value.size) :
    value.kind.CutIn (value.bytes.take cut) := by
  cases value with
  | word _ | flag _ =>
      rw [Value.size] at shorter
      simp only [Value.kind, Value.bytes, Kind.CutIn, List.length_take,
        length_wordBytes]
      omega
  | blob contents =>
      rw [Value.size] at shorter
      by_cases inLength : cut < wordSize
      · refine Or.inl ?_
        rw [List.length_take]
        omega
      · have size :
            (UInt32.ofNat contents.length).toNat = contents.length :=
          UInt32.toNat_ofNat_of_lt' fits
        refine Or.inr
          ⟨UInt32.ofNat contents.length,
            contents.take (cut - wordSize), ?_, ?_⟩
        · rw [Value.bytes, blobBytes, List.take_append,
            length_wordBytes,
            List.take_of_length_le (Nat.le_of_not_lt inLength)]
        · rw [size, List.length_take]
          omega

/-- Too few octets for a word are the beginning of one. -/
theorem exists_word_of_short
    {bytes : Bytes}
    (short : bytes.length < wordSize) :
    ∃ (word : UInt32) (missing : Bytes),
      missing ≠ [] ∧ wordBytes word = bytes ++ missing := by
  match bytes with
  | [] =>
      exact ⟨0, wordBytes 0, List.cons_ne_nil _ _, rfl⟩
  | [first] =>
      exact ⟨wordOf first 0 0 0, [0, 0, 0], List.cons_ne_nil _ _, wordBytes_wordOf ..⟩
  | [first, second] =>
      exact ⟨wordOf first second 0 0, [0, 0], List.cons_ne_nil _ _, wordBytes_wordOf ..⟩
  | [first, second, third] =>
      exact ⟨wordOf first second third 0, [0], List.cons_ne_nil _ _, wordBytes_wordOf ..⟩
  | _ :: _ :: _ :: _ :: _ =>
      simp only [List.length_cons, wordSize] at short
      omega

/-- Octets that end inside a blob are the beginning of one that fits. -/
theorem exists_blob_of_cut
    {bytes : Bytes}
    (cut : Kind.blob.CutIn bytes) :
    ∃ (contents missing : Bytes),
      contents.length < blobLimit ∧
        missing ≠ [] ∧ blobBytes contents = bytes ++ missing := by
  rcases cut with short | ⟨length, body, rfl, short⟩
  · obtain ⟨length, missing, some, same⟩ := exists_word_of_short short
    refine ⟨List.replicate length.toNat 0,
      missing ++ List.replicate length.toNat 0, ?_, ?_, ?_⟩
    · rw [List.length_replicate]
      exact length.toNat_lt
    · exact List.append_ne_nil_of_left_ne_nil some _
    · rw [blobBytes, List.length_replicate, UInt32.ofNat_toNat, same,
        List.append_assoc]
  · let missing := List.replicate (length.toNat - body.length) (0 : UInt8)
    have size : (body ++ missing).length = length.toNat := by
      simp only [missing, List.length_append, List.length_replicate]
      omega
    refine ⟨body ++ missing, missing, ?_, ?_, ?_⟩
    · rw [size]
      exact length.toNat_lt
    · apply List.ne_nil_of_length_pos
      rw [List.length_replicate]
      omega
    · rw [blobBytes, size, UInt32.ofNat_toNat, List.append_assoc]

/-- Octets that end inside a value, other than a flag, are the beginning of one that fits. -/
theorem Kind.CutIn.exists_whole
    {kind : Kind}
    {bytes : Bytes}
    (cut : kind.CutIn bytes)
    (notFlag : kind ≠ .flag) :
    ∃ (value : Value) (missing : Bytes),
      value.kind = kind ∧
        value.Fits ∧ missing ≠ [] ∧ value.bytes = bytes ++ missing := by
  cases kind with
  | word =>
      obtain ⟨word, missing, some, same⟩ := exists_word_of_short cut
      exact ⟨.word word, missing, rfl, trivial, some, same⟩
  | flag =>
      exact (notFlag rfl).elim
  | blob =>
      obtain ⟨contents, missing, fits, some, same⟩ :=
        exists_blob_of_cut cut
      exact ⟨.blob contents, missing, rfl, fits, some, same⟩

/-- Octets have values of given kinds, other than flags, in front, or are cut off in them. -/
theorem octets_whole_or_cut
    {kinds : List Kind}
    (notFlags : ∀ kind ∈ kinds, kind ≠ .flag)
    (bytes : Bytes) :
    ∃ values : List Value,
      values.map Value.kind = kinds ∧
        (∀ value ∈ values, value.Fits) ∧
        ((∃ surplus, bytes = octets values ++ surplus) ∨
          ∃ missing, missing ≠ [] ∧ octets values = bytes ++ missing) := by
  induction kinds generalizing bytes with
  | nil =>
      exact ⟨[], rfl, nofun, Or.inl ⟨bytes, rfl⟩⟩
  | cons kind kinds inductionHypothesis =>
      obtain ⟨notFlag, laterNotFlags⟩ :=
        List.forall_mem_cons.mp notFlags
      rcases kind.complete_or_cut notFlag bytes with
          ⟨value, rest, isKind, fits, rfl⟩ | cut
      · obtain ⟨values, areKinds, allFit, split⟩ :=
          inductionHypothesis laterNotFlags rest
        refine ⟨value :: values, ?_,
          List.forall_mem_cons.mpr ⟨fits, allFit⟩, ?_⟩
        · rw [List.map_cons, isKind, areKinds]
        · simp only [octets, List.flatMap_cons, List.append_assoc,
            List.append_cancel_left_eq] at split ⊢
          exact split
      · -- What follows a value that is cut off is free to choose.
        obtain ⟨value, missing, isKind, fits, some, same⟩ :=
          cut.exists_whole notFlag
        obtain ⟨values, areKinds, allFit, _⟩ :=
          inductionHypothesis laterNotFlags []
        refine ⟨value :: values, ?_,
          List.forall_mem_cons.mpr ⟨fits, allFit⟩,
          Or.inr ⟨missing ++ octets values, ?_, ?_⟩⟩
        · rw [List.map_cons, isKind, areKinds]
        · exact List.append_ne_nil_of_left_ne_nil some _
        · simp only [octets, List.flatMap_cons, same, List.append_assoc]

namespace Cursor

/-- A word that is cut off is reported, and the cursor stays. -/
theorem readWord_of_cut
    {cursor : Cursor}
    (field : String)
    (short : cursor.rest.length < wordSize) :
    cursor.readWord field = (.error (.truncated field), cursor) := by
  unfold readWord
  split
  · rename_i shape
    simp only [shape, List.length_cons, wordSize] at short
    omega
  · rfl

/-- A blob that is cut off is reported, wherever that leaves the cursor. -/
theorem readBlob_of_cut
    {cursor : Cursor}
    (field : String)
    (cut : Kind.blob.CutIn cursor.rest) :
    ∃ next,
      cursor.readBlob field = (.error (.truncated field), next) := by
  rcases cut with short | ⟨length, body, shape, short⟩
  · refine ⟨cursor, ?_⟩
    simp only [readBlob, readWord_of_cut field short]
  · obtain ⟨position, rest⟩ := cursor
    subst shape
    refine ⟨{ position := position + wordSize, rest := body }, ?_⟩
    have tooLong : ¬ length.toNat ≤ body.length :=
      Nat.not_le_of_lt short
    simp only [readBlob, readWord_wordBytes, remaining, tooLong,
      ↓reduceIte]

/-- A schema reads back the values that it was written from. -/
theorem readAll_octets
    (schema : Schema)
    {values : List Value}
    (kinds : schema.map Prod.fst = values.map Value.kind)
    (allFit : ∀ value ∈ values, value.Fits)
    (position : Nat)
    (rest : Bytes) :
    readAll
        { position := position, rest := octets values ++ rest }
        schema =
      (.ok values,
        { position := position + (octets values).length
          rest := rest }) := by
  induction schema generalizing values position with
  | nil =>
      cases List.map_eq_nil_iff.mp kinds.symm
      rfl
  | cons entry schema inductionHypothesis =>
      cases values with
      | nil =>
          cases kinds
      | cons value values =>
          obtain ⟨kind, field⟩ := entry
          obtain ⟨rfl, laterKinds⟩ := List.cons.inj kinds
          obtain ⟨fits, laterFit⟩ := List.forall_mem_cons.mp allFit
          have split :
              octets (value :: values) ++ rest =
                value.bytes ++ (octets values ++ rest) :=
            List.append_assoc ..
          have size :
              (octets (value :: values)).length =
                value.size + (octets values).length := by
            simp [octets]
          simp only [readAll, split, read_bytes _ value _ field fits,
            inductionHypothesis laterKinds laterFit, size,
            Nat.add_assoc]

/-- A value that is cut off is reported, wherever that leaves the cursor. -/
theorem read_of_cut
    {cursor : Cursor}
    {kind : Kind}
    (field : String)
    (cut : kind.CutIn cursor.rest) :
    ∃ next,
      cursor.read kind field = (.error (.truncated field), next) := by
  cases kind with
  | word =>
      refine ⟨cursor, ?_⟩
      simp only [read, readWord_of_cut field cut]
  | flag =>
      refine ⟨cursor, ?_⟩
      simp only [read, readFlag, readWord_of_cut field cut]
  | blob =>
      obtain ⟨next, fails⟩ := readBlob_of_cut field cut
      refine ⟨next, ?_⟩
      simp only [read, fails]

/-- Octets start with the value that is read from them, unless it is a flag. -/
theorem read_eq_ok
    {cursor next : Cursor}
    {kind : Kind}
    {field : String}
    {value : Value}
    (notFlag : kind ≠ .flag)
    (reads : cursor.read kind field = (.ok value, next)) :
    value.kind = kind ∧
      value.Fits ∧
      cursor.rest = value.bytes ++ next.rest := by
  rcases Kind.complete_or_cut notFlag cursor.rest with
      ⟨stored, rest, rfl, fits, same⟩ | cut
  · obtain ⟨position, bytes⟩ := cursor
    dsimp only at same
    subst same
    rw [read_bytes position stored rest field fits] at reads
    cases reads
    exact ⟨rfl, fits, rfl⟩
  · obtain ⟨_, fails⟩ := read_of_cut field cut
    rw [fails] at reads
    cases reads

/-- Octets start with the values that a schema without flags reads from them. -/
theorem readAll_eq_ok
    {schema : Schema}
    {cursor last : Cursor}
    {values : List Value}
    (notFlags : ∀ entry ∈ schema, entry.1 ≠ .flag)
    (reads : cursor.readAll schema = (.ok values, last)) :
    (∀ value ∈ values, value.Fits) ∧
      cursor.rest = octets values ++ last.rest := by
  induction schema generalizing cursor values with
  | nil =>
      cases reads
      exact ⟨nofun, rfl⟩
  | cons entry schema inductionHypothesis =>
      obtain ⟨kind, field⟩ := entry
      obtain ⟨notFlag, laterNotFlags⟩ :=
        List.forall_mem_cons.mp notFlags
      simp only [readAll] at reads
      split at reads
      · cases reads
      · rename_i value next first
        split at reads
        · cases reads
        · rename_i later behind second
          cases reads
          obtain ⟨_, fits, same⟩ := read_eq_ok notFlag first
          obtain ⟨laterFit, laterSame⟩ :=
            inductionHypothesis laterNotFlags second
          refine ⟨List.forall_mem_cons.mpr ⟨fits, laterFit⟩, ?_⟩
          rw [same, laterSame]
          exact (List.append_assoc ..).symm

end Cursor

/-- Values of one kind are told apart by their octets, whatever follows them. -/
theorem Value.bytes_append_inj
    (left right : Value)
    {leftRest rightRest : Bytes}
    (kinds : left.kind = right.kind)
    (leftFits : left.Fits)
    (rightFits : right.Fits)
    (same : left.bytes ++ leftRest = right.bytes ++ rightRest) :
    left = right ∧ leftRest = rightRest := by
  have leftRead := Cursor.read_bytes 0 left leftRest "" leftFits
  have rightRead := Cursor.read_bytes 0 right rightRest "" rightFits
  rw [same, kinds, rightRead] at leftRead
  cases leftRead
  exact ⟨rfl, rfl⟩

/-- The same of several values, one after the other. -/
theorem octets_append_inj
    {left right : List Value}
    {leftRest rightRest : Bytes}
    (kinds : left.map Value.kind = right.map Value.kind)
    (leftFit : ∀ value ∈ left, value.Fits)
    (rightFit : ∀ value ∈ right, value.Fits)
    (same : octets left ++ leftRest = octets right ++ rightRest) :
    left = right ∧ leftRest = rightRest := by
  induction left generalizing right with
  | nil =>
      cases List.map_eq_nil_iff.mp kinds.symm
      exact ⟨rfl, same⟩
  | cons value left inductionHypothesis =>
      cases right with
      | nil =>
          cases kinds
      | cons other right =>
          obtain ⟨kind, laterKinds⟩ := List.cons.inj kinds
          obtain ⟨fits, laterFit⟩ := List.forall_mem_cons.mp leftFit
          obtain ⟨otherFits, otherLaterFit⟩ :=
            List.forall_mem_cons.mp rightFit
          simp only [octets, List.flatMap_cons, List.append_assoc] at same
          obtain ⟨rfl, laterSame⟩ :=
            Value.bytes_append_inj value other kind fits otherFits same
          obtain ⟨rfl, restSame⟩ :=
            inductionHypothesis laterKinds laterFit otherLaterFit
              laterSame
          exact ⟨rfl, restSame⟩

end PeerSession.Wire
