import PeerSession.Proofs.Wire.Requests

namespace PeerSession.Wire

/-!
# Buffers and schemas

A buffer holds the octets of the values that were accepted, one after the other.
Asking for their kinds in the same order gives these values back, whatever follows
the buffer. In the other direction, values that a schema without flags reads are
written again as the octets that were read.
-/

/-- The buffer behind several writes, whether they were refused or not. -/
def appendAll (buffer : Bytes) : List Value → Bytes
  | [] => buffer
  | value :: values => appendAll (append buffer value).2 values

/-- A write among others finds the buffer that the earlier ones left. -/
theorem appendEach_append_cons
    (buffer : Bytes)
    (earlier later : List Value)
    (value : Value) :
    appendEach buffer (earlier ++ value :: later) =
      appendEach buffer earlier ++
        append (appendAll buffer earlier) value ::
          appendEach (append (appendAll buffer earlier) value).2 later := by
  induction earlier generalizing buffer with
  | nil =>
      rfl
  | cons first earlier inductionHypothesis =>
      simp only [List.cons_append, appendEach, appendAll,
        inductionHypothesis]

/-- A value that fits goes behind the buffer. -/
theorem append_of_fits
    {value : Value}
    (fits : value.Fits)
    (buffer : Bytes) :
    append buffer value = (.ok (), buffer ++ value.bytes) := by
  have encoded : value.encode = .ok value.bytes :=
    (value.encode_eq_ok_iff value.bytes).mpr ⟨fits, rfl⟩
  simp only [append, encoded]

/-- A value that does not fit is an over-long blob, and is refused as such. -/
theorem append_of_not_fits
    {value : Value}
    (tooLong : ¬ value.Fits)
    (buffer : Bytes) :
    ∃ contents,
      value = .blob contents ∧
        blobLimit ≤ contents.length ∧
        append buffer value =
          (.error (.blobTooLarge contents.length), buffer) := by
  cases value with
  | word _ | flag _ =>
      exact (tooLong trivial).elim
  | blob contents =>
      refine ⟨contents, rfl, Nat.le_of_not_lt tooLong, ?_⟩
      have refused :
          (Value.blob contents).encode =
            .error (.blobTooLarge contents.length) :=
        if_neg tooLong
      simp only [append, refused]

/-- What a write leaves: only a refused one leaves the buffer as it was. -/
theorem append_snd_eq (buffer : Bytes) (value : Value) :
    (append buffer value).2 =
      if value.Fits then buffer ++ value.bytes else buffer := by
  by_cases fits : value.Fits
  · rw [append_of_fits fits, if_pos fits]
  · obtain ⟨_, _, _, appended⟩ := append_of_not_fits fits buffer
    rw [appended, if_neg fits]

/-- Exactly the blobs that are too long are refused, with their length. -/
theorem append_eq_error_iff
    (buffer : Bytes)
    (value : Value)
    (error : Error) :
    (append buffer value).1 = .error error ↔
      ∃ contents,
        value = .blob contents ∧
          blobLimit ≤ contents.length ∧
          error = .blobTooLarge contents.length := by
  constructor
  · intro refused
    by_cases fits : value.Fits
    · rw [append_of_fits fits] at refused
      cases refused
    · obtain ⟨contents, isBlob, long, appended⟩ :=
        append_of_not_fits fits buffer
      rw [appended] at refused
      exact ⟨contents, isBlob, long, (Except.error.inj refused).symm⟩
  · rintro ⟨contents, rfl, long, rfl⟩
    have tooLong : ¬ (Value.blob contents).Fits :=
      Nat.not_lt_of_le long
    obtain ⟨_, isBlob, _, appended⟩ := append_of_not_fits tooLong buffer
    cases isBlob
    rw [appended]

/-- The values that are accepted. -/
def accepted (values : List Value) : List Value :=
  values.filter fun value => value.Fits

theorem accepted_cons_of_fits
    {value : Value}
    (fits : value.Fits)
    (values : List Value) :
    accepted (value :: values) = value :: accepted values :=
  List.filter_cons_of_pos (decide_eq_true fits)

theorem accepted_cons_of_not_fits
    {value : Value}
    (tooLong : ¬ value.Fits)
    (values : List Value) :
    accepted (value :: values) = accepted values :=
  List.filter_cons_of_neg (by simpa using tooLong)

/-- A buffer grows by the octets of the accepted values. -/
theorem appendAll_eq (buffer : Bytes) (values : List Value) :
    appendAll buffer values = buffer ++ octets (accepted values) := by
  induction values generalizing buffer with
  | nil =>
      exact (List.append_nil buffer).symm
  | cons value values inductionHypothesis =>
      rw [appendAll, inductionHypothesis, append_snd_eq]
      by_cases fits : value.Fits
      · rw [if_pos fits, accepted_cons_of_fits fits, octets, octets,
          List.flatMap_cons, List.append_assoc]
      · rw [if_neg fits, accepted_cons_of_not_fits fits]

theorem fits_of_mem_accepted
    {values : List Value}
    {value : Value}
    (member : value ∈ accepted values) :
    value.Fits :=
  of_decide_eq_true (List.mem_filter.mp member).2

/-- Values that all fit are all accepted. -/
theorem accepted_eq_self
    {values : List Value}
    (allFit : ∀ value ∈ values, value.Fits) :
    accepted values = values :=
  List.filter_eq_self.mpr fun value member =>
    decide_eq_true (allFit value member)

namespace Cursor

/-- A whole schema is read exactly if each of its requests succeeds. -/
theorem readAll_eq_ok_iff
    (cursor last : Cursor)
    (schema : Schema)
    (values : List Value) :
    cursor.readAll schema = (.ok values, last) ↔
      (cursor.readEach schema).map Prod.fst = values.map .ok ∧
        last = cursor.after schema := by
  induction schema generalizing cursor values with
  | nil =>
      constructor
      · intro reads
        cases reads
        exact ⟨rfl, rfl⟩
      · rintro ⟨answers, rfl⟩
        cases List.map_eq_nil_iff.mp answers.symm
        rfl
  | cons entry schema inductionHypothesis =>
      obtain ⟨kind, field⟩ := entry
      simp only [readAll, readEach, after]
      obtain ⟨error | value, next⟩ := cursor.read kind field
      · constructor
        · intro reads
          cases reads
        · rintro ⟨answers, _⟩
          cases values <;> cases answers
      · constructor
        · intro reads
          dsimp only at reads
          split at reads
          · cases reads
          · rename_i later behind readsLater
            cases reads
            obtain ⟨answers, isLast⟩ :=
              (inductionHypothesis next later).mp readsLater
            exact ⟨by rw [List.map_cons, List.map_cons, answers], isLast⟩
        · rintro ⟨answers, isLast⟩
          cases values with
          | nil =>
              cases answers
          | cons first later =>
              obtain ⟨same, laterAnswers⟩ := List.cons.inj answers
              cases same
              have readsLater :=
                (inductionHypothesis next later).mpr
                  ⟨laterAnswers, isLast⟩
              simp only [readsLater]

/-- Octets up to the last position are those of the values that a schema reads. -/
theorem octets_of_readAll
    {bytes : Bytes}
    {schema : Schema}
    {values : List Value}
    {last : Cursor}
    (notFlags : ∀ entry ∈ schema, entry.1 ≠ .flag)
    (reads : (ofBytes bytes).readAll schema = (.ok values, last)) :
    last.position ≤ bytes.length ∧
      (∀ value ∈ values, value.Fits) ∧
      octets values = bytes.take last.position := by
  obtain ⟨_, rfl⟩ := (readAll_eq_ok_iff _ _ schema values).mp reads
  obtain ⟨allFit, same⟩ := readAll_eq_ok notFlags reads
  have within := (within_ofBytes bytes).after schema
  refine ⟨within.position_le, allFit, ?_⟩
  rw [within.rest_eq] at same
  apply List.append_cancel_right
  exact same.symm.trans (List.take_append_drop _ bytes).symm

end Cursor

/--
Fields are written one after the other. Each write makes the buffer longer by the
octets of its value, except for blobs that are too long: these are refused with
their length and leave the buffer as it was. Whatever follows the buffer, asking for
the accepted fields by their kinds gives their values, and leaves the cursor behind
the buffer with all the rest ahead. Values that any octets give to a schema without
flags are in turn all accepted, and their buffer is what was read.
-/
theorem written_fields_read_back
    (fields : List (Value × String))
    (surplus : Bytes) :
    let written := fields.map Prod.fst
    let kept := fields.filter fun field => field.1.Fits
    let schema : Schema := kept.map fun field => (field.1.kind, field.2)
    let buffer := appendAll [] written
    let start := Cursor.ofBytes (buffer ++ surplus)
    (∀ value later,
        appendEach [] (written ++ value :: later) =
          appendEach [] written ++
            append buffer value ::
              appendEach (append buffer value).2 later) ∧
      (∀ value,
        (append buffer value).2 =
            (if value.Fits then buffer ++ value.bytes else buffer) ∧
          (append buffer value).2.length =
            (if value.Fits then buffer.length + value.size
              else buffer.length) ∧
          ∀ error,
            (append buffer value).1 = .error error ↔
              ∃ contents,
                value = .blob contents ∧
                  blobLimit ≤ contents.length ∧
                  error = .blobTooLarge contents.length) ∧
      (∃ last,
        start.readAll schema = (.ok (kept.map Prod.fst), last) ∧
          (start.readEach schema).map Prod.fst =
            (kept.map Prod.fst).map .ok ∧
          last = start.after schema ∧
          last.position = buffer.length ∧
          last.rest = surplus ∧
          last.remaining = surplus.length) ∧
      ∀ bytes asked values last,
        (∀ entry ∈ asked, entry.1 ≠ .flag) →
          (Cursor.ofBytes bytes).readAll asked = (.ok values, last) →
            last.position ≤ bytes.length ∧
              (∀ value ∈ values, value.Fits) ∧
              appendAll [] values = bytes.take last.position := by
  intro written kept schema buffer start
  have keptValues : accepted written = kept.map Prod.fst :=
    List.filter_map
  have bufferOctets : buffer = octets (kept.map Prod.fst) := by
    rw [← keptValues]
    exact appendAll_eq [] written
  have kinds :
      schema.map Prod.fst = (kept.map Prod.fst).map Value.kind := by
    simp only [schema, List.map_map]
    rfl
  have allFit : ∀ value ∈ kept.map Prod.fst, value.Fits := by
    rw [← keptValues]
    exact fun value => fits_of_mem_accepted
  have readsBack :
      start.readAll schema =
        (.ok (kept.map Prod.fst),
          { position := buffer.length, rest := surplus }) := by
    have reads := Cursor.readAll_octets schema kinds allFit 0 surplus
    rw [← bufferOctets, Nat.zero_add] at reads
    exact reads
  refine ⟨fun value later => appendEach_append_cons [] written later value,
    ?_, ?_, ?_⟩
  · intro value
    have left := append_snd_eq buffer value
    refine ⟨left, ?_, append_eq_error_iff buffer value⟩
    rw [left, apply_ite List.length, List.length_append,
      Value.length_bytes]
  · obtain ⟨answers, isLast⟩ :=
      (start.readAll_eq_ok_iff _ schema _).mp readsBack
    exact ⟨_, readsBack, answers, isLast, rfl, rfl, rfl⟩
  · intro bytes asked values last notFlags reads
    obtain ⟨position_le, allFit, same⟩ :=
      Cursor.octets_of_readAll notFlags reads
    refine ⟨position_le, allFit, ?_⟩
    rw [appendAll_eq, accepted_eq_self allFit, same]
    rfl

/--
A counter and a fingerprint that are read in front of a surplus octet are written
again as the nine octets before it.
-/
theorem written_fields_read_back_surplusOctet :
    let bytes : Bytes := [0, 0, 0, 7, 0, 0, 0, 1, 255, 3]
    let schema : Schema := [(.word, "counter"), (.blob, "fingerprint")]
    let values : List Value := [.word 7, .blob [255]]
    (∀ entry ∈ schema, entry.1 ≠ .flag) ∧
      (Cursor.ofBytes bytes).readAll schema =
        (.ok values, { position := 9, rest := [3] }) ∧
      (∀ value ∈ values, value.Fits) ∧
      appendAll [] values = [0, 0, 0, 7, 0, 0, 0, 1, 255] := by
  intro bytes schema values
  have notFlags : ∀ entry ∈ schema, entry.1 ≠ .flag := by decide
  have reads :
      (Cursor.ofBytes bytes).readAll schema =
        (.ok values, { position := 9, rest := [3] }) :=
    rfl
  obtain ⟨_, _, _, writes⟩ := written_fields_read_back [] []
  obtain ⟨_, allFit, same⟩ := writes bytes schema values _ notFlags reads
  exact ⟨notFlags, reads, allFit, same⟩

end PeerSession.Wire
