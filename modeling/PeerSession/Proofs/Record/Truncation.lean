import PeerSession.Proofs.Record.RoundTrip

namespace PeerSession.Record

/-!
# Truncated records

The fields of a record divide its octets without a gap. A record of which only
a first part is left ends inside of one of its fields, and that field is
reported. The one exception is a record that ends where the blob of its session
key begins: it is the whole record of the same session without the key.
-/

/-- Among the octets of a list of fields, a field has those from one place up to another. -/
inductive Spans : List (Field × Wire.Value) → Field → Nat → Nat → Prop where
  | first
      (field : Field)
      (value : Wire.Value)
      (later : List (Field × Wire.Value)) :
      Spans ((field, value) :: later) field 0 value.size
  | later
      {fields : List (Field × Wire.Value)}
      {field : Field}
      {start finish : Nat}
      (head : Field × Wire.Value)
      (spans : Spans fields field start finish) :
      Spans (head :: fields) field
        (head.2.size + start) (head.2.size + finish)

/-- The octets of a list of fields. -/
def fieldOctets (fields : List (Field × Wire.Value)) : Bytes :=
  Wire.octets (fields.map Prod.snd)

/-- The field of a session key, if there is one and the sealer encloses it. -/
def keyFields
    (sealer : Sealer)
    (master : MasterSecret) :
    Option SessionKey →
    List (Field × Wire.Value)
  | none => []
  | some key =>
      match sealer.enclose key master with
      | .ok blob => [(.key, .blob blob)]
      | .error _ => []

/-- The fields of a session's record, the blob of the session key included. -/
def recordFields
    (sealer : Sealer)
    (master : MasterSecret)
    (session : Session) :
    List (Field × Wire.Value) :=
  (layoutOf session).fields ++ keyFields sealer master session.key

namespace Spans

variable {fields front back : List (Field × Wire.Value)}
variable {field : Field} {start finish : Nat}

theorem mem
    (spans : Spans fields field start finish) :
    field ∈ fields.map Prod.fst := by
  induction spans with
  | first field value later =>
      exact List.mem_cons_self ..
  | later head _ inductionHypothesis =>
      exact List.mem_cons_of_mem head.1 inductionHypothesis

theorem append_left
    (spans : Spans front field start finish)
    (back : List (Field × Wire.Value)) :
    Spans (front ++ back) field start finish := by
  induction spans with
  | first field value later =>
      exact .first field value (later ++ back)
  | later head _ inductionHypothesis =>
      exact .later head inductionHypothesis

/-- Fields in front move a field by the octets that they take. -/
theorem append_right
    (front : List (Field × Wire.Value))
    (spans : Spans back field start finish) :
    Spans (front ++ back) field
      ((fieldOctets front).length + start)
      ((fieldOctets front).length + finish) := by
  induction front with
  | nil =>
      simpa [fieldOctets, Wire.octets] using spans
  | cons head front inductionHypothesis =>
      have size :
          (fieldOctets (head :: front)).length =
            head.2.size + (fieldOctets front).length := by
        simp [fieldOctets, Wire.octets]
      rw [size, Nat.add_assoc, Nat.add_assoc]
      exact .later head inductionHypothesis

/-- The octet at one place belongs to one field only. -/
theorem unique
    {other : Field}
    {otherStart otherFinish place : Nat}
    (spans : Spans fields field start finish)
    (otherSpans : Spans fields other otherStart otherFinish)
    (within : start ≤ place ∧ place < finish)
    (otherWithin : otherStart ≤ place ∧ place < otherFinish) :
    field = other ∧ start = otherStart := by
  induction spans generalizing otherStart otherFinish place with
  | first field value later =>
      cases otherSpans with
      | first =>
          exact ⟨rfl, rfl⟩
      | later =>
          dsimp only at within otherWithin
          omega
  | later head _ inductionHypothesis =>
      cases otherSpans with
      | first =>
          dsimp only at within otherWithin
          omega
      | @later _ _ otherStart otherFinish _ otherSpans =>
          have inLater :=
            @inductionHypothesis otherStart otherFinish
              (place - head.2.size) otherSpans (by omega) (by omega)
          exact ⟨inLater.1, congrArg _ inLater.2⟩

end Spans

/-- The field and the value that a step reads. -/
def Step.read? : Step → Option (Field × Wire.Value)
  | .read field value => some (field, value)
  | .commit _ => none
  | .refuse _ => none

namespace Script

/-- The fields that a script reads, with their values. -/
def reads (script : Script) : List (Field × Wire.Value) :=
  script.filterMap Step.read?

@[simp] theorem reads_nil : reads [] = [] :=
  rfl

@[simp] theorem reads_read
    (field : Field)
    (value : Wire.Value)
    (script : Script) :
    reads (.read field value :: script) =
      (field, value) :: reads script :=
  rfl

@[simp] theorem reads_commit
    (change : Commit)
    (script : Script) :
    reads (.commit change :: script) = reads script :=
  rfl

@[simp] theorem reads_append (front back : Script) :
    reads (front ++ back) = reads front ++ reads back :=
  List.filterMap_append

/-- Less than the octets that complete a script stop it in the field where they end. -/
theorem Completes.stops_take
    {script : Script}
    {bytes : Bytes}
    {cut : Nat}
    (completes : Completes script bytes [])
    (shorter : cut < bytes.length) :
    ∃ field start finish done,
      Spans script.reads field start finish ∧
        (start ≤ cut ∧ cut < finish) ∧
        Stops script (bytes.take cut) done
          (.rejected (.truncated field)) := by
  generalize atEnd : ([] : Bytes) = rest at completes
  induction completes generalizing cut with
  | nil =>
      subst atEnd
      cases shorter
  | @read script bytes _ field value fits _ inductionHypothesis =>
      by_cases inValue : cut < value.size
      · have front :
            (value.bytes ++ bytes).take cut = value.bytes.take cut :=
          List.take_append_of_le_length (by simp; omega)
        refine ⟨field, 0, value.size, [], .first field value _,
          ⟨Nat.zero_le cut, inValue⟩, ?_⟩
        rw [front]
        exact .here script
          (.cut field value (value.cutIn_take fits inValue))
      · -- The value is complete, so the octets end in one of the later fields.
        have split :
            (value.bytes ++ bytes).take cut =
              value.bytes ++ bytes.take (cut - value.size) := by
          rw [List.take_append, Wire.Value.length_bytes,
            List.take_of_length_le (by simp; omega)]
        have laterShorter : cut - value.size < bytes.length := by
          simp at shorter
          omega
        obtain ⟨other, start, finish, done, spans, within, stops⟩ :=
          inductionHypothesis laterShorter atEnd
        refine ⟨other, value.size + start, value.size + finish, done,
          .later (field, value) spans, by omega, ?_⟩
        rw [split]
        exact .read field value fits stops
  | commit change _ inductionHypothesis =>
      obtain ⟨field, start, finish, done, spans, within, stops⟩ :=
        inductionHypothesis shorter atEnd
      exact ⟨field, start, finish, change :: done, spans, within,
        .commit change stops⟩

end Script

@[simp] theorem reads_identityStep
    (blob : Bytes)
    (script : Script) :
    Script.reads (identityStep blob :: script) = script.reads := by
  unfold identityStep
  cases identityOfBlob blob <;> rfl

@[simp] theorem reads_verifiedSteps (word : UInt32) :
    (verifiedSteps word).reads = [] := by
  unfold verifiedSteps
  split <;> rfl

/-- A script reads the fields of its layout. -/
theorem Layout.reads_script (layout : Layout) :
    layout.script.reads = layout.fields := by
  cases layout <;>
    simp [script, laterSteps, counterSteps, idSteps, versionSteps,
      identitySteps, negotiationSteps, format, Format.firstWord,
      id, fields, idFields]

theorem key_notMem_layoutOf (session : Session) :
    .key ∉ (layoutOf session).fields.map Prod.fst := by
  simp [layoutOf, Layout.fields, Layout.idFields]

/-- The octets of a session's fields are its record, if it has one. -/
theorem encode_eq_fieldOctets
    {sealer : Sealer}
    {master : MasterSecret}
    {session : Session}
    {record : Bytes}
    (encoded : encode sealer master session = .ok record) :
    record = fieldOctets (recordFields sealer master session) := by
  obtain ⟨stored, keyBytes, storedEncoded, keyEncoded, rfl⟩ :=
    (encode_eq_ok_iff sealer master session record).mp encoded
  obtain ⟨_, rfl⟩ := (Wire.encode_eq_ok_iff _ stored).mp storedEncoded
  have split :
      fieldOctets (recordFields sealer master session) =
        Wire.octets (layoutOf session).values ++
          fieldOctets (keyFields sealer master session.key) := by
    simp [fieldOctets, recordFields, Layout.values, Wire.octets]
  rw [split]
  cases present : session.key with
  | none =>
      rw [present] at keyEncoded
      cases keyEncoded
      rfl
  | some key =>
      rw [present] at keyEncoded
      obtain ⟨blob, encloses, _, rfl⟩ :=
        (encodeKey_some_eq_ok_iff sealer master key keyBytes).mp keyEncoded
      simp [keyFields, encloses, fieldOctets, Wire.octets,
        Wire.Value.bytes]

theorem Reads.decode_error
    {sealer : Sealer}
    {master : MasterSecret}
    {bytes : Bytes}
    {commits : List Commit}
    {failure : Failure}
    (reads : Reads sealer master bytes commits (.error failure))
    (recipient : RecipientId) :
    decode sealer master recipient bytes = .error failure := by
  simp only [decode, reads.decodeOver_eq]

/-- Octets that end among the stored values of a session end in one of their fields. -/
theorem decode_take_stored
    {session : Session}
    {stored : Bytes}
    {cut : Nat}
    (encoded : (layoutOf session).encode = .ok stored)
    (shorter : cut < stored.length)
    (sealer : Sealer)
    (master : MasterSecret)
    (recipient : RecipientId) :
    ∃ field start finish,
      Spans (layoutOf session).fields field start finish ∧
        (start ≤ cut ∧ cut < finish) ∧
        decode sealer master recipient (stored.take cut) =
          .error (.rejected (.truncated field)) := by
  have completes : (layoutOf session).script.Completes stored [] := by
    simpa using completes_layoutOf encoded []
  obtain ⟨field, start, finish, done, spans, within, stops⟩ :=
    completes.stops_take shorter
  rw [Layout.reads_script] at spans
  have reads : Reads sealer master (stored.take cut) done _ :=
    .stopped (recognizable_layoutOf session) stops
  exact ⟨field, start, finish, spans, within, reads.decode_error recipient⟩

/-- The stored values of a session alone are the record of that session without its key. -/
theorem decode_stored
    {session : Session}
    {stored : Bytes}
    (encoded : (layoutOf session).encode = .ok stored)
    (sealer : Sealer)
    (master : MasterSecret) :
    decode sealer master session.recipient stored =
      .ok ({ session with key := none }, .v3) := by
  have keyless :
      encode sealer master { session with key := none } = .ok stored :=
    (encode_eq_ok_iff sealer master _ stored).mpr
      ⟨stored, [], encoded, rfl, (List.append_nil stored).symm⟩
  have decoded := decodeOver_encode keyless nofun
  simp only [decode]
  rw [decoded]

/-- Octets that end inside of the blob of a session key are reported so. -/
theorem decode_take_key
    {session : Session}
    {stored blob : Bytes}
    {cut : Nat}
    (encoded : (layoutOf session).encode = .ok stored)
    (fits : blob.length < Wire.blobLimit)
    (begun : 0 < cut)
    (shorter : cut < (Wire.Value.blob blob).size)
    (sealer : Sealer)
    (master : MasterSecret)
    (recipient : RecipientId) :
    decode sealer master recipient
        (stored ++ (Wire.blobBytes blob).take cut) =
      .error (.rejected (.truncated .key)) := by
  have completes :=
    completes_layoutOf encoded ((Wire.blobBytes blob).take cut)
  have more : (Wire.blobBytes blob).take cut ≠ [] := by
    simp only [ne_eq, List.take_eq_nil_iff, Wire.blobBytes_ne_nil,
      or_false]
    omega
  have stops :
      (keySteps sealer master blob).Stops
        ((Wire.blobBytes blob).take cut) [] _ :=
    .here _
      (.cut .key (.blob blob)
        ((Wire.Value.blob blob).cutIn_take fits shorter))
  have reads : Reads sealer master _ _ _ :=
    .keyStopped (recognizable_layoutOf session) completes more stops
  exact reads.decode_error recipient

/-- A record that is cut off is reported in the field where it was cut. -/
theorem exists_decode_take
    {sealer : Sealer}
    {master : MasterSecret}
    {session : Session}
    {record : Bytes}
    {cut : Nat}
    (encoded : encode sealer master session = .ok record)
    (shorter : cut < record.length)
    (reader : Sealer)
    (readerMaster : MasterSecret) :
    ∃ field start finish,
      Spans (recordFields sealer master session) field start finish ∧
        (start ≤ cut ∧ cut < finish) ∧
        decode reader readerMaster session.recipient
            (record.take cut) =
          if field = .key ∧ cut = start then
            .ok ({ session with key := none }, .v3)
          else
            .error (.rejected (.truncated field)) := by
  obtain ⟨stored, keyBytes, storedEncoded, keyEncoded, rfl⟩ :=
    (encode_eq_ok_iff sealer master session record).mp encoded
  have storedLength :
      (fieldOctets (layoutOf session).fields).length = stored.length := by
    obtain ⟨_, rfl⟩ := (Wire.encode_eq_ok_iff _ stored).mp storedEncoded
    rfl
  by_cases inStored : cut < stored.length
  · obtain ⟨field, start, finish, spans, within, decoded⟩ :=
      decode_take_stored storedEncoded inStored
        reader readerMaster session.recipient
    have front : (stored ++ keyBytes).take cut = stored.take cut :=
      List.take_append_of_le_length (Nat.le_of_lt inStored)
    have notKey : field ≠ .key := by
      rintro rfl
      exact key_notMem_layoutOf session spans.mem
    refine ⟨field, start, finish, spans.append_left _, within, ?_⟩
    rw [front, decoded, if_neg (fun both => notKey both.1)]
  · cases present : session.key with
    | none =>
        rw [present] at keyEncoded
        cases keyEncoded
        rw [List.append_nil] at shorter
        exact (inStored shorter).elim
    | some key =>
        rw [present] at keyEncoded
        obtain ⟨blob, encloses, fits, rfl⟩ :=
          (encodeKey_some_eq_ok_iff sealer master key keyBytes).mp
            keyEncoded
        have spans :
            Spans (recordFields sealer master session) .key
              (stored.length + 0)
              (stored.length + (Wire.Value.blob blob).size) := by
          rw [recordFields, present, keyFields, encloses, ← storedLength]
          exact .append_right _ (.first .key (.blob blob) [])
        have split :
            (stored ++ Wire.blobBytes blob).take cut =
              stored ++ (Wire.blobBytes blob).take (cut - stored.length) := by
          rw [List.take_append,
            List.take_of_length_le (Nat.le_of_not_lt inStored)]
        have size :
            (Wire.blobBytes blob).length = (Wire.Value.blob blob).size :=
          (Wire.Value.blob blob).length_bytes
        rw [List.length_append, size] at shorter
        refine ⟨.key, _, _, spans, by omega, ?_⟩
        rw [split]
        by_cases atKey : cut = stored.length
        · subst atKey
          simpa using decode_stored storedEncoded reader readerMaster
        · rw [if_neg (fun both => atKey both.2)]
          exact decode_take_key storedEncoded fits (by omega) (by omega)
            reader readerMaster session.recipient

/--
The fields of a session's record divide its octets. When the record is cut off,
whoever reads it is told the field in which it was cut. Only if it was cut where
the field of the session key starts, it is accepted, as the record of the
session without its key.
-/
theorem decode_truncated
    (sealer reader : Sealer)
    (master readerMaster : MasterSecret)
    (session : Session)
    (record : Bytes)
    (cut : Nat)
    (encoded : encode sealer master session = .ok record)
    (shorter : cut < record.length) :
    let fields := recordFields sealer master session
    record = fieldOctets fields ∧
      (∃ field start finish,
        Spans fields field start finish ∧ start ≤ cut ∧ cut < finish) ∧
      ∀ field start finish,
        Spans fields field start finish →
        start ≤ cut →
        cut < finish →
        decode reader readerMaster session.recipient (record.take cut) =
          if field = .key ∧ cut = start then
            .ok ({ session with key := none }, .v3)
          else
            .error (.rejected (.truncated field)) := by
  intro fields
  obtain ⟨field, start, finish, spans, within, decoded⟩ :=
    exists_decode_take encoded shorter reader readerMaster
  refine ⟨encode_eq_fieldOctets encoded,
    ⟨field, start, finish, spans, within⟩, ?_⟩
  intro other otherStart otherFinish otherSpans notBefore notBehind
  obtain ⟨rfl, rfl⟩ :=
    spans.unique otherSpans within ⟨notBefore, notBehind⟩
  exact decoded

/-- A session of which nothing is known but a key. -/
def keyedSession : Session :=
  { Session.fresh 7 with
    key :=
      some
        { ids := { localId := 1, remoteId := 2 }
          cipher := []
          mac := [] } }

/--
The field of the key takes the last 20 of 56 octets. A record that is cut off
inside of it is reported, but one that is cut off in front of it is accepted.
-/
theorem decode_truncated_keyedSession :
    ∃ record,
      encode .plain { bytes := [] } keyedSession = .ok record ∧
        40 < record.length ∧
        decode .refusing { bytes := [] } 7 (record.take 40) =
          .error (.rejected (.truncated .key)) ∧
        decode .refusing { bytes := [] } 7 (record.take 36) =
          .ok ({ keyedSession with key := none }, .v3) := by
  have spans :
      Spans (recordFields .plain { bytes := [] } keyedSession)
        .key 36 56 :=
    (Spans.first .key _ []).append_right (layoutOf keyedSession).fields
  refine ⟨_, rfl, by decide, ?_, ?_⟩
  · exact
      (decode_truncated .plain .refusing _ { bytes := [] } keyedSession
        _ 40 rfl (by decide)).2.2 _ _ _ spans (by decide) (by decide)
  · exact
      (decode_truncated .plain .refusing _ { bytes := [] } keyedSession
        _ 36 rfl (by decide)).2.2 _ _ _ spans (by decide) (by decide)

end PeerSession.Record
