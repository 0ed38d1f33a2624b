import PeerSession.Proofs.Wire.Addressing

namespace PeerSession.Wire

/-!
# Requests for fields

A cursor can be asked for any fields, one after the other, and goes on where a
failed request left it. However it got there, it stays within the octets, and what
the next request answers depends on nothing but the octets at its position. A
reader by position is asked for the same fields without running into a trap.
-/

/-- The number that octets stand for, the most significant octet first. -/
def numberOf (octets : Bytes) : Nat :=
  octets.foldl (fun number octet => number * 256 + octet.toNat) 0

/-- Four octets stand for the same number as their word. -/
theorem toNat_wordOf (first second third fourth : UInt8) :
    (wordOf first second third fourth).toNat =
      numberOf [first, second, third, fourth] := by
  have firstBound : first.toNat < 2 ^ 8 := first.toNat_lt
  have secondBound : second.toNat < 2 ^ 8 := second.toNat_lt
  have thirdBound : third.toNat < 2 ^ 8 := third.toNat_lt
  have fourthBound : fourth.toNat < 2 ^ 8 := fourth.toNat_lt
  simp only [wordOf, numberOf, List.foldl_cons, List.foldl_nil,
    UInt32.toNat_ofNat']
  omega

namespace Cursor

/-- The cursor behind several requests, whether they failed or not. -/
def after (cursor : Cursor) : Schema → Cursor
  | [] => cursor
  | (kind, field) :: requests =>
      (cursor.read kind field).2.after requests

/-- A request among others is answered by the cursor behind the earlier ones. -/
theorem readEach_append_cons
    (cursor : Cursor)
    (earlier later : Schema)
    (kind : Kind)
    (field : String) :
    cursor.readEach (earlier ++ (kind, field) :: later) =
      cursor.readEach earlier ++
        (cursor.after earlier).read kind field ::
          ((cursor.after earlier).read kind field).2.readEach later := by
  induction earlier generalizing cursor with
  | nil =>
      rfl
  | cons request earlier inductionHypothesis =>
      obtain ⟨first, name⟩ := request
      simp only [List.cons_append, readEach, after, inductionHypothesis]

/-- The number in the octets ahead, as far as there are any. -/
def number (cursor : Cursor) : Nat :=
  numberOf (cursor.rest.take wordSize)

theorem advance_advance (cursor : Cursor) (first second : Nat) :
    (cursor.advance first).advance second =
      cursor.advance (first + second) := by
  simp only [advance, List.drop_drop, Nat.add_assoc]

/-- Four octets ahead stand for the number of their word. -/
theorem exists_wordOf_number
    {cursor : Cursor}
    (enough : ¬ cursor.remaining < wordSize) :
    ∃ first second third fourth rest,
      cursor.rest = first :: second :: third :: fourth :: rest ∧
        (wordOf first second third fourth).toNat = cursor.number := by
  unfold number
  match shape : cursor.rest with
  | first :: second :: third :: fourth :: rest =>
      exact ⟨first, second, third, fourth, rest, rfl, toNat_wordOf ..⟩
  | [] | [_] | [_, _] | [_, _, _] =>
      simp [remaining, wordSize, shape] at enough

/-- The number in four octets has a word. -/
theorem toNat_number
    {cursor : Cursor}
    (enough : ¬ cursor.remaining < wordSize) :
    (UInt32.ofNat cursor.number).toNat = cursor.number := by
  obtain ⟨_, _, _, _, _, _, same⟩ := exists_wordOf_number enough
  rw [← same, UInt32.ofNat_toNat]

/-- A word is read exactly if there are octets enough for it. -/
theorem readWord_eq (cursor : Cursor) (field : String) :
    cursor.readWord field =
      if cursor.remaining < wordSize then
        (.error (.truncated field), cursor)
      else
        (.ok (UInt32.ofNat cursor.number), cursor.advance wordSize) := by
  by_cases short : cursor.remaining < wordSize
  · rw [if_pos short, readWord_of_cut field short]
  · rw [if_neg short]
    obtain ⟨first, second, third, fourth, rest, shape, same⟩ :=
      exists_wordOf_number short
    simp only [readWord, advance, shape, ← same, UInt32.ofNat_toNat]
    rfl

/-- A flag is read like a word, and set if the number is 1. -/
theorem readFlag_eq (cursor : Cursor) (field : String) :
    cursor.readFlag field =
      if cursor.remaining < wordSize then
        (.error (.truncated field), cursor)
      else
        (.ok (cursor.number == 1), cursor.advance wordSize) := by
  rw [readFlag, readWord_eq]
  by_cases short : cursor.remaining < wordSize
  · simp only [if_pos short]
  · have set :
        (UInt32.ofNat cursor.number == 1) = (cursor.number == 1) := by
      rw [Bool.eq_iff_iff, beq_iff_eq, beq_iff_eq, ← UInt32.toNat_inj,
        toNat_number short]
      rfl
    simp only [if_neg short, set]

/-- A blob is read if its length is, and if there are as many octets behind that. -/
theorem readBlob_eq (cursor : Cursor) (field : String) :
    cursor.readBlob field =
      if cursor.remaining < wordSize then
        (.error (.truncated field), cursor)
      else if cursor.remaining - wordSize < cursor.number then
        (.error (.truncated field), cursor.advance wordSize)
      else
        (.ok ((cursor.rest.drop wordSize).take cursor.number),
          cursor.advance (wordSize + cursor.number)) := by
  rw [readBlob, readWord_eq]
  by_cases short : cursor.remaining < wordSize
  · simp only [if_pos short]
  · have left :
        (cursor.advance wordSize).remaining =
          cursor.remaining - wordSize :=
      List.length_drop
    simp only [if_neg short, toNat_number short, left,
      advance_advance]
    by_cases tooLong : cursor.remaining - wordSize < cursor.number
    · rw [if_pos tooLong, if_neg (Nat.not_le_of_lt tooLong)]
    · rw [if_neg tooLong, if_pos (Nat.le_of_not_lt tooLong)]
      rfl

/-- What a request is answered, by the kind of the field. -/
theorem read_eq (cursor : Cursor) (kind : Kind) (field : String) :
    cursor.read kind field =
      if cursor.remaining < wordSize then
        (.error (.truncated field), cursor)
      else
        match kind with
        | .word =>
            (.ok (.word (UInt32.ofNat cursor.number)),
              cursor.advance wordSize)
        | .flag =>
            (.ok (.flag (cursor.number == 1)), cursor.advance wordSize)
        | .blob =>
            if cursor.remaining - wordSize < cursor.number then
              (.error (.truncated field), cursor.advance wordSize)
            else
              (.ok
                  (.blob ((cursor.rest.drop wordSize).take cursor.number)),
                cursor.advance (wordSize + cursor.number)) := by
  by_cases short : cursor.remaining < wordSize
  · cases kind <;>
      simp only [read, readWord_eq, readFlag_eq, readBlob_eq, if_pos short]
  · cases kind with
    | word =>
        simp only [read, readWord_eq, if_neg short]
    | flag =>
        simp only [read, readFlag_eq, if_neg short]
    | blob =>
        simp only [read, readBlob_eq, if_neg short]
        by_cases tooLong : cursor.remaining - wordSize < cursor.number
        · simp only [if_pos tooLong]
        · simp only [if_neg tooLong]

/-- A request that fails reports the field that was asked for. -/
theorem read_error
    {cursor : Cursor}
    {kind : Kind}
    {field : String}
    {error : Error}
    (fails : (cursor.read kind field).1 = .error error) :
    error = .truncated field := by
  rw [read_eq] at fails
  split at fails
  · exact (Except.error.inj fails).symm
  · cases kind with
    | word | flag =>
        cases fails
    | blob =>
        dsimp only at fails
        split at fails
        · exact (Except.error.inj fails).symm
        · cases fails

/-- A request moves over octets that are there, if over any. -/
theorem exists_read_eq_advance
    (cursor : Cursor)
    (kind : Kind)
    (field : String) :
    ∃ count ≤ cursor.remaining,
      (cursor.read kind field).2 = cursor.advance count := by
  rw [read_eq]
  by_cases short : cursor.remaining < wordSize
  · rw [if_pos short]
    exact ⟨0, Nat.zero_le _, rfl⟩
  · have enough := Nat.le_of_not_lt short
    rw [if_neg short]
    cases kind with
    | word | flag =>
        exact ⟨wordSize, enough, rfl⟩
    | blob =>
        dsimp only
        by_cases tooLong : cursor.remaining - wordSize < cursor.number
        · rw [if_pos tooLong]
          exact ⟨wordSize, enough, rfl⟩
        · rw [if_neg tooLong]
          exact ⟨wordSize + cursor.number, by omega, rfl⟩

/-- A request never moves the cursor back. -/
theorem position_le_read
    (cursor : Cursor)
    (kind : Kind)
    (field : String) :
    cursor.position ≤ (cursor.read kind field).2.position := by
  obtain ⟨count, _, moved⟩ := exists_read_eq_advance cursor kind field
  rw [moved]
  exact Nat.le_add_right cursor.position count

/-- A cursor has all octets of a record behind it or ahead. -/
structure Within (cursor : Cursor) (bytes : Bytes) : Prop where
  position_le : cursor.position ≤ bytes.length
  rest_eq : cursor.rest = bytes.drop cursor.position

theorem within_ofBytes (bytes : Bytes) :
    (ofBytes bytes).Within bytes where
  position_le := Nat.zero_le bytes.length
  rest_eq := rfl

namespace Within

variable {cursor : Cursor} {bytes : Bytes}

theorem remaining_eq (within : cursor.Within bytes) :
    cursor.remaining = bytes.length - cursor.position := by
  rw [remaining, within.rest_eq, List.length_drop]

theorem extract_eq
    (within : cursor.Within bytes)
    (skipped count : Nat) :
    bytes.extract (cursor.position + skipped)
        (cursor.position + skipped + count) =
      (cursor.rest.drop skipped).take count := by
  rw [List.extract_eq_take_drop, Nat.add_sub_cancel_left,
    within.rest_eq, List.drop_drop]

theorem number_eq (within : cursor.Within bytes) :
    cursor.number =
      numberOf
        (bytes.extract cursor.position (cursor.position + wordSize)) :=
  congrArg numberOf (within.extract_eq 0 wordSize).symm

theorem advance
    (within : cursor.Within bytes)
    {count : Nat}
    (available : count ≤ cursor.remaining) :
    (cursor.advance count).Within bytes where
  position_le := by
    rw [within.remaining_eq] at available
    have := within.position_le
    simp only [Cursor.advance]
    omega
  rest_eq := by
    simp only [Cursor.advance, within.rest_eq, List.drop_drop]

/-- No request leaves the octets. -/
theorem read
    (within : cursor.Within bytes)
    (kind : Kind)
    (field : String) :
    (cursor.read kind field).2.Within bytes := by
  obtain ⟨count, available, moved⟩ :=
    exists_read_eq_advance cursor kind field
  rw [moved]
  exact within.advance available

/-- No sequence of requests leaves the octets. -/
theorem after
    (within : cursor.Within bytes)
    (requests : Schema) :
    (cursor.after requests).Within bytes := by
  induction requests generalizing cursor with
  | nil =>
      exact within
  | cons request requests inductionHypothesis =>
      exact inductionHypothesis (within.read request.1 request.2)

end Within

end Cursor

/-- Reads that agree still do if the value is wrapped. -/
theorem Reached.Agrees.map
    {α β : Type}
    {reached : Reached α}
    {answer : Except Error α × Cursor}
    (wrap : α → β) :
    reached.Agrees answer →
      (reached.andThen fun value next =>
          .ok (.ok (wrap value), next)).Agrees
        (match answer with
          | (.ok value, next) => (.ok (wrap value), next)
          | (.error error, next) => (.error error, next)) := by
  rintro ⟨reader, rfl, isAt⟩
  obtain ⟨answer, cursor⟩ := answer
  cases answer <;> exact ⟨reader, rfl, isAt⟩

namespace Reader

/-- Read a field of the given kind by position. -/
def read
    (reader : Reader)
    (kind : Kind)
    (field : String) :
    Reached Value :=
  match kind with
  | .word =>
      (reader.readWord field).andThen fun word next =>
        .ok (.ok (.word word), next)
  | .flag =>
      (reader.readFlag field).andThen fun flag next =>
        .ok (.ok (.flag flag), next)
  | .blob =>
      (reader.readBlob field).andThen fun bytes next =>
        .ok (.ok (.blob bytes), next)

/-- What can be seen behind a request: its answer, the position and what remains. -/
abbrev Seen := Except Error Value × Nat × Nat

/-- Read each field by position, unless there is a trap, and see what each leaves. -/
def readEach (reader : Reader) : Schema → Except Trap (List Seen)
  | [] => .ok []
  | (kind, field) :: requests => do
      let (answer, next) ← reader.read kind field
      let remaining ← next.remaining
      let later ← next.readEach requests
      return (answer, next.position, remaining) :: later

namespace At

variable {reader : Reader} {cursor : Cursor}

/-- A field is read where the cursor reads it. -/
theorem read
    (isAt : reader.At cursor)
    (kind : Kind)
    (field : String) :
    (reader.read kind field).Agrees (cursor.read kind field) := by
  cases kind with
  | word =>
      have word := isAt.readWord field
      simp only [Reader.read, Cursor.read]
      generalize cursor.readWord field = answer at word ⊢
      obtain ⟨_ | _, _⟩ := answer <;> exact .map Value.word word
  | flag =>
      have flag := isAt.readFlag field
      simp only [Reader.read, Cursor.read]
      generalize cursor.readFlag field = answer at flag ⊢
      obtain ⟨_ | _, _⟩ := answer <;> exact .map Value.flag flag
  | blob =>
      have blob := isAt.readBlob field
      simp only [Reader.read, Cursor.read]
      generalize cursor.readBlob field = answer at blob ⊢
      obtain ⟨_ | _, _⟩ := answer <;> exact .map Value.blob blob

/-- Any requests run into no trap, and show what they show at the cursor. -/
theorem readEach
    (isAt : reader.At cursor)
    (requests : Schema) :
    reader.readEach requests =
      .ok
        ((cursor.readEach requests).map fun answer =>
          (answer.1, answer.2.position, answer.2.remaining)) := by
  induction requests generalizing reader cursor with
  | nil =>
      rfl
  | cons request requests inductionHypothesis =>
      obtain ⟨kind, field⟩ := request
      obtain ⟨next, reads, nextAt⟩ := isAt.read kind field
      simp only [Reader.readEach, Cursor.readEach, reads,
        nextAt.remaining, inductionHypothesis nextAt, nextAt.position,
        List.map_cons, bind, Except.bind, pure, Except.pure]

end At

end Reader

/--
A cursor at the start of octets is asked for any fields, and then for any one more.
It has never moved back and is still within the octets, and what remains is what is
behind its position. If fewer than four octets remain, the request fails and the
cursor stays. Otherwise these four are a number: the word, the flag that is set by 1,
or the length of a blob. A blob that is longer than what follows its length fails,
and the cursor stays behind the length. All else succeeds, and the cursor moves on by
what was read. Failures name the field that was asked for. By position, a record of
addressable length shows all of this without a trap.
-/
theorem requests_answered_by_octets
    (bytes : Bytes)
    (requests : Schema) :
    let cursor := (Cursor.ofBytes bytes).after requests
    let position := cursor.position
    let behind := position + wordSize
    let number := numberOf (bytes.extract position behind)
    (∀ kind field later,
        (Cursor.ofBytes bytes).readEach (requests ++ (kind, field) :: later) =
          (Cursor.ofBytes bytes).readEach requests ++
            cursor.read kind field ::
              (cursor.read kind field).2.readEach later) ∧
      (bytes.length < addressLimit →
        (Reader.ofBytes bytes).readEach requests =
          .ok
            (((Cursor.ofBytes bytes).readEach requests).map fun answer =>
              (answer.1, answer.2.position, answer.2.remaining))) ∧
      (position ≤ bytes.length ∧
        cursor.remaining = bytes.length - position) ∧
      (∀ kind field,
        position ≤ (cursor.read kind field).2.position ∧
          ∀ error,
            (cursor.read kind field).1 = .error error →
              error = .truncated field) ∧
      (wordSize ≤ bytes.length - position →
        (UInt32.ofNat number).toNat = number) ∧
      ∀ field,
        cursor.read .word field =
            (if bytes.length - position < wordSize then
              (.error (.truncated field), cursor)
            else
              (.ok (.word (UInt32.ofNat number)),
                cursor.advance wordSize)) ∧
          cursor.read .flag field =
            (if bytes.length - position < wordSize then
              (.error (.truncated field), cursor)
            else
              (.ok (.flag (number == 1)), cursor.advance wordSize)) ∧
          cursor.read .blob field =
            (if bytes.length - position < wordSize then
              (.error (.truncated field), cursor)
            else if bytes.length - behind < number then
              (.error (.truncated field), cursor.advance wordSize)
            else
              (.ok (.blob (bytes.extract behind (behind + number))),
                cursor.advance (wordSize + number))) := by
  intro cursor position behind number
  have within : cursor.Within bytes :=
    (Cursor.within_ofBytes bytes).after requests
  have left : bytes.length - position = cursor.remaining :=
    within.remaining_eq.symm
  have leftBehind :
      bytes.length - behind = cursor.remaining - wordSize := by
    rw [← left, Nat.sub_sub]
  have sameNumber : number = cursor.number := within.number_eq.symm
  have contents :
      bytes.extract behind (behind + cursor.number) =
        (cursor.rest.drop wordSize).take cursor.number :=
    within.extract_eq wordSize cursor.number
  refine ⟨fun kind field later =>
      Cursor.readEach_append_cons _ requests later kind field,
    ?_, ⟨within.position_le, within.remaining_eq⟩, ?_, ?_, ?_⟩
  · intro addressable
    exact (Reader.at_ofBytes addressable).readEach requests
  · intro kind field
    exact ⟨cursor.position_le_read kind field,
      fun error => Cursor.read_error⟩
  · intro enough
    rw [left] at enough
    rw [sameNumber]
    exact Cursor.toNat_number (Nat.not_lt_of_le enough)
  · intro field
    rw [left, leftBehind, sameNumber, contents]
    exact ⟨cursor.read_eq .word field, cursor.read_eq .flag field,
      cursor.read_eq .blob field⟩

/--
A blob that claims 16 octets where 8 follow fails behind its length, and a flag is
read there. A blob that claims 9 octets where none follow is the next to fail.
-/
theorem requests_answered_by_octets_longBlobs :
    let bytes : Bytes := [0, 0, 0, 16, 0, 0, 0, 1, 0, 0, 0, 9]
    let requests : Schema := [(.blob, "long"), (.flag, "set")]
    let cursor := (Cursor.ofBytes bytes).after requests
    let number :=
      numberOf
        (bytes.extract cursor.position (cursor.position + wordSize))
    (bytes.length < addressLimit ∧
        (Reader.ofBytes bytes).readEach requests =
          .ok
            [ (.error (.truncated "long"), 4, 8),
              (.ok (.flag true), 8, 4) ]) ∧
      (wordSize ≤ bytes.length - cursor.position ∧
        number = 9 ∧ (UInt32.ofNat number).toNat = number) ∧
      ∃ error,
        (cursor.read .blob "longer").1 = .error error ∧
          error = .truncated "longer" := by
  intro bytes requests cursor number
  have addressable : bytes.length < addressLimit := by decide
  have enough : wordSize ≤ bytes.length - cursor.position := by decide
  obtain ⟨_, byPosition, _, names, isWord, _⟩ :=
    requests_answered_by_octets bytes requests
  refine ⟨⟨addressable, ?_⟩, ⟨enough, rfl, isWord enough⟩, _, rfl,
    (names .blob "longer").2 _ rfl⟩
  rw [byPosition addressable]
  rfl

end PeerSession.Wire
