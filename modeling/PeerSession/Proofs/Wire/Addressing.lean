import PeerSession.Proofs.Wire.Octets

namespace PeerSession.Wire

/-!
# Reading by position

A machine reads a record by position: it keeps all octets and the number of those
read, computes with 64-bit numbers, takes slices and copies them. A difference
below zero, a sum that is too large, a slice beyond the octets and a copy of
another length would each be a trap. A reader within its record never runs into
one, and answers what the cursor there answers.
-/

/-- What stops a machine that computes with positions. -/
inductive Trap where
  | negativeDifference
  | excessiveSum
  | sliceOutside
  | unequalLengths
  deriving DecidableEq, Repr

/-- The first number that has no 64-bit form. -/
def addressLimit : Nat := 18446744073709551616

/-- A difference of 64-bit numbers. -/
def difference (left right : Nat) : Except Trap Nat :=
  if right ≤ left then
    .ok (left - right)
  else
    .error .negativeDifference

/-- A sum of 64-bit numbers. -/
def sum (left right : Nat) : Except Trap Nat :=
  if left + right < addressLimit then
    .ok (left + right)
  else
    .error .excessiveSum

/-- The octets from one position up to another. -/
def slice
    (bytes : Bytes)
    (start finish : Nat) :
    Except Trap Bytes :=
  if start ≤ finish ∧ finish ≤ bytes.length then
    .ok (bytes.extract start finish)
  else
    .error .sliceOutside

/-- All octets of a record, and the number of those that are read. -/
structure Reader where
  bytes : Bytes
  position : Nat

/-- How a read by position ends: with a trap, or with an answer and the reader behind it. -/
abbrev Reached (α : Type) := Except Trap (Except Error α × Reader)

/-- Go on behind a read that succeeded. -/
def Reached.andThen
    {α β : Type}
    (reached : Reached α)
    (next : α → Reader → Reached β) :
    Reached β :=
  match reached with
  | .error trap => .error trap
  | .ok (.error error, reader) => .ok (.error error, reader)
  | .ok (.ok value, reader) => next value reader

namespace Reader

/-- The reader at the start of a record. -/
def ofBytes (bytes : Bytes) : Reader where
  bytes := bytes
  position := 0

/-- The number of octets that are not read yet. -/
def remaining (reader : Reader) : Except Trap Nat :=
  difference reader.bytes.length reader.position

/-- Take the next octets, and report the field if there are too few. -/
def take
    (reader : Reader)
    (count : Nat)
    (field : String) :
    Reached Bytes :=
  show Except Trap (Except Error Bytes × Reader) from do
    let remaining ← reader.remaining
    if remaining < count then
      return (.error (.truncated field), reader)
    let finish ← sum reader.position count
    let taken ← slice reader.bytes reader.position finish
    let position ← sum reader.position count
    return (.ok taken, { bytes := reader.bytes, position := position })

/-- Read a word, which is copied from exactly four octets. -/
def readWord
    (reader : Reader)
    (field : String) :
    Reached UInt32 :=
  (reader.take wordSize field).andThen fun taken next =>
    match taken with
    | [first, second, third, fourth] =>
        .ok (.ok (wordOf first second third fourth), next)
    | _ => .error .unequalLengths

/-- Read a flag, which is set only by the word 1. -/
def readFlag
    (reader : Reader)
    (field : String) :
    Reached Bool :=
  (reader.readWord field).andThen fun word next =>
    .ok (.ok (word == 1), next)

/-- Read a blob: its length, then its contents. -/
def readBlob
    (reader : Reader)
    (field : String) :
    Reached Bytes :=
  (reader.readWord field).andThen fun length next =>
    next.take length.toNat field

/-- A reader is at the place of a cursor, within an addressable record. -/
structure At (reader : Reader) (cursor : Cursor) : Prop where
  position : reader.position = cursor.position
  rest : reader.bytes.drop reader.position = cursor.rest
  within : reader.position ≤ reader.bytes.length
  addressable : reader.bytes.length < addressLimit

theorem at_ofBytes
    {bytes : Bytes}
    (addressable : bytes.length < addressLimit) :
    (ofBytes bytes).At (.ofBytes bytes) where
  position := rfl
  rest := rfl
  within := Nat.zero_le bytes.length
  addressable := addressable

end Reader

/-- A read by position runs into no trap, and answers and ends where a cursor does. -/
def Reached.Agrees
    {α : Type}
    (reached : Reached α)
    (answer : Except Error α × Cursor) :
    Prop :=
  ∃ reader : Reader,
    reached = .ok (answer.1, reader) ∧ reader.At answer.2

namespace Reached.Agrees

variable {α β : Type} {reached : Reached α} {cursor : Cursor}

/-- What agrees behind a read that agrees and succeeds, agrees. -/
theorem andThen_ok
    {value : α}
    {next : α → Reader → Reached β}
    {answer : Except Error β × Cursor}
    (agrees : reached.Agrees (.ok value, cursor))
    (later :
      ∀ reader : Reader,
        reader.At cursor → (next value reader).Agrees answer) :
    (reached.andThen next).Agrees answer := by
  obtain ⟨reader, rfl, isAt⟩ := agrees
  exact later reader isAt

/-- A read that agrees and fails is not gone on from. -/
theorem andThen_error
    {error : Error}
    (agrees : reached.Agrees (.error error, cursor))
    (next : α → Reader → Reached β) :
    (reached.andThen next).Agrees (.error error, cursor) := by
  obtain ⟨reader, rfl, isAt⟩ := agrees
  exact ⟨reader, rfl, isAt⟩

end Reached.Agrees

namespace Reader.At

variable {reader : Reader} {cursor : Cursor}

/-- The position never exceeds the number of octets, so the difference is one. -/
theorem remaining
    (isAt : reader.At cursor) :
    reader.remaining = .ok cursor.remaining := by
  have count :
      cursor.remaining = reader.bytes.length - reader.position := by
    rw [Cursor.remaining, ← isAt.rest, List.length_drop]
  rw [Reader.remaining, difference, if_pos isAt.within, count]

theorem take_of_lt
    (isAt : reader.At cursor)
    {count : Nat}
    (short : cursor.remaining < count)
    (field : String) :
    (reader.take count field).Agrees
      (.error (.truncated field), cursor) := by
  refine ⟨reader, ?_, isAt⟩
  simp only [take, isAt.remaining, bind, Except.bind, short, ↓reduceIte]
  rfl

/-- Octets that remain are a slice, and there is a position behind them. -/
theorem take_of_le
    (isAt : reader.At cursor)
    {count : Nat}
    (enough : count ≤ cursor.remaining)
    (field : String) :
    (reader.take count field).Agrees
      (.ok (cursor.rest.take count), cursor.advance count) := by
  have available := enough
  rw [Cursor.remaining, ← isAt.rest, List.length_drop] at available
  have within := isAt.within
  have addressable := isAt.addressable
  have finish :
      sum reader.position count = .ok (reader.position + count) :=
    if_pos (by omega)
  have taken :
      slice reader.bytes reader.position (reader.position + count) =
        .ok (cursor.rest.take count) := by
    rw [slice, if_pos (by omega), List.extract_eq_take_drop,
      Nat.add_sub_cancel_left, isAt.rest]
  refine
    ⟨{ bytes := reader.bytes, position := reader.position + count },
      ?_, ?_⟩
  · simp only [take, isAt.remaining, finish, taken, bind, Except.bind,
      Nat.not_lt.mpr enough, ↓reduceIte]
    rfl
  · constructor
    · exact congrArg (· + count) isAt.position
    · simp only [Cursor.advance, ← isAt.rest, List.drop_drop]
    · dsimp only
      omega
    · exact addressable

/-- A word is read where the cursor reads it, and four octets are always copied. -/
theorem readWord
    (isAt : reader.At cursor)
    (field : String) :
    (reader.readWord field).Agrees (cursor.readWord field) := by
  by_cases short : cursor.remaining < wordSize
  · rw [cursor.readWord_of_cut field short]
    exact (isAt.take_of_lt short field).andThen_error _
  · apply (isAt.take_of_le (Nat.le_of_not_lt short) field).andThen_ok
    intro next nextAt
    obtain ⟨position, rest⟩ := cursor
    match rest with
    | first :: second :: third :: fourth :: rest =>
        exact ⟨next, rfl, nextAt⟩
    | [] | [_] | [_, _] | [_, _, _] =>
        simp [Cursor.remaining, wordSize] at short

theorem readFlag
    (isAt : reader.At cursor)
    (field : String) :
    (reader.readFlag field).Agrees (cursor.readFlag field) := by
  have word := isAt.readWord field
  unfold Cursor.readFlag
  split
  next value behind read =>
    rw [read] at word
    exact word.andThen_ok fun next nextAt => ⟨next, rfl, nextAt⟩
  next error behind read =>
    rw [read] at word
    exact word.andThen_error _

/-- A blob's length never leads beyond the octets: too long a blob is reported instead. -/
theorem readBlob
    (isAt : reader.At cursor)
    (field : String) :
    (reader.readBlob field).Agrees (cursor.readBlob field) := by
  have word := isAt.readWord field
  unfold Cursor.readBlob
  split
  next length behind read =>
    rw [read] at word
    apply word.andThen_ok
    intro next nextAt
    split
    next enough =>
      exact nextAt.take_of_le enough field
    next short =>
      exact nextAt.take_of_lt (Nat.lt_of_not_le short) field
  next error behind read =>
    rw [read] at word
    exact word.andThen_error _

end Reader.At

end PeerSession.Wire
