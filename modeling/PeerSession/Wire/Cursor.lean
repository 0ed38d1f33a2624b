import PeerSession.Wire.Value

namespace PeerSession.Wire

/-!
# Reading fields

A cursor holds the octets that are still to be read and the number of octets
behind it. Every read reports the field it was asked for when the octets end
too early. A blob whose length could be read but whose contents could not
leaves the cursor behind the length.
-/

/-- A place in a record: the octets ahead and the number of octets behind. -/
structure Cursor where
  position : Nat
  rest : Bytes
  deriving DecidableEq, Repr

namespace Cursor

/-- The cursor at the start of a record. -/
def ofBytes (bytes : Bytes) : Cursor where
  position := 0
  rest := bytes

/-- The number of octets ahead. -/
def remaining (cursor : Cursor) : Nat :=
  cursor.rest.length

/-- Move over a number of octets. -/
def advance
    (cursor : Cursor)
    (count : Nat) :
    Cursor where
  position := cursor.position + count
  rest := cursor.rest.drop count

/-- Read a word. -/
def readWord
    (cursor : Cursor)
    (field : String) :
    Except Error UInt32 × Cursor :=
  match cursor.rest with
  | first :: second :: third :: fourth :: rest =>
      (.ok (wordOf first second third fourth),
        { position := cursor.position + wordSize, rest := rest })
  | _ =>
      (.error (.truncated field), cursor)

/-- Read a flag, which is set only by the word 1. -/
def readFlag
    (cursor : Cursor)
    (field : String) :
    Except Error Bool × Cursor :=
  match cursor.readWord field with
  | (.ok word, next) => (.ok (word == 1), next)
  | (.error error, next) => (.error error, next)

/-- Read a blob: its length, then its contents. -/
def readBlob
    (cursor : Cursor)
    (field : String) :
    Except Error Bytes × Cursor :=
  match cursor.readWord field with
  | (.ok length, next) =>
      if length.toNat ≤ next.remaining then
        (.ok (next.rest.take length.toNat), next.advance length.toNat)
      else
        (.error (.truncated field), next)
  | (.error error, next) => (.error error, next)

/-- Read a field of the given kind. -/
def read
    (cursor : Cursor)
    (kind : Kind)
    (field : String) :
    Except Error Value × Cursor :=
  match kind with
  | .word =>
      match cursor.readWord field with
      | (.ok word, next) => (.ok (.word word), next)
      | (.error error, next) => (.error error, next)
  | .flag =>
      match cursor.readFlag field with
      | (.ok flag, next) => (.ok (.flag flag), next)
      | (.error error, next) => (.error error, next)
  | .blob =>
      match cursor.readBlob field with
      | (.ok bytes, next) => (.ok (.blob bytes), next)
      | (.error error, next) => (.error error, next)

/-- A word that was written is read back, and the cursor is behind it. -/
theorem readWord_wordBytes
    (position : Nat)
    (word : UInt32)
    (rest : Bytes)
    (field : String) :
    readWord { position := position, rest := wordBytes word ++ rest } field =
      (.ok word, { position := position + wordSize, rest := rest }) := by
  simp only [readWord, wordBytes, List.cons_append, List.nil_append,
    wordOf_wordBytes]

/-- A flag that was written is read back, and the cursor is behind it. -/
theorem readFlag_flagWord
    (position : Nat)
    (flag : Bool)
    (rest : Bytes)
    (field : String) :
    readFlag
        { position := position, rest := wordBytes (flagWord flag) ++ rest }
        field =
      (.ok flag, { position := position + wordSize, rest := rest }) := by
  simp only [readFlag, readWord_wordBytes]
  cases flag <;> rfl

/-- A blob that was written is read back, and the cursor is behind it. -/
theorem readBlob_blobBytes
    (position : Nat)
    (bytes rest : Bytes)
    (field : String)
    (fits : bytes.length < blobLimit) :
    readBlob { position := position, rest := blobBytes bytes ++ rest } field =
      (.ok bytes,
        { position := position + wordSize + bytes.length
          rest := rest }) := by
  have length :
      (UInt32.ofNat bytes.length).toNat = bytes.length :=
    UInt32.toNat_ofNat_of_lt' fits
  simp only [readBlob, blobBytes, List.append_assoc, readWord_wordBytes,
    length, remaining, advance]
  simp

/-- A value that was written is read back, and the cursor is behind it. -/
theorem read_bytes
    (position : Nat)
    (value : Value)
    (rest : Bytes)
    (field : String)
    (fits : value.Fits) :
    read
        { position := position, rest := value.bytes ++ rest }
        value.kind
        field =
      (.ok value, { position := position + value.size, rest := rest }) := by
  cases value with
  | word word =>
      simp only [read, Value.kind, Value.bytes, Value.size,
        readWord_wordBytes]
  | flag flag =>
      simp only [read, Value.kind, Value.bytes, Value.size,
        readFlag_flagWord]
  | blob bytes =>
      simp only [read, Value.kind, Value.bytes, Value.size,
        readBlob_blobBytes position bytes rest field fits, Nat.add_assoc]

end Cursor

end PeerSession.Wire
