import PeerSession.Wire.Error
import PeerSession.Wire.Word

namespace PeerSession.Wire

/-!
# Field values

A record is a flat sequence of fields of three kinds: words, flags and blobs. A
flag is a word that is 1 or 0. A blob is a word with its length followed by its
octets, so its length must be below 4294967296.
-/

/-- The kinds of field that a record is made of. -/
inductive Kind where
  | word
  | flag
  | blob
  deriving DecidableEq, Repr

/-- The value of one field. -/
inductive Value where
  | word (value : UInt32)
  | flag (value : Bool)
  | blob (value : Bytes)
  deriving DecidableEq, Repr

/-- The kind of a value. -/
def Value.kind : Value → Kind
  | .word _ => .word
  | .flag _ => .flag
  | .blob _ => .blob

/-- The first length that has no four-octet form. -/
def blobLimit : Nat := 4294967296

/-- Whether a value has an encoding: only over-long blobs have none. -/
def Value.Fits : Value → Prop
  | .word _ => True
  | .flag _ => True
  | .blob value => value.length < blobLimit

instance (value : Value) : Decidable value.Fits := by
  cases value <;> unfold Value.Fits <;> infer_instance

/-- The number of octets that a value takes. -/
def Value.size : Value → Nat
  | .word _ => wordSize
  | .flag _ => wordSize
  | .blob value => wordSize + value.length

/-- The word of a flag. -/
def flagWord (flag : Bool) : UInt32 :=
  if flag then 1 else 0

/-- The octets of a blob: its length, then its contents. -/
def blobBytes (bytes : Bytes) : Bytes :=
  wordBytes (UInt32.ofNat bytes.length) ++ bytes

/-- The octets of a value that fits. -/
def Value.bytes : Value → Bytes
  | .word value => wordBytes value
  | .flag value => wordBytes (flagWord value)
  | .blob value => blobBytes value

/-- Encode one value, refusing a blob that is too long. -/
def Value.encode : Value → Except Error Bytes
  | .word value => .ok (wordBytes value)
  | .flag value => .ok (wordBytes (flagWord value))
  | .blob value =>
      if value.length < blobLimit then
        .ok (blobBytes value)
      else
        .error (.blobTooLarge value.length)

/-- Encode values one after the other; the first that does not fit is reported. -/
def encode : List Value → Except Error Bytes
  | [] => .ok []
  | value :: rest =>
      match value.encode with
      | .error error => .error error
      | .ok front =>
          match encode rest with
          | .error error => .error error
          | .ok back => .ok (front ++ back)

/-- Write a value behind a buffer; a value that does not fit leaves the buffer alone. -/
def append
    (buffer : Bytes)
    (value : Value) :
    Except Error Unit × Bytes :=
  match value.encode with
  | .ok bytes => (.ok (), buffer ++ bytes)
  | .error error => (.error error, buffer)

/-- Every value takes as many octets as its size says. -/
@[simp] theorem Value.length_bytes (value : Value) :
    value.bytes.length = value.size := by
  cases value <;> simp [Value.bytes, Value.size, blobBytes]

/-- Exactly the values that fit are encoded, as their octets. -/
theorem Value.encode_eq_ok_iff
    (value : Value)
    (bytes : Bytes) :
    value.encode = .ok bytes ↔ value.Fits ∧ bytes = value.bytes := by
  cases value with
  | word word =>
      simp [Value.encode, Value.Fits, Value.bytes, eq_comm]
  | flag flag =>
      simp [Value.encode, Value.Fits, Value.bytes, eq_comm]
  | blob contents =>
      by_cases fits : contents.length < blobLimit <;>
        simp [Value.encode, Value.Fits, Value.bytes, fits, eq_comm]

end PeerSession.Wire
