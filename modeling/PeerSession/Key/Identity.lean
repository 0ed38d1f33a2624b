import PeerSession.Bytes.Hex
import PeerSession.Key.Error

namespace PeerSession

/-!
# Identity keys

A peer's identity key is a public key of 32 octets. Serialized, it follows a
type octet. Parsing looks at the 33 octets at an offset and ignores what comes
after them; a shortage of octets is reported before a wrong type.
-/

/-- A peer's long-term public identity key. -/
@[ext] structure IdentityKey where
  publicKey : Bytes
  length_eq : publicKey.length = 32
  deriving DecidableEq

namespace IdentityKey

/-- The number of octets of a public key. -/
def keyLength : Nat := 32

/-- The type octet in front of a serialized key. -/
def typeOctet : UInt8 := 5

/-- The number of octets of a serialized key: its type and the public key. -/
def serializedLength : Nat := 1 + keyLength

/-- Why octets are not a serialized identity key. -/
inductive Fault where
  | tooShort
  | unknownType
  deriving DecidableEq, Repr

/-- The reason given for a fault. -/
def Fault.reason : Fault → String
  | .tooShort => "identity key too short"
  | .unknownType => "unknown identity key type"

/-- A fault as a key error. -/
def Fault.toError (fault : Fault) : Key.Error :=
  .invalidMaterial fault.reason

/-- The key with the given public key, which must have the right length. -/
def ofPublicKey? (publicKey : Bytes) : Option IdentityKey :=
  if length_eq : publicKey.length = 32 then
    some { publicKey := publicKey, length_eq := length_eq }
  else
    none

/-- The type octet and the public key. -/
def toBytes (key : IdentityKey) : Bytes :=
  typeOctet :: key.publicKey

/-- Parse the serialized key at an offset. -/
def parse
    (bytes : Bytes)
    (offset : Nat) :
    Except Fault IdentityKey :=
  match bytes.drop offset with
  | [] => .error .tooShort
  | kind :: material =>
      if enough : 32 ≤ material.length then
        if kind = typeOctet then
          .ok
            { publicKey := material.take 32
              length_eq := List.length_take_of_le enough }
        else
          .error .unknownType
      else
        .error .tooShort

/-- The text that peers compare to verify a key, as an encoder shows its octets. -/
def fingerprintBy
    (encode : Bytes → String)
    (key : IdentityKey) :
    String :=
  encode key.toBytes

/-- The text that peers compare to verify a key, in hexadecimal digits. -/
def fingerprint (key : IdentityKey) : String :=
  key.fingerprintBy Hex.text

/-- A key as it is shown in diagnostics. -/
def description (key : IdentityKey) : String :=
  "IdentityKey(\"" ++ key.fingerprint ++ "\")"

/-- Every serialized key has 33 octets. -/
@[simp] theorem length_toBytes (key : IdentityKey) :
    key.toBytes.length = serializedLength := by
  simp [toBytes, key.length_eq, serializedLength, keyLength]

end IdentityKey

end PeerSession
