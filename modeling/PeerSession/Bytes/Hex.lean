import PeerSession.Bytes

namespace PeerSession.Hex

/-!
# Hexadecimal text

Octets are shown as two lowercase digits each, the high nibble first. Reading
accepts exactly the text that showing produces.
-/

/-- The lowercase digit of a nibble. -/
def digit (nibble : Nat) : Char :=
  if nibble < 10 then
    Char.ofNat (48 + nibble)
  else
    Char.ofNat (87 + nibble)

/-- The nibble that a lowercase digit stands for. -/
def nibble? (char : Char) : Option Nat :=
  if 48 ≤ char.toNat ∧ char.toNat ≤ 57 then
    some (char.toNat - 48)
  else if 97 ≤ char.toNat ∧ char.toNat ≤ 102 then
    some (char.toNat - 87)
  else
    none

/-- The two digits of one octet, high nibble first. -/
def digits (octet : UInt8) : List Char :=
  [digit (octet.toNat / 16), digit (octet.toNat % 16)]

/-- The octet that two digits stand for. -/
def octet? (high low : Char) : Option UInt8 :=
  match nibble? high, nibble? low with
  | some upper, some lower => some (UInt8.ofNat (16 * upper + lower))
  | _, _ => none

/-- Show octets as digits. -/
def encode (bytes : Bytes) : List Char :=
  bytes.flatMap digits

/-- Read digits back, refusing odd lengths and foreign characters. -/
def decode? : List Char → Option Bytes
  | [] => some []
  | [_] => none
  | high :: low :: rest =>
      match octet? high low, decode? rest with
      | some octet, some bytes => some (octet :: bytes)
      | _, _ => none

/-- The digits of octets as a text. -/
def text (bytes : Bytes) : String :=
  String.ofList (encode bytes)

/-- Every nibble is read back from its digit. -/
theorem nibble?_digit
    (nibble : Nat)
    (small : nibble < 16) :
    nibble? (digit nibble) = some nibble :=
  (by decide : ∀ candidate : Fin 16,
    nibble? (digit candidate) = some candidate.val) ⟨nibble, small⟩

/-- Two digits of an octet read back as that octet. -/
@[simp] theorem octet?_digits (octet : UInt8) :
    octet? (digit (octet.toNat / 16)) (digit (octet.toNat % 16)) =
      some octet := by
  have bound : octet.toNat < 256 := octet.toNat_lt
  rw [octet?,
    nibble?_digit (octet.toNat / 16) (by omega),
    nibble?_digit (octet.toNat % 16) (by omega)]
  have whole :
      16 * (octet.toNat / 16) + octet.toNat % 16 = octet.toNat := by
    omega
  simp [whole]

/-- Reading the digits of octets gives the octets. -/
@[simp] theorem decode?_encode (bytes : Bytes) :
    decode? (encode bytes) = some bytes := by
  induction bytes with
  | nil =>
      rfl
  | cons octet rest inductionHypothesis =>
      change
        (match octet? (digit (octet.toNat / 16)) (digit (octet.toNat % 16)),
            decode? (encode rest) with
          | some octet, some bytes => some (octet :: bytes)
          | _, _ => none) = _
      rw [octet?_digits, inductionHypothesis]

end PeerSession.Hex
