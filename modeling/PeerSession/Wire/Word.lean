import PeerSession.Bytes

namespace PeerSession.Wire

/-!
# Words

A word is an unsigned 32-bit number in four octets, the most significant octet
first. The two directions are inverse to each other.
-/

/-- The number of octets of a word. -/
def wordSize : Nat := 4

/-- The four octets of a word, most significant first. -/
def wordBytes (word : UInt32) : Bytes :=
  [ UInt8.ofNat (word.toNat / 256 / 256 / 256),
    UInt8.ofNat (word.toNat / 256 / 256),
    UInt8.ofNat (word.toNat / 256),
    UInt8.ofNat word.toNat ]

/-- The word that four octets stand for, most significant first. -/
def wordOf (first second third fourth : UInt8) : UInt32 :=
  UInt32.ofNat
    (((first.toNat * 256 + second.toNat) * 256 + third.toNat) * 256 +
      fourth.toNat)

/-- Every word has four octets. -/
@[simp] theorem length_wordBytes (word : UInt32) :
    (wordBytes word).length = wordSize :=
  rfl

/-- The octets of a word stand for that word. -/
@[simp] theorem wordOf_wordBytes (word : UInt32) :
    wordOf
        (UInt8.ofNat (word.toNat / 256 / 256 / 256))
        (UInt8.ofNat (word.toNat / 256 / 256))
        (UInt8.ofNat (word.toNat / 256))
        (UInt8.ofNat word.toNat) =
      word := by
  have bound : word.toNat < 2 ^ 32 := word.toNat_lt
  have sum :
      ((word.toNat / 256 / 256 / 256 % 2 ^ 8 * 256 +
              word.toNat / 256 / 256 % 2 ^ 8) * 256 +
            word.toNat / 256 % 2 ^ 8) * 256 +
          word.toNat % 2 ^ 8 =
        word.toNat := by
    omega
  simp only [wordOf, UInt8.toNat_ofNat', sum]
  exact UInt32.ofNat_toNat

/-- Four octets are the octets of the word they stand for. -/
theorem wordBytes_wordOf (first second third fourth : UInt8) :
    wordBytes (wordOf first second third fourth) =
      [first, second, third, fourth] := by
  have firstBound : first.toNat < 2 ^ 8 := first.toNat_lt
  have secondBound : second.toNat < 2 ^ 8 := second.toNat_lt
  have thirdBound : third.toNat < 2 ^ 8 := third.toNat_lt
  have fourthBound : fourth.toNat < 2 ^ 8 := fourth.toNat_lt
  have small :
      (wordOf first second third fourth).toNat =
        ((first.toNat * 256 + second.toNat) * 256 + third.toNat) * 256 +
          fourth.toNat := by
    simp only [wordOf, UInt32.toNat_ofNat']
    omega
  simp only [wordBytes, small, List.cons.injEq, and_true,
    ← UInt8.toNat_inj, UInt8.toNat_ofNat']
  omega

end PeerSession.Wire
