import PeerSession.Proofs.Key.IdentityParsing

namespace PeerSession

/-!
# Fingerprints

A text shows octets if it has two lowercase digits for each of them, that of the high
nibble first. Every text shows at most one sequence of octets, and every sequence is
shown by exactly one text. Nothing else is asked of the encoder that makes fingerprints,
nor of a decoder than that it reads such texts: peers who find the same fingerprint have
the same key, and the key can be read back from it.
-/

namespace Hex

/-- The lowercase digits, each at the place of its value. -/
def alphabet : List Char :=
  ['0', '1', '2', '3', '4', '5', '6', '7',
    '8', '9', 'a', 'b', 'c', 'd', 'e', 'f']

/-- A text has two digits for each octet, at twice its place and behind it. -/
structure Shows (text : List Char) (bytes : Bytes) : Prop where
  length : text.length = 2 * bytes.length
  high :
    ∀ place octet,
      bytes[place]? = some octet →
        text[2 * place]? = alphabet[octet.toNat / 16]?
  low :
    ∀ place octet,
      bytes[place]? = some octet →
        text[2 * place + 1]? = alphabet[octet.toNat % 16]?

/-- The digit of a nibble is the one at its place. -/
theorem getElem?_alphabet
    {nibble : Nat}
    (small : nibble < 16) :
    alphabet[nibble]? = some (digit nibble) :=
  (by decide : ∀ candidate : Fin 16,
    alphabet[candidate.val]? = some (digit candidate)) ⟨nibble, small⟩

theorem high_lt (octet : UInt8) : octet.toNat / 16 < 16 := by
  have bound : octet.toNat < 256 := octet.toNat_lt
  omega

theorem low_lt (octet : UInt8) : octet.toNat % 16 < 16 :=
  Nat.mod_lt _ (by decide)

theorem encode_cons (octet : UInt8) (bytes : Bytes) :
    encode (octet :: bytes) =
      digit (octet.toNat / 16) :: digit (octet.toNat % 16) ::
        encode bytes :=
  rfl

@[simp] theorem length_encode (bytes : Bytes) :
    (encode bytes).length = 2 * bytes.length := by
  induction bytes with
  | nil =>
      rfl
  | cons octet bytes inductionHypothesis =>
      simp only [encode_cons, List.length_cons, inductionHypothesis]
      omega

namespace Shows

variable {text : List Char} {octet : UInt8} {bytes : Bytes}

/-- The digits of an octet in front of a text that shows octets show it in front of them. -/
theorem cons (shown : Shows text bytes) (octet : UInt8) :
    Shows
      (digit (octet.toNat / 16) :: digit (octet.toNat % 16) :: text)
      (octet :: bytes) where
  length := by
    simp only [List.length_cons, shown.length]
    omega
  high := by
    intro place other found
    cases place with
    | zero =>
        cases found
        exact (getElem?_alphabet (high_lt octet)).symm
    | succ place =>
        exact shown.high place other found
  low := by
    intro place other found
    cases place with
    | zero =>
        cases found
        exact (getElem?_alphabet (low_lt octet)).symm
    | succ place =>
        exact shown.low place other found

/-- What shows octets starts with the digits of the first one. -/
theorem exists_cons (shown : Shows text (octet :: bytes)) :
    ∃ rest,
      text =
          digit (octet.toNat / 16) :: digit (octet.toNat % 16) :: rest ∧
        Shows rest bytes := by
  obtain ⟨length, high, low⟩ := shown
  match text, length with
  | first :: second :: rest, length =>
      have isHigh := high 0 octet rfl
      have isLow := low 0 octet rfl
      rw [getElem?_alphabet (high_lt octet)] at isHigh
      rw [getElem?_alphabet (low_lt octet)] at isLow
      cases isHigh
      cases isLow
      refine ⟨rest, rfl, ?_, fun place => high (place + 1),
        fun place => low (place + 1)⟩
      simp only [List.length_cons] at length
      omega

end Shows

/-- A text shows octets exactly if it is their encoding. -/
theorem shows_iff (text : List Char) (bytes : Bytes) :
    Shows text bytes ↔ text = encode bytes := by
  induction bytes generalizing text with
  | nil =>
      constructor
      · intro shown
        exact List.eq_nil_of_length_eq_zero shown.length
      · rintro rfl
        exact ⟨rfl, nofun, nofun⟩
  | cons octet bytes inductionHypothesis =>
      constructor
      · intro shown
        obtain ⟨rest, rfl, later⟩ := shown.exists_cons
        rw [(inductionHypothesis rest).mp later, encode_cons]
      · rintro rfl
        exact Shows.cons ((inductionHypothesis _).mpr rfl) octet

/-- Nothing but lowercase digits is used. -/
theorem encode_subset (bytes : Bytes) : encode bytes ⊆ alphabet := by
  intro character member
  obtain ⟨octet, _, isDigit⟩ := List.mem_flatMap.mp member
  cases isDigit with
  | head =>
      exact List.mem_of_getElem? (getElem?_alphabet (high_lt octet))
  | tail _ isLow =>
      cases List.mem_singleton.mp isLow
      exact List.mem_of_getElem? (getElem?_alphabet (low_lt octet))

/-- Different octets have different encodings. -/
theorem encode_inj {left right : Bytes} :
    encode left = encode right ↔ left = right := by
  constructor
  · intro same
    have decoded := congrArg decode? same
    rw [decode?_encode, decode?_encode] at decoded
    exact Option.some.inj decoded
  · exact congrArg encode

/-- What reads digits back reads every text that shows octets. -/
theorem decode?_of_shows
    {text : List Char}
    {bytes : Bytes}
    (shown : Shows text bytes) :
    decode? text = some bytes := by
  rw [(shows_iff text bytes).mp shown, decode?_encode]

/-- The digits of octets are a text that shows them. -/
theorem shows_text (bytes : Bytes) : Shows (text bytes).toList bytes :=
  (shows_iff _ bytes).mpr String.toList_ofList

end Hex

namespace IdentityKey

/-- A key is known by its serialized octets. -/
theorem toBytes_inj {left right : IdentityKey} :
    left.toBytes = right.toBytes ↔ left = right := by
  constructor
  · intro same
    exact IdentityKey.ext (List.tail_eq_of_cons_eq same)
  · exact congrArg toBytes

/-- A serialized key is parsed as the key. -/
theorem parse_toBytes (key : IdentityKey) :
    parse key.toBytes 0 = .ok key :=
  (parse_eq_ok_iff _ _ _).mpr ⟨[], (List.append_nil _).symm⟩

end IdentityKey

/--
Fingerprints are made by an encoder whose texts show octets. Keys have the same one
exactly if they are the same. A fingerprint is the only text that shows the 33 octets of
its key, with two lowercase digits for each, that of the high nibble first. It has 66
characters and starts with the type of a key. Reading its digits back gives octets that
are parsed as the key, and so does any other decoder that reads texts which show octets.
It shows no other octets, so that whoever reads it comes to the same key.
-/
theorem fingerprint_identifies_key
    (encode : Bytes → String)
    (encodes : ∀ bytes, Hex.Shows (encode bytes).toList bytes)
    (key : IdentityKey) :
    let fingerprint := key.fingerprintBy encode
    let characters := fingerprint.toList
    (∀ other : IdentityKey,
        fingerprint = other.fingerprintBy encode ↔ key = other) ∧
      (∀ text : String,
        Hex.Shows text.toList key.toBytes ↔ text = fingerprint) ∧
      fingerprint.length = 66 ∧
      characters ⊆ Hex.alphabet ∧
      ['0', '5'] <+: characters ∧
      (Hex.decode? characters).map (IdentityKey.parse · 0) =
        some (.ok key) ∧
      (∀ decode : String → Option Bytes,
        (∀ text bytes,
          Hex.Shows text.toList bytes → decode text = some bytes) →
        (decode fingerprint).map (IdentityKey.parse · 0) =
          some (.ok key)) ∧
      ∀ bytes : Bytes,
        Hex.Shows characters bytes ↔ bytes = key.toBytes := by
  intro fingerprint characters
  have digits (bytes : Bytes) :
      (encode bytes).toList = Hex.encode bytes :=
    (Hex.shows_iff _ bytes).mp (encodes bytes)
  have encoded : characters = Hex.encode key.toBytes :=
    digits key.toBytes
  refine ⟨?_, ?_, ?_, ?_, ?_, ?_, ?_, ?_⟩
  · intro other
    rw [← String.toList_inj, ← IdentityKey.toBytes_inj, ← Hex.encode_inj,
      ← digits, ← digits]
    rfl
  · intro text
    rw [Hex.shows_iff, ← encoded]
    exact String.toList_inj
  · have count : characters.length = 66 := by
      rw [encoded, Hex.length_encode, key.length_toBytes]
      rfl
    rw [← String.length_toList]
    exact count
  · rw [encoded]
    exact Hex.encode_subset key.toBytes
  · exact ⟨_, encoded.symm⟩
  · rw [encoded, Hex.decode?_encode, Option.map_some, key.parse_toBytes]
  · intro decode decodes
    have decoded : decode fingerprint = some key.toBytes :=
      decodes fingerprint key.toBytes (encodes key.toBytes)
    rw [decoded, Option.map_some, key.parse_toBytes]
  · intro bytes
    rw [Hex.shows_iff, encoded, Hex.encode_inj, eq_comm]

/-- A key that has zeros in front of its last octet. -/
def keyEndingIn (octet : UInt8) : IdentityKey where
  publicKey := List.replicate 31 0 ++ [octet]
  length_eq := rfl

/-- No zero in front is left out, so that keys which end in 0a and in a0 are told apart. -/
theorem fingerprint_identifies_key_leadingZeros :
    (∀ bytes, Hex.Shows (Hex.text bytes).toList bytes) ∧
      (∀ text : String,
        ∀ bytes,
          Hex.Shows text.toList bytes →
            Hex.decode? text.toList = some bytes) ∧
      let fingerprint := (keyEndingIn 10).fingerprint
      fingerprint ≠ (keyEndingIn 160).fingerprint ∧
        fingerprint.length = 66 ∧
        ['0', 'a'] <:+ fingerprint.toList ∧
        (Hex.decode? fingerprint.toList).map (IdentityKey.parse · 0) =
          some (.ok (keyEndingIn 10)) := by
  have decodes (text : String) (bytes : Bytes) :
      Hex.Shows text.toList bytes →
        Hex.decode? text.toList = some bytes :=
    Hex.decode?_of_shows
  obtain ⟨same, _, length, _, _, _, reads, _⟩ :=
    fingerprint_identifies_key Hex.text Hex.shows_text (keyEndingIn 10)
  refine ⟨Hex.shows_text, decodes, ?_, length, ?_, reads _ decodes⟩
  · intro alike
    have sameKey := (same (keyEndingIn 160)).mp alike
    exact absurd sameKey (by decide)
  · exact ⟨Hex.encode ((keyEndingIn 10).toBytes.take 32), by decide +kernel⟩

end PeerSession
