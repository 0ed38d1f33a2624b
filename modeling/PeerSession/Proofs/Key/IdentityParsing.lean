import PeerSession.Key.Identity
import PeerSession.Proofs.Wire.Addressing

namespace PeerSession.IdentityKey

/-!
# Identity keys at an offset

A key is parsed exactly where its serialized octets lie, whatever is in front of
them and behind. Where there is none, either there are too few octets for one or
the first of them is not the type of one. No offset is too large to be asked for.
-/

theorem Fault.toError_eq_tooShort_iff (fault : Fault) :
    fault.toError = .invalidMaterial "identity key too short" ↔
      fault = .tooShort := by
  cases fault <;> decide

theorem Fault.toError_eq_unknownType_iff (fault : Fault) :
    fault.toError = .invalidMaterial "unknown identity key type" ↔
      fault = .unknownType := by
  cases fault <;> decide

/-- There are octets enough at an offset for a serialized key. -/
def EnoughAt (bytes : Bytes) (offset : Nat) : Prop :=
  offset ≤ bytes.length ∧ serializedLength ≤ bytes.length - offset

instance (bytes : Bytes) (offset : Nat) : Decidable (EnoughAt bytes offset) :=
  inferInstanceAs (Decidable (_ ∧ _))

/-- Octets enough are a type octet and at least a public key. -/
theorem EnoughAt.exists_drop_eq
    {bytes : Bytes}
    {offset : Nat}
    (enough : EnoughAt bytes offset) :
    ∃ kind material,
      bytes.drop offset = kind :: material ∧
        32 ≤ material.length ∧
        bytes[offset]? = some kind := by
  obtain ⟨_, enough⟩ := enough
  rw [← List.length_drop] at enough
  cases shape : bytes.drop offset with
  | nil =>
      rw [shape] at enough
      cases enough
  | cons kind material =>
      rw [shape, List.length_cons, serializedLength, keyLength] at enough
      refine ⟨kind, material, rfl, by omega, ?_⟩
      rw [← List.head?_drop, shape, List.head?_cons]

/-- Too few octets are reported before a wrong type. -/
theorem parse_of_not_enoughAt
    {bytes : Bytes}
    {offset : Nat}
    (short : ¬ EnoughAt bytes offset) :
    parse bytes offset = .error .tooShort := by
  have few : (bytes.drop offset).length < serializedLength := by
    rw [List.length_drop]
    unfold EnoughAt at short
    simp only [serializedLength, keyLength] at short ⊢
    omega
  unfold parse
  split
  · rfl
  · rename_i shape
    rw [shape, List.length_cons, serializedLength, keyLength] at few
    rw [dif_neg (by omega)]

/-- Octets enough for a key are one if the first is the type of one. -/
theorem parse_of_drop_eq
    {bytes material : Bytes}
    {offset : Nat}
    {kind : UInt8}
    (shape : bytes.drop offset = kind :: material)
    (enough : 32 ≤ material.length) :
    parse bytes offset =
      if kind = typeOctet then
        .ok
          { publicKey := material.take 32
            length_eq := List.length_take_of_le enough }
      else
        .error .unknownType := by
  simp only [parse, shape, enough, ↓reduceDIte]

/-- A key is parsed exactly where octets start with it. -/
theorem parse_eq_ok_iff
    (bytes : Bytes)
    (offset : Nat)
    (key : IdentityKey) :
    parse bytes offset = .ok key ↔
      ∃ surplus, bytes.drop offset = key.toBytes ++ surplus := by
  constructor
  · intro parsed
    by_cases enough : EnoughAt bytes offset
    · obtain ⟨kind, material, shape, long, _⟩ := enough.exists_drop_eq
      rw [parse_of_drop_eq shape long] at parsed
      split at parsed
      · rename_i isKey
        cases parsed
        refine ⟨material.drop 32, ?_⟩
        rw [shape, isKey, toBytes, List.cons_append,
          List.take_append_drop]
      · cases parsed
    · rw [parse_of_not_enoughAt enough] at parsed
      cases parsed
  · rintro ⟨surplus, shape⟩
    have long : 32 ≤ (key.publicKey ++ surplus).length := by
      rw [List.length_append, key.length_eq]
      exact Nat.le_add_right 32 surplus.length
    rw [parse_of_drop_eq shape long, if_pos rfl]
    have front : (key.publicKey ++ surplus).take 32 = key.publicKey := by
      rw [← key.length_eq, List.take_left]
    exact congrArg Except.ok (IdentityKey.ext front)

/-- The octets of the key that is parsed are the 33 at the offset. -/
theorem parse_eq_ok_iff_extract
    (bytes : Bytes)
    (offset : Nat)
    (key : IdentityKey) :
    parse bytes offset = .ok key ↔
      EnoughAt bytes offset ∧
        key.toBytes = bytes.extract offset (offset + serializedLength) := by
  rw [parse_eq_ok_iff, List.extract_eq_take_drop, Nat.add_sub_cancel_left]
  constructor
  · rintro ⟨surplus, shape⟩
    have size := congrArg List.length shape
    rw [List.length_drop, List.length_append, length_toBytes] at size
    refine ⟨?_, ?_⟩
    · unfold EnoughAt
      simp only [serializedLength, keyLength] at size ⊢
      omega
    · rw [shape, ← key.length_toBytes, List.take_left]
  · rintro ⟨_, same⟩
    refine ⟨(bytes.drop offset).drop serializedLength, ?_⟩
    rw [same, List.take_append_drop]

/-- How parsing ends, by the octets at the offset. -/
theorem parse_cases (bytes : Bytes) (offset : Nat) :
    (¬ EnoughAt bytes offset ∧ parse bytes offset = .error .tooShort) ∨
      (EnoughAt bytes offset ∧
        bytes[offset]? ≠ some typeOctet ∧
        parse bytes offset = .error .unknownType) ∨
      (EnoughAt bytes offset ∧
        bytes[offset]? = some typeOctet ∧
        ∃ key, parse bytes offset = .ok key) := by
  by_cases enough : EnoughAt bytes offset
  · obtain ⟨kind, material, shape, long, first⟩ := enough.exists_drop_eq
    rw [parse_of_drop_eq shape long, first]
    by_cases isKey : kind = typeOctet
    · rw [if_pos isKey]
      exact Or.inr (Or.inr ⟨enough, congrArg some isKey, _, rfl⟩)
    · rw [if_neg isKey]
      exact Or.inr (Or.inl ⟨enough, mt Option.some.inj isKey, rfl⟩)
  · exact Or.inl ⟨enough, parse_of_not_enoughAt enough⟩

/-- The octets from an offset on, unless it is beyond the end. -/
def octetsFrom? (bytes : Bytes) (offset : Nat) : Option Bytes :=
  if offset ≤ bytes.length then
    some (bytes.drop offset)
  else
    none

/-- The octets from an offset on, if there are enough for a serialized key. -/
def serializedFrom? (bytes : Bytes) (offset : Nat) : Option Bytes :=
  (octetsFrom? bytes offset).filter fun rest =>
    serializedLength ≤ rest.length

/-- Parse the serialized key at an offset by position: its type octet, then a copy of the rest. -/
def parseByPosition
    (bytes : Bytes)
    (offset : Nat) :
    Except Wire.Trap (Except Fault IdentityKey) :=
  match serializedFrom? bytes offset with
  | none => .ok (.error .tooShort)
  | some serialized =>
      match Wire.slice serialized 0 1 with
      | .error trap => .error trap
      | .ok kind =>
          if kind = [typeOctet] then
            match Wire.slice serialized 1 serializedLength with
            | .error trap => .error trap
            | .ok publicKey =>
                match ofPublicKey? publicKey with
                | some key => .ok (.ok key)
                | none => .error .unequalLengths
          else
            .ok (.error .unknownType)

theorem serializedFrom?_eq (bytes : Bytes) (offset : Nat) :
    serializedFrom? bytes offset =
      if EnoughAt bytes offset then
        some (bytes.drop offset)
      else
        none := by
  by_cases inside : offset ≤ bytes.length
  · simp [serializedFrom?, octetsFrom?, EnoughAt, inside, Option.filter]
  · simp [serializedFrom?, octetsFrom?, EnoughAt, inside]

/-- The type octet of a serialized key is a slice of it. -/
theorem slice_type (kind : UInt8) (material : Bytes) :
    Wire.slice (kind :: material) 0 1 = .ok [kind] := by
  rw [Wire.slice, if_pos (by simp)]
  rfl

/-- The public key behind a type octet is a slice, and has the right length. -/
theorem slice_publicKey
    (kind : UInt8)
    {material : Bytes}
    (enough : 32 ≤ material.length) :
    Wire.slice (kind :: material) 1 serializedLength =
        .ok (material.take 32) ∧
      ofPublicKey? (material.take 32) =
        some
          { publicKey := material.take 32
            length_eq := List.length_take_of_le enough } := by
  have inside : serializedLength ≤ (kind :: material).length := by
    rw [List.length_cons, serializedLength, keyLength]
    omega
  refine ⟨?_, dif_pos _⟩
  rw [Wire.slice, if_pos ⟨by decide, inside⟩, List.extract_eq_take_drop]
  rfl

/-- No offset leads to a trap. -/
theorem parseByPosition_eq (bytes : Bytes) (offset : Nat) :
    parseByPosition bytes offset = .ok (parse bytes offset) := by
  rw [parseByPosition, serializedFrom?_eq]
  by_cases enough : EnoughAt bytes offset
  · obtain ⟨kind, material, shape, long, _⟩ := enough.exists_drop_eq
    obtain ⟨publicKey, copied⟩ := slice_publicKey kind long
    simp only [if_pos enough, shape, slice_type, publicKey, copied,
      parse_of_drop_eq shape long, List.cons.injEq, and_true]
    split <;> rfl
  · simp only [if_neg enough, parse_of_not_enoughAt enough]

end PeerSession.IdentityKey

namespace PeerSession

/--
At any offset, however far beyond the end, a key is parsed exactly if there are 33
octets and the first is the type octet, and it is then the key that is serialized as
these. Otherwise the reason is a shortage of octets, and only where there is none an
unknown type. Computing it by position runs into no trap. Every key is parsed behind
what is in front of its octets, whatever follows them.
-/
theorem identity_parsed_at_offset
    (bytes : Bytes)
    (offset : Nat) :
    let parsed := IdentityKey.parse bytes offset
    let length := IdentityKey.serializedLength
    let enough := offset ≤ bytes.length ∧ length ≤ bytes.length - offset
    let isTyped := bytes[offset]? = some IdentityKey.typeOctet
    ((∃ key, parsed = .ok key) ↔ enough ∧ isTyped) ∧
      (∀ key : IdentityKey,
        parsed = .ok key ↔
          enough ∧ key.toBytes = bytes.extract offset (offset + length)) ∧
      (∀ fault : IdentityKey.Fault,
        parsed = .error fault ↔
          ¬ enough ∧
              fault.toError = .invalidMaterial "identity key too short" ∨
            enough ∧
              ¬ isTyped ∧
              fault.toError =
                .invalidMaterial "unknown identity key type") ∧
      IdentityKey.parseByPosition bytes offset = .ok parsed ∧
      ∀ (key : IdentityKey) (front surplus : Bytes),
        IdentityKey.parse (front ++ key.toBytes ++ surplus) front.length =
          .ok key := by
  intro parsed length enough isTyped
  have ends := IdentityKey.parse_cases bytes offset
  refine ⟨?_, IdentityKey.parse_eq_ok_iff_extract bytes offset, ?_,
    IdentityKey.parseByPosition_eq bytes offset, ?_⟩
  · rcases ends with
        ⟨short, refused⟩ | ⟨_, untyped, refused⟩ |
        ⟨long, typed, key, found⟩
    · simp only [parsed, refused, reduceCtorEq, exists_false, false_iff]
      exact fun both => short both.1
    · simp only [parsed, refused, reduceCtorEq, exists_false, false_iff]
      exact fun both => untyped both.2
    · exact iff_of_true ⟨key, found⟩ ⟨long, typed⟩
  · intro fault
    rw [fault.toError_eq_tooShort_iff, fault.toError_eq_unknownType_iff]
    rcases ends with
        ⟨short, refused⟩ | ⟨long, untyped, refused⟩ |
        ⟨long, typed, key, found⟩
    · have short : ¬ enough := short
      simp [parsed, refused, short, eq_comm]
    · have long : enough := long
      have untyped : ¬ isTyped := untyped
      simp [parsed, refused, long, untyped, eq_comm]
    · have long : enough := long
      have typed : isTyped := typed
      simp [parsed, found, long, typed]
  · intro key front surplus
    rw [IdentityKey.parse_eq_ok_iff, List.append_assoc, List.drop_left]
    exact ⟨surplus, rfl⟩

end PeerSession
