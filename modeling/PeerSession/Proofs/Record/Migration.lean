import Mathlib.Data.List.TakeDrop
import PeerSession.Proofs.Key.PlainSealer
import PeerSession.Proofs.Record.Acceptance
import PeerSession.Proofs.Record.RoundTrip

namespace PeerSession.Record

/-!
# Migrated records

A record that is decoded under the plain sealer and encoded again becomes a
record of the newest format: the same values, with what its format lacks filled
in, flags reduced to 0 or 1, the identity blob cut off behind its key, and
nothing behind the session key. A record that is of this kind already stays as
it is, so migrating a record once is enough.
-/

/-- The octets that carry the blob of a session key, none if there is no key. -/
def sealedOctets : Option Bytes → Bytes
  | none => []
  | some blob => Wire.blobBytes blob

/-- Octets consist of a layout, the blob of a session key or none, and a surplus behind a blob. -/
structure Consists
    (bytes : Bytes)
    (layout : Layout)
    (blob? : Option Bytes)
    (surplus : Bytes) :
    Prop where
  recognizable : layout.Recognizable
  split :
    ∃ stored,
      layout.encode = .ok stored ∧
        bytes = stored ++ (sealedOctets blob? ++ surplus)
  fits : ∀ blob, blob? = some blob → blob.length < Wire.blobLimit
  nothing : blob? = none → surplus = []

namespace Layout

/-- The layout that a record of this layout is migrated to. -/
def migrated (layout : Layout) : Layout :=
  .v3
    layout.counter
    layout.id
    layout.version
    (layout.identityBlob.take IdentityKey.serializedLength)
    (Wire.flagWord (layout.verified? == some 1))
    (Wire.flagWord (layout.prekeyRequired? == some 1))
    layout.negotiated

/-- A layout stores its flags as 0 or 1, and nothing behind the key in its identity blob. -/
structure Normal (layout : Layout) : Prop where
  identity :
    layout.identityBlob.length = 0 ∨
      layout.identityBlob.length = IdentityKey.serializedLength
  verified :
    ∀ word, layout.verified? = some word → word = 0 ∨ word = 1
  prekeyRequired :
    ∀ word, layout.prekeyRequired? = some word → word = 0 ∨ word = 1

end Layout

/-- The number of octets that migrating adds to a record of this format. -/
def Format.growth : Format → Nat
  | .unmarked _ => 24
  | .v1 => 16
  | .v2 => 8
  | .v3 => 0

namespace Layout

theorem kinds_eq
    {left right : Layout}
    (sameFormat : left.format = right.format) :
    left.values.map Wire.Value.kind =
      right.values.map Wire.Value.kind := by
  cases left <;> cases right <;> cases sameFormat <;> rfl

/-- Layouts of one format are told apart by their values. -/
theorem values_inj
    {left right : Layout}
    (sameFormat : left.format = right.format)
    (same : left.values = right.values) :
    left = right := by
  cases left <;> cases right <;> cases sameFormat <;>
    simp only [values, fields, idFields, List.map_cons, List.cons_append,
      List.nil_append, List.map_nil] at same <;>
    grind [SessionId, Version]

theorem exists_values_eq_cons (layout : Layout) :
    ∃ later, layout.values = .word layout.format.firstWord :: later := by
  cases layout <;> exact ⟨_, rfl⟩

/-- Layouts that their first words tell apart are told apart by their octets. -/
theorem encode_append_inj
    {left right : Layout}
    {leftStored rightStored leftRest rightRest : Bytes}
    (leftRecognizable : left.Recognizable)
    (rightRecognizable : right.Recognizable)
    (leftEncoded : left.encode = .ok leftStored)
    (rightEncoded : right.encode = .ok rightStored)
    (same : leftStored ++ leftRest = rightStored ++ rightRest) :
    left = right ∧ leftRest = rightRest := by
  obtain ⟨leftFit, rfl⟩ := (Wire.encode_eq_ok_iff _ leftStored).mp leftEncoded
  obtain ⟨rightFit, rfl⟩ :=
    (Wire.encode_eq_ok_iff _ rightStored).mp rightEncoded
  have sameFormat : left.format = right.format := by
    obtain ⟨leftLater, leftValues⟩ := left.exists_values_eq_cons
    obtain ⟨rightLater, rightValues⟩ := right.exists_values_eq_cons
    rw [leftValues, rightValues] at same
    simp only [Wire.octets, List.flatMap_cons, List.append_assoc] at same
    obtain ⟨firstSame, _⟩ :=
      Wire.Value.bytes_append_inj (.word left.format.firstWord)
        (.word right.format.firstWord) rfl trivial trivial same
    rw [← left.recognizable_iff.mp leftRecognizable,
      Wire.Value.word.inj firstSame,
      right.recognizable_iff.mp rightRecognizable]
  obtain ⟨sameValues, sameRest⟩ :=
    Wire.octets_append_inj (kinds_eq sameFormat) leftFit rightFit same
  exact ⟨values_inj sameFormat sameValues, sameRest⟩

end Layout

/-- Octets consist of a layout, a blob and a surplus in one way only. -/
theorem Consists.unique
    {bytes surplus otherSurplus : Bytes}
    {layout otherLayout : Layout}
    {blob? otherBlob? : Option Bytes}
    (consists : Consists bytes layout blob? surplus)
    (other : Consists bytes otherLayout otherBlob? otherSurplus) :
    layout = otherLayout ∧
      blob? = otherBlob? ∧
      surplus = otherSurplus := by
  obtain ⟨stored, encoded, split⟩ := consists.split
  obtain ⟨otherStored, otherEncoded, otherSplit⟩ := other.split
  obtain ⟨rfl, sameRest⟩ :=
    Layout.encode_append_inj consists.recognizable other.recognizable
      encoded otherEncoded (split.symm.trans otherSplit)
  refine ⟨rfl, ?_⟩
  cases blob? with
  | none =>
      cases otherBlob? with
      | none =>
          exact ⟨rfl, sameRest⟩
      | some otherBlob =>
          rw [consists.nothing rfl] at sameRest
          simp [sealedOctets, Wire.blobBytes_ne_nil] at sameRest
  | some blob =>
      cases otherBlob? with
      | none =>
          rw [other.nothing rfl] at sameRest
          simp [sealedOctets, Wire.blobBytes_ne_nil] at sameRest
      | some otherBlob =>
          obtain ⟨⟨⟩, rfl⟩ :=
            Wire.Value.bytes_append_inj (.blob blob) (.blob otherBlob) rfl
              (consists.fits blob rfl) (other.fits otherBlob rfl) sameRest
          exact ⟨rfl, rfl⟩

theorem StoresIdentity.identityBlob_eq
    {blob : Bytes}
    {identity : Option IdentityKey}
    (stores : StoresIdentity blob identity) :
    identityBlob identity = blob.take IdentityKey.serializedLength := by
  cases identity with
  | none =>
      cases stores
      rfl
  | some key =>
      obtain ⟨surplus, rfl⟩ := stores
      rw [← key.length_toBytes, List.take_left]
      rfl

theorem StoresIdentity.length
    {blob : Bytes}
    {identity : Option IdentityKey}
    (stores : StoresIdentity blob identity) :
    blob.length = 0 ∨ IdentityKey.serializedLength ≤ blob.length := by
  cases identity with
  | none =>
      cases stores
      exact Or.inl rfl
  | some key =>
      obtain ⟨surplus, rfl⟩ := stores
      refine Or.inr ?_
      rw [List.length_append, key.length_toBytes]
      exact Nat.le_add_right _ _

/-- A session is stored as the migrated layout of the one that describes it. -/
theorem Layout.Describes.layoutOf_eq
    {layout : Layout}
    {session : Session}
    (describes : layout.Describes session) :
    layoutOf session = layout.migrated := by
  have verified :
      session.verified = (layout.verified? == some 1) := by
    rw [Bool.eq_iff_iff, describes.verified, beq_iff_eq]
  have prekeyRequired :
      session.prekeyRequired = (layout.prekeyRequired? == some 1) := by
    rw [Bool.eq_iff_iff, describes.prekeyRequired, beq_iff_eq]
  simp only [layoutOf, Layout.migrated, describes.counter, describes.id,
    describes.version, describes.negotiated, verified, prekeyRequired,
    describes.identity.identityBlob_eq]

theorem flagWord_eq_self_iff (word : UInt32) :
    Wire.flagWord (word == 1) = word ↔ word = 0 ∨ word = 1 := by
  by_cases isOne : word = 1
  · subst isOne
    decide
  · rw [beq_false_of_ne isOne]
    simp only [Wire.flagWord, Bool.false_eq_true, ↓reduceIte, isOne,
      or_false]
    exact eq_comm

namespace Layout

variable {layout : Layout} {identity : Option IdentityKey}

/-- Of the newest layouts, the normal ones are migrated to themselves. -/
theorem migrated_eq_self_iff
    (newest : layout.format = .v3)
    (stores : StoresIdentity layout.identityBlob identity) :
    layout.migrated = layout ↔ layout.Normal := by
  have length := stores.length
  cases layout with
  | unmarked | v1 | v2 =>
      cases newest
  | v3 counter id version blob verified prekeyRequired negotiated =>
      have split :
          (v3 counter id version blob verified prekeyRequired
                negotiated).migrated =
              v3 counter id version blob verified prekeyRequired
                negotiated ↔
            blob.length ≤ IdentityKey.serializedLength ∧
              (verified = 0 ∨ verified = 1) ∧
              (prekeyRequired = 0 ∨ prekeyRequired = 1) := by
        simp [migrated, Layout.counter, Layout.id, Layout.version,
          identityBlob, verified?, prekeyRequired?, Layout.negotiated,
          flagWord_eq_self_iff]
      rw [split]
      simp only [identityBlob] at length
      constructor
      · rintro ⟨short, verifiedNormal, prekeyNormal⟩
        refine ⟨?_, ?_, ?_⟩
        · simp only [identityBlob]
          omega
        · rintro word ⟨⟩
          exact verifiedNormal
        · rintro word ⟨⟩
          exact prekeyNormal
      · intro normal
        have exact := normal.identity
        simp only [identityBlob] at exact
        exact ⟨by omega, normal.verified _ rfl,
          normal.prekeyRequired _ rfl⟩

/-- Migrating a normal layout adds what the newest format stores beyond its own. -/
theorem length_migrated
    {stored newer : Bytes}
    (normal : layout.Normal)
    (encoded : layout.encode = .ok stored)
    (newerEncoded : layout.migrated.encode = .ok newer) :
    newer.length = stored.length + layout.format.growth := by
  obtain ⟨_, rfl⟩ := (Wire.encode_eq_ok_iff _ stored).mp encoded
  obtain ⟨_, rfl⟩ := (Wire.encode_eq_ok_iff _ newer).mp newerEncoded
  have identity := normal.identity
  cases layout <;>
    simp only [identityBlob] at identity <;>
    simp [migrated, values, fields, idFields, Wire.octets, Wire.Value.size,
      Wire.wordSize, identityBlob, Layout.id, Layout.format,
      Format.growth] <;>
    omega

end Layout

/-- A key that the plain sealer discloses is enclosed in the same blob again. -/
theorem HoldsKey.exists_blob
    {master : MasterSecret}
    {tail : Bytes}
    {key : Option SessionKey}
    (holds : HoldsKey .plain master tail key) :
    ∃ (blob? : Option Bytes) (surplus : Bytes),
      tail = sealedOctets blob? ++ surplus ∧
        (∀ blob, blob? = some blob → blob.length < Wire.blobLimit) ∧
        (blob? = none → surplus = []) ∧
        encodeKey .plain master key = .ok (sealedOctets blob?) := by
  cases holds with
  | absent =>
      exact ⟨none, [], rfl, nofun, fun _ => rfl, rfl⟩
  | @present blob key surplus fits discloses =>
      have encloses : Sealer.plain.enclose key master = .ok blob :=
        (SessionKey.ofPlain_eq_ok_iff blob key).mp discloses
      refine ⟨some blob, surplus, rfl, ?_, nofun, ?_⟩
      · rintro _ ⟨⟩
        exact fits
      · exact (encodeKey_some_eq_ok_iff ..).mpr
          ⟨blob, encloses, fits, rfl⟩

theorem Layout.length_id_lt
    {layout : Layout}
    {stored : Bytes}
    (encoded : layout.encode = .ok stored) :
    layout.id.localFingerprint.length < Wire.blobLimit ∧
      layout.id.remoteFingerprint.length < Wire.blobLimit := by
  obtain ⟨allFit, _⟩ := (Wire.encode_eq_ok_iff _ stored).mp encoded
  cases layout <;>
    simp_all [values, fields, idFields, Wire.Value.Fits, Layout.id]

/-- A decoded session is encoded as the migrated layout with the blob that was read. -/
theorem exists_encode_of_decode
    {master : MasterSecret}
    {recipient : RecipientId}
    {bytes : Bytes}
    {session : Session}
    {format : Format}
    (decoded :
      decode .plain master recipient bytes = .ok (session, format)) :
    ∃ (layout : Layout) (blob? : Option Bytes) (surplus stored : Bytes),
      Consists bytes layout blob? surplus ∧
        layout.format = format ∧
        session.recipient = recipient ∧
        StoresIdentity layout.identityBlob session.identity ∧
        layout.migrated.encode = .ok stored ∧
        encode .plain master session =
          .ok (stored ++ sealedOctets blob?) := by
  obtain ⟨layout, old, tail, recognizable, sameFormat, oldEncoded, split,
    holds, owner, describes⟩ := exists_layout_of_decode decoded
  obtain ⟨blob?, surplus, rfl, fits, nothing, keyEncoded⟩ :=
    holds.exists_blob
  have idFits := Layout.length_id_lt oldEncoded
  rw [← describes.id] at idFits
  obtain ⟨stored, encoded⟩ := (exists_encode_layoutOf_iff session).mpr idFits
  refine ⟨layout, blob?, surplus, stored, ?_, sameFormat, owner,
    describes.identity, ?_, ?_⟩
  · exact ⟨recognizable, ⟨old, oldEncoded, split⟩, fits, nothing⟩
  · rw [← describes.layoutOf_eq]
    exact encoded
  · exact (encode_eq_ok_iff ..).mpr
      ⟨stored, sealedOctets blob?, encoded, keyEncoded, rfl⟩

/--
Every record that decodes under the plain sealer consists of a layout, a blob or
none, and a surplus. Its session is encoded as the migrated layout with the same
blob. That record decodes to the same session, so it is migrated to itself. Of
the newest records exactly those that are normal and have no surplus are what
they are migrated to, and such records of any format grow by a fixed number of
octets.
-/
theorem encode_decoded
    (master : MasterSecret)
    (recipient : RecipientId)
    (bytes : Bytes)
    (session : Session)
    (format : Format)
    (decoded :
      decode .plain master recipient bytes = .ok (session, format)) :
    (∃ layout blob? surplus, Consists bytes layout blob? surplus) ∧
      ∀ layout blob? surplus,
        Consists bytes layout blob? surplus →
        layout.format = format ∧
          ∃ stored,
            layout.migrated.encode = .ok stored ∧
              let migrated := stored ++ sealedOctets blob?
              encode .plain master session = .ok migrated ∧
              decode .plain master recipient migrated =
                .ok (session, .v3) ∧
              (format = .v3 →
                (migrated = bytes ↔ layout.Normal ∧ surplus = [])) ∧
              (layout.Normal →
                surplus = [] →
                migrated.length = bytes.length + format.growth) := by
  obtain ⟨layout, blob?, surplus, stored, consists, rfl, rfl, stores,
    storedEncoded, encoded⟩ := exists_encode_of_decode decoded
  refine ⟨⟨layout, blob?, surplus, consists⟩, ?_⟩
  intro otherLayout otherBlob? otherSurplus otherConsists
  obtain ⟨rfl, rfl, rfl⟩ := consists.unique otherConsists
  refine ⟨rfl, stored, storedEncoded, encoded, ?_, ?_, ?_⟩
  · have restored :=
      decodeOver_encode encoded fun key _ => Sealer.plain_restores master key
    simp only [decode, restored]
  · intro newest
    have migratedConsists :
        Consists (stored ++ sealedOctets blob?) layout.migrated blob? [] :=
      { recognizable := trivial
        split := ⟨stored, storedEncoded, by rw [List.append_nil]⟩
        fits := consists.fits
        nothing := fun _ => rfl }
    rw [← layout.migrated_eq_self_iff newest stores]
    constructor
    · intro same
      rw [same] at migratedConsists
      obtain ⟨sameLayout, _, noSurplus⟩ := migratedConsists.unique consists
      exact ⟨sameLayout, noSurplus.symm⟩
    · rintro ⟨sameLayout, noSurplus⟩
      obtain ⟨old, oldEncoded, split⟩ := consists.split
      rw [sameLayout, oldEncoded] at storedEncoded
      cases storedEncoded
      rw [split, noSurplus, List.append_nil]
  · intro normal noSurplus
    obtain ⟨old, oldEncoded, split⟩ := consists.split
    have grown := Layout.length_migrated normal oldEncoded storedEncoded
    rw [split, noSurplus]
    simp only [List.length_append, List.append_nil]
    omega

/-- A newest record with an odd flag, a session key, and an octet behind it. -/
def untidyRecord : Bytes :=
  Wire.octets
      [ .word Format.markerV3,
        .word 1,
        .blob [2],
        .blob [],
        .word 3,
        .blob [],
        .word 7,
        .word 1,
        .word 4,
        .blob (List.replicate 16 0) ] ++
    [9]

/-- The untidy record is migrated to another one, which then stays as it is. -/
theorem encode_decoded_untidyRecord :
    ∃ session migrated,
      decode .plain { bytes := [] } 7 untidyRecord =
          .ok (session, .v3) ∧
        encode .plain { bytes := [] } session = .ok migrated ∧
        decode .plain { bytes := [] } 7 migrated = .ok (session, .v3) ∧
        migrated ≠ untidyRecord := by
  have consists :
      Consists untidyRecord
        (.v3 1 { localFingerprint := [2], remoteFingerprint := [] }
          { raw := 3 } [] 7 1 { raw := 4 })
        (some (List.replicate 16 0)) [9] :=
    { recognizable := trivial
      split := ⟨_, rfl, rfl⟩
      fits := by decide
      nothing := nofun }
  obtain ⟨_, _, _, encoded, decoded, tidy, _⟩ :=
    (encode_decoded { bytes := [] } 7 untidyRecord _ .v3 rfl).2
      _ _ _ consists
  refine ⟨_, _, rfl, encoded, decoded, ?_⟩
  intro same
  obtain ⟨_, noSurplus⟩ := (tidy rfl).mp same
  cases noSurplus

end PeerSession.Record
