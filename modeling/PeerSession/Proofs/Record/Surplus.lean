import PeerSession.Proofs.Record.Migration

namespace PeerSession.Record

/-!
# Octets behind the session key

A record that is decoded consists of a layout, the blob of its session key, if it
has one, and a surplus behind that blob. What it decodes to depends on the layout
and the blob only, so nobody looks at the surplus. Without a session key there is
none: then every octet of the record is accounted for.
-/

/-- Every octet belongs to a layout of this format or to the blob of a session key. -/
def AccountedFor (format : Format) (record : Bytes) : Prop :=
  ∃ (layout : Layout) (blob? : Option Bytes),
    layout.format = format ∧ Consists record layout blob? []

namespace Consists

variable {record surplus : Bytes} {layout : Layout} {blob? : Option Bytes}

/-- More octets behind the blob of a session key are more surplus. -/
theorem append
    (consists : Consists record layout blob? surplus)
    (keyed : blob? ≠ none)
    (more : Bytes) :
    Consists (record ++ more) layout blob? (surplus ++ more) where
  recognizable := consists.recognizable
  split := by
    obtain ⟨stored, encoded, rfl⟩ := consists.split
    refine ⟨stored, encoded, ?_⟩
    simp only [List.append_assoc]
  fits := consists.fits
  nothing := fun keyless => absurd keyless keyed

/-- Without its surplus a record consists of the same parts. -/
theorem exists_whole (consists : Consists record layout blob? surplus) :
    ∃ whole,
      record = whole ++ surplus ∧ Consists whole layout blob? [] := by
  obtain ⟨stored, encoded, rfl⟩ := consists.split
  refine ⟨stored ++ sealedOctets blob?, ?_, ?_⟩
  · simp only [List.append_assoc]
  · exact
      { recognizable := consists.recognizable
        split := ⟨stored, encoded, by rw [List.append_nil]⟩
        fits := consists.fits
        nothing := fun _ => rfl }

/-- What is not accounted for is the surplus. -/
theorem accountedFor_iff (consists : Consists record layout blob? surplus) :
    AccountedFor layout.format record ↔ surplus = [] := by
  constructor
  · rintro ⟨other, otherBlob?, _, whole⟩
    exact (consists.unique whole).2.2
  · rintro rfl
    exact ⟨layout, blob?, rfl, consists⟩

/-- A record with all its octets accounted for begins with none of the same kind. -/
theorem eq_nil_of_append
    {more : Bytes}
    {other : Layout}
    {otherBlob? : Option Bytes}
    (consists : Consists record layout blob? surplus)
    (whole : Consists (record ++ more) other otherBlob? [])
    (sameKind : blob? = none ↔ otherBlob? = none) :
    more = [] := by
  by_cases keyless : blob? = none
  · obtain ⟨stored, encoded, split⟩ := consists.split
    obtain ⟨otherStored, otherEncoded, otherSplit⟩ := whole.split
    rw [sameKind.mp keyless] at otherSplit
    rw [split, keyless, consists.nothing keyless, List.append_assoc]
      at otherSplit
    exact
      (Layout.encode_append_inj consists.recognizable whole.recognizable
        encoded otherEncoded otherSplit).2
  · have same := (consists.append keyless more).unique whole
    exact (List.append_eq_nil_iff.mp same.2.2).2

end Consists

section

variable
  {sealer : Sealer}
  {master : MasterSecret}
  {recipient : RecipientId}
  {record surplus : Bytes}
  {session : Session}
  {format : Format}

/-- A session is what the sealer makes of a layout and the blob of a session key. -/
structure StandsFor
    (sealer : Sealer)
    (master : MasterSecret)
    (layout : Layout)
    (blob? : Option Bytes)
    (session : Session) :
    Prop where
  describes : layout.Describes session
  discloses :
    blob?.map (sealer.disclose · master) = session.key.map .ok

theorem StandsFor.keyless_iff
    {layout : Layout}
    {blob? : Option Bytes}
    (standsFor : StandsFor sealer master layout blob? session) :
    blob? = none ↔ session.key = none := by
  rw [← Option.map_eq_none_iff, standsFor.discloses,
    Option.map_eq_none_iff]

/-- Whatever is decoded consists of parts that the session stands for. -/
theorem exists_consists_of_decode
    (decoded :
      decode sealer master recipient record = .ok (session, format)) :
    ∃ (layout : Layout) (blob? : Option Bytes) (surplus : Bytes),
      Consists record layout blob? surplus ∧
        layout.format = format ∧
        session.recipient = recipient ∧
        StandsFor sealer master layout blob? session := by
  obtain ⟨layout, stored, tail, recognizable, sameFormat, encoded, rfl,
    holds, owner, describes⟩ := exists_layout_of_decode decoded
  generalize keyed : session.key = key at holds
  cases holds with
  | absent =>
      refine ⟨layout, none, [], ?_, sameFormat, owner, describes, ?_⟩
      · exact
          { recognizable := recognizable
            split := ⟨stored, encoded, rfl⟩
            fits := nofun
            nothing := fun _ => rfl }
      · rw [keyed]
        rfl
  | @present blob key surplus fits discloses =>
      refine ⟨layout, some blob, surplus, ?_, sameFormat, owner,
        describes, ?_⟩
      · exact
          { recognizable := recognizable
            split := ⟨stored, encoded, rfl⟩
            fits := by
              rintro _ ⟨⟩
              exact fits
            nothing := nofun }
      · rw [keyed]
        exact congrArg some discloses

/-- Octets are decoded as the session that their parts stand for, whatever the surplus. -/
theorem decode_of_consists
    {layout : Layout}
    {blob? : Option Bytes}
    (consists : Consists record layout blob? surplus)
    (owner : session.recipient = recipient)
    (standsFor : StandsFor sealer master layout blob? session) :
    decode sealer master recipient record =
      .ok (session, layout.format) := by
  obtain ⟨stored, encoded, rfl⟩ := consists.split
  have stores := standsFor.describes.identity
  have holds :
      HoldsKey sealer master (sealedOctets blob? ++ surplus)
        session.key := by
    have discloses := standsFor.discloses
    cases blob? with
    | none =>
        rw [standsFor.keyless_iff.mp rfl, consists.nothing rfl]
        exact .absent
    | some blob =>
        cases keyed : session.key with
        | none =>
            rw [keyed] at discloses
            cases discloses
        | some key =>
            rw [keyed] at discloses
            exact .present surplus (consists.fits blob rfl)
              (Option.some.inj discloses)
  subst owner
  rw [decode_eq_ok_iff]
  refine ⟨_, (reads_ok_iff ..).mpr ⟨layout, stored, _, session.key,
    consists.recognizable, rfl, encoded, rfl,
    ⟨session.identity, stores⟩, holds, rfl⟩, ?_⟩
  rw [commitAll_fresh stores]
  exact standsFor.describes.eq_takenOver

/-- Without a session key every octet of a decoded record is accounted for. -/
theorem accountedFor_of_keyless
    (decoded :
      decode sealer master recipient record = .ok (session, format))
    (keyless : session.key = none) :
    AccountedFor format record := by
  obtain ⟨layout, blob?, surplus, consists, rfl, _, standsFor⟩ :=
    exists_consists_of_decode decoded
  exact consists.accountedFor_iff.mpr
    (consists.nothing (standsFor.keyless_iff.mpr keyless))

/-- Octets behind a session key change nothing, but they are not accounted for. -/
theorem decode_append_of_keyed
    (decoded :
      decode sealer master recipient record = .ok (session, format))
    (keyed : session.key ≠ none)
    (more : Bytes) :
    decode sealer master recipient (record ++ more) =
        .ok (session, format) ∧
      (AccountedFor format (record ++ more) ↔
        AccountedFor format record ∧ more = []) := by
  obtain ⟨layout, blob?, surplus, consists, rfl, owner, standsFor⟩ :=
    exists_consists_of_decode decoded
  have longer :=
    consists.append (mt standsFor.keyless_iff.mp keyed) more
  refine ⟨decode_of_consists longer owner standsFor, ?_⟩
  rw [longer.accountedFor_iff, consists.accountedFor_iff,
    List.append_eq_nil_iff]

/-- All octets of a session's record are accounted for. -/
theorem consists_of_encode
    (encoded : encode sealer master session = .ok record) :
    ∃ blob?, Consists record (layoutOf session) blob? [] := by
  obtain ⟨stored, keyBytes, storedEncoded, keyEncoded, rfl⟩ :=
    (encode_eq_ok_iff sealer master session record).mp encoded
  cases keyed : session.key with
  | none =>
      rw [keyed] at keyEncoded
      cases keyEncoded
      exact ⟨none,
        { recognizable := recognizable_layoutOf session
          split := ⟨stored, storedEncoded, rfl⟩
          fits := nofun
          nothing := fun _ => rfl }⟩
  | some key =>
      rw [keyed] at keyEncoded
      obtain ⟨blob, _, fits, rfl⟩ :=
        (encodeKey_some_eq_ok_iff sealer master key keyBytes).mp keyEncoded
      exact ⟨some blob,
        { recognizable := recognizable_layoutOf session
          split := ⟨stored, storedEncoded, by
            rw [List.append_nil]
            rfl⟩
          fits := by
            rintro _ ⟨⟩
            exact fits
          nothing := nofun }⟩

theorem accountedFor_of_encode
    (decoded :
      decode sealer master recipient record = .ok (session, format))
    (encoded : encode sealer master session = .ok record) :
    AccountedFor format record := by
  obtain ⟨layout, blob?, surplus, consists, rfl, _, _⟩ :=
    exists_consists_of_decode decoded
  obtain ⟨_, whole⟩ := consists_of_encode encoded
  exact consists.accountedFor_iff.mpr (consists.unique whole).2.2

/-- All octets are accounted for exactly if none at the end can be left out. -/
theorem accountedFor_iff_no_shorter
    (decoded :
      decode sealer master recipient record = .ok (session, format)) :
    AccountedFor format record ↔
      ∀ cut < record.length,
        decode sealer master recipient (record.take cut) ≠
          .ok (session, format) := by
  obtain ⟨layout, blob?, surplus, consists, rfl, owner, standsFor⟩ :=
    exists_consists_of_decode decoded
  rw [consists.accountedFor_iff]
  constructor
  · rintro rfl cut shorter earlier
    obtain ⟨other, otherBlob?, otherSurplus, front, _, _, otherStands⟩ :=
      exists_consists_of_decode earlier
    have same : otherBlob? = none ↔ blob? = none :=
      otherStands.keyless_iff.trans standsFor.keyless_iff.symm
    rw [← record.take_append_drop cut] at consists
    have nothing := front.eq_nil_of_append consists same
    have behind := List.length_drop (i := cut) (l := record)
    rw [nothing, List.length_nil] at behind
    omega
  · intro noShorter
    obtain ⟨whole, rfl, accounted⟩ := consists.exists_whole
    by_contra more
    have positive := List.length_pos_iff.mpr more
    apply noShorter whole.length
    · rw [List.length_append]
      omega
    · rw [List.take_left]
      exact decode_of_consists accounted owner standsFor

end

end PeerSession.Record
