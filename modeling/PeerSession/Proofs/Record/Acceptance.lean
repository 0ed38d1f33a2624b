import PeerSession.Proofs.Record.Contents
import PeerSession.Proofs.Record.Reads

namespace PeerSession.Record

/-!
# Accepted records

A record is read to its end exactly when it is one of the four layouts with
nothing behind it, or with a complete blob behind it that the sealer discloses.
Which session it stands for is told by the values of the layout and the key that
was disclosed, and by nothing else.
-/

/-- What may follow a layout: nothing, or the blob of a session key and any surplus. -/
inductive HoldsKey
    (sealer : Sealer)
    (master : MasterSecret) :
    Bytes → Option SessionKey → Prop where
  | absent :
      HoldsKey sealer master [] none
  | present
      {blob : Bytes}
      {key : SessionKey}
      (surplus : Bytes)
      (fits : blob.length < Wire.blobLimit)
      (discloses : sealer.disclose blob master = .ok key) :
      HoldsKey sealer master (Wire.blobBytes blob ++ surplus) (some key)

/-- A session has the values of a layout, and the usual ones where it stores none. -/
structure Layout.Describes
    (layout : Layout)
    (session : Session) :
    Prop where
  counter : session.counter = layout.counter
  id : session.id = layout.id
  version : session.version = layout.version
  negotiated : session.negotiated = layout.negotiated
  identity : StoresIdentity layout.identityBlob session.identity
  verified : session.verified = true ↔ layout.verified? = some 1
  prekeyRequired :
    session.prekeyRequired = true ↔ layout.prekeyRequired? = some 1

/-- The commits that are made for the octets behind a layout. -/
def keyCommits (key : Option SessionKey) : List Commit :=
  key.toList.map .key

/-- A session key that follows takes the place of the one before, if there is one. -/
theorem commitAll_keyCommits
    (session : Session)
    (key : Option SessionKey) :
    session.commitAll (keyCommits key) =
      { session with key := key <|> session.key } := by
  cases key <;> rfl

/-- Octets are read to their end exactly if they are a layout and what may follow it. -/
theorem reads_ok_iff
    (sealer : Sealer)
    (master : MasterSecret)
    (bytes : Bytes)
    (commits : List Commit)
    (format : Format) :
    Reads sealer master bytes commits (.ok format) ↔
      ∃ (layout : Layout) (stored tail : Bytes) (key : Option SessionKey),
        layout.Recognizable ∧
          layout.format = format ∧
          layout.encode = .ok stored ∧
          bytes = stored ++ tail ∧
          (∃ identity, StoresIdentity layout.identityBlob identity) ∧
          HoldsKey sealer master tail key ∧
          commits = layout.script.commits ++ keyCommits key := by
  constructor
  · intro reads
    cases reads with
    | @whole layout _ recognizable completes =>
        obtain ⟨⟨stored, encoded, same⟩, stores⟩ :=
          (layout.completes_script_iff bytes []).mp completes
        exact ⟨layout, stored, [], none, recognizable, rfl, encoded,
          same, stores, .absent, (List.append_nil _).symm⟩
    | @sealed layout _ rest blob surplus recognizable completes _ key =>
        obtain ⟨⟨stored, encoded, same⟩, stores⟩ :=
          (layout.completes_script_iff bytes rest).mp completes
        obtain ⟨fits, split, disclosed, discloses⟩ :=
          (completes_keySteps_iff ..).mp key
        subst split
        refine ⟨layout, stored, _, some disclosed, recognizable, rfl,
          encoded, same, stores, .present surplus fits discloses, ?_⟩
        rw [commits_keySteps discloses]
        rfl
  · rintro ⟨layout, stored, tail, key, recognizable, rfl, encoded,
      same, stores, holds, rfl⟩
    have completes : layout.script.Completes bytes tail :=
      (layout.completes_script_iff bytes tail).mpr
        ⟨⟨stored, encoded, same⟩, stores⟩
    cases holds with
    | absent =>
        rw [keyCommits, Option.toList_none, List.map_nil, List.append_nil]
        exact .whole recognizable completes
    | @present blob key surplus fits discloses =>
        have keyCompletes :
            (keySteps sealer master blob).Completes
              (Wire.blobBytes blob ++ surplus) surplus :=
          (completes_keySteps_iff ..).mpr ⟨fits, rfl, key, discloses⟩
        have more : Wire.blobBytes blob ++ surplus ≠ [] := by
          simp [Wire.blobBytes_ne_nil]
        have commits :
            (keySteps sealer master blob).commits =
              keyCommits (some key) :=
          commits_keySteps discloses
        rw [← commits]
        exact .sealed recognizable completes more keyCompletes

namespace Layout

/-- What a fresh session becomes by taking a layout over is described by the layout. -/
theorem describes_takenOver
    {layout : Layout}
    {identity : Option IdentityKey}
    (stores : StoresIdentity layout.identityBlob identity)
    (recipient : RecipientId)
    (key : Option SessionKey) :
    layout.Describes
      { layout.takenOver identity (.fresh recipient) with key := key } where
  counter := rfl
  id := rfl
  version := rfl
  negotiated := rfl
  identity := by
    cases layout with
    | unmarked | v1 =>
        rfl
    | v2 | v3 =>
        exact stores
  verified := by
    simp [takenOver, Session.fresh]
  prekeyRequired := by
    cases layout <;> simp [takenOver, Session.fresh, prekeyRequired?]

/-- A session that a layout describes is what a fresh one becomes, up to its key. -/
theorem Describes.eq_takenOver
    {layout : Layout}
    {session : Session}
    (describes : layout.Describes session) :
    session =
      { layout.takenOver session.identity (.fresh session.recipient) with
        key := session.key } := by
  ext1
  · rfl
  · exact describes.counter
  · exact describes.id
  · exact describes.version
  · exact describes.negotiated
  · have stores := describes.identity
    cases layout with
    | unmarked | v1 =>
        exact (storesIdentity_nil_iff session.identity).mp stores
    | v2 | v3 =>
        rfl
  · rfl
  · rw [Bool.eq_iff_iff, describes.verified]
    simp [takenOver, Session.fresh]
  · rw [Bool.eq_iff_iff, describes.prekeyRequired]
    cases layout <;> simp [takenOver, Session.fresh, prekeyRequired?]

end Layout

theorem commitAll_fresh
    {layout : Layout}
    {identity : Option IdentityKey}
    (stores : StoresIdentity layout.identityBlob identity)
    (recipient : RecipientId)
    (key : Option SessionKey) :
    (Session.fresh recipient).commitAll
        (layout.script.commits ++ keyCommits key) =
      { layout.takenOver identity (.fresh recipient) with key := key } := by
  rw [Session.commitAll_append, commitAll_script _ stores,
    commitAll_keyCommits]
  cases key <;> rfl

/-- Decoding yields what a fresh session becomes by the commits of reading. -/
theorem decode_eq_ok_iff
    (sealer : Sealer)
    (master : MasterSecret)
    (recipient : RecipientId)
    (bytes : Bytes)
    (session : Session)
    (format : Format) :
    decode sealer master recipient bytes = .ok (session, format) ↔
      ∃ commits,
        Reads sealer master bytes commits (.ok format) ∧
          session = (Session.fresh recipient).commitAll commits := by
  simp only [← decodeOver_eq_iff, decode]
  obtain ⟨left, ending⟩ :=
    decodeOver sealer master (.fresh recipient) bytes
  cases ending with
  | ok read =>
      simp
  | error failure =>
      simp

/-- A decoded record is a layout and what may follow it, and the layout describes the session. -/
theorem exists_layout_of_decode
    {sealer : Sealer}
    {master : MasterSecret}
    {recipient : RecipientId}
    {bytes : Bytes}
    {session : Session}
    {format : Format}
    (decoded :
      decode sealer master recipient bytes = .ok (session, format)) :
    ∃ (layout : Layout) (stored tail : Bytes),
      layout.Recognizable ∧
        layout.format = format ∧
        layout.encode = .ok stored ∧
        bytes = stored ++ tail ∧
        HoldsKey sealer master tail session.key ∧
        session.recipient = recipient ∧
        layout.Describes session := by
  obtain ⟨_, reads, rfl⟩ := (decode_eq_ok_iff ..).mp decoded
  obtain ⟨layout, stored, tail, key, recognizable, same, encoded, split,
    ⟨identity, stores⟩, holds, rfl⟩ := (reads_ok_iff ..).mp reads
  rw [commitAll_fresh stores]
  exact ⟨layout, stored, tail, recognizable, same, encoded, split, holds,
    rfl, Layout.describes_takenOver stores recipient key⟩

/--
Decoding accepts exactly the octets of a layout that its first word tells apart,
with nothing behind them or with a blob that the sealer discloses. The session is
the one that the layout describes, for the given recipient and with that key.
-/
theorem decode_accepts_iff
    (sealer : Sealer)
    (master : MasterSecret)
    (recipient : RecipientId)
    (bytes : Bytes)
    (session : Session)
    (format : Format) :
    decode sealer master recipient bytes = .ok (session, format) ↔
      formatOf bytes = .ok format ∧
        ∃ (layout : Layout) (stored tail : Bytes),
          layout.Recognizable ∧
            layout.format = format ∧
            layout.encode = .ok stored ∧
            bytes = stored ++ tail ∧
            HoldsKey sealer master tail session.key ∧
            session.recipient = recipient ∧
            layout.Describes session := by
  constructor
  · intro decoded
    obtain ⟨layout, stored, tail, recognizable, rfl, encoded, rfl, holds,
      owner, describes⟩ := exists_layout_of_decode decoded
    have completes : layout.script.Completes (stored ++ tail) tail :=
      (layout.completes_script_iff _ tail).mpr
        ⟨⟨stored, encoded, rfl⟩, session.identity, describes.identity⟩
    exact ⟨formatOf_of_completes recognizable completes, layout, stored,
      tail, recognizable, rfl, encoded, rfl, holds, owner, describes⟩
  · rintro ⟨_, layout, stored, tail, recognizable, rfl, encoded, rfl,
      holds, rfl, describes⟩
    rw [decode_eq_ok_iff]
    refine ⟨_, (reads_ok_iff ..).mpr ⟨layout, stored, tail, session.key,
      recognizable, rfl, encoded, rfl,
      ⟨session.identity, describes.identity⟩, holds, rfl⟩, ?_⟩
    rw [commitAll_fresh describes.identity]
    exact describes.eq_takenOver

end PeerSession.Record
