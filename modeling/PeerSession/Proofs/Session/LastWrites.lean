import PeerSession.Session.Edit

namespace PeerSession

/-!
# Last writes

However changes to a session are mixed, each field of it has the value that the last
change of that field wrote, or the one from before if there was none, and the counter
is further by the number of increments. Nothing else of the changes can be seen.
-/

namespace Edit

/-- The session id that a change writes. -/
def id? : Edit → Option SessionId
  | .setId id => some id
  | _ => none

/-- The version in effect that a change writes. -/
def version? : Edit → Option Version
  | .setVersion version => some version
  | _ => none

/-- The negotiated version that a change writes. -/
def negotiated? : Edit → Option Version
  | .setNegotiated version => some version
  | _ => none

/-- The identity key, or that there is none, that a change writes. -/
def identity? : Edit → Option (Option IdentityKey)
  | .setIdentity identity => some identity
  | _ => none

/-- The prekey requirement that a change writes. -/
def prekeyRequired? : Edit → Option Bool
  | .setPrekeyRequired required => some required
  | _ => none

/-- The session key, or that there is none, that a change writes. -/
def key? : Edit → Option (Option SessionKey)
  | .setKey key => some (some key)
  | .clearKey => some none
  | _ => none

/-- The value that the last change of a kind writes, if there is one. -/
def lastWritten
    {α : Type}
    (writes : Edit → Option α)
    (edits : List Edit) :
    Option α :=
  (edits.filterMap writes).getLast?

/-- The number of increments among changes. -/
def increments (edits : List Edit) : Nat :=
  edits.count .incrementCounter

theorem increments_cons_increment (edits : List Edit) :
    increments (.incrementCounter :: edits) = increments edits + 1 :=
  List.count_cons_self

theorem increments_cons_other
    {change : Edit}
    (other : change ≠ .incrementCounter)
    (edits : List Edit) :
    increments (change :: edits) = increments edits :=
  List.count_cons_of_ne other

/-- A change only counts if no later one writes the same. -/
theorem lastWritten_cons
    {α : Type}
    (writes : Edit → Option α)
    (change : Edit)
    (edits : List Edit) :
    lastWritten writes (change :: edits) =
      (lastWritten writes edits).or (writes change) := by
  unfold lastWritten
  cases wrote : writes change with
  | none =>
      rw [List.filterMap_cons_none wrote, Option.or_none]
  | some value =>
      rw [List.filterMap_cons_some wrote, List.getLast?_cons]
      cases (edits.filterMap writes).getLast? <;> rfl

/-- Changes with the same effect: as many increments and the same last writes. -/
structure SameWrites (left right : List Edit) : Prop where
  increments : increments left = increments right
  id : lastWritten id? left = lastWritten id? right
  version : lastWritten version? left = lastWritten version? right
  negotiated : lastWritten negotiated? left = lastWritten negotiated? right
  identity : lastWritten identity? left = lastWritten identity? right
  prekeyRequired :
    lastWritten prekeyRequired? left = lastWritten prekeyRequired? right
  key : lastWritten key? left = lastWritten key? right

end Edit

namespace Session

open Edit

/-- A session with the last writes of changes, and its counter further by the increments. -/
def overwritten (session : Session) (edits : List Edit) : Session where
  recipient := session.recipient
  counter := session.counter + UInt32.ofNat (increments edits)
  id := (lastWritten id? edits).getD session.id
  version := (lastWritten version? edits).getD session.version
  negotiated := (lastWritten negotiated? edits).getD session.negotiated
  identity := (lastWritten identity? edits).getD session.identity
  key := (lastWritten key? edits).getD session.key
  verified := session.verified
  prekeyRequired :=
    (lastWritten prekeyRequired? edits).getD session.prekeyRequired

theorem overwritten_nil (session : Session) :
    session.overwritten [] = session := by
  apply Session.ext <;> simp [overwritten, increments, lastWritten]

/-- One change in front writes what no later change does. -/
theorem overwritten_edit
    (session : Session)
    (change : Edit)
    (edits : List Edit) :
    (session.edit change).overwritten edits =
      session.overwritten (change :: edits) := by
  cases change with
  | incrementCounter =>
      have further :
          session.counter + 1 + UInt32.ofNat (increments edits) =
            session.counter + UInt32.ofNat (increments edits + 1) := by
        rw [UInt32.ofNat_add, UInt32.add_comm (.ofNat (increments edits)),
          UInt32.add_assoc]
        rfl
      simp only [overwritten, edit, lastWritten_cons, id?, version?,
        negotiated?, identity?, prekeyRequired?, key?, Option.or_none,
        increments_cons_increment, further]
  | _ =>
      simp [overwritten, edit, lastWritten_cons, id?, version?,
        negotiated?, identity?, prekeyRequired?, key?,
        increments_cons_other]

/-- Any changes leave their last writes. -/
theorem editAll_eq_overwritten
    (session : Session)
    (edits : List Edit) :
    session.editAll edits = session.overwritten edits := by
  induction edits generalizing session with
  | nil =>
      exact session.overwritten_nil.symm
  | cons change edits inductionHypothesis =>
      exact (inductionHypothesis (session.edit change)).trans
        (session.overwritten_edit change edits)

/-- As many increments and the same last writes leave the same session. -/
theorem editAll_eq_of_sameWrites
    (session : Session)
    {left right : List Edit}
    (same : SameWrites left right) :
    session.editAll left = session.editAll right := by
  simp only [editAll_eq_overwritten, overwritten, same.increments,
    same.id, same.version, same.negotiated, same.identity,
    same.prekeyRequired, same.key]

/-- The counter of a new session is the number of increments, as long as that is a counter. -/
theorem toNat_counter_editAll
    (recipient : RecipientId)
    {edits : List Edit}
    (few : increments edits < 4294967296) :
    ((fresh recipient).editAll edits).counter.toNat = increments edits := by
  rw [editAll_eq_overwritten]
  simp only [overwritten, fresh, UInt32.zero_add]
  exact UInt32.toNat_ofNat_of_lt' few

/-- No increment of a new session carries the counter over. -/
theorem counter_before_increment
    (recipient : RecipientId)
    {earlier later : List Edit}
    (few : increments (earlier ++ .incrementCounter :: later) < 4294967296) :
    ((fresh recipient).editAll earlier).counter.toNat + 1 < 4294967296 := by
  have count :
      increments (earlier ++ .incrementCounter :: later) =
        increments earlier + (increments later + 1) := by
    rw [← increments_cons_increment]
    exact List.count_append
  rw [toNat_counter_editAll recipient (by omega)]
  omega

/-- A session key is handed out exactly if it is there, for its own identifiers. -/
theorem keyFor?_eq_some_iff
    (session : Session)
    (ids : KeyIds)
    (key : SessionKey) :
    session.keyFor? ids = some key ↔
      session.key = some key ∧ key.ids = ids := by
  simp [keyFor?, Option.filter_eq_some_iff]

end Session

namespace Version

/-- What is reported of a version that was written last, if any was. -/
def reportedOf : Option Version → UInt32
  | none => 0
  | some version => if version.raw = 31337 then 0 else version.raw

theorem eq_unset_iff (version : Version) :
    version = unset ↔ version.raw = 31337 := by
  cases version
  simp [unset]

theorem reported_getD (write : Option Version) :
    (write.getD unset).reported = reportedOf write := by
  cases write with
  | none =>
      rfl
  | some version =>
      simp only [Option.getD_some, reported, reportedOf, eq_unset_iff]

/-- The word that stands for no version is not reported. -/
theorem reported_ne (version : Version) : version.reported ≠ 31337 := by
  rw [reported]
  split
  · decide
  · rename_i isSet
    exact mt version.eq_unset_iff.mpr isSet

theorem isSet_getD_iff (write : Option Version) :
    (write.getD unset).isSet = true ↔
      ∃ version, write = some version ∧ version.raw ≠ 31337 := by
  cases write with
  | none =>
      simp [isSet]
  | some version =>
      simp [isSet, eq_unset_iff]

end Version

/-- A session id is complete exactly if neither fingerprint is empty. -/
theorem SessionId.isComplete_iff (id : SessionId) :
    id.isComplete = true ↔
      id.localFingerprint ≠ [] ∧ id.remoteFingerprint ≠ [] := by
  simp [isComplete]

/--
Any changes are made to a new session, with fewer increments than there are counters.
The recipient is that of the new session, the counter is the number of increments, and
none of them carries it over. The fingerprints are the pair that was written last, and
are complete if neither is empty. Versions are reported as written last, but as 0 if
none was, or the word that stands for none; they are set in all other cases. The
session is not verified. A session key is handed out if it was written last, was not
removed since, and is asked for by its own identifiers. Other changes with as many
increments and the same last writes leave the same session.
-/
theorem edited_session_has_last_writes
    (recipient : RecipientId)
    (edits : List Edit)
    (few : Edit.increments edits < 4294967296) :
    let session := (Session.fresh recipient).editAll edits
    let id := (Edit.lastWritten Edit.id? edits).getD .blank
    let version := Edit.lastWritten Edit.version? edits
    let negotiated := Edit.lastWritten Edit.negotiated? edits
    session.recipient = recipient ∧
      (session.counter.toNat = Edit.increments edits ∧
        ∀ earlier later,
          edits = earlier ++ .incrementCounter :: later →
            ((Session.fresh recipient).editAll earlier).counter.toNat + 1 <
              4294967296) ∧
      (session.id = id ∧
        (session.id.isComplete = true ↔
          id.localFingerprint ≠ [] ∧ id.remoteFingerprint ≠ [])) ∧
      (session.version.reported = Version.reportedOf version ∧
        session.version.reported ≠ 31337 ∧
        (session.version.isSet = true ↔
          ∃ written, version = some written ∧ written.raw ≠ 31337)) ∧
      (session.negotiated.reported = Version.reportedOf negotiated ∧
        session.negotiated.reported ≠ 31337) ∧
      session.identity = (Edit.lastWritten Edit.identity? edits).getD none ∧
      session.prekeyRequired =
        (Edit.lastWritten Edit.prekeyRequired? edits).getD false ∧
      session.verified = false ∧
      (∀ ids key,
        session.keyFor? ids = some key ↔
          Edit.lastWritten Edit.key? edits = some (some key) ∧
            key.ids = ids) ∧
      ∀ others,
        Edit.SameWrites others edits →
          (Session.fresh recipient).editAll others = session := by
  intro session id version negotiated
  have summary : session = (Session.fresh recipient).overwritten edits :=
    Session.editAll_eq_overwritten _ edits
  refine ⟨?_, ⟨Session.toNat_counter_editAll recipient few, ?_⟩,
    ⟨?_, ?_⟩, ⟨?_, ?_, ?_⟩, ⟨?_, ?_⟩, ?_, ?_, ?_, ?_, ?_⟩
  · rw [summary]
    rfl
  · rintro earlier later rfl
    exact Session.counter_before_increment recipient few
  · rw [summary]
    rfl
  · rw [summary]
    exact id.isComplete_iff
  · rw [summary]
    exact Version.reported_getD version
  · exact Version.reported_ne _
  · rw [summary]
    exact Version.isSet_getD_iff version
  · rw [summary]
    exact Version.reported_getD negotiated
  · exact Version.reported_ne _
  · rw [summary]
    rfl
  · rw [summary]
    rfl
  · rw [summary]
    rfl
  · intro ids key
    have kept :
        session.key = (Edit.lastWritten Edit.key? edits).getD none := by
      rw [summary]
      rfl
    rw [session.keyFor?_eq_some_iff, kept]
    cases Edit.lastWritten Edit.key? edits <;> simp
  · intro others same
    exact Session.editAll_eq_of_sameWrites _ same

/--
Nine changes, of which a version, a key and a session id are overwritten or removed,
leave the same session as the five others that are left, in another order.
-/
theorem edited_session_has_last_writes_overwrittenChanges :
    let key : SessionKey :=
      { ids := { localId := 5, remoteId := 6 }, cipher := [1], mac := [2] }
    let half : SessionId :=
      { localFingerprint := [3], remoteFingerprint := [] }
    let whole : SessionId :=
      { localFingerprint := [1], remoteFingerprint := [2] }
    let before : List Edit :=
      [.incrementCounter, .setVersion { raw := 3 }, .setKey key, .clearKey,
        .setId whole]
    let behind : List Edit :=
      [.setVersion .unset, .setKey key, .setId half]
    let edits := before ++ .incrementCounter :: behind
    let others : List Edit :=
      [.setId half, .setKey key, .incrementCounter, .setVersion .unset,
        .incrementCounter]
    let session := (Session.fresh 9).editAll edits
    Edit.increments edits < 4294967296 ∧
      Edit.SameWrites others edits ∧
      session.counter.toNat = 2 ∧
      ((Session.fresh 9).editAll before).counter.toNat + 1 < 4294967296 ∧
      session.version.reported = 0 ∧
      session.keyFor? key.ids = some key ∧
      (Session.fresh 9).editAll others = session := by
  intro key half whole before behind edits others session
  have few : Edit.increments edits < 4294967296 := by decide
  have same : Edit.SameWrites others edits :=
    { increments := rfl
      id := rfl
      version := rfl
      negotiated := rfl
      identity := rfl
      prekeyRequired := rfl
      key := rfl }
  obtain ⟨_, ⟨counts, notCarried⟩, _, ⟨reports, _⟩, _, _, _, _,
      handsOut, alike⟩ :=
    edited_session_has_last_writes 9 edits few
  exact
    ⟨few, same, counts, notCarried before behind rfl, reports,
      (handsOut key.ids key).mpr ⟨rfl, rfl⟩, alike others same⟩

end PeerSession
