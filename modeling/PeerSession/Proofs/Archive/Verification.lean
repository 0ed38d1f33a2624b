import PeerSession.Proofs.Archive.Unguarded
import PeerSession.Proofs.Record.Verification
import PeerSession.Session.Edit
import PeerSession.Storage.Memory

namespace PeerSession

/-!
# Verification through an archive

The users of an archive hold sessions in memory, change them, and exchange them
with the archive. However they do this, a session is verified only if a record
from before said so: no use verifies a session that was not, and saving one and
loading it again keeps whether it is verified.
-/

/-- A record that is there after an operation was there before or is a saved session. -/
theorem Client.records_performOn
    {client : Client}
    {memory : Storage.Memory}
    {operation : Operation}
    {recipient : RecipientId}
    {record : Bytes}
    (stored :
      (client.performOn memory operation).2.records recipient =
        some record) :
    memory.records recipient = some record ∨
      ∃ session,
        operation = .save session ∧
          Record.encode client.sealer client.master session =
            .ok record := by
  cases operation with
  | load other | openSession other =>
      rw [← memory.read_snd other]
      exact .inl stored
  | save session =>
      cases encoded :
          Record.encode client.sealer client.master session with
      | error error =>
          rw [performOn_save_error memory encoded] at stored
          exact .inl stored
      | ok data =>
          simp only [performOn_save memory encoded,
            update_eq_functionUpdate] at stored
          by_cases same : recipient = session.recipient
          · subst same
            rw [Function.update_self] at stored
            cases stored
            exact .inr ⟨session, rfl, encoded⟩
          · rw [Function.update_of_ne same] at stored
            exact .inl stored
  | delete other =>
      simp only [performOn, Storage.Backend.delete, Storage.Memory.delete,
        update_eq_functionUpdate] at stored
      split at stored
      · by_cases same : recipient = other
        · subst same
          simp at stored
        · simp only [Function.update_of_ne same] at stored
          exact .inl stored
      · exact .inl stored
  | contains other =>
      exact .inl stored

/-- One use of an archive, or of a session that is held in some slot. -/
inductive Use where
  | create (slot : Nat) (recipient : RecipientId)
  | copy (source target : Nat)
  | edit (slot : Nat) (change : Edit)
  | load (client : Client) (slot : Nat) (recipient : RecipientId)
  | openSession (client : Client) (slot : Nat) (recipient : RecipientId)
  | save (client : Client) (slot : Nat)
  | delete (client : Client) (recipient : RecipientId)
  | contains (client : Client) (recipient : RecipientId)

/-- An archive over records in memory with the sessions that its users hold. -/
structure Workbench where
  archive : Archive Storage.Memory
  held : Nat → Option Session

namespace Workbench

/-- Before anything was done, no session is held. -/
def start
    (memory : Storage.Memory)
    (mutexes : Guard.Mutexes Guard.Slot) :
    Workbench where
  archive := { backend := memory, mutexes := mutexes }
  held := fun _ => none

/-- Hold a session in a slot, instead of what was there. -/
def keep (bench : Workbench) (slot : Nat) (session : Session) : Workbench :=
  { bench with held := update bench.held slot (some session) }

/-- Hold a session that was loaded; after a crash there is none. -/
def keepFinished
    (bench : Workbench)
    (slot : Nat) :
    Attempt Session →
    Workbench
  | .finished session => bench.keep slot session
  | .crashed _ | .blocked => bench

/-- Do something with the session of a slot, and nothing if the slot is empty. -/
def withHeld
    (bench : Workbench)
    (slot : Nat)
    (work : Session → Workbench) :
    Workbench :=
  match bench.held slot with
  | some session => work session
  | none => bench

/-- Carry out one use. -/
def act (bench : Workbench) : Use → Workbench
  | .create slot recipient => bench.keep slot (.fresh recipient)
  | .copy source target => bench.withHeld source (bench.keep target)
  | .edit slot change =>
      bench.withHeld slot fun session => bench.keep slot (session.edit change)
  | .load client slot recipient =>
      let (attempt, after) := client.load bench.archive recipient
      { bench with archive := after }.keepFinished slot
        (attempt.map Loaded.session)
  | .openSession client slot recipient =>
      let (attempt, after) := client.openSession bench.archive recipient
      { bench with archive := after }.keepFinished slot attempt
  | .save client slot =>
      bench.withHeld slot fun session =>
        { bench with archive := (client.save bench.archive session).2 }
  | .delete client recipient =>
      { bench with archive := (client.delete bench.archive recipient).2 }
  | .contains _ _ => bench

/-- Carry out uses, one after the other. -/
def run (bench : Workbench) (uses : List Use) : Workbench :=
  uses.foldl act bench

/-- Where a session that is held after one use stems from. -/
inductive Yields (bench : Workbench) : Session → Prop where
  | held
      {slot : Nat}
      {session : Session}
      (kept : bench.held slot = some session) :
      Yields bench session
  | created (recipient : RecipientId) :
      Yields bench (.fresh recipient)
  | edited
      {slot : Nat}
      {session : Session}
      (kept : bench.held slot = some session)
      (change : Edit) :
      Yields bench (session.edit change)
  | loaded
      {client : Client}
      {recipient : RecipientId}
      {loaded : Loaded}
      (interpreted :
        client.interpret recipient
            (bench.archive.backend.read recipient).1 =
          .ok loaded) :
      Yields bench loaded.session

/-- Where a record that is stored after one use stems from. -/
inductive Stores (bench : Workbench) (recipient : RecipientId) :
    Bytes → Prop where
  | kept
      {record : Bytes}
      (stored : bench.archive.backend.records recipient = some record) :
      Stores bench recipient record
  | saved
      {slot : Nat}
      {session : Session}
      {record : Bytes}
      (kept : bench.held slot = some session)
      (sealer : Sealer)
      (master : MasterSecret)
      (encoded : Record.encode sealer master session = .ok record) :
      Stores bench recipient record

variable {bench : Workbench}

theorem held_keep
    {slot other : Nat}
    {session found : Session}
    (held : (bench.keep slot session).held other = some found) :
    found = session ∨ bench.held other = some found := by
  by_cases same : other = slot
  · subst same
    simp only [keep, update_eq_functionUpdate, Function.update_self,
      Option.some.injEq] at held
    exact .inl held.symm
  · simp only [keep, update_eq_functionUpdate,
      Function.update_of_ne same] at held
    exact .inr held

theorem archive_keepFinished
    (bench : Workbench)
    (slot : Nat)
    (attempt : Attempt Session) :
    (bench.keepFinished slot attempt).archive = bench.archive := by
  cases attempt <;> rfl

theorem held_keepFinished
    {slot other : Nat}
    {attempt : Attempt Session}
    {found : Session}
    (held : (bench.keepFinished slot attempt).held other = some found) :
    attempt = .finished found ∨ bench.held other = some found := by
  cases attempt with
  | finished session =>
      exact (held_keep held).imp_left fun same => by rw [same]
  | crashed | blocked =>
      exact .inr held

/-- What one use does to the archive is what at most one operation does to it. -/
theorem act_archive (bench : Workbench) (use : Use) :
    (bench.act use).archive = bench.archive ∨
      ∃ (client : Client) (operation : Operation),
        (bench.act use).archive =
            (client.perform bench.archive operation).2 ∧
          ∀ session,
            operation = .save session →
              ∃ slot, bench.held slot = some session := by
  cases use with
  | create slot recipient =>
      exact .inl rfl
  | copy source target | edit source target =>
      refine .inl ?_
      simp only [act, withHeld]
      split <;> rfl
  | load client slot recipient =>
      refine .inr ⟨client, .load recipient, ?_, nofun⟩
      simp only [act, archive_keepFinished]
      rfl
  | openSession client slot recipient =>
      refine .inr ⟨client, .openSession recipient, ?_, nofun⟩
      simp only [act, archive_keepFinished]
      rfl
  | save client slot =>
      cases held : bench.held slot with
      | none =>
          exact .inl (by simp only [act, withHeld, held])
      | some session =>
          refine .inr ⟨client, .save session, ?_, ?_⟩
          · simp only [act, withHeld, held]
            rfl
          · rintro _ ⟨⟩
            exact ⟨slot, held⟩
  | delete client recipient =>
      exact .inr ⟨client, .delete recipient, rfl, nofun⟩
  | contains client recipient =>
      exact .inl rfl

/-- A loaded session is the one that the client makes of the record. -/
theorem load_finished
    {client : Client}
    {recipient : RecipientId}
    {session : Session}
    (allFree : bench.archive.mutexes.AllFree)
    (finished :
      (client.load bench.archive recipient).1.map Loaded.session =
        .finished session) :
    bench.Yields session := by
  rw [client.load_of_allFree allFree] at finished
  cases interpreted :
      client.interpret recipient
        (Storage.Backend.read bench.archive.backend recipient).1 with
  | error fault =>
      rw [interpreted] at finished
      cases finished
  | ok loaded =>
      rw [interpreted] at finished
      cases finished
      exact .loaded interpreted

/-- A session that is held after one use stems from one of the known sources. -/
theorem yields_act
    {use : Use}
    {slot : Nat}
    {session : Session}
    (allFree : bench.archive.mutexes.AllFree)
    (held : (bench.act use).held slot = some session) :
    bench.Yields session := by
  cases use with
  | create target recipient =>
      rcases held_keep held with rfl | before
      · exact .created recipient
      · exact .held before
  | copy source target =>
      simp only [act, withHeld] at held
      split at held
      next copied kept =>
        rcases held_keep held with rfl | before
        · exact .held kept
        · exact .held before
      next =>
        exact .held held
  | edit target change =>
      simp only [act, withHeld] at held
      split at held
      next changed kept =>
        rcases held_keep held with rfl | before
        · exact .edited kept change
        · exact .held before
      next =>
        exact .held held
  | load client target recipient =>
      rcases held_keepFinished held with finished | before
      · exact load_finished allFree finished
      · exact .held before
  | openSession client target recipient =>
      rcases held_keepFinished held with finished | before
      · exact load_finished allFree finished
      · exact .held before
  | save client source =>
      simp only [act, withHeld] at held
      split at held <;> exact .held held
  | delete client recipient | contains client recipient =>
      exact .held held

/-- A record that is stored after one use was there before or was saved from a slot. -/
theorem stores_act
    {use : Use}
    {recipient : RecipientId}
    {record : Bytes}
    (allFree : bench.archive.mutexes.AllFree)
    (stored :
      (bench.act use).archive.backend.records recipient = some record) :
    bench.Stores recipient record := by
  rcases bench.act_archive use with
      same | ⟨client, operation, performed, saves⟩
  · rw [same] at stored
    exact .kept stored
  · obtain ⟨_, _, unguarded⟩ :=
      client.perform_of_allFree allFree operation
    rw [performed, unguarded] at stored
    rcases client.records_performOn stored with
        before | ⟨session, isSave, encoded⟩
    · exact .kept before
    · obtain ⟨_, held⟩ := saves session isSave
      exact .saved held client.sealer client.master encoded

/-- Nothing is held by a mutex after a use if nothing was before. -/
theorem allFree_act
    (allFree : bench.archive.mutexes.AllFree)
    (use : Use) :
    (bench.act use).archive.mutexes.AllFree := by
  rcases bench.act_archive use with same | ⟨client, operation, performed, _⟩
  · rw [same]
    exact allFree
  · obtain ⟨_, free, unguarded⟩ :=
      client.perform_of_allFree allFree operation
    rw [performed, unguarded]
    exact free

theorem allFree_run
    (allFree : bench.archive.mutexes.AllFree)
    (uses : List Use) :
    (bench.run uses).archive.mutexes.AllFree := by
  induction uses generalizing bench with
  | nil =>
      exact allFree
  | cons use rest inductionHypothesis =>
      exact inductionHypothesis (allFree_act allFree use)

/-- Nothing that is held or stored says that a session is verified. -/
structure Unverified (bench : Workbench) : Prop where
  held :
    ∀ slot session,
      bench.held slot = some session → session.verified = false
  stored :
    ∀ recipient record,
      bench.archive.backend.records recipient = some record →
        ¬ Record.SaysVerified record

namespace Unverified

/-- No stored record is read as a verified session. -/
theorem decodeOver
    (unverified : Unverified bench)
    {recipient : RecipientId}
    {record : Bytes}
    (stored : bench.archive.backend.records recipient = some record)
    (sealer : Sealer)
    (master : MasterSecret)
    (reader : RecipientId) :
    (Record.decodeOver sealer master (.fresh reader) record).1.verified =
      false := by
  rw [← Bool.not_eq_true, Record.verified_decodeOver_fresh_iff]
  exact unverified.stored recipient record stored

/-- Neither a missing record nor a faulty one is loaded as a verified session. -/
theorem loaded
    (unverified : Unverified bench)
    {client : Client}
    {recipient : RecipientId}
    {loaded : Loaded}
    (interpreted :
      client.interpret recipient
          (bench.archive.backend.read recipient).1 =
        .ok loaded) :
    loaded.session.verified = false := by
  unfold Storage.Memory.read at interpreted
  cases stored : bench.archive.backend.records recipient with
  | none =>
      rw [stored] at interpreted
      cases interpreted
      rfl
  | some record =>
      rw [stored] at interpreted
      rw [Loaded.session_of_ofRecord interpreted]
      exact unverified.decodeOver stored client.sealer client.master recipient

theorem yields
    (unverified : Unverified bench)
    {session : Session}
    (yields : bench.Yields session) :
    session.verified = false := by
  cases yields with
  | held kept =>
      exact unverified.held _ _ kept
  | created recipient =>
      rfl
  | edited kept change =>
      rw [Session.verified_edit]
      exact unverified.held _ _ kept
  | loaded interpreted =>
      exact unverified.loaded interpreted

theorem stores
    (unverified : Unverified bench)
    {recipient : RecipientId}
    {record : Bytes}
    (stores : bench.Stores recipient record) :
    ¬ Record.SaysVerified record := by
  cases stores with
  | kept stored =>
      exact unverified.stored _ _ stored
  | saved kept sealer master encoded =>
      rw [Record.saysVerified_encode_iff encoded,
        unverified.held _ _ kept]
      exact Bool.false_ne_true

theorem start
    {memory : Storage.Memory}
    (noneSays :
      ∀ recipient record,
        memory.records recipient = some record →
          ¬ Record.SaysVerified record)
    (mutexes : Guard.Mutexes Guard.Slot) :
    Unverified (start memory mutexes) where
  held := by
    rintro _ _ ⟨⟩
  stored := noneSays

/-- No use verifies a session. -/
theorem act
    (unverified : Unverified bench)
    (allFree : bench.archive.mutexes.AllFree)
    (use : Use) :
    Unverified (bench.act use) where
  held _ _ held := unverified.yields (yields_act allFree held)
  stored _ _ stored := unverified.stores (stores_act allFree stored)

/-- No run verifies a session. -/
theorem run
    (unverified : Unverified bench)
    (allFree : bench.archive.mutexes.AllFree)
    (uses : List Use) :
    Unverified (bench.run uses) := by
  induction uses generalizing bench with
  | nil =>
      exact unverified
  | cons use rest inductionHypothesis =>
      exact inductionHypothesis
        (unverified.act allFree use) (allFree_act allFree use)

end Unverified

end Workbench

/-- A save that succeeds leaves the record of the session and nothing held. -/
theorem Client.save_finished
    {client : Client}
    {archive after : Archive Storage.Memory}
    {session : Session}
    (allFree : archive.mutexes.AllFree)
    (saved : client.save archive session = (.finished (.ok ()), after)) :
    after.mutexes.AllFree ∧
      ∃ record,
        Record.encode client.sealer client.master session = .ok record ∧
          after.backend.records session.recipient = some record := by
  unfold save at saved
  cases encoded : Record.encode client.sealer client.master session with
  | error error =>
      rw [encoded] at saved
      cases saved
  | ok record =>
      have written := archive.backend.write_eq session.recipient record
      simp only [encoded, Archive.guarded_of_allFree allFree,
        Storage.Backend.write, written] at saved
      cases saved
      refine ⟨allFree, record, rfl, ?_⟩
      simp only [update_eq_functionUpdate, Function.update_self]

/-- The record of a session is loaded, as far as its key allows, with the same verification. -/
theorem Client.load_record
    {archive : Archive Storage.Memory}
    {sealer : Sealer}
    {master : MasterSecret}
    {session : Session}
    {record : Bytes}
    (allFree : archive.mutexes.AllFree)
    (encoded : Record.encode sealer master session = .ok record)
    (stored : archive.backend.records session.recipient = some record)
    (reader : Client) :
    ∃ loaded last,
      reader.load archive session.recipient = (.finished loaded, last) ∧
        (loaded.status = .complete .v3 ∨
          ∃ error, loaded.status = .incomplete (.decode error)) ∧
        loaded.session.verified = session.verified := by
  obtain ⟨key, error?, decoded⟩ :=
    Record.exists_decodeOver_encode encoded reader.sealer reader.master
  have answer : archive.backend.read session.recipient = (.ok record, archive.backend) := by
    simp only [Storage.Memory.read, stored]
  rw [reader.load_of_allFree allFree]
  simp only [Storage.Backend.read, answer, interpret, Loaded.ofRecord, decoded]
  cases error? with
  | none =>
      exact ⟨_, _, rfl, .inl rfl, rfl⟩
  | some error =>
      exact ⟨_, _, rfl, .inr ⟨error, rfl⟩, rfl⟩

/--
Take any uses of an archive whose records do not say that a session is verified:
then no session that is held afterwards is verified, and no record that is stored
is read as one that is. No change of a session touches whether it is verified, and
a session that was saved is loaded with the same verification as long as its record
stays, even by a client that cannot restore its key.
-/
theorem verified_neither_forged_nor_lost
    (memory : Storage.Memory)
    (mutexes : Guard.Mutexes Guard.Slot)
    (uses : List Use)
    (allFree : mutexes.AllFree) :
    let bench := (Workbench.start memory mutexes).run uses
    ((∀ recipient record,
        memory.records recipient = some record →
          ¬ Record.SaysVerified record) →
      (∀ slot session,
        bench.held slot = some session → session.verified = false) ∧
        ∀ recipient record,
          bench.archive.backend.records recipient = some record →
            ∀ sealer master reader,
              (Record.decodeOver sealer master (.fresh reader)
                record).1.verified = false) ∧
      (∀ (session : Session) (change : Edit),
        (session.edit change).verified = session.verified) ∧
      ∀ (client reader : Client) (session : Session)
        (after : Archive Storage.Memory),
        client.save bench.archive session = (.finished (.ok ()), after) →
          ∀ between : List Use,
            let later :=
              (Workbench.run { bench with archive := after } between).archive
            later.backend.records session.recipient =
                after.backend.records session.recipient →
              ∃ loaded last,
                reader.load later session.recipient =
                    (.finished loaded, last) ∧
                  (loaded.status = .complete .v3 ∨
                    ∃ error,
                      loaded.status = .incomplete (.decode error)) ∧
                  loaded.session.verified = session.verified := by
  intro bench
  have benchFree : bench.archive.mutexes.AllFree :=
    Workbench.allFree_run allFree uses
  refine ⟨?_, Session.verified_edit, ?_⟩
  · intro noneSays
    have unverified : bench.Unverified :=
      (Workbench.Unverified.start noneSays mutexes).run allFree uses
    exact ⟨unverified.held, fun _ _ stored => unverified.decodeOver stored⟩
  · intro client reader session after saved between later stays
    obtain ⟨afterFree, record, encoded, stored⟩ :=
      Client.save_finished benchFree saved
    let saving : Workbench := { bench with archive := after }
    have savingFree : saving.archive.mutexes.AllFree := afterFree
    have laterFree : later.mutexes.AllFree :=
      Workbench.allFree_run savingFree between
    exact Client.load_record laterFree encoded (stays.trans stored) reader

/-- A record in memory that stores the word 2 for the verification. -/
def doubtfulMemory : Storage.Memory :=
  Storage.Memory.empty.put 7 <|
    Wire.octets
      [ .word Record.Format.markerV2,
        .word 1,
        .blob [2],
        .blob [],
        .word 3,
        .blob [],
        .word 2 ]

/-- The session of the record is loaded, changed, saved and loaded again. -/
def doubtfulUses : List Use :=
  let client : Client := .standard { bytes := [6] }
  [ .load client 0 7,
    .edit 0 .incrementCounter,
    .save client 0,
    .openSession client 1 7 ]

/--
The session of the doubtful record is not verified. A verified session that is
saved instead of it is so for a client that refuses its key.
-/
theorem verified_neither_forged_nor_lost_doubtfulUses :
    let client : Client := .standard { bytes := [6] }
    let reader : Client := { client with sealer := .refusing }
    let bench := (Workbench.start doubtfulMemory .unused).run doubtfulUses
    (∃ session,
        bench.held 1 = some session ∧ session.verified = false) ∧
      ∃ after loaded last,
        client.save bench.archive Record.busySession =
            (.finished (.ok ()), after) ∧
          reader.load after 7 = (.finished loaded, last) ∧
          loaded.session.verified = true := by
  intro client reader bench
  obtain ⟨neverForged, _, neverLost⟩ :=
    verified_neither_forged_nor_lost doubtfulMemory .unused doubtfulUses
      Guard.Mutexes.allFree_unused
  have noneSays :
      ∀ recipient record,
        doubtfulMemory.records recipient = some record →
          ¬ Record.SaysVerified record := by
    intro recipient record stored
    by_cases isSeven : recipient = 7
    · subst isSeven
      cases stored
      rw [← Record.verified_decodeOver_fresh_iff .plain { bytes := [6] } 7]
      exact Bool.false_ne_true
    · simp only [doubtfulMemory, Storage.Memory.put,
        update_eq_functionUpdate, Function.update_of_ne isSeven] at stored
      cases stored
  obtain ⟨held, _⟩ := neverForged noneSays
  refine ⟨⟨_, rfl, held 1 _ rfl⟩, ?_⟩
  obtain ⟨loaded, last, wasLoaded, _, verified⟩ :=
    neverLost client reader Record.busySession _ rfl [] rfl
  exact ⟨_, loaded, last, rfl, wasLoaded, verified⟩

end PeerSession
