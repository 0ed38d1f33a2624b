import PeerSession.Proofs.Archive.Unguarded
import PeerSession.Proofs.Key.PlainSealer
import PeerSession.Proofs.Record.RoundTrip
import PeerSession.Storage.Memory

namespace PeerSession

/-!
# The last saved session

Over records in memory an archive is a map from recipients to the sessions that
were saved for them last. Each record belongs to the session that it represents;
every operation answers what the map answers and keeps it so. The writes that
were counted are the saves that succeeded.
-/

/-- The last saved session of each recipient. -/
abbrev SessionMap := RecipientId → Option Session

namespace SessionMap

/-- The map before anything is saved. -/
def empty : SessionMap :=
  fun _ => none

/-- The session of a recipient, a fresh one if none was saved. -/
def load
    (map : SessionMap)
    (recipient : RecipientId) :
    Loaded :=
  match map recipient with
  | none => { session := .fresh recipient, status := .fresh }
  | some session => { session := session, status := .complete .v3 }

/-- Carry out one operation; only a session that can be encoded is saved. -/
def perform
    (sealer : Sealer)
    (master : MasterSecret)
    (map : SessionMap) :
    Operation →
    OperationAnswer × SessionMap
  | .load recipient =>
      (.loaded (.finished (map.load recipient)), map)
  | .openSession recipient =>
      (.opened (.finished (map.load recipient).session), map)
  | .save session =>
      match Record.encode sealer master session with
      | .ok _ =>
          (.saved (.finished (.ok ())),
            update map session.recipient (some session))
      | .error error =>
          (.saved (.finished (.error (.encode session.recipient error))),
            map)
  | .delete recipient =>
      (.deleted (.finished (.ok ())), update map recipient none)
  | .contains recipient =>
      (.contained (map recipient).isSome, map)

/-- Carry out operations, one after the other. -/
def run
    (sealer : Sealer)
    (master : MasterSecret)
    (map : SessionMap) :
    List Operation →
    List OperationAnswer × SessionMap
  | [] => ([], map)
  | operation :: rest =>
      let (answer, after) := map.perform sealer master operation
      let (answers, last) := run sealer master after rest
      (answer :: answers, last)

end SessionMap

/-- A record for a recipient stands for the session that was saved for it. -/
inductive StandsFor
    (sealer : Sealer)
    (master : MasterSecret)
    (recipient : RecipientId) :
    Option Bytes → Option Session → Prop where
  | absent :
      StandsFor sealer master recipient none none
  | present
      {record : Bytes}
      {session : Session}
      (owner : session.recipient = recipient)
      (encoded : Record.encode sealer master session = .ok record) :
      StandsFor sealer master recipient (some record) (some session)

/-- Every record stands for the session that the map has for the recipient. -/
def Represents
    (sealer : Sealer)
    (master : MasterSecret)
    (memory : Storage.Memory)
    (map : SessionMap) :
    Prop :=
  ∀ recipient,
    StandsFor sealer master recipient
      (memory.records recipient) (map recipient)

/-- An operation with its answer is a save for the recipient that succeeded. -/
def isSaveFor (recipient : RecipientId) : Operation × OperationAnswer → Bool
  | (.save session, .saved (.finished (.ok ()))) =>
      session.recipient = recipient
  | _ => false

namespace Represents

variable {sealer : Sealer} {master : MasterSecret}
variable {memory : Storage.Memory} {map : SessionMap}

theorem empty : Represents sealer master .empty .empty :=
  fun _ => .absent

/-- Changing a record and the session that it stands for leaves all others alone. -/
theorem update
    (represents : Represents sealer master memory map)
    {recipient : RecipientId}
    {record : Option Bytes}
    {session : Option Session}
    (standsFor : StandsFor sealer master recipient record session)
    (writes : RecipientId → Nat) :
    Represents sealer master
      { records := PeerSession.update memory.records recipient record
        writes := writes }
      (PeerSession.update map recipient session) := by
  intro other
  simp only [update_eq_functionUpdate]
  by_cases same : other = recipient
  · subst same
    simpa only [Function.update_self] using standsFor
  · simpa only [Function.update_of_ne same] using represents other

/-- What a client reads is interpreted as the session of the map. -/
theorem interpret_read
    (represents : Represents sealer master memory map)
    {client : Client}
    (agrees : client.sealer = sealer ∧ client.master = master)
    (restores : ∀ key, sealer.Restores master key)
    (recipient : RecipientId) :
    client.interpret recipient (memory.read recipient).1 =
      .ok (map.load recipient) := by
  obtain ⟨rfl, rfl⟩ := agrees
  have standsFor := represents recipient
  unfold Storage.Memory.read SessionMap.load
  generalize memory.records recipient = record at standsFor ⊢
  generalize map recipient = session at standsFor ⊢
  cases standsFor with
  | absent =>
      rfl
  | present owner encoded =>
      subst owner
      have decoded :=
        Record.decodeOver_encode encoded fun key _ => restores key
      simp only [Client.interpret, Loaded.ofRecord, decoded]

/-- Deleting a record, present or not, is always reported as done. -/
theorem delete
    (represents : Represents sealer master memory map)
    (recipient : RecipientId) :
    Client.deleted recipient (memory.delete recipient).1 = .ok () ∧
      Represents sealer master (memory.delete recipient).2
        (PeerSession.update map recipient none) := by
  have missing :
      Represents sealer master
        { records := PeerSession.update memory.records recipient none
          writes := memory.writes }
        (PeerSession.update map recipient none) :=
    represents.update .absent memory.writes
  unfold Storage.Memory.delete
  cases present : memory.records recipient with
  | some record =>
      exact ⟨rfl, missing⟩
  | none =>
      refine ⟨rfl, ?_⟩
      rwa [← present, update_eq_functionUpdate,
        Function.update_eq_self] at missing

theorem contains_eq
    (represents : Represents sealer master memory map)
    (recipient : RecipientId) :
    memory.contains recipient = (map recipient).isSome := by
  have standsFor := represents recipient
  unfold Storage.Memory.contains
  generalize memory.records recipient = record at standsFor ⊢
  generalize map recipient = session at standsFor ⊢
  cases standsFor <;> rfl

/-- One operation answers what the map answers, and the records go on standing for it. -/
theorem performOn
    (represents : Represents sealer master memory map)
    {client : Client}
    (agrees : client.sealer = sealer ∧ client.master = master)
    (restores : ∀ key, sealer.Restores master key)
    (operation : Operation) :
    (client.performOn memory operation).1 =
        (map.perform sealer master operation).1 ∧
      Represents sealer master (client.performOn memory operation).2
        (map.perform sealer master operation).2 := by
  cases operation with
  | load recipient =>
      have interpreted :=
        represents.interpret_read agrees restores recipient
      rw [Client.performOn_load]
      simp only [Storage.Backend.read, interpreted, memory.read_snd]
      exact ⟨rfl, represents⟩
  | openSession recipient =>
      have interpreted :=
        represents.interpret_read agrees restores recipient
      rw [Client.performOn_openSession]
      simp only [Storage.Backend.read, interpreted, memory.read_snd]
      exact ⟨rfl, represents⟩
  | save session =>
      obtain ⟨rfl, rfl⟩ := agrees
      cases encoded :
          Record.encode client.sealer client.master session with
      | error error =>
          simp only [Client.performOn_save_error memory encoded,
            SessionMap.perform, encoded]
          exact ⟨trivial, represents⟩
      | ok record =>
          simp only [Client.performOn_save memory encoded,
            SessionMap.perform, encoded]
          exact ⟨trivial, represents.update (.present rfl encoded) _⟩
  | delete recipient =>
      obtain ⟨deleted, after⟩ := represents.delete recipient
      rw [Client.performOn_delete]
      simp only [Storage.Backend.delete, deleted]
      exact ⟨rfl, after⟩
  | contains recipient =>
      have performed :
          client.performOn memory (.contains recipient) =
            (.contained (memory.contains recipient), memory) :=
        rfl
      rw [performed, represents.contains_eq]
      exact ⟨rfl, represents⟩

/-- A whole run answers what the map answers. -/
theorem runOn
    (represents : Represents sealer master memory map)
    (restores : ∀ key, sealer.Restores master key)
    (steps : List (Client × Operation))
    (agree :
      ∀ step ∈ steps,
        step.1.sealer = sealer ∧ step.1.master = master) :
    (Client.runOn memory steps).1 =
        (map.run sealer master (steps.map Prod.snd)).1 ∧
      Represents sealer master (Client.runOn memory steps).2
        (map.run sealer master (steps.map Prod.snd)).2 := by
  induction steps generalizing memory map with
  | nil =>
      exact ⟨rfl, represents⟩
  | cons step rest inductionHypothesis =>
      obtain ⟨client, operation⟩ := step
      obtain ⟨agrees, laterAgree⟩ := List.forall_mem_cons.mp agree
      obtain ⟨answered, after⟩ :=
        represents.performOn agrees restores operation
      obtain ⟨answersSame, last⟩ :=
        inductionHypothesis after laterAgree
      refine ⟨?_, last⟩
      simp only [Client.runOn, List.map_cons, SessionMap.run, answered,
        answersSame]

end Represents

/-- The writes of a recipient are counted up by a save for it that succeeds. -/
theorem Client.writes_performOn
    (client : Client)
    (memory : Storage.Memory)
    (operation : Operation)
    (recipient : RecipientId) :
    (client.performOn memory operation).2.writes recipient =
      memory.writes recipient +
        if isSaveFor recipient
            (operation, (client.performOn memory operation).1) then
          1
        else
          0 := by
  cases operation with
  | load other | openSession other =>
      exact congrArg
        (fun after : Storage.Memory => after.writes recipient)
        (memory.read_snd other)
  | save session =>
      cases encoded :
          Record.encode client.sealer client.master session with
      | error error =>
          rw [performOn_save_error memory encoded]
          rfl
      | ok record =>
          simp only [performOn_save memory encoded, isSaveFor,
            update_eq_functionUpdate]
          by_cases same : session.recipient = recipient
          · subst same
            simp
          · simp [same, Function.update_of_ne (Ne.symm same)]
  | delete other =>
      have kept :
          (memory.delete other).2.writes recipient =
            memory.writes recipient := by
        unfold Storage.Memory.delete
        split <;> rfl
      exact kept
  | contains other =>
      rfl

/-- The writes that were counted are the saves that succeeded. -/
theorem Client.writes_runOn
    (memory : Storage.Memory)
    (steps : List (Client × Operation))
    (recipient : RecipientId) :
    (runOn memory steps).2.writes recipient =
      memory.writes recipient +
        ((steps.map Prod.snd).zip (runOn memory steps).1).countP
          (isSaveFor recipient) := by
  induction steps generalizing memory with
  | nil =>
      rfl
  | cons step rest inductionHypothesis =>
      obtain ⟨client, operation⟩ := step
      simp only [runOn, List.map_cons, List.zip_cons_cons,
        List.countP_cons, inductionHypothesis, writes_performOn]
      omega

/--
Clients that share a sealer which restores every key, a master secret and a
memory that is empty at first see a map from recipients to the sessions saved
last, whichever locks they use. In the end the writes that were counted for a
recipient are the saves for it that succeeded.
-/
theorem run_eq_lastSaved
    (sealer : Sealer)
    (master : MasterSecret)
    (mutexes : Guard.Mutexes Guard.Slot)
    (steps : List (Client × Operation))
    (restores : ∀ key, sealer.Restores master key)
    (allFree : mutexes.AllFree)
    (agree :
      ∀ step ∈ steps,
        step.1.sealer = sealer ∧ step.1.master = master) :
    let archive : Archive Storage.Memory :=
      { backend := .empty, mutexes := mutexes }
    let operations := steps.map Prod.snd
    (archive.run steps).1 =
        (SessionMap.empty.run sealer master operations).1 ∧
      ∀ recipient,
        (archive.run steps).2.backend.writes recipient =
          (operations.zip (archive.run steps).1).countP
            (isSaveFor recipient) := by
  intro archive operations
  obtain ⟨_, _, ran⟩ := archive.run_of_allFree allFree steps
  obtain ⟨answered, _⟩ :=
    Represents.empty.runOn restores steps agree
  rw [ran]
  refine ⟨answered, ?_⟩
  intro recipient
  exact (Client.writes_runOn .empty steps recipient).trans
    (Nat.zero_add _)

/-- Two clients that save and load under different locks. -/
def sharedSteps : List (Client × Operation) :=
  let master : MasterSecret := { bytes := [6] }
  let shards := Guard.Shards.ofCount 4
  let left : Client := .standard master
  let right : Client := { left with lock := .sharded 1 shards }
  [ (left, .load 7),
    (left, .save Record.busySession),
    (right, .save { Record.busySession with key := none }),
    (right, .openSession 7),
    (left, .delete 7),
    (right, .contains 7) ]

/-- The two clients see the sessions saved last, and two saves are counted. -/
theorem run_eq_lastSaved_sharedSteps :
    let archive : Archive Storage.Memory :=
      { backend := .empty, mutexes := .unused }
    let operations := sharedSteps.map Prod.snd
    (archive.run sharedSteps).1 =
        (SessionMap.empty.run .plain { bytes := [6] } operations).1 ∧
      ∀ recipient,
        (archive.run sharedSteps).2.backend.writes recipient =
          (operations.zip (archive.run sharedSteps).1).countP
            (isSaveFor recipient) := by
  have agree :
      ∀ step ∈ sharedSteps,
        step.1.sealer = .plain ∧ step.1.master = { bytes := [6] } := by
    simp [sharedSteps, Client.standard]
  exact
    run_eq_lastSaved .plain { bytes := [6] } .unused sharedSteps
      (Sealer.plain_restores _) Guard.Mutexes.allFree_unused agree

end PeerSession
