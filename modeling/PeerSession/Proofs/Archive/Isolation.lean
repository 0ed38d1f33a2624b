import PeerSession.Proofs.Archive.Unguarded
import PeerSession.Proofs.Record.RoundTrip

namespace PeerSession

/-!
# Isolation of recipients

Over records in memory an operation sees and changes nothing but the record of
its recipient and the count of the writes for it. So a run answers every
recipient as the run of that recipient's operations alone does, and operations
of different recipients can change places. Sharing a mutex makes no difference,
not even when a crash leaves it poisoned.
-/

/-- The steps of a run that concern a recipient. -/
def stepsFor
    (recipient : RecipientId)
    (steps : List (Client × Operation)) :
    List (Client × Operation) :=
  steps.filter fun step => step.2.recipient = recipient

/-- The answers of a run to the steps that concern a recipient. -/
def answersFor
    (recipient : RecipientId)
    (steps : List (Client × Operation))
    (answers : List OperationAnswer) :
    List OperationAnswer :=
  ((steps.zip answers).filter fun answered =>
    answered.1.2.recipient = recipient).map Prod.snd

theorem stepsFor_cons_same
    {recipient : RecipientId}
    {operation : Operation}
    (same : operation.recipient = recipient)
    (client : Client)
    (rest : List (Client × Operation)) :
    stepsFor recipient ((client, operation) :: rest) =
      (client, operation) :: stepsFor recipient rest := by
  simp [stepsFor, same]

theorem stepsFor_cons_other
    {recipient : RecipientId}
    {operation : Operation}
    (other : operation.recipient ≠ recipient)
    (client : Client)
    (rest : List (Client × Operation)) :
    stepsFor recipient ((client, operation) :: rest) =
      stepsFor recipient rest := by
  simp [stepsFor, other]

theorem answersFor_cons_same
    {recipient : RecipientId}
    {operation : Operation}
    (same : operation.recipient = recipient)
    (client : Client)
    (rest : List (Client × Operation))
    (answer : OperationAnswer)
    (answers : List OperationAnswer) :
    answersFor recipient
        ((client, operation) :: rest) (answer :: answers) =
      answer :: answersFor recipient rest answers := by
  simp [answersFor, same]

theorem answersFor_cons_other
    {recipient : RecipientId}
    {operation : Operation}
    (other : operation.recipient ≠ recipient)
    (client : Client)
    (rest : List (Client × Operation))
    (answer : OperationAnswer)
    (answers : List OperationAnswer) :
    answersFor recipient
        ((client, operation) :: rest) (answer :: answers) =
      answersFor recipient rest answers := by
  simp [answersFor, other]

namespace Storage.Memory

/-- Two memories have the same record of a recipient and counted as many writes of it. -/
structure SameFor
    (recipient : RecipientId)
    (left right : Memory) :
    Prop where
  records : left.records recipient = right.records recipient
  writes : left.writes recipient = right.writes recipient

namespace SameFor

variable {recipient : RecipientId} {left right : Memory}

theorem refl (recipient : RecipientId) (memory : Memory) :
    SameFor recipient memory memory :=
  ⟨rfl, rfl⟩

theorem symm
    (same : SameFor recipient left right) :
    SameFor recipient right left :=
  ⟨same.records.symm, same.writes.symm⟩

theorem trans
    {last : Memory}
    (first : SameFor recipient left right)
    (second : SameFor recipient right last) :
    SameFor recipient left last :=
  ⟨first.records.trans second.records, first.writes.trans second.writes⟩

theorem read
    (same : SameFor recipient left right) :
    (left.read recipient).1 = (right.read recipient).1 := by
  unfold Memory.read
  rw [same.records]
  split <;> rfl

theorem after_read
    (same : SameFor recipient left right) :
    SameFor recipient
      (left.read recipient).2 (right.read recipient).2 := by
  rw [left.read_snd, right.read_snd]
  exact same

theorem write
    (same : SameFor recipient left right)
    (data : Bytes) :
    (left.write recipient data).1 = (right.write recipient data).1 ∧
      SameFor recipient
        (left.write recipient data).2 (right.write recipient data).2 := by
  rw [left.write_eq, right.write_eq]
  refine ⟨rfl, ?_, ?_⟩
  · simp [update_eq_functionUpdate]
  · simp [update_eq_functionUpdate, same.writes]

theorem delete
    (same : SameFor recipient left right) :
    (left.delete recipient).1 = (right.delete recipient).1 ∧
      SameFor recipient
        (left.delete recipient).2 (right.delete recipient).2 := by
  have present := same.records
  unfold Memory.delete
  cases stored : right.records recipient with
  | none =>
      rw [stored] at present
      simp only [present]
      exact ⟨trivial, same⟩
  | some record =>
      rw [stored] at present
      simp only [present]
      refine ⟨trivial, ?_, same.writes⟩
      simp [update_eq_functionUpdate]

theorem contains
    (same : SameFor recipient left right) :
    left.contains recipient = right.contains recipient := by
  unfold Memory.contains
  rw [same.records]

end SameFor

theorem sameFor_write_other
    (memory : Memory)
    {recipient other : RecipientId}
    (different : other ≠ recipient)
    (data : Bytes) :
    SameFor recipient (memory.write other data).2 memory := by
  rw [memory.write_eq]
  constructor <;>
    simp only [update_eq_functionUpdate,
      Function.update_of_ne different.symm]

theorem sameFor_delete_other
    (memory : Memory)
    {recipient other : RecipientId}
    (different : other ≠ recipient) :
    SameFor recipient (memory.delete other).2 memory := by
  unfold Memory.delete
  split
  · refine ⟨?_, rfl⟩
    simp only [update_eq_functionUpdate,
      Function.update_of_ne different.symm]
  · exact .refl recipient memory

end Storage.Memory

open Storage.Memory (SameFor)

namespace Client

/-- An operation leaves alone what belongs to another recipient. -/
theorem sameFor_performOn_other
    (client : Client)
    (memory : Storage.Memory)
    {operation : Operation}
    {recipient : RecipientId}
    (other : operation.recipient ≠ recipient) :
    SameFor recipient (client.performOn memory operation).2 memory := by
  cases operation with
  | load different | openSession different =>
      have unchanged := memory.read_snd different
      change SameFor recipient (memory.read different).2 memory
      rw [unchanged]
      exact .refl recipient memory
  | save session =>
      cases encoded :
          Record.encode client.sealer client.master session with
      | error error =>
          rw [performOn_save_error memory encoded]
          exact .refl recipient memory
      | ok record =>
          have written := memory.sameFor_write_other other record
          rw [memory.write_eq] at written
          rw [performOn_save memory encoded]
          exact written
  | delete different =>
      exact memory.sameFor_delete_other other
  | contains different =>
      exact .refl recipient memory

/-- An operation answers by what belongs to its recipient, and changes it, alone. -/
theorem sameFor_performOn
    (client : Client)
    {left right : Storage.Memory}
    {operation : Operation}
    (same : SameFor operation.recipient left right) :
    (client.performOn left operation).1 =
        (client.performOn right operation).1 ∧
      SameFor operation.recipient
        (client.performOn left operation).2
        (client.performOn right operation).2 := by
  cases operation with
  | load recipient =>
      have answer :
          (Storage.Backend.read left recipient).1 =
            (Storage.Backend.read right recipient).1 :=
        same.read
      rw [performOn_load, performOn_load, answer]
      exact ⟨rfl, same.after_read⟩
  | openSession recipient =>
      have answer :
          (Storage.Backend.read left recipient).1 =
            (Storage.Backend.read right recipient).1 :=
        same.read
      rw [performOn_openSession, performOn_openSession, answer]
      exact ⟨rfl, same.after_read⟩
  | save session =>
      cases encoded :
          Record.encode client.sealer client.master session with
      | error error =>
          rw [performOn_save_error left encoded,
            performOn_save_error right encoded]
          exact ⟨rfl, same⟩
      | ok record =>
          obtain ⟨answer, after⟩ := same.write record
          have written :
              (Storage.Backend.write left session.recipient record).1 =
                (Storage.Backend.write right session.recipient record).1 :=
            answer
          rw [performOn_save_ok left encoded,
            performOn_save_ok right encoded, written]
          exact ⟨rfl, after⟩
  | delete recipient =>
      obtain ⟨answer, after⟩ := same.delete
      have deletedAlike :
          (Storage.Backend.delete left recipient).1 =
            (Storage.Backend.delete right recipient).1 :=
        answer
      rw [performOn_delete, performOn_delete, deletedAlike]
      exact ⟨rfl, after⟩
  | contains recipient =>
      have answer :
          left.contains recipient = right.contains recipient :=
        same.contains
      exact ⟨congrArg OperationAnswer.contained answer, same⟩

/-- What a run answers a recipient and leaves for it, the run of its own steps does. -/
theorem runOn_stepsFor
    {left right : Storage.Memory}
    {recipient : RecipientId}
    (same : SameFor recipient left right)
    (steps : List (Client × Operation)) :
    answersFor recipient steps (runOn left steps).1 =
        (runOn right (stepsFor recipient steps)).1 ∧
      SameFor recipient
        (runOn left steps).2
        (runOn right (stepsFor recipient steps)).2 := by
  induction steps generalizing left right with
  | nil =>
      exact ⟨rfl, same⟩
  | cons step rest inductionHypothesis =>
      obtain ⟨client, operation⟩ := step
      by_cases mine : operation.recipient = recipient
      · subst mine
        obtain ⟨answer, after⟩ := client.sameFor_performOn same
        obtain ⟨answers, last⟩ := inductionHypothesis after
        rw [stepsFor_cons_same rfl]
        simp only [runOn]
        rw [answersFor_cons_same rfl, answer, answers]
        exact ⟨rfl, last⟩
      · have untouched :=
          client.sameFor_performOn_other left mine
        obtain ⟨answers, last⟩ :=
          inductionHypothesis (untouched.trans same)
        rw [stepsFor_cons_other mine]
        simp only [runOn]
        rw [answersFor_cons_other mine]
        exact ⟨answers, last⟩

end Client

/-- Memories that are the same for every recipient are the same. -/
theorem Storage.Memory.eq_of_sameFor
    {left right : Storage.Memory}
    (same : ∀ recipient, SameFor recipient left right) :
    left = right := by
  have records : left.records = right.records :=
    funext fun recipient => (same recipient).records
  have writes : left.writes = right.writes :=
    funext fun recipient => (same recipient).writes
  cases left
  cases right
  simp_all

/-- A run over memory in which nothing is held answers a recipient as its own steps alone do. -/
theorem Archive.run_stepsFor
    (archive : Archive Storage.Memory)
    (allFree : archive.mutexes.AllFree)
    (steps : List (Client × Operation))
    (recipient : RecipientId) :
    let whole := archive.run steps
    let own := archive.run (stepsFor recipient steps)
    answersFor recipient steps whole.1 = own.1 ∧
      SameFor recipient whole.2.backend own.2.backend := by
  intro whole own
  obtain ⟨_, _, ran⟩ := archive.run_of_allFree allFree steps
  obtain ⟨_, _, ranAlone⟩ :=
    archive.run_of_allFree allFree (stepsFor recipient steps)
  have isolated :=
    Client.runOn_stepsFor (.refl recipient archive.backend) steps
  simp only [whole, own, ran, ranAlone]
  exact isolated

/--
Whatever is stored at first, a run answers the operations of a recipient as the
run of these operations alone does, and leaves the same record and the same
count of writes for it. Steps that keep the order of every recipient's operations
leave the same records and answer everyone alike.
-/
theorem recipients_isolated
    (archive : Archive Storage.Memory)
    (steps : List (Client × Operation))
    (allFree : archive.mutexes.AllFree) :
    (∀ recipient,
      let own := archive.run (stepsFor recipient steps)
      answersFor recipient steps (archive.run steps).1 = own.1 ∧
        (archive.run steps).2.backend.records recipient =
          own.2.backend.records recipient ∧
        (archive.run steps).2.backend.writes recipient =
          own.2.backend.writes recipient) ∧
      ∀ reordered : List (Client × Operation),
        (∀ recipient,
          stepsFor recipient reordered = stepsFor recipient steps) →
        (archive.run reordered).2.backend = (archive.run steps).2.backend ∧
          ∀ recipient,
            answersFor recipient reordered (archive.run reordered).1 =
              answersFor recipient steps (archive.run steps).1 := by
  have isolated := archive.run_stepsFor allFree steps
  constructor
  · intro recipient own
    obtain ⟨answers, same⟩ := isolated recipient
    exact ⟨answers, same.records, same.writes⟩
  · intro reordered keepsOrder
    have others := archive.run_stepsFor allFree reordered
    simp only [keepsOrder] at others
    constructor
    · apply Storage.Memory.eq_of_sameFor
      intro recipient
      exact (others recipient).2.trans (isolated recipient).2.symm
    · intro recipient
      exact (others recipient).1.trans (isolated recipient).1.symm

/-- A record whose identity blob is too short, so that loading it crashes. -/
def crashingRecord : Bytes :=
  Wire.octets
    [ .word Record.Format.markerV2,
      .word 1,
      .blob [],
      .blob [],
      .word 3,
      .blob [5],
      .word 0 ]

/-- A client whose lock has sixteen shards. -/
def shardingClient : Client where
  sealer := .plain
  master := { bytes := [] }
  lock := .sharded 1 (.ofCount 16)

/-- Operations of two recipients of one shard, of whom one has a record that crashes. -/
def crossingSteps : List (Client × Operation) :=
  [ (shardingClient, .load 23),
    (shardingClient, .save Record.busySession),
    (shardingClient, .delete 23),
    (shardingClient, .openSession 7) ]

/-- The same operations, first those of the recipient with the sound record. -/
def sortedSteps : List (Client × Operation) :=
  [ (shardingClient, .save Record.busySession),
    (shardingClient, .openSession 7),
    (shardingClient, .load 23),
    (shardingClient, .delete 23) ]

/-- A memory with that record alone, of which no mutex was ever held. -/
def crossingArchive : Archive Storage.Memory where
  backend := Storage.Memory.empty.put 23 crashingRecord
  mutexes := .unused

set_option maxRecDepth 1024 in
/-- Neither the crash nor the order of the recipients shows in what the other one is answered. -/
theorem recipients_isolated_crossingSteps :
    shardingClient.lock.slot 7 = shardingClient.lock.slot 23 ∧
      answersFor 7 crossingSteps (crossingArchive.run crossingSteps).1 =
        [ .saved (.finished (.ok ())),
          .opened (.finished Record.busySession) ] ∧
      (crossingArchive.run sortedSteps).2.backend =
        (crossingArchive.run crossingSteps).2.backend := by
  obtain ⟨isolated, reorders⟩ :=
    recipients_isolated crossingArchive crossingSteps
      Guard.Mutexes.allFree_unused
  have keepsOrder :
      ∀ recipient,
        stepsFor recipient sortedSteps =
          stepsFor recipient crossingSteps := by
    intro recipient
    by_cases isSeven : recipient = 7
    · subst isSeven
      rfl
    · by_cases isOther : recipient = 23
      · subst isOther
        rfl
      · simp [stepsFor, sortedSteps, crossingSteps, Operation.recipient,
          Record.busySession, Ne.symm isSeven, Ne.symm isOther]
  obtain ⟨sameBackend, _⟩ := reorders sortedSteps keepsOrder
  have alone :
      (crossingArchive.run (stepsFor 7 crossingSteps)).1 =
        [ .saved (.finished (.ok ())),
          .opened (.finished Record.busySession) ] :=
    rfl
  obtain ⟨answered, _⟩ := isolated 7
  refine ⟨rfl, ?_, sameBackend⟩
  exact answered.trans alone

end PeerSession
