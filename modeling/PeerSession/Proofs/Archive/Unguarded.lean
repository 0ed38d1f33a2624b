import PeerSession.Archive.Operation
import PeerSession.Proofs.Guard.Mutexes
import PeerSession.Storage.Memory

namespace PeerSession

/-!
# Operations without waiting

As long as operations are carried out one after the other, each of them finds
its mutex free and leaves it free. What they answer and what they leave in the
backend is then what they do to the backend alone.
-/

/-- The session that is loaded from a record is what was taken over from it. -/
theorem Loaded.session_of_ofRecord
    {sealer : Sealer}
    {master : MasterSecret}
    {recipient : RecipientId}
    {record : Bytes}
    {loaded : Loaded}
    (finished : ofRecord sealer master recipient record = .ok loaded) :
    loaded.session =
      (Record.decodeOver sealer master (.fresh recipient) record).1 := by
  unfold ofRecord at finished
  split at finished <;> cases finished <;> simp [*]

/-- What becomes of work that does not have to wait. -/
def Outcome.ofExcept
    {ε α : Type} :
    Except ε α →
    Outcome ε α
  | .ok value => .finished value
  | .error fault => .crashed fault

/-- The fault at which work crashed. -/
def Outcome.crash?
    {ε α : Type} :
    Outcome ε α →
    Option ε
  | .finished _ => none
  | .crashed fault => some fault
  | .blocked => none

@[simp] theorem Outcome.crash?_map
    {ε α β : Type}
    (outcome : Outcome ε α)
    (change : α → β) :
    (outcome.map change).crash? = outcome.crash? := by
  cases outcome <;> rfl

/-- The fault at which an operation crashed. -/
def OperationAnswer.crash? : OperationAnswer → Option IdentityKey.Fault
  | .loaded attempt => attempt.crash?
  | .opened attempt => attempt.crash?
  | .saved attempt => attempt.crash?
  | .deleted attempt => attempt.crash?
  | .contained _ => none

/-- Guarded work that finds its mutex free does not have to wait. -/
theorem Archive.guarded_of_free
    {σ ε α : Type}
    {archive : Archive σ}
    {slot : Guard.Slot}
    (free : (archive.mutexes slot).isHeld = false)
    (recipient : RecipientId)
    (work : σ → Except ε α × σ) :
    archive.guarded slot recipient work =
      (.ofExcept (work archive.backend).1,
        { backend := (work archive.backend).2
          mutexes :=
            archive.mutexes.settle slot (work archive.backend).1 }) := by
  unfold guarded
  rw [Guard.Mutexes.acquire?_of_free free recipient]
  rcases work archive.backend with ⟨fault | value, backend⟩
  · simp only [Guard.Mutexes.abandon_heldFor]
    rfl
  · simp only [Guard.Mutexes.free_heldFor free]
    rfl

theorem Archive.guarded_of_held
    {σ ε α : Type}
    {archive : Archive σ}
    {slot : Guard.Slot}
    (held : (archive.mutexes slot).isHeld = true)
    (recipient : RecipientId)
    (work : σ → Except ε α × σ) :
    archive.guarded slot recipient work = (.blocked, archive) := by
  simp only [guarded, Guard.Mutexes.acquire?_of_held held]

/-- Guarded work has to wait exactly as long as its mutex is held. -/
theorem Archive.guarded_eq_blocked_iff
    {σ ε α : Type}
    (archive : Archive σ)
    (slot : Guard.Slot)
    (recipient : RecipientId)
    (work : σ → Except ε α × σ) :
    (archive.guarded slot recipient work).1 = .blocked ↔
      (archive.mutexes slot).isHeld = true := by
  cases held : (archive.mutexes slot).isHeld with
  | true =>
      simp only [guarded_of_held held]
  | false =>
      rw [guarded_of_free held]
      rcases work archive.backend with ⟨fault | value, backend⟩ <;>
        simp [Outcome.ofExcept]

/-- Guarded work finds its mutex free if nothing is held. -/
theorem Archive.guarded_of_allFree
    {σ ε α : Type}
    {archive : Archive σ}
    (allFree : archive.mutexes.AllFree)
    (slot : Guard.Slot)
    (recipient : RecipientId)
    (work : σ → Except ε α × σ) :
    archive.guarded slot recipient work =
      (.ofExcept (work archive.backend).1,
        { backend := (work archive.backend).2
          mutexes :=
            archive.mutexes.settle slot (work archive.backend).1 }) :=
  guarded_of_free (allFree slot) recipient work

namespace Client

variable {σ : Type} [Storage.Backend σ]

/-- Carry out one operation on a backend, without any mutex. -/
def performOn
    (client : Client)
    (backend : σ) :
    Operation →
    OperationAnswer × σ
  | .load recipient =>
      let (answer, after) := Storage.Backend.read backend recipient
      (.loaded (.ofExcept (client.interpret recipient answer)), after)
  | .openSession recipient =>
      let (answer, after) := Storage.Backend.read backend recipient
      let attempt := Outcome.ofExcept (client.interpret recipient answer)
      (.opened (attempt.map Loaded.session), after)
  | .save session =>
      let recipient := session.recipient
      match Record.encode client.sealer client.master session with
      | .error error =>
          (.saved (.finished (.error (.encode recipient error))), backend)
      | .ok record =>
          let (answer, after) :=
            Storage.Backend.write backend recipient record
          (.saved (.finished (answer.mapError (.save recipient))), after)
  | .delete recipient =>
      let (answer, after) := Storage.Backend.delete backend recipient
      (.deleted (.finished (deleted recipient answer)), after)
  | .contains recipient =>
      (.contained (Storage.Backend.contains backend recipient), backend)

theorem performOn_load
    (client : Client)
    (backend : σ)
    (recipient : RecipientId) :
    client.performOn backend (.load recipient) =
      (.loaded
          (.ofExcept
            (client.interpret recipient
              (Storage.Backend.read backend recipient).1)),
        (Storage.Backend.read backend recipient).2) :=
  rfl

theorem performOn_openSession
    (client : Client)
    (backend : σ)
    (recipient : RecipientId) :
    client.performOn backend (.openSession recipient) =
      (.opened
          ((Outcome.ofExcept
              (client.interpret recipient
                (Storage.Backend.read backend recipient).1)).map
            Loaded.session),
        (Storage.Backend.read backend recipient).2) :=
  rfl

theorem performOn_save_ok
    {client : Client}
    {session : Session}
    {record : Bytes}
    (backend : σ)
    (encoded :
      Record.encode client.sealer client.master session = .ok record) :
    client.performOn backend (.save session) =
      (.saved
          (.finished
            ((Storage.Backend.write backend session.recipient record).1.mapError
              (.save session.recipient))),
        (Storage.Backend.write backend session.recipient record).2) := by
  simp only [performOn, encoded]

theorem performOn_delete
    (client : Client)
    (backend : σ)
    (recipient : RecipientId) :
    client.performOn backend (.delete recipient) =
      (.deleted
          (.finished
            (deleted recipient
              (Storage.Backend.delete backend recipient).1)),
        (Storage.Backend.delete backend recipient).2) :=
  rfl

/-- A session that can be encoded is always saved in memory, as exactly its record. -/
theorem performOn_save
    {client : Client}
    {session : Session}
    {record : Bytes}
    (memory : Storage.Memory)
    (encoded :
      Record.encode client.sealer client.master session = .ok record) :
    client.performOn memory (.save session) =
      (.saved (.finished (.ok ())),
        { records :=
            update memory.records session.recipient (some record)
          writes :=
            update memory.writes session.recipient
              (memory.writes session.recipient + 1) }) := by
  have written := memory.write_eq session.recipient record
  rw [performOn_save_ok memory encoded]
  simp only [Storage.Backend.write, written]
  rfl

theorem performOn_save_error
    {client : Client}
    {session : Session}
    {error : Record.Error}
    (backend : σ)
    (failed :
      Record.encode client.sealer client.master session = .error error) :
    client.performOn backend (.save session) =
      (.saved (.finished (.error (.encode session.recipient error))),
        backend) := by
  simp only [performOn, failed]

/-- Carry out operations on a backend, one after the other. -/
def runOn
    (backend : σ) :
    List (Client × Operation) →
    List OperationAnswer × σ
  | [] => ([], backend)
  | (client, operation) :: rest =>
      let (answer, after) := client.performOn backend operation
      let (answers, last) := runOn after rest
      (answer :: answers, last)

/-- Loading reads the backend, and poisons the recipient's mutex if that crashes. -/
theorem load_of_free
    (client : Client)
    {archive : Archive σ}
    {recipient : RecipientId}
    (free :
      (archive.mutexes (client.lock.slot recipient)).isHeld = false) :
    let reply := Storage.Backend.read archive.backend recipient
    let result := client.interpret recipient reply.1
    client.load archive recipient =
      (.ofExcept result,
        { backend := reply.2
          mutexes :=
            archive.mutexes.settle (client.lock.slot recipient) result }) :=
  Archive.guarded_of_free free _ _

theorem load_of_allFree
    (client : Client)
    {archive : Archive σ}
    (allFree : archive.mutexes.AllFree)
    (recipient : RecipientId) :
    let reply := Storage.Backend.read archive.backend recipient
    let result := client.interpret recipient reply.1
    client.load archive recipient =
      (.ofExcept result,
        { backend := reply.2
          mutexes :=
            archive.mutexes.settle (client.lock.slot recipient) result }) :=
  client.load_of_free (allFree _)

/-- Saving writes the record of a session that can be encoded, and leaves the mutexes alone. -/
theorem save_of_free
    {client : Client}
    {archive : Archive σ}
    {session : Session}
    {record : Bytes}
    (free :
      (archive.mutexes
        (client.lock.slot session.recipient)).isHeld = false)
    (encoded :
      Record.encode client.sealer client.master session = .ok record) :
    let reply :=
      Storage.Backend.write archive.backend session.recipient record
    client.save archive session =
      (.finished (reply.1.mapError (.save session.recipient)),
        { backend := reply.2, mutexes := archive.mutexes }) := by
  simp only [save, encoded, Archive.guarded_of_free free]
  rfl

/-- The mutexes behind an operation: only a crash leaves a trace, at the recipient's mutex. -/
def mutexesBehind
    (client : Client)
    (mutexes : Guard.Mutexes Guard.Slot)
    (operation : Operation)
    (answer : OperationAnswer) :
    Guard.Mutexes Guard.Slot :=
  match answer.crash? with
  | none => mutexes
  | some _ => mutexes.abandon (client.lock.slot operation.recipient)

/--
An operation that finds its mutex free does to the backend what it does without
mutexes, and frees the mutex again.
-/
theorem perform_of_free
    (client : Client)
    {archive : Archive σ}
    {operation : Operation}
    (free :
      (archive.mutexes
        (client.lock.slot operation.recipient)).isHeld = false) :
    let performed := client.performOn archive.backend operation
    client.perform archive operation =
      (performed.1,
        { backend := performed.2
          mutexes :=
            client.mutexesBehind archive.mutexes operation performed.1 }) := by
  cases operation with
  | load recipient =>
      have loaded := client.load_of_free free
      simp only [Operation.recipient] at loaded
      simp only [perform, loaded, performOn_load]
      cases client.interpret recipient
          (Storage.Backend.read archive.backend recipient).1 <;>
        rfl
  | openSession recipient =>
      have loaded := client.load_of_free free
      simp only [Operation.recipient] at loaded
      simp only [perform, openSession, loaded, performOn_openSession]
      cases client.interpret recipient
          (Storage.Backend.read archive.backend recipient).1 <;>
        rfl
  | save session =>
      simp only [perform, save, performOn]
      cases Record.encode client.sealer client.master session with
      | error error =>
          rfl
      | ok record =>
          simp only [Operation.recipient] at free
          simp only [Archive.guarded_of_free free]
          rfl
  | delete recipient =>
      simp only [Operation.recipient] at free
      simp only [perform, delete, Archive.guarded_of_free free]
      rfl
  | contains recipient =>
      rfl

/-- What was free before an operation is free behind it. -/
theorem isHeld_mutexesBehind
    (client : Client)
    {mutexes : Guard.Mutexes Guard.Slot}
    {operation : Operation}
    (free : (mutexes (client.lock.slot operation.recipient)).isHeld = false)
    (answer : OperationAnswer)
    (slot : Guard.Slot) :
    (client.mutexesBehind mutexes operation answer slot).isHeld =
      (mutexes slot).isHeld := by
  unfold mutexesBehind
  cases answer.crash? with
  | none =>
      rfl
  | some fault =>
      exact Guard.Mutexes.isHeld_abandon free slot

/-- An operation that would have to wait leaves everything as it is. -/
theorem perform_of_held
    (client : Client)
    {archive : Archive σ}
    {operation : Operation}
    (held :
      (archive.mutexes
        (client.lock.slot operation.recipient)).isHeld = true) :
    (client.perform archive operation).2 = archive := by
  cases operation with
  | load recipient =>
      simp only [Operation.recipient] at held
      simp only [perform, load, Archive.guarded_of_held held]
  | openSession recipient =>
      simp only [Operation.recipient] at held
      simp only [perform, openSession, load, Archive.guarded_of_held held]
  | save session =>
      simp only [Operation.recipient] at held
      simp only [perform, save, Archive.guarded_of_held held]
      split <;> rfl
  | delete recipient =>
      simp only [Operation.recipient] at held
      simp only [perform, delete, Archive.guarded_of_held held]
  | contains recipient =>
      rfl

/-- No operation holds a mutex behind it that was not held in front of it. -/
theorem isHeld_perform
    (client : Client)
    (archive : Archive σ)
    (operation : Operation)
    (slot : Guard.Slot) :
    ((client.perform archive operation).2.mutexes slot).isHeld =
      (archive.mutexes slot).isHeld := by
  cases held :
      (archive.mutexes
        (client.lock.slot operation.recipient)).isHeld with
  | true =>
      rw [client.perform_of_held held]
  | false =>
      rw [client.perform_of_free held]
      exact client.isHeld_mutexesBehind held _ slot

/-- An operation that finds nothing held does to the backend what it does without mutexes. -/
theorem perform_of_allFree
    (client : Client)
    {archive : Archive σ}
    (allFree : archive.mutexes.AllFree)
    (operation : Operation) :
    ∃ mutexes : Guard.Mutexes Guard.Slot,
      mutexes.AllFree ∧
        client.perform archive operation =
          ((client.performOn archive.backend operation).1,
            { backend := (client.performOn archive.backend operation).2
              mutexes := mutexes }) := by
  refine ⟨_, ?_, client.perform_of_free (allFree _)⟩
  intro slot
  rw [client.isHeld_mutexesBehind (allFree _)]
  exact allFree slot

end Client

namespace Archive

variable {σ : Type}

/-- The mutexes that the steps of a run need are free. -/
def FreeFor
    (archive : Archive σ)
    (steps : List (Client × Operation)) :
    Prop :=
  ∀ step ∈ steps,
    (archive.mutexes (step.1.lock.slot step.2.recipient)).isHeld = false

variable [Storage.Backend σ]

/-- Behind a step the mutexes that the later ones need are still free. -/
theorem FreeFor.behind
    {archive : Archive σ}
    {client : Client}
    {operation : Operation}
    {rest : List (Client × Operation)}
    (free : archive.FreeFor ((client, operation) :: rest)) :
    (client.perform archive operation).2.FreeFor rest := by
  intro step member
  rw [client.isHeld_perform]
  exact free step (List.mem_cons_of_mem _ member)

/--
A run that finds the mutexes of its steps free answers as it does without mutexes,
and holds behind it what was held in front of it.
-/
theorem run_of_free
    (archive : Archive σ)
    (steps : List (Client × Operation))
    (free : archive.FreeFor steps) :
    ∃ mutexes : Guard.Mutexes Guard.Slot,
      (∀ slot, (mutexes slot).isHeld = (archive.mutexes slot).isHeld) ∧
        archive.run steps =
          ((Client.runOn archive.backend steps).1,
            { backend := (Client.runOn archive.backend steps).2
              mutexes := mutexes }) := by
  induction steps generalizing archive with
  | nil =>
      exact ⟨archive.mutexes, fun _ => rfl, rfl⟩
  | cons step rest inductionHypothesis =>
      obtain ⟨client, operation⟩ := step
      have firstFree := (List.forall_mem_cons.mp free).1
      obtain ⟨mutexes, laterKept, continued⟩ :=
        inductionHypothesis (client.perform archive operation).2
          free.behind
      refine ⟨mutexes, ?_, ?_⟩
      · intro slot
        rw [laterKept, client.isHeld_perform]
      · rw [client.perform_of_free firstFree] at continued
        simp only [run, client.perform_of_free firstFree, continued,
          Client.runOn]

/-- A run in which nothing is held at first answers as it does without mutexes. -/
theorem run_of_allFree
    (archive : Archive σ)
    (allFree : archive.mutexes.AllFree)
    (steps : List (Client × Operation)) :
    ∃ mutexes : Guard.Mutexes Guard.Slot,
      mutexes.AllFree ∧
        archive.run steps =
          ((Client.runOn archive.backend steps).1,
            { backend := (Client.runOn archive.backend steps).2
              mutexes := mutexes }) := by
  obtain ⟨mutexes, kept, same⟩ :=
    archive.run_of_free steps fun _ _ => allFree _
  exact ⟨mutexes, fun slot => (kept slot).trans (allFree slot), same⟩

end Archive

end PeerSession
