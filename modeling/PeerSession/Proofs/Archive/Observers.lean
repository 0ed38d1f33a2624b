import PeerSession.Proofs.Archive.Crashes

namespace PeerSession

/-!
# Operations that only observe

Loading, opening and asking for a record change nothing over records in memory,
even if they crash. A crash poisons the recipient's mutex, but leaves it as free
as every other operation does, and a poisoned mutex works like any other. So a
run can be told neither from its answers nor from its records which observers it
was carried out without, and with which locks.
-/

/-- Whether an operation only looks at a record. -/
def Operation.observes : Operation → Bool
  | .load _ => true
  | .openSession _ => true
  | .save _ => false
  | .delete _ => false
  | .contains _ => true

/-- Whether work still has to wait. -/
def Outcome.isBlocked
    {ε α : Type} :
    Outcome ε α →
    Bool
  | .finished _ => false
  | .crashed _ => false
  | .blocked => true

/-- Whether an operation still has to wait. -/
def OperationAnswer.isBlocked : OperationAnswer → Bool
  | .loaded attempt => attempt.isBlocked
  | .opened attempt => attempt.isBlocked
  | .saved attempt => attempt.isBlocked
  | .deleted attempt => attempt.isBlocked
  | .contained _ => false

namespace Client

/-- A mutex is poisoned behind an operation if it was before, or if the operation crashed with it. -/
theorem poisoned_mutexesBehind_iff
    (client : Client)
    (mutexes : Guard.Mutexes Guard.Slot)
    (operation : Operation)
    (answer : OperationAnswer)
    (slot : Guard.Slot) :
    (client.mutexesBehind mutexes operation answer slot).poisoned = true ↔
      (mutexes slot).poisoned = true ∨
        (slot = client.lock.slot operation.recipient ∧
          ∃ fault, answer.crash? = some fault) := by
  unfold mutexesBehind
  cases answer.crash? with
  | none =>
      simp
  | some fault =>
      by_cases same : slot = client.lock.slot operation.recipient
      · subst same
        simp [Guard.Mutex.abandoned]
      · simp [Guard.Mutexes.abandon_other _ same, same]

section

variable {σ : Type} [Storage.Backend σ]

/-- On a backend alone there is nothing to wait for. -/
theorem isBlocked_performOn
    (client : Client)
    (backend : σ)
    (operation : Operation) :
    (client.performOn backend operation).1.isBlocked = false := by
  cases operation with
  | load recipient =>
      rw [performOn_load]
      cases client.interpret recipient
          (Storage.Backend.read backend recipient).1 <;>
        rfl
  | openSession recipient =>
      rw [performOn_openSession]
      cases client.interpret recipient
          (Storage.Backend.read backend recipient).1 <;>
        rfl
  | save session =>
      cases encoded :
          Record.encode client.sealer client.master session with
      | ok record =>
          rw [performOn_save_ok backend encoded]
          rfl
      | error error =>
          rw [performOn_save_error backend encoded]
          rfl
  | delete recipient =>
      rfl
  | contains recipient =>
      rfl

/-- The lock shows in the mutexes only. -/
theorem performOn_relocked
    (client : Client)
    (lock : Guard.Lock)
    (backend : σ)
    (operation : Operation) :
    performOn { client with lock := lock } backend operation =
      client.performOn backend operation := by
  cases operation <;> rfl

end

/-- Operations that only look at a record leave all records and write counts alone. -/
theorem performOn_of_observes
    (client : Client)
    (memory : Storage.Memory)
    {operation : Operation}
    (observes : operation.observes = true) :
    (client.performOn memory operation).2 = memory := by
  cases operation with
  | load recipient | openSession recipient =>
      exact memory.read_snd recipient
  | save session | delete recipient =>
      cases observes
  | contains recipient =>
      rfl

end Client

/--
A step of a run, with the lock that it uses in another run, from which it may be
missing instead.
-/
structure VariedStep where
  client : Client
  operation : Operation
  otherLock? : Option Guard.Lock

namespace VariedStep

/-- The step as it is carried out in the first run. -/
def original (step : VariedStep) : Client × Operation :=
  (step.client, step.operation)

/-- The step as it is carried out in the other run, if it is. -/
def varied? (step : VariedStep) : Option (Client × Operation) :=
  step.otherLock?.map fun lock =>
    ({ step.client with lock := lock }, step.operation)

/-- The steps of the first run. -/
def originals (steps : List VariedStep) : List (Client × Operation) :=
  steps.map original

/-- The steps of the other run. -/
def others (steps : List VariedStep) : List (Client × Operation) :=
  steps.filterMap varied?

/-- The answers of the first run to the steps that the other one has as well. -/
def answersKept
    (steps : List VariedStep)
    (answers : List OperationAnswer) :
    List OperationAnswer :=
  (steps.zip answers).filterMap fun answered =>
    answered.1.otherLock?.map fun _ => answered.2

variable
  {step : VariedStep}
  (rest : List VariedStep)
  (answer : OperationAnswer)
  (answers : List OperationAnswer)

theorem others_cons_missing
    (missing : step.otherLock? = none) :
    others (step :: rest) = others rest := by
  simp [others, varied?, missing]

theorem others_cons_present
    {lock : Guard.Lock}
    (present : step.otherLock? = some lock) :
    others (step :: rest) =
      ({ step.client with lock := lock }, step.operation) ::
        others rest := by
  simp [others, varied?, present]

theorem answersKept_cons_missing
    (missing : step.otherLock? = none) :
    answersKept (step :: rest) (answer :: answers) =
      answersKept rest answers := by
  simp [answersKept, missing]

theorem answersKept_cons_present
    {lock : Guard.Lock}
    (present : step.otherLock? = some lock) :
    answersKept (step :: rest) (answer :: answers) =
      answer :: answersKept rest answers := by
  simp [answersKept, present]

/-- Leaving observers out changes neither the other answers nor the records. -/
theorem runOn_others
    (memory : Storage.Memory)
    {steps : List VariedStep}
    (missingObserve :
      ∀ step ∈ steps,
        step.otherLock? = none → step.operation.observes = true) :
    let run := Client.runOn memory (originals steps)
    Client.runOn memory (others steps) =
      (answersKept steps run.1, run.2) := by
  induction steps generalizing memory with
  | nil =>
      rfl
  | cons step rest inductionHypothesis =>
      obtain ⟨firstObserves, restObserve⟩ :=
        List.forall_mem_cons.mp missingObserve
      have later :=
        inductionHypothesis
          (step.client.performOn memory step.operation).2 restObserve
      dsimp only at later ⊢
      simp only [originals, List.map_cons, original, Client.runOn]
      cases present : step.otherLock? with
      | none =>
          have same :=
            step.client.performOn_of_observes memory
              (firstObserves present)
          rw [same] at later ⊢
          rw [others_cons_missing rest present,
            answersKept_cons_missing rest _ _ present]
          exact later
      | some lock =>
          rw [others_cons_present rest present,
            answersKept_cons_present rest _ _ present]
          simp only [Client.runOn, Client.performOn_relocked, later]
          rfl

theorem forall_mem_originals
    {steps : List VariedStep}
    {property : Client × Operation → Prop}
    (holds : ∀ step ∈ steps, property step.original) :
    ∀ step ∈ originals steps, property step := by
  intro plain member
  obtain ⟨step, isStep, rfl⟩ := List.mem_map.mp member
  exact holds step isStep

end VariedStep

/--
An operation that finds its mutex free does not wait and leaves everything as free
as it was. It poisons a mutex only if it crashes with it, and then it was loading
or opening.
-/
theorem Client.perform_frees
    {σ : Type}
    [Storage.Backend σ]
    (client : Client)
    {archive : Archive σ}
    {operation : Operation}
    (free :
      (archive.mutexes
        (client.lock.slot operation.recipient)).isHeld = false) :
    let recipient := operation.recipient
    let performed := client.perform archive operation
    performed.1.isBlocked = false ∧
      ∀ slot,
        (performed.2.mutexes slot).isHeld = (archive.mutexes slot).isHeld ∧
          ((performed.2.mutexes slot).poisoned = true ↔
            (archive.mutexes slot).poisoned = true ∨
              (slot = client.lock.slot recipient ∧
                (operation = .load recipient ∨
                  operation = .openSession recipient) ∧
                ∃ fault, performed.1.crash? = some fault)) := by
  intro recipient performed
  have reading
      (fault : IdentityKey.Fault)
      (crashed : performed.1.crash? = some fault) :
      operation = .load recipient ∨ operation = .openSession recipient :=
    ((client.crash?_perform_iff archive operation fault).mp crashed).1
  have same := client.perform_of_free free
  have behind :
      performed.2.mutexes =
        client.mutexesBehind archive.mutexes operation performed.1 := by
    simp only [performed, same]
  refine ⟨?_, ?_⟩
  · simp only [performed, same]
    exact client.isBlocked_performOn archive.backend operation
  · intro slot
    rw [behind]
    refine ⟨client.isHeld_mutexesBehind free performed.1 slot, ?_⟩
    rw [client.poisoned_mutexesBehind_iff]
    constructor
    · rintro (before | ⟨isSlot, fault, crashed⟩)
      · exact Or.inl before
      · exact Or.inr ⟨isSlot, reading fault crashed, fault, crashed⟩
    · rintro (before | ⟨isSlot, _, crashed⟩)
      · exact Or.inl before
      · exact Or.inr ⟨isSlot, crashed⟩

/--
In a run over records in memory that finds the mutexes of its locks free, no
operation has to wait, and each one, however it ends, leaves all mutexes as free as
they were. A mutex becomes poisoned only by a load or an open that crashes while it
holds it. Another run from the same records, with other locks, poisoned or not, and
with any of the observing operations left out, answers all the others alike and
ends with the same records and write counts.
-/
theorem observers_leave_no_trace
    (archive : Archive Storage.Memory)
    (steps : List VariedStep)
    (free :
      ∀ step ∈ steps,
        ∀ recipient,
          (archive.mutexes
            (step.client.lock.slot recipient)).isHeld = false) :
    let run := archive.run (VariedStep.originals steps)
    (∀ front step back,
        steps = front ++ step :: back →
          let before := (archive.run (VariedStep.originals front)).2
          let recipient := step.operation.recipient
          let performed := step.client.perform before step.operation
          performed.1.isBlocked = false ∧
            ∀ slot,
              (performed.2.mutexes slot).isHeld =
                  (archive.mutexes slot).isHeld ∧
                ((performed.2.mutexes slot).poisoned = true ↔
                  (before.mutexes slot).poisoned = true ∨
                    (slot = step.client.lock.slot recipient ∧
                      (step.operation = .load recipient ∨
                        step.operation = .openSession recipient) ∧
                      ∃ fault, performed.1.crash? = some fault))) ∧
      ∀ other : Archive Storage.Memory,
        other.backend = archive.backend →
        (∀ step ∈ steps,
          ∀ lock,
            step.otherLock? = some lock →
            ∀ recipient,
              (other.mutexes (lock.slot recipient)).isHeld = false) →
        (∀ step ∈ steps,
          step.otherLock? = none → step.operation.observes = true) →
          let otherRun := other.run (VariedStep.others steps)
          otherRun.1 = VariedStep.answersKept steps run.1 ∧
            otherRun.2.backend = run.2.backend := by
  intro run
  constructor
  · rintro front step back rfl before recipient performed
    have frontFree : archive.FreeFor (VariedStep.originals front) := by
      apply VariedStep.forall_mem_originals
      intro earlier member
      exact free earlier (List.mem_append_left _ member) _
    obtain ⟨mutexes, kept, ran⟩ :=
      archive.run_of_free (VariedStep.originals front) frontFree
    have keptBefore (slot : Guard.Slot) :
        (before.mutexes slot).isHeld = (archive.mutexes slot).isHeld := by
      simp only [before, ran]
      exact kept slot
    have stepFree :
        (before.mutexes (step.client.lock.slot recipient)).isHeld =
          false := by
      rw [keptBefore]
      exact free step (by simp) recipient
    obtain ⟨unblocked, settled⟩ := step.client.perform_frees stepFree
    refine ⟨unblocked, ?_⟩
    intro slot
    rw [← keptBefore]
    exact settled slot
  · intro other sameBackend othersFree missingObserve otherRun
    have originalsFree :
        archive.FreeFor (VariedStep.originals steps) := by
      apply VariedStep.forall_mem_originals
      intro step member
      exact free step member _
    have presentFree : other.FreeFor (VariedStep.others steps) := by
      intro plain member
      obtain ⟨step, isStep, varied⟩ := List.mem_filterMap.mp member
      obtain ⟨lock, present, rfl⟩ := Option.map_eq_some_iff.mp varied
      exact othersFree step isStep lock present _
    obtain ⟨_, _, ran⟩ := archive.run_of_free _ originalsFree
    obtain ⟨_, _, otherRan⟩ := other.run_of_free _ presentFree
    have same :=
      VariedStep.runOn_others archive.backend missingObserve
    rw [sameBackend] at otherRan
    simp only [otherRun, run, ran, otherRan, same, and_self]

/-- A client with 16 shards, so that recipients 4 and 20 share a mutex. -/
def sixteenShards : Client :=
  { Client.standard { bytes := [] } with
    lock := .sharded 1 (.ofCount 16) }

/-- Recipient 4 has a record that crashes; its loading and the opening of 20 may be missing. -/
def watchedSteps : List VariedStep :=
  [ { client := sixteenShards
      operation := .load 4
      otherLock? := none },
    { client := sixteenShards
      operation := .save (.fresh 20)
      otherLock? := some .process },
    { client := sixteenShards
      operation := .openSession 20
      otherLock? := none },
    { client := sixteenShards
      operation := .delete 4
      otherLock? := some .process } ]

/-- The crash poisons the mutex, but recipient 20 is saved all the same, and nobody can tell. -/
theorem observers_leave_no_trace_watchedSteps :
    let archive := Archive.ofBackend foreignMemory
    let loaded := sixteenShards.perform archive (.load 4)
    let saving :=
      sixteenShards.perform
        (archive.run [(sixteenShards, .load 4)]).2 (.save (.fresh 20))
    loaded.1.crash? = some .unknownType ∧
      (loaded.2.mutexes (sixteenShards.lock.slot 20)).poisoned = true ∧
      saving.1.isBlocked = false ∧
      (archive.run (VariedStep.others watchedSteps)).1 =
        [.saved (.finished (.ok ())), .deleted (.finished (.ok ()))] ∧
      (archive.run (VariedStep.others watchedSteps)).2.backend =
        (archive.run (VariedStep.originals watchedSteps)).2.backend := by
  intro archive loaded saving
  obtain ⟨each, hidden⟩ :=
    observers_leave_no_trace archive watchedSteps fun _ _ _ => rfl
  have crashed : loaded.1.crash? = some .unknownType :=
    rfl
  obtain ⟨_, afterLoad⟩ := each [] _ _ rfl
  obtain ⟨unblocked, _⟩ := each [_] _ _ rfl
  obtain ⟨answers, backend⟩ :=
    hidden archive rfl (fun _ _ _ _ _ => rfl) (by decide)
  refine ⟨crashed, ?_, unblocked, answers, backend⟩
  exact (afterLoad (sixteenShards.lock.slot 20)).2.mpr
    (Or.inr ⟨rfl, Or.inl rfl, _, crashed⟩)

end PeerSession
