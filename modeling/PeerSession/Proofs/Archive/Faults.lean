import PeerSession.Proofs.Archive.Unguarded
import PeerSession.Storage.Scripted

namespace PeerSession

/-!
# Operations struck by faults

A fault of the backend strikes at most one operation. What that operation answers
depends on the fault alone, and it leaves neither a record nor a mutex changed. So
all other operations answer as if those that were struck had not been carried out,
and nor had the saves of sessions that cannot be encoded.
-/

namespace Storage.Scripted

variable {σ : Type}

/-- The fault that the next call of a kind is answered with. -/
def awaiting (scripted : Scripted σ) : Call → Option Error
  | .read => scripted.reads.head?
  | .write => scripted.writes.head?
  | .delete => scripted.deletes.head?

/-- The backend once a call of a kind was answered with the fault that awaited it. -/
def answered (scripted : Scripted σ) : Call → Scripted σ
  | .read => { scripted with reads := scripted.reads.tail }
  | .write => { scripted with writes := scripted.writes.tail }
  | .delete => { scripted with deletes := scripted.deletes.tail }

/-- The same faults in front of another backend. -/
def inFrontOf
    {τ : Type}
    (scripted : Scripted σ)
    (backend : τ) :
    Scripted τ where
  backend := backend
  reads := scripted.reads
  writes := scripted.writes
  deletes := scripted.deletes

@[simp] theorem backend_answered
    (scripted : Scripted σ)
    (call : Call) :
    (scripted.answered call).backend = scripted.backend := by
  cases call <;> rfl

@[simp] theorem backend_queue
    (scripted : Scripted σ)
    (error : Error)
    (call : Call) :
    (scripted.queue error call).backend = scripted.backend := by
  cases call <;> rfl

variable [Backend σ] {scripted : Scripted σ} {error : Error}

theorem read_struck
    (awaits : scripted.awaiting .read = some error)
    (recipient : RecipientId) :
    Backend.read scripted recipient =
      (.error error, scripted.answered .read) := by
  obtain ⟨later, queue⟩ := List.head?_eq_some_iff.mp awaits
  simp only [Backend.read, Scripted.read, queue, answered, List.tail_cons]

theorem read_spared
    (awaits : scripted.awaiting .read = none)
    (recipient : RecipientId) :
    Backend.read scripted recipient =
      ((Backend.read scripted.backend recipient).1,
        scripted.inFrontOf (Backend.read scripted.backend recipient).2) := by
  have queue : scripted.reads = [] := List.head?_eq_none_iff.mp awaits
  simp only [Backend.read, Scripted.read, queue, inFrontOf]

theorem write_struck
    (awaits : scripted.awaiting .write = some error)
    (recipient : RecipientId)
    (data : Bytes) :
    Backend.write scripted recipient data =
      (.error error, scripted.answered .write) := by
  obtain ⟨later, queue⟩ := List.head?_eq_some_iff.mp awaits
  simp only [Backend.write, Scripted.write, queue, answered, List.tail_cons]

theorem write_spared
    (awaits : scripted.awaiting .write = none)
    (recipient : RecipientId)
    (data : Bytes) :
    Backend.write scripted recipient data =
      ((Backend.write scripted.backend recipient data).1,
        scripted.inFrontOf
          (Backend.write scripted.backend recipient data).2) := by
  have queue : scripted.writes = [] := List.head?_eq_none_iff.mp awaits
  simp only [Backend.write, Scripted.write, queue, inFrontOf]

theorem delete_struck
    (awaits : scripted.awaiting .delete = some error)
    (recipient : RecipientId) :
    Backend.delete scripted recipient =
      (.error error, scripted.answered .delete) := by
  obtain ⟨later, queue⟩ := List.head?_eq_some_iff.mp awaits
  simp only [Backend.delete, Scripted.delete, queue, answered,
    List.tail_cons]

theorem delete_spared
    (awaits : scripted.awaiting .delete = none)
    (recipient : RecipientId) :
    Backend.delete scripted recipient =
      ((Backend.delete scripted.backend recipient).1,
        scripted.inFrontOf
          (Backend.delete scripted.backend recipient).2) := by
  have queue : scripted.deletes = [] := List.head?_eq_none_iff.mp awaits
  simp only [Backend.delete, Scripted.delete, queue, inFrontOf]

end Storage.Scripted

/--
What an operation answers that is struck by a fault. A record that is said to be
missing makes a session fresh and a deletion unnecessary. Any other fault makes a
session incomplete, of which nothing is known, or is reported with the recipient.
-/
inductive Classified (error : Storage.Error) : Operation → OperationAnswer → Prop where
  | loadMissing
      (recipient : RecipientId)
      (missing : error.kind = .notFound) :
      Classified error (.load recipient)
        (.loaded
          (.finished { session := .fresh recipient, status := .fresh }))
  | loadFailed
      (recipient : RecipientId)
      (present : error.kind ≠ .notFound) :
      Classified error (.load recipient)
        (.loaded
          (.finished
            { session := .fresh recipient
              status := .incomplete (.read error) }))
  | opened (recipient : RecipientId) :
      Classified error (.openSession recipient)
        (.opened (.finished (.fresh recipient)))
  | saved (session : Session) :
      Classified error (.save session)
        (.saved (.finished (.error (.save session.recipient error))))
  | deleteMissing
      (recipient : RecipientId)
      (missing : error.kind = .notFound) :
      Classified error (.delete recipient)
        (.deleted (.finished (.ok ())))
  | deleteFailed
      (recipient : RecipientId)
      (present : error.kind ≠ .notFound) :
      Classified error (.delete recipient)
        (.deleted (.finished (.error (.delete recipient error))))

/-- No fault of the backend makes an operation crash. -/
theorem Classified.crash?_eq_none
    {error : Storage.Error}
    {operation : Operation}
    {answer : OperationAnswer}
    (classified : Classified error operation answer) :
    answer.crash? = none := by
  cases classified <;> rfl

namespace Client

/-- Why a session that is to be saved cannot be encoded. -/
def refusal? (client : Client) : Operation → Option Record.Error
  | .load _ => none
  | .openSession _ => none
  | .save session =>
      match Record.encode client.sealer client.master session with
      | .ok _ => none
      | .error error => some error
  | .delete _ => none
  | .contains _ => none

/-- The call that an operation makes and that a fault can strike. -/
def call? (client : Client) : Operation → Option Storage.Call
  | .load _ => some .read
  | .openSession _ => some .read
  | .save session =>
      match Record.encode client.sealer client.master session with
      | .ok _ => some .write
      | .error _ => none
  | .delete _ => some .delete
  | .contains _ => none

/-- The fault that strikes an operation. -/
def strike?
    {σ : Type}
    (client : Client)
    (scripted : Storage.Scripted σ)
    (operation : Operation) :
    Option Storage.Error :=
  (client.call? operation).bind scripted.awaiting

variable {σ : Type} [Storage.Backend σ]

/-- An operation that is struck answers as the fault demands, and uses nothing but the fault up. -/
theorem performOn_struck
    (client : Client)
    {scripted : Storage.Scripted σ}
    {operation : Operation}
    {error : Storage.Error}
    (struck : client.strike? scripted operation = some error) :
    Classified error operation (client.performOn scripted operation).1 ∧
      (client.performOn scripted operation).2.backend =
        scripted.backend := by
  obtain ⟨call, calls, awaits⟩ := Option.bind_eq_some_iff.mp struck
  cases operation with
  | load recipient =>
      cases calls
      rw [performOn_load, Storage.Scripted.read_struck awaits]
      refine ⟨?_, Storage.Scripted.backend_answered scripted .read⟩
      by_cases missing : error.kind = .notFound
      · simpa [interpret, Loaded.ofReadError, Outcome.ofExcept, missing] using
          Classified.loadMissing recipient missing
      · simpa [interpret, Loaded.ofReadError, Outcome.ofExcept, missing] using
          Classified.loadFailed recipient missing
  | openSession recipient =>
      cases calls
      rw [performOn_openSession, Storage.Scripted.read_struck awaits]
      exact ⟨.opened recipient,
        Storage.Scripted.backend_answered scripted .read⟩
  | save session =>
      cases encoded :
          Record.encode client.sealer client.master session with
      | error failed =>
          simp [call?, encoded] at calls
      | ok record =>
          simp only [call?, encoded, Option.some.injEq] at calls
          subst calls
          rw [performOn_save_ok scripted encoded,
            Storage.Scripted.write_struck awaits]
          exact ⟨.saved session,
            Storage.Scripted.backend_answered scripted .write⟩
  | delete recipient =>
      cases calls
      rw [performOn_delete, Storage.Scripted.delete_struck awaits]
      refine ⟨?_, Storage.Scripted.backend_answered scripted .delete⟩
      by_cases missing : error.kind = .notFound
      · simpa [deleted, missing] using
          Classified.deleteMissing recipient missing
      · simpa [deleted, missing] using
          Classified.deleteFailed recipient missing
  | contains recipient =>
      cases calls

/-- An operation that is spared does what it does without the scripted faults. -/
theorem performOn_spared
    (client : Client)
    {scripted : Storage.Scripted σ}
    {operation : Operation}
    (spared : client.strike? scripted operation = none) :
    let performed := client.performOn scripted.backend operation
    client.performOn scripted operation =
      (performed.1, scripted.inFrontOf performed.2) := by
  have unawaited
      {call : Storage.Call}
      (calls : client.call? operation = some call) :
      scripted.awaiting call = none :=
    Option.bind_eq_none_iff.mp spared call calls
  cases operation with
  | load recipient =>
      rw [performOn_load, performOn_load,
        Storage.Scripted.read_spared (unawaited rfl)]
  | openSession recipient =>
      rw [performOn_openSession, performOn_openSession,
        Storage.Scripted.read_spared (unawaited rfl)]
  | save session =>
      cases encoded :
          Record.encode client.sealer client.master session with
      | error failed =>
          rw [performOn_save_error scripted encoded,
            performOn_save_error scripted.backend encoded]
          rfl
      | ok record =>
          have calls : client.call? (.save session) = some .write := by
            simp only [call?, encoded]
          rw [performOn_save_ok scripted encoded,
            performOn_save_ok scripted.backend encoded,
            Storage.Scripted.write_spared (unawaited calls)]
  | delete recipient =>
      rw [performOn_delete, performOn_delete,
        Storage.Scripted.delete_spared (unawaited rfl)]
  | contains recipient =>
      rfl

end Client

/-- The archive without the scripted faults. -/
def Archive.behind
    {σ : Type}
    (archive : Archive (Storage.Scripted σ)) :
    Archive σ where
  backend := archive.backend.backend
  mutexes := archive.mutexes

namespace Client

variable
  {σ : Type}
  [Storage.Backend σ]
  (client : Client)
  {archive : Archive (Storage.Scripted σ)}
  {operation : Operation}

/-- An operation that is struck leaves no trace in the records and mutexes. -/
theorem perform_struck
    {error : Storage.Error}
    (free :
      (archive.mutexes
        (client.lock.slot operation.recipient)).isHeld = false)
    (struck : client.strike? archive.backend operation = some error) :
    let performed := client.perform archive operation
    Classified error operation performed.1 ∧
      performed.2.behind = archive.behind := by
  obtain ⟨classified, unchanged⟩ := client.performOn_struck struck
  simp only [client.perform_of_free free, mutexesBehind,
    classified.crash?_eq_none, Archive.behind, unchanged, and_true]
  exact classified

theorem perform_spared
    (free :
      (archive.mutexes
        (client.lock.slot operation.recipient)).isHeld = false)
    (spared : client.strike? archive.backend operation = none) :
    let performed := client.perform archive operation
    client.perform archive.behind operation =
      (performed.1, performed.2.behind) := by
  have freeBehind :
      (archive.behind.mutexes
        (client.lock.slot operation.recipient)).isHeld = false :=
    free
  simp only [client.perform_of_free free,
    client.perform_of_free freeBehind, client.performOn_spared spared]
  rfl

/-- A session that cannot be encoded does not reach the archive. -/
theorem save_refused
    {τ : Type}
    [Storage.Backend τ]
    {session : Session}
    {error : Record.Error}
    (refused :
      Record.encode client.sealer client.master session = .error error)
    (other : Archive τ) :
    client.save other session =
      (.finished (.error (.encode session.recipient error)), other) := by
  simp only [save, refused]

/-- A session that cannot be encoded is neither struck by a fault nor saved. -/
theorem perform_refused
    {error : Record.Error}
    (refused : client.refusal? operation = some error)
    (archive : Archive (Storage.Scripted σ)) :
    client.strike? archive.backend operation = none ∧
      client.perform archive operation =
        (.saved
            (.finished (.error (.encode operation.recipient error))),
          archive) := by
  cases operation with
  | save session =>
      cases encoded :
          Record.encode client.sealer client.master session with
      | ok record =>
          simp [refusal?, encoded] at refused
      | error failed =>
          simp only [refusal?, encoded, Option.some.injEq] at refused
          subst refused
          constructor
          · simp only [strike?, call?, encoded, Option.bind_none]
          · simp only [perform, client.save_refused encoded]
            rfl
  | load | openSession | delete | contains =>
      cases refused

end Client

/-- What happens to an archive: a fault is queued, or a client carries an operation out. -/
inductive Occurrence where
  | fault (call : Storage.Call) (error : Storage.Error)
  | perform (client : Client) (operation : Operation)

/-- The operation that occurs, and its client. -/
def Occurrence.step? : Occurrence → Option (Client × Operation)
  | .fault _ _ => none
  | .perform client operation => some (client, operation)

/-- An operation that was carried out, with the fault that struck it and its answer. -/
structure Entry where
  client : Client
  operation : Operation
  strike? : Option Storage.Error
  answer : OperationAnswer

namespace Entry

/-- The operation as a step of a run. -/
def step (entry : Entry) : Client × Operation :=
  (entry.client, entry.operation)

/-- Why the session that was to be saved could not be encoded. -/
def refusal? (entry : Entry) : Option Record.Error :=
  entry.client.refusal? entry.operation

/-- Neither a fault nor its session kept the operation from being carried out. -/
def isSpared (entry : Entry) : Bool :=
  entry.strike?.isNone && entry.refusal?.isNone

/-- What was struck answers as the fault demands, and what was refused as its session does. -/
structure Sound (entry : Entry) : Prop where
  struck :
    ∀ error,
      entry.strike? = some error →
      Classified error entry.operation entry.answer
  refused :
    ∀ error,
      entry.refusal? = some error →
      entry.strike? = none ∧
        entry.answer =
          .saved
            (.finished (.error (.encode entry.operation.recipient error)))

end Entry

/-- The steps of those operations that were carried out. -/
def sparedSteps (entries : List Entry) : List (Client × Operation) :=
  (entries.filter Entry.isSpared).map Entry.step

/-- The answers of those operations that were carried out. -/
def sparedAnswers (entries : List Entry) : List OperationAnswer :=
  (entries.filter Entry.isSpared).map Entry.answer

variable (entry : Entry) (rest : List Entry)

theorem sparedSteps_cons_spared
    (spared : entry.isSpared = true) :
    sparedSteps (entry :: rest) = entry.step :: sparedSteps rest := by
  simp [sparedSteps, spared]

theorem sparedSteps_cons_unspared
    (unspared : entry.isSpared = false) :
    sparedSteps (entry :: rest) = sparedSteps rest := by
  simp [sparedSteps, unspared]

theorem sparedAnswers_cons_spared
    (spared : entry.isSpared = true) :
    sparedAnswers (entry :: rest) =
      entry.answer :: sparedAnswers rest := by
  simp [sparedAnswers, spared]

theorem sparedAnswers_cons_unspared
    (unspared : entry.isSpared = false) :
    sparedAnswers (entry :: rest) = sparedAnswers rest := by
  simp [sparedAnswers, unspared]

namespace Archive

variable {σ : Type} [Storage.Backend σ]

/-- Undergo what happens, and list the operations. -/
def undergo
    (archive : Archive (Storage.Scripted σ)) :
    List Occurrence →
    List Entry × Archive (Storage.Scripted σ)
  | [] => ([], archive)
  | .fault call error :: rest =>
      undergo
        { backend := archive.backend.queue error call
          mutexes := archive.mutexes }
        rest
  | .perform client operation :: rest =>
      let (answer, after) := client.perform archive operation
      let (entries, last) := after.undergo rest
      ({ client := client
         operation := operation
         strike? := client.strike? archive.backend operation
         answer := answer } :: entries,
        last)

/-- The entry for an operation that is carried out now. -/
def entryOf
    (archive : Archive (Storage.Scripted σ))
    (client : Client)
    (operation : Operation) :
    Entry where
  client := client
  operation := operation
  strike? := client.strike? archive.backend operation
  answer := (client.perform archive operation).1

theorem undergo_fault
    (archive : Archive (Storage.Scripted σ))
    (call : Storage.Call)
    (error : Storage.Error)
    (rest : List Occurrence) :
    archive.undergo (.fault call error :: rest) =
      undergo
        { backend := archive.backend.queue error call
          mutexes := archive.mutexes }
        rest :=
  rfl

theorem undergo_perform
    (archive : Archive (Storage.Scripted σ))
    (client : Client)
    (operation : Operation)
    (rest : List Occurrence) :
    archive.undergo (.perform client operation :: rest) =
      (archive.entryOf client operation ::
          ((client.perform archive operation).2.undergo rest).1,
        ((client.perform archive operation).2.undergo rest).2) :=
  rfl

/-- Every operation that occurs is listed. -/
theorem steps_undergo
    (archive : Archive (Storage.Scripted σ))
    (occurrences : List Occurrence) :
    (archive.undergo occurrences).1.map Entry.step =
      occurrences.filterMap Occurrence.step? := by
  induction occurrences generalizing archive with
  | nil =>
      rfl
  | cons occurrence rest inductionHypothesis =>
      cases occurrence with
      | fault call error =>
          exact inductionHypothesis _
      | perform client operation =>
          have later :=
            inductionHypothesis (client.perform archive operation).2
          rw [undergo_perform, List.map_cons, later]
          rfl

theorem sound_entryOf
    (archive : Archive (Storage.Scripted σ))
    {client : Client}
    {operation : Operation}
    (free :
      (archive.mutexes
        (client.lock.slot operation.recipient)).isHeld = false) :
    (archive.entryOf client operation).Sound where
  struck error struck := (client.perform_struck free struck).1
  refused error refused := by
    obtain ⟨unstruck, performed⟩ :=
      client.perform_refused refused archive
    exact ⟨unstruck, congrArg Prod.fst performed⟩

/-- Whatever strikes or is refused leaves the archive behind the faults as it is. -/
theorem behind_perform_of_not_spared
    (archive : Archive (Storage.Scripted σ))
    {client : Client}
    {operation : Operation}
    (free :
      (archive.mutexes
        (client.lock.slot operation.recipient)).isHeld = false)
    (unspared : (archive.entryOf client operation).isSpared = false) :
    (client.perform archive operation).2.behind = archive.behind := by
  rw [Entry.isSpared, Bool.and_eq_false_iff, Option.isNone_eq_false_iff,
    Option.isNone_eq_false_iff, Option.isSome_iff_exists,
    Option.isSome_iff_exists] at unspared
  rcases unspared with ⟨error, struck⟩ | ⟨error, refused⟩
  · exact (client.perform_struck free struck).2
  · exact congrArg (fun performed => performed.2.behind)
      (client.perform_refused refused archive).2

theorem sound_undergo
    (archive : Archive (Storage.Scripted σ))
    (occurrences : List Occurrence)
    (free : archive.FreeFor (occurrences.filterMap Occurrence.step?)) :
    ∀ entry ∈ (archive.undergo occurrences).1, entry.Sound := by
  induction occurrences generalizing archive with
  | nil =>
      intro entry member
      cases member
  | cons occurrence rest inductionHypothesis =>
      cases occurrence with
      | fault call error =>
          exact inductionHypothesis _ free
      | perform client operation =>
          rw [undergo_perform]
          have firstFree := (List.forall_mem_cons.mp free).1
          exact List.forall_mem_cons.mpr
            ⟨archive.sound_entryOf firstFree,
              inductionHypothesis _ free.behind⟩

/-- The operations that were spared are a run of their own, without any fault. -/
theorem run_sparedSteps
    (archive : Archive (Storage.Scripted σ))
    (occurrences : List Occurrence)
    (free : archive.FreeFor (occurrences.filterMap Occurrence.step?)) :
    let undergone := archive.undergo occurrences
    archive.behind.run (sparedSteps undergone.1) =
      (sparedAnswers undergone.1, undergone.2.behind) := by
  induction occurrences generalizing archive with
  | nil =>
      rfl
  | cons occurrence rest inductionHypothesis =>
      cases occurrence with
      | fault call error =>
          have later :=
            inductionHypothesis
              { backend := archive.backend.queue error call
                mutexes := archive.mutexes }
              free
          rw [undergo_fault]
          simpa only [behind, Storage.Scripted.backend_queue] using later
      | perform client operation =>
          have firstFree := (List.forall_mem_cons.mp free).1
          have later :=
            inductionHypothesis (client.perform archive operation).2
              free.behind
          rw [undergo_perform]
          cases spared : (archive.entryOf client operation).isSpared with
          | false =>
              rw [archive.behind_perform_of_not_spared firstFree spared]
                at later
              dsimp only
              rw [sparedSteps_cons_unspared _ _ spared,
                sparedAnswers_cons_unspared _ _ spared]
              exact later
          | true =>
              have unstruck :
                  client.strike? archive.backend operation = none :=
                Option.isNone_iff_eq_none.mp
                  (Bool.and_eq_true_iff.mp spared).1
              have performed := client.perform_spared firstFree unstruck
              dsimp only
              rw [sparedSteps_cons_spared _ _ spared,
                sparedAnswers_cons_spared _ _ spared]
              simp only [Entry.step, entryOf, run, performed, later]

end Archive

/-- A session was not stored, is not known completely, or comes from a record of some format. -/
theorem Loaded.status_exclusive (loaded : Loaded) :
    loaded.isFresh.toNat + loaded.isIncomplete.toNat +
        loaded.format?.isSome.toNat =
      1 := by
  obtain ⟨session, fresh | format | fault⟩ := loaded <;> rfl

/--
Faults may strike the calls of a backend in any way. Every operation that is struck
answers as its fault demands: a load or an open with the session of a recipient of
whom nothing is known, a save or a deletion with an error, unless nothing is there
to be deleted. A save of a session that cannot be encoded is never struck and does
not reach any archive. All other operations answer as they do in a run without the
struck and the refused ones and without any fault, and leave the same records and
mutexes behind. Whatever is loaded is either fresh, incomplete or of a known format.
-/
theorem faults_leave_no_trace
    {σ : Type}
    [Storage.Backend σ]
    (archive : Archive (Storage.Scripted σ))
    (occurrences : List Occurrence)
    (free : archive.FreeFor (occurrences.filterMap Occurrence.step?)) :
    let undergone := archive.undergo occurrences
    undergone.1.map Entry.step =
        occurrences.filterMap Occurrence.step? ∧
      (∀ entry ∈ undergone.1,
        ∀ error,
          entry.strike? = some error →
          Classified error entry.operation entry.answer) ∧
      (∀ entry ∈ undergone.1,
        ∀ error,
          entry.refusal? = some error →
          entry.strike? = none ∧
            entry.answer =
              .saved
                (.finished
                  (.error (.encode entry.operation.recipient error)))) ∧
      archive.behind.run (sparedSteps undergone.1) =
        (sparedAnswers undergone.1, undergone.2.behind) ∧
      (∀ (client : Client) session error,
        Record.encode client.sealer client.master session = .error error →
        ∀ (τ : Type) [Storage.Backend τ] (other : Archive τ),
          client.save other session =
            (.finished (.error (.encode session.recipient error)),
              other)) ∧
      ∀ loaded : Loaded,
        loaded.isFresh.toNat + loaded.isIncomplete.toNat +
            loaded.format?.isSome.toNat =
          1 := by
  intro undergone
  have sound := archive.sound_undergo occurrences free
  refine ⟨archive.steps_undergo occurrences, ?_, ?_,
    archive.run_sparedSteps occurrences free, ?_,
    Loaded.status_exclusive⟩
  · intro entry member
    exact (sound entry member).struck
  · intro entry member
    exact (sound entry member).refused
  · intro client session error refused τ _ other
    exact client.save_refused refused other

/-- A client that cannot seal any session key. -/
def sealingRefused : Client :=
  { Client.standard { bytes := [] } with sealer := .refusing }

/-- A session of recipient 3 with a key. -/
def sealedSession : Session :=
  { Session.fresh 3 with
    key :=
      some
        { ids := { localId := 4, remoteId := 5 }
          cipher := [6]
          mac := [] } }

/-- Faults of several kinds between operations for one recipient. -/
def strikingOccurrences : List Occurrence :=
  [ .fault .write { kind := .storageFull, text := "full" },
    .perform sealingRefused (.save sealedSession),
    .perform sealingRefused (.save (.fresh 3)),
    .perform sealingRefused (.save (.fresh 3)),
    .fault .read { kind := .timedOut, text := "slow" },
    .perform sealingRefused (.load 3),
    .fault .delete { kind := .notFound, text := "gone" },
    .perform sealingRefused (.delete 3),
    .perform sealingRefused (.contains 3) ]

/-- The first save fails to encode, the second is struck, and only the third one is carried out. -/
theorem faults_leave_no_trace_strikingOccurrences :
    let archive : Archive (Storage.Scripted Storage.Memory) :=
      .ofBackend (.ofBackend .empty)
    let undergone := archive.undergo strikingOccurrences
    undergone.1.map Entry.strike? =
        [ none,
          some { kind := .storageFull, text := "full" },
          none,
          some { kind := .timedOut, text := "slow" },
          some { kind := .notFound, text := "gone" },
          none ] ∧
      archive.behind.run
          [ (sealingRefused, .save (.fresh 3)),
            (sealingRefused, .contains 3) ] =
        ([.saved (.finished (.ok ())), .contained true],
          undergone.2.behind) := by
  intro archive undergone
  obtain ⟨_, _, _, spared, _⟩ :=
    faults_leave_no_trace archive strikingOccurrences (by
      intro step member
      rfl)
  exact ⟨rfl, spared⟩

end PeerSession
