import PeerSession.Proofs.Archive.Unguarded
import PeerSession.Proofs.Storage.Stages

namespace PeerSession

/-!
# Clients at work on files

Clients share an archive of files and a lock. Each of them acquires the mutex of a
recipient for a task, takes the steps of the task, and frees the mutex when the task
is over. The moves of different clients may be made in any order. The moves of one
client behind each other leave what loading, deleting or saving leaves.
-/

/-- For whom a client holds a mutex, and what is to be done next. -/
structure Holding where
  recipient : RecipientId
  stage : Storage.Stage
  deriving DecidableEq

/-- A task that is over and whose mutex was freed. -/
structure Completion (κ : Type) where
  client : κ
  recipient : RecipientId
  effect : Storage.Effect
  deriving DecidableEq

/-- Clients at work, and what tasks were completed, the oldest one first. -/
structure Site (κ : Type) where
  archive : Archive Storage.Folder
  holdings : κ → Option Holding
  completed : List (Completion κ)

namespace Site

variable {κ : Type}

/-- Clients before their first task. -/
def start (archive : Archive Storage.Folder) : Site κ where
  archive := archive
  holdings := fun _ => none
  completed := []

/-- Something that a client can do. -/
inductive Move (κ : Type) where
  /-- Acquire the mutex of a recipient for a task. -/
  | acquire
      (client : κ)
      (recipient : RecipientId)
      (task : Storage.Task)
  /-- Take the next step of the task. -/
  | work (client : κ)
  /-- Free the mutex when the task is over, or crash and leave it poisoned. -/
  | release (client : κ) (crashes : Bool)
  deriving DecidableEq

variable [DecidableEq κ]

/-- A client holds a mutex and has a task before it. -/
def enter
    (site : Site κ)
    (client : κ)
    (recipient : RecipientId)
    (task : Storage.Task)
    (held : Guard.Mutexes Guard.Slot) :
    Site κ where
  archive :=
    { backend := site.archive.backend
      mutexes := held }
  holdings :=
    update site.holdings client
      (some { recipient := recipient, stage := task.first })
  completed := site.completed

/-- A client took a step of its task. -/
def proceed
    (site : Site κ)
    (client : κ)
    (holding : Holding) :
    Site κ :=
  let next :=
    holding.stage.step site.archive.backend holding.recipient
  { archive :=
      { backend := next.2
        mutexes := site.archive.mutexes }
    holdings :=
      update site.holdings client
        (some { recipient := holding.recipient, stage := next.1 })
    completed := site.completed }

/-- A client completed its task and holds no mutex any more. -/
def leave
    (lock : Guard.Lock)
    (site : Site κ)
    (client : κ)
    (recipient : RecipientId)
    (effect : Storage.Effect)
    (crashes : Bool) :
    Site κ where
  archive :=
    { backend := site.archive.backend
      mutexes :=
        if crashes then
          site.archive.mutexes.abandon (lock.slot recipient)
        else
          site.archive.mutexes.free (lock.slot recipient) }
  holdings := update site.holdings client none
  completed :=
    site.completed ++
      [{ client := client, recipient := recipient, effect := effect }]

/-- Make a move; one that is not possible has to wait and changes nothing. -/
def move
    (lock : Guard.Lock)
    (site : Site κ) :
    Move κ →
    Site κ
  | .acquire client recipient task =>
      match site.holdings client,
          site.archive.mutexes.acquire? (lock.slot recipient) recipient with
      | none, some held => site.enter client recipient task held
      | _, _ => site
  | .work client =>
      match site.holdings client with
      | some holding => site.proceed client holding
      | none => site
  | .release client crashes =>
      match site.holdings client with
      | some { recipient := recipient, stage := .ended effect } =>
          site.leave lock client recipient effect crashes
      | _ => site

/-- Make moves one after the other. -/
def run
    (lock : Guard.Lock)
    (site : Site κ)
    (moves : List (Move κ)) :
    Site κ :=
  moves.foldl (move lock) site

variable
  {lock : Guard.Lock}
  {site : Site κ}
  {client : κ}
  {recipient : RecipientId}

theorem run_cons
    (site : Site κ)
    (first : Move κ)
    (rest : List (Move κ)) :
    site.run lock (first :: rest) = (site.move lock first).run lock rest :=
  rfl

theorem run_append
    (site : Site κ)
    (first second : List (Move κ)) :
    site.run lock (first ++ second) =
      (site.run lock first).run lock second :=
  List.foldl_append ..

theorem move_acquire
    (outside : site.holdings client = none)
    (free :
      (site.archive.mutexes (lock.slot recipient)).isHeld = false)
    (task : Storage.Task) :
    site.move lock (.acquire client recipient task) =
      site.enter client recipient task
        (update site.archive.mutexes (lock.slot recipient)
          ((site.archive.mutexes (lock.slot recipient)).heldFor
            recipient)) := by
  simp only [move, outside, Guard.Mutexes.acquire?_of_free free]

theorem move_work
    {holding : Holding}
    (inside : site.holdings client = some holding) :
    site.move lock (.work client) = site.proceed client holding := by
  simp only [move, inside]

theorem move_release
    {effect : Storage.Effect}
    (ended :
      site.holdings client =
        some { recipient := recipient, stage := .ended effect })
    (crashes : Bool) :
    site.move lock (.release client crashes) =
      site.leave lock client recipient effect crashes := by
  simp only [move, ended]

/-- Once its task has ended, a client leaves as if it had been there for nothing else. -/
theorem move_release_ended
    (archive : Archive Storage.Folder)
    (holdings : κ → Option Holding)
    (completed : List (Completion κ))
    (effect : Storage.Effect)
    (crashes : Bool) :
    move lock
        { archive := archive
          holdings :=
            update holdings client
              (some { recipient := recipient, stage := .ended effect })
          completed := completed }
        (.release client crashes) =
      leave lock
        { archive := archive
          holdings := holdings
          completed := completed }
        client recipient effect crashes := by
  simp only [move, leave, update_eq_functionUpdate, Function.update_self,
    Function.update_idem]

theorem holdings_enter
    (site : Site κ)
    (client : κ)
    (recipient : RecipientId)
    (task : Storage.Task)
    (held : Guard.Mutexes Guard.Slot) :
    (site.enter client recipient task held).holdings client =
      some { recipient := recipient, stage := task.first } := by
  simp only [enter, update_eq_functionUpdate, Function.update_self]

theorem holdings_proceed
    (site : Site κ)
    (client : κ)
    (holding : Holding) :
    (site.proceed client holding).holdings client =
      some
        { recipient := holding.recipient
          stage :=
            (holding.stage.step site.archive.backend
              holding.recipient).1 } := by
  simp only [proceed, update_eq_functionUpdate, Function.update_self]

/-- A client that makes several moves takes as many steps of its task. -/
theorem run_work
    {stage : Storage.Stage}
    (inside :
      site.holdings client =
        some { recipient := recipient, stage := stage })
    (count : Nat) :
    let reached :=
      Storage.Stage.steps recipient count (stage, site.archive.backend)
    site.run lock (List.replicate count (.work client)) =
      { archive :=
          { backend := reached.2
            mutexes := site.archive.mutexes }
        holdings :=
          update site.holdings client
            (some { recipient := recipient, stage := reached.1 })
        completed := site.completed } := by
  induction count generalizing site stage with
  | zero =>
      dsimp only [Storage.Stage.steps]
      rw [← inside, update_eq_functionUpdate, Function.update_eq_self]
      rfl
  | succ count inductionHypothesis =>
      have stillInside := site.holdings_proceed client
        { recipient := recipient, stage := stage }
      rw [List.replicate_succ, run_cons, move_work inside,
        inductionHypothesis stillInside]
      simp only [proceed, update_eq_functionUpdate, Function.update_idem,
        Storage.Stage.steps]

/-- The moves of a client that nobody interrupts. -/
def uninterrupted
    (client : κ)
    (recipient : RecipientId)
    (task : Storage.Task)
    (crashes : Bool) :
    List (Move κ) :=
  .acquire client recipient task ::
    (List.replicate 3 (.work client) ++ [.release client crashes])

/-- Work that guards a task leaves the archive as the moves for the task do. -/
theorem run_uninterrupted
    {ε α : Type}
    (outside : site.holdings client = none)
    (free :
      (site.archive.mutexes (lock.slot recipient)).isHeld = false)
    (task : Storage.Task)
    (work : Storage.Folder → Except ε α × Storage.Folder)
    (isTask :
      (work site.archive.backend).2 =
        (task.perform site.archive.backend recipient).2) :
    site.run lock
        (uninterrupted client recipient task
          (!(work site.archive.backend).1.isOk)) =
      { archive :=
          (site.archive.guarded (lock.slot recipient) recipient work).2
        holdings := site.holdings
        completed :=
          site.completed ++
            [{ client := client
               recipient := recipient
               effect :=
                 (task.perform site.archive.backend recipient).1 }] } := by
  have outsideAgain (holding : Option Holding) :
      update (update site.holdings client holding) client none =
        site.holdings := by
    rw [update_eq_functionUpdate, update_eq_functionUpdate,
      Function.update_idem, ← outside, Function.update_eq_self]
  have entered :=
    site.holdings_enter client recipient task
      (update site.archive.mutexes (lock.slot recipient)
        ((site.archive.mutexes (lock.slot recipient)).heldFor recipient))
  rw [uninterrupted, run_cons, move_acquire outside free, run_append,
    run_work entered]
  simp only [enter, Storage.Stage.steps_first]
  rw [run_cons, move_release_ended, Archive.guarded_of_free free, ← isTask]
  simp only [leave, outsideAgain]
  cases (work site.archive.backend).1 with
  | error fault =>
      simp only [Guard.Mutexes.abandon_heldFor]
      rfl
  | ok value =>
      simp only [Guard.Mutexes.free_heldFor free]
      rfl

section

variable
  {user : Client}
  (outside : site.holdings client = none)

include outside

/-- Loading a session is what the moves for it do, with a crash if loading crashes. -/
theorem exists_run_load
    (free :
      (site.archive.mutexes (user.lock.slot recipient)).isHeld = false) :
    ∃ crashes,
      site.run user.lock (uninterrupted client recipient .load crashes) =
        { archive := (user.load site.archive recipient).2
          holdings := site.holdings
          completed :=
            site.completed ++
              [{ client := client
                 recipient := recipient
                 effect :=
                   .loaded (site.archive.backend.read recipient).1 }] } :=
  ⟨_, run_uninterrupted outside free .load _ rfl⟩

/-- Deleting a record is what the moves for it do. -/
theorem run_delete
    (free :
      (site.archive.mutexes (user.lock.slot recipient)).isHeld = false) :
    site.run user.lock (uninterrupted client recipient .delete false) =
      { archive := (user.delete site.archive recipient).2
        holdings := site.holdings
        completed :=
          site.completed ++
            [{ client := client
               recipient := recipient
               effect :=
                 .deleted (site.archive.backend.delete recipient).1 }] } :=
  run_uninterrupted outside free .delete
    (fun folder =>
      (.ok (Client.deleted recipient (folder.delete recipient).1),
        (folder.delete recipient).2))
    rfl

/-- Saving a session that can be encoded is what the moves for its record do. -/
theorem run_save
    {session : Session}
    {record : Bytes}
    (free :
      (site.archive.mutexes
        (user.lock.slot session.recipient)).isHeld = false)
    (encoded :
      Record.encode user.sealer user.master session = .ok record) :
    site.run user.lock
        (uninterrupted client session.recipient (.save record) false) =
      { archive := (user.save site.archive session).2
        holdings := site.holdings
        completed :=
          site.completed ++
            [{ client := client
               recipient := session.recipient
               effect :=
                 .saved record
                   (site.archive.backend.write
                     session.recipient record).1 }] } := by
  simp only [Client.save, encoded]
  exact
    run_uninterrupted outside free (.save record)
      (fun folder =>
        (.ok
          ((folder.write session.recipient record).1.mapError
            (Archive.Error.save session.recipient)),
          (folder.write session.recipient record).2))
      rfl

end

end Site

end PeerSession
