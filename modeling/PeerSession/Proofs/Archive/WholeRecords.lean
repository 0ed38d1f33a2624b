import PeerSession.Proofs.Archive.Interleaving
import PeerSession.Proofs.Archive.Site

namespace PeerSession

/-!
# Records are read whole

While a client is at work on a record, no other client is in the recipient's group.
So the record is what its stage makes of the record before it, and all other records
are those that the last completed tasks have left. Whatever the order of moves, a
task finds one of these, which is never a record that somebody is still writing.
-/

namespace Completion

variable {κ : Type}

/-- What a completed task has left in place of a record, if it changed it. -/
def leavesOf?
    (recipient : RecipientId)
    (completion : Completion κ) :
    Option (Option Bytes) :=
  if completion.recipient = recipient then
    completion.effect.leaves?
  else
    none

/-- What the last completed task that changed a record has left in its place. -/
def lastRecord
    (initial : RecipientId → Option Bytes)
    (completed : List (Completion κ))
    (recipient : RecipientId) :
    Option Bytes :=
  (completed.filterMap (leavesOf? recipient)).getLast?.getD
    (initial recipient)

theorem lastRecord_concat
    (initial : RecipientId → Option Bytes)
    (completed : List (Completion κ))
    (completion : Completion κ)
    (recipient : RecipientId) :
    lastRecord initial (completed ++ [completion]) recipient =
      (completion.leavesOf? recipient).getD
        (lastRecord initial completed recipient) := by
  unfold lastRecord
  cases left : completion.leavesOf? recipient <;>
    simp [left, List.getLast?_append]

/-- A completed task counts for its own recipient. -/
theorem lastRecord_concat_same
    (initial : RecipientId → Option Bytes)
    (completed : List (Completion κ))
    (completion : Completion κ) :
    lastRecord initial (completed ++ [completion]) completion.recipient =
      completion.effect.leaves?.getD
        (lastRecord initial completed completion.recipient) := by
  rw [lastRecord_concat, leavesOf?, if_pos rfl]

/-- A completed task does not count for other recipients. -/
theorem lastRecord_concat_other
    (initial : RecipientId → Option Bytes)
    (completed : List (Completion κ))
    {completion : Completion κ}
    {recipient : RecipientId}
    (different : completion.recipient ≠ recipient) :
    lastRecord initial (completed ++ [completion]) recipient =
      lastRecord initial completed recipient := by
  rw [lastRecord_concat, leavesOf?, if_neg different]
  rfl

end Completion

namespace Site

variable {κ : Type}

/-- Every client at work holds the mutex of its recipient, and nobody else holds it. -/
structure Exclusive (lock : Guard.Lock) (site : Site κ) : Prop where
  holds :
    ∀ {client holding},
      site.holdings client = some holding →
        (site.archive.mutexes (lock.slot holding.recipient)).holder =
          some holding.recipient
  alone :
    ∀ {left right leftHolding rightHolding},
      site.holdings left = some leftHolding →
      site.holdings right = some rightHolding →
      lock.slot leftHolding.recipient = lock.slot rightHolding.recipient →
        left = right

/-- Nobody is at work on the record of a recipient. -/
def Untouched
    (holdings : κ → Option Holding)
    (recipient : RecipientId) :
    Prop :=
  ∀ client holding,
    holdings client = some holding → holding.recipient ≠ recipient

/--
Every record is the one that the last completed task has left or, if a client is at
work on it, what its stage makes of that one.
-/
structure Consistent
    (path : Storage.Path)
    (id : Storage.DirectoryId)
    (initial : RecipientId → Option Bytes)
    (site : Site κ)
    (memory : Storage.Memory) :
    Prop where
  mirrors : site.archive.backend.Mirrors path id memory
  inside :
    ∀ {client holding},
      site.holdings client = some holding →
        let before :=
          Completion.lastRecord initial site.completed holding.recipient
        memory.records holding.recipient = holding.stage.contents before ∧
          holding.stage.Follows before
            (Storage.recordPlace id holding.recipient)
            (path.child holding.recipient.recordName).fits
  outside :
    ∀ {recipient},
      Untouched site.holdings recipient →
        memory.records recipient =
          Completion.lastRecord initial site.completed recipient
  answers :
    ∀ {earlier completion later},
      site.completed = earlier ++ completion :: later →
        completion.effect.Answers
          (path.child completion.recipient.recordName).fits
          (Completion.lastRecord initial earlier completion.recipient)

variable
  {lock : Guard.Lock}
  {path : Storage.Path}
  {id : Storage.DirectoryId}
  {initial : RecipientId → Option Bytes}
  {site : Site κ}
  {memory : Storage.Memory}

theorem exclusive_start
    (lock : Guard.Lock)
    (archive : Archive Storage.Folder) :
    (start archive : Site κ).Exclusive lock where
  holds := nofun
  alone := nofun

/-- Before the first task, the records are those that the folder has. -/
theorem consistent_start
    {archive : Archive Storage.Folder}
    (mirrors : archive.backend.Mirrors path id memory) :
    (start archive : Site κ).Consistent path id memory.records memory where
  mirrors := mirrors
  inside := nofun
  outside := fun _ => rfl
  answers := by
    intro earlier completion later split
    simp [start] at split

variable
  {client : κ}
  {recipient : RecipientId}

namespace Exclusive

/-- A mutex that is free is not that of anybody at work. -/
theorem slot_ne
    (exclusive : site.Exclusive lock)
    (free :
      (site.archive.mutexes (lock.slot recipient)).isHeld = false)
    {holding : Holding}
    (inside : site.holdings client = some holding) :
    lock.slot holding.recipient ≠ lock.slot recipient := by
  intro same
  have held := exclusive.holds inside
  rw [same] at held
  rw [Guard.Mutex.isHeld, held] at free
  cases free

/-- Two clients at work on the same record are the same. -/
theorem recipient_ne
    (exclusive : site.Exclusive lock)
    {other : κ}
    {holding otherHolding : Holding}
    (inside : site.holdings client = some holding)
    (otherInside : site.holdings other = some otherHolding)
    (different : other ≠ client) :
    otherHolding.recipient ≠ holding.recipient := by
  intro same
  exact different
    (exclusive.alone otherInside inside (congrArg lock.slot same))

variable [DecidableEq κ]

theorem enter
    (exclusive : site.Exclusive lock)
    (free :
      (site.archive.mutexes (lock.slot recipient)).isHeld = false)
    (task : Storage.Task) :
    (site.enter client recipient task
      (update site.archive.mutexes (lock.slot recipient)
        ((site.archive.mutexes (lock.slot recipient)).heldFor
          recipient))).Exclusive lock where
  holds := by
    intro other holding inside
    dsimp only [Site.enter]
    rw [update_eq_functionUpdate]
    rcases update_eq_iff.mp inside with ⟨_, ⟨⟩⟩ | ⟨_, before⟩
    · rw [Function.update_self]
      rfl
    · rw [Function.update_of_ne (exclusive.slot_ne free before)]
      exact exclusive.holds before
  alone := by
    intro left right leftHolding rightHolding leftInside rightInside same
    rcases update_eq_iff.mp leftInside with
      ⟨rfl, ⟨⟩⟩ | ⟨_, leftBefore⟩ <;>
    rcases update_eq_iff.mp rightInside with
      ⟨rfl, ⟨⟩⟩ | ⟨_, rightBefore⟩
    · rfl
    · exact absurd same.symm (exclusive.slot_ne free rightBefore)
    · exact absurd same (exclusive.slot_ne free leftBefore)
    · exact exclusive.alone leftBefore rightBefore same

theorem proceed
    (exclusive : site.Exclusive lock)
    {holding : Holding}
    (inside : site.holdings client = some holding) :
    (site.proceed client holding).Exclusive lock where
  holds := by
    intro other otherHolding otherInside
    rcases update_eq_iff.mp otherInside with ⟨_, ⟨⟩⟩ | ⟨_, before⟩
    · have held := exclusive.holds inside
      exact held
    · exact exclusive.holds before
  alone := by
    intro left right leftHolding rightHolding leftInside rightInside same
    rcases update_eq_iff.mp leftInside with
      ⟨rfl, ⟨⟩⟩ | ⟨_, leftBefore⟩ <;>
    rcases update_eq_iff.mp rightInside with
      ⟨rfl, ⟨⟩⟩ | ⟨_, rightBefore⟩
    · rfl
    · exact exclusive.alone inside rightBefore same
    · exact exclusive.alone leftBefore inside same
    · exact exclusive.alone leftBefore rightBefore same

theorem leave
    (exclusive : site.Exclusive lock)
    {effect : Storage.Effect}
    (ended :
      site.holdings client =
        some { recipient := recipient, stage := .ended effect })
    (crashes : Bool) :
    (site.leave lock client recipient effect crashes).Exclusive lock where
  holds := by
    intro other holding inside
    rcases update_eq_iff.mp inside with ⟨_, ⟨⟩⟩ | ⟨different, before⟩
    have elsewhere :
        lock.slot holding.recipient ≠ lock.slot recipient := by
      intro same
      exact different (exclusive.alone before ended same)
    cases crashes with
    | false =>
        have kept :=
          Guard.Mutexes.free_other site.archive.mutexes elsewhere
        exact
          (congrArg Guard.Mutex.holder kept).trans (exclusive.holds before)
    | true =>
        have kept :=
          Guard.Mutexes.abandon_other site.archive.mutexes elsewhere
        exact
          (congrArg Guard.Mutex.holder kept).trans (exclusive.holds before)
  alone := by
    intro left right leftHolding rightHolding leftInside rightInside same
    rcases update_eq_iff.mp leftInside with ⟨_, ⟨⟩⟩ | ⟨_, leftBefore⟩
    rcases update_eq_iff.mp rightInside with ⟨_, ⟨⟩⟩ | ⟨_, rightBefore⟩
    exact exclusive.alone leftBefore rightBefore same

end Exclusive

/-- Whoever else is at work on a record after a change of one's own, was so before it. -/
theorem Untouched.of_update
    [DecidableEq κ]
    {holdings : κ → Option Holding}
    {changed : Option Holding}
    (own :
      ∀ holding,
        holdings client = some holding → holding.recipient ≠ recipient)
    (untouched : Untouched (update holdings client changed) recipient) :
    Untouched holdings recipient := by
  intro other holding before
  by_cases same : other = client
  · subst same
    exact own holding before
  · exact untouched other holding
      (update_eq_iff.mpr (Or.inr ⟨same, before⟩))

namespace Consistent

variable [DecidableEq κ]

/-- Who acquires a mutex finds what the last completed task has left. -/
theorem enter
    (consistent : site.Consistent path id initial memory)
    (exclusive : site.Exclusive lock)
    (outside : site.holdings client = none)
    (free :
      (site.archive.mutexes (lock.slot recipient)).isHeld = false)
    (task : Storage.Task)
    (held : Guard.Mutexes Guard.Slot) :
    (site.enter client recipient task held).Consistent
      path id initial memory where
  mirrors := consistent.mirrors
  inside := by
    intro other holding inside
    rcases update_eq_iff.mp inside with ⟨_, ⟨⟩⟩ | ⟨_, before⟩
    · refine ⟨?_, Storage.Stage.follows_first task _ _ _⟩
      rw [Storage.Stage.contents_first]
      apply consistent.outside
      -- Anybody at work on the record would hold the mutex, which is free.
      intro present holding before same
      exact exclusive.slot_ne free before (congrArg lock.slot same)
    · exact consistent.inside before
  outside := by
    intro recipient untouched
    apply consistent.outside
    apply untouched.of_update
    intro holding inside
    rw [outside] at inside
    cases inside
  answers := consistent.answers

/-- Who takes a step changes nothing but the record at which it is at work. -/
theorem proceed
    (consistent : site.Consistent path id initial memory)
    (exclusive : site.Exclusive lock)
    {holding : Holding}
    (inside : site.holdings client = some holding) :
    ∃ memory,
      (site.proceed client holding).Consistent path id initial memory := by
  obtain ⟨stands, follows⟩ := consistent.inside inside
  obtain ⟨mirrors, followsOn⟩ := consistent.mirrors.step stands follows
  refine ⟨_, mirrors, ?inside, ?outside, consistent.answers⟩
  case inside =>
    intro other otherHolding otherInside
    rcases update_eq_iff.mp otherInside with
      ⟨_, ⟨⟩⟩ | ⟨different, before⟩
    · refine ⟨?_, followsOn⟩
      simp only [update_eq_functionUpdate, Function.update_self]
      rfl
    · -- The step is on another record, since this one is the other client's.
      have elsewhere := exclusive.recipient_ne inside before different
      dsimp only
      rw [update_eq_functionUpdate, Function.update_of_ne elsewhere]
      exact consistent.inside before
  case outside =>
    intro recipient untouched
    have elsewhere := untouched _ _ (site.holdings_proceed client holding)
    dsimp only at elsewhere ⊢
    rw [update_eq_functionUpdate, Function.update_of_ne elsewhere.symm]
    apply consistent.outside
    apply untouched.of_update
    intro own isOwn
    rw [inside] at isOwn
    cases isOwn
    exact elsewhere

/-- Who completes a task leaves what the task has made of the record. -/
theorem leave
    (consistent : site.Consistent path id initial memory)
    (exclusive : site.Exclusive lock)
    {effect : Storage.Effect}
    (ended :
      site.holdings client =
        some { recipient := recipient, stage := .ended effect })
    (crashes : Bool) :
    (site.leave lock client recipient effect crashes).Consistent
      path id initial memory where
  mirrors := consistent.mirrors
  inside := by
    intro other holding inside
    rcases update_eq_iff.mp inside with ⟨_, ⟨⟩⟩ | ⟨different, before⟩
    have elsewhere := exclusive.recipient_ne ended before different
    dsimp only [Site.leave]
    rw [Completion.lastRecord_concat_other _ _ elsewhere.symm]
    exact consistent.inside before
  outside := by
    intro other untouched
    by_cases here : other = recipient
    · subst here
      exact
        (consistent.inside ended).1.trans
          (Completion.lastRecord_concat_same initial site.completed
            { client := client, recipient := other, effect := effect }).symm
    · dsimp only [Site.leave]
      rw [Completion.lastRecord_concat_other _ _ (Ne.symm here)]
      apply consistent.outside
      apply untouched.of_update
      intro own isOwn
      rw [ended] at isOwn
      cases isOwn
      exact Ne.symm here
  answers := by
    intro earlier completion later split
    rcases List.eq_nil_or_concat later with rfl | ⟨front, last, rfl⟩
    · obtain ⟨rfl, ⟨⟩⟩ := List.append_inj' split rfl
      exact (consistent.inside ended).2
    · rw [List.concat_eq_append, ← List.cons_append,
        ← List.append_assoc] at split
      exact consistent.answers (List.append_inj' split rfl).1

end Consistent

variable [DecidableEq κ]

/-- After any move clients exclude each other and the records are consistent. -/
theorem consistent_move
    (exclusive : site.Exclusive lock)
    (consistent : site.Consistent path id initial memory)
    (next : Move κ) :
    (site.move lock next).Exclusive lock ∧
      ∃ memory,
        (site.move lock next).Consistent path id initial memory := by
  cases next with
  | acquire client recipient task =>
      cases outside : site.holdings client with
      | some holding =>
          simp only [move, outside]
          exact ⟨exclusive, memory, consistent⟩
      | none =>
          cases held :
              (site.archive.mutexes (lock.slot recipient)).isHeld with
          | true =>
              simp only [move, outside, Guard.Mutexes.acquire?_of_held held]
              exact ⟨exclusive, memory, consistent⟩
          | false =>
              rw [move_acquire outside held]
              exact ⟨exclusive.enter held task, memory,
                consistent.enter exclusive outside held task _⟩
  | work client =>
      cases inside : site.holdings client with
      | none =>
          simp only [move, inside]
          exact ⟨exclusive, memory, consistent⟩
      | some holding =>
          rw [move_work inside]
          exact ⟨exclusive.proceed inside,
            consistent.proceed exclusive inside⟩
  | release client crashes =>
      rcases inside : site.holdings client with
        _ | ⟨recipient, stage⟩
      · simp only [move, inside]
        exact ⟨exclusive, memory, consistent⟩
      · cases stage with
        | ended effect =>
            rw [move_release inside]
            exact ⟨exclusive.leave inside crashes, memory,
              consistent.leave exclusive inside crashes⟩
        | _ =>
            simp only [move, inside]
            exact ⟨exclusive, memory, consistent⟩

/-- Whatever moves were made, clients exclude each other and the records are consistent. -/
theorem consistent_run
    (exclusive : site.Exclusive lock)
    (consistent : site.Consistent path id initial memory)
    (moves : List (Move κ)) :
    (site.run lock moves).Exclusive lock ∧
      ∃ memory,
        (site.run lock moves).Consistent path id initial memory := by
  induction moves generalizing site memory with
  | nil =>
      exact ⟨exclusive, memory, consistent⟩
  | cons next rest inductionHypothesis =>
      obtain ⟨exclusive, memory, consistent⟩ :=
        consistent_move exclusive consistent next
      exact inductionHypothesis exclusive consistent

end Site

/--
Clients that share a lock load, save and delete records of a folder, and their steps
are interleaved in any order. What a load has read is the initial record, the data
of the last completed save or nothing, as whichever task for the recipient changed
the record last has left it. A save that was completed was not refused, unless the
path of the record is too long.
-/
theorem loads_read_whole_records
    {κ : Type}
    [DecidableEq κ]
    {path : Storage.Path}
    {id : Storage.DirectoryId}
    {archive : Archive Storage.Folder}
    {memory : Storage.Memory}
    (mirrors : archive.backend.Mirrors path id memory)
    (lock : Guard.Lock)
    (moves : List (Site.Move κ))
    (recipient : RecipientId) :
    let site := (Site.start archive).run lock moves
    let fits := (archive.backend.pathFor recipient).fits
    (∀ client answer,
        site.holdings client =
            some { recipient := recipient, stage := .ended (.loaded answer) } →
          answer =
            Storage.unlessTooLong fits
              ((Completion.lastRecord memory.records site.completed
                recipient).elim (.error Storage.FileTree.noSuchFile) .ok)) ∧
      (∀ earlier client answer later,
        site.completed =
            earlier ++
              { client := client
                recipient := recipient
                effect := .loaded answer } :: later →
          answer =
            Storage.unlessTooLong fits
              ((Completion.lastRecord memory.records earlier
                recipient).elim (.error Storage.FileTree.noSuchFile) .ok)) ∧
      ∀ earlier client data answer later,
        site.completed =
            earlier ++
              { client := client
                recipient := recipient
                effect := .saved data answer } :: later →
          answer = Storage.unlessTooLong fits (.ok ()) := by
  intro site fits
  obtain ⟨_, last, consistent⟩ :=
    Site.consistent_run (Site.exclusive_start lock archive)
      (Site.consistent_start mirrors) moves
  have samePath :
      (path.child recipient.recordName).fits = fits := by
    rw [← mirrors.samePath]
    rfl
  rw [← samePath]
  refine ⟨?_, ?_, ?_⟩
  · intro client answer inside
    exact (consistent.inside inside).2
  · intro earlier client answer later split
    exact consistent.answers split
  · intro earlier client data answer later split
    exact consistent.answers split

/-- A folder with one record of three octets, and no mutex held. -/
def smallArchive : Archive Storage.Folder :=
  .ofBackend (rootFolder.write 7 [1, 2, 3]).2

/-- What that folder mirrors. -/
def smallMemory : Storage.Memory where
  records := update Storage.Memory.empty.records 7 (some [1, 2, 3])
  writes := Storage.Memory.empty.writes

theorem mirrors_smallArchive :
    smallArchive.backend.Mirrors rootFolder.path 0 smallMemory :=
  (mirrors_rootFolder.write (by decide +kernel) [1, 2, 3] _).2

/-- The record is made shorter, while somebody else asks for it and for another one. -/
def crossingMoves : List (Site.Move Bool) :=
  [ .acquire false 7 (.save [9]),
    .work false,
    .acquire true 7 .load,
    .acquire true 6 .load,
    .work false,
    .work true,
    .release true false,
    .work false,
    .release false false,
    .acquire true 7 .load,
    .work true ]

/-- Who had to wait for the shorter record reads it, as the last completed task left it. -/
theorem loads_read_whole_records_crossingMoves :
    let lock := Guard.Lock.sharded 0 (.ofCount 2)
    let site := (Site.start smallArchive).run lock crossingMoves
    site.completed =
        [ { client := true
            recipient := 6
            effect := .loaded (.error Storage.FileTree.noSuchFile) },
          { client := false
            recipient := 7
            effect := .saved [9] (.ok ()) } ] ∧
      site.holdings true =
        some { recipient := 7, stage := .ended (.loaded (.ok [9])) } ∧
      .ok [9] =
        Storage.unlessTooLong (smallArchive.backend.pathFor 7).fits
          ((Completion.lastRecord smallMemory.records site.completed 7).elim
            (.error Storage.FileTree.noSuchFile) .ok) := by
  intro lock site
  obtain ⟨answered, _⟩ :=
    loads_read_whole_records mirrors_smallArchive lock crossingMoves 7
  have inside :
      site.holdings true =
        some { recipient := 7, stage := .ended (.loaded (.ok [9])) } := by
    decide +kernel
  refine ⟨?_, inside, answered true _ inside⟩
  decide +kernel

end PeerSession
