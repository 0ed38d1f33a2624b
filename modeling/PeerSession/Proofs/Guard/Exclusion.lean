import Mathlib.Data.List.Nodup
import PeerSession.Guard.Lock
import PeerSession.Proofs.Guard.Mutexes

namespace PeerSession.Guard

/-!
# Exclusion

Actions are carried out on a new lock, and their results are written down. The
results tell for whom guards are kept: those who acquired and did not release
since. After any actions the mutexes that are held are exactly theirs, each one
for one of them, and whoever would share a mutex with one of them has to wait. A
mutex is poisoned exactly if a crash on it was written down, which keeps nobody
from acquiring it.
-/

/-- How a lock groups recipients: all together, or by the number of shards asked for. -/
inductive Grouping where
  | together (handle : Handle)
  | byShard (serial : Nat) (count : UInt64)
  deriving DecidableEq, Repr

namespace Grouping

/-- The lock with these groups. -/
def lock : Grouping → Lock
  | .together handle => .single handle
  | .byShard serial count => .sharded serial (.ofCount count)

/-- Whether two recipients are in the same group. -/
def Joins : Grouping → RecipientId → RecipientId → Prop
  | .together _, _, _ => True
  | .byShard _ count, left, right =>
      left.toNat % max count.toNat 1 = right.toNat % max count.toNat 1

instance (grouping : Grouping) (left right : RecipientId) :
    Decidable (grouping.Joins left right) := by
  cases grouping <;> unfold Joins <;> infer_instance

/-- Recipients have the same mutex exactly if they are in the same group. -/
theorem slot_eq_iff
    (grouping : Grouping)
    (left right : RecipientId) :
    grouping.lock.slot left = grouping.lock.slot right ↔
      grouping.Joins left right := by
  cases grouping with
  | together handle =>
      simp only [lock, Lock.slot, Joins]
  | byShard serial count =>
      simp only [lock, Lock.slot, Joins, Slot.shard.injEq, true_and,
        ← UInt64.toNat_inj, Shards.toNat_index_ofCount]

end Grouping

/-- An action that was carried out, with its result. -/
abbrev Entry := Action × Result

/-- The recipients for whom guards are kept after one more entry. -/
def keep (kept : List RecipientId) : Entry → List RecipientId
  | (.acquire recipient, .acquired) => recipient :: kept
  | (.release recipient, .released) => kept.erase recipient
  | _ => kept

/-- The recipients for whom guards are kept, newest first. -/
def keptBy (entries : List Entry) : List RecipientId :=
  entries.foldl keep []

theorem keptBy_append_singleton
    (entries : List Entry)
    (entry : Entry) :
    keptBy (entries ++ [entry]) = keep (keptBy entries) entry := by
  simp only [keptBy, List.foldl_append, List.foldl_cons, List.foldl_nil]

namespace Lock

/-- The mutexes after some actions. -/
def after
    (lock : Lock)
    (mutexes : Mutexes Slot)
    (actions : List Action) :
    Mutexes Slot :=
  actions.foldl (fun before action => (lock.act before action).2) mutexes

/-- The actions with their results. -/
def entries
    (lock : Lock)
    (mutexes : Mutexes Slot)
    (actions : List Action) :
    List Entry :=
  actions.zip ((lock.actEach mutexes actions).map Prod.fst)

/-- An action meets the mutexes that those before it have left. -/
theorem actEach_append_cons
    (lock : Lock)
    (mutexes : Mutexes Slot)
    (before later : List Action)
    (action : Action) :
    lock.actEach mutexes (before ++ action :: later) =
      lock.actEach mutexes before ++
        lock.act (lock.after mutexes before) action ::
          lock.actEach (lock.after mutexes (before ++ [action])) later := by
  induction before generalizing mutexes with
  | nil =>
      rfl
  | cons first before inductionHypothesis =>
      simp only [List.cons_append, actEach, inductionHypothesis]
      rfl

section

variable
  {lock : Lock}
  {mutexes : Mutexes Slot}
  {recipient : RecipientId}

theorem act_of_held
    (held : (mutexes (lock.slot recipient)).isHeld = true) :
    lock.act mutexes (.acquire recipient) = (.wouldBlock, mutexes) ∧
      lock.act mutexes (.poison recipient) = (.wouldBlock, mutexes) := by
  simp only [act, Mutexes.acquire?_of_held held, and_self]

theorem act_acquire_of_free
    (free : (mutexes (lock.slot recipient)).isHeld = false) :
    lock.act mutexes (.acquire recipient) =
      (.acquired,
        update mutexes (lock.slot recipient)
          ((mutexes (lock.slot recipient)).heldFor recipient)) := by
  simp only [act, Mutexes.acquire?_of_free free]

theorem act_poison_of_free
    (free : (mutexes (lock.slot recipient)).isHeld = false) :
    lock.act mutexes (.poison recipient) =
      (.poisoned, mutexes.abandon (lock.slot recipient)) := by
  simp only [act, Mutexes.acquire?_of_free free, Mutexes.abandon_heldFor]

end

/-- The mutexes are as the entries say: held for whom guards are kept, poisoned by crashes. -/
structure Accords
    (lock : Lock)
    (entries : List Entry)
    (mutexes : Mutexes Slot) :
    Prop where
  distinct : ((keptBy entries).map lock.slot).Nodup
  holder :
    ∀ slot recipient,
      (mutexes slot).holder = some recipient ↔
        recipient ∈ keptBy entries ∧ lock.slot recipient = slot
  poisoned :
    ∀ slot,
      (mutexes slot).poisoned = true ↔
        ∃ recipient,
          (.poison recipient, .poisoned) ∈ entries ∧
            lock.slot recipient = slot

namespace Accords

variable
  {lock : Lock}
  {entries : List Entry}
  {mutexes : Mutexes Slot}
  {recipient : RecipientId}

theorem unused (lock : Lock) : lock.Accords [] .unused where
  distinct := List.nodup_nil
  holder := by
    simp [Mutexes.unused, Mutex.unused, keptBy]
  poisoned := by
    simp [Mutexes.unused, Mutex.unused]

/-- A mutex is held exactly for one of those for whom guards are kept. -/
theorem isHeld_iff
    (accords : lock.Accords entries mutexes)
    (slot : Slot) :
    (mutexes slot).isHeld = true ↔
      ∃ recipient ∈ keptBy entries, lock.slot recipient = slot := by
  simp only [Mutex.isHeld, Option.isSome_iff_exists, accords.holder]

/-- Of those for whom guards are kept, no two have the same mutex. -/
theorem eq_of_slot_eq
    (accords : lock.Accords entries mutexes)
    {left right : RecipientId}
    (leftKept : left ∈ keptBy entries)
    (rightKept : right ∈ keptBy entries)
    (same : lock.slot left = lock.slot right) :
    left = right := by
  have leftHolds := (accords.holder _ _).mpr ⟨leftKept, same⟩
  have rightHolds := (accords.holder _ _).mpr ⟨rightKept, rfl⟩
  exact Option.some.inj (leftHolds.symm.trans rightHolds)

theorem not_kept_of_free
    (accords : lock.Accords entries mutexes)
    (free : (mutexes (lock.slot recipient)).isHeld = false)
    {other : RecipientId}
    (kept : other ∈ keptBy entries) :
    lock.slot other ≠ lock.slot recipient := by
  intro same
  have held := (accords.isHeld_iff _).mpr ⟨other, kept, same⟩
  rw [free] at held
  cases held

/-- An action that changes nothing is written down without consequences. -/
theorem unchanged
    (accords : lock.Accords entries mutexes)
    {entry : Entry}
    (keeps : keep (keptBy entries) entry = keptBy entries)
    (noCrash : ∀ recipient, entry ≠ (.poison recipient, .poisoned)) :
    lock.Accords (entries ++ [entry]) mutexes where
  distinct := by
    rw [keptBy_append_singleton, keeps]
    exact accords.distinct
  holder := by
    rw [keptBy_append_singleton, keeps]
    exact accords.holder
  poisoned := by
    intro slot
    rw [accords.poisoned]
    simp only [List.mem_append, List.mem_singleton, (noCrash _).symm,
      or_false]

/-- Who acquires a free mutex is the only one to keep a guard of it. -/
theorem acquired
    (accords : lock.Accords entries mutexes)
    (free : (mutexes (lock.slot recipient)).isHeld = false) :
    lock.Accords
      (entries ++ [(.acquire recipient, .acquired)])
      (update mutexes (lock.slot recipient)
        ((mutexes (lock.slot recipient)).heldFor recipient)) where
  distinct := by
    rw [keptBy_append_singleton, keep, List.map_cons, List.nodup_cons]
    refine ⟨?_, accords.distinct⟩
    intro taken
    obtain ⟨other, kept, same⟩ := List.mem_map.mp taken
    exact accords.not_kept_of_free free kept same
  holder := by
    intro slot other
    rw [keptBy_append_singleton, keep, List.mem_cons,
      update_eq_functionUpdate]
    by_cases here : slot = lock.slot recipient
    · subst here
      rw [Function.update_self]
      constructor
      · rintro ⟨⟩
        exact ⟨Or.inl rfl, rfl⟩
      · rintro ⟨rfl | kept, same⟩
        · rfl
        · exact absurd same (accords.not_kept_of_free free kept)
    · rw [Function.update_of_ne here, accords.holder]
      constructor
      · rintro ⟨kept, same⟩
        exact ⟨Or.inr kept, same⟩
      · rintro ⟨rfl | kept, same⟩
        · exact absurd same.symm here
        · exact ⟨kept, same⟩
  poisoned := by
    intro slot
    rw [Mutexes.poisoned_heldFor, accords.poisoned]
    simp

/-- Who releases a mutex does not keep a guard any more, and all others do. -/
theorem released
    (accords : lock.Accords entries mutexes)
    (kept : recipient ∈ keptBy entries) :
    lock.Accords
      (entries ++ [(.release recipient, .released)])
      (mutexes.free (lock.slot recipient)) where
  distinct := by
    rw [keptBy_append_singleton, keep]
    exact accords.distinct.sublist (List.erase_sublist.map lock.slot)
  holder := by
    intro slot other
    have members :
        other ∈ (keptBy entries).erase recipient ↔
          other ≠ recipient ∧ other ∈ keptBy entries :=
      (List.Nodup.of_map _ accords.distinct).mem_erase_iff
    rw [keptBy_append_singleton, keep, members]
    by_cases here : slot = lock.slot recipient
    · subst here
      rw [Mutexes.free_same]
      constructor
      · rintro ⟨⟩
      · rintro ⟨⟨different, otherKept⟩, same⟩
        exact absurd (accords.eq_of_slot_eq otherKept kept same) different
    · rw [Mutexes.free_other mutexes here, accords.holder]
      constructor
      · rintro ⟨otherKept, same⟩
        refine ⟨⟨?_, otherKept⟩, same⟩
        rintro rfl
        exact here same.symm
      · rintro ⟨⟨_, otherKept⟩, same⟩
        exact ⟨otherKept, same⟩
  poisoned := by
    intro slot
    rw [Mutexes.poisoned_free, accords.poisoned]
    simp

/-- A crash on a free mutex leaves it free and poisoned. -/
theorem crashed
    (accords : lock.Accords entries mutexes)
    (free : (mutexes (lock.slot recipient)).isHeld = false) :
    lock.Accords
      (entries ++ [(.poison recipient, .poisoned)])
      (mutexes.abandon (lock.slot recipient)) where
  distinct := by
    rw [keptBy_append_singleton]
    exact accords.distinct
  holder := by
    intro slot other
    have keeps :
        keep (keptBy entries) (.poison recipient, .poisoned) =
          keptBy entries :=
      rfl
    rw [keptBy_append_singleton, keeps, ← accords.holder]
    by_cases here : slot = lock.slot recipient
    · subst here
      rw [Mutexes.abandon_same,
        Option.isNone_iff_eq_none.mp
          (Option.isSome_eq_false_iff.mp free)]
      rfl
    · rw [Mutexes.abandon_other mutexes here]
  poisoned := by
    intro slot
    simp only [List.mem_append, List.mem_singleton, Prod.mk.injEq,
      Action.poison.injEq, and_true]
    by_cases here : slot = lock.slot recipient
    · subst here
      rw [Mutexes.abandon_same]
      exact iff_of_true rfl ⟨recipient, Or.inr rfl, rfl⟩
    · rw [Mutexes.abandon_other mutexes here, accords.poisoned]
      constructor
      · rintro ⟨other, crash, same⟩
        exact ⟨other, Or.inl crash, same⟩
      · rintro ⟨other, crash | rfl, same⟩
        · exact ⟨other, crash, same⟩
        · exact absurd same.symm here

theorem act_release_of_kept
    (accords : lock.Accords entries mutexes)
    (kept : recipient ∈ keptBy entries) :
    lock.act mutexes (.release recipient) =
      (.released, mutexes.free (lock.slot recipient)) :=
  if_pos ((accords.holder _ recipient).mpr ⟨kept, rfl⟩)

theorem act_release_of_not_kept
    (accords : lock.Accords entries mutexes)
    (notKept : recipient ∉ keptBy entries) :
    lock.act mutexes (.release recipient) = (.notHeld, mutexes) :=
  if_neg fun holds =>
    notKept ((accords.holder _ recipient).mp holds).1

/-- What every action leaves accords with the entries, the new one included. -/
theorem act
    (accords : lock.Accords entries mutexes)
    (action : Action) :
    lock.Accords
      (entries ++ [(action, (lock.act mutexes action).1)])
      (lock.act mutexes action).2 := by
  cases action with
  | acquire recipient =>
      cases held : (mutexes (lock.slot recipient)).isHeld with
      | true =>
          rw [(act_of_held held).1]
          exact accords.unchanged rfl nofun
      | false =>
          rw [act_acquire_of_free held]
          exact accords.acquired held
  | poison recipient =>
      cases held : (mutexes (lock.slot recipient)).isHeld with
      | true =>
          rw [(act_of_held held).2]
          exact accords.unchanged rfl nofun
      | false =>
          rw [act_poison_of_free held]
          exact accords.crashed held
  | release recipient =>
      by_cases kept : recipient ∈ keptBy entries
      · rw [accords.act_release_of_kept kept]
        exact accords.released kept
      · rw [accords.act_release_of_not_kept kept]
        exact accords.unchanged rfl nofun

/-- What any number of actions leave accords with the entries that they add. -/
theorem after
    (accords : lock.Accords entries mutexes)
    (actions : List Action) :
    lock.Accords
      (entries ++ lock.entries mutexes actions)
      (lock.after mutexes actions) := by
  induction actions generalizing entries mutexes with
  | nil =>
      rw [show lock.entries mutexes [] = [] from rfl, List.append_nil]
      exact accords
  | cons action actions inductionHypothesis =>
      have later := inductionHypothesis (accords.act action)
      rw [List.append_assoc] at later
      exact later

end Accords

end Lock

/--
Any actions are carried out on a new lock. No two of those for whom guards are kept
have the same mutex, the mutexes that are held are theirs, and poisoned are those
on which there was a crash. The next action answers accordingly: who is in a group
with one of them has to wait and changes nothing, while all others acquire their
mutex, poisoned or not, and who keeps no guard has nothing to release.
-/
theorem lock_excludes_groups
    (grouping : Grouping)
    (actions : List Action) :
    let lock := grouping.lock
    let entries := lock.entries .unused actions
    let kept := keptBy entries
    let mutexes := lock.after .unused actions
    (∀ action later,
        lock.actEach .unused (actions ++ action :: later) =
          lock.actEach .unused actions ++
            lock.act mutexes action ::
              lock.actEach (lock.after .unused (actions ++ [action]))
                later) ∧
      kept.Pairwise
        (fun left right => lock.slot left ≠ lock.slot right) ∧
      (∀ slot,
        (mutexes slot).isHeld = true ↔
          ∃ recipient ∈ kept, lock.slot recipient = slot) ∧
      (∀ slot,
        (mutexes slot).poisoned = true ↔
          ∃ recipient,
            (.poison recipient, .poisoned) ∈ entries ∧
              lock.slot recipient = slot) ∧
      ∀ recipient,
        let slot := lock.slot recipient
        lock.act mutexes (.acquire recipient) =
            (if ∃ other ∈ kept, grouping.Joins other recipient then
              (.wouldBlock, mutexes)
            else
              (.acquired,
                update mutexes slot
                  ((mutexes slot).heldFor recipient))) ∧
          lock.act mutexes (.poison recipient) =
            (if ∃ other ∈ kept, grouping.Joins other recipient then
              (.wouldBlock, mutexes)
            else
              (.poisoned, mutexes.abandon slot)) ∧
          lock.act mutexes (.release recipient) =
            (if recipient ∈ kept then
              (.released, mutexes.free slot)
            else
              (.notHeld, mutexes)) := by
  intro lock entries kept mutexes
  have accords : lock.Accords entries mutexes :=
    (Lock.Accords.unused lock).after actions
  refine ⟨fun action later =>
      lock.actEach_append_cons .unused actions later action,
    List.pairwise_map.mp accords.distinct, accords.isHeld_iff,
    accords.poisoned, ?_⟩
  intro recipient slot
  have waits :
      (mutexes slot).isHeld = true ↔
        ∃ other ∈ kept, grouping.Joins other recipient := by
    simp only [accords.isHeld_iff, slot, lock, grouping.slot_eq_iff, kept]
  refine ⟨?_, ?_, ?_⟩
  · by_cases joins : ∃ other ∈ kept, grouping.Joins other recipient
    · rw [if_pos joins]
      exact (Lock.act_of_held (waits.mpr joins)).1
    · rw [if_neg joins]
      exact Lock.act_acquire_of_free
        (Bool.eq_false_iff.mpr (mt waits.mp joins))
  · by_cases joins : ∃ other ∈ kept, grouping.Joins other recipient
    · rw [if_pos joins]
      exact (Lock.act_of_held (waits.mpr joins)).2
    · rw [if_neg joins]
      exact Lock.act_poison_of_free
        (Bool.eq_false_iff.mpr (mt waits.mp joins))
  · by_cases keeps : recipient ∈ kept
    · rw [if_pos keeps]
      exact accords.act_release_of_kept keeps
    · rw [if_neg keeps]
      exact accords.act_release_of_not_kept keeps

end PeerSession.Guard
