import Mathlib.Data.Nat.ModEq
import PeerSession.Guard.Lock
import PeerSession.Settings

namespace PeerSession

/-!
# Sharding by settings

However settings are changed, each of them is what it was set to last, and there is at
least one shard. The shard of a recipient is computed with machine words: the number
of mutexes becomes a word, the identifier is divided by it, and the remainder becomes
the place of a mutex. No division is by zero, nothing is lost on the way, and the place
is one of a mutex.
-/

namespace Guard

namespace Shards

/-- It does not matter whether a number that is asked for in the end is raised before. -/
theorem ofCount_getLastD (counts : List UInt64) (count : UInt64) :
    ofCount (counts.getLastD (ofCount count).count) =
      ofCount (counts.getLastD count) := by
  cases counts with
  | nil =>
      exact ofCount_count (ofCount count)
  | cons first later =>
      rw [List.getLastD_cons, List.getLastD_cons]

end Shards

namespace Lock

theorem length_slots_sharded (serial : Nat) (shards : Shards) :
    (sharded serial shards).slots.length = shards.count.toNat := by
  simp [slots]

/-- The mutex of a recipient is the one at the place of its shard. -/
theorem getElem?_slots_sharded
    (serial : Nat)
    (shards : Shards)
    (recipient : RecipientId) :
    (sharded serial shards).slots[(shards.index recipient).toNat]? =
      some ((sharded serial shards).slot recipient) := by
  have inRange : (shards.index recipient).toNat < shards.count.toNat := by
    rw [Shards.toNat_index]
    exact Nat.mod_lt _ shards.positive
  simp only [slots, List.getElem?_map, List.getElem?_range inRange,
    Option.map_some, UInt64.ofNat_toNat, slot]

end Lock

/-- The mutexes made for a number of shards asked for; one is made in any case. -/
def mutexesFor (count : UInt64) : List Mutex :=
  List.replicate (max count.toNat 1) .unused

/-- The remainder of a division of words, unless it is by zero. -/
def remainder? (dividend divisor : UInt64) : Option UInt64 :=
  if divisor = 0 then
    none
  else
    some (dividend % divisor)

/-- The place of a recipient's mutex among mutexes, computed with words. -/
def placeAmong?
    (mutexes : List Mutex)
    (recipient : RecipientId) :
    Option Nat :=
  (remainder? recipient (UInt64.ofNat mutexes.length)).map UInt64.toNat

variable (count : UInt64) (recipient : RecipientId)

theorem length_mutexesFor :
    (mutexesFor count).length = max count.toNat 1 :=
  List.length_replicate

theorem length_mutexesFor_lt :
    (mutexesFor count).length < UInt64.size := by
  have one : 1 < UInt64.size := by
    decide
  rw [length_mutexesFor]
  exact Nat.max_lt.mpr ⟨count.toNat_lt, one⟩

/-- The number of mutexes is a word, so that none of it is lost. -/
theorem toNat_ofNat_length :
    (UInt64.ofNat (mutexesFor count).length).toNat =
      (mutexesFor count).length :=
  UInt64.toNat_ofNat_of_lt' (length_mutexesFor_lt count)

/-- The number of mutexes is never zero, so that the division gives a remainder. -/
theorem placeAmong?_mutexesFor :
    placeAmong? (mutexesFor count) recipient =
      some (recipient.toNat % max count.toNat 1) := by
  have number := toNat_ofNat_length count
  rw [length_mutexesFor] at number
  have positive :
      UInt64.ofNat (mutexesFor count).length ≠ 0 := by
    intro none
    rw [length_mutexesFor] at none
    rw [none, UInt64.toNat_zero] at number
    omega
  rw [placeAmong?, remainder?, if_neg positive, Option.map_some,
    UInt64.toNat_mod, length_mutexesFor, number]

end Guard

namespace Setting

/-- The settings that there are. -/
inductive Field where
  | sessionsDirectory
  | syncOnSave
  | lockShards
  deriving DecidableEq, Repr

/-- The setting that a change is of. -/
def field : Setting → Field
  | .sessionsDirectory _ => .sessionsDirectory
  | .syncOnSave _ => .syncOnSave
  | .lockShards _ => .lockShards

/-- The directory that a change sets. -/
def directory? : Setting → Option String
  | .sessionsDirectory directory => some directory
  | _ => none

/-- What a change says about syncing. -/
def sync? : Setting → Option Bool
  | .syncOnSave sync => some sync
  | _ => none

/-- The number of shards that a change asks for. -/
def count? : Setting → Option UInt64
  | .lockShards count => some count
  | _ => none

end Setting

namespace Settings

/-- Changes of different settings can be made in either order. -/
theorem change_comm
    (settings : Settings)
    {left right : Setting}
    (different : left.field ≠ right.field) :
    (settings.change left).change right =
      (settings.change right).change left := by
  cases left with
  | sessionsDirectory directory =>
      cases right with
      | sessionsDirectory other =>
          exact absurd rfl different
      | _ => rfl
  | syncOnSave sync =>
      cases right with
      | syncOnSave other =>
          exact absurd rfl different
      | _ => rfl
  | lockShards count =>
      cases right with
      | lockShards other =>
          exact absurd rfl different
      | _ => rfl

/-- Settings are what they were set to last, or as before. -/
theorem changeAll_eq
    (settings : Settings)
    (changes : List Setting) :
    settings.changeAll changes =
      { sessionsDirectory :=
          (changes.filterMap Setting.directory?).getLastD
            settings.sessionsDirectory
        syncOnSave :=
          (changes.filterMap Setting.sync?).getLastD settings.syncOnSave
        lockShards :=
          .ofCount
            ((changes.filterMap Setting.count?).getLastD
              settings.lockShards.count) } := by
  induction changes generalizing settings with
  | nil =>
      simp [changeAll, Guard.Shards.ofCount_count]
  | cons setting changes inductionHypothesis =>
      have first :
          settings.changeAll (setting :: changes) =
            (settings.change setting).changeAll changes :=
        rfl
      rw [first, inductionHypothesis]
      cases setting <;>
        simp only [change, List.filterMap_cons, Setting.directory?,
          Setting.sync?, Setting.count?, List.getLastD_cons,
          Guard.Shards.ofCount_getLastD]

end Settings

/--
Standard settings are changed any number of times. Each of them is what it was set to
last, or the standard, but no number of shards is below one, and changes of different
settings can be made in either order. A lock with the number of shards that was set
has that many mutexes. For any number of shards asked for, words are enough to compute
the place of a recipient's mutex: it is the remainder of the identifier, there is a
mutex at it, and this is the recipient's. Every mutex is that of some recipient, and
recipients have the same one exactly if their identifiers are congruent.
-/
theorem recipients_spread_over_shards
    (changes : List Setting)
    (count : UInt64)
    (serial : Nat) :
    let settings := Settings.standard.changeAll changes
    let lockSet := Guard.Lock.sharded serial settings.lockShards
    let shards := Guard.Shards.ofCount count
    let lock := Guard.Lock.sharded serial shards
    let mutexes := Guard.mutexesFor count
    let number := max count.toNat 1
    (settings.sessionsDirectory =
          (changes.filterMap Setting.directory?).getLastD "sessions" ∧
        settings.syncOnSave =
          (changes.filterMap Setting.sync?).getLastD true ∧
        settings.lockShards.count.toNat =
          max ((changes.filterMap Setting.count?).getLastD 16).toNat 1) ∧
      (∀ (before : Settings) (left right : Setting),
        left.field ≠ right.field →
          (before.change left).change right =
            (before.change right).change left) ∧
      (lockSet = .sharded serial (.ofCount settings.lockShards.count) ∧
        lockSet.slots.length = settings.lockShards.count.toNat ∧
        1 ≤ lockSet.slots.length) ∧
      (lock.slots.length = number ∧
        mutexes.length = number ∧
        (UInt64.ofNat mutexes.length).toNat = number) ∧
      (∀ recipient : RecipientId,
        let place := recipient.toNat % number
        Guard.placeAmong? mutexes recipient = some place ∧
          (shards.index recipient).toNat = place ∧
          place < lock.slots.length ∧
          lock.slots[place]? = some (lock.slot recipient)) ∧
      (∀ place,
        place < lock.slots.length →
          ∃ recipient, (shards.index recipient).toNat = place) ∧
      ∀ left right : RecipientId,
        shards.index left = shards.index right ↔
          left.toNat ≡ right.toNat [MOD number] := by
  intro settings lockSet shards lock mutexes number
  have last := Settings.standard.changeAll_eq changes
  have slotsOfLock : lock.slots.length = number := by
    rw [Guard.Lock.length_slots_sharded, Guard.Shards.toNat_count_ofCount]
  refine ⟨⟨?_, ?_, ?_⟩, ?_, ⟨?_, ?_, ?_⟩, ⟨slotsOfLock, ?_, ?_⟩, ?_, ?_, ?_⟩
  · exact congrArg Settings.sessionsDirectory last
  · exact congrArg Settings.syncOnSave last
  · rw [show settings = _ from last]
    exact Guard.Shards.toNat_count_ofCount _
  · intro before left right different
    exact before.change_comm different
  · exact
      congrArg (Guard.Lock.sharded serial)
        settings.lockShards.ofCount_count.symm
  · exact Guard.Lock.length_slots_sharded serial settings.lockShards
  · rw [Guard.Lock.length_slots_sharded]
    exact settings.lockShards.positive
  · exact Guard.length_mutexesFor count
  · rw [Guard.toNat_ofNat_length, Guard.length_mutexesFor]
  · intro recipient place
    have index := Guard.Shards.toNat_index_ofCount count recipient
    have stands := Guard.Lock.getElem?_slots_sharded serial shards recipient
    rw [index] at stands
    exact
      ⟨Guard.placeAmong?_mutexesFor count recipient, index,
        (List.getElem?_eq_some_iff.mp stands).1, stands⟩
  · intro place inRange
    rw [slotsOfLock] at inRange
    have isWord : place < UInt64.size := by
      have words := Guard.length_mutexesFor_lt count
      rw [Guard.length_mutexesFor] at words
      exact Nat.lt_trans inRange words
    refine ⟨UInt64.ofNat place, ?_⟩
    rw [Guard.Shards.toNat_index_ofCount, UInt64.toNat_ofNat_of_lt' isWord,
      Nat.mod_eq_of_lt inRange]
  · intro left right
    rw [← UInt64.toNat_inj, Guard.Shards.toNat_index_ofCount,
      Guard.Shards.toNat_index_ofCount]
    rfl

/--
No shards are asked for last, so there is one; syncing was switched off in between, and
the directory is the standard one. Of three shards the last one is that of recipient 5,
and the greatest identifier shares the first one with the least.
-/
theorem recipients_spread_over_shards_threeShards :
    let changes : List Setting :=
      [.lockShards 0, .syncOnSave true, .lockShards 8, .syncOnSave false,
        .lockShards 0]
    let settings := Settings.standard.changeAll changes
    let shards := Guard.Shards.ofCount 3
    settings.sessionsDirectory = "sessions" ∧
      settings.syncOnSave = false ∧
      settings.lockShards.count.toNat = 1 ∧
      (Setting.lockShards 0).field ≠ (Setting.syncOnSave false).field ∧
      (settings.change (.lockShards 0)).change (.syncOnSave false) =
        (settings.change (.syncOnSave false)).change (.lockShards 0) ∧
      Guard.placeAmong? (Guard.mutexesFor 3) 5 = some 2 ∧
      2 < (Guard.Lock.sharded 0 shards).slots.length ∧
      (∃ recipient, (shards.index recipient).toNat = 2) ∧
      shards.index 18446744073709551615 = shards.index 0 := by
  intro changes settings shards
  have different :
      (Setting.lockShards 0).field ≠ (Setting.syncOnSave false).field := by
    decide
  obtain ⟨⟨directory, sync, count⟩, commutes, _, ⟨length, _⟩, places,
      reached, together⟩ :=
    recipients_spread_over_shards changes 3 0
  have inRange : 2 < (Guard.Lock.sharded 0 shards).slots.length := by
    rw [length]
    decide
  exact
    ⟨directory, sync, count, different, commutes settings _ _ different,
      (places 5).1, inRange, reached 2 inRange,
      (together 18446744073709551615 0).mpr (by decide)⟩

end PeerSession
