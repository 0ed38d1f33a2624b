import PeerSession.Guard.Handle
import PeerSession.Guard.Mutex
import PeerSession.Guard.Shards

namespace PeerSession.Guard

/-!
# Locks

A lock says which mutex guards a recipient's record: one mutex for all of them,
or one for each shard of recipients.
-/

/-- The mutexes that locks are made of. -/
inductive Slot where
  | single (origin : Origin)
  | shard (serial : Nat) (index : UInt64)
  deriving DecidableEq, Repr

/-- A choice of the mutex for each recipient. -/
inductive Lock where
  | single (handle : Handle)
  | sharded (serial : Nat) (shards : Shards)
  deriving DecidableEq

namespace Lock

/-- The lock that all users of the process share. -/
def process : Lock :=
  .single .process

/-- The mutex that guards a recipient's record. -/
def slot
    (lock : Lock)
    (recipient : RecipientId) :
    Slot :=
  match lock with
  | .single handle => .single handle.origin
  | .sharded serial shards => .shard serial (shards.index recipient)

/-- All mutexes of a lock, in order. -/
def slots : Lock → List Slot
  | .single handle => [.single handle.origin]
  | .sharded serial shards =>
      (List.range shards.count.toNat).map fun index =>
        .shard serial (UInt64.ofNat index)

end Lock

/-- Something done with a lock on behalf of a recipient. -/
inductive Action where
  /-- Hold the recipient's mutex from now on. -/
  | acquire (recipient : RecipientId)
  /-- Hold it for a moment and crash. -/
  | poison (recipient : RecipientId)
  /-- Stop holding it. -/
  | release (recipient : RecipientId)
  deriving DecidableEq, Repr

/-- What became of an action. -/
inductive Result where
  | acquired
  | poisoned
  | released
  | wouldBlock
  | notHeld
  deriving DecidableEq, Repr

namespace Lock

/-- Carry out an action, unless it has to wait or there is nothing to release. -/
def act
    (lock : Lock)
    (mutexes : Mutexes Slot) :
    Action →
    Result × Mutexes Slot
  | .acquire recipient =>
      match mutexes.acquire? (lock.slot recipient) recipient with
      | some held => (.acquired, held)
      | none => (.wouldBlock, mutexes)
  | .poison recipient =>
      match mutexes.acquire? (lock.slot recipient) recipient with
      | some held => (.poisoned, held.abandon (lock.slot recipient))
      | none => (.wouldBlock, mutexes)
  | .release recipient =>
      if (mutexes (lock.slot recipient)).holder = some recipient then
        (.released, mutexes.free (lock.slot recipient))
      else
        (.notHeld, mutexes)

/-- The result of each action with the mutexes after it. -/
def actEach
    (lock : Lock)
    (mutexes : Mutexes Slot) :
    List Action →
    List (Result × Mutexes Slot)
  | [] => []
  | action :: rest =>
      let step := lock.act mutexes action
      step :: lock.actEach step.2 rest

end Lock

end PeerSession.Guard
