import PeerSession.Recipient

namespace PeerSession.Guard

/-!
# Shards

Recipients are spread over a fixed number of shards by their identifiers. There
is always at least one shard.
-/

/-- A positive number of shards. -/
@[ext] structure Shards where
  count : UInt64
  positive : 0 < count.toNat
  deriving DecidableEq

namespace Shards

/-- A number of shards, raised to one if it is none. -/
def ofCount (count : UInt64) : Shards :=
  if positive : 0 < count.toNat then
    { count := count, positive := positive }
  else
    { count := 1, positive := by decide }

/-- The shard of a recipient. -/
def index
    (shards : Shards)
    (recipient : RecipientId) :
    UInt64 :=
  recipient % shards.count

/-- The number of shards asked for, raised to one if it is none. -/
theorem toNat_count_ofCount (count : UInt64) :
    (ofCount count).count.toNat = max count.toNat 1 := by
  by_cases positive : 0 < count.toNat
  · simp only [ofCount, positive, dite_true]
    omega
  · simp only [ofCount, positive, dite_false]
    have none : count.toNat = 0 := by
      omega
    simp [none]

/-- A number that is positive already is not raised. -/
theorem ofCount_count (shards : Shards) : ofCount shards.count = shards :=
  dif_pos shards.positive

/-- The shard of a recipient is the remainder of its identifier. -/
theorem toNat_index
    (shards : Shards)
    (recipient : RecipientId) :
    (shards.index recipient).toNat =
      recipient.toNat % shards.count.toNat :=
  UInt64.toNat_mod recipient shards.count

theorem toNat_index_ofCount
    (count : UInt64)
    (recipient : RecipientId) :
    ((ofCount count).index recipient).toNat =
      recipient.toNat % max count.toNat 1 := by
  rw [toNat_index, toNat_count_ofCount]

end Shards

end PeerSession.Guard
