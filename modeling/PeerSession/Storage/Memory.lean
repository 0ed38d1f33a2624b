import PeerSession.Pointwise
import PeerSession.Storage.Backend
import PeerSession.Storage.Overwrite

namespace PeerSession.Storage

/-!
# Records in memory

A table from recipients to records, which also counts how often each record was
written. Putting a record in place directly is not counted, and the count of a
record survives its removal.
-/

/-- Records and write counts, by recipient. -/
structure Memory where
  records : RecipientId → Option Bytes
  writes : RecipientId → Nat

namespace Memory

/-- A memory without records. -/
def empty : Memory where
  records := fun _ => none
  writes := fun _ => 0

/-- The error for a recipient without a record. -/
def missing : Error where
  kind := .notFound
  text := "no such record"

/-- Put a record in place. -/
def put
    (memory : Memory)
    (recipient : RecipientId)
    (record : Bytes) :
    Memory where
  records := update memory.records recipient (some record)
  writes := memory.writes

/-- Read a record. -/
def read
    (memory : Memory)
    (recipient : RecipientId) :
    Reply Bytes Memory :=
  match memory.records recipient with
  | some record => (.ok record, memory)
  | none => (.error missing, memory)

/-- Overwrite a record in place, or a new empty one, and count the write. -/
def write
    (memory : Memory)
    (recipient : RecipientId)
    (data : Bytes) :
    Reply Unit Memory :=
  let old := (memory.records recipient).getD []
  (.ok (),
    { records :=
        update memory.records recipient (some (replaceGrowing old data))
      writes :=
        update memory.writes recipient (memory.writes recipient + 1) })

/-- Remove a record. -/
def delete
    (memory : Memory)
    (recipient : RecipientId) :
    Reply Unit Memory :=
  match memory.records recipient with
  | some _ =>
      (.ok (),
        { records := update memory.records recipient none
          writes := memory.writes })
  | none => (.error missing, memory)

/-- Whether there is a record. -/
def contains
    (memory : Memory)
    (recipient : RecipientId) :
    Bool :=
  (memory.records recipient).isSome

/-- Reading leaves the records as they are. -/
@[simp] theorem read_snd
    (memory : Memory)
    (recipient : RecipientId) :
    (memory.read recipient).2 = memory := by
  unfold read
  split <;> rfl

/-- Whatever was there before, a record is exactly what was written last. -/
theorem write_eq
    (memory : Memory)
    (recipient : RecipientId)
    (data : Bytes) :
    memory.write recipient data =
      (.ok (),
        { records := update memory.records recipient (some data)
          writes :=
            update memory.writes recipient
              (memory.writes recipient + 1) }) := by
  simp only [write, replaceGrowing_eq]

instance : Backend Memory where
  read := Memory.read
  write := Memory.write
  delete := Memory.delete
  contains := Memory.contains

end Memory

end PeerSession.Storage
