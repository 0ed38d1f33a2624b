import PeerSession.Storage.Backend

namespace PeerSession.Storage

/-!
# Backends with scripted faults

A scripted backend answers the next calls of a kind with the faults queued for
that kind, oldest first, and does not touch the records then. Once a queue is
empty, calls reach the backend behind it.
-/

/-- The kinds of call that a fault can be queued for. -/
inductive Call where
  | read
  | write
  | delete
  deriving DecidableEq, Repr

/-- A backend with the faults that are still to be reported. -/
structure Scripted (σ : Type) where
  backend : σ
  reads : List Error
  writes : List Error
  deletes : List Error

namespace Scripted

/-- A backend without queued faults. -/
def ofBackend {σ : Type} (backend : σ) : Scripted σ where
  backend := backend
  reads := []
  writes := []
  deletes := []

/-- Queue a fault behind those of the same kind. -/
def queue
    {σ : Type}
    (scripted : Scripted σ)
    (error : Error) :
    Call →
    Scripted σ
  | .read => { scripted with reads := scripted.reads ++ [error] }
  | .write => { scripted with writes := scripted.writes ++ [error] }
  | .delete => { scripted with deletes := scripted.deletes ++ [error] }

/-- Read a record, unless a fault is queued for reading. -/
def read
    {σ : Type}
    [Backend σ]
    (scripted : Scripted σ)
    (recipient : RecipientId) :
    Reply Bytes (Scripted σ) :=
  match scripted.reads with
  | error :: later => (.error error, { scripted with reads := later })
  | [] =>
      let (answer, backend) := Backend.read scripted.backend recipient
      (answer, { scripted with backend := backend })

/-- Replace a record, unless a fault is queued for writing. -/
def write
    {σ : Type}
    [Backend σ]
    (scripted : Scripted σ)
    (recipient : RecipientId)
    (data : Bytes) :
    Reply Unit (Scripted σ) :=
  match scripted.writes with
  | error :: later => (.error error, { scripted with writes := later })
  | [] =>
      let (answer, backend) := Backend.write scripted.backend recipient data
      (answer, { scripted with backend := backend })

/-- Remove a record, unless a fault is queued for deleting. -/
def delete
    {σ : Type}
    [Backend σ]
    (scripted : Scripted σ)
    (recipient : RecipientId) :
    Reply Unit (Scripted σ) :=
  match scripted.deletes with
  | error :: later => (.error error, { scripted with deletes := later })
  | [] =>
      let (answer, backend) := Backend.delete scripted.backend recipient
      (answer, { scripted with backend := backend })

instance {σ : Type} [Backend σ] : Backend (Scripted σ) where
  read := Scripted.read
  write := Scripted.write
  delete := Scripted.delete
  contains scripted recipient :=
    Backend.contains scripted.backend recipient

end Scripted

end PeerSession.Storage
