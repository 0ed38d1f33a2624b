import PeerSession.Guard.Lock
import PeerSession.Storage.Backend

namespace PeerSession

/-!
# Archives

An archive is what its clients share: a backend with the records, and the
mutexes that guard them. Whatever a client does with a record happens while the
record's mutex is held. A crash frees the mutex as well, but leaves it poisoned.
-/

/-- The records and mutexes that clients share. -/
structure Archive (σ : Type) where
  backend : σ
  mutexes : Guard.Mutexes Guard.Slot

/-- What became of guarded work: it ended, it crashed, or it still has to wait. -/
inductive Outcome (ε α : Type) where
  | finished (value : α)
  | crashed (fault : ε)
  | blocked
  deriving DecidableEq

namespace Outcome

/-- Change the value of finished work. -/
def map
    {ε α β : Type}
    (change : α → β) :
    Outcome ε α →
    Outcome ε β
  | .finished value => .finished (change value)
  | .crashed fault => .crashed fault
  | .blocked => .blocked

end Outcome

namespace Archive

/-- An archive whose mutexes were never held. -/
def ofBackend {σ : Type} (backend : σ) : Archive σ where
  backend := backend
  mutexes := .unused

/-- Work on the backend while a mutex is held on behalf of a recipient. -/
def guarded
    {σ ε α : Type}
    (archive : Archive σ)
    (slot : Guard.Slot)
    (recipient : RecipientId)
    (work : σ → Except ε α × σ) :
    Outcome ε α × Archive σ :=
  match archive.mutexes.acquire? slot recipient with
  | none => (.blocked, archive)
  | some held =>
      match work archive.backend with
      | (.ok value, backend) =>
          (.finished value, { backend := backend, mutexes := held.free slot })
      | (.error fault, backend) =>
          (.crashed fault, { backend := backend, mutexes := held.abandon slot })

end Archive

end PeerSession
