import PeerSession.Pointwise
import PeerSession.Recipient

namespace PeerSession.Guard

/-!
# Mutexes

A mutex is free or held on behalf of one recipient. Whoever crashes while
holding it frees it and leaves it poisoned; a poisoned mutex works like any
other and stays poisoned.
-/

/-- The state of one mutex. -/
structure Mutex where
  holder : Option RecipientId
  poisoned : Bool
  deriving DecidableEq, Repr

namespace Mutex

/-- A mutex that was never held. -/
def unused : Mutex where
  holder := none
  poisoned := false

/-- Whether a mutex is held. -/
def isHeld (mutex : Mutex) : Bool :=
  mutex.holder.isSome

/-- A mutex held on behalf of a recipient. -/
def heldFor
    (mutex : Mutex)
    (recipient : RecipientId) :
    Mutex where
  holder := some recipient
  poisoned := mutex.poisoned

/-- A mutex that nobody holds any more. -/
def freed (mutex : Mutex) : Mutex where
  holder := none
  poisoned := mutex.poisoned

/-- A mutex whose holder crashed. -/
def abandoned (_mutex : Mutex) : Mutex where
  holder := none
  poisoned := true

end Mutex

/-- The states of the mutexes in a set of slots. -/
abbrev Mutexes (ι : Type) := ι → Mutex

namespace Mutexes

variable {ι : Type} [DecidableEq ι]

/-- Mutexes that were never held. -/
def unused : Mutexes ι :=
  fun _ => .unused

/-- Hold a slot's mutex on behalf of a recipient, if it is free. -/
def acquire?
    (mutexes : Mutexes ι)
    (slot : ι)
    (recipient : RecipientId) :
    Option (Mutexes ι) :=
  if (mutexes slot).isHeld then
    none
  else
    some (update mutexes slot ((mutexes slot).heldFor recipient))

/-- Free a slot's mutex. -/
def free
    (mutexes : Mutexes ι)
    (slot : ι) :
    Mutexes ι :=
  update mutexes slot (mutexes slot).freed

/-- Free a slot's mutex after a crash of its holder. -/
def abandon
    (mutexes : Mutexes ι)
    (slot : ι) :
    Mutexes ι :=
  update mutexes slot (mutexes slot).abandoned

end Mutexes

end PeerSession.Guard
