import PeerSession.Guard.Mutex
import PeerSession.Proofs.Pointwise

namespace PeerSession.Guard.Mutexes

/-!
# Acquiring and freeing

A mutex that is free can be acquired, poisoned or not, and acquiring it changes no
other one. Whoever frees it leaves it as it was before, and a crash poisons it.
-/

variable {ι : Type}

/-- No mutex is held; any of them may be poisoned. -/
def AllFree (mutexes : Mutexes ι) : Prop :=
  ∀ slot, (mutexes slot).isHeld = false

theorem allFree_unused : (unused : Mutexes ι).AllFree :=
  fun _ => rfl

variable [DecidableEq ι]

/-- The mutexes once work that held one of them is over. -/
def settle
    {ε α : Type}
    (mutexes : Mutexes ι)
    (slot : ι) :
    Except ε α →
    Mutexes ι
  | .ok _ => mutexes
  | .error _ => mutexes.abandon slot

variable {mutexes : Mutexes ι} {slot : ι}

theorem acquire?_of_free
    (free : (mutexes slot).isHeld = false)
    (recipient : RecipientId) :
    mutexes.acquire? slot recipient =
      some (update mutexes slot ((mutexes slot).heldFor recipient)) := by
  simp only [acquire?, free, Bool.false_eq_true, ↓reduceIte]

@[simp] theorem free_same (mutexes : Mutexes ι) (slot : ι) :
    mutexes.free slot slot = (mutexes slot).freed := by
  rw [free, update_eq_functionUpdate, Function.update_self]

theorem free_other
    (mutexes : Mutexes ι)
    {slot other : ι}
    (different : other ≠ slot) :
    mutexes.free slot other = mutexes other := by
  rw [free, update_eq_functionUpdate, Function.update_of_ne different]

@[simp] theorem abandon_same (mutexes : Mutexes ι) (slot : ι) :
    mutexes.abandon slot slot = (mutexes slot).abandoned := by
  rw [abandon, update_eq_functionUpdate, Function.update_self]

theorem abandon_other
    (mutexes : Mutexes ι)
    {slot other : ι}
    (different : other ≠ slot) :
    mutexes.abandon slot other = mutexes other := by
  rw [abandon, update_eq_functionUpdate, Function.update_of_ne different]

/-- Freeing the mutex that was just acquired leaves the mutexes as they were. -/
theorem free_heldFor
    (free : (mutexes slot).isHeld = false)
    (recipient : RecipientId) :
    Mutexes.free
        (update mutexes slot ((mutexes slot).heldFor recipient)) slot =
      mutexes := by
  have unheld : (mutexes slot).holder = none :=
    Option.isNone_iff_eq_none.mp (Option.isSome_eq_false_iff.mp free)
  have same :
      ((mutexes slot).heldFor recipient).freed = mutexes slot := by
    rw [Mutex.freed, Mutex.heldFor, ← unheld]
  simp only [Mutexes.free, update_eq_functionUpdate,
    Function.update_self, same, Function.update_idem,
    Function.update_eq_self]

theorem abandon_heldFor
    (mutexes : Mutexes ι)
    (slot : ι)
    (recipient : RecipientId) :
    abandon (update mutexes slot ((mutexes slot).heldFor recipient)) slot =
      mutexes.abandon slot := by
  simp only [abandon, update_eq_functionUpdate, Function.update_idem]
  rfl

/-- A crash frees what was free before, and every other mutex stays as it is. -/
theorem isHeld_abandon
    (free : (mutexes slot).isHeld = false)
    (other : ι) :
    (mutexes.abandon slot other).isHeld = (mutexes other).isHeld := by
  by_cases same : other = slot
  · subst same
    rw [abandon_same, free]
    rfl
  · rw [abandon_other mutexes same]

/-- Holding a mutex poisons none and cures none. -/
theorem poisoned_heldFor
    (mutexes : Mutexes ι)
    (slot other : ι)
    (recipient : RecipientId) :
    (update mutexes slot ((mutexes slot).heldFor recipient) other).poisoned =
      (mutexes other).poisoned := by
  rw [update_eq_functionUpdate]
  by_cases here : other = slot
  · rw [here, Function.update_self]
    rfl
  · rw [Function.update_of_ne here]

/-- Freeing a mutex poisons none and cures none. -/
theorem poisoned_free
    (mutexes : Mutexes ι)
    (slot other : ι) :
    (mutexes.free slot other).poisoned = (mutexes other).poisoned := by
  by_cases here : other = slot
  · rw [here, free_same]
    rfl
  · rw [free_other mutexes here]

/-- A mutex that is held cannot be acquired. -/
theorem acquire?_of_held
    (held : (mutexes slot).isHeld = true)
    (recipient : RecipientId) :
    mutexes.acquire? slot recipient = none := by
  simp only [acquire?, held, ↓reduceIte]

end PeerSession.Guard.Mutexes
