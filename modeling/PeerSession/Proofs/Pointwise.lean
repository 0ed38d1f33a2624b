import Mathlib.Logic.Function.Basic
import PeerSession.Pointwise

namespace PeerSession

/-!
# Pointwise changes as updates of functions

Programs change tables by a definition of their own, which needs no library. It is the
update of a function, so that whatever is known of those holds of tables.
-/

variable {α β : Type} [DecidableEq α]

theorem update_eq_functionUpdate (table : α → β) (key : α) (value : β) :
    update table key value = Function.update table key value := by
  funext other
  rw [update, Function.update_apply]

/-- The changed table has the new value at one key, and old ones elsewhere. -/
theorem update_eq_iff
    {table : α → β}
    {key other : α}
    {value found : β} :
    update table key value other = found ↔
      other = key ∧ value = found ∨ other ≠ key ∧ table other = found :=
  ite_eq_iff

end PeerSession
