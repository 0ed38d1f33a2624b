namespace PeerSession

/-!
# Pointwise changes

A table that has a value for every key is a function. Changing it at one key
leaves the values of all other keys alone.
-/

/-- The table with another value at one key. -/
def update
    {α β : Type}
    [DecidableEq α]
    (table : α → β)
    (key : α)
    (value : β) :
    α → β :=
  fun other => if other = key then value else table other

end PeerSession
