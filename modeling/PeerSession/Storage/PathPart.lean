namespace PeerSession.Storage

/-!
# Parts of a path

The text of a path is divided by slashes. Empty parts mean nothing. Every other
part leads to a name in a directory, to the same directory again, or to the one
above it; above the root is the root.
-/

/-- One part of a path: a name, the same directory, or the one above it. -/
inductive PathPart where
  | name (name : String)
  | same
  | above
  deriving DecidableEq, Repr

namespace PathPart

/-- The longest name that a directory can hold, in octets. -/
def longestName : Nat := 255

/-- Whether a part can be looked up at all: its name must not be too long. -/
def fits : PathPart → Bool
  | .name entry => entry.utf8ByteSize ≤ longestName
  | .same => true
  | .above => true

/-- The part that a text between slashes stands for, if it is not empty. -/
def ofText? (text : String) : Option PathPart :=
  if text = "" then
    none
  else if text = "." then
    some .same
  else if text = ".." then
    some .above
  else
    some (.name text)

/-- The parts of a path text. -/
def ofPathText (text : String) : List PathPart :=
  (text.splitOn "/").filterMap ofText?

/-- A part as it is shown; the same directory is not shown. -/
def shown? : PathPart → Option String
  | .name entry => some entry
  | .same => none
  | .above => some ".."

end PathPart

end PeerSession.Storage
