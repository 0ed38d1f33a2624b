namespace PeerSession

/-!
# Protocol versions

Records keep a version as a word. One word stands for "no version yet"; it is
never reported as such, but as 0, and differs from the stored word 0.
-/

/-- A protocol version as it is stored. -/
structure Version where
  raw : UInt32
  deriving DecidableEq, Repr

namespace Version

/-- The stored word of a version that is not known yet. -/
def unset : Version where
  raw := 31337

/-- Whether a version is known. -/
def isSet (version : Version) : Bool :=
  version ≠ unset

/-- The version as reported, 0 when it is not known. -/
def reported (version : Version) : UInt32 :=
  if version = unset then
    0
  else
    version.raw

end Version

end PeerSession
