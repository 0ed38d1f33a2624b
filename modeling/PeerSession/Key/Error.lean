namespace PeerSession.Key

/-!
# Key errors

Key material is refused either with a reason or, for a sealed session key, as
malformed without saying where.
-/

/-- Why key material was refused. -/
inductive Error where
  | invalidMaterial (reason : String)
  | malformedSessionKey
  deriving DecidableEq, Repr

/-- The text shown for a key error. -/
def Error.message : Error → String
  | .invalidMaterial reason => "Invalid key material: " ++ reason
  | .malformedSessionKey => "Session key blob is malformed"

end PeerSession.Key
