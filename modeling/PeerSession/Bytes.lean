namespace PeerSession

/-!
# Octets

Records, keys and fingerprints are finite sequences of octets. They are kept as
lists, so that every layout is a concatenation.
-/

/-- A finite sequence of octets. -/
abbrev Bytes := List UInt8

end PeerSession
