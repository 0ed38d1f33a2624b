import PeerSession.Bytes

namespace PeerSession

/-!
# Session keys and the master secret

A session key is the ratchet's key material for one pair of key identifiers.
The master secret is handed to whoever seals session keys and is never stored.
Neither shows its secret octets, and both can be erased.
-/

/-- The pair of key identifiers that key material was derived for. -/
structure KeyIds where
  localId : UInt32
  remoteId : UInt32
  deriving DecidableEq, Repr

/-- Ratchet key material for one pair of key identifiers. -/
structure SessionKey where
  ids : KeyIds
  cipher : Bytes
  mac : Bytes
  deriving DecidableEq, Repr

/-- What is left of a session key once its secrets are erased. -/
def SessionKey.erased (_key : SessionKey) : SessionKey where
  ids := { localId := 0, remoteId := 0 }
  cipher := []
  mac := []

/-- A session key as it is shown in diagnostics: identifiers only. -/
def SessionKey.description (key : SessionKey) : String :=
  "SessionKey \x7b local_key_id: " ++ toString key.ids.localId.toNat ++
    ", remote_key_id: " ++ toString key.ids.remoteId.toNat ++ ", .. \x7d"

/-- The secret under which session keys are sealed. -/
structure MasterSecret where
  bytes : Bytes
  deriving DecidableEq

/-- What is left of a master secret once it is erased. -/
def MasterSecret.erased (_master : MasterSecret) : MasterSecret where
  bytes := []

/-- A master secret as it is shown in diagnostics: nothing of it. -/
def MasterSecret.description (_master : MasterSecret) : String :=
  "MasterSecret(..)"

end PeerSession
