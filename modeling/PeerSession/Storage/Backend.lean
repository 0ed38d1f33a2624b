import PeerSession.Bytes
import PeerSession.Recipient
import PeerSession.Storage.Error

namespace PeerSession.Storage

/-!
# Backends

A backend keeps one record per recipient and only moves octets. It knows nothing
of locks, formats or error policy. A missing record is reported as not found.
-/

/-- What a call of a backend answers, with the backend after it. -/
abbrev Reply (α σ : Type) := Except Error α × σ

/-- Storage of one record per recipient. -/
class Backend (σ : Type) where
  /-- Read the whole record. -/
  read : σ → RecipientId → Reply Bytes σ
  /-- Replace the record, creating it if needed. -/
  write : σ → RecipientId → Bytes → Reply Unit σ
  /-- Remove the record. -/
  delete : σ → RecipientId → Reply Unit σ
  /-- Whether there is a record. -/
  contains : σ → RecipientId → Bool

end PeerSession.Storage
