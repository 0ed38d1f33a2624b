import PeerSession.Archive.Basic
import PeerSession.Archive.Loaded
import PeerSession.Record.Writing

namespace PeerSession

/-!
# Clients of an archive

A client loads, saves and deletes sessions. Loading never fails, so that a
damaged record costs no more than its damaged part. Saving writes the newest
format and reports every failure, since a lost save would leave the two peers
with diverging sessions.
-/

/-- How one user accesses an archive. -/
structure Client where
  sealer : Sealer
  master : MasterSecret
  lock : Guard.Lock

/-- What became of work that can crash at a stored identity key. -/
abbrev Attempt (α : Type) := Outcome IdentityKey.Fault α

namespace Client

variable {σ : Type} [Storage.Backend σ]

/-- A client that seals plainly and uses the lock of the process. -/
def standard (master : MasterSecret) : Client where
  sealer := .plain
  master := master
  lock := .process

/-- The session that a reply of the backend stands for. -/
def interpret
    (client : Client)
    (recipient : RecipientId) :
    Except Storage.Error Bytes →
    Except IdentityKey.Fault Loaded
  | .ok record =>
      Loaded.ofRecord client.sealer client.master recipient record
  | .error error => .ok (Loaded.ofReadError recipient error)

/-- Load a recipient's session and say how loading ended. -/
def load
    (client : Client)
    (archive : Archive σ)
    (recipient : RecipientId) :
    Attempt Loaded × Archive σ :=
  archive.guarded (client.lock.slot recipient) recipient fun backend =>
    let (answer, after) := Storage.Backend.read backend recipient
    (client.interpret recipient answer, after)

/-- Load a recipient's session. -/
def openSession
    (client : Client)
    (archive : Archive σ)
    (recipient : RecipientId) :
    Attempt Session × Archive σ :=
  let (attempt, after) := client.load archive recipient
  (attempt.map Loaded.session, after)

/-- Save a session; one that cannot be encoded does not reach the archive. -/
def save
    (client : Client)
    (archive : Archive σ)
    (session : Session) :
    Attempt (Except Archive.Error Unit) × Archive σ :=
  let recipient := session.recipient
  match Record.encode client.sealer client.master session with
  | .error error => (.finished (.error (.encode recipient error)), archive)
  | .ok record =>
      archive.guarded (client.lock.slot recipient) recipient fun backend =>
        let (answer, after) := Storage.Backend.write backend recipient record
        (.ok (answer.mapError (.save recipient)), after)

/-- What deleting reports: a record that is missing is as good as deleted. -/
def deleted
    (recipient : RecipientId) :
    Except Storage.Error Unit →
    Except Archive.Error Unit
  | .ok () => .ok ()
  | .error error =>
      if error.kind = .notFound then
        .ok ()
      else
        .error (.delete recipient error)

/-- Delete a recipient's record. -/
def delete
    (client : Client)
    (archive : Archive σ)
    (recipient : RecipientId) :
    Attempt (Except Archive.Error Unit) × Archive σ :=
  archive.guarded (client.lock.slot recipient) recipient fun backend =>
    let (answer, after) := Storage.Backend.delete backend recipient
    (.ok (deleted recipient answer), after)

/-- Whether a recipient has a record; this needs no lock. -/
def contains
    (_client : Client)
    (archive : Archive σ)
    (recipient : RecipientId) :
    Bool :=
  Storage.Backend.contains archive.backend recipient

end Client

end PeerSession
