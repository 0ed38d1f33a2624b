import PeerSession.Archive.Client

namespace PeerSession

/-!
# Runs of operations

The operations of clients as data, with their answers, so that whole runs can be
carried out and compared.
-/

/-- An operation of a client on an archive. -/
inductive Operation where
  | load (recipient : RecipientId)
  | openSession (recipient : RecipientId)
  | save (session : Session)
  | delete (recipient : RecipientId)
  | contains (recipient : RecipientId)
  deriving DecidableEq

/-- The recipient that an operation concerns. -/
def Operation.recipient : Operation → RecipientId
  | .load recipient => recipient
  | .openSession recipient => recipient
  | .save session => session.recipient
  | .delete recipient => recipient
  | .contains recipient => recipient

/-- What an operation answers. -/
inductive OperationAnswer where
  | loaded (attempt : Attempt Loaded)
  | opened (attempt : Attempt Session)
  | saved (attempt : Attempt (Except Archive.Error Unit))
  | deleted (attempt : Attempt (Except Archive.Error Unit))
  | contained (present : Bool)

namespace Client

variable {σ : Type} [Storage.Backend σ]

/-- Carry out one operation. -/
def perform
    (client : Client)
    (archive : Archive σ) :
    Operation →
    OperationAnswer × Archive σ
  | .load recipient =>
      let (attempt, after) := client.load archive recipient
      (.loaded attempt, after)
  | .openSession recipient =>
      let (attempt, after) := client.openSession archive recipient
      (.opened attempt, after)
  | .save session =>
      let (attempt, after) := client.save archive session
      (.saved attempt, after)
  | .delete recipient =>
      let (attempt, after) := client.delete archive recipient
      (.deleted attempt, after)
  | .contains recipient =>
      (.contained (client.contains archive recipient), archive)

end Client

namespace Archive

variable {σ : Type} [Storage.Backend σ]

/-- Carry out operations of clients, one after the other. -/
def run
    (archive : Archive σ) :
    List (Client × Operation) →
    List OperationAnswer × Archive σ
  | [] => ([], archive)
  | (client, operation) :: rest =>
      let (answer, after) := client.perform archive operation
      let (answers, last) := after.run rest
      (answer :: answers, last)

end Archive

end PeerSession
