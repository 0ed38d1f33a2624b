import PeerSession.Archive.Client
import PeerSession.Session.Edit

namespace PeerSession.Client

/-!
# Rounds

A round opens a recipient's session, increments its counter and saves it. Rounds
for different recipients do not meet, so carrying them out one recipient after
the other leaves what any interleaving leaves.
-/

variable {σ : Type} [Storage.Backend σ]

/-- Carry out one round, and say whether the session could be opened. -/
def round
    (client : Client)
    (recipient : RecipientId)
    (archive : Archive σ) :
    Bool × Archive σ :=
  match client.openSession archive recipient with
  | (.finished session, opened) =>
      (true, (client.save opened (session.edit .incrementCounter)).2)
  | (_, opened) => (false, opened)

/-- Carry out rounds for one recipient, ending early if its session cannot be opened. -/
def rounds
    (client : Client)
    (recipient : RecipientId) :
    Nat →
    Archive σ →
    Archive σ
  | 0, archive => archive
  | count + 1, archive =>
      match client.round recipient archive with
      | (true, after) => client.rounds recipient count after
      | (false, after) => after

/-- Carry out rounds for several recipients. -/
def roundsForAll
    (client : Client)
    (count : Nat)
    (recipients : List RecipientId)
    (archive : Archive σ) :
    Archive σ :=
  recipients.foldl
    (fun before recipient => client.rounds recipient count before)
    archive

end PeerSession.Client
