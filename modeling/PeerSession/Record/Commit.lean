import PeerSession.Session.Basic

namespace PeerSession

/-!
# Commits

Reading a record takes fields over as soon as they are complete. Each take-over
is one commit. The fingerprints come together, and a session can only become
verified, never unverified.
-/

namespace Record

/-- One step of taking a record over into a session. -/
inductive Commit where
  | counter (counter : UInt32)
  | id (id : SessionId)
  | version (version : Version)
  | identity (identity : Option IdentityKey)
  | verified
  | prekeyRequired (required : Bool)
  | negotiated (version : Version)
  | key (key : SessionKey)
  deriving DecidableEq

end Record

namespace Session

/-- The session after one commit. -/
def commit (session : Session) : Record.Commit → Session
  | .counter counter => { session with counter := counter }
  | .id id => { session with id := id }
  | .version version => { session with version := version }
  | .identity identity => { session with identity := identity }
  | .verified => { session with verified := true }
  | .prekeyRequired required => { session with prekeyRequired := required }
  | .negotiated version => { session with negotiated := version }
  | .key key => { session with key := some key }

/-- The session after several commits, in order. -/
def commitAll (session : Session) (commits : List Record.Commit) : Session :=
  commits.foldl commit session

/-- No commit touches the recipient. -/
@[simp] theorem recipient_commit
    (session : Session)
    (change : Record.Commit) :
    (session.commit change).recipient = session.recipient := by
  cases change <;> rfl

/-- The first commit is made first. -/
@[simp] theorem commitAll_cons
    (session : Session)
    (change : Record.Commit)
    (commits : List Record.Commit) :
    session.commitAll (change :: commits) =
      (session.commit change).commitAll commits :=
  rfl

/-- Commits are taken over one part after the other. -/
theorem commitAll_append
    (session : Session)
    (front back : List Record.Commit) :
    session.commitAll (front ++ back) =
      (session.commitAll front).commitAll back :=
  List.foldl_append

@[simp] theorem recipient_commitAll
    (session : Session)
    (commits : List Record.Commit) :
    (session.commitAll commits).recipient = session.recipient := by
  induction commits generalizing session with
  | nil =>
      rfl
  | cons change commits inductionHypothesis =>
      rw [commitAll_cons, inductionHypothesis, recipient_commit]

/-- Only the commit of a key touches the session key. -/
theorem key_commitAll
    (session : Session)
    {commits : List Record.Commit}
    (keyless : ∀ key, .key key ∉ commits) :
    (session.commitAll commits).key = session.key := by
  induction commits generalizing session with
  | nil =>
      rfl
  | cons change commits inductionHypothesis =>
      have laterKeyless : ∀ key, .key key ∉ commits :=
        fun key member =>
          keyless key (List.mem_cons_of_mem change member)
      rw [commitAll_cons, inductionHypothesis _ laterKeyless]
      cases change with
      | key key =>
          exact (keyless key (List.mem_cons_self ..)).elim
      | _ =>
          rfl

end Session

end PeerSession
