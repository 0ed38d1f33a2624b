import PeerSession.Archive.Error
import PeerSession.Record.Reading

namespace PeerSession

/-!
# Loaded sessions

A loaded session comes with how loading ended: without a record, with a whole
record, or with as much of a record as could be taken over.
-/

namespace Loaded

/-- Why loading stopped before the end of a record. -/
inductive Fault where
  | read (error : Storage.Error)
  | decode (error : Record.Error)
  deriving DecidableEq, Repr

namespace Fault

/-- The text shown for a load fault. -/
def message : Fault → String
  | .read error => "Read failed: " ++ error.text
  | .decode error => "Decode failed: " ++ error.message

/-- The texts of the errors behind this one, nearest first. -/
def causes : Fault → List String
  | .read error => [error.text]
  | .decode error => error.message :: error.causes

end Fault

/-- How loading ended. -/
inductive Status where
  | fresh
  | complete (format : Record.Format)
  | incomplete (fault : Fault)
  deriving DecidableEq, Repr

end Loaded

/-- A session with how loading it ended. -/
structure Loaded where
  session : Session
  status : Loaded.Status
  deriving DecidableEq

namespace Loaded

/-- Whether there was no record. -/
def isFresh (loaded : Loaded) : Bool :=
  match loaded.status with
  | .fresh => true
  | _ => false

/-- Whether loading stopped before the end of the record. -/
def isIncomplete (loaded : Loaded) : Bool :=
  match loaded.status with
  | .incomplete _ => true
  | _ => false

/-- The format of a record that was read to its end. -/
def format? (loaded : Loaded) : Option Record.Format :=
  match loaded.status with
  | .complete format => some format
  | _ => none

/-- Why loading stopped before the end of the record. -/
def fault? (loaded : Loaded) : Option Fault :=
  match loaded.status with
  | .incomplete fault => some fault
  | _ => none

/-- The session when reading fails: without a record that is no fault. -/
def ofReadError
    (recipient : RecipientId)
    (error : Storage.Error) :
    Loaded where
  session := .fresh recipient
  status :=
    if error.kind = .notFound then
      .fresh
    else
      .incomplete (.read error)

/-- The session of a record, with what was taken over if it is faulty. -/
def ofRecord
    (sealer : Sealer)
    (master : MasterSecret)
    (recipient : RecipientId)
    (record : Bytes) :
    Except IdentityKey.Fault Loaded :=
  match Record.decodeOver sealer master (.fresh recipient) record with
  | (session, .ok format) =>
      .ok { session := session, status := .complete format }
  | (session, .error (.rejected error)) =>
      .ok { session := session, status := .incomplete (.decode error) }
  | (_, .error (.crashed fault)) =>
      .error fault

end Loaded

end PeerSession
