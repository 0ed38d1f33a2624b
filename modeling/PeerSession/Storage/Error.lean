namespace PeerSession.Storage

/-!
# Storage errors

A storage error has a kind, on which decisions are based, and the text that is
shown for it. The list of kinds is open: one without a constructor of its own is
known by its name.
-/

/-- The kinds of storage error. -/
inductive ErrorKind where
  | notFound
  | permissionDenied
  | alreadyExists
  | invalidInput
  | invalidData
  | unexpectedEof
  | interrupted
  | timedOut
  | wouldBlock
  | writeZero
  | isADirectory
  | notADirectory
  | invalidFilename
  | storageFull
  | other (name : String)
  deriving DecidableEq, Repr

/-- Why a storage operation failed. -/
structure Error where
  kind : ErrorKind
  text : String
  deriving DecidableEq, Repr

end PeerSession.Storage
