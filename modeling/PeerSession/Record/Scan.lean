import PeerSession.Record.Commit
import PeerSession.Record.Error
import PeerSession.Wire.Cursor

namespace PeerSession.Record

/-!
# Scanning a record

A scan moves a cursor over a record, notes the commits it makes, and may fail.
The commits made before a failure are kept, and they do not depend on the
session that they will be applied to.
-/

/-- What a scan did: its commits, and its result with the cursor behind it. -/
structure Scanned (α : Type) where
  commits : List Commit
  ending : Except Failure (α × Wire.Cursor)

/-- A step of reading a record. -/
structure Scan (α : Type) where
  run : Wire.Cursor → Scanned α

namespace Scan

/-- Go on from where a scan ended, behind its commits. -/
def continueWith
    {α β : Type}
    (scanned : Scanned α)
    (next : α → Scan β) :
    Scanned β :=
  match scanned with
  | { commits := commits, ending := .error failure } =>
      { commits := commits, ending := .error failure }
  | { commits := commits, ending := .ok (value, cursor) } =>
      { commits := commits ++ ((next value).run cursor).commits
        ending := ((next value).run cursor).ending }

instance : Monad Scan where
  pure value :=
    { run := fun cursor => { commits := [], ending := .ok (value, cursor) } }
  bind scan next :=
    { run := fun cursor => continueWith (scan.run cursor) next }

/-- Fail, keeping what was committed. -/
def fail {α : Type} (failure : Failure) : Scan α where
  run _ := { commits := [], ending := .error failure }

/-- Take one change over. -/
def commit (change : Commit) : Scan Unit where
  run cursor := { commits := [change], ending := .ok ((), cursor) }

/-- Whether all octets are read. -/
def atEnd : Scan Bool where
  run cursor :=
    { commits := [], ending := .ok (cursor.remaining == 0, cursor) }

/-- Read one field from the cursor. -/
def ofRead
    {α : Type}
    (read : Wire.Cursor → Except Wire.Error α × Wire.Cursor) :
    Scan α where
  run cursor :=
    match read cursor with
    | (.ok value, next) =>
        { commits := [], ending := .ok (value, next) }
    | (.error error, _) =>
        { commits := [], ending := .error (.rejected (.wire error)) }

/-- Read a word. -/
def word (field : Field) : Scan UInt32 :=
  ofRead fun cursor => cursor.readWord field.name

/-- Read a flag. -/
def flag (field : Field) : Scan Bool :=
  ofRead fun cursor => cursor.readFlag field.name

/-- Read a blob. -/
def blob (field : Field) : Scan Bytes :=
  ofRead fun cursor => cursor.readBlob field.name

/-- A value alone moves nothing and commits nothing. -/
@[simp] theorem run_pure
    {α : Type}
    (value : α)
    (cursor : Wire.Cursor) :
    (pure value : Scan α).run cursor =
      { commits := [], ending := .ok (value, cursor) } :=
  rfl

/-- A sequence goes on from where its first part ended. -/
@[simp] theorem run_bind
    {α β : Type}
    (scan : Scan α)
    (next : α → Scan β)
    (cursor : Wire.Cursor) :
    (scan >>= next).run cursor = continueWith (scan.run cursor) next :=
  rfl

/-- A successful read moves the cursor and commits nothing. -/
theorem run_ofRead_ok
    {α : Type}
    {read : Wire.Cursor → Except Wire.Error α × Wire.Cursor}
    {cursor next : Wire.Cursor}
    {value : α}
    (reads : read cursor = (.ok value, next)) :
    (ofRead read).run cursor =
      { commits := [], ending := .ok (value, next) } := by
  simp only [ofRead, reads]

/-- A failing read ends the scan without a commit. -/
theorem run_ofRead_error
    {α : Type}
    {read : Wire.Cursor → Except Wire.Error α × Wire.Cursor}
    {cursor next : Wire.Cursor}
    {error : Wire.Error}
    (fails : read cursor = (.error error, next)) :
    (ofRead read).run cursor =
      { commits := [], ending := .error (.rejected (.wire error)) } := by
  simp only [ofRead, fails]

end Scan

end PeerSession.Record
