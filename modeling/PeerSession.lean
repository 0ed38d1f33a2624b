import PeerSession.Bytes
import PeerSession.Bytes.Hex
import PeerSession.Recipient
import PeerSession.Wire.Error
import PeerSession.Wire.Word
import PeerSession.Wire.Value
import PeerSession.Wire.Cursor
import PeerSession.Wire.Schema
import PeerSession.Key.Error
import PeerSession.Key.Identity
import PeerSession.Key.Session
import PeerSession.Key.Sealer
import PeerSession.Session.Version
import PeerSession.Session.Basic
import PeerSession.Session.Edit
import PeerSession.Session.Description
import PeerSession.Record.Format
import PeerSession.Record.Field
import PeerSession.Record.Error
import PeerSession.Record.Commit
import PeerSession.Record.Scan
import PeerSession.Record.Reading
import PeerSession.Record.Layout
import PeerSession.Record.Writing
import PeerSession.Pointwise
import PeerSession.Storage.Error
import PeerSession.Storage.Backend
import PeerSession.Storage.Overwrite
import PeerSession.Storage.Memory
import PeerSession.Storage.PathPart
import PeerSession.Storage.Path
import PeerSession.Storage.FileTree.Basic
import PeerSession.Storage.FileTree.Lemmas
import PeerSession.Storage.FileTree.Walk
import PeerSession.Storage.FileTree.Files
import PeerSession.Storage.FileTree.Directories
import PeerSession.Storage.Folder
import PeerSession.Storage.Scripted
import PeerSession.Guard.Shards
import PeerSession.Guard.Handle
import PeerSession.Guard.Mutex
import PeerSession.Guard.Lock
import PeerSession.Settings
import PeerSession.Archive.Error
import PeerSession.Archive.Loaded
import PeerSession.Archive.Basic
import PeerSession.Archive.Client
import PeerSession.Archive.Operation
import PeerSession.Archive.Rounds
import PeerSession.Proofs.Guard.Mutexes
import PeerSession.Proofs.Guard.Exclusion
import PeerSession.Proofs.Record.Script
import PeerSession.Proofs.Record.Following
import PeerSession.Proofs.Record.LayoutScript
import PeerSession.Proofs.Record.LayoutReading
import PeerSession.Proofs.Record.Contents
import PeerSession.Proofs.Record.Reads
import PeerSession.Proofs.Record.RoundTrip
import PeerSession.Proofs.Record.Acceptance
import PeerSession.Proofs.Record.Interruption
import PeerSession.Proofs.Record.Truncation
import PeerSession.Proofs.Record.OlderLayouts
import PeerSession.Proofs.Record.Migration
import PeerSession.Proofs.Record.Verification
import PeerSession.Proofs.Record.Residue
import PeerSession.Proofs.Record.Surplus
import PeerSession.Proofs.Record.Disclosure
import PeerSession.Proofs.Archive.Unguarded
import PeerSession.Proofs.Archive.Verification
import PeerSession.Proofs.Archive.LastSaved
import PeerSession.Proofs.Archive.Disclosure
import PeerSession.Proofs.Archive.Isolation
import PeerSession.Proofs.Storage.FileTree
import PeerSession.Proofs.Storage.Opening
import PeerSession.Proofs.Storage.Mirroring
import PeerSession.Proofs.Archive.Backends
import PeerSession.Proofs.Key.PlainSealer
import PeerSession.Proofs.Key.IdentityParsing
import PeerSession.Proofs.Session.LastWrites
import PeerSession.Proofs.Wire.Requests
import PeerSession.Proofs.Wire.Buffers
import PeerSession.Proofs.Record.Addressing
import PeerSession.Proofs.Record.Crashes
import PeerSession.Proofs.Archive.Crashes
import PeerSession.Proofs.Archive.Faults
import PeerSession.Proofs.Archive.Observers
import PeerSession.Proofs.Storage.Keeping
import PeerSession.Proofs.Storage.Stages
import PeerSession.Proofs.Archive.Rounds
import PeerSession.Proofs.Archive.Interleaving
import PeerSession.Proofs.Archive.Surplus
import PeerSession.Proofs.Archive.Site
import PeerSession.Proofs.Archive.WholeRecords
import PeerSession.Proofs.Guard.Descent
import PeerSession.Proofs.Key.Fingerprint
import PeerSession.Proofs.Storage.Replacement
import PeerSession.Proofs.Guard.Sharding
