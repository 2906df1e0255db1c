import MemoryWriteAhead.Library.Transition
import MemoryWriteAhead.Library.FlatFile
import MemoryWriteAhead.Library.ZeroFile
import MemoryWriteAhead.Library.Outcome
import MemoryWriteAhead.Library.RetryLoop
import MemoryWriteAhead.Library.OrderedMap
import MemoryWriteAhead.Library.Encoding
import MemoryWriteAhead.Library.Versions
import MemoryWriteAhead.Library.Changes
import MemoryWriteAhead.Clock
import MemoryWriteAhead.Storage.Model
import MemoryWriteAhead.Storage.Layout
import MemoryWriteAhead.Storage.Refinement
import MemoryWriteAhead.Storage.Gaps
import MemoryWriteAhead.Storage.Options
import MemoryWriteAhead.Storage.Bounds
import MemoryWriteAhead.Counters
import MemoryWriteAhead.Lease.Model
import MemoryWriteAhead.Lease.Stages
import MemoryWriteAhead.Lease.Ledger
import MemoryWriteAhead.Lease.Accounts
import MemoryWriteAhead.Lease.Exact
import MemoryWriteAhead.Lease.Watch
import MemoryWriteAhead.Lease.Reset
import MemoryWriteAhead.Lease.Stranded
import MemoryWriteAhead.Lease.Reclaim
import MemoryWriteAhead.Lease.Race
import MemoryWriteAhead.Lease.Aborted
import MemoryWriteAhead.AttachedLock.Model
import MemoryWriteAhead.AttachedLock.Safety
import MemoryWriteAhead.AttachedLock.Orphan
import MemoryWriteAhead.FileLock.Model
import MemoryWriteAhead.FileLock.Calm
import MemoryWriteAhead.FileLock.Holder
import MemoryWriteAhead.FileLock.Recovery
import MemoryWriteAhead.FileLock.Departed
import MemoryWriteAhead.FileLock.Abandoned
import MemoryWriteAhead.Liveness
import MemoryWriteAhead.Storage.Handle
import MemoryWriteAhead.Storage.HighWater
import MemoryWriteAhead.Registry.Model
import MemoryWriteAhead.Registry.Refused
import MemoryWriteAhead.Connection.Model
import MemoryWriteAhead.Connection.Writer
import MemoryWriteAhead.WriteAhead.Model
import MemoryWriteAhead.WriteAhead.Log
import MemoryWriteAhead.WriteAhead.TakeUp
import MemoryWriteAhead.WriteAhead.Pending
import MemoryWriteAhead.WriteAhead.Placed
import MemoryWriteAhead.WriteAhead.View
import MemoryWriteAhead.WriteAhead.Forget
import MemoryWriteAhead.WriteAhead.Draft
import MemoryWriteAhead.WriteAhead.Author
import MemoryWriteAhead.WriteAhead.Opening
import MemoryWriteAhead.WriteAhead.Shared
import MemoryWriteAhead.WriteAhead.Consistency
import MemoryWriteAhead.WriteAhead.Interleaving
import MemoryWriteAhead.WriteAhead.Contents
import MemoryWriteAhead.WriteAhead.Backfill
import MemoryWriteAhead.WriteAhead.PageStore
import MemoryWriteAhead.WriteAhead.Faithful
import MemoryWriteAhead.WriteAhead.Snapshot
import MemoryWriteAhead.WriteAhead.LockName
import MemoryWriteAhead.WriteAhead.Format
import MemoryWriteAhead.MainDb.Model
import MemoryWriteAhead.MainDb.AtomicBatch
import MemoryWriteAhead.MainDb.Paging
import MemoryWriteAhead.Primary.Model
import MemoryWriteAhead.Primary.Refinement
import MemoryWriteAhead.Primary.Deferred
import MemoryWriteAhead.OpenFiles.Model
import MemoryWriteAhead.OpenFiles.Sharing
import MemoryWriteAhead.OpenFiles.Opening
import MemoryWriteAhead.OpenFiles.FailedOpen
import MemoryWriteAhead.Statement.Model
import MemoryWriteAhead.Statement.Calls
import MemoryWriteAhead.Statement.Handover
