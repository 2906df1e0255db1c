/-
  MemoryWriteAhead.MainDb.Model
  ─────────────────────────────
  **THE PAGES OF A MAIN DATABASE FILE.**

  `MemoryWriteAheadVFS.ts`: `jRead`, `jWrite`, `jTruncate`, `jFileSize` and what
  `jFileControl` does about pages and transactions, for a file that is open with
  `SQLITE_OPEN_MAIN_DB`.  A primary file has a `writeAhead`; an attached one has
  none, and its calls go to the shared file through its `accessHandle`.

  The buffer `pData` of a read is given and returned.  What a call logs, and the
  `lastError` it keeps, are left out.
-/
import MemoryWriteAhead.WriteAhead.Model
import MemoryWriteAhead.Storage.Gaps

namespace MemoryWriteAhead.MainDb

open ZeroFile
open Storage (SharedFile readMemoryWriteAheadFile writeMemoryWriteAheadFile
  truncateMemoryWriteAheadFile getFileSizeBytes)
open WriteAhead (World)

/-! ## §1. The file. -/

/-- What holds the pages. -/
inductive Backing where
  | writeAhead (world : World)
  | accessHandle (file : SharedFile)

/-- The page fields of a `MemoryWriteAheadOpenFile`. -/
structure MainFile where
  backing : Backing
  /-- `SQLITE_FCNTL_OVERWRITE` has been issued -/
  overwrite : Bool
  /-- the last valid value of `PRAGMA page_size` -/
  pageSize : Option Nat

/-- The result codes of the page methods. -/
inductive PageRc where
  | ok
  | ioerr
  | ioerrRead
  | ioerrShortRead
  | ioerrWrite
  | ioerrTruncate
  | notFound
  deriving DecidableEq, Repr

/-- The answers of the environment to one call. -/
structure CallEnv where
  /-- the random salt of a log file that is begun -/
  salt2 : BitVec 32
  /-- which growths the platform grants -/
  granted : Nat → Bool

namespace MainFile

/-- `open` of a primary file leaves no page size and no overwrite. -/
def opened (backing : Backing) : MainFile := ⟨backing, false, none⟩

def withWorld (file : MainFile) (w : World) : MainFile := { file with backing := .writeAhead w }

def withFile (file : MainFile) (shared : SharedFile) : MainFile :=
  { file with backing := .accessHandle shared }

/-- The option `dstPageSize` of a write. -/
def dstPageSize (file : MainFile) (byteLength : Nat) : Option Nat :=
  if file.overwrite = true ∧ file.pageSize ≠ some byteLength then file.pageSize else none

end MainFile

/-! ## §2. Reading. -/

/-- The end of `jRead`: the bytes that were read, and zeros behind them. -/
def readInto (pData bytesRead : List UInt8) : PageRc × List UInt8 :=
  (if bytesRead.length < pData.length then .ioerrShortRead else .ok,
    bytesRead ++ List.replicate (pData.length - bytesRead.length) 0)

def jRead (file : MainFile) (pData : List UInt8) (iOffset : Nat) : PageRc × List UInt8 :=
  match file.backing with
  | .writeAhead w =>
      -- SQLite reads parts of page 1 only
      let pageOffset := if iOffset < 100 then iOffset else 0
      match w.read (iOffset - pageOffset) with
      | .error _ => (.ioerrRead, pData)
      | .ok (some page) => readInto pData (readAt page pageOffset pData.length)
      | .ok none => readInto pData (readAt w.store.db iOffset pData.length)
  | .accessHandle shared => readInto pData (readMemoryWriteAheadFile shared pData.length iOffset)

def jFileSize (file : MainFile) : Int :=
  match file.backing with
  | .writeAhead w => w.conn.getFileSize
  | .accessHandle shared => getFileSizeBytes shared

/-! ## §3. Writing. -/

def jWrite (env : CallEnv) (file : MainFile) (pData : List UInt8) (iOffset : Nat) :
    PageRc × MainFile :=
  match file.backing with
  | .writeAhead w =>
      match WriteAhead.write env.salt2 iOffset pData (file.dstPageSize pData.length) w with
      | .ok _ w => (.ok, file.withWorld w)
      | .error _ w => (.ioerrWrite, file.withWorld w)
  | .accessHandle shared =>
      match writeMemoryWriteAheadFile env.granted shared pData iOffset with
      | (shared, .returned _) => (.ok, file.withFile shared)
      | (shared, _) => (.ioerrWrite, file.withFile shared)

def jTruncate (env : CallEnv) (file : MainFile) (iSize : Nat) : PageRc × MainFile :=
  match file.backing with
  | .writeAhead w =>
      match WriteAhead.truncate iSize w with
      | .ok _ w => (.ok, file.withWorld w)
      | .error _ w => (.ioerrTruncate, file.withWorld w)
  | .accessHandle shared =>
      match truncateMemoryWriteAheadFile env.granted shared iSize with
      | (shared, .returned _) => (.ok, file.withFile shared)
      | (shared, _) => (.ioerrTruncate, file.withFile shared)

/-! ## §4. File controls. -/

inductive FileControl where
  /-- `PRAGMA page_size` with the number that its value parses to -/
  | pragmaPageSize (parsed : Option Int)
  | beginAtomicWrite
  | commitAtomicWrite
  | rollbackAtomicWrite
  | sync
  | overwrite
  deriving DecidableEq, Repr

/-- The page sizes that the pragma takes; 1 stands for 65536. -/
def parsedPageSize (parsed : Int) : Option Nat :=
  if parsed = 1 then some 65536
  else if 512 ≤ parsed ∧ parsed ≤ 32768 ∧ parsed.toNat &&& (parsed.toNat - 1) = 0 then
    some parsed.toNat
  else none

/-- `jFileControl`; what it handles without an answer of its own ends with
`SQLITE_NOTFOUND`. -/
def jFileControl (op : FileControl) (file : MainFile) : PageRc × MainFile :=
  match op with
  | .pragmaPageSize parsed =>
      match parsed.bind parsedPageSize with
      | some pageSize => (.notFound, { file with pageSize := some pageSize })
      | none => (.notFound, file)
  | .beginAtomicWrite | .commitAtomicWrite => (.ok, file)
  | .rollbackAtomicWrite =>
      match file.backing with
      | .writeAhead w =>
          match WriteAhead.rollback w with
          | .ok _ w => (.ok, file.withWorld w)
          | .error _ w => (.ioerr, file.withWorld w)
      | .accessHandle _ => (.ok, file)
  | .sync =>
      match file.backing with
      | .writeAhead w =>
          if w.conn.isTransactionPending = true then
            match WriteAhead.commit w with
            | .ok _ w => (.notFound, file.withWorld w)
            | .error _ w => (.ioerr, file.withWorld w)
          else (.notFound, file)
      | .accessHandle _ => (.notFound, file)
  | .overwrite => (.notFound, { file with overwrite := true })

end MemoryWriteAhead.MainDb
