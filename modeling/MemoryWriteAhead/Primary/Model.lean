/-
  MemoryWriteAhead.Primary.Model
  ──────────────────────────────
  **THE LOCKS OF A PRIMARY FILE OVER ITS WRITE-AHEAD LOG.**

  `MemoryWriteAheadVFS.ts`: `jLock` and `jUnlock` of a file that has a
  `writeAhead`, and the queued operations `#retryLockRead`, `#retryLockWrite`
  and `#retryUpgradeDeferredWrite`, which run the code of `WriteAhead.js`
  itself: here the isolation, the pending transactions and the log decide what
  the calls answer.  What is left to the caller (`Answers`) is what the two
  locks say and whether the backstop is due.

  Around the calls (`Event`) messages of other connections are handled, the
  backstop's timer fires, other connections write the files and move the
  `'#write'` lock, and SQLite's pragmas set the file's options.
-/
import MemoryWriteAhead.WriteAhead.TakeUp
import MemoryWriteAhead.Connection.Model

namespace MemoryWriteAhead.Primary

open Transition
open Connection (LockType RetryResult WriteHint LockingMode LazyLockMode VfsError Rc WriteLock
  lockError)
open WriteAhead (World WA WaError Store Message Isolation CatchesUp RejoinFits)

/-! ## §1. The file. -/

variable {Conn : Type} [DecidableEq Conn]

/-- The lock fields of a `MemoryWriteAheadOpenFile`, with its `writeAhead` and the
`'#write'` lock. -/
structure PrimaryFile (Conn : Type) where
  world : World
  lock : WriteLock Conn
  lockState : LockType
  retryResult : RetryResult
  writeHint : Option WriteHint
  lockingMode : LockingMode
  useLazyLock : Option LazyLockMode

/-- The answers of the locks and of the clock to one step. -/
structure Answers where
  /-- the read lock: `acquireIfHeld('shared')` -/
  readHeld : Bool
  /-- the write lock: whether `acquireIfHeld('exclusive')` sees the hold -/
  writeHeld : Bool
  /-- how `acquire` ends -/
  acquired : Except VfsError Bool
  backstopDue : Bool

/-- What the caller sees of an error of the log. -/
def vfsError : WaError → VfsError
  | .alreadyIsolated => .alreadyIsolated
  | .notReadIsolated => .notReadIsolated
  | .notWriteIsolated => .notWriteIsolated
  | .invalidWalFile | .shortWalRead _ _ | .unalignedData | .capacityExceeded | .typeError
  | .rangeError | .outOfFuel => .other

namespace PrimaryFile

/-- `writeAhead.isolationState`. -/
def isolationState (p : PrimaryFile Conn) : Option Isolation := p.world.conn.isolationState

/-- Code of the log, run on the file's own. -/
def run {α : Type} (p : PrimaryFile Conn) (code : WA α) : Except VfsError α × PrimaryFile Conn :=
  match code p.world with
  | .ok a w => (.ok a, { p with world := w })
  | .error e w => (.error (vfsError e), { p with world := w })

omit [DecidableEq Conn] in
theorem run_ok {α : Type} {p : PrimaryFile Conn} {code : WA α} {a : α} {w : World}
    (h : code p.world = .ok a w) : p.run code = (.ok a, { p with world := w }) := by
  unfold run
  rw [h]

/-- The file of a retry whose `catch` ran. -/
def failed (p : PrimaryFile Conn) (e : VfsError) : PrimaryFile Conn :=
  { p with retryResult := .error e }

/-- The file of a retry that succeeded. -/
def granted (p : PrimaryFile Conn) : PrimaryFile Conn := { p with retryResult := .done }

/-- The end of a `jLock` that returns `SQLITE_OK` out of one of its branches. -/
def locked (p : PrimaryFile Conn) (lockType : LockType) : PrimaryFile Conn :=
  { p with retryResult := .null, lockState := lockType }

def withLock (p : PrimaryFile Conn) (lock : WriteLock Conn) : PrimaryFile Conn :=
  { p with lock := lock }

end PrimaryFile

/-! ## §2. The queued operations. -/

/-- Where an operation of `module.retryOps` waits. -/
inductive Retry where
  /-- `#retryLockRead`: for the read lock -/
  | lockRead
  /-- `#retryLockWrite` in exclusive locking mode: for the read lock -/
  | lockExclusive
  /-- `#retryLockWrite`: for the write lock -/
  | lockWrite
  /-- `#retryUpgradeDeferredWrite`: for the write lock -/
  | upgrade
  deriving DecidableEq, Repr

/-- What is left of an operation after its `await`. -/
abbrev Progress (Conn : Type) := PrimaryFile Conn × Option Retry

def retryLockRead (a : Answers) (p : PrimaryFile Conn) : Progress Conn :=
  match a.acquired with
  | .error e => (p.failed e, none)
  | .ok false => (p.failed .timedOutReadLock, none)
  | .ok true =>
      match p.run WriteAhead.isolateForRead with
      | (.error e, p') => (p'.failed e, none)
      | (.ok _, p') => (p'.granted, none)

/-- The first half of `#retryLockWrite` in exclusive locking mode. -/
def retryLockExclusive (a : Answers) (p : PrimaryFile Conn) : Progress Conn :=
  match a.acquired with
  | .error e => (p.failed e, none)
  | .ok false => (p.failed .timedOutExclusiveReadLock, none)
  | .ok true => (p, some .lockWrite)

def retryLockWrite (c : Conn) (a : Answers) (p : PrimaryFile Conn) : Progress Conn :=
  match a.acquired with
  | .error e => (p.failed e, none)
  | .ok false => (p.failed .timedOutWriteLock, none)
  | .ok true =>
      match (p.withLock (.acquire c)).run WriteAhead.isolateForWrite with
      | (.error e, p') => ((p'.withLock (p'.lock.release c)).failed e, none)
      | (.ok _, p') => (p'.granted, none)

/-- Its `catch` releases the write lock, acquired or not. -/
def retryUpgradeDeferredWrite (c : Conn) (a : Answers) (p : PrimaryFile Conn) : Progress Conn :=
  match a.acquired with
  | .error e => ((p.withLock (p.lock.release c)).failed e, none)
  | .ok false => ((p.withLock (p.lock.release c)).failed .timedOutWriteLock, none)
  | .ok true =>
      match (p.withLock (.acquire c)).run WriteAhead.tryUpgradeReadIsolationToWrite with
      | (.error e, p') => ((p'.withLock (p'.lock.release c)).failed e, none)
      | (.ok false, p') => ((p'.withLock (p'.lock.release c)).failed .staleSnapshot, none)
      | (.ok true, p') => (p'.granted, none)

def Retry.resume (c : Conn) (a : Answers) (op : Retry) (p : PrimaryFile Conn) : Progress Conn :=
  match op with
  | .lockRead => retryLockRead a p
  | .lockExclusive => retryLockExclusive a p
  | .lockWrite => retryLockWrite c a p
  | .upgrade => retryUpgradeDeferredWrite c a p

/-! ## §3. The calls. -/

/-- What a call returns: its code, the file and what it queued. -/
abbrev Return (Conn : Type) := Rc × PrimaryFile Conn × Option Retry

/-- `jLock`, a `SHARED` request on an unlocked file. -/
def jLockShared (c : Conn) (a : Answers) (p : PrimaryFile Conn) : Return Conn :=
  match p.retryResult with
  | .null =>
      if p.lockingMode = .exclusive then (.busy, p.granted, some .lockExclusive)
      else if p.writeHint ≠ none then
        match p.lock.acquireIfHeld c a.writeHeld with
        | (false, lock) => (.busy, p.withLock lock, some .lockWrite)
        | (true, lock) =>
            match (p.withLock lock).run WriteAhead.isolateForWrite with
            | (.error e, p') => (lockError e, p', none)
            | (.ok _, p') => (.ok, p'.locked .shared, none)
      else if a.readHeld then
        match p.run WriteAhead.isolateForRead with
        | (.error e, p') => (lockError e, p', none)
        | (.ok _, p') => (.ok, p'.locked .shared, none)
      else (.busy, p, some .lockRead)
  | .error e => (lockError e, { p with retryResult := .null }, none)
  | .done => (.ok, p.locked .shared, none)

/-- `jLock`, a request for `RESERVED` or more. -/
def jLockReserved (c : Conn) (a : Answers) (lockType : LockType) (p : PrimaryFile Conn) :
    Return Conn :=
  match p.retryResult with
  | .error e => (lockError e, { p with retryResult := .null }, none)
  | _ =>
      if p.isolationState = some .write then (.ok, p.locked lockType, none)
      else
        let (holdsWriteLock, lock) :=
          if p.isolationState = some .read then p.lock.acquireIfHeld c a.writeHeld
          else (false, p.lock)
        if holdsWriteLock then
          match (p.withLock lock).run WriteAhead.tryUpgradeReadIsolationToWrite with
          | (.error e, p') => (lockError e, p', none)
          | (.ok false, p') => (lockError .staleSnapshot, p'.withLock (p'.lock.release c), none)
          | (.ok true, p') => (.ok, p'.locked lockType, none)
        else (.busy, (p.withLock lock).granted, some .upgrade)

def jLock (c : Conn) (a : Answers) (lockType : LockType) (p : PrimaryFile Conn) : Return Conn :=
  if p.lockState = .none ∧ lockType = .shared then jLockShared c a p
  else if LockType.reserved.level ≤ lockType.level then jLockReserved c a lockType p
  else (.ok, { p with lockState := lockType }, none)

/-- The releases of `jUnlock`; the read lock's have no part in what follows. -/
def PrimaryFile.releaseLocks (c : Conn) (p : PrimaryFile Conn) : PrimaryFile Conn :=
  match p.useLazyLock with
  | some .none | some .read => p.withLock (p.lock.release c)
  | some .write | some .readwrite | none => p.withLock (p.lock.releaseLazy c)

def jUnlock (c : Conn) (a : Answers) (lockType : LockType) (p : PrimaryFile Conn) : Return Conn :=
  if p.retryResult = .null ∧ lockType = .none then
    match p.run (WriteAhead.rejoin a.backstopDue) with
    | (.error _, p') => (.ioerrUnlock, p', none)
    | (.ok _, p') =>
        (.ok, { p'.releaseLocks c with writeHint := none, lockState := lockType }, none)
  else (.ok, { p with lockState := lockType }, none)

/-! ## §4. What happens around the calls. -/

inductive Event (Conn : Type) where
  /-- a message of another connection, or the page moves of a checkpoint -/
  | message (m : Message)
  /-- the timer of the backstop -/
  | backstop
  /-- another connection has written the files -/
  | store (st : Store)
  /-- the write lock is taken, released or asked back by another connection -/
  | writeLock (lock : WriteLock Conn)
  | writeHint (hint : WriteHint)
  | lockingMode (mode : LockingMode)
  | lazyLock (mode : LazyLockMode)
  /-- SQLite unlocks to `SQLITE_LOCK_NONE` where that ends no isolation -/
  | unlock (a : Answers)

/-- The event can happen: another connection neither takes a lock that is held nor
gives one away; isolation disables the backstop. -/
def Event.Open (c : Conn) (p : PrimaryFile Conn) : Event Conn → Prop
  | .backstop => p.isolationState = none
  | .writeLock lock => p.lock.HeldBy c ∨ lock.holder = some c → lock = p.lock
  | .unlock _ => p.isolationState = none ∨ p.retryResult ≠ .null
  | .message _ | .store _ | .writeHint _ | .lockingMode _ | .lazyLock _ => True

def Event.apply (c : Conn) (p : PrimaryFile Conn) : Event Conn → PrimaryFile Conn
  | .message m => (p.run (WriteAhead.handleMessage m)).2
  | .backstop => (p.run (WriteAhead.advanceTxId true)).2
  | .store st => { p with world := { p.world with store := st } }
  | .writeLock lock => p.withLock lock
  | .writeHint hint => { p with writeHint := some hint }
  | .lockingMode mode => { p with lockingMode := mode }
  | .lazyLock mode => { p with useLazyLock := some mode }
  | .unlock a => (jUnlock c a .none p).2.1

/-- The transactions that the event brings. -/
def Event.ids : Event Conn → List Nat
  | .message m => m.ids
  | .backstop | .store _ | .writeLock _ | .writeHint _ | .lockingMode _ | .lazyLock _
  | .unlock _ => []

/-- A checkpoint has moved pages to the database file. -/
def Event.movesPages : Event Conn → Bool
  | .message m => m.movesPages
  | .backstop | .store _ | .writeLock _ | .writeHint _ | .lockingMode _ | .lazyLock _
  | .unlock _ => false

/-- **No gap**: what the event takes up is at hand. -/
def NoGap (p : PrimaryFile Conn) : Event Conn → Prop
  | .message m => m.Fits p.world
  | .backstop => CatchesUp true p.world
  | .unlock a => p.retryResult = .null → RejoinFits a.backstopDue p.world
  | .store _ | .writeLock _ | .writeHint _ | .lockingMode _ | .lazyLock _ => True

/-- What happens between two calls of connection `c`. -/
def around (c : Conn) : System (PrimaryFile Conn) (Event Conn) where
  init _ := True
  next p e p' := e.Open c p ∧ p' = e.apply c p

/-! ## §5. Every run of a file. -/

/-- The other code of the log that a call of the file runs: `jWrite`, `jTruncate`,
the file controls that commit and roll back, and `#pendingCheckpoint`. -/
inductive LogCall where
  | write (salt2 : BitVec 32) (offset : Nat) (data : List UInt8) (dstPageSize : Option Nat)
  | truncate (newSize : Nat)
  | rollback
  | commit
  | isolateForWrite
  | checkpointCopy (ckptId : Nat)
  | truncateInactiveFile
  | rejoin (backstopDue : Bool)

def LogCall.code : LogCall → WA PUnit
  | .write salt2 offset data dstPageSize => WriteAhead.write salt2 offset data dstPageSize
  | .truncate newSize => WriteAhead.truncate newSize
  | .rollback => WriteAhead.rollback
  | .commit => do
      let _ ← WriteAhead.commit
      pure ⟨⟩
  | .isolateForWrite => WriteAhead.isolateForWrite
  | .checkpointCopy ckptId => WriteAhead.checkpointCopy ckptId
  | .truncateInactiveFile => WriteAhead.truncateInactiveFile
  | .rejoin backstopDue => WriteAhead.rejoin backstopDue

inductive Act (Conn : Type) where
  | lock (lockType : LockType) (a : Answers)
  | unlock (lockType : LockType) (a : Answers)
  | resume (op : Retry) (a : Answers)
  | log (call : LogCall)
  /-- `#pendingCheckpoint` takes or releases the write lock -/
  | checkpointLock (left : WriteLock Conn)
  | event (e : Event Conn)

def Act.apply (c : Conn) (p : PrimaryFile Conn) : Act Conn → PrimaryFile Conn
  | .lock lockType a => (jLock c a lockType p).2.1
  | .unlock lockType a => (jUnlock c a lockType p).2.1
  | .resume op a => (op.resume c a p).1
  | .log call => (p.run call.code).2
  | .checkpointLock left => p.withLock left
  | .event e => e.apply c p

/-- A file that has just been opened. -/
def PrimaryFile.opened (world : World) (lock : WriteLock Conn) : PrimaryFile Conn :=
  ⟨world, lock, .none, .null, none, .normal, none⟩

/-- **Every run of a file**: opened over any log, then any calls and events in any
order, whatever throws. -/
def machine (c : Conn) : System (PrimaryFile Conn) (Act Conn) where
  init p := ∃ store randomSalt1 salt2 world lock,
    WriteAhead.ready randomSalt1 salt2 ⟨store, .initial⟩ = .ok ⟨⟩ world ∧ p = .opened world lock
  next p act p' := p' = act.apply c p

end MemoryWriteAhead.Primary
