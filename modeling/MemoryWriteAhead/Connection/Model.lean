/-
  MemoryWriteAhead.Connection.Model
  ─────────────────────────────────
  **THE LOCKS OF A PRIMARY CONNECTION.**

  `MemoryWriteAheadVFS.ts`: `jLock`, `jUnlock`, `jWrite` and `jFileControl` of
  a file that has a `writeAhead`, and the queued operations `#retryLockRead`,
  `#retryLockWrite`, `#retryUpgradeDeferredWrite` and `#pendingCheckpoint`.
  `WriteAhead.js`: the isolation state, `isolateForRead`, `isolateForWrite`,
  `tryUpgradeReadIsolationToWrite` and `rejoin`.

  A call runs to its end without interruption.  A queued operation stops at
  each `await`; `Op` names the place where it waits.  What the locks do not
  decide is an answer of the environment (`Env`): whether a lock is granted in
  time, whether the frozen view is current, what `#advanceTxId` or `#backstop`
  throws, how a write or a commit ends.

  The `'#write'` LazyLock is one word, its holder.  A connection that has
  released it lazily keeps it until it is asked for.
-/
import MemoryWriteAhead.Library.Transition

namespace MemoryWriteAhead.Connection

open Transition

/-! ## §1. The open file. -/

/-- The `SQLITE_LOCK_` levels. -/
inductive LockType where
  | none
  | shared
  | reserved
  | pending
  | exclusive
  deriving DecidableEq, Repr

def LockType.level : LockType → Nat
  | .none => 0
  | .shared => 1
  | .reserved => 2
  | .pending => 3
  | .exclusive => 4

inductive Isolation where
  | read
  | write
  deriving DecidableEq, Repr

inductive WriteHint where
  | reserved
  | exclusive
  deriving DecidableEq, Repr

inductive LockingMode where
  | normal
  | exclusive
  deriving DecidableEq, Repr

inductive LazyLockMode where
  | none
  | read
  | write
  | readwrite
  deriving DecidableEq, Repr

/-- What a call or a queued operation throws. -/
inductive VfsError where
  | timedOutReadLock
  | timedOutExclusiveReadLock
  | timedOutWriteLock
  | staleSnapshot
  | alreadyIsolated
  | notReadIsolated
  | notWriteIsolated
  | transactionInProgress
  /-- the `TimeoutError` of the platform -/
  | timeout
  /-- anything else that `WriteAhead` or the platform throws -/
  | other
  deriving DecidableEq, Repr

/-- The text of an error of this repository. -/
def VfsError.message (zName : String) : VfsError → Option String
  | .timedOutReadLock => some s!"Timed out acquiring read lock for {zName}"
  | .timedOutExclusiveReadLock => some s!"Timed out acquiring exclusive read lock for {zName}"
  | .timedOutWriteLock => some s!"Timed out acquiring write lock for {zName}"
  | .staleSnapshot => some "Deferred write snapshot is stale; retry the transaction"
  | .alreadyIsolated => some "Already in isolated state"
  | .notReadIsolated => some "Not in read isolated state"
  | .notWriteIsolated => some "Not in write isolated state"
  | .transactionInProgress => some "invalid while a transaction is in progress"
  | .timeout => none
  | .other => none

/-- The name is `TimeoutError` or `MemoryWriteAheadBusyError`. -/
def VfsError.isBusy : VfsError → Bool
  | .timedOutReadLock | .timedOutExclusiveReadLock | .timedOutWriteLock
  | .staleSnapshot | .timeout => true
  | _ => false

/-- `file.retryResult`: `null`, an object, or an error. -/
inductive RetryResult where
  | null
  | done
  | error (e : VfsError)
  deriving DecidableEq, Repr

/-- The lock fields of a `MemoryWriteAheadOpenFile` and of its `WriteAhead`. -/
structure OpenFile where
  lockState : LockType
  retryResult : RetryResult
  writeHint : Option WriteHint
  lockingMode : LockingMode
  useLazyLock : Option LazyLockMode
  isolationState : Option Isolation
  /-- `isTransactionPending()` -/
  txInProgress : Bool
  deriving DecidableEq, Repr

/-- The `SQLITE_` result of a call. -/
inductive Rc where
  | ok
  | busy
  | ioerr
  | ioerrLock
  | ioerrUnlock
  | ioerrWrite
  | notFound
  deriving DecidableEq, Repr

/-- The result of `jLock` for what it caught. -/
def lockError (e : VfsError) : Rc := if e.isBusy then .busy else .ioerrLock

/-! ## §2. The environment's answers and the write lock. -/

/-- The answers of the environment to one step. -/
structure Env where
  /-- the read lock: `acquireIfHeld('shared')` -/
  readHeld : Bool
  /-- how `acquire` ends, or whether `acquireIfHeld('exclusive')` sees the hold -/
  acquired : Except VfsError Bool
  /-- what `#advanceTxId` throws -/
  advance : Option VfsError
  /-- what `#backstop` throws -/
  backstop : Option VfsError
  /-- the upgrade's look at the pending transactions and the next frame -/
  current : Except VfsError Bool
  /-- whether `#txInProgress` is set and not yet cleared when a write or a
  commit throws, and whether it throws -/
  begun : Bool
  threw : Bool

def Env.grants (env : Env) : Bool :=
  match env.acquired with
  | .ok granted => granted
  | .error _ => false

theorem Env.grants_of_acquired {env : Env} (h : env.acquired = .ok true) : env.grants = true := by
  unfold Env.grants
  rw [h]

variable {Conn : Type} [DecidableEq Conn]

/-- The `'#write'` lock: its holder, and whether that one has released it
lazily. -/
structure WriteLock (Conn : Type) where
  holder : Option Conn
  lazy : Bool
  deriving DecidableEq, Repr

namespace WriteLock

/-- `acquireIfHeld('exclusive')`. -/
def acquireIfHeld (c : Conn) (seen : Bool) (lock : WriteLock Conn) : Bool × WriteLock Conn :=
  if lock.holder = some c ∧ seen = true then (true, ⟨some c, false⟩) else (false, lock)

/-- `acquire('exclusive')` may resolve true. -/
def Open (c : Conn) (lock : WriteLock Conn) : Prop :=
  lock.holder = none ∨ lock.holder = some c

def acquire (c : Conn) : WriteLock Conn := ⟨some c, false⟩

def release (c : Conn) (lock : WriteLock Conn) : WriteLock Conn :=
  if lock.holder = some c then ⟨none, false⟩ else lock

def releaseLazy (c : Conn) (lock : WriteLock Conn) : WriteLock Conn :=
  if lock.holder = some c then ⟨some c, true⟩ else lock

/-- The connection holds the lock and has not released it. -/
def HeldBy (c : Conn) (lock : WriteLock Conn) : Prop :=
  lock.holder = some c ∧ lock.lazy = false

instance decidableOpen (c : Conn) (lock : WriteLock Conn) : Decidable (lock.Open c) :=
  inferInstanceAs (Decidable (_ ∨ _))

instance decidableHeldBy (c : Conn) (lock : WriteLock Conn) : Decidable (lock.HeldBy c) :=
  inferInstanceAs (Decidable (_ ∧ _))

end WriteLock

/-! ## §3. The isolation state. -/

def isolateForRead (f : OpenFile) : Except VfsError OpenFile :=
  if f.isolationState ≠ none then .error .alreadyIsolated
  else .ok { f with isolationState := some .read }

/-- `isolateForWrite`: the state is set before `#advanceTxId` may throw. -/
def isolateForWrite (env : Env) (f : OpenFile) : Option VfsError × OpenFile :=
  if f.isolationState ≠ none then (some .alreadyIsolated, f)
  else (env.advance, { f with isolationState := some .write })

def tryUpgradeReadIsolationToWrite (env : Env) (f : OpenFile) :
    Except VfsError Bool × OpenFile :=
  if f.isolationState ≠ some .read then (.error .notReadIsolated, f)
  else match env.current with
    | .ok true => (.ok true, { f with isolationState := some .write })
    | refusal => (refusal, f)

def rejoin (env : Env) (f : OpenFile) : Option VfsError × OpenFile :=
  if f.isolationState = some .read ∧ env.advance ≠ none then (env.advance, f)
  else (env.backstop, { f with isolationState := none })

/-! ## §4. The queued operations. -/

/-- Where a queued operation waits. -/
inductive Op where
  /-- `#retryLockRead`: for the read lock -/
  | lockRead
  /-- `#retryLockWrite` in exclusive locking mode: for the read lock -/
  | lockExclusive
  /-- `#retryLockWrite`: for the write lock -/
  | lockWrite
  /-- `#retryUpgradeDeferredWrite`: for the write lock -/
  | upgrade
  /-- `#pendingCheckpoint`, not passive: for the write lock -/
  | checkpoint
  /-- `#pendingCheckpoint`: for `writeAhead.checkpoint` -/
  | checkpointing (isPassive : Bool)
  deriving DecidableEq, Repr

/-- The operation is one of `module.retryOps`. -/
def Op.isRetry : Op → Bool
  | .lockRead | .lockExclusive | .lockWrite | .upgrade => true
  | .checkpoint | .checkpointing _ => false

/-- The file of a retry whose `catch` ran. -/
def OpenFile.failed (f : OpenFile) (e : VfsError) : OpenFile := { f with retryResult := .error e }

/-- The file of a retry that succeeded. -/
def OpenFile.granted (f : OpenFile) : OpenFile := { f with retryResult := .done }

/-- What is left of a queued operation after it has gone on from its `await`:
the lock, the file, and the place where it waits again. -/
abbrev Progress (Conn : Type) := WriteLock Conn × OpenFile × Option Op

def retryLockRead (env : Env) (lock : WriteLock Conn) (f : OpenFile) : Progress Conn :=
  match env.acquired with
  | .error e => (lock, f.failed e, none)
  | .ok false => (lock, f.failed .timedOutReadLock, none)
  | .ok true =>
      match isolateForRead f with
      | .error e => (lock, f.failed e, none)
      | .ok f' => (lock, f'.granted, none)

/-- The first half of `#retryLockWrite` in exclusive locking mode. -/
def retryLockExclusive (env : Env) (lock : WriteLock Conn) (f : OpenFile) : Progress Conn :=
  match env.acquired with
  | .error e => (lock, f.failed e, none)
  | .ok false => (lock, f.failed .timedOutExclusiveReadLock, none)
  | .ok true => (lock, f, some .lockWrite)

def retryLockWrite (c : Conn) (env : Env) (lock : WriteLock Conn) (f : OpenFile) :
    Progress Conn :=
  match env.acquired with
  | .error e => (lock, f.failed e, none)
  | .ok false => (lock, f.failed .timedOutWriteLock, none)
  | .ok true =>
      match isolateForWrite env f with
      | (some e, f') => ((WriteLock.acquire c).release c, f'.failed e, none)
      | (none, f') => (.acquire c, f'.granted, none)

/-- Its `catch` releases the write lock, acquired or not. -/
def retryUpgradeDeferredWrite (c : Conn) (env : Env) (lock : WriteLock Conn) (f : OpenFile) :
    Progress Conn :=
  match env.acquired with
  | .error e => (lock.release c, f.failed e, none)
  | .ok false => (lock.release c, f.failed .timedOutWriteLock, none)
  | .ok true =>
      match tryUpgradeReadIsolationToWrite env f with
      | (.error e, f') => ((WriteLock.acquire c).release c, f'.failed e, none)
      | (.ok false, f') => ((WriteLock.acquire c).release c, f'.failed .staleSnapshot, none)
      | (.ok true, f') => (.acquire c, f'.granted, none)

/-- `#pendingCheckpoint` up to `writeAhead.checkpoint`: it does not look at
what `acquire` resolves to. -/
def pendingCheckpoint (c : Conn) (env : Env) (lock : WriteLock Conn) (f : OpenFile) :
    Progress Conn :=
  match env.acquired with
  | .error _ => (lock, f, none)
  | .ok granted =>
      let lock' := if granted then .acquire c else lock
      match isolateForWrite env f with
      | (some _, f') => (lock'.release c, f', none)
      | (none, f') => (lock', f', some (.checkpointing false))

/-- The `finally` of `#pendingCheckpoint`; what `rejoin` throws ends it before
the release. -/
def finishCheckpoint (c : Conn) (env : Env) (isPassive : Bool) (lock : WriteLock Conn)
    (f : OpenFile) : Progress Conn :=
  if isPassive then (lock, f, none)
  else match rejoin env f with
    | (some _, f') => (lock, f', none)
    | (none, f') => (lock.release c, f', none)

def Op.resume (c : Conn) (env : Env) (op : Op) (lock : WriteLock Conn) (f : OpenFile) :
    Progress Conn :=
  match op with
  | .lockRead => retryLockRead env lock f
  | .lockExclusive => retryLockExclusive env lock f
  | .lockWrite => retryLockWrite c env lock f
  | .upgrade => retryUpgradeDeferredWrite c env lock f
  | .checkpoint => pendingCheckpoint c env lock f
  | .checkpointing isPassive => finishCheckpoint c env isPassive lock f

/-- The operation waits for the write lock. -/
def Op.wantsWriteLock : Op → Bool
  | .lockWrite | .upgrade | .checkpoint => true
  | .lockRead | .lockExclusive | .checkpointing _ => false

/-! ## §5. The calls. -/

/-- What a call returns: its code, the lock, the file and what it queued. -/
abbrev Return (Conn : Type) := Rc × WriteLock Conn × OpenFile × Option Op

/-- The end of a `jLock` that returns `SQLITE_OK` out of one of its branches. -/
def OpenFile.locked (f : OpenFile) (lockType : LockType) : OpenFile :=
  { f with retryResult := .null, lockState := lockType }

/-- `jLock`, a `SHARED` request on an unlocked file. -/
def jLockShared (c : Conn) (env : Env) (lock : WriteLock Conn) (f : OpenFile) : Return Conn :=
  match f.retryResult with
  | .null =>
      if f.lockingMode = .exclusive then (.busy, lock, f.granted, some .lockExclusive)
      else if f.writeHint ≠ none then
        match lock.acquireIfHeld c env.grants with
        | (false, lock') => (.busy, lock', f, some .lockWrite)
        | (true, lock') =>
            match isolateForWrite env f with
            | (some e, f') => (lockError e, lock', f', none)
            | (none, f') => (.ok, lock', f'.locked .shared, none)
      else if env.readHeld then
        match isolateForRead f with
        | .error e => (lockError e, lock, f, none)
        | .ok f' => (.ok, lock, f'.locked .shared, none)
      else (.busy, lock, f, some .lockRead)
  | .error e => (lockError e, lock, { f with retryResult := .null }, none)
  | .done => (.ok, lock, f.locked .shared, none)

/-- `jLock`, a request for `RESERVED` or more. -/
def jLockReserved (c : Conn) (env : Env) (lockType : LockType) (lock : WriteLock Conn)
    (f : OpenFile) : Return Conn :=
  match f.retryResult with
  | .error e => (lockError e, lock, { f with retryResult := .null }, none)
  | _ =>
      if f.isolationState = some .write then (.ok, lock, f.locked lockType, none)
      else
        let (holdsWriteLock, lock') :=
          if f.isolationState = some .read then
            lock.acquireIfHeld c env.grants
          else (false, lock)
        if holdsWriteLock then
          match tryUpgradeReadIsolationToWrite env f with
          | (.error e, f') => (lockError e, lock', f', none)
          | (.ok false, f') => (lockError .staleSnapshot, lock'.release c, f', none)
          | (.ok true, f') => (.ok, lock', f'.locked lockType, none)
        else (.busy, lock', f.granted, some .upgrade)

def jLock (c : Conn) (env : Env) (lockType : LockType) (lock : WriteLock Conn) (f : OpenFile) :
    Return Conn :=
  if f.lockState = .none ∧ lockType = .shared then jLockShared c env lock f
  else if LockType.reserved.level ≤ lockType.level then jLockReserved c env lockType lock f
  else (.ok, lock, { f with lockState := lockType }, none)

/-- The releases of `jUnlock`; the read lock's have no part in what follows. -/
def releaseLocks (c : Conn) (f : OpenFile) (lock : WriteLock Conn) : WriteLock Conn :=
  match f.useLazyLock with
  | some .none | some .read => lock.release c
  | some .write | some .readwrite | none => lock.releaseLazy c

def jUnlock (c : Conn) (env : Env) (lockType : LockType) (lock : WriteLock Conn)
    (f : OpenFile) : Return Conn :=
  if f.retryResult = .null ∧ lockType = .none then
    match rejoin env f with
    | (some _, f') => (.ioerrUnlock, lock, f', none)
    | (none, f') =>
        (.ok, releaseLocks c f' lock, { f' with writeHint := none, lockState := lockType }, none)
  else (.ok, lock, { f with lockState := lockType }, none)

/-- `jWrite`: `WriteAhead.write` accepts it in write isolation only. -/
def jWrite (env : Env) (lock : WriteLock Conn) (f : OpenFile) : Return Conn :=
  if f.isolationState ≠ some .write then (.ioerrWrite, lock, f, none)
  else if env.threw then
    (.ioerrWrite, lock, { f with txInProgress := f.txInProgress || env.begun }, none)
  else (.ok, lock, { f with txInProgress := true }, none)

/-- `WriteAhead.write` does not refuse the page. -/
def OpenFile.AcceptsWrite (f : OpenFile) : Prop := f.isolationState = some .write

/-- The file controls that touch the locks, the isolation or the transaction. -/
inductive FileControl where
  | writeHint (hint : WriteHint)
  | lockingMode (mode : LockingMode)
  | lazyLock (mode : LazyLockMode)
  | walCheckpoint (isPassive : Bool)
  | rollbackAtomicWrite
  | sync
  deriving DecidableEq, Repr

def jFileControl (env : Env) (op : FileControl) (lock : WriteLock Conn) (f : OpenFile) :
    Return Conn :=
  match op with
  | .writeHint hint => (.notFound, lock, { f with writeHint := some hint }, none)
  | .lockingMode mode => (.notFound, lock, { f with lockingMode := mode }, none)
  | .lazyLock mode => (.ok, lock, { f with useLazyLock := some mode }, none)
  | .walCheckpoint true => (.ok, lock, f, some (.checkpointing true))
  | .walCheckpoint false =>
      -- the guard sees only a transaction that has written a page
      if f.txInProgress then (.ioerr, lock, f, none) else (.ok, lock, f, some .checkpoint)
  | .rollbackAtomicWrite => (.ok, lock, { f with txInProgress := false }, none)
  | .sync =>
      if f.txInProgress ∧ env.threw = true then
        (.ioerr, lock, { f with txInProgress := env.begun }, none)
      else (.notFound, lock, { f with txInProgress := false }, none)

/-! ## §6. A connection and its caller. -/

/-- Where SQLite is: it issues calls; after a queued retry it only unlocks; it
waits for everything queued. -/
inductive Phase where
  | running
  | refused
  | awaiting
  deriving DecidableEq, Repr

structure Local where
  file : OpenFile
  /-- the lock SQLite believes to hold -/
  sqliteLock : LockType
  queue : List Op
  phase : Phase
  deriving DecidableEq, Repr

/-- What happens next on a connection. -/
inductive Choice where
  | lock (lockType : LockType)
  | unlock (lockType : LockType)
  | write
  | control (op : FileControl)
  /-- SQLite returns and waits -/
  | await
  /-- a queued operation goes on -/
  | resume (op : Op)
  /-- everything queued has ended -/
  | reexecute
  deriving DecidableEq, Repr

/-- A choice with the answers of the environment. -/
structure Act where
  choice : Choice
  env : Env

/-- SQLite's lock order. -/
def Choice.InOrder (l : Local) : Choice → Prop
  | .lock lockType =>
      l.phase = .running ∧
        ((lockType = .shared ∧ l.sqliteLock = .none) ∨
          (LockType.reserved.level ≤ lockType.level ∧ l.sqliteLock ≠ .none ∧
            l.sqliteLock.level < lockType.level))
  | .unlock lockType =>
      l.phase ≠ .awaiting ∧
        (lockType = .none ∨ (lockType = .shared ∧ l.sqliteLock ≠ .none))
  | .write => l.phase = .running ∧ LockType.reserved.level ≤ l.sqliteLock.level
  | .control _ => l.phase = .running
  | .await => l.phase ≠ .awaiting
  | .resume op => l.phase = .awaiting ∧ op ∈ l.queue
  | .reexecute => l.phase = .awaiting ∧ l.queue = []

instance decidableInOrder (l : Local) : (choice : Choice) → Decidable (choice.InOrder l)
  | .lock _ => inferInstanceAs (Decidable (_ ∧ ((_ ∧ _) ∨ (_ ∧ _ ∧ _))))
  | .unlock _ => inferInstanceAs (Decidable (_ ∧ (_ ∨ (_ ∧ _))))
  | .write => inferInstanceAs (Decidable (_ ∧ _))
  | .control _ => inferInstanceAs (Decidable (_ = _))
  | .await => inferInstanceAs (Decidable (_ ≠ _))
  | .resume _ => inferInstanceAs (Decidable (_ ∧ _ ∈ _))
  | .reexecute => inferInstanceAs (Decidable (_ ∧ _))

/-- The connection after a call. -/
def Local.after (l : Local) (f : OpenFile) (queued : Option Op) (sqliteLock : LockType) :
    Local where
  file := f
  sqliteLock := sqliteLock
  queue := l.queue ++ queued.toList
  phase := if queued.any Op.isRetry then .refused else l.phase

/-- One choice of connection `c`; `none` where it is not open to it. -/
def choose (c : Conn) (a : Act) (lock : WriteLock Conn) (l : Local) :
    Option (WriteLock Conn × Local) :=
  if a.choice.InOrder l then
    match a.choice with
    | .lock lockType =>
        let (rc, lock', f, queued) := jLock c a.env lockType lock l.file
        some (lock', l.after f queued (if rc = .ok then lockType else l.sqliteLock))
    | .unlock lockType =>
        let (_, lock', f, queued) := jUnlock c a.env lockType lock l.file
        some (lock', l.after f queued lockType)
    | .write =>
        let (_, lock', f, queued) := jWrite a.env lock l.file
        some (lock', l.after f queued l.sqliteLock)
    | .control op =>
        let (_, lock', f, queued) := jFileControl a.env op lock l.file
        some (lock', l.after f queued l.sqliteLock)
    | .await => some (lock, { l with phase := .awaiting })
    | .resume op =>
        -- a lock that another connection holds is not granted
        if op.wantsWriteLock = true ∧ a.env.grants = true ∧ ¬lock.Open c then none
        else
          let (lock', f, waiting) := op.resume c a.env lock l.file
          some (lock', { l with file := f, queue := l.queue.erase op ++ waiting.toList })
    | .reexecute => some (lock, { l with phase := .running })
  else none

theorem choose_inOrder {c : Conn} {a : Act} {lock : WriteLock Conn} {l : Local}
    {r : WriteLock Conn × Local} (h : choose c a lock l = some r) : a.choice.InOrder l := by
  by_contra hno
  unfold choose at h
  rw [if_neg hno] at h
  exact absurd h (by simp)

/-! ## §7. Any number of connections. -/

/-- A connection that has just been opened. -/
def Local.opened : Local where
  file := ⟨.none, .null, none, .normal, none, none, false⟩
  sqliteLock := .none
  queue := []
  phase := .running

/-- Each connection starts opened and unlocked; a lock that was released
lazily may be given up at any time. -/
def machine (Conn : Type) [DecidableEq Conn] :
    Threads Conn (WriteLock Conn) Local Act where
  start lock th := lock = ⟨none, false⟩ ∧ ∀ c, th c = .opened
  act c a lock l lock' l' := choose c a lock l = some (lock', l')
  env c c' := c.shared.lazy = true ∧ c' = { c with shared := ⟨none, false⟩ }

/-! ## §8. Executed runs. -/

/-- What a run does next: a choice of one connection, or a lazy lock is given
up. -/
inductive Cmd (Conn : Type) where
  | connection (c : Conn) (choice : Choice) (env : Env)
  | yield

/-- The command's step, if it is open and allowed. -/
def exec (ok : Config Conn (WriteLock Conn) Local → ThreadLabel Conn Act → Prop)
    [∀ c label, Decidable (ok c label)] (c : Config Conn (WriteLock Conn) Local) :
    Cmd Conn → Option (Config Conn (WriteLock Conn) Local)
  | .connection t choice env =>
      (choose t ⟨choice, env⟩ c.shared (c.threads t)).bind fun r =>
        if ok c (.thread t ⟨choice, env⟩) then some (c.put t r.1 r.2) else none
  | .yield =>
      if c.shared.lazy = true ∧ ok c .env then some { c with shared := ⟨none, false⟩ } else none

theorem exec_next (ok : Config Conn (WriteLock Conn) Local → ThreadLabel Conn Act → Prop)
    [∀ c label, Decidable (ok c label)] (c : Config Conn (WriteLock Conn) Local) (k : Cmd Conn)
    (c' : Config Conn (WriteLock Conn) Local) (h : exec ok c k = some c') :
    ∃ label, ok c label ∧ (machine Conn).system.next c label c' := by
  cases k with
  | connection t choice env =>
      simp only [exec] at h
      obtain ⟨⟨lock, l⟩, hstep, hif⟩ := Option.bind_eq_some_iff.mp h
      split at hif
      next hok =>
        cases hif
        exact ⟨.thread t ⟨choice, env⟩, hok, .thread hstep⟩
      next => cases hif
  | yield =>
      simp only [exec] at h
      split at h
      next hlazy =>
        cases h
        exact ⟨.env, hlazy.2, .env ⟨hlazy.1, rfl⟩⟩
      next => cases h

end MemoryWriteAhead.Connection
