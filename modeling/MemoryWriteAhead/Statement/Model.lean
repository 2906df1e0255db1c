/-
  MemoryWriteAhead.Statement.Model
  ────────────────────────────────
  **THE LOCK CALLS OF A STATEMENT OVER SEVERAL DATABASES.**

  One SQLite connection with its primary and its attached databases.  Of
  `MemoryWriteAheadVFS.ts` this module adds the attached branch of `jLock` and
  `jUnlock` and `#retryLockAttachedDatabase`; those of the primary are in
  `Connection.Model`.

  A statement is executed until an execution queues no retry.  An execution
  issues lock and unlock calls in SQLite's order, stops at the first call that
  returns anything but `SQLITE_OK`, unlocks what SQLite leaves, and SQLite
  waits for what was queued.  A file whose `SHARED` request was refused is
  always unlocked (`sqlite3PagerSharedLock` does so).

  Other connections are in the environment's answers only, so the holder of
  the `'#write'` lock is this connection or nobody.
-/
import MemoryWriteAhead.Connection.Model

namespace MemoryWriteAhead.Statement

open Transition
open Connection (LockType WriteHint WriteLock OpenFile Rc)

/-! ## §1. The attached branch. -/

/-- What the attached branch throws. -/
inductive AttachedError where
  | timedOut
  | quarantined
  | missingLockState
  | lostClaim
  deriving DecidableEq, Repr

def AttachedError.message (zName : String) : AttachedError → String
  | .timedOut => s!"Timed out acquiring attached database lock for {zName}"
  | .quarantined =>
      s!"Attached database {zName} is quarantined after its transaction owner terminated; "
        ++ "reset and reload the runtime from a trusted source"
  | .missingLockState => s!"Missing attached database lock state for {zName}"
  | .lostClaim => s!"Lost attached database lock claim for {zName}"

/-- The error is a `MemoryWriteAheadBusyError`. -/
def AttachedError.isBusy : AttachedError → Bool
  | .timedOut | .quarantined => true
  | .missingLockState | .lostClaim => false

/-- `file.retryResult` of an attached database. -/
inductive AttachedRetry where
  | null
  | done
  | error (e : AttachedError)
  deriving DecidableEq, Repr

/-- The lock fields of a record without a `writeAhead`. -/
structure AttachedFile where
  lockState : LockType
  retryResult : AttachedRetry
  writeHint : Option WriteHint
  attachedTransactionLockHeld : Bool
  deriving DecidableEq, Repr

/-- The answers of the environment to the attached branch. -/
structure AttachedEnv where
  /-- how `#tryLockAttachedDatabase` ends where the record has not got the lock -/
  attempt : Except AttachedError Bool
  /-- the retry loop finds its deadline passed -/
  expired : Bool

def tryLockAttachedDatabase (env : AttachedEnv) (f : AttachedFile) :
    Except AttachedError Bool × AttachedFile :=
  if f.attachedTransactionLockHeld then (.ok true, f)
  else match env.attempt with
    | .ok true => (.ok true, { f with attachedTransactionLockHeld := true })
    | refusal => (refusal, f)

def releaseAttachedDatabaseLock (f : AttachedFile) : AttachedFile :=
  { f with attachedTransactionLockHeld := false }

def attachedLockError (e : AttachedError) : Rc := if e.isBusy then .busy else .ioerrLock

/-- `jLock` of an attached database; the last part: `#retryLockAttachedDatabase`
was queued. -/
def jLockAttached (env : AttachedEnv) (lockType : LockType) (f : AttachedFile) :
    Rc × AttachedFile × Bool :=
  if f.lockState = .none ∧ lockType = .shared then
    match f.retryResult with
    | .error e => (attachedLockError e, { f with retryResult := .null }, false)
    | .null | .done =>
        match tryLockAttachedDatabase env f with
        | (.error e, f') => (attachedLockError e, f', false)
        | (.ok false, f') => (.busy, { f' with retryResult := .done }, true)
        | (.ok true, f') => (.ok, { f' with retryResult := .null, lockState := lockType }, false)
  else (.ok, { f with lockState := lockType }, false)

/-- `jUnlock` of an attached database. -/
def jUnlockAttached (lockType : LockType) (f : AttachedFile) : AttachedFile :=
  if f.retryResult = .null ∧ lockType = .none then
    { releaseAttachedDatabaseLock f with writeHint := none, lockState := lockType }
  else { f with lockState := lockType }

/-- One turn of the loop of `#retryLockAttachedDatabase`; the last part: it
sleeps and goes on. -/
def retryLockAttachedDatabase (env : AttachedEnv) (f : AttachedFile) : AttachedFile × Bool :=
  match tryLockAttachedDatabase env f with
  | (.error e, f') => ({ releaseAttachedDatabaseLock f' with retryResult := .error e }, false)
  | (.ok true, f') => ({ f' with retryResult := .done }, false)
  | (.ok false, f') =>
      if env.expired then
        ({ releaseAttachedDatabaseLock f' with retryResult := .error .timedOut }, false)
      else (f', true)

/-! ## §2. A database of the connection. -/

/-- The primary database with this connection's view of its write lock, or an
attached one. -/
inductive File where
  | primary (lock : WriteLock Unit) (file : OpenFile)
  | attached (file : AttachedFile)
  deriving DecidableEq, Repr

/-- The answers of the environment to one step. -/
structure Env where
  primary : Connection.Env
  attached : AttachedEnv

/-- A queued operation. -/
inductive Op where
  | primary (op : Connection.Op)
  | attached
  deriving DecidableEq, Repr

namespace File

def lockState : File → LockType
  | primary _ f => f.lockState
  | attached f => f.lockState

/-- `file.retryResult` is `null`. -/
def unanswered : File → Bool
  | primary _ f => decide (f.retryResult = .null)
  | attached f => decide (f.retryResult = .null)

/-- The database keeps others out or its own view frozen:
`attachedTransactionLockHeld`, or an `isolationState`. -/
def holds : File → Bool
  | primary _ f => f.isolationState.isSome
  | attached f => f.attachedTransactionLockHeld

def jLock (env : Env) (lockType : LockType) : File → Rc × File × Option Op
  | primary lock f =>
      let (rc, lock', f', queued) := Connection.jLock () env.primary lockType lock f
      (rc, primary lock' f', queued.map .primary)
  | attached f =>
      let (rc, f', queued) := jLockAttached env.attached lockType f
      (rc, attached f', if queued then some .attached else none)

def jUnlock (env : Env) (lockType : LockType) : File → File
  | primary lock f =>
      let (_, lock', f', _) := Connection.jUnlock () env.primary lockType lock f
      primary lock' f'
  | attached f => attached (jUnlockAttached lockType f)

/-- A queued operation goes on; the last part: where it waits again.  A
database queues operations of its own kind only. -/
def resume (env : Env) (op : Op) : File → File × Option Op
  | primary lock f =>
      match op with
      | .primary op =>
          let (lock', f', waiting) := op.resume () env.primary lock f
          (primary lock' f', waiting.map .primary)
      | .attached => (primary lock f, some .attached)
  | attached f =>
      match op with
      | .attached =>
          let (f', waits) := retryLockAttachedDatabase env.attached f
          (attached f', if waits then some .attached else none)
      | .primary op => (attached f, some (.primary op))

/-- The file controls between the lock calls that set what `jLock` looks at. -/
def setHint (hint : WriteHint) : File → File
  | primary lock f => primary lock { f with writeHint := some hint }
  | attached f => attached { f with writeHint := some hint }

def setLockingMode (mode : Connection.LockingMode) : File → File
  | primary lock f => primary lock { f with lockingMode := mode }
  | attached f => attached f

def setLazyLock (mode : Connection.LazyLockMode) : File → File
  | primary lock f => primary lock { f with useLazyLock := some mode }
  | attached f => attached f

/-- The platform takes a lazily released write lock away. -/
def yieldLock : File → File
  | primary lock f => primary (if lock.lazy then ⟨none, false⟩ else lock) f
  | attached f => attached f

end File

/-! ## §3. A statement. -/

/-- Where SQLite is in a statement. -/
inductive Phase where
  /-- it issues calls -/
  | running
  /-- a call was refused: it only unlocks -/
  | refused
  /-- it waits for the queued operations -/
  | awaiting
  /-- the statement has finally ended -/
  | ended
  deriving DecidableEq, Repr

structure State (Db : Type) where
  files : Db → File
  /-- the lock SQLite believes to hold -/
  sqliteLock : Db → LockType
  queue : List (Db × Op)
  phase : Phase
  /-- the database whose `SHARED` request was refused and that SQLite has not
  unlocked yet -/
  owed : Option Db

inductive Act (Db : Type) where
  | lock (d : Db) (lockType : LockType) (env : Env)
  | unlock (d : Db) (lockType : LockType) (env : Env)
  | hint (d : Db) (hint : WriteHint)
  | lockingMode (d : Db) (mode : Connection.LockingMode)
  | lazyLock (d : Db) (mode : Connection.LazyLockMode)
  /-- SQLite returns from the execution -/
  | stop
  /-- a queued operation goes on -/
  | resume (d : Db) (op : Op) (env : Env)
  /-- everything queued has ended -/
  | reexecute
  /-- the next statement -/
  | begin
  | yieldLock (d : Db)

variable {Db : Type} [DecidableEq Db]

/-- SQLite's order of the lock requests for one file. -/
def LockInOrder (sqliteLock lockType : LockType) : Prop :=
  (lockType = .shared ∧ sqliteLock = .none) ∨
    (LockType.reserved.level ≤ lockType.level ∧ sqliteLock ≠ .none
      ∧ sqliteLock.level < lockType.level)

instance decidableLockInOrder (sqliteLock lockType : LockType) :
    Decidable (LockInOrder sqliteLock lockType) :=
  inferInstanceAs (Decidable (_ ∨ _))

def UnlockInOrder (sqliteLock lockType : LockType) : Prop :=
  lockType = .none ∨ (lockType = .shared ∧ sqliteLock ≠ .none)

instance decidableUnlockInOrder (sqliteLock lockType : LockType) :
    Decidable (UnlockInOrder sqliteLock lockType) :=
  inferInstanceAs (Decidable (_ ∨ _))

namespace State

def setFile (s : State Db) (d : Db) (f : File) : State Db :=
  { s with files := Function.update s.files d f }

/-- The state after a lock call: SQLite stops at the first refusal. -/
def afterLock (s : State Db) (d : Db) (lockType : LockType) (x : Rc × File × Option Op) :
    State Db where
  files := Function.update s.files d x.2.1
  sqliteLock := if x.1 = .ok then Function.update s.sqliteLock d lockType else s.sqliteLock
  queue := s.queue ++ (x.2.2.map fun op => (d, op)).toList
  phase := if x.1 = .ok then s.phase else .refused
  owed := if x.1 ≠ .ok ∧ lockType = .shared then some d else s.owed

def afterUnlock (s : State Db) (d : Db) (lockType : LockType) (f : File) : State Db where
  files := Function.update s.files d f
  sqliteLock := Function.update s.sqliteLock d lockType
  queue := s.queue
  phase := s.phase
  owed := if lockType = .none ∧ s.owed = some d then none else s.owed

def afterResume (s : State Db) (d : Db) (op : Op) (x : File × Option Op) : State Db :=
  { s with
    files := Function.update s.files d x.1
    queue := s.queue.erase (d, op) ++ (x.2.map fun again => (d, again)).toList }

end State

/-- One step; `none` where it is not open to SQLite. -/
def step (s : State Db) : Act Db → Option (State Db)
  | .lock d lockType env =>
      if s.phase = .running ∧ LockInOrder (s.sqliteLock d) lockType then
        some (s.afterLock d lockType ((s.files d).jLock env lockType))
      else none
  | .unlock d lockType env =>
      if (s.phase = .running ∨ s.phase = .refused) ∧ UnlockInOrder (s.sqliteLock d) lockType then
        some (s.afterUnlock d lockType ((s.files d).jUnlock env lockType))
      else none
  | .hint d hint =>
      if s.phase = .running then some (s.setFile d ((s.files d).setHint hint)) else none
  | .lockingMode d mode =>
      if s.phase = .running then some (s.setFile d ((s.files d).setLockingMode mode)) else none
  | .lazyLock d mode =>
      if s.phase = .running then some (s.setFile d ((s.files d).setLazyLock mode)) else none
  | .stop =>
      if (s.phase = .running ∨ s.phase = .refused) ∧ s.owed = none then
        some { s with phase := if s.queue = [] then .ended else .awaiting }
      else none
  | .resume d op env =>
      if (d, op) ∈ s.queue then some (s.afterResume d op ((s.files d).resume env op)) else none
  | .reexecute =>
      if s.phase = .awaiting ∧ s.queue = [] then some { s with phase := .running } else none
  | .begin => if s.phase = .ended then some { s with phase := .running } else none
  | .yieldLock d => some (s.setFile d (s.files d).yieldLock)

/-- A connection all of whose databases have just been opened. -/
def State.IsNew (s : State Db) : Prop :=
  (∀ d, (s.files d).lockState = .none ∧ (s.files d).unanswered = true
      ∧ (s.files d).holds = false ∧ s.sqliteLock d = .none)
    ∧ s.queue = [] ∧ s.phase = .ended ∧ s.owed = none

def machine (Db : Type) [DecidableEq Db] : System (State Db) (Act Db) where
  init := State.IsNew
  next s act s' := step s act = some s'

/-- The databases that their last queued retry left with a lock, and that no
execution has asked for since. -/
def noteLeft (left : Db → Bool) (s : State Db) : Act Db → Db → Bool
  | .lock d _ _ => Function.update left d false
  | .resume d op env =>
      let (f, waiting) := (s.files d).resume env op
      if waiting = none then Function.update left d f.holds else left
  | _ => left

/-- The runs, with the databases that a retry left holding. -/
def recordedMachine (Db : Type) [DecidableEq Db] : System (State Db × (Db → Bool)) (Act Db) :=
  (machine Db).record (fun _ => false) noteLeft

end MemoryWriteAhead.Statement
