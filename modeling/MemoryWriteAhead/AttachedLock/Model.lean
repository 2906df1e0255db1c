/-
  MemoryWriteAhead.AttachedLock.Model
  ───────────────────────────────────
  **THE TRANSACTION LOCK OF AN ATTACHED DATABASE, ONE ATOMIC STEP AT A TIME.**

  `MemoryWriteAheadVFS.ts`: `#tryLockAttachedDatabase`,
  `#retryLockAttachedDatabase` and `#releaseAttachedDatabaseLock`;
  `memoryWriteAheadSharedRuntime.ts`: `quarantineTransactionLocksForRuntimeOwner`.

  Every `Atomics` call is one step, so a record's place inside a call is a
  program counter `Pc`.  Code between two `Atomics` calls touches nothing
  shared and runs with the step before it.  `Atomics.notify` changes no word
  and has no step of its own.  A context that dies is one that takes no
  further step.

  Both lease-recovery functions reach the words of this file only by calling
  `quarantineTransactionLocksForRuntimeOwner` with some owner id, so a
  quarantine may start in any context, at any time and for any id.
-/
import MemoryWriteAhead.Library.Transition

namespace MemoryWriteAhead.AttachedLock

open Transition

/-! ## §1. The words and a record's program counter. -/

/-- The `MEMORY_WRITE_AHEAD_FILE_META` words of the transaction lock. -/
structure Words where
  transactionLock : Int
  transactionLockRuntimeOwner : Int
  abandonedTransaction : Int
  deriving DecidableEq, Repr

/-- Who called `#tryLockAttachedDatabase`. -/
inductive Caller where
  | jLock
  | retryLockAttachedDatabase
  deriving DecidableEq, Repr

/-- The next atomic step of a record. -/
inductive Pc where
  | idle
  /-- `Atomics.load(meta, abandonedTransaction)` -/
  | loadAbandoned (caller : Caller)
  /-- `Atomics.compareExchange(meta, transactionLock, 0, claim)` -/
  | claimLock (caller : Caller)
  /-- `Atomics.store(meta, transactionLockRuntimeOwner, runtimeOwnerId)` -/
  | storeRuntimeOwner (caller : Caller)
  /-- `Atomics.compareExchange(meta, transactionLock, claim, lockOwnerId)` -/
  | promoteClaim (caller : Caller)
  /-- the deadline test of the retry loop, after a failed attempt -/
  | retryDeadline
  /-- `Atomics.compareExchange(meta, transactionLock, ownerId, releaseClaim)` -/
  | releaseClaim
  /-- `Atomics.store(meta, transactionLockRuntimeOwner, 0)` -/
  | clearRuntimeOwner
  /-- `Atomics.compareExchange(meta, transactionLock, releaseClaim, 0)` -/
  | freeLock
  /-- quarantine: `Atomics.load(meta, transactionLockRuntimeOwner)` -/
  | loadRuntimeOwner (ownerId : Int)
  /-- quarantine: `Atomics.load(meta, transactionLock)` -/
  | loadTransactionLock (ownerId : Int)
  /-- quarantine: `Atomics.store(meta, abandonedTransaction, 1)` -/
  | storeAbandoned (ownerId : Int)
  deriving DecidableEq, Repr

/-- The lock fields of one open record of the attached file. -/
structure Ids where
  attachedTransactionLockOwnerId : Int
  attachedTransactionLockRuntimeOwnerId : Int
  deriving DecidableEq, Repr

/-- What one record (and the context that owns it) keeps to itself. -/
structure Local where
  attachedTransactionLockHeld : Bool
  /-- retry loops of this record that wait in `setTimeout` -/
  sleepingRetries : Nat
  pc : Pc
  deriving DecidableEq, Repr

/-- What a call tells its caller. -/
inductive Outcome where
  | tryReturned (locked : Bool)
  /-- the `MemoryWriteAheadBusyError` of a quarantined database -/
  | quarantined
  /-- `Lost attached database lock claim` -/
  | lostClaim
  /-- `Missing attached database lock state` -/
  | missingState
  deriving DecidableEq, Repr

/-- What happens next in a context: a call starts, a sleeping retry loop wakes
up, or the running call takes its next atomic step. -/
inductive Choice where
  | tryLock
  | startRetry
  | wakeRetry
  | release
  | quarantine (ownerId : Int)
  | step
  /-- the retry loop finds its deadline passed -/
  | timedOut
  deriving DecidableEq, Repr

/-! ## §2. The calls. -/

/-- A record whose call has ended. -/
def Local.done (l : Local) : Local := { l with pc := .idle }

/-- `#tryLockAttachedDatabase` up to its first atomic step. -/
def startTry (ids : Ids) (caller : Caller) (l : Local) : Local × Option Outcome :=
  if l.attachedTransactionLockHeld then (l.done, some (.tryReturned true))
  else if ids.attachedTransactionLockOwnerId = 0
      ∨ ids.attachedTransactionLockRuntimeOwnerId = 0 then
    (l.done, some .missingState)
  else ({ l with pc := .loadAbandoned caller }, none)

/-- `#releaseAttachedDatabaseLock` up to its first atomic step. -/
def startRelease (ids : Ids) (l : Local) : Local :=
  if l.attachedTransactionLockHeld && ids.attachedTransactionLockOwnerId ≠ 0 then
    { l with pc := .releaseClaim }
  else l.done

/-- The end of an attempt that returned `false`. -/
def afterFailedTry (caller : Caller) (l : Local) : Local :=
  match caller with
  | .jLock => l.done
  | .retryLockAttachedDatabase => { l with pc := .retryDeadline }

/-- The end of an attempt that threw: the retry loop's `catch` releases. -/
def afterThrow (ids : Ids) (caller : Caller) (l : Local) : Local :=
  match caller with
  | .jLock => l.done
  | .retryLockAttachedDatabase => startRelease ids l

/-- The running call's next atomic step. -/
def runStep (ids : Ids) (w : Words) (l : Local) : Words × Local × Option Outcome :=
  let claim := -ids.attachedTransactionLockOwnerId
  match l.pc with
  | .idle => (w, l, none)
  | .loadAbandoned caller =>
      if w.abandonedTransaction ≠ 0 then (w, afterThrow ids caller l, some .quarantined)
      else (w, { l with pc := .claimLock caller }, none)
  | .claimLock caller =>
      if w.transactionLock = 0 then
        ({ w with transactionLock := claim }, { l with pc := .storeRuntimeOwner caller }, none)
      else (w, afterFailedTry caller l, some (.tryReturned false))
  | .storeRuntimeOwner caller =>
      ({ w with transactionLockRuntimeOwner := ids.attachedTransactionLockRuntimeOwnerId },
        { l with pc := .promoteClaim caller }, none)
  | .promoteClaim caller =>
      if w.transactionLock = claim then
        ({ w with transactionLock := ids.attachedTransactionLockOwnerId },
          { l with attachedTransactionLockHeld := true, pc := .idle },
          some (.tryReturned true))
      else (w, afterThrow ids caller l, some .lostClaim)
  | .retryDeadline =>
      (w, { l with sleepingRetries := l.sleepingRetries + 1, pc := .idle }, none)
  | .releaseClaim =>
      if w.transactionLock = ids.attachedTransactionLockOwnerId then
        ({ w with transactionLock := claim }, { l with pc := .clearRuntimeOwner }, none)
      else (w, { l with attachedTransactionLockHeld := false, pc := .idle }, none)
  | .clearRuntimeOwner =>
      ({ w with transactionLockRuntimeOwner := 0 }, { l with pc := .freeLock }, none)
  | .freeLock =>
      ({ w with transactionLock := if w.transactionLock = claim then 0 else w.transactionLock },
        { l with attachedTransactionLockHeld := false, pc := .idle }, none)
  | .loadRuntimeOwner ownerId =>
      if w.transactionLockRuntimeOwner ≠ ownerId then (w, l.done, none)
      else (w, { l with pc := .loadTransactionLock ownerId }, none)
  | .loadTransactionLock ownerId =>
      if w.transactionLock ≠ 0 then (w, { l with pc := .storeAbandoned ownerId }, none)
      else (w, l.done, none)
  | .storeAbandoned _ => ({ w with abandonedTransaction := 1 }, l.done, none)

/-- One choice of a context; `none` where the choice is not open to it. -/
def choose (ids : Ids) (choice : Choice) (w : Words) (l : Local) :
    Option (Words × Local × Option Outcome) :=
  match choice with
  | .tryLock =>
      if l.pc = .idle then some (w, startTry ids .jLock l) else none
  | .startRetry =>
      if l.pc = .idle then some (w, startTry ids .retryLockAttachedDatabase l) else none
  | .wakeRetry =>
      if l.pc = .idle ∧ 0 < l.sleepingRetries then
        some (w, startTry ids .retryLockAttachedDatabase
          { l with sleepingRetries := l.sleepingRetries - 1 })
      else none
  | .release => if l.pc = .idle then some (w, startRelease ids l, none) else none
  | .quarantine ownerId =>
      if l.pc = .idle then some (w, { l with pc := .loadRuntimeOwner ownerId }, none) else none
  | .step => if l.pc = .idle then none else some (runStep ids w l)
  | .timedOut =>
      if l.pc = .retryDeadline then some (w, startRelease ids l, none) else none

/-! ## §3. Any number of instances on one attached file. -/

/-- An action: the choice and what it told the caller. -/
structure Act where
  choice : Choice
  outcome : Option Outcome
  deriving DecidableEq

variable {Instance : Type} [DecidableEq Instance]

/-- The attached file starts unlocked with every record idle; nothing else is
assumed of its words. -/
def machine (ids : Instance → Ids) : Threads Instance Words Local Act where
  start w th := w.transactionLock = 0 ∧
    ∀ i, (th i).attachedTransactionLockHeld = false ∧ (th i).pc = .idle
  act i a w l w' l' := choose (ids i) a.choice w l = some (w', l', a.outcome)
  env _ _ := False

/-- The `#tryLockAttachedDatabase` of the record has returned true and its next
`#releaseAttachedDatabaseLock` has not started. -/
def Local.InTransaction (l : Local) : Prop :=
  l.attachedTransactionLockHeld = true ∧
    l.pc ≠ .releaseClaim ∧ l.pc ≠ .clearRuntimeOwner ∧ l.pc ≠ .freeLock

instance (l : Local) : Decidable l.InTransaction :=
  inferInstanceAs (Decidable (_ ∧ _))

end MemoryWriteAhead.AttachedLock
