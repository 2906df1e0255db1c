/-
  MemoryWriteAhead.FileLock.Model
  ───────────────────────────────
  **THE FILE LOCK OF A SHARED FILE, ONE ATOMIC STEP AT A TIME.**

  `MemoryWriteAheadVFS.ts`: `acquireMemoryWriteAheadFileLock`,
  `refreshMemoryWriteAheadFileLockHeartbeat`,
  `recoverAbandonedMemoryWriteAheadFileLock` with `finishRecoveredFileLock`,
  `waitForUnlock` and `releaseMemoryWriteAheadFileLock`.

  Every `Atomics` call and every clock reading is one step.  `Atomics.notify`
  changes no word; a context asleep in `Atomics.wait` may wake at any time
  (a notification, the 50 ms timeout).  A stalled or dead context is one that
  takes no step.  The wait statistics that an acquire returns and the age
  passed to the logger are left out: no step reads them.

  The last three fields of `Local` are history: they record when a context is
  a holder and whether it has been prompt, for the statements about holders.
  No step of the four functions reads them.
-/
import MemoryWriteAhead.Library.Transition
import MemoryWriteAhead.Clock

namespace MemoryWriteAhead.FileLock

open Transition

/-! ## §1. The words, the program counter and the local state. -/

/-- The `MEMORY_WRITE_AHEAD_FILE_META` words of the file lock. -/
structure Words where
  lock : Int
  lockOwner : Int
  lockHeartbeatMs : Int
  recoveredAbandonedLockCount : BitVec 32
  deriving DecidableEq, Repr

/-- The words and the common clock. -/
structure Shared where
  words : Words
  clockMs : Int
  deriving DecidableEq, Repr

/-- Who called `recoverAbandonedMemoryWriteAheadFileLock`. -/
inductive Caller where
  | client
  | acquire
  deriving DecidableEq, Repr

/-- The next atomic step of a context. -/
inductive Pc where
  | idle
  /-- `Atomics.load(view, lock)` at the head of the acquire loop -/
  | acquireLoadLock
  /-- `getMemoryWriteAheadLockClockMs()` for the acquire heartbeat -/
  | acquireReadClock
  /-- `Atomics.store(view, lockHeartbeatMs, nowMs)` -/
  | acquireStoreHeartbeat (nowMs : Int)
  /-- `Atomics.compareExchange(view, lock, FILE_LOCK_UNLOCKED, ownerId)` -/
  | acquireTakeLock
  /-- `Atomics.store(view, lockOwner, ownerId)` -/
  | acquireStoreOwner
  /-- `Atomics.load(view, lock)` after the recovery attempt -/
  | acquireReloadLock
  /-- `Atomics.load(view, lock)` in `waitForUnlock` -/
  | waitLoadLock
  /-- `Atomics.wait(view, lock, lockState, FILE_LOCK_WAIT_TIMEOUT_MS)` -/
  | waitSleep
  /-- `Atomics.load(view, lock)` -/
  | recoverLoadLock (caller : Caller)
  /-- `Atomics.load(view, lockHeartbeatMs)` -/
  | recoverLoadHeartbeat (caller : Caller) (lockState : Int)
  /-- the clock reading in `getMemoryWriteAheadLockAgeMs(heartbeatMs)` -/
  | recoverReadClock (caller : Caller) (lockState heartbeatMs : Int)
  /-- `Atomics.compareExchange(view, lock, lockState, recoveryClaim)` -/
  | recoverClaim (caller : Caller) (lockState heartbeatMs : Int)
  /-- `Atomics.load(view, lockHeartbeatMs) !== heartbeatMs` -/
  | recoverRecheck (caller : Caller) (lockState heartbeatMs : Int)
  /-- `Atomics.compareExchange(view, lock, recoveryClaim, lockState)` -/
  | recoverHandBack (caller : Caller) (lockState : Int)
  /-- `finishRecoveredFileLock`: `Atomics.compareExchange(view, lock, claim, 0)` -/
  | recoverFree (caller : Caller) (claim heartbeatMs : Int)
  /-- `finishRecoveredFileLock`: `Atomics.add(view, recoveredAbandonedLockCount, 1)` -/
  | recoverCount (caller : Caller)
  /-- `Atomics.load(view, lock) === ownerId` -/
  | refreshLoadLock
  /-- `Atomics.load(view, lockOwner) === ownerId` -/
  | refreshLoadOwner
  /-- `getMemoryWriteAheadLockClockMs()` for the refreshed heartbeat -/
  | refreshReadClock
  /-- `Atomics.store(view, lockHeartbeatMs, nowMs)` -/
  | refreshStore (nowMs : Int)
  /-- `Atomics.compareExchange(view, lock, ownerId, FILE_LOCK_UNLOCKED)` -/
  | releaseLock
  deriving DecidableEq, Repr

structure Local where
  pc : Pc
  /-- the acquire has returned and release has not been called since -/
  holding : Bool
  /-- the reading of the acquire heartbeat or the time of the latest completed
  refresh call -/
  beatMs : Int
  /-- since the acquire heartbeat, the clock has never been more than `staleMs`
  past `beatMs` -/
  prompt : Bool
  deriving DecidableEq, Repr

/-- What a call tells its caller. -/
inductive Outcome where
  | acquired
  /-- `lock contention requires dedicated worker execution` -/
  | contentionError
  | recoverReturned (recovered : Bool)
  deriving DecidableEq, Repr

/-- A context calls one of the functions, or its running call goes on. -/
inductive Choice where
  | acquire
  | refresh
  | recover
  | release
  | step
  deriving DecidableEq, Repr

/-- What a context brings along. -/
structure Params where
  ownerId : Int
  staleMs : Int
  isWorkerBlockingContext : Bool
  deriving DecidableEq, Repr

/-! ## §2. The atomic steps. -/

def Local.goto (l : Local) (pc : Pc) : Local := { l with pc := pc }

/-- `recoverAbandonedMemoryWriteAheadFileLock` returns to its caller. -/
def Local.endRecover (l : Local) : Caller → Local
  | .client => l.goto .idle
  | .acquire => l.goto .acquireReloadLock

/-- A refresh call ends at the time `nowMs`. -/
def Local.endRefresh (l : Local) (nowMs : Int) : Local :=
  { l with pc := .idle, beatMs := nowMs }

/-- The verdict of a recovery on the word it loaded. -/
def judge (staleMs nowMs : Int) (caller : Caller) (lockState heartbeatMs : Int) (l : Local) :
    Local × Option Outcome :=
  match getMemoryWriteAheadLockAgeMs heartbeatMs nowMs with
  | some ageMs =>
      if ageMs ≤ staleMs then (l.endRecover caller, some (.recoverReturned false))
      else if lockState < 0 then (l.goto (.recoverFree caller lockState heartbeatMs), none)
      else (l.goto (.recoverClaim caller lockState heartbeatMs), none)
  | none =>
      if lockState < 0 then (l.goto (.recoverFree caller lockState heartbeatMs), none)
      else (l.endRecover caller, some (.recoverReturned false))

/-- The running call's next atomic step. -/
def runStep (p : Params) (s : Shared) (l : Local) : Shared × Local × Option Outcome :=
  let w := s.words
  match l.pc with
  | .idle => (s, l, none)
  | .acquireLoadLock =>
      if w.lock = 0 then (s, l.goto .acquireReadClock, none)
      else (s, l.goto (.recoverLoadLock .acquire), none)
  | .acquireReadClock =>
      (s, { l with pc := .acquireStoreHeartbeat s.clockMs, beatMs := s.clockMs, prompt := true },
        none)
  | .acquireStoreHeartbeat nowMs =>
      ({ s with words := { w with lockHeartbeatMs := nowMs } }, l.goto .acquireTakeLock, none)
  | .acquireTakeLock =>
      if w.lock = 0 then
        ({ s with words := { w with lock := p.ownerId } }, l.goto .acquireStoreOwner, none)
      else (s, l.goto (.recoverLoadLock .acquire), none)
  | .acquireStoreOwner =>
      ({ s with words := { w with lockOwner := p.ownerId } },
        { l with pc := .idle, holding := true }, some .acquired)
  | .acquireReloadLock =>
      if w.lock ≠ 0 then (s, l.goto .waitLoadLock, none)
      else (s, l.goto .acquireLoadLock, none)
  | .waitLoadLock =>
      if w.lock = 0 then (s, l.goto .acquireLoadLock, none)
      else if p.isWorkerBlockingContext then (s, l.goto .waitSleep, none)
      else (s, l.goto .idle, some .contentionError)
  | .waitSleep => (s, l.goto .acquireLoadLock, none)
  | .recoverLoadLock caller =>
      if w.lock = 0 then (s, l.endRecover caller, some (.recoverReturned false))
      else (s, l.goto (.recoverLoadHeartbeat caller w.lock), none)
  | .recoverLoadHeartbeat caller lockState =>
      (s, l.goto (.recoverReadClock caller lockState w.lockHeartbeatMs), none)
  | .recoverReadClock caller lockState heartbeatMs =>
      (s, judge p.staleMs s.clockMs caller lockState heartbeatMs l)
  | .recoverClaim caller lockState heartbeatMs =>
      if w.lock = lockState then
        ({ s with words := { w with lock := -lockState } },
          l.goto (.recoverRecheck caller lockState heartbeatMs), none)
      else (s, l.endRecover caller, some (.recoverReturned false))
  | .recoverRecheck caller lockState heartbeatMs =>
      if w.lockHeartbeatMs ≠ heartbeatMs then (s, l.goto (.recoverHandBack caller lockState), none)
      else (s, l.goto (.recoverFree caller (-lockState) heartbeatMs), none)
  | .recoverHandBack caller lockState =>
      ({ s with words := { w with lock := if w.lock = -lockState then lockState else w.lock } },
        l.endRecover caller, some (.recoverReturned false))
  | .recoverFree caller claim _ =>
      if w.lock = claim then
        ({ s with words := { w with lock := 0 } }, l.goto (.recoverCount caller), none)
      else (s, l.endRecover caller, some (.recoverReturned false))
  | .recoverCount caller =>
      ({ s with words :=
          { w with recoveredAbandonedLockCount := w.recoveredAbandonedLockCount + 1 } },
        l.endRecover caller, some (.recoverReturned true))
  | .refreshLoadLock =>
      if w.lock = p.ownerId then (s, l.goto .refreshLoadOwner, none)
      else (s, l.endRefresh s.clockMs, none)
  | .refreshLoadOwner =>
      if w.lockOwner = p.ownerId then (s, l.goto .refreshReadClock, none)
      else (s, l.endRefresh s.clockMs, none)
  | .refreshReadClock => (s, l.goto (.refreshStore s.clockMs), none)
  | .refreshStore nowMs =>
      ({ s with words := { w with lockHeartbeatMs := nowMs } }, l.endRefresh nowMs, none)
  | .releaseLock =>
      ({ s with words := { w with lock := if w.lock = p.ownerId then 0 else w.lock } },
        l.goto .idle, none)

/-- One choice of a context; `none` where the choice is not open to it.  A
holder does not acquire the lock it holds a second time. -/
def choose (p : Params) (choice : Choice) (s : Shared) (l : Local) :
    Option (Shared × Local × Option Outcome) :=
  match choice with
  | .acquire =>
      if l.pc = .idle ∧ l.holding = false then some (s, l.goto .acquireLoadLock, none) else none
  | .refresh => if l.pc = .idle then some (s, l.goto .refreshLoadLock, none) else none
  | .recover => if l.pc = .idle then some (s, l.goto (.recoverLoadLock .client), none) else none
  | .release =>
      if l.pc = .idle then some (s, { l with pc := .releaseLock, holding := false }, none)
      else none
  | .step => if l.pc = .idle then none else some (runStep p s l)

/-! ## §3. Any number of contexts on one file. -/

/-- An action: the choice and what it told the caller. -/
structure Act where
  choice : Choice
  outcome : Option Outcome
  deriving DecidableEq

/-- The contexts that use one file's lock words: positive, pairwise distinct
owner ids and one `staleMs`. -/
structure Contexts (Ctx : Type) where
  ownerId : Ctx → Int
  owner_pos : ∀ t, 0 < ownerId t
  owner_inj : ∀ t u, ownerId t = ownerId u → t = u
  staleMs : Int
  stale_pos : 0 < staleMs
  isWorkerBlockingContext : Ctx → Bool

variable {Ctx : Type}

def Contexts.params (C : Contexts Ctx) (t : Ctx) : Params where
  ownerId := C.ownerId t
  staleMs := C.staleMs
  isWorkerBlockingContext := C.isWorkerBlockingContext t

/-- The clock moves on, and the contexts whose heartbeat has become older than
`staleMs` have not been prompt. -/
def tick (staleMs nowMs : Int) (c : Config Ctx Shared Local) : Config Ctx Shared Local where
  shared := { c.shared with clockMs := nowMs }
  threads t :=
    { c.threads t with
      prompt := (c.threads t).prompt && decide (nowMs ≤ (c.threads t).beatMs + staleMs) }

/-- At the start no call runs and no context holds the lock; the words are
arbitrary but for a heartbeat that is not in the future. -/
def Contexts.machine (C : Contexts Ctx) : Threads Ctx Shared Local Act where
  start s th := 1 ≤ s.clockMs ∧ s.words.lockHeartbeatMs ≤ s.clockMs ∧
    ∀ t, (th t).pc = .idle ∧ (th t).holding = false ∧ (th t).prompt = false
      ∧ (th t).beatMs ≤ s.clockMs
  act t a s l s' l' := choose (C.params t) a.choice s l = some (s', l', a.outcome)
  env c c' := ∃ nowMs, c.shared.clockMs ≤ nowMs ∧ c' = tick C.staleMs nowMs c

variable [DecidableEq Ctx]

abbrev Contexts.system (C : Contexts Ctx) :
    System (Config Ctx Shared Local) (ThreadLabel Ctx Act) :=
  C.machine.system

end MemoryWriteAhead.FileLock
