/-
  MemoryWriteAhead.Primary.Refinement
  ───────────────────────────────────
  **THE LOCK CALLS OVER THE LOG REFINE THOSE OF THE LOCK FIELDS.**

  `Connection` has the lock calls of a file with the log's part in them as answers of
  the environment; `Primary` runs the code of the log.  `openFile` forgets the log and
  `Answers.env` reads the answers off it: under these every call and every queued
  operation does the same to the lock, the fields and the queue.

    • `jLock_refines`, `jUnlock_refines` — the calls,
    • `resume_refines` — the queued operations.
-/
import MemoryWriteAhead.Primary.Model
import MemoryWriteAhead.WriteAhead.Pending

namespace MemoryWriteAhead.Primary

open Outcome
open Connection (OpenFile Op Env VfsError LockType WriteLock lockError)
open WriteAhead (World WA WaError Conn.isTransactionPending advanceTxId readFrame takenUp_own)

/-! ## §1. What the log is forgotten for. -/

def isolationOf : WriteAhead.Isolation → Connection.Isolation
  | .read => .read
  | .write => .write

def Retry.op : Retry → Op
  | .lockRead => .lockRead
  | .lockExclusive => .lockExclusive
  | .lockWrite => .lockWrite
  | .upgrade => .upgrade

/-- What code of the log throws. -/
def thrown {α : Type} (code : WA α) (w : World) : Option VfsError :=
  match code w with
  | .ok _ _ => none
  | .error e _ => some (vfsError e)

/-- Nothing is pending, and no frame is behind the view. -/
def isCurrent (w : World) : Bool :=
  decide (w.conn.mapIdToPendingTx.keys = []
    ∧ readFrame w.store w.conn w.conn.activeOffset = none)

variable {Conn : Type}

/-- The lock fields of the file. -/
def PrimaryFile.openFile (p : PrimaryFile Conn) : OpenFile where
  lockState := p.lockState
  retryResult := p.retryResult
  writeHint := p.writeHint
  lockingMode := p.lockingMode
  useLazyLock := p.useLazyLock
  isolationState := p.isolationState.map isolationOf
  txInProgress := p.world.conn.isTransactionPending

/-- The answers to a step, with those that the log gives. -/
def Answers.env (a : Answers) (acquired : Except VfsError Bool) (p : PrimaryFile Conn) : Env where
  readHeld := a.readHeld
  acquired := acquired
  advance :=
    if p.isolationState = none then thrown (advanceTxId true) (p.world.isolated (some .write))
    else thrown (advanceTxId false) p.world
  backstop := thrown (WriteAhead.rejoin a.backstopDue) p.world
  current := .ok (isCurrent p.world)
  begun := false
  threw := false

/-- What a call returns, seen through the fields. -/
def Return.image (r : Return Conn) : Connection.Return Conn :=
  (r.1, r.2.1.lock, r.2.1.openFile, r.2.2.map Retry.op)

def Progress.image (r : Progress Conn) : Connection.Progress Conn :=
  (r.1.lock, r.1.openFile, r.2.map Retry.op)

/-! ## §2. The code of the log. -/

section

variable {p p' : PrimaryFile Conn}

/-- The error of a run. -/
def errorOf {α : Type} : Except VfsError α → Option VfsError
  | .ok _ => none
  | .error e => some e

theorem errorOf_run {α : Type} (p : PrimaryFile Conn) (code : WA α) :
    errorOf (p.run code).1 = thrown code p.world := by
  unfold PrimaryFile.run thrown
  cases code p.world with
  | ok a w => rfl
  | error e w => rfl

/-- The lock has no part in the code of the log. -/
theorem withLock_run {α : Type} (p : PrimaryFile Conn) (lock : WriteLock Conn) (code : WA α) :
    (p.withLock lock).run code = ((p.run code).1, (p.run code).2.withLock lock) := by
  unfold PrimaryFile.run PrimaryFile.withLock
  dsimp only
  cases code p.world with
  | ok a w => rfl
  | error e w => rfl

/-- It does not touch the lock either. -/
theorem run_lock {α : Type} (p : PrimaryFile Conn) (code : WA α) :
    (p.run code).2.lock = p.lock := by
  unfold PrimaryFile.run
  cases code p.world with
  | ok a w => rfl
  | error e w => rfl

/-- The lock fields after code that leaves the world so. -/
theorem run_openFile {α : Type} {code : WA α} {isolation : Option WriteAhead.Isolation}
    (h : Yields code p.world
      (fun _ w => w.conn.isolationState = isolation
        ∧ w.conn.txInProgress = p.world.conn.txInProgress)
      (fun _ w => w.conn.isolationState = isolation
        ∧ w.conn.txInProgress = p.world.conn.txInProgress)) :
    (p.run code).2.openFile
      = { p.openFile with isolationState := isolation.map isolationOf } := by
  have hfields (w : World) (hw : w.conn.isolationState = isolation
      ∧ w.conn.txInProgress = p.world.conn.txInProgress) :
      ({ p with world := w } : PrimaryFile Conn).openFile
        = { p.openFile with isolationState := isolation.map isolationOf } := by
    unfold PrimaryFile.openFile PrimaryFile.isolationState WriteAhead.Conn.isTransactionPending
    dsimp only
    rw [hw.1, hw.2]
  unfold PrimaryFile.run
  unfold Yields at h
  split at h
  next hrun =>
    rw [hrun]
    exact hfields _ h
  next hrun =>
    rw [hrun]
    exact hfields _ h

theorem isolationOf_injective : Function.Injective isolationOf := by
  intro i j h
  cases i <;> cases j <;> first | rfl | cases h

/-- The isolation of the fields is that of the log. -/
theorem openFile_read_iff :
    p.openFile.isolationState = some .read ↔ p.isolationState = some .read :=
  (Option.map_injective isolationOf_injective).eq_iff (b := some .read)

theorem openFile_write_iff :
    p.openFile.isolationState = some .write ↔ p.isolationState = some .write :=
  (Option.map_injective isolationOf_injective).eq_iff (b := some .write)

/-- A connection that is isolated already is left as it is. -/
theorem isolateForRead_cases (p : PrimaryFile Conn) :
    (p.run WriteAhead.isolateForRead = (.ok ⟨⟩, { p with world := p.world.isolated (some .read) })
      ∧ Connection.isolateForRead p.openFile
        = .ok ({ p with world := p.world.isolated (some .read) } : PrimaryFile Conn).openFile)
    ∨ p.run WriteAhead.isolateForRead = (.error .alreadyIsolated, p)
      ∧ Connection.isolateForRead p.openFile = .error .alreadyIsolated := by
  have hiso : p.openFile.isolationState = p.world.conn.isolationState.map isolationOf := rfl
  unfold Connection.isolateForRead PrimaryFile.run WriteAhead.isolateForRead
  rw [get_bind_run, hiso]
  cases hfree : p.world.conn.isolationState with
  | none => exact .inl ⟨rfl, rfl⟩
  | some isolation => exact .inr ⟨rfl, rfl⟩

/-- The isolation begins before the view catches up, and stays if that throws. -/
theorem isolateForWrite_refines (a : Answers) (acquired : Except VfsError Bool)
    (p : PrimaryFile Conn) :
    Connection.isolateForWrite (a.env acquired p) p.openFile
      = (errorOf (p.run WriteAhead.isolateForWrite).1,
        (p.run WriteAhead.isolateForWrite).2.openFile) := by
  have hiso : p.openFile.isolationState = p.world.conn.isolationState.map isolationOf := rfl
  unfold Connection.isolateForWrite
  by_cases hfree : p.world.conn.isolationState = none
  · have hcode : WriteAhead.isolateForWrite p.world
        = advanceTxId true (p.world.isolated (some .write)) := by
      unfold WriteAhead.isolateForWrite
      rw [get_bind_run, if_neg (not_not_intro hfree)]
      rfl
    have hyields : Yields WriteAhead.isolateForWrite p.world
        (fun _ w => w.conn.isolationState = some .write
          ∧ w.conn.txInProgress = p.world.conn.txInProgress)
        (fun _ w => w.conn.isolationState = some .write
          ∧ w.conn.txInProgress = p.world.conn.txInProgress) := by
      have hkeeps := (takenUp_own (some .write) p.world.conn.txInProgress).advanceTxId true
        (p.world.isolated (some .write)) ⟨rfl, rfl⟩
      unfold Yields at hkeeps ⊢
      rw [hcode]
      exact hkeeps
    rw [if_neg (by rw [hiso, hfree]; exact not_not_intro rfl), run_openFile hyields, errorOf_run]
    unfold Answers.env thrown
    dsimp only
    rw [if_pos (show p.isolationState = none from hfree), hcode]
    rfl
  · have hcode : WriteAhead.isolateForWrite p.world = .error .alreadyIsolated p.world := by
      unfold WriteAhead.isolateForWrite
      rw [get_bind_run, if_pos hfree]
      rfl
    rw [if_pos (by rw [hiso]; simpa using hfree)]
    unfold PrimaryFile.run
    rw [hcode]
    rfl

theorem tryUpgrade_refines (a : Answers) (acquired : Except VfsError Bool) (p : PrimaryFile Conn) :
    Connection.tryUpgradeReadIsolationToWrite (a.env acquired p) p.openFile
      = ((p.run WriteAhead.tryUpgradeReadIsolationToWrite).1,
        (p.run WriteAhead.tryUpgradeReadIsolationToWrite).2.openFile) := by
  have hiso : p.openFile.isolationState = p.world.conn.isolationState.map isolationOf := rfl
  have hcurrent : (a.env acquired p).current = .ok (isCurrent p.world) := rfl
  unfold Connection.tryUpgradeReadIsolationToWrite PrimaryFile.run
    WriteAhead.tryUpgradeReadIsolationToWrite
  rw [get_bind_run, hiso, hcurrent]
  by_cases hread : p.world.conn.isolationState = some .read
  · rw [if_neg (not_not_intro hread), if_neg (by rw [hread]; exact not_not_intro rfl)]
    unfold isCurrent
    by_cases hpending : p.world.conn.mapIdToPendingTx.keys = []
    · rw [if_neg (not_not_intro hpending)]
      by_cases hframe : readFrame p.world.store p.world.conn p.world.conn.activeOffset = none
      · rw [if_neg (not_not_intro hframe), decide_eq_true ⟨hpending, hframe⟩]
        rfl
      · rw [if_pos hframe, decide_eq_false fun h => hframe h.2]
        rfl
    · rw [if_pos hpending, decide_eq_false fun h => hpending h.1]
      rfl
  · have hnot : p.world.conn.isolationState.map isolationOf ≠ some .read := fun h =>
      hread (openFile_read_iff.mp h)
    rw [if_pos hread, if_pos hnot]
    rfl

/-- The end of `rejoin`, which has given up the isolation. -/
theorem leave_yields (backstopDue : Bool) {w : World} (hfree : w.conn.isolationState = none)
    {inProgress : Option WriteAhead.Transaction} (htx : w.conn.txInProgress = inProgress) :
    Yields (WriteAhead.leave backstopDue) w
      (fun _ w' => w'.conn.isolationState = none ∧ w'.conn.txInProgress = inProgress)
      (fun _ w' => w'.conn.isolationState = none ∧ w'.conn.txInProgress = inProgress) := by
  unfold WriteAhead.leave
  cases backstopDue with
  | false => exact ⟨hfree, htx⟩
  | true => exact (takenUp_own none inProgress).advanceTxId true w ⟨hfree, htx⟩

/-- Where the first half of `rejoin` throws, the isolation stays. -/
theorem rejoin_refines (a : Answers) (acquired : Except VfsError Bool) (p : PrimaryFile Conn) :
    Connection.rejoin (a.env acquired p) p.openFile
      = (errorOf (p.run (WriteAhead.rejoin a.backstopDue)).1,
        (p.run (WriteAhead.rejoin a.backstopDue)).2.openFile) := by
  have hiso : p.openFile.isolationState = p.world.conn.isolationState.map isolationOf := rfl
  have hbackstop : (a.env acquired p).backstop
      = errorOf (p.run (WriteAhead.rejoin a.backstopDue)).1 :=
    (errorOf_run p _).symm
  -- what a `rejoin` leaves that gives up the isolation
  have hleft {w : World} (hcode : WriteAhead.rejoin a.backstopDue p.world
      = WriteAhead.leave a.backstopDue w) (hfree : w.conn.isolationState = none)
      (htx : w.conn.txInProgress = p.world.conn.txInProgress) :
      (p.run (WriteAhead.rejoin a.backstopDue)).2.openFile
        = { p.openFile with isolationState := none } := by
    have hyields := leave_yields a.backstopDue hfree htx
    have hrejoins : Yields (WriteAhead.rejoin a.backstopDue) p.world
        (fun _ w => w.conn.isolationState = none
          ∧ w.conn.txInProgress = p.world.conn.txInProgress)
        (fun _ w => w.conn.isolationState = none
          ∧ w.conn.txInProgress = p.world.conn.txInProgress) := by
      unfold Yields at hyields ⊢
      rw [hcode]
      exact hyields
    exact run_openFile hrejoins
  unfold Connection.rejoin
  by_cases hread : p.world.conn.isolationState = some .read
  · have hstate : p.openFile.isolationState = some .read := by rw [hiso, hread]; rfl
    have hadvance : (a.env acquired p).advance = thrown (advanceTxId false) p.world := by
      unfold Answers.env
      dsimp only
      rw [if_neg]
      show p.world.conn.isolationState ≠ none
      rw [hread]
      exact Option.some_ne_none _
    have hkeeps := (takenUp_own (some .read) p.world.conn.txInProgress).advanceTxId false p.world
      ⟨hread, rfl⟩
    cases hrun : advanceTxId false p.world with
    | ok _ w =>
        obtain ⟨-, htx⟩ := hkeeps.of_ok hrun
        have hnone : (a.env acquired p).advance = none := by
          rw [hadvance]
          unfold thrown
          rw [hrun]
        rw [if_neg fun h => h.2 hnone, hbackstop, hleft (WriteAhead.rejoin_read hread hrun) rfl htx]
    | error e w =>
        have hsome : (a.env acquired p).advance = some (vfsError e) := by
          rw [hadvance]
          unfold thrown
          rw [hrun]
        have hcode : WriteAhead.rejoin a.backstopDue p.world = .error e w := by
          rw [WriteAhead.rejoin, get_bind_run, if_pos hread, bind_of_error hrun]
        have hsame : (p.run (WriteAhead.rejoin a.backstopDue)).2.openFile = p.openFile := by
          have hyields : Yields (WriteAhead.rejoin a.backstopDue) p.world
              (fun _ w => w.conn.isolationState = some .read
                ∧ w.conn.txInProgress = p.world.conn.txInProgress)
              (fun _ w => w.conn.isolationState = some .read
                ∧ w.conn.txInProgress = p.world.conn.txInProgress) := by
            unfold Yields
            rw [hcode]
            exact hkeeps.of_error hrun
          rw [run_openFile hyields]
          show { p.openFile with isolationState := some .read } = p.openFile
          rw [← hstate]
        rw [if_pos ⟨hstate, by rw [hsome]; exact Option.some_ne_none _⟩, hsome, hsame]
        unfold PrimaryFile.run
        rw [hcode]
        rfl
  · have hnot : p.openFile.isolationState ≠ some .read := fun h =>
      hread (openFile_read_iff.mp h)
    rw [if_neg fun h => hnot h.1, hbackstop, hleft (WriteAhead.rejoin_free hread) rfl rfl]

end

/-! ## §3. The calls. -/

section

variable [DecidableEq Conn] {c : Conn}

theorem jLockShared_refines (a : Answers) (p : PrimaryFile Conn) :
    Connection.jLockShared c (a.env (.ok a.writeHeld) p) p.lock p.openFile
      = Return.image (jLockShared c a p) := by
  have hresult : p.openFile.retryResult = p.retryResult := rfl
  unfold Connection.jLockShared jLockShared
  rw [hresult]
  cases p.retryResult with
  | null =>
      dsimp only
      by_cases hmode : p.lockingMode = .exclusive
      · rw [if_pos (show p.openFile.lockingMode = .exclusive from hmode), if_pos hmode]
        rfl
      · rw [if_neg (show p.openFile.lockingMode ≠ .exclusive from hmode), if_neg hmode]
        by_cases hhint : p.writeHint = none
        · rw [if_neg (show ¬p.openFile.writeHint ≠ none from not_not_intro hhint),
            if_neg (not_not_intro hhint)]
          show (if a.readHeld = true then _ else _) = _
          cases a.readHeld with
          | false => rfl
          | true =>
              rcases isolateForRead_cases p with ⟨hrun, hfields⟩ | ⟨hrun, hfields⟩
              · rw [hrun, hfields]
                rfl
              · rw [hrun, hfields]
                rfl
        · rw [if_pos (show p.openFile.writeHint ≠ none from hhint), if_pos hhint]
          have hgrants : (a.env (.ok a.writeHeld) p).grants = a.writeHeld := rfl
          rw [hgrants]
          obtain ⟨held, lock⟩ := p.lock.acquireIfHeld c a.writeHeld
          cases held with
          | false => rfl
          | true =>
              dsimp only
              rw [withLock_run, isolateForWrite_refines]
              obtain ⟨result, p'⟩ := p.run WriteAhead.isolateForWrite
              cases result with
              | ok _ => rfl
              | error e => rfl
  | error e => rfl
  | done => rfl

theorem jLockReserved_refines (a : Answers) (lockType : LockType) (p : PrimaryFile Conn) :
    Connection.jLockReserved c (a.env (.ok a.writeHeld) p) lockType p.lock p.openFile
      = Return.image (jLockReserved c a lockType p) := by
  have hresult : p.openFile.retryResult = p.retryResult := rfl
  have hgrants : (a.env (.ok a.writeHeld) p).grants = a.writeHeld := rfl
  unfold Connection.jLockReserved jLockReserved
  rw [hresult, hgrants]
  cases p.retryResult with
  | error e => rfl
  | null | done =>
      dsimp only
      by_cases hwrite : p.isolationState = some .write
      · rw [if_pos (openFile_write_iff.mpr hwrite), if_pos hwrite]
        rfl
      · rw [if_neg fun h => hwrite (openFile_write_iff.mp h), if_neg hwrite]
        by_cases hread : p.isolationState = some .read
        · rw [if_pos (openFile_read_iff.mpr hread), if_pos hread]
          obtain ⟨held, lock⟩ := p.lock.acquireIfHeld c a.writeHeld
          cases held with
          | false => rfl
          | true =>
              dsimp only
              rw [if_pos rfl, if_pos rfl, withLock_run, tryUpgrade_refines]
              obtain ⟨result, p'⟩ := p.run WriteAhead.tryUpgradeReadIsolationToWrite
              rcases result with e | upgraded
              · rfl
              · cases upgraded <;> rfl
        · rw [if_neg fun h => hread (openFile_read_iff.mp h), if_neg hread]
          rfl

/-- **`jLock`** does the same to the lock, the fields and the queue. -/
theorem jLock_refines (a : Answers) (lockType : LockType) (p : PrimaryFile Conn) :
    Connection.jLock c (a.env (.ok a.writeHeld) p) lockType p.lock p.openFile
      = Return.image (jLock c a lockType p) := by
  have hstate : p.openFile.lockState = p.lockState := rfl
  unfold Connection.jLock jLock
  rw [hstate]
  split
  · exact jLockShared_refines a p
  · split
    · exact jLockReserved_refines a lockType p
    · rfl

/-- The releases change the lock only, and as the lazy-lock mode says. -/
theorem releaseLocks_eq (p : PrimaryFile Conn) :
    p.releaseLocks c = p.withLock (Connection.releaseLocks c p.openFile p.lock) := by
  have hlazy : p.openFile.useLazyLock = p.useLazyLock := rfl
  unfold Connection.releaseLocks PrimaryFile.releaseLocks
  rw [hlazy]
  rcases p.useLazyLock with _ | mode
  · rfl
  · cases mode <;> rfl

/-- **`jUnlock`** too. -/
theorem jUnlock_refines (a : Answers) (acquired : Except VfsError Bool) (lockType : LockType)
    (p : PrimaryFile Conn) :
    Connection.jUnlock c (a.env acquired p) lockType p.lock p.openFile
      = Return.image (jUnlock c a lockType p) := by
  have hresult : p.openFile.retryResult = p.retryResult := rfl
  unfold Connection.jUnlock jUnlock
  rw [hresult]
  split
  · rw [rejoin_refines]
    have hlock := run_lock p (WriteAhead.rejoin a.backstopDue)
    generalize p.run (WriteAhead.rejoin a.backstopDue) = r at hlock ⊢
    obtain ⟨result, p'⟩ := r
    rw [← show p'.lock = p.lock from hlock]
    cases result with
    | error e => rfl
    | ok _ =>
        dsimp only
        rw [releaseLocks_eq]
        rfl
  · rfl

/-! ## §4. The queued operations. -/

/-- **A queued operation** goes on to the same end, or to the same next wait. -/
theorem resume_refines (a : Answers) (op : Retry) (p : PrimaryFile Conn) :
    op.op.resume c (a.env a.acquired p) p.lock p.openFile = Progress.image (op.resume c a p) := by
  have hacquired : (a.env a.acquired p).acquired = a.acquired := rfl
  cases op with
  | lockRead =>
      show Connection.retryLockRead _ _ _ = Progress.image (retryLockRead a p)
      unfold Connection.retryLockRead retryLockRead
      rw [hacquired]
      rcases a.acquired with e | granted
      · rfl
      · cases granted with
        | false => rfl
        | true =>
            rcases isolateForRead_cases p with ⟨hrun, hfields⟩ | ⟨hrun, hfields⟩
            · rw [hrun, hfields]
              rfl
            · rw [hrun, hfields]
              rfl
  | lockExclusive =>
      show Connection.retryLockExclusive _ _ _ = Progress.image (retryLockExclusive a p)
      unfold Connection.retryLockExclusive retryLockExclusive
      rw [hacquired]
      rcases a.acquired with e | granted
      · rfl
      · cases granted <;> rfl
  | lockWrite =>
      show Connection.retryLockWrite c _ _ _ = Progress.image (retryLockWrite c a p)
      unfold Connection.retryLockWrite retryLockWrite
      rw [hacquired, isolateForWrite_refines, withLock_run]
      rcases a.acquired with e | granted
      · rfl
      · cases granted with
        | false => rfl
        | true =>
            obtain ⟨result, p'⟩ := p.run WriteAhead.isolateForWrite
            cases result with
            | ok _ => rfl
            | error e => rfl
  | upgrade =>
      show Connection.retryUpgradeDeferredWrite c _ _ _
        = Progress.image (retryUpgradeDeferredWrite c a p)
      unfold Connection.retryUpgradeDeferredWrite retryUpgradeDeferredWrite
      rw [hacquired, tryUpgrade_refines, withLock_run]
      rcases a.acquired with e | granted
      · rfl
      · cases granted with
        | false => rfl
        | true =>
            obtain ⟨result, p'⟩ := p.run WriteAhead.tryUpgradeReadIsolationToWrite
            rcases result with e | upgraded
            · rfl
            · cases upgraded <;> rfl

end

end MemoryWriteAhead.Primary
