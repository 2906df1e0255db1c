/-
  MemoryWriteAhead.Connection.Writer
  ──────────────────────────────────
  **ONE WRITER AT A TIME, UNLESS A CHECKPOINT STRAYS INTO A WRITE TRANSACTION.**

  A connection is ENTERED while its file is locked, or its queued lock has been
  granted and waits to be taken up.  The assertion `WriterInv` says that an
  entered connection in write isolation holds the write lock (unless it is the
  connection's own checkpoint that isolates it), and that SQLite's `RESERVED`
  means write isolation.

  `#pendingCheckpoint` asks for a lock that its own connection may hold,
  finds `isolateForWrite` refusing, and releases that lock on its way out
  (`Stray`).  That step, and no other, breaks the assertion:

    • `accepted_write_holds_lock` — the runs without such a step,
    • `stray_checkpoint_gives_lock_away` — two writers in a run with one.
-/
import Mathlib.Data.List.Count
import MemoryWriteAhead.Connection.Model

namespace MemoryWriteAhead.Connection

open Transition

variable {Conn : Type}

/-! ## §1. The assertion of one connection. -/

/-- The file is locked, or a queued lock has been granted. -/
def Local.Entered (l : Local) : Prop :=
  l.file.lockState ≠ .none ∨
    (l.file.retryResult = .done ∧ ∀ op ∈ l.queue, op.isRetry = false)

/-- The operation asks for the `SHARED` lock of an unlocked file. -/
def Op.asksShared (op : Op) : Prop :=
  op = .lockRead ∨ op = .lockExclusive ∨ op = .lockWrite

structure WriterInv (c : Conn) (lock : WriteLock Conn) (l : Local) : Prop where
  sqlite_le : l.sqliteLock.level ≤ l.file.lockState.level
  held : l.file.isolationState = some .write → l.Entered → .checkpointing false ∉ l.queue →
    lock.HeldBy c
  reserved : LockType.reserved.level ≤ l.sqliteLock.level →
    l.file.isolationState = some .write ∧ .checkpointing false ∉ l.queue
  shared_unlocked : ∀ op ∈ l.queue, op.asksShared → l.file.lockState = .none
  upgrade_write : .upgrade ∈ l.queue → l.file.isolationState = some .write →
    .checkpointing false ∈ l.queue ∨ l.file.lockState = .none
  running_queue : l.phase = .running → ∀ op ∈ l.queue, op.isRetry = false
  checkpointing_awaits : l.phase ≠ .awaiting → .checkpointing false ∉ l.queue
  one_retry : l.queue.countP Op.isRetry ≤ 1

theorem WriterInv.opened (c : Conn) (lock : WriteLock Conn) :
    WriterInv c lock Local.opened := by
  constructor <;> simp [Local.opened, LockType.level]

theorem LockType.level_pos {t : LockType} (h : t ≠ .none) : 1 ≤ t.level := by
  cases t <;> simp_all [LockType.level]

theorem WriterInv.locked {c : Conn} {lock : WriteLock Conn} {l : Local}
    (h : WriterInv c lock l) (hsql : l.sqliteLock ≠ .none) : l.file.lockState ≠ .none := by
  intro hnone
  have hpos := LockType.level_pos hsql
  have hle := h.sqlite_le
  rw [hnone, show LockType.none.level = 0 from rfl] at hle
  omega

/-! ## §2. What a step of a connection does to the lock. -/

/-- The lock moves only from free or one's own to free or one's own. -/
def Moves (c : Conn) (lock lock' : WriteLock Conn) : Prop :=
  lock' = lock ∨ (lock.Open c ∧ (lock'.holder = some c ∨ lock'.holder = none))

theorem Moves.keeps {c d : Conn} {lock lock' : WriteLock Conn} (h : Moves c lock lock')
    (hne : d ≠ c) (hd : lock.HeldBy d) : lock'.HeldBy d := by
  rcases h with rfl | ⟨hopen, -⟩
  · exact hd
  · rcases hopen with hfree | hown
    · rw [hd.1] at hfree
      exact absurd hfree (by simp)
    · rw [hd.1] at hown
      exact absurd (Option.some.inj hown) hne

theorem Moves.refl (c : Conn) (lock : WriteLock Conn) : Moves c lock lock := .inl rfl

theorem acquire_heldBy (c : Conn) : (WriteLock.acquire c).HeldBy c := ⟨rfl, rfl⟩

theorem Moves.acquire {c : Conn} {lock : WriteLock Conn} (h : lock.Open c) :
    Moves c lock (.acquire c) := .inr ⟨h, .inl rfl⟩

section Releases

variable [DecidableEq Conn]

theorem Moves.release (c : Conn) (lock : WriteLock Conn) : Moves c lock (lock.release c) := by
  unfold WriteLock.release
  split
  next hown => exact .inr ⟨.inr hown, .inr rfl⟩
  next => exact .inl rfl

theorem Moves.acquire_release {c : Conn} {lock : WriteLock Conn} (h : lock.Open c) :
    Moves c lock ((WriteLock.acquire c).release c) :=
  .inr ⟨h, .inr (by simp [WriteLock.acquire, WriteLock.release])⟩

theorem Moves.releaseLazy (c : Conn) (lock : WriteLock Conn) :
    Moves c lock (lock.releaseLazy c) := by
  unfold WriteLock.releaseLazy
  split
  next hown => exact .inr ⟨.inr hown, .inl rfl⟩
  next => exact .inl rfl

theorem Moves.releaseLocks (c : Conn) (f : OpenFile) (lock : WriteLock Conn) :
    Moves c lock (releaseLocks c f lock) := by
  unfold Connection.releaseLocks
  split
  · exact .release c lock
  · exact .release c lock
  · exact .releaseLazy c lock
  · exact .releaseLazy c lock
  · exact .releaseLazy c lock

/-- `acquireIfHeld` answers true with the lock held, and false with the lock
left as it was. -/
theorem acquireIfHeld_spec (c : Conn) (seen : Bool) (lock : WriteLock Conn) :
    ((lock.acquireIfHeld c seen).1 = true → (lock.acquireIfHeld c seen).2.HeldBy c
        ∧ lock.holder = some c) ∧
      ((lock.acquireIfHeld c seen).1 = false → (lock.acquireIfHeld c seen).2 = lock) := by
  unfold WriteLock.acquireIfHeld
  split
  next h => exact ⟨fun _ => ⟨⟨rfl, rfl⟩, h.1⟩, fun h' => Bool.noConfusion h'⟩
  next => exact ⟨fun h' => Bool.noConfusion h', fun _ => rfl⟩

end Releases

/-! ## §3. What a call does. -/

/-- What the assertion needs to know about a call on a connection. -/
structure CallSpec (c : Conn) (lock : WriteLock Conn) (l : Local) (lock' : WriteLock Conn)
    (f' : OpenFile) (queued : Option Op) : Prop where
  moves : Moves c lock lock'
  write : f'.isolationState = some .write →
    (lock'.HeldBy c ∧ l.phase = .running) ∨
      (l.file.isolationState = some .write ∧ lock' = lock)
  entered : f'.isolationState = some .write → f'.lockState ≠ .none →
    lock'.HeldBy c ∨ l.file.lockState ≠ .none ∨
      (l.file.retryResult = .done ∧ l.phase = .running)
  done : f'.retryResult = .done →
    l.file.retryResult = .done ∨ queued.any Op.isRetry = true
  upgrade : queued = some .upgrade → f'.isolationState ≠ some .write
  shared : ∀ op, queued = some op → op.asksShared → f'.lockState = .none
  unlocked : l.file.lockState = .none → l.phase = .refused → f'.lockState = .none
  not_checkpointing : queued ≠ some (.checkpointing false)
  refused : l.phase ≠ .running → queued = none

/-- **A call keeps the assertion** when it leaves SQLite no more lock than the
file has, and `RESERVED` only in write isolation. -/
theorem CallSpec.after {c : Conn} {lock lock' : WriteLock Conn} {l : Local} {f' : OpenFile}
    {queued : Option Op} {sqliteLock : LockType} (hspec : CallSpec c lock l lock' f' queued)
    (hinv : WriterInv c lock l) (hphase : l.phase ≠ .awaiting)
    (hle : sqliteLock.level ≤ f'.lockState.level)
    (hres : LockType.reserved.level ≤ sqliteLock.level → f'.isolationState = some .write) :
    WriterInv c lock' (l.after f' queued sqliteLock) := by
  have hnock : Op.checkpointing false ∉ l.queue ++ queued.toList := by
    intro hmem
    rcases List.mem_append.mp hmem with h | h
    · exact hinv.checkpointing_awaits hphase h
    · exact hspec.not_checkpointing (Option.mem_toList.mp h)
  have hrefused : ∀ {op : Op}, op ∈ l.queue → op.isRetry = true → l.phase = .refused := by
    intro op hop hret
    cases hp : l.phase with
    | running => exact Bool.noConfusion ((hinv.running_queue hp op hop).symm.trans hret)
    | refused => rfl
    | awaiting => exact absurd hp hphase
  refine ⟨hle, ?_, fun h => ⟨hres h, hnock⟩, ?_, ?_, ?_, fun _ => hnock, ?_⟩
  · intro hwrite hentered _
    rcases hspec.write hwrite with ⟨hheld, -⟩ | ⟨hwrite0, hsame⟩
    · exact hheld
    · have hback : lock'.HeldBy c ∨ l.Entered := by
        rcases hentered with hlocked | ⟨hdone, hnone⟩
        · rcases hspec.entered hwrite hlocked with h | h | ⟨h, hrun⟩
          · exact .inl h
          · exact .inr (.inl h)
          · exact .inr (.inr ⟨h, hinv.running_queue hrun⟩)
        · have hnone' : ∀ op ∈ l.queue, op.isRetry = false := fun op hop =>
            hnone op (List.mem_append_left _ hop)
          rcases hspec.done hdone with h | h
          · exact .inr (.inr ⟨h, hnone'⟩)
          · obtain ⟨op, hop, hret⟩ := (Option.any_eq_true _ _).mp h
            have := hnone op (List.mem_append_right _ (Option.mem_toList.mpr hop))
            rw [hret] at this
            exact Bool.noConfusion this
      rcases hback with h | h
      · exact h
      · rw [hsame]
        exact hinv.held hwrite0 h (hinv.checkpointing_awaits hphase)
  · intro op hop hask
    rcases List.mem_append.mp hop with h | h
    · have hret : op.isRetry = true := by
        rcases hask with rfl | rfl | rfl <;> rfl
      exact hspec.unlocked (hinv.shared_unlocked op h hask) (hrefused h hret)
    · exact hspec.shared op (Option.mem_toList.mp h) hask
  · intro hop hwrite
    rcases List.mem_append.mp hop with h | h
    · rcases hspec.write hwrite with ⟨-, hrun⟩ | ⟨hwrite0, -⟩
      · exact Bool.noConfusion (hinv.running_queue hrun _ h)
      · rcases hinv.upgrade_write h hwrite0 with hck | hnone
        · exact absurd hck (hinv.checkpointing_awaits hphase)
        · exact .inr (hspec.unlocked hnone (hrefused h rfl))
    · exact absurd hwrite (hspec.upgrade (Option.mem_toList.mp h))
  · intro hrun op hop
    by_cases hany : queued.any Op.isRetry = true
    · simp [Local.after, hany] at hrun
    · have hrun0 : l.phase = .running := by simpa [Local.after, hany] using hrun
      rcases List.mem_append.mp hop with h | h
      · exact hinv.running_queue hrun0 op h
      · by_contra hret
        exact hany ((Option.any_eq_true _ _).mpr
          ⟨op, Option.mem_toList.mp h, by simpa using hret⟩)
  · show (l.queue ++ queued.toList).countP Op.isRetry ≤ 1
    rw [List.countP_append]
    by_cases hrun : l.phase = .running
    · have hzero : l.queue.countP Op.isRetry = 0 :=
        List.countP_eq_zero.mpr fun op hop => by simp [hinv.running_queue hrun op hop]
      have hone : queued.toList.countP Op.isRetry ≤ queued.toList.length :=
        List.countP_le_length
      have hlen : queued.toList.length ≤ 1 := by cases queued <;> simp
      omega
    · rw [hspec.refused hrun]
      exact hinv.one_retry

/-- A call that queues nothing and leaves no write isolation behind. -/
theorem CallSpec.idle {c : Conn} {lock lock' : WriteLock Conn} {l : Local} {f' : OpenFile}
    (hmoves : Moves c lock lock') (hwrite : f'.isolationState ≠ some .write)
    (hdone : f'.retryResult = .done → l.file.retryResult = .done)
    (hunlocked : l.file.lockState = .none → l.phase = .refused → f'.lockState = .none) :
    CallSpec c lock l lock' f' none where
  moves := hmoves
  write h := absurd h hwrite
  entered h := absurd h hwrite
  done h := .inl (hdone h)
  upgrade h := absurd h (by simp)
  shared _ h := absurd h (by simp)
  unlocked := hunlocked
  not_checkpointing := by simp
  refused _ := rfl

/-- A call that leaves the lock and the isolation as they were. -/
theorem CallSpec.same {c : Conn} {lock : WriteLock Conn} {l : Local} {f' : OpenFile}
    {queued : Option Op} (hrun : l.phase = .running)
    (hiso : f'.isolationState = l.file.isolationState)
    (hentered : f'.lockState ≠ .none → l.file.lockState ≠ .none ∨ l.file.retryResult = .done)
    (hdone : f'.retryResult = .done → l.file.retryResult = .done ∨ queued.any Op.isRetry = true)
    (hupgrade : queued = some .upgrade → f'.isolationState ≠ some .write)
    (hshared : ∀ op, queued = some op → op.asksShared → f'.lockState = .none)
    (hnot : queued ≠ some (.checkpointing false)) : CallSpec c lock l lock f' queued where
  moves := .refl c lock
  write h := .inr ⟨hiso ▸ h, rfl⟩
  entered _ hlocked := by
    rcases hentered hlocked with h | h
    · exact .inr (.inl h)
    · exact .inr (.inr ⟨h, hrun⟩)
  done := hdone
  upgrade := hupgrade
  shared := hshared
  unlocked _ hrefused := absurd (hrun.symm.trans hrefused) (by simp)
  not_checkpointing := hnot
  refused h := absurd hrun h

/-- A call of a running connection that ends with the lock held. -/
theorem CallSpec.holding {c : Conn} {lock lock' : WriteLock Conn} {l : Local} {f' : OpenFile}
    (hrun : l.phase = .running) (hown : lock.holder = some c) (hheld : lock'.HeldBy c)
    (hdone : f'.retryResult = .done → l.file.retryResult = .done) :
    CallSpec c lock l lock' f' none where
  moves := .inr ⟨.inr hown, .inl hheld.1⟩
  write _ := .inl ⟨hheld, hrun⟩
  entered _ _ := .inl hheld
  done h := .inl (hdone h)
  upgrade h := absurd h (by simp)
  shared _ h := absurd h (by simp)
  unlocked _ hrefused := absurd (hrun.symm.trans hrefused) (by simp)
  not_checkpointing := by simp
  refused _ := rfl

/-! ## §4. The calls one by one. -/

/-- What `jLock` promises its caller. -/
structure LockSpec (c : Conn) (lock : WriteLock Conn) (l : Local) (lockType : LockType)
    (r : Return Conn) : Prop where
  call : CallSpec c lock l r.2.1 r.2.2.1 r.2.2.2
  granted : r.1 = .ok → r.2.2.1.lockState = lockType
  kept : r.1 ≠ .ok → r.2.2.1.lockState = l.file.lockState
  reserved : r.1 = .ok → LockType.reserved.level ≤ lockType.level →
    r.2.2.1.isolationState = some .write
  wrote : l.file.isolationState = some .write → r.2.2.1.isolationState = some .write

theorem lockError_ne_ok (e : VfsError) : lockError e ≠ .ok := by
  unfold lockError
  split <;> simp

theorem LockSpec.refuse {c : Conn} {lock lock' : WriteLock Conn} {l : Local}
    {lockType : LockType} {rc : Rc} {f' : OpenFile} {queued : Option Op} (hrc : rc ≠ .ok)
    (hcall : CallSpec c lock l lock' f' queued) (hstate : f'.lockState = l.file.lockState)
    (hwrote : l.file.isolationState = some .write → f'.isolationState = some .write) :
    LockSpec c lock l lockType (rc, lock', f', queued) :=
  ⟨hcall, fun h => absurd h hrc, fun _ => hstate, fun h => absurd h hrc, hwrote⟩

theorem LockSpec.grant {c : Conn} {lock lock' : WriteLock Conn} {l : Local}
    {lockType : LockType} {f' : OpenFile} (hcall : CallSpec c lock l lock' f' none)
    (hstate : f'.lockState = lockType)
    (hres : LockType.reserved.level ≤ lockType.level → f'.isolationState = some .write)
    (hwrote : l.file.isolationState = some .write → f'.isolationState = some .write) :
    LockSpec c lock l lockType (.ok, lock', f', none) :=
  ⟨hcall, fun _ => hstate, fun h => absurd rfl h, fun _ => hres, hwrote⟩

theorem isolateForWrite_kept (env : Env) (f : OpenFile) :
    (isolateForWrite env f).2.lockState = f.lockState ∧
      (isolateForWrite env f).2.retryResult = f.retryResult ∧
      (f.isolationState = some .write → (isolateForWrite env f).2.isolationState = some .write) ∧
      ((isolateForWrite env f).1 = none →
        f.isolationState = none ∧ (isolateForWrite env f).2.isolationState = some .write) := by
  unfold isolateForWrite
  split
  next => exact ⟨rfl, rfl, fun h => h, fun h => absurd h (by simp)⟩
  next hiso => exact ⟨rfl, rfl, fun _ => rfl, fun _ => ⟨by simpa using hiso, rfl⟩⟩

section Locking

variable [DecidableEq Conn]

theorem jLockShared_spec {c : Conn} {env : Env} {lock : WriteLock Conn} {l : Local}
    (hrun : l.phase = .running) (hfree : l.file.lockState = .none) :
    LockSpec c lock l .shared (jLockShared c env lock l.file) := by
  have hlow : ¬LockType.reserved.level ≤ LockType.shared.level := by simp [LockType.level]
  -- a refusal that queues one of the operations that ask for the shared lock
  have hqueue : ∀ f' : OpenFile, ∀ op : Op, f'.lockState = .none →
      f'.isolationState = l.file.isolationState →
      op ≠ .upgrade → op.isRetry = true →
      LockSpec c lock l .shared (.busy, lock, f', some op) := by
    intro f' op hstate hiso hup hret
    refine .refuse (by simp) ?_ (hstate.trans hfree.symm) (fun h => hiso.trans h)
    refine .same hrun hiso (fun h => absurd hstate h) (fun _ => .inr (by simpa using hret))
      (fun h => absurd (Option.some.inj h) hup) (fun _ _ _ => hstate) ?_
    intro h
    rw [Option.some.inj h] at hret
    exact Bool.noConfusion hret
  unfold jLockShared
  cases hretry : l.file.retryResult with
  | null =>
      by_cases hmode : l.file.lockingMode = .exclusive
      · simp only [hmode, if_true]
        exact hqueue _ _ hfree rfl (by simp) rfl
      · simp only [hmode, if_false]
        by_cases hhint : l.file.writeHint ≠ none
        · rw [if_pos hhint]
          obtain ⟨htrue, hfalse⟩ :=
            acquireIfHeld_spec c env.grants lock
          rcases hacq : lock.acquireIfHeld c env.grants with ⟨seen, lock'⟩
          rw [hacq] at htrue hfalse
          cases seen with
          | false =>
              obtain rfl : lock' = lock := hfalse rfl
              exact hqueue _ _ hfree rfl (by simp) rfl
          | true =>
              obtain ⟨hheld, hown⟩ := htrue rfl
              obtain ⟨hstate, hres, hwrote, -⟩ := isolateForWrite_kept env l.file
              rcases hiso : isolateForWrite env l.file with ⟨thrown, f'⟩
              rw [hiso] at hstate hres hwrote
              cases thrown with
              | some e =>
                  exact .refuse (lockError_ne_ok e)
                    (.holding hrun hown hheld (fun h => hres ▸ h)) hstate hwrote
              | none =>
                  exact .grant (.holding hrun hown hheld
                    (fun h => absurd h (by simp [OpenFile.locked]))) rfl
                    (fun h => absurd h hlow) hwrote
        · rw [if_neg hhint]
          by_cases hread : env.readHeld = true
          · simp only [hread, if_true]
            unfold isolateForRead
            by_cases hiso : l.file.isolationState ≠ none
            · rw [if_pos hiso]
              exact .refuse (lockError_ne_ok .alreadyIsolated)
                (.same hrun rfl (fun h => .inl h) (fun h => .inl h) (by simp) (by simp) (by simp))
                rfl (fun h => h)
            · rw [if_neg hiso]
              have hnone : l.file.isolationState = none := by simpa using hiso
              refine .grant (.idle (.refl c lock) (by simp [OpenFile.locked])
                (by simp [OpenFile.locked]) (fun _ h => absurd (hrun.symm.trans h) (by simp)))
                rfl (fun h => absurd h hlow) ?_
              intro h
              exact absurd (hnone.symm.trans h) (by simp)
          · simp only [hread]
            exact hqueue _ _ hfree rfl (by simp) rfl
  | done =>
      exact .grant (.same hrun rfl (fun _ => .inr hretry) (by simp [OpenFile.locked]) (by simp)
        (by simp) (by simp)) rfl (fun h => absurd h hlow) (fun h => h)
  | error e =>
      exact .refuse (lockError_ne_ok e)
        (.same hrun rfl (fun h => .inl h) (by simp) (by simp) (by simp) (by simp)) rfl
        (fun h => h)

theorem tryUpgrade_spec (env : Env) (f : OpenFile) :
    (tryUpgradeReadIsolationToWrite env f).2.lockState = f.lockState ∧
      (tryUpgradeReadIsolationToWrite env f).2.retryResult = f.retryResult ∧
      ((tryUpgradeReadIsolationToWrite env f).1 = .ok true →
        f.isolationState = some .read ∧
          (tryUpgradeReadIsolationToWrite env f).2.isolationState = some .write) ∧
      ((tryUpgradeReadIsolationToWrite env f).1 ≠ .ok true →
        (tryUpgradeReadIsolationToWrite env f).2 = f) := by
  unfold tryUpgradeReadIsolationToWrite
  split
  next => exact ⟨rfl, rfl, fun h => absurd h (by simp), fun _ => rfl⟩
  next hread =>
    have hread' : f.isolationState = some .read := by simpa using hread
    split
    next hcur => exact ⟨rfl, rfl, fun _ => ⟨hread', rfl⟩, fun h => absurd rfl h⟩
    next hcur => exact ⟨rfl, rfl, fun h => absurd h hcur, fun _ => rfl⟩

theorem jLockReserved_spec {c : Conn} {env : Env} {lockType : LockType} {lock : WriteLock Conn}
    {l : Local} (hrun : l.phase = .running) (hlocked : l.file.lockState ≠ .none) :
    LockSpec c lock l lockType (jLockReserved c env lockType lock l.file) := by
  have hqueue : ∀ hwrite : l.file.isolationState ≠ some .write,
      LockSpec c lock l lockType (.busy, lock, l.file.granted, some .upgrade) := by
    intro hwrite
    refine .refuse (by simp) ?_ rfl (fun h => absurd h hwrite)
    refine .same hrun rfl (fun h => .inl h) (fun _ => .inr rfl) (fun _ => hwrite) ?_ (by simp)
    rintro op hop (rfl | rfl | rfl) <;> exact absurd hop (by simp)
  unfold jLockReserved
  split
  next e hretry =>
    exact .refuse (lockError_ne_ok e)
      (.same hrun rfl (fun h => .inl h) (by simp) (by simp) (by simp) (by simp)) rfl (fun h => h)
  next hnoerror =>
    by_cases hwrite : l.file.isolationState = some .write
    · rw [if_pos hwrite]
      exact .grant (.same hrun rfl (fun _ => .inl hlocked) (by simp [OpenFile.locked]) (by simp)
        (by simp) (by simp)) rfl (fun _ => hwrite) (fun h => h)
    · rw [if_neg hwrite]
      by_cases hread : l.file.isolationState = some .read
      · rw [if_pos hread]
        obtain ⟨htrue, hfalse⟩ := acquireIfHeld_spec c env.grants lock
        rcases hacq : lock.acquireIfHeld c env.grants with ⟨seen, lock'⟩
        rw [hacq] at htrue hfalse
        cases seen with
        | false =>
            obtain rfl : lock' = lock := hfalse rfl
            exact hqueue hwrite
        | true =>
            obtain ⟨hheld, hown⟩ := htrue rfl
            obtain ⟨hstate, hres, hyes, hno⟩ := tryUpgrade_spec env l.file
            rcases htry : tryUpgradeReadIsolationToWrite env l.file with ⟨answer, f'⟩
            rw [htry] at hstate hres hyes hno
            match answer with
            | .error e =>
                exact .refuse (lockError_ne_ok e)
                  (.holding hrun hown hheld (fun h => hres ▸ h)) hstate
                  (fun h => absurd h hwrite)
            | .ok false =>
                have hsame : f' = l.file := hno (by simp)
                refine .refuse (lockError_ne_ok .staleSnapshot) ?_ hstate
                  (fun h => absurd h hwrite)
                refine .idle (.inr ⟨.inr hown, .inr ?_⟩) (hsame ▸ hwrite) (fun h => hres ▸ h)
                  (fun _ h => absurd (hrun.symm.trans h) (by simp))
                show (lock'.release c).holder = none
                unfold WriteLock.release
                rw [if_pos hheld.1]
            | .ok true =>
                exact .grant (.holding hrun hown hheld
                  (fun h => absurd h (by simp [OpenFile.locked]))) rfl
                  (fun _ => (hyes rfl).2) (fun h => absurd h hwrite)
      · rw [if_neg hread]
        exact hqueue hwrite

/-- **`jLock` keeps the assertion.** -/
theorem lock_inv {c : Conn} {env : Env} {lockType : LockType} {lock : WriteLock Conn}
    {l : Local} (hinv : WriterInv c lock l) (horder : (Choice.lock lockType).InOrder l)
    {r : Return Conn} (hr : jLock c env lockType lock l.file = r) :
    WriterInv c r.2.1
        (l.after r.2.2.1 r.2.2.2 (if r.1 = .ok then lockType else l.sqliteLock)) ∧
      Moves c lock r.2.1 := by
  obtain ⟨hrun, hcase⟩ := horder
  have hphase : l.phase ≠ .awaiting := by rw [hrun]; simp
  have hspec : LockSpec c lock l lockType r := by
    rw [← hr]
    unfold jLock
    rcases hcase with ⟨rfl, hnone⟩ | ⟨hlevel, hsql, -⟩
    · by_cases hfree : l.file.lockState = .none
      · rw [if_pos ⟨hfree, rfl⟩]
        exact jLockShared_spec hrun hfree
      · have hlow : ¬LockType.reserved.level ≤ LockType.shared.level := by simp [LockType.level]
        rw [if_neg (fun h => hfree h.1), if_neg hlow]
        exact .grant (.same hrun rfl (fun _ => .inl hfree) (fun h => .inl h) (by simp) (by simp)
          (by simp)) rfl (fun h => absurd h hlow) (fun h => h)
    · have hlocked := hinv.locked hsql
      rw [if_neg (fun h => hlocked h.1), if_pos hlevel]
      exact jLockReserved_spec hrun hlocked
  refine ⟨hspec.call.after hinv hphase ?_ ?_, hspec.call.moves⟩
  · by_cases hok : r.1 = .ok
    · rw [if_pos hok]
      exact Nat.le_of_eq (congrArg LockType.level (hspec.granted hok)).symm
    · rw [if_neg hok, hspec.kept hok]
      exact hinv.sqlite_le
  · intro hres
    by_cases hok : r.1 = .ok
    · rw [if_pos hok] at hres
      exact hspec.reserved hok hres
    · rw [if_neg hok] at hres
      exact hspec.wrote (hinv.reserved hres).1

/-- `rejoin` leaves the write isolation, whether it throws or not. -/
theorem rejoin_spec (env : Env) (f : OpenFile) :
    (rejoin env f).2.isolationState ≠ some .write ∧
      (rejoin env f).2.lockState = f.lockState ∧
      (rejoin env f).2.retryResult = f.retryResult := by
  unfold rejoin
  split
  next h => exact ⟨by rw [h.1]; simp, rfl, rfl⟩
  next => exact ⟨by simp, rfl, rfl⟩

/-- **`jUnlock` keeps the assertion.** -/
theorem unlock_inv {c : Conn} {env : Env} {lockType : LockType} {lock : WriteLock Conn}
    {l : Local} (hinv : WriterInv c lock l) (horder : (Choice.unlock lockType).InOrder l)
    {r : Return Conn} (hr : jUnlock c env lockType lock l.file = r) :
    WriterInv c r.2.1 (l.after r.2.2.1 r.2.2.2 lockType) ∧ Moves c lock r.2.1 := by
  obtain ⟨hphase, hcase⟩ := horder
  have hlow : ¬LockType.reserved.level ≤ lockType.level := by
    rcases hcase with rfl | ⟨rfl, -⟩ <;> simp [LockType.level]
  have hlocked : lockType ≠ .none → l.file.lockState ≠ .none := by
    intro h
    rcases hcase with rfl | ⟨-, hsql⟩
    · exact absurd rfl h
    · exact hinv.locked hsql
  rw [← hr]
  unfold jUnlock
  split
  next heff =>
    obtain ⟨hnull, rfl⟩ := heff
    obtain ⟨hiso, hstate, hres⟩ := rejoin_spec env l.file
    rcases hrejoin : rejoin env l.file with ⟨thrown, f'⟩
    rw [hrejoin] at hiso hstate hres
    cases thrown with
    | some e =>
        have hspec : CallSpec c lock l lock f' none :=
          .idle (.refl c lock) hiso (fun h => hres ▸ h) (fun h _ => hstate ▸ h)
        exact ⟨hspec.after hinv hphase (Nat.zero_le _) (fun h => absurd h hlow), hspec.moves⟩
    | none =>
        have hspec : CallSpec c lock l (releaseLocks c f' lock)
            { f' with writeHint := none, lockState := .none } none :=
          .idle (.releaseLocks c f' lock) hiso (fun h => hres ▸ h) (fun _ _ => rfl)
        exact ⟨hspec.after hinv hphase (Nat.zero_le _) (fun h => absurd h hlow), hspec.moves⟩
  next =>
    have hspec : CallSpec c lock l lock { l.file with lockState := lockType } none :=
      { moves := .refl c lock
        write := fun h => .inr ⟨h, rfl⟩
        entered := fun _ h => .inr (.inl (hlocked h))
        done := fun h => .inl h
        upgrade := fun h => absurd h (by simp)
        shared := fun _ h => absurd h (by simp)
        unlocked := fun h _ => by
          by_contra hne
          exact hlocked hne h
        not_checkpointing := by simp
        refused := fun _ => rfl }
    exact ⟨hspec.after hinv hphase (Nat.le_refl _) (fun h => absurd h hlow), hspec.moves⟩

end Locking

/-- **A write or a file control keeps the assertion**: it leaves the lock, the
lock state and the isolation alone and queues no retry. -/
theorem control_inv {c : Conn} {lock : WriteLock Conn} {l : Local} {f' : OpenFile}
    {queued : Option Op} (hinv : WriterInv c lock l) (hrun : l.phase = .running)
    (hstate : f'.lockState = l.file.lockState)
    (hiso : f'.isolationState = l.file.isolationState)
    (hres : f'.retryResult = l.file.retryResult)
    (hqueued : queued = none ∨ queued = some .checkpoint ∨ queued = some (.checkpointing true)) :
    WriterInv c lock (l.after f' queued l.sqliteLock) := by
  have hspec : CallSpec c lock l lock f' queued := by
    refine .same hrun hiso (fun h => .inl (hstate ▸ h)) (fun h => .inl (hres ▸ h)) ?_ ?_ ?_
    · intro h
      rcases hqueued with hq | hq | hq <;> exact absurd (hq.symm.trans h) (by simp)
    · rintro op hop hask
      rcases hqueued with rfl | rfl | rfl
      · exact absurd hop (by simp)
      · obtain rfl := Option.some.inj hop
        rcases hask with h | h | h <;> exact absurd h (by simp)
      · obtain rfl := Option.some.inj hop
        rcases hask with h | h | h <;> exact absurd h (by simp)
    · rcases hqueued with rfl | rfl | rfl <;> simp
  refine hspec.after hinv (by rw [hrun]; simp) ?_ ?_
  · rw [hstate]
    exact hinv.sqlite_le
  · intro h
    rw [hiso]
    exact (hinv.reserved h).1

theorem jWrite_spec (env : Env) (lock : WriteLock Conn) (f : OpenFile) :
    (jWrite env lock f).2.1 = lock ∧
      (jWrite env lock f).2.2.1.lockState = f.lockState ∧
      (jWrite env lock f).2.2.1.isolationState = f.isolationState ∧
      (jWrite env lock f).2.2.1.retryResult = f.retryResult ∧
      (jWrite env lock f).2.2.2 = none := by
  unfold jWrite
  split
  · exact ⟨rfl, rfl, rfl, rfl, rfl⟩
  · split <;> exact ⟨rfl, rfl, rfl, rfl, rfl⟩

theorem jFileControl_spec (env : Env) (op : FileControl) (lock : WriteLock Conn) (f : OpenFile) :
    (jFileControl env op lock f).2.1 = lock ∧
      (jFileControl env op lock f).2.2.1.lockState = f.lockState ∧
      (jFileControl env op lock f).2.2.1.isolationState = f.isolationState ∧
      (jFileControl env op lock f).2.2.1.retryResult = f.retryResult ∧
      ((jFileControl env op lock f).2.2.2 = none ∨
        (jFileControl env op lock f).2.2.2 = some .checkpoint ∨
        (jFileControl env op lock f).2.2.2 = some (.checkpointing true)) := by
  unfold jFileControl
  split
  · exact ⟨rfl, rfl, rfl, rfl, .inl rfl⟩
  · exact ⟨rfl, rfl, rfl, rfl, .inl rfl⟩
  · exact ⟨rfl, rfl, rfl, rfl, .inl rfl⟩
  · exact ⟨rfl, rfl, rfl, rfl, .inr (.inr rfl)⟩
  · split
    · exact ⟨rfl, rfl, rfl, rfl, .inl rfl⟩
    · exact ⟨rfl, rfl, rfl, rfl, .inr (.inl rfl)⟩
  · exact ⟨rfl, rfl, rfl, rfl, .inl rfl⟩
  · split <;> exact ⟨rfl, rfl, rfl, rfl, .inl rfl⟩

/-! ## §5. The queued operations. -/

/-- The connection after a queued operation has gone on. -/
def Local.resumed (l : Local) (op : Op) (f : OpenFile) (waiting : Option Op) : Local :=
  { l with file := f, queue := l.queue.erase op ++ waiting.toList }

/-- What the assertion needs to know about a queued operation that goes on. -/
structure ResumeSpec (c : Conn) (lock : WriteLock Conn) (l : Local) (op : Op)
    (lock' : WriteLock Conn) (f' : OpenFile) (waiting : Option Op) : Prop where
  moves : Moves c lock lock'
  state : f'.lockState = l.file.lockState
  wrote : l.file.isolationState = some .write → op ≠ .checkpointing false →
    f'.isolationState = some .write
  waits : ∀ w, waiting = some w →
    (w = .lockWrite ∧ op = .lockExclusive) ∨
      (w = .checkpointing false ∧ l.file.isolationState = none)
  fresh : f'.isolationState = some .write →
    (l.file.isolationState = some .write ∧ op ≠ .checkpointing false) ∨
      waiting = some (.checkpointing false) ∨ op.isRetry = true ∨ l.file.lockState = .none
  held : f'.isolationState = some .write → (l.resumed op f' waiting).Entered →
    .checkpointing false ∉ (l.resumed op f' waiting).queue → lock'.HeldBy c

theorem mem_resumed {l : Local} {op op' : Op} {f : OpenFile} {waiting : Option Op}
    (h : op' ∈ (l.resumed op f waiting).queue) : op' ∈ l.queue ∨ waiting = some op' := by
  rcases List.mem_append.mp h with h | h
  · exact .inl (List.mem_of_mem_erase h)
  · exact .inr (Option.mem_toList.mp h)

theorem mem_resumed_of_ne {l : Local} {op op' : Op} {f : OpenFile} {waiting : Option Op}
    (h : op' ∈ l.queue) (hne : op' ≠ op) : op' ∈ (l.resumed op f waiting).queue :=
  List.mem_append_left _ ((List.mem_erase_of_ne hne).mpr h)

theorem retries_erase {l : Local} {op : Op} (hop : op ∈ l.queue) :
    (l.queue.erase op).countP Op.isRetry
      = l.queue.countP Op.isRetry - (if op.isRetry = true then 1 else 0) := by
  rw [List.countP_erase]
  simp [hop]

/-- Once the only queued retry has gone on no other is left. -/
theorem no_other_retry {l : Local} {op op' : Op} (hone : l.queue.countP Op.isRetry ≤ 1)
    (hop : op ∈ l.queue) (hret : op.isRetry = true) (hop' : op' ∈ l.queue.erase op) :
    op'.isRetry = false := by
  have hcount := retries_erase hop
  rw [if_pos hret] at hcount
  have hzero : (l.queue.erase op).countP Op.isRetry = 0 := by omega
  simpa using List.countP_eq_zero.mp hzero op' hop'

/-- **A queued operation that goes on keeps the assertion.** -/
theorem ResumeSpec.inv {c : Conn} {lock lock' : WriteLock Conn} {l : Local} {op : Op}
    {f' : OpenFile} {waiting : Option Op} (hspec : ResumeSpec c lock l op lock' f' waiting)
    (hinv : WriterInv c lock l) (hawait : l.phase = .awaiting) (hop : op ∈ l.queue) :
    WriterInv c lock' (l.resumed op f' waiting) := by
  refine ⟨?_, hspec.held, ?_, ?_, ?_, ?_, ?_, ?_⟩
  · show l.sqliteLock.level ≤ f'.lockState.level
    rw [hspec.state]
    exact hinv.sqlite_le
  · intro hres
    obtain ⟨hwrite, hnone⟩ := hinv.reserved hres
    refine ⟨hspec.wrote hwrite (fun h => hnone (h ▸ hop)), fun hmem => ?_⟩
    rcases mem_resumed hmem with h | h
    · exact hnone h
    · rcases hspec.waits _ h with ⟨h', -⟩ | ⟨-, hnull⟩
      · exact absurd h' (by simp)
      · exact absurd (hwrite.symm.trans hnull) (by simp)
  · intro op' hop' hask
    show f'.lockState = .none
    rw [hspec.state]
    rcases mem_resumed hop' with h | h
    · exact hinv.shared_unlocked op' h hask
    · rcases hspec.waits _ h with ⟨-, rfl⟩ | ⟨rfl, -⟩
      · exact hinv.shared_unlocked _ hop (.inr (.inl rfl))
      · rcases hask with h' | h' | h' <;> exact absurd h' (by simp)
  · intro hup hwrite
    have hup0 : .upgrade ∈ l.queue.erase op := by
      rcases List.mem_append.mp hup with h | h
      · exact h
      · rcases hspec.waits _ (Option.mem_toList.mp h) with ⟨h', -⟩ | ⟨h', -⟩ <;>
          exact absurd h' (by simp)
    rcases hspec.fresh hwrite with ⟨hwrite0, hne⟩ | hck | hret | hnone
    · rcases hinv.upgrade_write (List.mem_of_mem_erase hup0) hwrite0 with hck | hnone
      · exact .inl (mem_resumed_of_ne hck (Ne.symm hne))
      · exact .inr (hspec.state.trans hnone)
    · exact .inl (List.mem_append_right _ (Option.mem_toList.mpr hck))
    · exact absurd (no_other_retry hinv.one_retry hop hret hup0) (by simp [Op.isRetry])
    · exact .inr (hspec.state.trans hnone)
  · intro hrun
    exact absurd (hrun.symm.trans hawait) (by simp)
  · intro hne
    exact absurd hawait hne
  · show (l.queue.erase op ++ waiting.toList).countP Op.isRetry ≤ 1
    rw [List.countP_append, retries_erase hop]
    have hone := hinv.one_retry
    cases waiting with
    | none =>
        show _ + 0 ≤ 1
        omega
    | some w =>
        rcases hspec.waits w rfl with ⟨rfl, rfl⟩ | ⟨rfl, -⟩
        · show _ - 1 + 1 ≤ 1
          omega
        · show _ + 0 ≤ 1
          omega

/-! ## §6. The operations one by one. -/

/-- A retry that asked for the shared lock and failed is not entered. -/
theorem failed_not_entered {l : Local} {op : Op} {f : OpenFile} {e : VfsError}
    (hstate : f.lockState = .none) : ¬(l.resumed op (f.failed e) none).Entered := by
  rintro (hlocked | ⟨hdone, -⟩)
  · exact hlocked hstate
  · exact absurd hdone (by simp [Local.resumed, OpenFile.failed])

/-- An operation that is no retry and leaves the file alone enters nothing. -/
theorem entered_of_resumed {l : Local} {op : Op} {f : OpenFile}
    (hret : op.isRetry = false) (hstate : f.lockState = l.file.lockState)
    (hres : f.retryResult = l.file.retryResult) (h : (l.resumed op f none).Entered) :
    l.Entered := by
  rcases h with hlocked | ⟨hdone, hnone⟩
  · exact .inl (hstate ▸ hlocked)
  · refine .inr ⟨hres ▸ hdone, fun op' hop' => ?_⟩
    by_cases heq : op' = op
    · rw [heq, hret]
    · exact hnone op' (mem_resumed_of_ne hop' heq)

/-- The failure of a retry that asked for the shared lock. -/
theorem ResumeSpec.failed {c : Conn} {lock lock' : WriteLock Conn} {l : Local} {op : Op}
    {f : OpenFile} {e : VfsError} (hmoves : Moves c lock lock')
    (hstate : f.lockState = l.file.lockState) (hfree : l.file.lockState = .none)
    (hret : op.isRetry = true)
    (hwrote : l.file.isolationState = some .write → f.isolationState = some .write) :
    ResumeSpec c lock l op lock' (f.failed e) none where
  moves := hmoves
  state := hstate
  wrote h _ := hwrote h
  waits _ h := absurd h (by simp)
  fresh _ := .inr (.inr (.inl hret))
  held _ h := absurd h (failed_not_entered (hstate.trans hfree))

theorem retryLockRead_spec {c : Conn} {env : Env} {lock : WriteLock Conn} {l : Local}
    (hfree : l.file.lockState = .none) {p : Progress Conn}
    (hp : retryLockRead env lock l.file = p) :
    ResumeSpec c lock l .lockRead p.1 p.2.1 p.2.2 := by
  rw [← hp]
  unfold retryLockRead
  split
  · exact .failed (.refl c lock) rfl hfree rfl (fun h => h)
  · exact .failed (.refl c lock) rfl hfree rfl (fun h => h)
  · unfold isolateForRead
    by_cases hiso : l.file.isolationState ≠ none
    · rw [if_pos hiso]
      exact .failed (.refl c lock) rfl hfree rfl (fun h => h)
    · rw [if_neg hiso]
      have hnone : l.file.isolationState = none := by simpa using hiso
      exact
        { moves := .refl c lock
          state := rfl
          wrote := fun h _ => absurd (hnone.symm.trans h) (by simp)
          waits := fun _ h => absurd h (by simp)
          fresh := fun h => absurd h (by simp [OpenFile.granted])
          held := fun h => absurd h (by simp [OpenFile.granted]) }

theorem retryLockExclusive_spec {c : Conn} {env : Env} {lock : WriteLock Conn} {l : Local}
    (hfree : l.file.lockState = .none) {p : Progress Conn}
    (hp : retryLockExclusive env lock l.file = p) :
    ResumeSpec c lock l .lockExclusive p.1 p.2.1 p.2.2 := by
  rw [← hp]
  unfold retryLockExclusive
  split
  · exact .failed (.refl c lock) rfl hfree rfl (fun h => h)
  · exact .failed (.refl c lock) rfl hfree rfl (fun h => h)
  · refine ⟨.refl c lock, rfl, fun h _ => h, ?_, fun h => .inl ⟨h, by simp⟩, ?_⟩
    · intro w hw
      exact .inl ⟨(Option.some.inj hw).symm, rfl⟩
    · rintro - (hlocked | ⟨-, hnone⟩) -
      · exact absurd hfree hlocked
      · exact Bool.noConfusion (hnone .lockWrite (List.mem_append_right _ (by simp)))

section Acquiring

variable [DecidableEq Conn]

theorem retryLockWrite_spec {c : Conn} {env : Env} {lock : WriteLock Conn} {l : Local}
    (hfree : l.file.lockState = .none)
    (hopen : env.acquired = .ok true → lock.Open c) {p : Progress Conn}
    (hp : retryLockWrite c env lock l.file = p) :
    ResumeSpec c lock l .lockWrite p.1 p.2.1 p.2.2 := by
  rw [← hp]
  unfold retryLockWrite
  split
  · exact .failed (.refl c lock) rfl hfree rfl (fun h => h)
  · exact .failed (.refl c lock) rfl hfree rfl (fun h => h)
  next hacq =>
    obtain ⟨hstate, -, hwrote, -⟩ := isolateForWrite_kept env l.file
    rcases hiso : isolateForWrite env l.file with ⟨thrown, f'⟩
    rw [hiso] at hstate hwrote
    cases thrown with
    | some e => exact .failed (.acquire_release (hopen hacq)) hstate hfree rfl hwrote
    | none =>
        exact
          { moves := .acquire (hopen hacq)
            state := hstate
            wrote := fun h _ => hwrote h
            waits := fun _ h => absurd h (by simp)
            fresh := fun _ => .inr (.inr (.inl rfl))
            held := fun _ _ _ => acquire_heldBy c }

omit [DecidableEq Conn] in
/-- The failure of an upgrade: write isolation is then a checkpoint's. -/
theorem ResumeSpec.upgradeFailed {c : Conn} {lock lock' : WriteLock Conn} {l : Local}
    {f : OpenFile} {e : VfsError} (hmoves : Moves c lock lock') (hsame : f = l.file)
    (hck : l.file.isolationState = some .write →
      .checkpointing false ∈ l.queue ∨ l.file.lockState = .none) :
    ResumeSpec c lock l .upgrade lock' (f.failed e) none where
  moves := hmoves
  state := by rw [hsame]; rfl
  wrote h _ := by rw [hsame]; exact h
  waits _ h := absurd h (by simp)
  fresh _ := .inr (.inr (.inl rfl))
  held h hentered hnone := by
    subst hsame
    rcases hck h with hck | hfree
    · exact absurd (mem_resumed_of_ne hck (by simp)) hnone
    · exact absurd hentered (failed_not_entered hfree)

theorem retryUpgradeDeferredWrite_spec {c : Conn} {env : Env} {lock : WriteLock Conn}
    {l : Local} (hck : l.file.isolationState = some .write →
      .checkpointing false ∈ l.queue ∨ l.file.lockState = .none)
    (hopen : env.acquired = .ok true → lock.Open c) {p : Progress Conn}
    (hp : retryUpgradeDeferredWrite c env lock l.file = p) :
    ResumeSpec c lock l .upgrade p.1 p.2.1 p.2.2 := by
  rw [← hp]
  unfold retryUpgradeDeferredWrite
  split
  · exact .upgradeFailed (.release c lock) rfl hck
  · exact .upgradeFailed (.release c lock) rfl hck
  next hacq =>
    obtain ⟨hstate, -, hyes, hno⟩ := tryUpgrade_spec env l.file
    rcases htry : tryUpgradeReadIsolationToWrite env l.file with ⟨answer, f'⟩
    rw [htry] at hstate hyes hno
    match answer with
    | .error e => exact .upgradeFailed (.acquire_release (hopen hacq)) (hno (by simp)) hck
    | .ok false => exact .upgradeFailed (.acquire_release (hopen hacq)) (hno (by simp)) hck
    | .ok true =>
        exact
          { moves := .acquire (hopen hacq)
            state := hstate
            wrote := fun _ _ => (hyes rfl).2
            waits := fun _ h => absurd h (by simp)
            fresh := fun _ => .inr (.inr (.inl rfl))
            held := fun _ _ _ => acquire_heldBy c }

/-- `isolateForWrite` in a checkpoint throws and leaves the entered connection
in write isolation. -/
def Stray (env : Env) (l : Local) : Prop :=
  (env.acquired matches .ok _) ∧ l.Entered ∧ (isolateForWrite env l.file).1 ≠ none ∧
    (isolateForWrite env l.file).2.isolationState = some .write

theorem pendingCheckpoint_spec {c : Conn} {env : Env} {lock : WriteLock Conn} {l : Local}
    (hinv : WriterInv c lock l) (hclean : ¬Stray env l)
    (hopen : env.acquired = .ok true → lock.Open c) {p : Progress Conn}
    (hp : pendingCheckpoint c env lock l.file = p) :
    ResumeSpec c lock l .checkpoint p.1 p.2.1 p.2.2 := by
  rw [← hp]
  unfold pendingCheckpoint
  split
  · refine ⟨.refl c lock, rfl, fun h _ => h, fun _ h => absurd h (by simp),
      fun h => .inl ⟨h, by simp⟩, fun h hentered hnone => ?_⟩
    exact hinv.held h (entered_of_resumed rfl rfl rfl hentered)
      (fun hmem => hnone (mem_resumed_of_ne hmem (by simp)))
  next granted hacq =>
    obtain ⟨hstate, hres, hwrote, hyes⟩ := isolateForWrite_kept env l.file
    have hstray : ¬(l.Entered ∧ (isolateForWrite env l.file).1 ≠ none ∧
        (isolateForWrite env l.file).2.isolationState = some .write) := by
      intro h
      exact hclean ⟨by rw [hacq], h⟩
    rcases hiso : isolateForWrite env l.file with ⟨thrown, f'⟩
    rw [hiso] at hstate hres hwrote hyes hstray
    have hmoves : Moves c lock (if granted = true then .acquire c else lock) := by
      cases granted with
      | false => exact .refl c lock
      | true => exact .acquire (hopen hacq)
    have hmoves' : Moves c lock
        ((if granted = true then WriteLock.acquire c else lock).release c) := by
      cases granted with
      | false => exact .release c lock
      | true => exact .acquire_release (hopen hacq)
    cases thrown with
    | some e =>
        refine ⟨hmoves', hstate, fun h _ => hwrote h, fun _ h => absurd h (by simp), ?_, ?_⟩
        · intro h
          refine .inr (.inr (.inr ?_))
          by_contra hlocked
          exact hstray ⟨.inl hlocked, by simp, h⟩
        · intro h hentered _
          exact absurd ⟨entered_of_resumed rfl hstate hres hentered, by simp, h⟩ hstray
    | none =>
        exact
          { moves := hmoves
            state := hstate
            wrote := fun h _ => hwrote h
            waits := fun w hw => .inr ⟨(Option.some.inj hw).symm, (hyes rfl).1⟩
            fresh := fun _ => .inr (.inl rfl)
            held := fun _ _ hnone => absurd (List.mem_append_right _ (by simp)) hnone }

theorem finishCheckpoint_spec {c : Conn} {env : Env} {isPassive : Bool} {lock : WriteLock Conn}
    {l : Local} (hinv : WriterInv c lock l) {p : Progress Conn}
    (hp : finishCheckpoint c env isPassive lock l.file = p) :
    ResumeSpec c lock l (.checkpointing isPassive) p.1 p.2.1 p.2.2 := by
  rw [← hp]
  unfold finishCheckpoint
  cases isPassive with
  | true =>
      refine ⟨.refl c lock, rfl, fun h _ => h, fun _ h => absurd h (by simp),
        fun h => .inl ⟨h, by simp⟩, fun h hentered hnone => ?_⟩
      exact hinv.held h (entered_of_resumed rfl rfl rfl hentered)
        (fun hmem => hnone (mem_resumed_of_ne hmem (by simp)))
  | false =>
      obtain ⟨hiso, hstate, -⟩ := rejoin_spec env l.file
      have hmoved : ∀ lock' f', f' = (rejoin env l.file).2 → Moves c lock lock' →
          ResumeSpec c lock l (.checkpointing false) lock' f' none := by
        intro lock' f' hf hmoves
        subst hf
        exact ⟨hmoves, hstate, fun _ h => absurd rfl h, fun _ h => absurd h (by simp),
          fun h => absurd h hiso, fun h => absurd h hiso⟩
      rcases hrejoin : rejoin env l.file with ⟨thrown, f'⟩
      rw [hrejoin] at hmoved
      cases thrown with
      | some e => exact hmoved lock f' rfl (.refl c lock)
      | none => exact hmoved (lock.release c) f' rfl (.release c lock)

/-- **A queued operation keeps the assertion**, a stray checkpoint apart. -/
theorem resume_inv {c : Conn} {env : Env} {op : Op} {lock : WriteLock Conn} {l : Local}
    (hinv : WriterInv c lock l) (horder : (Choice.resume op).InOrder l)
    (hclean : op = .checkpoint → ¬Stray env l)
    (hopen : op.wantsWriteLock = true → env.acquired = .ok true → lock.Open c)
    {p : Progress Conn} (hp : op.resume c env lock l.file = p) :
    WriterInv c p.1 (l.resumed op p.2.1 p.2.2) ∧ Moves c lock p.1 := by
  obtain ⟨hawait, hop⟩ := horder
  have hspec : ResumeSpec c lock l op p.1 p.2.1 p.2.2 := by
    cases op with
    | lockRead => exact retryLockRead_spec (hinv.shared_unlocked _ hop (.inl rfl)) hp
    | lockExclusive =>
        exact retryLockExclusive_spec (hinv.shared_unlocked _ hop (.inr (.inl rfl))) hp
    | lockWrite =>
        exact retryLockWrite_spec (hinv.shared_unlocked _ hop (.inr (.inr rfl))) (hopen rfl) hp
    | upgrade => exact retryUpgradeDeferredWrite_spec (hinv.upgrade_write hop) (hopen rfl) hp
    | checkpoint => exact pendingCheckpoint_spec hinv (hclean rfl) (hopen rfl) hp
    | checkpointing isPassive => exact finishCheckpoint_spec hinv hp
  exact ⟨hspec.inv hinv hawait hop, hspec.moves⟩

end Acquiring

/-! ## §7. Every run. -/

variable [DecidableEq Conn]

/-- The condition on a step: no checkpoint strays into a write transaction. -/
def NoStray (c : Config Conn (WriteLock Conn) Local) : ThreadLabel Conn Act → Prop
  | .thread t a => a.choice = .resume .checkpoint → ¬Stray a.env (c.threads t)
  | .env => True

/-- **Step lemma**: a step of a connection keeps its own assertion and moves
the lock only from free or its own. -/
theorem choose_inv {c : Conn} {a : Act} {lock lock' : WriteLock Conn} {l l' : Local}
    (hinv : WriterInv c lock l) (hclean : a.choice = .resume .checkpoint → ¬Stray a.env l)
    (h : choose c a lock l = some (lock', l')) : WriterInv c lock' l' ∧ Moves c lock lock' := by
  obtain ⟨choice, env⟩ := a
  unfold choose at h
  by_cases horder : choice.InOrder l
  · rw [if_pos horder] at h
    cases choice with
    | lock lockType =>
        obtain ⟨rfl, rfl⟩ := Prod.mk.inj (Option.some.inj h)
        exact lock_inv hinv horder rfl
    | unlock lockType =>
        obtain ⟨rfl, rfl⟩ := Prod.mk.inj (Option.some.inj h)
        exact unlock_inv hinv horder rfl
    | write =>
        obtain ⟨hlock, hstate, hiso, hres, hqueued⟩ := jWrite_spec env lock l.file
        rcases hw : jWrite env lock l.file with ⟨rc, lock1, f, queued⟩
        simp only [hw] at h hlock hstate hiso hres hqueued
        obtain ⟨rfl, rfl⟩ := Prod.mk.inj (Option.some.inj h)
        rw [hlock]
        exact ⟨control_inv hinv horder.1 hstate hiso hres (.inl hqueued), .refl c lock⟩
    | control op =>
        obtain ⟨hlock, hstate, hiso, hres, hqueued⟩ := jFileControl_spec env op lock l.file
        rcases hw : jFileControl env op lock l.file with ⟨rc, lock1, f, queued⟩
        simp only [hw] at h hlock hstate hiso hres hqueued
        obtain ⟨rfl, rfl⟩ := Prod.mk.inj (Option.some.inj h)
        rw [hlock]
        exact ⟨control_inv hinv horder hstate hiso hres hqueued, .refl c lock⟩
    | await =>
        obtain ⟨rfl, rfl⟩ := Prod.mk.inj (Option.some.inj h)
        refine ⟨⟨hinv.sqlite_le, hinv.held, hinv.reserved, hinv.shared_unlocked,
          hinv.upgrade_write, ?_, ?_, hinv.one_retry⟩, .refl c lock⟩
        · intro hrun
          exact absurd hrun (by simp)
        · intro hne
          exact absurd rfl hne
    | resume op =>
        simp only [] at h
        split at h
        next => exact absurd h (by simp)
        next hgrant =>
          obtain ⟨rfl, rfl⟩ := Prod.mk.inj (Option.some.inj h)
          refine resume_inv hinv horder (fun hop => hclean (hop ▸ rfl)) ?_ rfl
          intro hwants hacq
          by_contra hclosed
          exact hgrant ⟨hwants, Env.grants_of_acquired hacq, hclosed⟩
    | reexecute =>
        obtain ⟨rfl, rfl⟩ := Prod.mk.inj (Option.some.inj h)
        obtain ⟨-, hempty⟩ := horder
        refine ⟨⟨hinv.sqlite_le, hinv.held, hinv.reserved, hinv.shared_unlocked,
          hinv.upgrade_write, ?_, ?_, hinv.one_retry⟩, .refl c lock⟩
        · intro _ op hop
          exact absurd hop (by simp [hempty])
        · intro _ hmem
          exact absurd hmem (by simp [hempty])
  · rw [if_neg horder] at h
    exact absurd h (by simp)

omit [DecidableEq Conn] in
/-- Another connection's step, which moves the lock only from free or its own,
does not disturb the assertion. -/
theorem WriterInv.other {c d : Conn} {lock lock' : WriteLock Conn} {l : Local}
    (hinv : WriterInv d lock l) (hmoves : Moves c lock lock') (hne : d ≠ c) :
    WriterInv d lock' l :=
  { hinv with held := fun hw he hn => hmoves.keeps hne (hinv.held hw he hn) }

omit [DecidableEq Conn] in
/-- A lock released lazily is held by nobody. -/
theorem WriterInv.lazyGone {c : Conn} {lock : WriteLock Conn} {l : Local}
    (hinv : WriterInv c lock l) (hlazy : lock.lazy = true) :
    WriterInv c ⟨none, false⟩ l :=
  { hinv with
    held := fun hw he hn => Bool.noConfusion (hlazy.symm.trans (hinv.held hw he hn).2) }

/-- **Run lemma**: the assertion holds of every connection in every state of a
run without a stray checkpoint. -/
theorem reach_writerInv {c : Config Conn (WriteLock Conn) Local}
    (h : Reach (machine Conn).system NoStray c) :
    ∀ t, WriterInv t c.shared (c.threads t) := by
  have hall : Threadwise (fun _ => True) (fun t lock l => WriterInv t lock l) c := by
    refine Threads.reach_threadwise ?_ ?_ ?_ h
    · rintro lock th ⟨-, hopened⟩
      refine ⟨trivial, fun t => ?_⟩
      rw [hopened t]
      exact .opened t lock
    · rintro c t a lock l ⟨-, hinv⟩ hok hact
      obtain ⟨hself, hmoves⟩ := choose_inv (hinv t) hok hact
      exact ⟨trivial, hself, fun u hu => (hinv u).other hmoves hu⟩
    · rintro c c' ⟨-, hinv⟩ - ⟨hlazy, rfl⟩
      exact ⟨trivial, fun t => (hinv t).lazyGone hlazy⟩
  exact hall.2

/-- SQLite has a write transaction on the connection. -/
def Local.WriteTransaction (l : Local) : Prop :=
  LockType.reserved.level ≤ l.sqliteLock.level

omit [DecidableEq Conn] in
theorem WriterInv.writer_holds {c : Conn} {lock : WriteLock Conn} {l : Local}
    (hinv : WriterInv c lock l) (h : l.WriteTransaction) : lock.HeldBy c := by
  obtain ⟨hwrite, hnone⟩ := hinv.reserved h
  refine hinv.held hwrite (.inl (hinv.locked ?_)) hnone
  intro hsql
  rw [Local.WriteTransaction, hsql] at h
  exact absurd h (by simp [LockType.level])

/-- **A single writer.**  In a run in which no checkpoint strays, every write
that `WriteAhead` accepts is made by the holder of the write lock, and two
connections never have a write transaction at the same time. -/
theorem accepted_write_holds_lock {c : Config Conn (WriteLock Conn) Local}
    (h : Reach (machine Conn).system NoStray c) :
    (∀ t env c', (machine Conn).system.next c (.thread t ⟨.write, env⟩) c' →
      (c.threads t).file.AcceptsWrite → c.shared.HeldBy t) ∧
    ∀ t u, (c.threads t).WriteTransaction → (c.threads u).WriteTransaction → t = u := by
  have hinv := reach_writerInv h
  refine ⟨?_, fun t u ht hu => ?_⟩
  · intro t env c' hnext _
    cases hnext with
    | thread hact =>
        have horder : Choice.write.InOrder (c.threads t) := choose_inOrder hact
        exact (hinv t).writer_holds horder.2
  · have hheld := ((hinv t).writer_holds ht).1.symm.trans ((hinv u).writer_holds hu).1
    exact Option.some.inj hheld

/-! ## §8. A run with a write transaction, and one with a stray checkpoint. -/

/-- Locks are granted and nothing throws. -/
def Env.quiet : Env := ⟨false, .ok true, none, none, .ok true, true, false⟩

/-- `BEGIN IMMEDIATE` with a write hint: the write lock is queued for, granted
and taken up. -/
def beginWrite (c : Bool) : List (Cmd Bool) :=
  [.control (.writeHint .reserved), .lock .shared, .await, .resume .lockWrite, .reexecute,
    .lock .shared, .lock .reserved].map fun choice => .connection c choice .quiet

/-- Two connections, just opened. -/
def twoConnections : Config Bool (WriteLock Bool) Local := ⟨⟨none, false⟩, fun _ => .opened⟩

theorem twoConnections_reach
    (ok : Config Bool (WriteLock Bool) Local → ThreadLabel Bool Act → Prop) :
    Reach (machine Bool).system ok twoConnections :=
  .init ⟨rfl, fun _ => rfl⟩

/-- No full checkpoint goes on. -/
def NoCheckpoint (_ : Config Bool (WriteLock Bool) Local) : ThreadLabel Bool Act → Prop
  | .thread _ a => a.choice ≠ .resume .checkpoint
  | .env => True

instance decidableNoCheckpoint (c : Config Bool (WriteLock Bool) Local)
    (label : ThreadLabel Bool Act) : Decidable (NoCheckpoint c label) :=
  match label with
  | .thread _ a => inferInstanceAs (Decidable (a.choice ≠ _))
  | .env => isTrue trivial

/-- The first connection begins a write transaction and holds the lock. -/
theorem accepted_write_holds_lock_begin :
    ∃ c, Reach (machine Bool).system NoStray c ∧ (c.threads false).WriteTransaction
      ∧ c.shared.HeldBy false ∧ ¬(c.threads true).WriteTransaction := by
  obtain ⟨c, hc, h⟩ := (twoConnections_reach NoCheckpoint).exists_of_commands
    (exec_next NoCheckpoint) (beginWrite false)
    (fun c => decide (LockType.reserved.level ≤ (c.threads false).sqliteLock.level
      ∧ (c.threads false).file.isolationState = some .write
      ∧ (choose false ⟨.write, .quiet⟩ c.shared (c.threads false)).isSome = true)) (by decide)
  obtain ⟨htx, hwrite, hstep⟩ := of_decide_eq_true h
  have hreach : Reach (machine Bool).system NoStray c := by
    refine hc.mono (fun s l hok => ?_)
    cases l with
    | thread t a => exact fun hck => absurd hck hok
    | env => exact trivial
  obtain ⟨⟨lock, l⟩, hact⟩ := Option.isSome_iff_exists.mp hstep
  obtain ⟨hholds, hone⟩ := accepted_write_holds_lock hreach
  exact ⟨c, hreach, htx, hholds false .quiet _ (.thread hact) hwrite,
    fun hother => Bool.noConfusion (hone _ _ htx hother)⟩

instance decidableAnyStep (c : Config Bool (WriteLock Bool) Local)
    (label : ThreadLabel Bool Act) : Decidable (anyStep c label) := isTrue trivial

/-- **A stray checkpoint gives the lock away.**  The first connection begins a
write transaction and, before its first page, runs `PRAGMA wal_checkpoint(full)`;
the second connection then begins one too.  The first connection's write is
accepted without the lock. -/
theorem stray_checkpoint_gives_lock_away :
    ∃ c c', Reach (machine Bool).system anyStep c
      ∧ (machine Bool).system.next c (.thread false ⟨.write, .quiet⟩) c'
      ∧ (c.threads false).file.AcceptsWrite ∧ ¬c.shared.HeldBy false
      ∧ (c.threads false).WriteTransaction ∧ (c.threads true).WriteTransaction := by
  obtain ⟨c, hc, h⟩ := (twoConnections_reach anyStep).exists_of_commands (exec_next anyStep)
    (beginWrite false ++ [.control (.walCheckpoint false), .await, .resume .checkpoint,
      .reexecute].map (fun choice => .connection false choice .quiet) ++ beginWrite true)
    (fun c => decide ((c.threads false).file.isolationState = some .write
      ∧ ¬c.shared.HeldBy false
      ∧ LockType.reserved.level ≤ (c.threads false).sqliteLock.level
      ∧ LockType.reserved.level ≤ (c.threads true).sqliteLock.level
      ∧ (choose false ⟨.write, .quiet⟩ c.shared (c.threads false)).isSome = true)) (by decide)
  obtain ⟨hwrite, hnot, hfirst, hsecond, hstep⟩ := of_decide_eq_true h
  obtain ⟨⟨lock, l⟩, hact⟩ := Option.isSome_iff_exists.mp hstep
  exact ⟨c, _, hc, .thread hact, hwrite, hnot, hfirst, hsecond⟩

end MemoryWriteAhead.Connection
