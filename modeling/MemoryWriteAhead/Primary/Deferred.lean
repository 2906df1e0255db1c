/-
  MemoryWriteAhead.Primary.Deferred
  ─────────────────────────────────
  **A REFUSED DEFERRED WRITE.**

  A request for `RESERVED` in read isolation that ends with `SQLITE_BUSY`: at once,
  or after a wait whose error a later request is given.

    • `event_kept`, `path_kept` — what happens around the calls leaves a reader its
      view, and takes up what it brings where there is no gap,
    • `reserved_cases`, `upgrade_cases`, `Refused.reading` — a refusal leaves a reader,
    • `jUnlock_run`, `Unisolated.shared` — the unlock and the next `SHARED` request,
    • `refused_write_leaves_usable` — both together, for every reachable reader,
    • `refused_write_can_stay_isolated` — with a gap the connection is not usable: a
      transaction whose message was lost and whose log file has been emptied.
-/
import MemoryWriteAhead.Primary.Model
import MemoryWriteAhead.WriteAhead.Pending

namespace MemoryWriteAhead.Primary

open Transition
open Connection (LockType RetryResult VfsError Rc WriteLock lockError)
open WriteAhead (World Transaction Isolation CatchesUp RejoinFits Filed Frozen Knows UpToDate)

variable {Conn : Type} {c : Conn}

/-! ## §1. What events leave. -/

section

/-- The transactions that a run of events brings. -/
def idsOf (events : List (Event Conn)) : List Nat := events.flatMap Event.ids

theorem idsOf_append (events events' : List (Event Conn)) :
    idsOf (events ++ events') = idsOf events ++ idsOf events' := List.flatMap_append

/-- What stays of the view through a run of events. -/
structure Stays (events : List (Event Conn)) (k k' : WriteAhead.Conn) : Prop where
  isolation : k'.isolationState = k.isolationState
  frozen : k.isolationState ≠ none → Frozen k k'
  overlay : k.isolationState ≠ none → (∀ e ∈ events, e.movesPages = false) →
    k'.waOverlay = k.waOverlay
  filed : Filed k'
  knows : ∀ known, Knows k known → Knows k' (known ++ idsOf events)

/-- What stays of a file. -/
structure Kept (c : Conn) (events : List (Event Conn)) (p p' : PrimaryFile Conn) : Prop where
  view : Stays events p.world.conn p'.world.conn
  upToDate : UpToDate p'.world.conn
  retryResult : p'.retryResult = p.retryResult
  lock : p.lock.holder ≠ some c → p'.lock.holder ≠ some c
  lockState : p.lockState = .none → p'.lockState = .none

theorem Stays.refl {events : List (Event Conn)} {k : WriteAhead.Conn} (hfiled : Filed k)
    (hids : idsOf events = []) : Stays events k k where
  isolation := rfl
  frozen _ := .refl k
  overlay _ _ := rfl
  filed := hfiled
  knows known hknown := by
    rw [hids, List.append_nil]
    exact hknown

theorem Stays.trans {events events' : List (Event Conn)} {k k' k'' : WriteAhead.Conn}
    (h : Stays events k k') (h' : Stays events' k' k'') : Stays (events ++ events') k k'' where
  isolation := h'.isolation.trans h.isolation
  frozen hisolated := (h.frozen hisolated).trans (h'.frozen (h.isolation ▸ hisolated))
  overlay hisolated hstays :=
    (h'.overlay (h.isolation ▸ hisolated) fun e he => hstays e (List.mem_append_right _ he)).trans
      (h.overlay hisolated fun e he => hstays e (List.mem_append_left _ he))
  filed := h'.filed
  knows known hknown := by
    rw [idsOf_append, ← List.append_assoc]
    exact h'.knows _ (h.knows known hknown)

/-- The connection itself is not touched. -/
theorem Kept.of_conn {events : List (Event Conn)} {p p' : PrimaryFile Conn}
    (hfiled : Filed p.world.conn) (hup : UpToDate p.world.conn) (hids : idsOf events = [])
    (hconn : p'.world.conn = p.world.conn) (hresult : p'.retryResult = p.retryResult)
    (hlock : p.lock.holder ≠ some c → p'.lock.holder ≠ some c)
    (hstate : p.lockState = .none → p'.lockState = .none) : Kept c events p p' where
  view := by
    rw [hconn]
    exact .refl hfiled hids
  upToDate := hconn ▸ hup
  retryResult := hresult
  lock := hlock
  lockState := hstate

theorem Kept.trans {events events' : List (Event Conn)} {p p' p'' : PrimaryFile Conn}
    (h : Kept c events p p') (h' : Kept c events' p' p'') : Kept c (events ++ events') p p'' where
  view := h.view.trans h'.view
  upToDate := h'.upToDate
  retryResult := h'.retryResult.trans h.retryResult
  lock hfree := h'.lock (h.lock hfree)
  lockState hnone := h'.lockState (h.lockState hnone)

end

section

variable [DecidableEq Conn]

/-- Giving up the write lock does not take it. -/
theorem releaseLocks_lock (p : PrimaryFile Conn) (h : p.lock.holder ≠ some c) :
    (p.releaseLocks c).lock = p.lock := by
  unfold PrimaryFile.releaseLocks
  split
  all_goals exact if_neg h

theorem releaseLocks_world (p : PrimaryFile Conn) : (p.releaseLocks c).world = p.world := by
  unfold PrimaryFile.releaseLocks
  split
  all_goals rfl

theorem releaseLocks_retryResult (p : PrimaryFile Conn) :
    (p.releaseLocks c).retryResult = p.retryResult := by
  unfold PrimaryFile.releaseLocks
  split
  all_goals rfl

/-- What unlocking to `SQLITE_LOCK_NONE` leaves. -/
structure Unlocked (c : Conn) (p p' : PrimaryFile Conn) : Prop where
  isolation : p'.isolationState = none
  nothing : p'.world.conn.mapIdToPendingTx.keys = []
  retryResult : p'.retryResult = .null
  lock : p.lock.holder ≠ some c → p'.lock.holder ≠ some c
  lockState : p'.lockState = .none
  knows : ∀ known, Knows p.world.conn known → Knows p'.world.conn known

/-- **Unlocking succeeds where nothing meets a gap**, and leaves nothing pending. -/
theorem jUnlock_run {a : Answers} {p : PrimaryFile Conn} (hfiled : Filed p.world.conn)
    (hresult : p.retryResult = .null)
    (hfree : p.isolationState ≠ some .read → p.world.conn.mapIdToPendingTx.keys = [])
    (hfits : WriteAhead.RejoinFits a.backstopDue p.world) :
    ∃ p', jUnlock c a .none p = (.ok, p', none) ∧ Unlocked c p p' := by
  obtain ⟨w, hrun, hrejoined⟩ := WriteAhead.rejoin_run hfiled hfits hfree
  unfold jUnlock
  rw [if_pos ⟨hresult, rfl⟩, PrimaryFile.run_ok hrun]
  refine ⟨_, rfl, ?_, ?_, ?_, ?_, rfl, ?_⟩
  · show (PrimaryFile.releaseLocks c _).world.conn.isolationState = none
    rw [releaseLocks_world]
    exact hrejoined.isolation
  · show (PrimaryFile.releaseLocks c _).world.conn.mapIdToPendingTx.keys = []
    rw [releaseLocks_world]
    exact hrejoined.nothing
  · show (PrimaryFile.releaseLocks c _).retryResult = .null
    rw [releaseLocks_retryResult]
    exact hresult
  · intro hother
    show (PrimaryFile.releaseLocks c _).lock.holder ≠ some c
    rw [releaseLocks_lock { p with world := w } hother]
    exact hother
  · intro known hknown
    show Knows (PrimaryFile.releaseLocks c _).world.conn known
    rw [releaseLocks_world]
    exact hrejoined.knows known hknown

/-- **One event without a gap.** -/
theorem event_kept {p : PrimaryFile Conn} (hfiled : Filed p.world.conn)
    (hup : UpToDate p.world.conn) {e : Event Conn} (hopen : e.Open c p) (hfits : NoGap p e) :
    Kept c [e] p (e.apply c p) := by
  have hids : idsOf [e] = e.ids := List.append_nil _
  cases e with
  | message m =>
      obtain ⟨w, hrun, hreceived⟩ := WriteAhead.handleMessage_received hfiled hfits
      show Kept c [.message m] p (p.run _).2
      rw [PrimaryFile.run_ok hrun]
      refine ⟨⟨hreceived.isolation, hreceived.frozen, fun hisolated hstays => ?_, hreceived.filed,
        fun known hknown => ?_⟩, hreceived.upToDate hup, rfl, fun h => h, fun h => h⟩
      · exact hreceived.overlay hisolated (hstays _ (List.mem_singleton_self _))
      · rw [hids]
        exact hreceived.knows known hknown
  | backstop =>
      obtain ⟨w, hrun, hcaught⟩ := CatchesUp.advanceTxId hfits hfiled
      show Kept c [.backstop] p (p.run _).2
      rw [PrimaryFile.run_ok hrun]
      refine ⟨⟨hcaught.isolation, fun hisolated => absurd hopen hisolated,
        fun hisolated => absurd hopen hisolated, .of_nothing hcaught.nothing,
        fun known hknown => ?_⟩, fun _ => hcaught.nothing, rfl, fun h => h, fun h => h⟩
      rw [hids]
      show Knows w.conn (known ++ [])
      rw [List.append_nil]
      exact hcaught.knows hknown
  | store st => exact .of_conn hfiled hup rfl rfl rfl (fun h => h) fun h => h
  | writeLock lock =>
      refine .of_conn hfiled hup rfl rfl rfl (fun hother hheld => ?_) fun h => h
      have hsame : lock = p.lock := hopen (.inr hheld)
      exact hother (hsame ▸ hheld)
  | writeHint hint => exact .of_conn hfiled hup rfl rfl rfl (fun h => h) fun h => h
  | lockingMode mode => exact .of_conn hfiled hup rfl rfl rfl (fun h => h) fun h => h
  | lazyLock mode => exact .of_conn hfiled hup rfl rfl rfl (fun h => h) fun h => h
  | unlock a =>
      show Kept c [.unlock a] p (jUnlock c a .none p).2.1
      by_cases hresult : p.retryResult = .null
      · -- the end of no isolation
        have hnone : p.isolationState = none := hopen.resolve_right (not_not_intro hresult)
        obtain ⟨p', hrun, hunlocked⟩ :=
          jUnlock_run (c := c) hfiled hresult (fun _ => hup hnone) (hfits hresult)
        rw [hrun]
        refine ⟨⟨hunlocked.isolation.trans hnone.symm, fun hisolated => absurd hnone hisolated,
          fun hisolated => absurd hnone hisolated, .of_nothing hunlocked.nothing,
          fun known hknown => ?_⟩, fun _ => hunlocked.nothing,
          hunlocked.retryResult.trans hresult.symm, hunlocked.lock, fun _ => hunlocked.lockState⟩
        rw [hids]
        show Knows p'.world.conn (known ++ [])
        rw [List.append_nil]
        exact hunlocked.knows known hknown
      · -- a retry is pending: only the lock state is set
        have hkept : jUnlock c a .none p = (.ok, { p with lockState := .none }, none) :=
          if_neg fun h => hresult h.1
        rw [hkept]
        exact .of_conn hfiled hup rfl rfl rfl (fun h => h) fun _ => rfl

/-- **A run of events without a gap.** -/
theorem path_kept {p p' : PrimaryFile Conn} {events : List (Event Conn)}
    (hrun : Path (around c) NoGap p events p') (hfiled : Filed p.world.conn)
    (hup : UpToDate p.world.conn) : Kept c events p p' := by
  induction hrun with
  | nil => exact .of_conn hfiled hup rfl rfl rfl (fun h => h) fun h => h
  | @snoc events q e p' _ hfits hnext ih =>
      obtain ⟨hopen, rfl⟩ := hnext
      exact ih.trans (event_kept ih.view.filed ih.upToDate hopen hfits)

/-! ## §2. Requests for `RESERVED`. -/

/-- The connection is read isolated and no retry is under way. -/
structure Reading (p : PrimaryFile Conn) : Prop where
  isolation : p.isolationState = some .read
  retryResult : p.retryResult = .null
  filed : Filed p.world.conn

/-- A request for `RESERVED` or more is no `SHARED` request. -/
theorem jLock_reserved {a : Answers} {lockType : LockType}
    (hreserved : LockType.reserved.level ≤ lockType.level) (p : PrimaryFile Conn) :
    jLock c a lockType p = jLockReserved c a lockType p := by
  have hshared : ¬(p.lockState = .none ∧ lockType = .shared) := by
    rintro ⟨_, rfl⟩
    exact absurd hreserved (by decide)
  unfold jLock
  rw [if_neg hshared, if_pos hreserved]

/-- **A request in read isolation** is granted, refused at once with the write lock
released, or queued; only the grant touches the log, and that only its isolation. -/
theorem reserved_cases {a : Answers} {lockType : LockType} {p : PrimaryFile Conn}
    (hreading : Reading p) (hreserved : LockType.reserved.level ≤ lockType.level) :
    (∃ p', jLock c a lockType p = (.ok, p', none))
      ∨ jLock c a lockType p = (.busy, p.withLock ⟨none, false⟩, none)
      ∨ jLock c a lockType p = (.busy, p.granted, some .upgrade) := by
  have hread := hreading.isolation
  have hnotWrite : p.isolationState ≠ some .write := by
    rw [hread]
    decide
  rw [jLock_reserved hreserved]
  simp only [jLockReserved, hreading.retryResult, if_neg hnotWrite, if_pos hread]
  by_cases hheld : p.lock.holder = some c ∧ a.writeHeld = true
  · have hacquire : p.lock.acquireIfHeld c a.writeHeld = (true, ⟨some c, false⟩) := if_pos hheld
    simp only [hacquire]
    rcases WriteAhead.tryUpgrade_run hread with hstale | hcurrent
    · -- the write lock was held and is released
      refine .inr (.inl ?_)
      have hrelease : (⟨some c, false⟩ : WriteLock Conn).release c = ⟨none, false⟩ := if_pos rfl
      rw [PrimaryFile.run_ok (p := p.withLock ⟨some c, false⟩) hstale]
      simp only [if_true, PrimaryFile.withLock, hrelease]
      rfl
    · rw [PrimaryFile.run_ok (p := p.withLock ⟨some c, false⟩) hcurrent]
      exact .inl ⟨_, rfl⟩
  · have hacquire : p.lock.acquireIfHeld c a.writeHeld = (false, p.lock) := if_neg hheld
    simp only [hacquire]
    exact .inr (.inr rfl)

/-- **The end of the wait**: the upgrade is there, or its error is stored, the write
lock is not held and nothing else has changed. -/
theorem upgrade_cases {a : Answers} {p : PrimaryFile Conn} (hread : p.isolationState = some .read) :
    (∃ p', Retry.resume c a .upgrade p = (p', none)
        ∧ p'.world = p.world.isolated (some .write) ∧ p'.retryResult = .done)
      ∨ ∃ lock e, lock.holder ≠ some c
        ∧ Retry.resume c a .upgrade p = ((p.withLock lock).failed e, none) := by
  have hreleased (lock : WriteLock Conn) : (lock.release c).holder ≠ some c := by
    unfold WriteLock.release
    split
    next => exact (Option.some_ne_none c).symm
    next h => exact h
  unfold Retry.resume
  cases hacquired : a.acquired with
  | error e =>
      simp only [retryUpgradeDeferredWrite, hacquired]
      exact .inr ⟨_, e, hreleased _, rfl⟩
  | ok granted =>
      cases granted with
      | false =>
          simp only [retryUpgradeDeferredWrite, hacquired]
          exact .inr ⟨_, _, hreleased _, rfl⟩
      | true =>
          simp only [retryUpgradeDeferredWrite, hacquired]
          rcases WriteAhead.tryUpgrade_run hread with hstale | hcurrent
          · rw [PrimaryFile.run_ok (p := p.withLock (.acquire c)) hstale]
            exact .inr ⟨_, _, hreleased _, rfl⟩
          · rw [PrimaryFile.run_ok (p := p.withLock (.acquire c)) hcurrent]
            exact .inl ⟨_, rfl, rfl, rfl⟩

/-- A stored error is given to the next request that can be refused. -/
theorem jLock_stored {a : Answers} {lockType : LockType} {p p' : PrimaryFile Conn} {e : VfsError}
    {queued : Option Retry} (hresult : p.retryResult = .error e)
    (h : jLock c a lockType p = (.busy, p', queued)) : p' = { p with retryResult := .null } := by
  unfold jLock at h
  split at h
  · simp only [jLockShared, hresult] at h
    exact (Prod.mk.inj (Prod.mk.inj h).2).1.symm
  · split at h
    · simp only [jLockReserved, hresult] at h
      exact (Prod.mk.inj (Prod.mk.inj h).2).1.symm
    · cases h

/-- A retry that has upgraded lets no request be refused. -/
theorem jLock_upgraded {a : Answers} {lockType : LockType} {p : PrimaryFile Conn}
    (hresult : p.retryResult = .done) (hwrite : p.isolationState = some .write) :
    (jLock c a lockType p).1 = .ok := by
  unfold jLock
  split
  · simp only [jLockShared, hresult]
  · split
    · simp only [jLockReserved, hresult, if_pos hwrite]
    · rfl

/-! ## §3. Refusals. -/

/-- **The ways in which a `RESERVED` request is refused**, with the events meanwhile. -/
inductive Refused (c : Conn) : PrimaryFile Conn → List (Event Conn) → PrimaryFile Conn → Prop
  /-- on the synchronous path -/
  | atOnce {p p' : PrimaryFile Conn} {a : Answers} {lockType : LockType}
      (hreserved : LockType.reserved.level ≤ lockType.level)
      (hrefused : jLock c a lockType p = (.busy, p', none)) : Refused c p [] p'
  /-- after waiting: the error of the retry is given to a later request, in a
  transaction to the same one, in an autocommit statement to the `SHARED` request
  after SQLite has unlocked -/
  | afterWait {p p₁ p₂ p₃ p₄ p' : PrimaryFile Conn} {events events' : List (Event Conn)}
      {a a' a'' : Answers} {lockType lockType' : LockType}
      (hreserved : LockType.reserved.level ≤ lockType.level)
      (hqueued : jLock c a lockType p = (.busy, p₁, some .upgrade))
      (hwait : Path (around c) NoGap p₁ events p₂)
      (hresumed : Retry.resume c a' .upgrade p₂ = (p₃, none))
      (hstored : Path (around c) NoGap p₃ events' p₄)
      (hrefused : jLock c a'' lockType' p₄ = (.busy, p', none)) :
      Refused c p (events ++ events') p'

/-- **A refusal leaves a reader** with its view, without the write lock and with no
retry under way. -/
theorem Refused.reading {p p' : PrimaryFile Conn} {events : List (Event Conn)}
    (h : Refused c p events p') (hreading : Reading p) :
    Reading p' ∧ p'.lock.holder ≠ some c ∧ Stays events p.world.conn p'.world.conn := by
  have hisolated : p.isolationState ≠ none := by
    rw [hreading.isolation]
    exact Option.some_ne_none _
  cases h with
  | @atOnce _ a lockType hreserved hrefused =>
      rcases reserved_cases (c := c) (a := a) hreading hreserved with ⟨q, hok⟩ | hstale | hqueued
      · rw [hok] at hrefused
        cases hrefused
      · rw [hstale] at hrefused
        obtain rfl : p.withLock ⟨none, false⟩ = p' := (Prod.mk.inj (Prod.mk.inj hrefused).2).1
        exact ⟨⟨hreading.isolation, hreading.retryResult, hreading.filed⟩,
          (Option.some_ne_none c).symm, .refl hreading.filed rfl⟩
      · rw [hqueued] at hrefused
        cases hrefused
  | @afterWait p₁ p₂ p₃ p₄ _ events events' a a' a'' lockType lockType' hreserved hqueued hwait
      hresumed hstored hrefused =>
      -- the request is queued and the connection stays as it was
      have hp₁ : p₁ = p.granted := by
        rcases reserved_cases (c := c) (a := a) hreading hreserved with ⟨q, hok⟩ | hstale | hwaits
        · rw [hok] at hqueued
          cases hqueued
        · rw [hstale] at hqueued
          cases hqueued
        · rw [hwaits] at hqueued
          exact (Prod.mk.inj (Prod.mk.inj hqueued).2).1.symm
      subst hp₁
      have hup : UpToDate p.granted.world.conn := fun hnone => absurd hnone hisolated
      have hwaited := path_kept hwait hreading.filed hup
      have hread₂ : p₂.isolationState = some .read := hwaited.view.isolation.trans hreading.isolation
      rcases upgrade_cases (c := c) (a := a') hread₂ with
        ⟨q, hdone, hworld, hresult⟩ | ⟨lock, e, hlock, hfailed⟩
      · -- an upgrade that came through is not refused afterwards
        rw [hdone] at hresumed
        obtain rfl : q = p₃ := (Prod.mk.inj hresumed).1
        have hwrite : q.isolationState = some .write :=
          congrArg (fun w => w.conn.isolationState) hworld
        have hfiled : Filed q.world.conn := by
          rw [hworld]
          exact hwaited.view.filed
        have hkept := path_kept hstored hfiled
          fun hnone => absurd (hwrite.symm.trans hnone) (Option.some_ne_none _)
        have hok : (jLock c a'' lockType' p₄).1 = .ok :=
          jLock_upgraded (hkept.retryResult.trans hresult) (hkept.view.isolation.trans hwrite)
        rw [hrefused] at hok
        cases hok
      · rw [hfailed] at hresumed
        obtain rfl : (p₂.withLock lock).failed e = p₃ := (Prod.mk.inj hresumed).1
        have hkept := path_kept hstored hwaited.view.filed hwaited.upToDate
        have hp' := jLock_stored (hkept.retryResult.trans rfl) hrefused
        subst hp'
        exact ⟨⟨hkept.view.isolation.trans hread₂, rfl, hkept.view.filed⟩, hkept.lock hlock,
          hwaited.view.trans hkept.view⟩

/-! ## §4. The next `SHARED` request. -/

/-- The view has the transactions with these ids. -/
def Includes (known : List Nat) (p : PrimaryFile Conn) : Prop :=
  ∀ id ∈ known, id ≤ p.world.conn.txId

/-- What a writer takes up is at hand. -/
def WriteFits (p : PrimaryFile Conn) : Prop := CatchesUp true (p.world.isolated (some .write))

/-- The wait has ended well: SQLite's request is granted whenever it comes, with a
view that had all that was known. -/
def Served (c : Conn) (known : List Nat) (p : PrimaryFile Conn) : Prop :=
  ∀ events p' a, Path (around c) NoGap p events p' →
    ∃ q, jLock c a .shared p' = (.ok, q, none) ∧ q.isolationState ≠ none ∧ Includes known q

/-- The operation ends well when its lock is granted, whatever happens before. -/
def Ends (c : Conn) (known : List Nat) (p : PrimaryFile Conn) (op : Retry) : Prop :=
  ∀ events p' a, Path (around c) NoGap p events p' → a.acquired = .ok true →
    (op = .lockWrite → WriteFits p') →
    ∃ q, op.resume c a p' = (q, none) ∧ Served c (known ++ idsOf events) q

/-- In exclusive locking mode there is a wait for each of the two locks. -/
def Waits (c : Conn) (known : List Nat) (p : PrimaryFile Conn) (op : Retry) : Prop :=
  if op = .lockExclusive then
    ∀ events p' a, Path (around c) NoGap p events p' → a.acquired = .ok true →
      ∃ q, op.resume c a p' = (q, some .lockWrite) ∧ Ends c (known ++ idsOf events) q .lockWrite
  else Ends c known p op

/-- **The next `SHARED` request is granted**, at once or after its own wait, with a
view that has all that was known when it was frozen. -/
def SharedGranted (c : Conn) (known : List Nat) (p : PrimaryFile Conn) : Prop :=
  ∀ a, (p.writeHint ≠ none → WriteFits p) →
    (∃ q, jLock c a .shared p = (.ok, q, none) ∧ q.isolationState ≠ none ∧ Includes known q)
      ∨ ∃ q op, jLock c a .shared p = (.busy, q, some op) ∧ Waits c known q op

/-- The connection is unlocked and its view has all that is known. -/
structure Unisolated (known : List Nat) (p : PrimaryFile Conn) : Prop where
  isolation : p.isolationState = none
  nothing : p.world.conn.mapIdToPendingTx.keys = []
  lockState : p.lockState = .none
  knows : Knows p.world.conn known

theorem Unisolated.path {known : List Nat} {p p' : PrimaryFile Conn}
    {events : List (Event Conn)} (h : Unisolated known p)
    (hrun : Path (around c) NoGap p events p') :
    Unisolated (known ++ idsOf events) p' ∧ p'.retryResult = p.retryResult := by
  have hkept := path_kept hrun (.of_nothing h.nothing) fun _ => h.nothing
  have hnone : p'.isolationState = none := hkept.view.isolation.trans h.isolation
  exact ⟨⟨hnone, hkept.upToDate hnone, hkept.lockState h.lockState,
    hkept.view.knows known h.knows⟩, hkept.retryResult⟩

omit [DecidableEq Conn] in
/-- A reader's view has all that is known. -/
theorem Unisolated.read {known : List Nat} {p : PrimaryFile Conn} (h : Unisolated known p) :
    ∃ p', p.run WriteAhead.isolateForRead = (.ok ⟨⟩, p') ∧ p'.isolationState ≠ none
      ∧ Filed p'.world.conn ∧ Includes known p' ∧ p'.lockState = .none := by
  refine ⟨_, PrimaryFile.run_ok (WriteAhead.isolateForRead_run h.isolation), ?_,
    .of_nothing h.nothing, h.knows.le h.nothing, h.lockState⟩
  exact Option.some_ne_none _

omit [DecidableEq Conn] in
/-- So does a writer's. -/
theorem Unisolated.write {known : List Nat} {p : PrimaryFile Conn} (h : Unisolated known p)
    (hfits : WriteFits p) :
    ∃ p', p.run WriteAhead.isolateForWrite = (.ok ⟨⟩, p') ∧ p'.isolationState ≠ none
      ∧ Filed p'.world.conn ∧ Includes known p' ∧ p'.lockState = .none := by
  obtain ⟨w, hrun, hcaught⟩ :=
    WriteAhead.isolateForWrite_run h.isolation (.of_nothing h.nothing) hfits
  refine ⟨_, PrimaryFile.run_ok hrun, ?_, .of_nothing hcaught.nothing, ?_, h.lockState⟩
  · show w.conn.isolationState ≠ none
    rw [hcaught.isolation]
    exact Option.some_ne_none _
  · exact Knows.le (hcaught.knows (w := p.world.isolated (some .write)) h.knows) hcaught.nothing

/-- **Once the retry has isolated the connection** the request is granted. -/
theorem served {known : List Nat} {p : PrimaryFile Conn} (hisolated : p.isolationState ≠ none)
    (hfiled : Filed p.world.conn) (hincludes : Includes known p) (hstate : p.lockState = .none)
    (hresult : p.retryResult = .done) : Served c known p := by
  intro events p' a hrun
  have hkept := path_kept hrun hfiled fun hnone => absurd hnone hisolated
  have hresult' : p'.retryResult = .done := hkept.retryResult.trans hresult
  refine ⟨p'.locked .shared, ?_, ?_, fun id hid => ?_⟩
  · unfold jLock
    rw [if_pos ⟨hkept.lockState hstate, rfl⟩]
    simp only [jLockShared, hresult']
  · show p'.isolationState ≠ none
    rw [show p'.isolationState = p.isolationState from hkept.view.isolation]
    exact hisolated
  · show id ≤ p'.world.conn.txId
    rw [(hkept.view.frozen hisolated).txId]
    exact hincludes id hid

theorem ends_lockRead {known : List Nat} {p : PrimaryFile Conn} (h : Unisolated known p) :
    Ends c known p .lockRead := by
  intro events p' a hrun hacquired _
  obtain ⟨hunisolated, _⟩ := h.path hrun
  obtain ⟨q, hq, hisolated, hfiled, hincludes, hstate⟩ := hunisolated.read
  refine ⟨q.granted, ?_, served hisolated hfiled hincludes hstate rfl⟩
  simp only [Retry.resume, retryLockRead, hacquired, hq]

theorem ends_lockWrite {known : List Nat} {p : PrimaryFile Conn} (h : Unisolated known p) :
    Ends c known p .lockWrite := by
  intro events p' a hrun hacquired hfits
  obtain ⟨hunisolated, _⟩ := h.path hrun
  have hheld : Unisolated (known ++ idsOf events) (p'.withLock (.acquire c)) :=
    ⟨hunisolated.isolation, hunisolated.nothing, hunisolated.lockState, hunisolated.knows⟩
  obtain ⟨q, hq, hisolated, hfiled, hincludes, hstate⟩ := hheld.write (hfits rfl)
  refine ⟨q.granted, ?_, served hisolated hfiled hincludes hstate rfl⟩
  simp only [Retry.resume, retryLockWrite, hacquired, hq]

/-- **An unlocked connection is served.** -/
theorem Unisolated.shared {known : List Nat} {p : PrimaryFile Conn} (h : Unisolated known p)
    (hresult : p.retryResult = .null) : SharedGranted c known p := by
  intro a hfits
  have heq : jLock c a .shared p = jLockShared c a p := if_pos ⟨h.lockState, rfl⟩
  rw [heq]
  by_cases hexclusive : p.lockingMode = .exclusive
  · -- the wait for the read lock, then the one for the write lock
    refine .inr ⟨p.granted, .lockExclusive, ?_, ?_⟩
    · simp only [jLockShared, hresult, if_pos hexclusive]
    · have hqueued : Unisolated known p.granted :=
        ⟨h.isolation, h.nothing, h.lockState, h.knows⟩
      show Waits c known p.granted .lockExclusive
      unfold Waits
      rw [if_pos rfl]
      intro events p' a' hrun hacquired
      refine ⟨p', ?_, ends_lockWrite (hqueued.path hrun).1⟩
      simp only [Retry.resume, retryLockExclusive, hacquired]
  · by_cases hhint : p.writeHint = none
    · by_cases hread : a.readHeld = true
      · obtain ⟨q, hq, hisolated, _, hincludes, _⟩ := h.read
        refine .inl ⟨q.locked .shared, ?_, hisolated, hincludes⟩
        simp only [jLockShared, hresult, if_neg hexclusive, if_neg (not_not_intro hhint),
          if_pos hread, hq]
      · refine .inr ⟨p, .lockRead, ?_, ?_⟩
        · simp only [jLockShared, hresult, if_neg hexclusive, if_neg (not_not_intro hhint),
            if_neg hread]
        · unfold Waits
          rw [if_neg (by decide)]
          exact ends_lockRead h
    · by_cases hheld : p.lock.holder = some c ∧ a.writeHeld = true
      · have hacquire : p.lock.acquireIfHeld c a.writeHeld = (true, ⟨some c, false⟩) :=
          if_pos hheld
        have hlocked : Unisolated known (p.withLock ⟨some c, false⟩) :=
          ⟨h.isolation, h.nothing, h.lockState, h.knows⟩
        obtain ⟨q, hq, hisolated, _, hincludes, _⟩ := hlocked.write (hfits hhint)
        refine .inl ⟨q.locked .shared, ?_, hisolated, hincludes⟩
        simp only [jLockShared, hresult, if_neg hexclusive, if_pos hhint, hacquire, hq]
      · have hacquire : p.lock.acquireIfHeld c a.writeHeld = (false, p.lock) := if_neg hheld
        refine .inr ⟨p.withLock p.lock, .lockWrite, ?_, ?_⟩
        · simp only [jLockShared, hresult, if_neg hexclusive, if_pos hhint, hacquire]
        · unfold Waits
          rw [if_neg (by decide)]
          exact ends_lockWrite h

/-! ## §5. Every reachable reader. -/

omit [DecidableEq Conn] in
theorem run_filed {α : Type} {code : WriteAhead.WA α} (hkeeps : WriteAhead.KeepsFiled code)
    {p : PrimaryFile Conn} (hfiled : Filed p.world.conn) : Filed (p.run code).2.world.conn := by
  have hyields := hkeeps p.world hfiled
  unfold PrimaryFile.run
  cases hrun : code p.world with
  | ok a w => exact hyields.of_ok hrun
  | error e w => exact hyields.of_error hrun

omit [DecidableEq Conn] in
/-- What is made of a file after code of the log has run. -/
theorem filed_of_run {α : Type} {code : WriteAhead.WA α} (hkeeps : WriteAhead.KeepsFiled code)
    {p p' : PrimaryFile Conn} {r : Except VfsError α} (hfiled : Filed p.world.conn)
    (hrun : p.run code = (r, p')) : Filed p'.world.conn := by
  have h := run_filed hkeeps hfiled
  rw [hrun] at h
  exact h

theorem jLock_filed {a : Answers} {lockType : LockType} {p : PrimaryFile Conn}
    (hfiled : Filed p.world.conn) : Filed (jLock c a lockType p).2.1.world.conn := by
  unfold jLock
  split
  · unfold jLockShared
    split
    · split
      · exact hfiled
      · split
        · split
          · exact hfiled
          next lock _ =>
            have hlocked : Filed (p.withLock lock).world.conn := hfiled
            split
            next hrun => exact (filed_of_run WriteAhead.keepsFiled_isolateForWrite hlocked hrun :)
            next hrun => exact (filed_of_run WriteAhead.keepsFiled_isolateForWrite hlocked hrun :)
        · split
          · split
            next hrun => exact (filed_of_run WriteAhead.keepsFiled_isolateForRead hfiled hrun :)
            next hrun => exact (filed_of_run WriteAhead.keepsFiled_isolateForRead hfiled hrun :)
          · exact hfiled
    · exact hfiled
    · exact hfiled
  · split
    · unfold jLockReserved
      split
      · exact hfiled
      · split
        · exact hfiled
        · dsimp only
          have hlocked (lock : WriteLock Conn) : Filed (p.withLock lock).world.conn := hfiled
          split
          · split
            · split
              next hrun => exact (filed_of_run WriteAhead.keepsFiled_tryUpgrade (hlocked _) hrun :)
              next hrun => exact (filed_of_run WriteAhead.keepsFiled_tryUpgrade (hlocked _) hrun :)
              next hrun => exact (filed_of_run WriteAhead.keepsFiled_tryUpgrade (hlocked _) hrun :)
            · exact hfiled
          · exact hfiled
    · exact hfiled

theorem jUnlock_filed {a : Answers} {lockType : LockType} {p : PrimaryFile Conn}
    (hfiled : Filed p.world.conn) : Filed (jUnlock c a lockType p).2.1.world.conn := by
  unfold jUnlock
  split
  · split
    next hrun => exact (filed_of_run (WriteAhead.keepsFiled_rejoin _) hfiled hrun :)
    next p' hrun =>
      show Filed (p'.releaseLocks c).world.conn
      rw [releaseLocks_world]
      exact filed_of_run (WriteAhead.keepsFiled_rejoin _) hfiled hrun
  · exact hfiled

theorem resume_filed {a : Answers} {op : Retry} {p : PrimaryFile Conn}
    (hfiled : Filed p.world.conn) : Filed (op.resume c a p).1.world.conn := by
  have hlocked (lock : WriteLock Conn) : Filed (p.withLock lock).world.conn := hfiled
  cases op with
  | lockRead =>
      unfold Retry.resume
      dsimp only
      unfold retryLockRead
      split
      · exact hfiled
      · exact hfiled
      · split
        next hrun => exact (filed_of_run WriteAhead.keepsFiled_isolateForRead hfiled hrun :)
        next hrun => exact (filed_of_run WriteAhead.keepsFiled_isolateForRead hfiled hrun :)
  | lockExclusive =>
      unfold Retry.resume
      dsimp only
      unfold retryLockExclusive
      split
      all_goals exact hfiled
  | lockWrite =>
      unfold Retry.resume
      dsimp only
      unfold retryLockWrite
      split
      · exact hfiled
      · exact hfiled
      · split
        next hrun => exact (filed_of_run WriteAhead.keepsFiled_isolateForWrite (hlocked _) hrun :)
        next hrun => exact (filed_of_run WriteAhead.keepsFiled_isolateForWrite (hlocked _) hrun :)
  | upgrade =>
      unfold Retry.resume
      dsimp only
      unfold retryUpgradeDeferredWrite
      split
      · exact hfiled
      · exact hfiled
      · split
        next hrun => exact (filed_of_run WriteAhead.keepsFiled_tryUpgrade (hlocked _) hrun :)
        next hrun => exact (filed_of_run WriteAhead.keepsFiled_tryUpgrade (hlocked _) hrun :)
        next hrun => exact (filed_of_run WriteAhead.keepsFiled_tryUpgrade (hlocked _) hrun :)

omit [DecidableEq Conn] in
theorem LogCall.code_filed (call : LogCall) : WriteAhead.KeepsFiled call.code := by
  cases call with
  | write salt2 offset data dstPageSize => exact WriteAhead.keepsFiled_write _ _ _ _
  | truncate newSize => exact WriteAhead.keepsFiled_truncate newSize
  | rollback => exact WriteAhead.keepsFiled_rollback
  | commit => exact .bind WriteAhead.keepsFiled_commit fun _ => .pure _
  | isolateForWrite => exact WriteAhead.keepsFiled_isolateForWrite
  | checkpointCopy ckptId => exact WriteAhead.keepsFiled_checkpointCopy ckptId
  | truncateInactiveFile => exact WriteAhead.keepsFiled_truncateInactiveFile
  | rejoin backstopDue => exact WriteAhead.keepsFiled_rejoin backstopDue

theorem event_filed {e : Event Conn} {p : PrimaryFile Conn} (hfiled : Filed p.world.conn) :
    Filed (e.apply c p).world.conn := by
  cases e with
  | message m => exact run_filed (WriteAhead.keepsFiled_handleMessage m) hfiled
  | backstop => exact run_filed (WriteAhead.takenUp_filed.advanceTxId true) hfiled
  | store st => exact hfiled
  | writeLock lock => exact hfiled
  | writeHint hint => exact hfiled
  | lockingMode mode => exact hfiled
  | lazyLock mode => exact hfiled
  | unlock a => exact jUnlock_filed hfiled

theorem act_filed {act : Act Conn} {p : PrimaryFile Conn} (hfiled : Filed p.world.conn) :
    Filed (act.apply c p).world.conn := by
  cases act with
  | lock lockType a => exact jLock_filed hfiled
  | unlock lockType a => exact jUnlock_filed hfiled
  | resume op a => exact resume_filed hfiled
  | log call => exact run_filed call.code_filed hfiled
  | checkpointLock left => exact hfiled
  | event e => exact event_filed hfiled

/-- **In every run the pending transactions are filed under their ids.** -/
theorem reach_filed {p : PrimaryFile Conn} (h : Reach (machine c) anyStep p) :
    Filed p.world.conn := by
  have hinit : ∀ p, (machine c).init p → Filed p.world.conn := by
    rintro p ⟨store, randomSalt1, salt2, world, lock, hready, rfl⟩
    exact (WriteAhead.keepsFiled_ready randomSalt1 salt2 ⟨store, .initial⟩
      fun _ _ hlookup => absurd hlookup (Option.some_ne_none _).symm).of_ok hready
  have hstep : ∀ p act p', Filed p.world.conn → anyStep p act → (machine c).next p act p' →
      Filed p'.world.conn := by
    rintro p act p' hfiled _ rfl
    exact act_filed hfiled
  exact h.invariant hinit hstep

/-- What is left to a reader whose write has been refused: its view, no write lock,
and the request. -/
structure StaysUsable (c : Conn) (events : List (Event Conn)) (p p' : PrimaryFile Conn) :
    Prop where
  isolation : p'.isolationState = some .read
  snapshot : Frozen p.world.conn p'.world.conn
  overlay : (∀ e ∈ events, e.movesPages = false) →
    p'.world.conn.waOverlay = p.world.conn.waOverlay
  noWriteLock : p'.lock.holder ≠ some c
  retryResult : p'.retryResult = .null
  again : ∀ a lockType, LockType.reserved.level ≤ lockType.level →
    (jLock c a lockType p').1 = .ok ∨ (jLock c a lockType p').1 = .busy

/-- What is left after the unlock: an open connection without isolation, whose next
`SHARED` request is granted with all that had been received. -/
def Recovers (c : Conn) (received : List Nat) (a : Answers) (p : PrimaryFile Conn) : Prop :=
  ∃ q, jUnlock c a .none p = (.ok, q, none) ∧ q.isolationState = none ∧ q.retryResult = .null
    ∧ ∀ events r, Path (around c) NoGap q events r → SharedGranted c (received ++ idsOf events) r

/-- **A refused deferred write leaves a usable connection, where nothing that it takes
up has a gap in front of it**: however the request of a reachable reader is refused
and whatever happens afterwards, it stays a reader with its view; and an unlock
ends the isolation, with all that it had received in the next view. -/
theorem refused_write_leaves_usable {p p' p'' : PrimaryFile Conn}
    {events events' : List (Event Conn)} (hreach : Reach (machine c) anyStep p)
    (hread : p.isolationState = some .read) (hfresh : p.retryResult = .null)
    (hrefused : Refused c p events p') (hopen : Path (around c) NoGap p' events' p'') :
    StaysUsable c (events ++ events') p p''
      ∧ ∀ a, RejoinFits a.backstopDue p''.world →
        Recovers c (p.world.conn.mapIdToPendingTx.keys ++ idsOf (events ++ events')) a p'' := by
  obtain ⟨hreading', hlock, hview⟩ := hrefused.reading ⟨hread, hfresh, reach_filed hreach⟩
  have hisolated : p.isolationState ≠ none := by
    rw [hread]
    exact Option.some_ne_none _
  have hkept := path_kept hopen hreading'.filed fun hnone =>
    absurd (hreading'.isolation.symm.trans hnone) (Option.some_ne_none _)
  have hstays := hview.trans hkept.view
  have hreading : Reading p'' :=
    ⟨hkept.view.isolation.trans hreading'.isolation, hkept.retryResult.trans hreading'.retryResult,
      hkept.view.filed⟩
  refine ⟨⟨hreading.isolation, hstays.frozen hisolated, hstays.overlay hisolated, hkept.lock hlock,
    hreading.retryResult, fun a lockType hreserved => ?_⟩, fun a hfits => ?_⟩
  · rcases reserved_cases (c := c) (a := a) hreading hreserved with ⟨q, hok⟩ | hstale | hqueued
    · exact .inl (by rw [hok])
    · exact .inr (by rw [hstale])
    · exact .inr (by rw [hqueued])
  · obtain ⟨q, hrun, hunlocked⟩ := jUnlock_run (c := c) hreading.filed hreading.retryResult
      (fun hnot => absurd hreading.isolation hnot) hfits
    refine ⟨q, hrun, hunlocked.isolation, hunlocked.retryResult, fun events'' r hafter => ?_⟩
    have hknown := hunlocked.knows _ (hstays.knows _ Knows.pending)
    have hunisolated : Unisolated _ q :=
      ⟨hunlocked.isolation, hunlocked.nothing, hunlocked.lockState, hknown⟩
    obtain ⟨hnext, hresult⟩ := hunisolated.path hafter
    exact hnext.shared (hresult.trans hunlocked.retryResult)

theorem reach_acts {p : PrimaryFile Conn} (h : Reach (machine c) anyStep p)
    (acts : List (Act Conn)) :
    Reach (machine c) anyStep (acts.foldl (fun p act => act.apply c p) p) := by
  induction acts generalizing p with
  | nil => exact h
  | cons act acts ih => exact ih (h.step trivial rfl)

end

/-! ## §6. A transaction that was never received. -/

/-- The locks grant what is asked. -/
def granting : Answers := ⟨true, true, .ok true, false⟩

/-- The wait times out. -/
def refusing : Answers := ⟨true, false, .ok false, false⟩

def emptyStore : WriteAhead.Store where
  wa _ := ⟨[], 65536⟩
  db := []
  dbMaxCapacityBytes := 65536

/-- The first log file has been checkpointed and emptied, the second one begun. -/
def swappedStore : WriteAhead.Store where
  wa handle :=
    if handle then ⟨[], 65536⟩ else ⟨(⟨2, 2, 0⟩ : WriteAhead.FileHeader).cells, 65536⟩
  db := List.replicate 512 0
  dbMaxCapacityBytes := 65536

/-- A transaction that has written page 1, of 512 bytes. -/
def pageOne (id : Nat) (waSalt1 : BitVec 32) (waOffset : Nat) : Transaction where
  id := id
  pages := AList.insert 0 ⟨waOffset, waSalt1, 512, some (List.replicate 512 0)⟩ ∅
  dbFileSize := 512
  newPageSize := none
  waSalt1 := waSalt1
  waOffsetEnd := waOffset + 544

def firstWorld : World :=
  match WriteAhead.ready 0 0 ⟨emptyStore, .initial⟩ with
  | .ok _ w => w
  | .error _ w => w

def unlockedFile : PrimaryFile Nat := .opened firstWorld ⟨none, false⟩

theorem unlockedFile_reach : Reach (machine 0) anyStep unlockedFile :=
  .init ⟨emptyStore, 0, 0, firstWorld, ⟨none, false⟩, rfl, rfl⟩

/-- The first transaction is received and a read begun. -/
def readActs : List (Act Nat) :=
  [.event (.message (.tx (pageOne 1 1 64))), .lock .shared granting]

/-- A second connection moves to the other log file, persists the transaction 2 and
dies before it sends it; a third one checkpoints what this one has read. -/
def emptiedActs : List (Act Nat) :=
  readActs ++ [.event (.message (.ckpt 1)), .event (.store swappedStore)]

def afterActs (acts : List (Act Nat)) : PrimaryFile Nat :=
  acts.foldl (fun p act => act.apply 0 p) unlockedFile

theorem afterActs_reach (acts : List (Act Nat)) : Reach (machine 0) anyStep (afterActs acts) :=
  reach_acts unlockedFile_reach acts

/-- The third connection commits the transaction 3. -/
def third : Transaction := pageOne 3 2 640

/-- The file after its request has been queued, and after the wait. -/
def queuedFile (p : PrimaryFile Nat) : PrimaryFile Nat := (jLock 0 refusing .reserved p).2.1

def resumedFile (p : PrimaryFile Nat) (a : Answers) : PrimaryFile Nat :=
  (Retry.resume 0 a .upgrade (queuedFile p)).1

/-- The file after the refusal. -/
def refusedFile (p : PrimaryFile Nat) (a : Answers) : PrimaryFile Nat :=
  (jLock 0 granting .reserved (resumedFile p a)).2.1

/-- Nothing happens during the wait. -/
theorem refused_alone {p : PrimaryFile Nat} {a : Answers}
    (hqueued : (jLock 0 refusing .reserved p).1 = .busy
      ∧ (jLock 0 refusing .reserved p).2.2 = some .upgrade)
    (hresumed : (Retry.resume 0 a .upgrade (queuedFile p)).2 = none)
    (hrefused : (jLock 0 granting .reserved (resumedFile p a)).1 = .busy
      ∧ (jLock 0 granting .reserved (resumedFile p a)).2.2 = none) :
    Refused 0 p [] (refusedFile p a) := by
  have hreserved : LockType.reserved.level ≤ LockType.reserved.level := Nat.le_refl _
  have hqueued' : jLock 0 refusing .reserved p = (.busy, queuedFile p, some .upgrade) :=
    Prod.ext_iff.mpr ⟨hqueued.1, Prod.ext_iff.mpr ⟨rfl, hqueued.2⟩⟩
  have hresumed' : Retry.resume 0 a .upgrade (queuedFile p) = (resumedFile p a, none) :=
    Prod.ext_iff.mpr ⟨rfl, hresumed⟩
  have hrefused' : jLock 0 granting .reserved (resumedFile p a) = (.busy, refusedFile p a, none) :=
    Prod.ext_iff.mpr ⟨hrefused.1, Prod.ext_iff.mpr ⟨rfl, hrefused.2⟩⟩
  exact .afterWait hreserved hqueued' (.nil _) hresumed' (.nil _) hrefused'

/-- The reader that has received the transaction 3 in its isolation. -/
def behindFile : PrimaryFile Nat := afterActs (emptiedActs ++ [.event (.message (.tx third))])

/-- The file after the refusal for the time, and the unlock. -/
def freeFile : PrimaryFile Nat :=
  (jUnlock 0 granting .none (refusedFile (afterActs emptiedActs) refusing)).2.1

def laterFile : PrimaryFile Nat := Event.apply 0 freeFile (.message (.tx third))

/-- **A lost message outlives the refusal**: the transaction 2 can be received no
more and is not in the log that is left to the reader.  If 3 is pending, the unlock
fails and the connection stays isolated; if 3 arrives after the unlock, the
next view does not have it. -/
theorem refused_write_can_stay_isolated :
    (∃ p p' : PrimaryFile Nat, Reach (machine 0) anyStep p ∧ p.isolationState = some .read
      ∧ p.retryResult = .null ∧ Refused 0 p [] p'
      ∧ (jUnlock 0 granting .none p').1 = .ioerrUnlock
      ∧ (jUnlock 0 granting .none p').2.1.isolationState = some .read)
    ∧ ∃ p p' q r : PrimaryFile Nat, Reach (machine 0) anyStep p ∧ p.isolationState = some .read
      ∧ p.retryResult = .null ∧ Refused 0 p [] p' ∧ jUnlock 0 granting .none p' = (.ok, q, none)
      ∧ Path (around 0) anyStep q [.message (.tx third)] r
      ∧ (jLock 0 granting .shared r).1 = .ok
      ∧ ¬Includes [third.id] (jLock 0 granting .shared r).2.1 := by
  constructor
  · have hrefused : Refused 0 behindFile [] (refusedFile behindFile granting) :=
      refused_alone (by decide +kernel) (by decide +kernel) (by decide +kernel)
    exact ⟨behindFile, refusedFile behindFile granting, afterActs_reach _, by decide +kernel,
      by decide +kernel, hrefused, by decide +kernel, by decide +kernel⟩
  · have hrefused : Refused 0 (afterActs emptiedActs) []
        (refusedFile (afterActs emptiedActs) refusing) :=
      refused_alone (by decide +kernel) (by decide +kernel) (by decide +kernel)
    have hok : (jLock 0 granting .shared laterFile).1 = .ok := by decide +kernel
    have hbehind : (jLock 0 granting .shared laterFile).2.1.world.conn.txId = 1 := by
      decide +kernel
    refine ⟨afterActs emptiedActs, refusedFile (afterActs emptiedActs) refusing, freeFile,
      laterFile, afterActs_reach _, by decide +kernel, by decide +kernel, hrefused, ?_, ?_, hok,
      fun hincludes => ?_⟩
    · exact Prod.ext_iff.mpr ⟨by decide +kernel, Prod.ext_iff.mpr ⟨rfl, by decide +kernel⟩⟩
    · exact .snoc (.nil _) trivial ⟨trivial, rfl⟩
    · have hthird : 3 ≤ (jLock 0 granting .shared laterFile).2.1.world.conn.txId :=
        hincludes 3 (List.mem_singleton_self _)
      rw [hbehind] at hthird
      exact absurd hthird (by decide)

def staleFile : PrimaryFile Nat :=
  afterActs (readActs ++ [.event (.message (.tx (pageOne 2 1 640)))])

/-- The transaction 2 is pending when the write is refused, and in the next view. -/
theorem refused_write_leaves_usable_stale :
    ∃ p p' : PrimaryFile Nat, Reach (machine 0) anyStep p ∧ Refused 0 p [] p'
      ∧ StaysUsable 0 [] p p' ∧ Recovers 0 [2] granting p' := by
  have hrefused : Refused 0 staleFile [] (refusedFile staleFile granting) :=
    refused_alone (by decide +kernel) (by decide +kernel) (by decide +kernel)
  obtain ⟨hstays, hrecovers⟩ := refused_write_leaves_usable (afterActs_reach _)
    (by decide +kernel) (by decide +kernel) hrefused (.nil _)
  refine ⟨_, _, afterActs_reach _, hrefused, hstays, hrecovers granting ⟨fun _ => ?_, ?_⟩⟩
  · exact .arrived (show _ = some (pageOne 2 1 640) from rfl) rfl
      (.current rfl fun h => Bool.noConfusion h)
  · exact fun hdue => Bool.noConfusion hdue

end MemoryWriteAhead.Primary
