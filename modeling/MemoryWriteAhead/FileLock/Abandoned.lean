/-
  MemoryWriteAhead.FileLock.Abandoned
  ───────────────────────────────────
  **RACING RECOVERIES OF ONE ABANDONED FILE LOCK.**

  The word is held by an owner that takes no step any more, its heartbeat is
  stale, and any number of other contexts acquire, recover, refresh and
  release while the clock moves on by at most `staleMs`.

  Whatever heartbeat a newcomer stores is too young to be judged stale in that
  time (`Fresh.age_le`), so a recovery that gets past its verdict is one of the
  abandoned word: it claims that word, frees that claim or hands that claim
  back, and nothing else (`AbandonedInv`).  The word leaves the abandoned
  owner once and for all (`Freed`), and the one step that frees it is the one
  that is counted (`Counted`).
-/
import MemoryWriteAhead.FileLock.Recovery

namespace MemoryWriteAhead.FileLock

open Transition

/-! ## §1. The clock of the run. -/

/-- The time from one reading to another, over at most one wrap, as
`getMemoryWriteAheadLockAgeMs` counts it. -/
def elapsedMs (startMs nowMs : Int) : Int :=
  if startMs ≤ nowMs then nowMs - startMs else nowMs + (lockClockModuloMs - startMs)

variable {Ctx : Type}

/-- A held word with a stale heartbeat, and what the words were. -/
structure Contexts.Abandoned (C : Contexts Ctx) where
  lockState : Int
  lockState_pos : 0 < lockState
  /-- the owner is none of the contexts -/
  lockState_ne : ∀ t, C.ownerId t ≠ lockState
  heartbeatMs : Int
  startMs : Int
  start_reading : IsReading startMs
  stale : ∃ ageMs, getMemoryWriteAheadLockAgeMs heartbeatMs startMs = some ageMs
    ∧ C.staleMs < ageMs
  recoveredAbandonedLockCount : BitVec 32

variable {C : Contexts Ctx} (A : C.Abandoned)

def Contexts.Abandoned.Start (s : Shared) : Prop :=
  s.words.lock = A.lockState ∧ s.words.lockHeartbeatMs = A.heartbeatMs ∧ s.clockMs = A.startMs
    ∧ s.words.recoveredAbandonedLockCount = A.recoveredAbandonedLockCount

/-- The clock moves on, no further than `staleMs` from its first reading. -/
def Contexts.Abandoned.Moves (nowMs nextMs : Int) : Prop :=
  IsReading nextMs ∧ elapsedMs A.startMs nowMs ≤ elapsedMs A.startMs nextMs
    ∧ elapsedMs A.startMs nextMs ≤ C.staleMs

/-- A reading of this run that is not in the future. -/
def Fresh (s : Shared) (heartbeatMs : Int) : Prop :=
  IsReading heartbeatMs ∧ elapsedMs A.startMs heartbeatMs ≤ elapsedMs A.startMs s.clockMs

/-- The word is no longer the abandoned one, held or claimed. -/
def Freed (s : Shared) : Prop :=
  s.words.lock ≠ A.lockState ∧ s.words.lock ≠ -A.lockState

/-- The readings are those of the run, and a newcomer's word has a heartbeat of
the run. -/
structure AbandonedShared (s : Shared) : Prop where
  reading : IsReading s.clockMs
  young : elapsedMs A.startMs s.clockMs ≤ C.staleMs
  beat : Freed A s → s.words.lock ≠ 0 → Fresh A s s.words.lockHeartbeatMs

variable {A}

/-- **A heartbeat of the run is not stale.** -/
theorem Fresh.age_le {s : Shared} {heartbeatMs : Int} (hs : AbandonedShared A s)
    (hfresh : Fresh A s heartbeatMs) :
    ∃ ageMs, getMemoryWriteAheadLockAgeMs heartbeatMs s.clockMs = some ageMs
      ∧ ageMs ≤ C.staleMs := by
  obtain ⟨⟨hlow, hhigh⟩, hpast⟩ := hfresh
  obtain ⟨hreading, hyoung, -⟩ := hs
  obtain ⟨hnow, hnow'⟩ := hreading
  obtain ⟨hstart, hstart'⟩ := A.start_reading
  unfold elapsedMs at hpast hyoung
  unfold getMemoryWriteAheadLockAgeMs
  rw [if_neg (by omega)]
  by_cases horder : s.clockMs ≥ heartbeatMs
  · rw [if_pos horder]
    refine ⟨_, rfl, ?_⟩
    split at hpast <;> split at hpast <;> split at hyoung <;> omega
  · rw [if_neg horder]
    refine ⟨_, rfl, ?_⟩
    split at hpast <;> split at hpast <;> split at hyoung <;> omega

theorem Fresh.now {s : Shared} (hs : AbandonedShared A s) : Fresh A s s.clockMs :=
  ⟨hs.reading, Int.le_refl _⟩

theorem Fresh.of_clock {s s' : Shared} {heartbeatMs : Int} (h : Fresh A s heartbeatMs)
    (hclock : s'.clockMs = s.clockMs) : Fresh A s' heartbeatMs := by
  unfold Fresh at h ⊢
  rw [hclock]
  exact h

/-! ## §2. What a context can be at. -/

variable (A)

/-- What a context knows by its program counter. -/
def AbandonedPc (s : Shared) (l : Local) : Prop :=
  match l.pc with
  | .acquireReadClock | .recoverCount _ | .refreshLoadOwner | .refreshReadClock => Freed A s
  | .acquireStoreHeartbeat nowMs | .refreshStore nowMs => Freed A s ∧ Fresh A s nowMs
  | .acquireTakeLock => Freed A s ∧ Fresh A s s.words.lockHeartbeatMs
  | .recoverLoadHeartbeat _ lockState =>
      lockState = A.lockState ∨ lockState = -A.lockState ∨ Fresh A s s.words.lockHeartbeatMs
  | .recoverReadClock _ lockState heartbeatMs =>
      lockState = A.lockState ∨ lockState = -A.lockState ∨ Fresh A s heartbeatMs
  | .recoverClaim _ lockState _ | .recoverRecheck _ lockState _ | .recoverHandBack _ lockState =>
      lockState = A.lockState
  | .recoverFree _ claim _ => claim = -A.lockState
  | _ => True

/-- The local assertion of one context. -/
structure AbandonedInv (ownerId : Int) (s : Shared) (l : Local) : Prop where
  pc_inv : AbandonedPc A s l
  nonHolder_free : l.pc.nonHolder = true → l.holding = false
  taken : l.holding = true ∨ l.pc = .acquireStoreOwner → s.words.lock = ownerId

variable {A}

/-- A step of the word, with what its context knows: the abandoned word changes
hands among its owner, its claim and 0, a newcomer's only by its own take and
release. -/
theorem LockStep.cases_abandoned {t : Ctx} {s : Shared} {l : Local} {lock' : Int}
    (hinv : AbandonedPc A s l) (hstep : LockStep (C.ownerId t) s.words.lock l.pc lock') :
    lock' = s.words.lock
      ∨ (¬Freed A s ∧ (lock' = A.lockState ∨ lock' = -A.lockState ∨ lock' = 0))
      ∨ (l.pc = .acquireTakeLock ∧ s.words.lock = 0 ∧ lock' = C.ownerId t)
      ∨ (l.pc = .releaseLock ∧ s.words.lock = C.ownerId t ∧ lock' = 0) := by
  unfold AbandonedPc at hinv
  cases hstep with
  | same => exact .inl rfl
  | take hpc hfree => exact .inr (.inr (.inl ⟨hpc, hfree, rfl⟩))
  | release hpc hown => exact .inr (.inr (.inr ⟨hpc, hown, rfl⟩))
  | claim caller lockState heartbeatMs hpc hlock =>
      rw [hpc] at hinv
      have hstate : lockState = A.lockState := hinv
      exact .inr (.inl ⟨fun h => h.1 (hlock.trans hstate), .inr (.inl (by rw [hstate]))⟩)
  | handBack caller lockState hpc hlock =>
      rw [hpc] at hinv
      have hstate : lock' = A.lockState := hinv
      exact .inr (.inl ⟨fun h => h.2 (by rw [hlock, hstate]), .inl hstate⟩)
  | free caller claim heartbeatMs hpc hlock =>
      rw [hpc] at hinv
      have hclaim : claim = -A.lockState := hinv
      exact .inr (.inl ⟨fun h => h.2 (hlock.trans hclaim), .inr (.inr rfl)⟩)

/-- The abandoned word does not come back. -/
theorem LockStep.freed {t : Ctx} {s s' : Shared} {l : Local} (hinv : AbandonedPc A s l)
    (hstep : LockStep (C.ownerId t) s.words.lock l.pc s'.words.lock) (hfreed : Freed A s) :
    Freed A s' := by
  have hpos := A.lockState_pos
  have hown := C.owner_pos t
  have hne := A.lockState_ne t
  rcases hstep.cases_abandoned hinv with hsame | ⟨hnot, -⟩ | ⟨-, -, hnew⟩ | ⟨-, -, hnew⟩
  · unfold Freed
    rw [hsame]
    exact hfreed
  · exact absurd hfreed hnot
  · exact ⟨by omega, by omega⟩
  · exact ⟨by omega, by omega⟩

/-- A newcomer's word stays while it does not release it. -/
theorem LockStep.keeps_owner {t u : Ctx} {s : Shared} {l : Local} {lock' : Int}
    (hinv : AbandonedPc A s l) (hstep : LockStep (C.ownerId t) s.words.lock l.pc lock')
    (hown : s.words.lock = C.ownerId u) (hrelease : l.pc = .releaseLock → t ≠ u) :
    lock' = C.ownerId u := by
  have hpos := A.lockState_pos
  have hposu := C.owner_pos u
  have hne := A.lockState_ne u
  rcases hstep.cases_abandoned hinv with hsame | ⟨hnot, -⟩ | ⟨-, hfree, -⟩ | ⟨hpc, hown', -⟩
  · rw [hsame, hown]
  · exact absurd ⟨by omega, by omega⟩ hnot
  · omega
  · exact absurd (C.owner_inj t u (by omega)) (hrelease hpc)

/-! ## §3. The steps keep the assertions. -/

/-- The heartbeat a step leaves is fresh if the one before was. -/
theorem runStep_fresh {p : Params} {s : Shared} {l : Local} (hinv : AbandonedPc A s l)
    (hfresh : Fresh A s s.words.lockHeartbeatMs) :
    Fresh A s (runStep p s l).1.words.lockHeartbeatMs := by
  unfold AbandonedPc at hinv
  rcases runStep_heartbeat p s l with hsame | ⟨nowMs, hpc | hpc, hstore⟩
  · rw [hsame]
    exact hfresh
  · rw [hpc] at hinv
    rw [hstore]
    exact hinv.2
  · rw [hpc] at hinv
    rw [hstore]
    exact hinv.2

theorem runStep_abandonedShared {t : Ctx} {s : Shared} {l : Local} (hs : AbandonedShared A s)
    (hinv : AbandonedPc A s l) : AbandonedShared A (runStep (C.params t) s l).1 := by
  have hclock := runStep_clockMs (C.params t) s l
  have hword := runStep_lock (C.params t) s l
  refine ⟨by rw [hclock]; exact hs.reading, by rw [hclock]; exact hs.young, ?_⟩
  intro hfreed hlock
  refine Fresh.of_clock ?_ hclock
  have hpos := A.lockState_pos
  rcases hword.cases_abandoned hinv with hsame | ⟨-, hback | hback | hback⟩ | ⟨hpc, -, -⟩
    | ⟨-, -, hnew⟩
  · apply runStep_fresh hinv
    refine hs.beat ?_ (by rw [← hsame]; exact hlock)
    unfold Freed
    rw [← hsame]
    exact hfreed
  · exact absurd hback hfreed.1
  · exact absurd hback hfreed.2
  · exact absurd hback hlock
  · apply runStep_fresh hinv
    unfold AbandonedPc at hinv
    rw [hpc] at hinv
    exact hinv.2
  · exact absurd hnew hlock

/-- What a context knows lasts while the word stays freed and readings stay
fresh. -/
theorem AbandonedPc.mono {s s' : Shared} {l : Local} (h : AbandonedPc A s l)
    (hfreed : Freed A s → Freed A s') (hfresh : ∀ nowMs, Fresh A s nowMs → Fresh A s' nowMs)
    (hbeat : Fresh A s s.words.lockHeartbeatMs → Fresh A s' s'.words.lockHeartbeatMs) :
    AbandonedPc A s' l := by
  unfold AbandonedPc at h ⊢
  split at h
  · exact hfreed h
  · exact hfreed h
  · exact hfreed h
  · exact hfreed h
  · exact ⟨hfreed h.1, hfresh _ h.2⟩
  · exact ⟨hfreed h.1, hfresh _ h.2⟩
  · exact ⟨hfreed h.1, hbeat h.2⟩
  · exact h.imp id (Or.imp id hbeat)
  · exact h.imp id (Or.imp id (hfresh _))
  · exact h
  · exact h
  · exact h
  · exact h
  · trivial

/-- The other contexts' part. -/
theorem AbandonedInv.frame {t u : Ctx} (htu : u ≠ t) {s : Shared} {l lu : Local}
    (hinv : AbandonedPc A s l) (hu : AbandonedInv A (C.ownerId u) s lu) :
    AbandonedInv A (C.ownerId u) (runStep (C.params t) s l).1 lu := by
  have hclock := runStep_clockMs (C.params t) s l
  have hword := runStep_lock (C.params t) s l
  have hfreed : Freed A s → Freed A (runStep (C.params t) s l).1 := hword.freed hinv
  have hfresh := runStep_fresh (p := C.params t) hinv
  refine ⟨?_, hu.nonHolder_free, fun htaken => ?_⟩
  · exact hu.pc_inv.mono hfreed (fun _ h => h.of_clock hclock)
      (fun h => (hfresh h).of_clock hclock)
  · exact hword.keeps_owner hinv (hu.taken htaken) fun _ => Ne.symm htu

/-- A context in an acquire or a release is no holder. -/
theorem runStep_nonHolder {p : Params} {s : Shared} {l : Local}
    (h : l.pc.nonHolder = true → l.holding = false) :
    (runStep p s l).2.1.pc.nonHolder = true → (runStep p s l).2.1.holding = false := by
  cases hl : l.pc with
  | idle => simp [runStep, hl, Pc.nonHolder]
  | refreshLoadLock | refreshLoadOwner =>
      simp only [runStep, hl]
      split <;> simp [Local.goto, Local.endRefresh, Pc.nonHolder]
  | refreshReadClock => simp [runStep, hl, Local.goto, Pc.nonHolder]
  | refreshStore nowMs => simp [runStep, hl, Local.endRefresh, Pc.nonHolder]
  | releaseLock => simp [runStep, hl, Local.goto, Pc.nonHolder]
  | acquireStoreOwner => simp [runStep, hl, Pc.nonHolder]
  | acquireReadClock =>
      have hhold := h (by rw [hl]; rfl)
      simp only [runStep, hl]
      exact fun _ => hhold
  | acquireLoadLock | acquireStoreHeartbeat _ | acquireTakeLock
  | acquireReloadLock | waitLoadLock | waitSleep =>
      have hhold := h (by rw [hl]; rfl)
      simp only [runStep, hl]
      repeat' split
      all_goals exact fun _ => hhold
  | recoverReadClock caller lockState heartbeatMs =>
      simp only [runStep, hl, judge]
      cases caller with
      | acquire =>
          have hhold := h (by rw [hl]; rfl)
          repeat' split
          all_goals exact fun _ => hhold
      | client =>
          repeat' split
          all_goals exact fun h' => absurd h' (by simp [Local.goto, Local.endRecover, Pc.nonHolder])
  | recoverLoadLock caller | recoverLoadHeartbeat caller _ | recoverClaim caller _ _
  | recoverRecheck caller _ _ | recoverHandBack caller _ | recoverFree caller _ _
  | recoverCount caller =>
      simp only [runStep, hl]
      cases caller with
      | acquire =>
          have hhold := h (by rw [hl]; rfl)
          repeat' split
          all_goals exact fun _ => hhold
      | client =>
          repeat' split
          all_goals exact fun h' => absurd h' (by simp [Local.goto, Local.endRecover, Pc.nonHolder])

/-- The verdict on the abandoned word goes on to its claim or to freeing it, the
verdict on a newcomer's is that it is not stale. -/
theorem judge_abandoned {s : Shared} {l : Local} {caller : Caller} {lockState heartbeatMs : Int}
    (hs : AbandonedShared A s)
    (hjudged : lockState = A.lockState ∨ lockState = -A.lockState ∨ Fresh A s heartbeatMs) :
    AbandonedPc A s (judge C.staleMs s.clockMs caller lockState heartbeatMs l).1 := by
  have hpos := A.lockState_pos
  have hend : AbandonedPc A s (l.endRecover caller) := by cases caller <;> trivial
  have hgo (h : lockState = A.lockState ∨ lockState = -A.lockState) :
      (lockState < 0 → AbandonedPc A s (l.goto (.recoverFree caller lockState heartbeatMs))) ∧
      (¬lockState < 0 → AbandonedPc A s (l.goto (.recoverClaim caller lockState heartbeatMs))) := by
    refine ⟨fun hneg => ?_, fun hneg => ?_⟩
    · show lockState = -A.lockState
      omega
    · show lockState = A.lockState
      omega
  unfold judge
  cases hage : getMemoryWriteAheadLockAgeMs heartbeatMs s.clockMs with
  | none =>
      have hold : lockState = A.lockState ∨ lockState = -A.lockState := by
        rcases hjudged with h | h | hfresh
        · exact .inl h
        · exact .inr h
        · obtain ⟨ageMs, hsome, -⟩ := hfresh.age_le hs
          rw [hsome] at hage
          exact absurd hage (by simp)
      simp only
      split
      next hneg => exact (hgo hold).1 hneg
      next => exact hend
  | some ageMs =>
      simp only
      split
      next => exact hend
      next hstale =>
        have hold : lockState = A.lockState ∨ lockState = -A.lockState := by
          rcases hjudged with h | h | hfresh
          · exact .inl h
          · exact .inr h
          · obtain ⟨ageMs', hsome, hle⟩ := hfresh.age_le hs
            rw [hsome] at hage
            obtain rfl := Option.some.inj hage
            exact absurd hle hstale
        split
        next hneg => exact (hgo hold).1 hneg
        next hneg => exact (hgo hold).2 hneg

/-- What a step lets its context know, one case for each program counter. -/
theorem runStep_abandonedPc {t : Ctx} {s : Shared} {l : Local} (hs : AbandonedShared A s)
    (hinv : AbandonedInv A (C.ownerId t) s l) :
    AbandonedPc A (runStep (C.params t) s l).1 (runStep (C.params t) s l).2.1 := by
  have hpos := A.lockState_pos
  have hown := C.owner_pos t
  have hne := A.lockState_ne t
  have hpc := hinv.pc_inv
  unfold AbandonedPc at hpc
  cases hl : l.pc with
  | idle => simp [AbandonedPc, runStep, hl]
  | acquireLoadLock =>
      simp only [runStep, hl]
      split
      next hfree =>
        show Freed A s
        exact ⟨by omega, by omega⟩
      next => trivial
  | acquireReadClock =>
      rw [hl] at hpc
      simp only [runStep, hl]
      exact ⟨hpc, .now hs⟩
  | acquireStoreHeartbeat nowMs =>
      rw [hl] at hpc
      simp only [runStep, hl]
      exact hpc
  | acquireTakeLock =>
      simp only [runStep, hl]
      split <;> trivial
  | acquireStoreOwner => simp [AbandonedPc, runStep, hl]
  | acquireReloadLock =>
      simp only [runStep, hl]
      split <;> trivial
  | waitLoadLock =>
      simp only [runStep, hl]
      split
      next => trivial
      next => split <;> trivial
  | waitSleep => simp [AbandonedPc, runStep, hl, Local.goto]
  | recoverLoadLock caller =>
      simp only [runStep, hl]
      split
      next => cases caller <;> trivial
      next hlock =>
        show s.words.lock = A.lockState ∨ s.words.lock = -A.lockState
          ∨ Fresh A s s.words.lockHeartbeatMs
        by_cases h1 : s.words.lock = A.lockState
        · exact .inl h1
        · by_cases h2 : s.words.lock = -A.lockState
          · exact .inr (.inl h2)
          · exact .inr (.inr (hs.beat ⟨h1, h2⟩ hlock))
  | recoverLoadHeartbeat caller lockState =>
      rw [hl] at hpc
      simp only [runStep, hl]
      exact hpc
  | recoverReadClock caller lockState heartbeatMs =>
      rw [hl] at hpc
      simp only [runStep, hl]
      exact judge_abandoned hs hpc
  | recoverClaim caller lockState heartbeatMs =>
      rw [hl] at hpc
      simp only [runStep, hl]
      split
      next => exact hpc
      next => cases caller <;> trivial
  | recoverRecheck caller lockState heartbeatMs =>
      rw [hl] at hpc
      have hstate : lockState = A.lockState := hpc
      simp only [runStep, hl]
      split
      next => exact hstate
      next =>
        show -lockState = -A.lockState
        rw [hstate]
  | recoverHandBack caller lockState =>
      simp only [runStep, hl]
      cases caller <;> trivial
  | recoverFree caller claim heartbeatMs =>
      simp only [runStep, hl]
      split
      next =>
        show Freed A { s with words := { s.words with lock := 0 } }
        refine ⟨?_, ?_⟩
        · show (0 : Int) ≠ A.lockState
          omega
        · show (0 : Int) ≠ -A.lockState
          omega
      next => cases caller <;> trivial
  | recoverCount caller =>
      simp only [runStep, hl]
      cases caller <;> trivial
  | refreshLoadLock =>
      simp only [runStep, hl]
      split
      next hlock =>
        have hlock' : s.words.lock = C.ownerId t := hlock
        show Freed A s
        exact ⟨by omega, by omega⟩
      next => trivial
  | refreshLoadOwner =>
      rw [hl] at hpc
      simp only [runStep, hl]
      split
      next => exact hpc
      next => trivial
  | refreshReadClock =>
      rw [hl] at hpc
      simp only [runStep, hl]
      exact ⟨hpc, .now hs⟩
  | refreshStore nowMs => simp [AbandonedPc, runStep, hl, Local.endRefresh]
  | releaseLock => simp [AbandonedPc, runStep, hl, Local.goto]

/-- A new tenure begins where an acquire finds the word 0. -/
theorem runStep_tenure {p : Params} {s : Shared} {l : Local} (hold : l.holding = false)
    (hstore : l.pc ≠ .acquireStoreOwner)
    (htaken : (runStep p s l).2.1.holding = true ∨ (runStep p s l).2.1.pc = .acquireStoreOwner) :
    l.pc = .acquireTakeLock ∧ s.words.lock = 0 := by
  cases hl : l.pc with
  | acquireTakeLock =>
      simp only [runStep, hl] at htaken
      split at htaken
      next hfree => exact ⟨rfl, hfree⟩
      next => simp [Local.goto, hold] at htaken
  | acquireStoreOwner => exact absurd hl hstore
  | recoverReadClock caller lockState heartbeatMs =>
      simp only [runStep, hl, judge] at htaken
      cases caller <;> (repeat' split at htaken) <;>
        simp [Local.goto, Local.endRecover, hold] at htaken
  | recoverLoadLock caller | recoverLoadHeartbeat caller _ | recoverClaim caller _ _
  | recoverRecheck caller _ _ | recoverHandBack caller _ | recoverFree caller _ _
  | recoverCount caller =>
      simp only [runStep, hl] at htaken
      cases caller <;> (repeat' split at htaken) <;>
        simp [Local.goto, Local.endRecover, hold] at htaken
  | idle => simp [runStep, hl, hold] at htaken
  | acquireLoadLock | acquireReloadLock | waitLoadLock | refreshLoadLock | refreshLoadOwner =>
      simp only [runStep, hl] at htaken
      (repeat' split at htaken) <;> simp [Local.goto, Local.endRefresh, hold] at htaken
  | acquireReadClock | acquireStoreHeartbeat _ | waitSleep | refreshReadClock | refreshStore _
  | releaseLock => simp [runStep, hl, Local.goto, Local.endRefresh, hold] at htaken

/-- A step keeps the context's own assertion. -/
theorem runStep_abandoned {t : Ctx} {s : Shared} {l : Local} (hs : AbandonedShared A s)
    (hinv : AbandonedInv A (C.ownerId t) s l) :
    AbandonedInv A (C.ownerId t) (runStep (C.params t) s l).1
      (runStep (C.params t) s l).2.1 := by
  refine ⟨runStep_abandonedPc hs hinv, runStep_nonHolder hinv.nonHolder_free, fun htaken => ?_⟩
  have hword := runStep_lock (C.params t) s l
  by_cases hold : l.holding = true ∨ l.pc = .acquireStoreOwner
  · -- the word was the context's own, and this is not its release
    refine hword.keeps_owner hinv.pc_inv (hinv.taken hold) fun hpc => ?_
    rcases hold with hhold | hstore
    · have hfree := hinv.nonHolder_free (by rw [hpc]; rfl)
      rw [hfree] at hhold
      exact absurd hhold (by simp)
    · rw [hpc] at hstore
      exact absurd hstore (by simp)
  · obtain ⟨hhold, hstore⟩ := not_or.mp hold
    obtain ⟨hpc, hfree⟩ := runStep_tenure (by simpa using hhold) hstore htaken
    simp only [runStep, hpc]
    rw [if_pos hfree]
    rfl

variable [DecidableEq Ctx] (A)

abbrev Contexts.Abandoned.system : System (Config Ctx Shared Local) (ThreadLabel Ctx Act) :=
  C.systemFrom A.Start A.Moves

variable {A}

/-- **The assertions hold in every run.** -/
theorem Contexts.Abandoned.reach_inv {ok : Config Ctx Shared Local → ThreadLabel Ctx Act → Prop}
    {c : Config Ctx Shared Local} (hc : Reach A.system ok c) :
    Threadwise (AbandonedShared A) (fun t => AbandonedInv A (C.ownerId t)) c := by
  have hpos := A.lockState_pos
  refine Threads.reach_threadwise ?_ ?_ ?_ hc
  · rintro s th ⟨⟨hlock, -, hclock, -⟩, hth⟩
    refine ⟨⟨by rw [hclock]; exact A.start_reading, ?_, fun h => absurd hlock h.1⟩, fun t => ?_⟩
    · have hstale := C.stale_pos
      rw [hclock]
      unfold elapsedMs
      rw [if_pos (Int.le_refl _)]
      omega
    · obtain ⟨hidle, hhold⟩ := hth t
      refine ⟨by simp [AbandonedPc, hidle], fun _ => hhold, fun h => ?_⟩
      rcases h with h | h
      · rw [hhold] at h
        exact absurd h (by simp)
      · rw [hidle] at h
        exact absurd h (by simp)
  · rintro c t ⟨choice, outcome⟩ s' l' ⟨hs, hl⟩ - hstep
    rcases choose_cases hstep with ⟨-, -, hrun⟩ | ⟨rfl, -, hidle, hstarts⟩
    · have hs' : (runStep (C.params t) c.shared (c.threads t)).1 = s' := congrArg Prod.fst hrun
      have hl' : (runStep (C.params t) c.shared (c.threads t)).2.1 = l' :=
        congrArg (fun r => r.2.1) hrun
      subst hs' hl'
      exact ⟨runStep_abandonedShared hs (hl t).pc_inv, runStep_abandoned hs (hl t),
        fun u hu => (hl u).frame hu (hl t).pc_inv⟩
    · refine ⟨hs, ?_, fun u _ => hl u⟩
      have hinv := hl t
      cases hstarts with
      | acquire hfree =>
          refine ⟨trivial, fun _ => hfree, fun h => ?_⟩
          simp [Local.goto, hfree] at h
      | refresh | recover =>
          refine ⟨trivial, by simp [Local.goto, Pc.nonHolder], fun h => hinv.taken ?_⟩
          exact .inl (by simpa [Local.goto] using h)
      | release => exact ⟨trivial, fun _ => rfl, by simp⟩
  · rintro c c' ⟨hs, hl⟩ - ⟨nowMs, ⟨hreading, hon, hyoung⟩, rfl⟩
    have hfresh {h : Int} (hf : Fresh A c.shared h) : Fresh A { c.shared with clockMs := nowMs } h :=
      ⟨hf.1, hf.2.trans hon⟩
    refine ⟨⟨hreading, hyoung, fun h h' => hfresh (hs.beat h h')⟩, fun t => ?_⟩
    obtain ⟨hpc, hfree, htaken⟩ := hl t
    exact ⟨hpc.mono id (fun _ => hfresh) hfresh, hfree, htaken⟩

/-! ## §4. The one recovery that is counted. -/

/-- What the callers have been told so far. -/
structure Told where
  /-- how many recoveries have returned true -/
  recoveries : Nat
  /-- the word has been 0 -/
  seenFree : Bool
  deriving DecidableEq

def noteTold (told : Told) (c : Config Ctx Shared Local) : ThreadLabel Ctx Act → Told
  | .thread _ a =>
      { recoveries :=
          told.recoveries + if a.outcome = some (.recoverReturned true) then 1 else 0
        seenFree := told.seenFree || decide (c.shared.words.lock = 0) }
  | .env => { told with seenFree := told.seenFree || decide (c.shared.words.lock = 0) }

def Pc.counting : Pc → Bool
  | .recoverCount _ => true
  | _ => false

/-- A recovery comes to its count by freeing the word. -/
theorem runStep_counting {p : Params} {s : Shared} {l : Local}
    (h : (runStep p s l).2.1.pc.counting = true) :
    ∃ caller claim heartbeatMs, l.pc = .recoverFree caller claim heartbeatMs
      ∧ s.words.lock = claim := by
  cases hl : l.pc with
  | recoverFree caller claim heartbeatMs =>
      simp only [runStep, hl] at h
      split at h
      next hlock => exact ⟨caller, claim, heartbeatMs, rfl, hlock⟩
      next => cases caller <;> simp [Local.endRecover, Local.goto, Pc.counting] at h
  | recoverReadClock caller lockState heartbeatMs =>
      simp only [runStep, hl, judge] at h
      cases caller <;> (repeat' split at h) <;>
        simp [Local.goto, Local.endRecover, Pc.counting] at h
  | recoverLoadLock caller | recoverLoadHeartbeat caller _ | recoverClaim caller _ _
  | recoverRecheck caller _ _ | recoverHandBack caller _ | recoverCount caller =>
      simp only [runStep, hl] at h
      cases caller <;> (repeat' split at h) <;>
        simp [Local.goto, Local.endRecover, Pc.counting] at h
  | idle => simp [runStep, hl, Pc.counting] at h
  | acquireLoadLock | acquireTakeLock | acquireReloadLock | waitLoadLock | refreshLoadLock
  | refreshLoadOwner =>
      simp only [runStep, hl] at h
      (repeat' split at h) <;> simp [Local.goto, Local.endRefresh, Pc.counting] at h
  | acquireReadClock | acquireStoreHeartbeat _ | acquireStoreOwner | waitSleep
  | refreshReadClock | refreshStore _ | releaseLock =>
      simp [runStep, hl, Local.goto, Local.endRefresh, Pc.counting] at h

/-- The step that counts is the one that tells its caller. -/
theorem runStep_told (p : Params) (s : Shared) (l : Local) :
    ((runStep p s l).2.2 = some (.recoverReturned true) ↔ l.pc.counting = true) ∧
      (runStep p s l).1.words.recoveredAbandonedLockCount
        = if l.pc.counting = true then s.words.recoveredAbandonedLockCount + 1
          else s.words.recoveredAbandonedLockCount := by
  cases hl : l.pc <;> simp only [runStep, hl, judge, Pc.counting, if_true, if_false, reduceCtorEq]
  case recoverCount caller => simp
  all_goals
    (repeat' split) <;> simp

/-- How far the recovery of the abandoned word has come. -/
inductive Counted (A : C.Abandoned) (c : Config Ctx Shared Local) (told : Told) : Prop
  | held : ¬Freed A c.shared → told = ⟨0, false⟩ →
      c.shared.words.recoveredAbandonedLockCount = A.recoveredAbandonedLockCount →
      (∀ t, (c.threads t).pc.counting = false) → Counted A c told
  | counting (u : Ctx) : Freed A c.shared → told.recoveries = 0 →
      c.shared.words.recoveredAbandonedLockCount = A.recoveredAbandonedLockCount →
      (c.threads u).pc.counting = true → (∀ t, t ≠ u → (c.threads t).pc.counting = false) →
      Counted A c told
  | counted : Freed A c.shared → told.recoveries = 1 →
      c.shared.words.recoveredAbandonedLockCount = A.recoveredAbandonedLockCount + 1 →
      (∀ t, (c.threads t).pc.counting = false) → Counted A c told

/-- A step of a recovery that is not counting leaves the count and tells
nothing. -/
theorem runStep_silent {p : Params} {s : Shared} {l : Local} (h : l.pc.counting = false) :
    (runStep p s l).2.2 ≠ some (.recoverReturned true) ∧
      (runStep p s l).1.words.recoveredAbandonedLockCount
        = s.words.recoveredAbandonedLockCount := by
  obtain ⟨htold, hcount⟩ := runStep_told p s l
  rw [h] at htold hcount
  exact ⟨fun ho => absurd (htold.mp ho) (by simp), hcount⟩

omit [DecidableEq Ctx] in
/-- The step that frees the word goes on to its count. -/
theorem runStep_held {t : Ctx} {s : Shared} {l : Local}
    (hinv : AbandonedPc A s l) (hheld : ¬Freed A s)
    (hquiet : (runStep (C.params t) s l).2.1.pc.counting = false) :
    ¬Freed A (runStep (C.params t) s l).1 := by
  have hpos := A.lockState_pos
  have hown := C.owner_pos t
  have hne := A.lockState_ne t
  have hword := runStep_lock (C.params t) s l
  have hmine : s.words.lock = A.lockState ∨ s.words.lock = -A.lockState := by
    by_contra hno
    exact hheld (not_or.mp hno)
  unfold AbandonedPc at hinv
  unfold Freed
  generalize hlock' : (runStep (C.params t) s l).1.words.lock = lock' at hword
  cases hword with
  | same => omega
  | take hpc hfree => omega
  | release hpc hlock =>
      have hlock : s.words.lock = C.ownerId t := hlock
      omega
  | claim caller lockState heartbeatMs hpc hlock =>
      rw [hpc] at hinv
      have hstate : lockState = A.lockState := hinv
      omega
  | handBack caller lockState hpc hlock =>
      rw [hpc] at hinv
      have hstate : lock' = A.lockState := hinv
      omega
  | free caller claim heartbeatMs hpc hlock =>
      simp only [runStep, hpc] at hquiet
      rw [if_pos hlock] at hquiet
      exact absurd hquiet (by simp [Local.goto, Pc.counting])

theorem counted_step {c c' : Config Ctx Shared Local} {told : Told} {label : ThreadLabel Ctx Act}
    (hbefore : Threadwise (AbandonedShared A) (fun t => AbandonedInv A (C.ownerId t)) c)
    (hafter : Threadwise (AbandonedShared A) (fun t => AbandonedInv A (C.ownerId t)) c')
    (hcounted : Counted A c told) (hn : A.system.next c label c') :
    Counted A c' (noteTold told c label) := by
  have hpos := A.lockState_pos
  have hseen (h : ¬Freed A c.shared) : decide (c.shared.words.lock = 0) = false := by
    by_contra hzero
    have hfree : c.shared.words.lock = 0 := by simpa using hzero
    exact h ⟨by omega, by omega⟩
  cases hn with
  | env hclock =>
      obtain ⟨nowMs, -, rfl⟩ := hclock
      cases hcounted with
      | held hheld htold hcount hquiet =>
          refine .held hheld ?_ hcount hquiet
          subst htold
          simp [noteTold, hseen hheld]
      | counting u hfreed htold hcount hu hquiet => exact .counting u hfreed htold hcount hu hquiet
      | counted hfreed htold hcount hquiet => exact .counted hfreed htold hcount hquiet
  | @thread t a s' l' hstep =>
      obtain ⟨choice, outcome⟩ := a
      rcases choose_cases hstep with ⟨-, -, hrun⟩ | ⟨rfl, ho, hidle, hstarts⟩
      · have hs' : (runStep (C.params t) c.shared (c.threads t)).1 = s' := congrArg Prod.fst hrun
        have hl' : (runStep (C.params t) c.shared (c.threads t)).2.1 = l' :=
          congrArg (fun r => r.2.1) hrun
        have ho' : (runStep (C.params t) c.shared (c.threads t)).2.2 = outcome :=
          congrArg (fun r => r.2.2) hrun
        have hword := runStep_lock (C.params t) c.shared (c.threads t)
        have hpc := (hbefore.2 t).pc_inv
        have hothers (u : Ctx) (hu : u ≠ t) : (c.put t s' l').threads u = c.threads u :=
          c.put_threads_ne hu s' l'
        have hself : (c.put t s' l').threads t = l' := c.put_threads_self t s' l'
        have hfreed (h : Freed A c.shared) : Freed A s' := by
          rw [hs'] at hword
          exact hword.freed hpc h
        -- a recovery comes to its count from an abandoned word only
        have hnew (h : l'.pc.counting = true) : ¬Freed A c.shared := by
          rw [← hl'] at h
          obtain ⟨caller, claim, heartbeatMs, hfree, hlock⟩ := runStep_counting h
          unfold AbandonedPc at hpc
          rw [hfree] at hpc
          exact fun hf => hf.2 (hlock.trans hpc)
        cases hcounted with
        | held hheld htold hcount hquiet =>
            obtain ⟨hsilent, hsame⟩ := runStep_silent (p := C.params t) (s := c.shared) (hquiet t)
            rw [hs'] at hsame
            rw [ho'] at hsilent
            cases hcounting : l'.pc.counting with
            | false =>
                refine .held ?_ ?_ (hsame.trans hcount) ?_
                · rw [Config.put_shared, ← hs']
                  exact runStep_held hpc hheld (by rw [hl']; exact hcounting)
                · subst htold
                  simp [noteTold, hsilent, hseen hheld]
                · intro u
                  by_cases hu : u = t
                  · rw [hu, hself]
                    exact hcounting
                  · rw [hothers u hu]
                    exact hquiet u
            | true =>
                refine .counting t ?_ ?_ (hsame.trans hcount) (by rw [hself]; exact hcounting) ?_
                · have hl := (hafter.2 t).pc_inv
                  rw [hself] at hl
                  unfold AbandonedPc at hl
                  cases hlpc : l'.pc <;> simp [hlpc, Pc.counting] at hcounting
                  rw [hlpc] at hl
                  exact hl
                · subst htold
                  simp [noteTold, hsilent]
                · intro u hu
                  rw [hothers u hu]
                  exact hquiet u
        | counting u hf htold hcount hu hquiet =>
            have hnone : l'.pc.counting = false := by
              by_contra h
              exact hnew (by simpa using h) hf
            by_cases htu : t = u
            · -- the count itself
              subst htu
              obtain ⟨htell, hadd⟩ := runStep_told (C.params t) c.shared (c.threads t)
              rw [hs', if_pos hu, hcount] at hadd
              refine .counted (hfreed hf) ?_ hadd ?_
              · have houtcome := htell.mpr hu
                rw [ho'] at houtcome
                simp [noteTold, houtcome, htold]
              · intro v
                by_cases hv : v = t
                · rw [hv, hself]
                  exact hnone
                · rw [hothers v hv]
                  exact hquiet v hv
            · obtain ⟨hsilent, hsame⟩ :=
                runStep_silent (p := C.params t) (s := c.shared) (hquiet t htu)
              rw [hs'] at hsame
              rw [ho'] at hsilent
              refine .counting u (hfreed hf) ?_ (hsame.trans hcount) ?_ ?_
              · simp [noteTold, hsilent, htold]
              · rw [hothers u (Ne.symm htu)]
                exact hu
              · intro v hv
                by_cases hvt : v = t
                · rw [hvt, hself]
                  exact hnone
                · rw [hothers v hvt]
                  exact hquiet v hv
        | counted hf htold hcount hquiet =>
            have hnone : l'.pc.counting = false := by
              by_contra h
              exact hnew (by simpa using h) hf
            obtain ⟨hsilent, hsame⟩ := runStep_silent (p := C.params t) (s := c.shared) (hquiet t)
            rw [hs'] at hsame
            rw [ho'] at hsilent
            refine .counted (hfreed hf) ?_ (hsame.trans hcount) ?_
            · simp [noteTold, hsilent, htold]
            · intro v
              by_cases hvt : v = t
              · rw [hvt, hself]
                exact hnone
              · rw [hothers v hvt]
                exact hquiet v
      · -- a call starts: no count, nothing told
        subst ho
        have hpcs (u : Ctx) :
            ((c.put t c.shared l').threads u).pc.counting = (c.threads u).pc.counting := by
          by_cases hu : u = t
          · rw [hu, Config.put_threads_self, hidle]
            cases hstarts <;> rfl
          · rw [c.put_threads_ne hu]
        cases hcounted with
        | held hheld htold hcount hquiet =>
            refine .held hheld ?_ hcount fun u => (hpcs u).trans (hquiet u)
            subst htold
            simp [noteTold, hseen hheld]
        | counting u hf htold hcount hu hquiet =>
            exact .counting u hf (by simp [noteTold, htold]) hcount ((hpcs u).trans hu)
              fun v hv => (hpcs v).trans (hquiet v hv)
        | counted hf htold hcount hquiet =>
            exact .counted hf (by simp [noteTold, htold]) hcount fun v => (hpcs v).trans (hquiet v)

/-! ## §5. Racing recoveries free the abandoned word once. -/

variable (A)

/-- The runs with what the callers have been told. -/
abbrev Contexts.Abandoned.recording :
    System (Config Ctx Shared Local × Told) (ThreadLabel Ctx Act) :=
  A.system.record ⟨0, false⟩ noteTold

/-- The abandoned word is recovered at most once and for all, and no recovery
touches a newcomer's word. -/
structure RecoveredOnce (x : Config Ctx Shared Local × Told) : Prop where
  recoveries : x.2.recoveries ≤ 1
  counted : x.1.shared.words.recoveredAbandonedLockCount = A.recoveredAbandonedLockCount
    ∨ x.1.shared.words.recoveredAbandonedLockCount = A.recoveredAbandonedLockCount + 1
  newcomer : ∀ t u, (x.1.threads t).pc.recovering = true →
    x.1.shared.words.lock = C.ownerId u →
    (runStep (C.params t) x.1.shared (x.1.threads t)).1.words.lock = C.ownerId u
  gone : x.2.seenFree = true →
    x.1.shared.words.lock ≠ A.lockState ∧ x.1.shared.words.lock ≠ -A.lockState
  exclusive : ∀ t u, (x.1.threads t).holding = true → (x.1.threads u).holding = true → t = u

variable {A}

/-- **Racing recoveries of one abandoned file lock free it exactly once**, in
every run of any length during which the clock moves on by at most `staleMs`. -/
theorem abandoned_lock_freed_once {x : Config Ctx Shared Local × Told}
    (hx : Reach A.recording anyStep x) : RecoveredOnce A x := by
  have hinv := A.reach_inv (hx.unrecorded_any)
  have hcounted : Counted A x.1 x.2 := by
    refine hx.record_invariant
      (Threadwise (AbandonedShared A) fun t => AbandonedInv A (C.ownerId t))
      (fun x => Counted A x.1 x.2) ?_ ?_ ?_
    · intro y hy
      exact A.reach_inv (hy.unrecorded_any)
    · rintro c ⟨⟨hlock, -, -, hcount⟩, hth⟩
      refine .held (fun h => h.1 hlock) rfl hcount fun t => ?_
      rw [(hth t).1]
      rfl
    · intro c told label c' hbefore hafter hcounted _ hn
      exact counted_step hbefore hafter hcounted hn
  refine ⟨?_, ?_, ?_, ?_, ?_⟩
  · cases hcounted with
    | held _ htold => simp [htold]
    | counting _ _ htold => simp [htold]
    | counted _ htold => simp [htold]
  · cases hcounted with
    | held _ _ hcount => exact .inl hcount
    | counting _ _ _ hcount => exact .inl hcount
    | counted _ _ hcount => exact .inr hcount
  · intro t u hrecovering hlock
    have hword := runStep_lock (C.params t) x.1.shared (x.1.threads t)
    refine hword.keeps_owner (hinv.2 t).pc_inv hlock fun hpc => ?_
    rw [hpc] at hrecovering
    exact absurd hrecovering (by simp [Pc.recovering])
  · intro hseen
    cases hcounted with
    | held _ htold => exact absurd hseen (by simp [htold])
    | counting _ hfreed => exact hfreed
    | counted hfreed => exact hfreed
  · intro t u ht hu
    have htake := (hinv.2 t).taken (.inl ht)
    have hutake := (hinv.2 u).taken (.inl hu)
    exact C.owner_inj t u (htake.symm.trans hutake)

/-- The lock of owner 9, abandoned at 1; the time is 7. -/
def abandonedByNine : threeContexts.Abandoned where
  lockState := 9
  lockState_pos := by decide
  lockState_ne := by decide
  heartbeatMs := 1
  startMs := 7
  start_reading := ⟨by decide, by decide⟩
  stale := ⟨6, by decide, by decide⟩
  recoveredAbandonedLockCount := 0

instance instDecidableMoves (a b : Int) : Decidable (abandonedByNine.Moves a b) :=
  inferInstanceAs (Decidable ((_ ∧ _) ∧ _ ∧ _))

/-- Contexts 0 and 1 recover the word of owner 9 at once: context 0 claims it,
context 1 finishes that recovery and acquires, and context 0 comes too late. -/
theorem abandoned_lock_freed_once_race :
    ∃ x, Reach abandonedByNine.recording anyStep x ∧ (x.1.threads 1).holding = true
      ∧ x.2.recoveries ≤ 1 ∧ x.1.shared.words.lock ≠ 9 := by
  have hstart : Reach abandonedByNine.recording anyStep
      ((⟨⟨⟨9, 9, 1, 0⟩, 7⟩, fun _ => ⟨.idle, false, 1, false⟩⟩ : Config (Fin 3) Shared Local),
        ⟨0, false⟩) :=
    .init ⟨⟨⟨rfl, rfl, rfl, rfl⟩, fun _ => ⟨rfl, rfl⟩⟩, rfl⟩
  obtain ⟨x, hx, h⟩ := hstart.exists_of_commands
    (recorded_next anyStep (execFrom_next threeContexts abandonedByNine.Moves))
    (.context 0 .recover :: steps 0 4 ++ .context 1 .acquire :: steps 1 12 ++ .clock 9
      :: steps 0 2)
    (fun x => decide ((x.1.threads 1).holding = true ∧ x.2.seenFree = true)) (by decide)
  obtain ⟨hhold, hseen⟩ := of_decide_eq_true h
  have honce := abandoned_lock_freed_once hx
  exact ⟨x, hx, hhold, honce.recoveries, (honce.gone hseen).1⟩

end MemoryWriteAhead.FileLock
