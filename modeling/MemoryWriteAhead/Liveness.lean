/-
  MemoryWriteAhead.Liveness
  ─────────────────────────
  **WHAT THE AGE OF A HEARTBEAT SAYS ABOUT THE CONTEXT THAT STORED IT.**

  The lock clock is a circle of `LOCK_CLOCK_MODULO_MS` positions whose reading 0
  is shown as 1.  `getMemoryWriteAheadLockAgeMs` takes a reading below the
  heartbeat for one after the wrap.

    • `age_across_wrap` — on one clock the age is the time elapsed, give or take
      one millisecond, for all but the last position of a whole turn,
    • `left_alone_iff` — on two clocks that differ by a little, a heartbeat is
      left alone exactly when the judging clock is not behind the storing one,
      or is behind it by the one millisecond that both readings hide.

  `LeftAlone` and `TakenUp` are the two verdicts of the file lock's recovery and
  of the lease scan on the heartbeat they have loaded.
-/
import Mathlib.Algebra.Order.Group.Int
import Mathlib.Algebra.Order.Group.Abs
import MemoryWriteAhead.FileLock.Model
import MemoryWriteAhead.Lease.Model

namespace MemoryWriteAhead

/-! ## §1. The age between two readings. -/

theorem reading_pos (now : Nat) : 0 < getMemoryWriteAheadLockClockMs now := by
  unfold getMemoryWriteAheadLockClockMs
  omega

/-- A reading always has an age. -/
theorem age_reading (stored now : Nat) :
    getMemoryWriteAheadLockAgeMs (getMemoryWriteAheadLockClockMs stored)
        (getMemoryWriteAheadLockClockMs now)
      = some (if getMemoryWriteAheadLockClockMs now ≥ getMemoryWriteAheadLockClockMs stored then
          getMemoryWriteAheadLockClockMs now - getMemoryWriteAheadLockClockMs stored
        else
          getMemoryWriteAheadLockClockMs now
            + (lockClockModuloMs - getMemoryWriteAheadLockClockMs stored)) := by
  have hpos := reading_pos stored
  unfold getMemoryWriteAheadLockAgeMs
  rw [if_neg (by omega)]
  split
  · rfl
  · rfl

/-- **On one clock** the age is off by at most one, across the wrap too. -/
theorem age_elapsed (stored : Nat) {elapsed : Nat} (hturn : (elapsed : Int) ≤ lockClockModuloMs - 2) :
    ∃ ageMs, getMemoryWriteAheadLockAgeMs (getMemoryWriteAheadLockClockMs stored)
        (getMemoryWriteAheadLockClockMs (stored + elapsed)) = some ageMs
      ∧ 0 ≤ ageMs ∧ (elapsed : Int) - 1 ≤ ageMs ∧ ageMs ≤ elapsed + 1 := by
  refine ⟨_, age_reading stored (stored + elapsed), ?_⟩
  unfold getMemoryWriteAheadLockClockMs lockClockModuloMs at *
  push_cast
  -- before the wrap the readings differ by what has elapsed, after it by that less one turn
  split
  · omega
  · omega

/-! ## §2. The two verdicts. -/

/-- Both recoveries leave alone what carries this heartbeat: the recovery of a file
lock returns, the scan of the leases goes on to the next slot. -/
structure LeftAlone (staleMs heartbeatMs nowMs : Int) : Prop where
  fileLock : ∀ caller lockState l,
    FileLock.judge staleMs nowMs caller lockState heartbeatMs l
      = (l.endRecover caller, some (.recoverReturned false))
  lease : ∀ (p : Lease.Params) (s : Lease.Shared) l r, p.staleMs = staleMs → s.clockMs = nowMs →
    Lease.recoverStep p s l r (.readAge heartbeatMs) = Lease.nextRecover s l r

/-- Both recoveries take up what carries this heartbeat: a lock or a slot with an
owner is claimed next, a lock that is claimed already is freed next. -/
structure TakenUp (staleMs heartbeatMs nowMs : Int) : Prop where
  fileLock : ∀ caller lockState l, 0 < lockState →
    FileLock.judge staleMs nowMs caller lockState heartbeatMs l
      = (l.goto (.recoverClaim caller lockState heartbeatMs), none)
  claimed : ∀ caller lockState l, lockState < 0 →
    FileLock.judge staleMs nowMs caller lockState heartbeatMs l
      = (l.goto (.recoverFree caller lockState heartbeatMs), none)
  lease : ∀ (p : Lease.Params) (s : Lease.Shared) l r, p.staleMs = staleMs → s.clockMs = nowMs →
    Lease.recoverStep p s l r (.readAge heartbeatMs)
      = (s, l.goto (.recover r (.claim heartbeatMs)), none)

section

variable {staleMs heartbeatMs nowMs ageMs : Int}

theorem leftAlone_of_le (hage : getMemoryWriteAheadLockAgeMs heartbeatMs nowMs = some ageMs)
    (hle : ageMs ≤ staleMs) : LeftAlone staleMs heartbeatMs nowMs where
  fileLock caller lockState l := by
    unfold FileLock.judge
    rw [hage]
    exact if_pos hle
  lease p s l r hp hs := by
    have hfresh : Lease.isStale staleMs heartbeatMs nowMs = false := by
      unfold Lease.isStale
      rw [hage]
      simp only [decide_eq_false_iff_not]
      omega
    show (if Lease.isStale p.staleMs heartbeatMs s.clockMs = true then _ else _) = _
    rw [hp, hs, hfresh]
    rfl

theorem takenUp_of_lt (hage : getMemoryWriteAheadLockAgeMs heartbeatMs nowMs = some ageMs)
    (hlt : staleMs < ageMs) : TakenUp staleMs heartbeatMs nowMs where
  fileLock caller lockState l hpos := by
    unfold FileLock.judge
    rw [hage]
    simp only
    rw [if_neg (by omega), if_neg (by omega)]
  claimed caller lockState l hneg := by
    unfold FileLock.judge
    rw [hage]
    simp only
    rw [if_neg (by omega), if_pos hneg]
  lease p s l r hp hs := by
    have hstale : Lease.isStale staleMs heartbeatMs nowMs = true := by
      unfold Lease.isStale
      rw [hage]
      simp only [decide_eq_true_eq]
      omega
    show (if Lease.isStale p.staleMs heartbeatMs s.clockMs = true then _ else _) = _
    rw [hp, hs, hstale]
    rfl

/-- No heartbeat meets both verdicts. -/
theorem TakenUp.not_leftAlone (h : TakenUp staleMs heartbeatMs nowMs) :
    ¬LeftAlone staleMs heartbeatMs nowMs := by
  intro halone
  have hclaims := h.fileLock .client 1 ⟨.idle, false, 0, false⟩ (by decide)
  have hreturns := halone.fileLock .client 1 ⟨.idle, false, 0, false⟩
  rw [hclaims] at hreturns
  cases hreturns

end

/-! ## §3. One clock. -/

/-- **Ages across the wrap**: between any two readings less than a turn apart the age
is there, is not negative, and is the time elapsed give or take a millisecond.  So a
heartbeat that has been silent for more than `staleMs + 1` is taken up, and one of at
most `staleMs - 1` is left alone. -/
theorem age_across_wrap (stored elapsed : Nat) (hturn : (elapsed : Int) ≤ lockClockModuloMs - 2) :
    (∃ ageMs, getMemoryWriteAheadLockAgeMs (getMemoryWriteAheadLockClockMs stored)
        (getMemoryWriteAheadLockClockMs (stored + elapsed)) = some ageMs
      ∧ 0 ≤ ageMs ∧ |ageMs - elapsed| ≤ 1)
    ∧ ∀ staleMs : Int, staleMs < lockClockModuloMs - 3 →
      (staleMs + 1 < elapsed →
        TakenUp staleMs (getMemoryWriteAheadLockClockMs stored)
          (getMemoryWriteAheadLockClockMs (stored + elapsed)))
      ∧ ((elapsed : Int) ≤ staleMs - 1 →
        LeftAlone staleMs (getMemoryWriteAheadLockClockMs stored)
          (getMemoryWriteAheadLockClockMs (stored + elapsed))) := by
  obtain ⟨ageMs, hage, hnonneg, hlower, hupper⟩ := age_elapsed stored hturn
  refine ⟨⟨ageMs, hage, hnonneg, ?_⟩, fun staleMs _ => ⟨fun hsilent => ?_, fun hrecent => ?_⟩⟩
  · rw [abs_le]
    omega
  · exact takenUp_of_lt hage (by omega)
  · exact leftAlone_of_le hage (by omega)

/-- One millisecond before the wrap to one after it. -/
theorem age_across_wrap_two :
    ((2 : Nat) : Int) ≤ lockClockModuloMs - 2
      ∧ ∃ ageMs, getMemoryWriteAheadLockAgeMs (getMemoryWriteAheadLockClockMs 2147483646)
          (getMemoryWriteAheadLockClockMs (2147483646 + 2)) = some ageMs
        ∧ 0 ≤ ageMs ∧ |ageMs - (2 : Nat)| ≤ 1 :=
  ⟨by decide, (age_across_wrap 2147483646 2 (by decide)).1⟩

/-! ## §4. Two clocks. -/

/-- The times of two clocks at a heartbeat and at its judgement: the clocks differ by
at most `skewMs`, and the heartbeat is at most `staleMs - skewMs - 2` old. -/
structure Judgement where
  staleMs : Nat
  skewMs : Nat
  /-- the storing clock when the heartbeat was stored -/
  stored : Nat
  /-- how long ago that was -/
  elapsed : Nat
  /-- the judging clock now -/
  now : Nat
  skew_lt : skewMs < staleMs
  stale_lt : staleMs < 2 ^ 30
  close : stored + elapsed ≤ now + skewMs ∧ now ≤ stored + elapsed + skewMs
  recent : elapsed + skewMs + 2 ≤ staleMs

namespace Judgement

variable (j : Judgement)

def LeftAlone : Prop :=
  MemoryWriteAhead.LeftAlone j.staleMs (getMemoryWriteAheadLockClockMs j.stored)
    (getMemoryWriteAheadLockClockMs j.now)

/-- The judging clock is not behind the storing one at the heartbeat, or it is behind
by one and both show 1. -/
def InOrder : Prop :=
  j.stored ≤ j.now ∨ (j.now + 1 = j.stored ∧ lockClockModuloMs ∣ (j.now : Int))

/-- In order, the age is no more than the distance of the times and the clamp. -/
theorem age_of_inOrder (h : j.InOrder) :
    ∃ ageMs, getMemoryWriteAheadLockAgeMs (getMemoryWriteAheadLockClockMs j.stored)
        (getMemoryWriteAheadLockClockMs j.now) = some ageMs ∧ ageMs ≤ j.staleMs := by
  have hclose := j.close
  have hrecent := j.recent
  have hstale := j.stale_lt
  rcases h with hle | ⟨hone, hwrap⟩
  · obtain ⟨distance, hdistance⟩ := Nat.exists_eq_add_of_le hle
    have hturn : (distance : Int) ≤ lockClockModuloMs - 2 := by
      unfold lockClockModuloMs
      omega
    obtain ⟨ageMs, hage, -, -, hupper⟩ := age_elapsed j.stored hturn
    refine ⟨ageMs, ?_, by omega⟩
    rw [hdistance]
    exact hage
  · refine ⟨_, age_reading j.stored j.now, ?_⟩
    obtain ⟨turns, hturns⟩ := hwrap
    unfold getMemoryWriteAheadLockClockMs lockClockModuloMs at *
    split
    · omega
    · omega

/-- Out of order, the age is nearly a whole turn. -/
theorem age_of_not_inOrder (h : ¬j.InOrder) :
    ∃ ageMs, getMemoryWriteAheadLockAgeMs (getMemoryWriteAheadLockClockMs j.stored)
        (getMemoryWriteAheadLockClockMs j.now) = some ageMs ∧ j.staleMs < ageMs := by
  have hclose := j.close
  have hskew := j.skew_lt
  have hstale := j.stale_lt
  unfold InOrder at h
  rw [not_or] at h
  obtain ⟨hbehind, hclamped⟩ := h
  refine ⟨_, age_reading j.stored j.now, ?_⟩
  unfold getMemoryWriteAheadLockClockMs lockClockModuloMs at *
  rw [Int.dvd_iff_emod_eq_zero] at hclamped
  split
  · omega
  · omega

/-- **Two clocks**: a live context's heartbeat is left alone exactly when the judging
clock has reached the time at which it was stored, or is one short of it where both
read 1. -/
theorem left_alone_iff : j.LeftAlone ↔ j.InOrder := by
  constructor
  · intro halone
    by_contra hno
    obtain ⟨ageMs, hage, hlt⟩ := j.age_of_not_inOrder hno
    exact (takenUp_of_lt hage hlt).not_leftAlone halone
  · intro hin
    obtain ⟨ageMs, hage, hle⟩ := j.age_of_inOrder hin
    exact leftAlone_of_le hage hle

/-- Five milliseconds after the heartbeat, on a clock that is one behind. -/
theorem left_alone_iff_behind :
    ∃ j : Judgement, j.skewMs = 1 ∧ j.stored = 1000 ∧ j.elapsed = 5 ∧ j.now = 1004
      ∧ j.LeftAlone := by
  let j : Judgement := ⟨30000, 1, 1000, 5, 1004, by decide, by decide, by decide, by decide⟩
  have hin : j.InOrder := .inl (by decide)
  exact ⟨j, rfl, rfl, rfl, rfl, (left_alone_iff j).mpr hin⟩

end Judgement

/-- **A clock one millisecond behind.**  A heartbeat stored at 1000 on one clock is
judged at once on a clock that shows 999: it is taken for one of the last turn, and
both recoveries take it up. -/
theorem fresh_heartbeat_taken_up :
    ∃ j : Judgement, j.staleMs = 30000 ∧ j.skewMs = 1 ∧ j.elapsed = 0 ∧ j.stored = 1000
      ∧ j.now = 999 ∧ ¬j.LeftAlone
      ∧ TakenUp j.staleMs (getMemoryWriteAheadLockClockMs j.stored)
          (getMemoryWriteAheadLockClockMs j.now) := by
  have hage : getMemoryWriteAheadLockAgeMs (getMemoryWriteAheadLockClockMs 1000)
      (getMemoryWriteAheadLockClockMs 999) = some 2147483646 := rfl
  have htaken : TakenUp (30000 : Nat) (getMemoryWriteAheadLockClockMs 1000)
      (getMemoryWriteAheadLockClockMs 999) := takenUp_of_lt hage (by decide)
  refine ⟨⟨30000, 1, 1000, 0, 999, ?_, ?_, ?_, ?_⟩, rfl, rfl, rfl, rfl, rfl,
    htaken.not_leftAlone, htaken⟩
  · decide
  · decide
  · decide
  · decide

end MemoryWriteAhead
