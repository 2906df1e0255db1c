/-
  MemoryWriteAhead.Clock
  ──────────────────────
  **THE LOCK CLOCK AND THE AGE OF A HEARTBEAT.**

  `memoryWriteAheadSharedRuntime.ts`: `getMemoryWriteAheadLockClockMs` and
  `getMemoryWriteAheadLockAgeMs`.  Times are whole milliseconds; a heartbeat
  word of zero or less was never written.
-/
import Mathlib.Order.Defs.LinearOrder

namespace MemoryWriteAhead

/-- `LOCK_CLOCK_MODULO_MS` -/
def lockClockModuloMs : Int := 0x7fffffff

/-- `MAX_INT32_ATOMIC_COUNTER` -/
def maxInt32AtomicCounter : Nat := 0x7fffffff

/-- The clock reading at time `now`: never zero, and wrapping. -/
def getMemoryWriteAheadLockClockMs (now : Nat) : Int :=
  max 1 ((now : Int) % lockClockModuloMs)

/-- The age of a heartbeat at a clock reading; `none` is the source's `null`. -/
def getMemoryWriteAheadLockAgeMs (heartbeatMs nowMs : Int) : Option Int :=
  if heartbeatMs ≤ 0 then none
  else if nowMs ≥ heartbeatMs then some (nowMs - heartbeatMs)
  else some (nowMs + (lockClockModuloMs - heartbeatMs))

/-- On a clock that has not wrapped since, the age is the time elapsed. -/
theorem getMemoryWriteAheadLockAgeMs_of_le {heartbeatMs nowMs : Int} (hpos : 0 < heartbeatMs)
    (hle : heartbeatMs ≤ nowMs) :
    getMemoryWriteAheadLockAgeMs heartbeatMs nowMs = some (nowMs - heartbeatMs) := by
  unfold getMemoryWriteAheadLockAgeMs
  rw [if_neg (by omega), if_pos hle]

theorem getMemoryWriteAheadLockAgeMs_eq_none {heartbeatMs nowMs : Int} :
    getMemoryWriteAheadLockAgeMs heartbeatMs nowMs = none ↔ heartbeatMs ≤ 0 := by
  unfold getMemoryWriteAheadLockAgeMs
  split
  · simp [*]
  · split <;> simp [*]

end MemoryWriteAhead
