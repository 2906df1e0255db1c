/-
  MemoryWriteAhead.Lease.Model
  ────────────────────────────
  **THE OWNER LEASES OF ONE RUNTIME, ONE ATOMIC STEP AT A TIME.**

  `memoryWriteAheadSharedRuntime.ts`: `claimOwnerLeaseSlot` with
  `ensureLocalRuntimeLease`, `retainMemoryWriteAheadRuntimeHandle`,
  `releaseMemoryWriteAheadRuntimeHandle`, the heartbeat timer with
  `updateOwnerLeaseHeartbeat`, `reduceOpenHandleCount`,
  `recoverAbandonedRuntimeOwnerLeases`,
  `recoverTerminatedMemoryWriteAheadRuntimeOwner` and
  `resetMemoryWriteAheadRuntimeState`.

  Every `Atomics` call and every clock reading is one step.  A context is one
  thread of JavaScript with its own `localRuntimeLeases`; a slow or dead context
  is one that takes no step.

    • the counters are integers where the source has `Int32` words: they count
      handles that are open, so the results are about runtimes with fewer than
      2^31 of them at a time,
    • `quarantineTransactionLocksForRuntimeOwner` is left out, which touches no
      word of this model, and so is the logger,
    • `recordMemoryWriteAheadFileHighWater` is left out too; of the words here it
      raises metadata words of a file, which nothing here reads and a reset clears.
-/
import Mathlib.Algebra.GroupWithZero.Nat
import MemoryWriteAhead.Library.Transition
import MemoryWriteAhead.Clock

namespace MemoryWriteAhead.Lease

open Transition

/-! ## §1. The shared words. -/

/-- `MEMORY_WRITE_AHEAD_OWNER_LEASE_SLOT_COUNT` -/
abbrev memoryWriteAheadOwnerLeaseSlotCount : Nat := 32

instance neZeroSlotCount : NeZero memoryWriteAheadOwnerLeaseSlotCount := ⟨Nat.succ_ne_zero 31⟩

abbrev SlotIndex := Fin memoryWriteAheadOwnerLeaseSlotCount

/-- The `MEMORY_WRITE_AHEAD_OWNER_LEASE_META` words of one slot. -/
structure Slot where
  ownerId : Int
  handleCount : Int
  heartbeatMs : Int
  deriving DecidableEq, Repr

/-- The runtime's words, the metadata words of its files, and the time. -/
structure Shared where
  openHandleCount : Int
  recoveredAbandonedHandleCount : Int
  slots : SlotIndex → Slot
  fileMeta : Nat → Nat → Int
  timeMs : Nat

namespace Shared

variable (s : Shared)

/-- The reading of the lock clock. -/
def clockMs : Int := getMemoryWriteAheadLockClockMs s.timeMs

def setOwnerId (i : SlotIndex) (v : Int) : Shared :=
  { s with slots := Function.update s.slots i { s.slots i with ownerId := v } }

def setHandleCount (i : SlotIndex) (v : Int) : Shared :=
  { s with slots := Function.update s.slots i { s.slots i with handleCount := v } }

def setHeartbeatMs (i : SlotIndex) (v : Int) : Shared :=
  { s with slots := Function.update s.slots i { s.slots i with heartbeatMs := v } }

/-- `Atomics.store` of one metadata word of one file. -/
def setFileMeta (file word : Nat) (v : Int) : Shared :=
  let fileMeta := Function.update (s.fileMeta file) word v
  { s with fileMeta := Function.update s.fileMeta file fileMeta }

end Shared

theorem clockMs_pos (s : Shared) : 0 < s.clockMs := by
  unfold Shared.clockMs getMemoryWriteAheadLockClockMs
  omega

/-! ## §2. Where a context is. -/

/-- One attempt of `claimOwnerLeaseSlot`; `retried` is the one after the
recovery in `ensureLocalRuntimeLease`. -/
structure Claim where
  retried : Bool
  ownerId : Int
  slot : SlotIndex
  deriving DecidableEq

inductive ClaimPc where
  /-- `Atomics.load(runtimeMeta, ownerIdIndex) !== 0` -/
  | loadOwnerId
  /-- `Atomics.load(runtimeMeta, heartbeatIndex)` for the age -/
  | loadHeartbeat
  /-- the clock reading of the age -/
  | readAge (leftoverHeartbeatMs : Int)
  /-- `Atomics.load(runtimeMeta, handleCountIndex) !== 0` -/
  | loadHandleCount (isStaleLeftover : Bool)
  /-- `Atomics.load(runtimeMeta, heartbeatIndex) !== 0` -/
  | reloadHeartbeat (isStaleLeftover : Bool)
  /-- `getMemoryWriteAheadLockClockMs()` -/
  | readClock
  /-- `Atomics.store(runtimeMeta, heartbeatIndex, nowMs)` -/
  | storeHeartbeat (nowMs : Int)
  /-- `Atomics.compareExchange(runtimeMeta, ownerIdIndex, 0, ownerId)` -/
  | takeSlot
  /-- `Atomics.store(runtimeMeta, handleCountIndex, 0)` -/
  | storeHandleCount
  deriving DecidableEq

/-- Who waits for `updateOwnerLeaseHeartbeat`. -/
inductive BeatCaller where
  | retain
  | release
  | timer
  deriving DecidableEq

inductive BeatPc where
  /-- `Atomics.load(runtimeMeta, ownerIdIndex) !== lease.ownerId` -/
  | loadOwnerId
  /-- `getMemoryWriteAheadLockClockMs()` -/
  | readClock
  /-- `Atomics.store(runtimeMeta, heartbeatIndex, nowMs)` -/
  | storeHeartbeat (nowMs : Int)
  deriving DecidableEq

/-- Who waits for `recoverAbandonedRuntimeOwnerLeases`; `terminated` is the
recovery of the one slot of a terminated owner. -/
inductive RecoverCaller where
  | client
  | ensure (ownerId : Int)
  | reset
  | terminated
  deriving DecidableEq

/-- A recovery: the slot it is at, the owner it found there, and the handles it
has recovered so far. -/
structure Recovery where
  caller : RecoverCaller
  slot : SlotIndex
  ownerId : Int
  recoveredHandleCount : Int
  deriving DecidableEq

inductive RecoverPc where
  /-- `Atomics.load(runtimeMeta, ownerIdIndex)` -/
  | loadOwnerId
  /-- `Atomics.load(runtimeMeta, heartbeatIndex)` -/
  | loadHeartbeat
  /-- the clock reading of the age -/
  | readAge (staleHeartbeat : Int)
  /-- `Atomics.compareExchange(runtimeMeta, ownerIdIndex, ownerId, -ownerId)` -/
  | claim (staleHeartbeat : Int)
  /-- `currentHeartbeat !== staleHeartbeat` -/
  | recheck (staleHeartbeat : Int)
  /-- `Atomics.store(runtimeMeta, ownerIdIndex, ownerId)` -/
  | handBack
  /-- `Atomics.load(runtimeMeta, handleCountIndex)` -/
  | loadHandleCount
  /-- `clearOwnerLeaseSlot`, the three stores -/
  | clearOwnerId (releasedHandleCount : Int)
  | clearHandleCount (releasedHandleCount : Int)
  | clearHeartbeat (releasedHandleCount : Int)
  /-- `Atomics.add(runtimeMeta, recoveredAbandonedHandleCount, …)` -/
  | addRecovered (releasedHandleCount : Int)
  deriving DecidableEq

inductive ReleasePc where
  /-- `Atomics.load(runtimeMeta, ownerIdIndex)` -/
  | loadOwnerId
  /-- `Atomics.load(runtimeMeta, handleCountIndex)` -/
  | loadHandleCount
  /-- `Atomics.sub(runtimeMeta, handleCountIndex, 1)` -/
  | subHandleCount (slotHandleCount : Int)
  /-- `clearOwnerLeaseSlot`, the three stores -/
  | clearOwnerId
  | clearHandleCount
  | clearHeartbeat
  deriving DecidableEq

/-- Who waits for `reduceOpenHandleCount`. -/
inductive ReduceCaller where
  | release (slotHandleCount : Int)
  | recover (r : Recovery)
  deriving DecidableEq

inductive ResetPc where
  /-- `getOpenHandleCount(runtime)` -/
  | loadOpenHandleCount
  /-- `Atomics.store(meta, slot, 0)` -/
  | storeFileMeta (file word : Nat)
  /-- `Atomics.store(meta, activeSegmentCount, MIN_SEGMENT_COUNT)` -/
  | storeActiveSegmentCount (file : Nat)
  /-- `Atomics.store(runtimeMeta, openHandleCount, 0)` -/
  | storeOpenHandleCount
  /-- `Atomics.store(runtimeMeta, recoveredAbandonedHandleCount, 0)` -/
  | storeRecovered
  /-- `clearOwnerLeaseSlot(runtimeMeta, slotIndex)`, the three stores -/
  | clearOwnerId (i : SlotIndex)
  | clearHandleCount (i : SlotIndex)
  | clearHeartbeat (i : SlotIndex)
  deriving DecidableEq

/-- The next atomic step of a context. -/
inductive Pc where
  | idle
  | claim (k : Claim) (pc : ClaimPc)
  /-- `Atomics.add(runtimeMeta, openHandleCount, 1)` -/
  | retainAddOpen
  /-- `Atomics.add(runtimeMeta, handleCountIndex, 1)` -/
  | retainAddHandle
  | beat (caller : BeatCaller) (pc : BeatPc)
  | release (pc : ReleasePc)
  /-- `Atomics.load(runtimeMeta, openHandleCount)` -/
  | reduceLoad (caller : ReduceCaller) (releasedHandleCount : Int)
  /-- `Atomics.compareExchange(runtimeMeta, openHandleCount, current, next)` -/
  | reduceSwap (caller : ReduceCaller) (releasedHandleCount current : Int)
  | recover (r : Recovery) (pc : RecoverPc)
  /-- `Atomics.load(runtimeMeta, ownerIdIndex) === ownerId` -/
  | terminatedLoad (ownerId : Int) (i : SlotIndex)
  /-- `Atomics.compareExchange(runtimeMeta, ownerIdIndex, ownerId, -ownerId)` -/
  | terminatedClaim (ownerId : Int) (i : SlotIndex)
  | reset (pc : ResetPc)
  deriving DecidableEq

/-- `LocalRuntimeLease` without its interval. -/
structure LocalRuntimeLease where
  handleCount : Nat
  ownerId : Int
  slotIndex : SlotIndex
  deriving DecidableEq

structure Local where
  pc : Pc
  /-- `localRuntimeLeases.get(runtime.dbFilename)` -/
  lease : Option LocalRuntimeLease
  /-- the interval of the lease has not been cleared -/
  beating : Bool
  /-- how often the context has called `createMemoryWriteAheadOwnerId` -/
  ownerIdsCreated : Nat
  /-- whether the runtime is in this context's registry -/
  registered : Bool
  deriving DecidableEq

/-- What a call tells its caller. -/
inductive Outcome where
  | retained (ownerId : Int)
  /-- `owner lease capacity exhausted` -/
  | capacityExhausted
  | released
  | recovered (recoveredHandleCount : Int)
  | reset
  /-- `Cannot reset MemoryWriteAheadVFS while … open handles remain` -/
  | resetRefused (openHandleCount : Int)
  deriving DecidableEq

/-- What a context brings along: the owner ids it will create, one after the
other, the stale time, and the number of the runtime's files. -/
structure Params where
  ownerId : Nat → Int
  staleMs : Int
  fileCount : Nat

/-! ## §3. The atomic steps. -/

def Local.goto (l : Local) (pc : Pc) : Local := { l with pc := pc }

abbrev Step := Shared × Local × Option Outcome

def nextSlot (i : SlotIndex) : Option SlotIndex :=
  if h : i.val + 1 < memoryWriteAheadOwnerLeaseSlotCount then some ⟨i.val + 1, h⟩ else none

/-- `getMemoryWriteAheadLockAgeMs(heartbeatMs) > staleMs`, `false` for `null`. -/
def isStale (staleMs heartbeatMs nowMs : Int) : Bool :=
  match getMemoryWriteAheadLockAgeMs heartbeatMs nowMs with
  | some ageMs => decide (ageMs > staleMs)
  | none => false

/-- `recoverAbandonedRuntimeOwnerLeases` returns. -/
def endRecover (s : Shared) (l : Local) (r : Recovery) : Step :=
  match r.caller with
  | .client => (s, l.goto .idle, some (.recovered r.recoveredHandleCount))
  | .terminated => (s, l.goto .idle, some (.recovered r.recoveredHandleCount))
  | .ensure ownerId => (s, l.goto (.claim ⟨true, ownerId, 0⟩ .loadOwnerId), none)
  | .reset => (s, l.goto (.reset .loadOpenHandleCount), none)

/-- The loop of `recoverAbandonedRuntimeOwnerLeases` goes on to the next slot. -/
def nextRecover (s : Shared) (l : Local) (r : Recovery) : Step :=
  match nextSlot r.slot with
  | some slot => (s, l.goto (.recover { r with slot } .loadOwnerId), none)
  | none => endRecover s l r

/-- The callback of `claimOwnerLeaseSlot` returns `false`. -/
def nextClaim (s : Shared) (l : Local) (k : Claim) : Step :=
  match nextSlot k.slot with
  | some slot => (s, l.goto (.claim { k with slot } .loadOwnerId), none)
  | none =>
      if k.retried then (s, l.goto .idle, some .capacityExhausted)
      else (s, l.goto (.recover ⟨.ensure k.ownerId, 0, 0, 0⟩ .loadOwnerId), none)

def claimStep (p : Params) (s : Shared) (l : Local) (k : Claim) : ClaimPc → Step
  | .loadOwnerId =>
      if (s.slots k.slot).ownerId ≠ 0 then nextClaim s l k
      else (s, l.goto (.claim k .loadHeartbeat), none)
  | .loadHeartbeat => (s, l.goto (.claim k (.readAge (s.slots k.slot).heartbeatMs)), none)
  | .readAge leftoverHeartbeatMs =>
      (s, l.goto (.claim k (.loadHandleCount (isStale p.staleMs leftoverHeartbeatMs s.clockMs))),
        none)
  | .loadHandleCount isStaleLeftover =>
      if (s.slots k.slot).handleCount ≠ 0 then
        if isStaleLeftover then (s, l.goto (.claim k .readClock), none) else nextClaim s l k
      else (s, l.goto (.claim k (.reloadHeartbeat isStaleLeftover)), none)
  | .reloadHeartbeat isStaleLeftover =>
      if (s.slots k.slot).heartbeatMs ≠ 0 ∧ isStaleLeftover = false then nextClaim s l k
      else (s, l.goto (.claim k .readClock), none)
  | .readClock => (s, l.goto (.claim k (.storeHeartbeat s.clockMs)), none)
  | .storeHeartbeat nowMs => (s.setHeartbeatMs k.slot nowMs, l.goto (.claim k .takeSlot), none)
  | .takeSlot =>
      if (s.slots k.slot).ownerId = 0 then
        (s.setOwnerId k.slot k.ownerId, l.goto (.claim k .storeHandleCount), none)
      else nextClaim s l k
  | .storeHandleCount =>
      -- the new lease, and `lease.handleCount += 1` of the retain that asked for it
      (s.setHandleCount k.slot 0,
        { l with pc := .retainAddOpen, lease := some ⟨1, k.ownerId, k.slot⟩, beating := true },
        none)

/-- The end of a release: a lease without handles is forgotten. -/
def finishRelease (l : Local) : Local :=
  { l with
    pc := .idle
    lease := l.lease.bind fun lease => if lease.handleCount = 0 then none else some lease }

/-- `updateOwnerLeaseHeartbeat` returns to its caller. -/
def endBeat (s : Shared) (l : Local) (lease : LocalRuntimeLease) (updated : Bool) :
    BeatCaller → Step
  | .retain => (s, l.goto .idle, some (.retained lease.ownerId))
  | .release => (s, finishRelease l, some .released)
  | .timer => (s, { l with pc := .idle, beating := l.beating && updated }, none)

def beatStep (s : Shared) (l : Local) (lease : LocalRuntimeLease) (caller : BeatCaller) :
    BeatPc → Step
  | .loadOwnerId =>
      if (s.slots lease.slotIndex).ownerId ≠ lease.ownerId ∨ lease.handleCount = 0 then
        endBeat s l lease false caller
      else (s, l.goto (.beat caller .readClock), none)
  | .readClock => (s, l.goto (.beat caller (.storeHeartbeat s.clockMs)), none)
  | .storeHeartbeat nowMs =>
      endBeat (s.setHeartbeatMs lease.slotIndex nowMs) l lease true caller

/-- After the handle is taken off: the slot is cleared or its heartbeat updated. -/
def afterSub (s : Shared) (l : Local) (lease : LocalRuntimeLease) (slotHandleCount : Int) : Step :=
  if slotHandleCount ≤ 1 ∧ lease.handleCount = 0 then (s, l.goto (.release .clearOwnerId), none)
  else (s, l.goto (.beat .release .loadOwnerId), none)

def releaseStep (s : Shared) (l : Local) (lease : LocalRuntimeLease) : ReleasePc → Step
  | .loadOwnerId =>
      if (s.slots lease.slotIndex).ownerId = lease.ownerId then
        (s, l.goto (.release .loadHandleCount), none)
      else (s, finishRelease l, some .released)
  | .loadHandleCount =>
      if (s.slots lease.slotIndex).handleCount > 0 then
        (s, l.goto (.release (.subHandleCount (s.slots lease.slotIndex).handleCount)), none)
      else afterSub s l lease (s.slots lease.slotIndex).handleCount
  | .subHandleCount slotHandleCount =>
      (s.setHandleCount lease.slotIndex ((s.slots lease.slotIndex).handleCount - 1),
        l.goto (.reduceLoad (.release slotHandleCount) 1), none)
  | .clearOwnerId => (s.setOwnerId lease.slotIndex 0, l.goto (.release .clearHandleCount), none)
  | .clearHandleCount =>
      (s.setHandleCount lease.slotIndex 0, l.goto (.release .clearHeartbeat), none)
  | .clearHeartbeat => (s.setHeartbeatMs lease.slotIndex 0, finishRelease l, some .released)

/-- `reduceOpenHandleCount` returns the number it has taken off. -/
def endReduce (s : Shared) (l : Local) (removed : Int) : ReduceCaller → Step
  | .release slotHandleCount =>
      match l.lease with
      | some lease => afterSub s l lease slotHandleCount
      | none => (s, l.goto .idle, none)
  | .recover r => (s, l.goto (.recover r (.clearOwnerId removed)), none)

/-- The loop of `reduceOpenHandleCount` with the value it has just seen. -/
def reduceLoop (s : Shared) (l : Local) (caller : ReduceCaller)
    (releasedHandleCount current : Int) : Step :=
  if current > 0 then (s, l.goto (.reduceSwap caller releasedHandleCount current), none)
  else endReduce s l 0 caller

def reduceSwapStep (s : Shared) (l : Local) (caller : ReduceCaller)
    (releasedHandleCount current : Int) : Step :=
  let next := max 0 (current - releasedHandleCount)
  if s.openHandleCount = current then
    endReduce { s with openHandleCount := next } l (current - next) caller
  else reduceLoop s l caller releasedHandleCount s.openHandleCount

def recoverStep (p : Params) (s : Shared) (l : Local) (r : Recovery) : RecoverPc → Step
  | .loadOwnerId =>
      if (s.slots r.slot).ownerId ≤ 0 then nextRecover s l r
      else (s, l.goto (.recover { r with ownerId := (s.slots r.slot).ownerId } .loadHeartbeat),
        none)
  | .loadHeartbeat => (s, l.goto (.recover r (.readAge (s.slots r.slot).heartbeatMs)), none)
  | .readAge staleHeartbeat =>
      if isStale p.staleMs staleHeartbeat s.clockMs then
        (s, l.goto (.recover r (.claim staleHeartbeat)), none)
      else nextRecover s l r
  | .claim staleHeartbeat =>
      if (s.slots r.slot).ownerId = r.ownerId then
        (s.setOwnerId r.slot (-r.ownerId), l.goto (.recover r (.recheck staleHeartbeat)), none)
      else nextRecover s l r
  | .recheck staleHeartbeat =>
      if (s.slots r.slot).heartbeatMs ≠ staleHeartbeat then (s, l.goto (.recover r .handBack), none)
      else (s, l.goto (.recover r .loadHandleCount), none)
  | .handBack => nextRecover (s.setOwnerId r.slot r.ownerId) l r
  | .loadHandleCount =>
      if (s.slots r.slot).handleCount ≤ 0 then endReduce s l 0 (.recover r)
      else (s, l.goto (.reduceLoad (.recover r) (s.slots r.slot).handleCount), none)
  | .clearOwnerId releasedHandleCount =>
      (s.setOwnerId r.slot 0, l.goto (.recover r (.clearHandleCount releasedHandleCount)), none)
  | .clearHandleCount releasedHandleCount =>
      (s.setHandleCount r.slot 0, l.goto (.recover r (.clearHeartbeat releasedHandleCount)), none)
  | .clearHeartbeat releasedHandleCount =>
      (s.setHeartbeatMs r.slot 0, l.goto (.recover r (.addRecovered releasedHandleCount)), none)
  | .addRecovered releasedHandleCount =>
      let s := { s with
        recoveredAbandonedHandleCount := s.recoveredAbandonedHandleCount + releasedHandleCount }
      let r := { r with recoveredHandleCount := r.recoveredHandleCount + releasedHandleCount }
      match r.caller with
      | .terminated => endRecover s l r
      | _ => nextRecover s l r

/-- The number of `MEMORY_WRITE_AHEAD_FILE_META` words and the place of
`activeSegmentCount` among them. -/
def fileMetaLength : Nat := 24
def activeSegmentCountWord : Nat := 2

def nextFile (p : Params) (file : Nat) : ResetPc :=
  if file < p.fileCount then .storeFileMeta file 0 else .storeOpenHandleCount

def resetStep (p : Params) (s : Shared) (l : Local) : ResetPc → Step
  | .loadOpenHandleCount =>
      if s.openHandleCount > 0 then (s, l.goto .idle, some (.resetRefused s.openHandleCount))
      else (s, l.goto (.reset (nextFile p 0)), none)
  | .storeFileMeta file word =>
      (s.setFileMeta file word 0,
        l.goto (.reset (if word + 1 < fileMetaLength then .storeFileMeta file (word + 1)
          else .storeActiveSegmentCount file)), none)
  | .storeActiveSegmentCount file =>
      (s.setFileMeta file activeSegmentCountWord 1, l.goto (.reset (nextFile p (file + 1))), none)
  | .storeOpenHandleCount =>
      ({ s with openHandleCount := 0 }, l.goto (.reset .storeRecovered), none)
  | .storeRecovered =>
      ({ s with recoveredAbandonedHandleCount := 0 }, l.goto (.reset (.clearOwnerId 0)), none)
  | .clearOwnerId i => (s.setOwnerId i 0, l.goto (.reset (.clearHandleCount i)), none)
  | .clearHandleCount i => (s.setHandleCount i 0, l.goto (.reset (.clearHeartbeat i)), none)
  | .clearHeartbeat i =>
      match nextSlot i with
      | some j => (s.setHeartbeatMs i 0, l.goto (.reset (.clearOwnerId j)), none)
      | none =>
          (s.setHeartbeatMs i 0, { l with pc := .idle, lease := none, registered := false },
            some .reset)

/-- The running call's next atomic step.  The calls that work on the local lease
have one; without it they are over. -/
def runStep (p : Params) (s : Shared) (l : Local) : Step :=
  match l.pc, l.lease with
  | .idle, _ => (s, l, none)
  | .claim k pc, _ => claimStep p s l k pc
  | .retainAddOpen, _ =>
      ({ s with openHandleCount := s.openHandleCount + 1 }, l.goto .retainAddHandle, none)
  | .retainAddHandle, some lease =>
      (s.setHandleCount lease.slotIndex ((s.slots lease.slotIndex).handleCount + 1),
        l.goto (.beat .retain .loadOwnerId), none)
  | .beat caller pc, some lease => beatStep s l lease caller pc
  | .release pc, some lease => releaseStep s l lease pc
  | .reduceLoad caller releasedHandleCount, _ =>
      reduceLoop s l caller releasedHandleCount s.openHandleCount
  | .reduceSwap caller releasedHandleCount current, _ =>
      reduceSwapStep s l caller releasedHandleCount current
  | .recover r pc, _ => recoverStep p s l r pc
  | .terminatedLoad ownerId i, _ =>
      if (s.slots i).ownerId = ownerId then (s, l.goto (.terminatedClaim ownerId i), none)
      else
        match nextSlot i with
        | some j => (s, l.goto (.terminatedLoad ownerId j), none)
        | none => (s, l.goto .idle, some (.recovered 0))
  | .terminatedClaim ownerId i, _ =>
      if (s.slots i).ownerId = ownerId then
        (s.setOwnerId i (-ownerId),
          l.goto (.recover ⟨.terminated, i, ownerId, 0⟩ .loadHandleCount), none)
      else (s, l.goto .idle, some (.recovered 0))
  | .reset pc, _ => resetStep p s l pc
  | _, none => (s, l.goto .idle, none)

/-- A context calls one of the functions, its timer fires, or its running call
goes on. -/
inductive Choice where
  | retain
  | release
  | beat
  | recover
  | recoverTerminated (ownerId : Int)
  | reset
  | step
  deriving DecidableEq

/-- One choice of a context; `none` where the choice is not open to it. -/
def choose (p : Params) (choice : Choice) (s : Shared) (l : Local) : Option Step :=
  if choice = .step then
    if l.pc = .idle then none else some (runStep p s l)
  else if l.pc ≠ .idle then none
  else
    match choice, l.lease with
    | .retain, some lease =>
        some (s, { l with
          pc := .retainAddOpen
          lease := some { lease with handleCount := lease.handleCount + 1 } }, none)
    | .retain, none =>
        some (s, { l with
          pc := .claim ⟨false, p.ownerId l.ownerIdsCreated, 0⟩ .loadOwnerId
          ownerIdsCreated := l.ownerIdsCreated + 1 }, none)
    | .release, some lease =>
        some (s, { l with
          pc := .release .loadOwnerId
          lease := some { lease with handleCount := lease.handleCount - 1 } }, none)
    | .release, none => some (s, l, some .released)
    | .beat, some _ =>
        if l.beating then some (s, l.goto (.beat .timer .loadOwnerId), none) else none
    | .beat, none => none
    | .recover, _ => some (s, l.goto (.recover ⟨.client, 0, 0, 0⟩ .loadOwnerId), none)
    | .recoverTerminated ownerId, _ =>
        if ownerId ≤ 0 then some (s, l, some (.recovered 0))
        else some (s, l.goto (.terminatedLoad ownerId 0), none)
    | .reset, _ =>
        if l.registered then some (s, l.goto (.recover ⟨.reset, 0, 0, 0⟩ .loadOwnerId), none)
        else some (s, l, some .reset)
    | .step, _ => none

/-! ## §4. Any number of contexts on one runtime. -/

/-- An action: the choice and what it told the caller. -/
structure Act where
  choice : Choice
  outcome : Option Outcome
  deriving DecidableEq

/-- The contexts that use one runtime; the owner ids they create are positive
and pairwise distinct. -/
structure Contexts (Ctx : Type) where
  ownerId : Ctx → Nat → Int
  owner_pos : ∀ t k, 0 < ownerId t k
  owner_inj : ∀ t k u j, ownerId t k = ownerId u j → t = u ∧ k = j
  staleMs : Int
  fileCount : Nat

variable {Ctx : Type}

def Contexts.params (C : Contexts Ctx) (t : Ctx) : Params where
  ownerId := C.ownerId t
  staleMs := C.staleMs
  fileCount := C.fileCount

/-- At the start the runtime's words are 0 and no context has a lease; the time
moves on by itself. -/
def Contexts.machine (C : Contexts Ctx) : Threads Ctx Shared Local Act where
  start s th :=
    (s.openHandleCount = 0 ∧ s.recoveredAbandonedHandleCount = 0 ∧ ∀ i, s.slots i = ⟨0, 0, 0⟩)
      ∧ ∀ t, th t = ⟨.idle, none, false, 0, true⟩
  act t a s l s' l' := choose (C.params t) a.choice s l = some (s', l', a.outcome)
  env c c' := ∃ timeMs, c.shared.timeMs ≤ timeMs
    ∧ c' = { c with shared := { c.shared with timeMs := timeMs } }

variable [DecidableEq Ctx]

abbrev Contexts.system (C : Contexts Ctx) :
    System (Config Ctx Shared Local) (ThreadLabel Ctx Act) :=
  C.machine.system

/-! ## §5. Executed runs. -/

/-- What a run does next: a choice of one context, or the time moves on. -/
inductive Cmd (Ctx : Type) where
  | context (t : Ctx) (choice : Choice)
  | clock (timeMs : Nat)

/-- The command's step, if it is open and allowed. -/
def exec (C : Contexts Ctx) (ok : Config Ctx Shared Local → ThreadLabel Ctx Act → Prop)
    [∀ c label, Decidable (ok c label)] (c : Config Ctx Shared Local) :
    Cmd Ctx → Option (Config Ctx Shared Local)
  | .context t choice =>
      (choose (C.params t) choice c.shared (c.threads t)).bind fun r =>
        if ok c (.thread t ⟨choice, r.2.2⟩) then some (c.put t r.1 r.2.1) else none
  | .clock timeMs =>
      if c.shared.timeMs ≤ timeMs ∧ ok c .env then
        some { c with shared := { c.shared with timeMs := timeMs } }
      else none

theorem exec_next (C : Contexts Ctx) (ok : Config Ctx Shared Local → ThreadLabel Ctx Act → Prop)
    [∀ c label, Decidable (ok c label)] (c : Config Ctx Shared Local) (k : Cmd Ctx)
    (c' : Config Ctx Shared Local) (h : exec C ok c k = some c') :
    ∃ label, ok c label ∧ C.system.next c label c' := by
  cases k with
  | context t choice =>
      simp only [exec] at h
      obtain ⟨⟨s, l, o⟩, hstep, hif⟩ := Option.bind_eq_some_iff.mp h
      split at hif
      next hok =>
        cases hif
        exact ⟨.thread t ⟨choice, o⟩, hok, .thread hstep⟩
      next => cases hif
  | clock timeMs =>
      simp only [exec] at h
      split at h
      next hle =>
        cases h
        exact ⟨.env, hle.2, .env ⟨timeMs, hle.1, rfl⟩⟩
      next => cases h

end MemoryWriteAhead.Lease
