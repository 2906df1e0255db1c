/-
  MemoryWriteAhead.Lease.Watch
  ────────────────────────────
  **WHAT ONE STEP DOES TO THE HEARTBEATS AND TO A RESET.**

  Three more classifications of the atomic steps, beside the one of `Lease.Stages`:

    • `choose_watch`: the clock readings and heartbeats that a context has in hand,
    • `choose_beats`: the heartbeat words, and the time, which only the
      environment moves,
    • `choose_onward`: who is in a reset.
-/
import MemoryWriteAhead.Lease.Stages

namespace MemoryWriteAhead.Lease

open Transition

/-! ## §1. The heartbeats a context has in hand. -/

/-- What a context is about to do with a heartbeat. -/
inductive Watch where
  | nothing
  /-- it is about to store the clock reading -/
  | storing (nowMs : Int)
  /-- it is about to compare the heartbeat with the clock -/
  | reading (heartbeatMs : Int)
  /-- it has found the heartbeat stale -/
  | judged (i : SlotIndex) (ownerId heartbeatMs : Int)
  /-- it has found it unchanged after the claim -/
  | rechecked (i : SlotIndex) (ownerId : Int)
  deriving DecidableEq

/-- A release has nothing in hand, a recovery the slot it has rechecked. -/
def ReduceCaller.watch : ReduceCaller → Watch
  | .release _ => .nothing
  | .recover r => .rechecked r.slot r.ownerId

def Pc.watch : Pc → Watch
  | .claim _ (.storeHeartbeat nowMs) => .storing nowMs
  | .beat _ (.storeHeartbeat nowMs) => .storing nowMs
  | .recover _ (.readAge h) => .reading h
  | .recover r (.claim h) => .judged r.slot r.ownerId h
  | .recover r (.recheck h) => .judged r.slot r.ownerId h
  | .recover r .loadHandleCount => .rechecked r.slot r.ownerId
  | .recover r (.clearOwnerId _) => .rechecked r.slot r.ownerId
  | .reduceLoad caller _ => caller.watch
  | .reduceSwap caller _ _ => caller.watch
  | _ => .nothing

/-- The slot whose heartbeat word the next step stores. -/
def Local.heartbeatSlot (l : Local) : Option SlotIndex :=
  match l.pc with
  | .claim k (.storeHeartbeat _) => some k.slot
  | .beat _ (.storeHeartbeat _) => l.lease.map LocalRuntimeLease.slotIndex
  | .release .clearHeartbeat => l.lease.map LocalRuntimeLease.slotIndex
  | .recover r (.clearHeartbeat _) => some r.slot
  | .reset (.clearHeartbeat i) => some i
  | _ => none

/-- The heartbeat word of a slot. -/
abbrev heartbeat (s : Shared) (i : SlotIndex) : Int := (s.slots i).heartbeatMs

/-- What a step can put into a context's hands. -/
inductive WatchStep (staleMs : Int) (s : Shared) (l : Local) : Watch → Prop
  | nothing : WatchStep staleMs s l .nothing
  | keep {w : Watch} : l.pc.watch = w → WatchStep staleMs s l w
  | clock : WatchStep staleMs s l (.storing s.clockMs)
  | load (i : SlotIndex) : WatchStep staleMs s l (.reading (heartbeat s i))
  | judge (i : SlotIndex) (ownerId h : Int) : l.pc.watch = .reading h →
      isStale staleMs h s.clockMs = true → WatchStep staleMs s l (.judged i ownerId h)
  | recheck (i : SlotIndex) (ownerId h : Int) : l.pc.watch = .judged i ownerId h →
      l.stage = .recovering i ownerId → l.heartbeatSlot = none → heartbeat s i = h →
      WatchStep staleMs s l (.rechecked i ownerId)

section

variable {p : Params} {s : Shared} {l : Local}

theorem endRecover_watch (r : Recovery) : (endRecover s l r).2.1.pc.watch = .nothing := by
  unfold endRecover
  split <;> rfl

theorem nextRecover_watch (r : Recovery) : (nextRecover s l r).2.1.pc.watch = .nothing := by
  unfold nextRecover
  split
  · rfl
  · exact endRecover_watch r

theorem nextClaim_watch (k : Claim) : (nextClaim s l k).2.1.pc.watch = .nothing := by
  unfold nextClaim
  split
  · rfl
  · split <;> rfl

theorem endBeat_watch (lease : LocalRuntimeLease) (updated : Bool) (caller : BeatCaller) :
    (endBeat s l lease updated caller).2.1.pc.watch = .nothing := by
  cases caller <;> rfl

theorem afterSub_watch (lease : LocalRuntimeLease) (n : Int) :
    (afterSub s l lease n).2.1.pc.watch = .nothing := by
  unfold afterSub
  split <;> rfl

theorem endReduce_watch {caller : ReduceCaller} {removed : Int} :
    (endReduce s l removed caller).2.1.pc.watch = caller.watch := by
  cases caller with
  | release n =>
      simp only [endReduce]
      split
      · exact afterSub_watch _ _
      · rfl
  | recover r => rfl

theorem reduceLoop_watch {caller : ReduceCaller} {released current : Int} :
    (reduceLoop s l caller released current).2.1.pc.watch = caller.watch := by
  unfold reduceLoop
  split
  · rfl
  · exact endReduce_watch

theorem claimStep_watch {k : Claim} {pc : ClaimPc} (hl : l.pc = .claim k pc) :
    WatchStep p.staleMs s l (claimStep p s l k pc).2.1.pc.watch := by
  cases pc with
  | readClock => exact .clock
  | loadHeartbeat | readAge | storeHeartbeat | storeHandleCount => exact .nothing
  | loadOwnerId | loadHandleCount | reloadHeartbeat | takeSlot =>
      simp only [claimStep]
      repeat' split
      all_goals first
        | exact nextClaim_watch (s := s) (l := l) k ▸ .nothing
        | exact .nothing

theorem recoverStep_watch {r : Recovery} {pc : RecoverPc} (hl : l.pc = .recover r pc) :
    WatchStep p.staleMs s l (recoverStep p s l r pc).2.1.pc.watch := by
  have hnext (s' : Shared) (r' : Recovery) :
      WatchStep p.staleMs s l (nextRecover s' l r').2.1.pc.watch := by
    rw [nextRecover_watch]
    exact .nothing
  cases pc with
  | loadOwnerId =>
      simp only [recoverStep]
      split
      · exact hnext _ _
      · exact .nothing
  | loadHeartbeat => exact .load r.slot
  | readAge h =>
      simp only [recoverStep]
      split
      next hstale => exact .judge r.slot r.ownerId h (by rw [hl]; rfl) hstale
      · exact hnext _ _
  | claim h =>
      simp only [recoverStep]
      split
      · exact .keep (by rw [hl]; rfl)
      · exact hnext _ _
  | recheck h =>
      simp only [recoverStep]
      split
      · exact .nothing
      next hsame =>
        exact .recheck r.slot r.ownerId h (by rw [hl]; rfl) (by rw [Local.stage, hl]; rfl)
          (by rw [Local.heartbeatSlot, hl]) (Decidable.not_not.mp hsame)
  | handBack => exact hnext _ _
  | loadHandleCount =>
      simp only [recoverStep]
      split <;> exact .keep (by rw [hl]; rfl)
  | clearOwnerId | clearHandleCount | clearHeartbeat => exact .nothing
  | addRecovered released =>
      simp only [recoverStep]
      split
      · rw [endRecover_watch]
        exact .nothing
      · exact hnext _ _

/-- **What one step puts into a context's hands**, the claim of a terminated
owner's slot apart, which nobody has found stale. -/
theorem runStep_watch (hlive : ∀ ownerId i, l.pc ≠ .terminatedClaim ownerId i) :
    WatchStep p.staleMs s l (runStep p s l).2.1.pc.watch := by
  unfold runStep
  split
  next hl => exact .keep rfl
  next k pc hl => exact claimStep_watch hl
  next => exact .nothing
  next => exact .nothing
  next caller pc lease hl hlease =>
    cases pc with
    | loadOwnerId =>
        simp only [beatStep]
        split
        · rw [endBeat_watch]
          exact .nothing
        · exact .nothing
    | readClock => exact .clock
    | storeHeartbeat nowMs =>
        simp only [beatStep]
        rw [endBeat_watch]
        exact .nothing
  next pc lease hl hlease =>
    cases pc with
    | loadOwnerId =>
        simp only [releaseStep]
        split <;> exact .nothing
    | loadHandleCount =>
        simp only [releaseStep]
        split
        · exact .nothing
        · rw [afterSub_watch]
          exact .nothing
    | subHandleCount | clearOwnerId | clearHandleCount | clearHeartbeat => exact .nothing
  next caller released hl =>
    rw [reduceLoop_watch]
    exact .keep (by rw [hl]; rfl)
  next caller released current hl =>
    unfold reduceSwapStep
    simp only
    split
    · rw [endReduce_watch]
      exact .keep (by rw [hl]; rfl)
    · rw [reduceLoop_watch]
      exact .keep (by rw [hl]; rfl)
  next r pc hl => exact recoverStep_watch hl
  next ownerId i hl =>
    split
    · exact .nothing
    · split <;> exact .nothing
  next ownerId i hl => exact absurd hl (hlive ownerId i)
  next pc hl =>
    cases pc with
    | clearHeartbeat i =>
        simp only [resetStep]
        split <;> exact .nothing
    | loadOpenHandleCount =>
        simp only [resetStep]
        split <;> exact .nothing
    | _ => exact .nothing
  next => exact .nothing

/-! ## §2. The heartbeat words. -/

@[simp] theorem setOwnerId_heartbeat (s : Shared) (i j : SlotIndex) (v : Int) :
    heartbeat (s.setOwnerId i v) j = heartbeat s j := by
  unfold heartbeat Shared.setOwnerId
  by_cases hj : j = i
  · subst hj
    simp
  · simp [hj]

@[simp] theorem setHandleCount_heartbeat (s : Shared) (i j : SlotIndex) (v : Int) :
    heartbeat (s.setHandleCount i v) j = heartbeat s j := by
  unfold heartbeat Shared.setHandleCount
  by_cases hj : j = i
  · subst hj
    simp
  · simp [hj]

/-- The heartbeat words are as they were, up to the one that the next step stores,
and no time has passed. -/
structure Beats (l : Local) (s s' : Shared) : Prop where
  time : s'.timeMs = s.timeMs
  word : ∀ j, heartbeat s' j = heartbeat s j
    ∨ l.heartbeatSlot = some j ∧ (heartbeat s' j = 0 ∨ l.pc.watch = .storing (heartbeat s' j))

theorem Beats.rfl : Beats l s s := ⟨Eq.refl _, fun _ => .inl (Eq.refl _)⟩

theorem Beats.of_same {s' : Shared} (h : ∀ j, heartbeat s' j = heartbeat s j)
    (htime : s'.timeMs = s.timeMs := by exact Eq.refl _) : Beats l s s' :=
  ⟨htime, fun j => .inl (h j)⟩

theorem Beats.store {i : SlotIndex} {v : Int} (hslot : l.heartbeatSlot = some i)
    (hv : v = 0 ∨ l.pc.watch = .storing v) : Beats l s (s.setHeartbeatMs i v) := by
  refine ⟨Eq.refl _, fun j => ?_⟩
  by_cases hj : j = i
  · subst hj
    have hself : heartbeat (s.setHeartbeatMs j v) j = v := by
      simp [heartbeat, Shared.setHeartbeatMs]
    rw [hself]
    exact .inr ⟨hslot, hv⟩
  · exact .inl (by simp [heartbeat, Shared.setHeartbeatMs, hj])

theorem endBeat_shared (lease : LocalRuntimeLease) (updated : Bool) (caller : BeatCaller) :
    (endBeat s l lease updated caller).1 = s := by
  cases caller <;> rfl

theorem endReduce_shared {caller : ReduceCaller} {removed : Int} :
    (endReduce s l removed caller).1 = s := by
  cases caller with
  | release n =>
      simp only [endReduce]
      split
      · exact (afterSub_stage _ _ _ _).1
      · rfl
  | recover r => rfl

theorem reduceLoop_shared {caller : ReduceCaller} {released current : Int} :
    (reduceLoop s l caller released current).1 = s := by
  unfold reduceLoop
  split
  · rfl
  · exact endReduce_shared

theorem claimStep_beats {k : Claim} {pc : ClaimPc} (hl : l.pc = .claim k pc) :
    Beats l s (claimStep p s l k pc).1 := by
  cases pc with
  | storeHeartbeat nowMs =>
      exact .store (by unfold Local.heartbeatSlot; rw [hl]) (.inr (by rw [hl]; rfl))
  | storeHandleCount => exact .of_same (setHandleCount_heartbeat s k.slot · 0)
  | takeSlot =>
      simp only [claimStep]
      split
      · exact .of_same (setOwnerId_heartbeat s k.slot · k.ownerId)
      · rw [(nextClaim_scans k).shared]
        exact .rfl
  | loadOwnerId | loadHeartbeat | readAge | loadHandleCount | reloadHeartbeat | readClock =>
      simp only [claimStep]
      repeat' split
      all_goals first
        | rw [(nextClaim_scans k).shared]; exact .rfl
        | exact .rfl

theorem recoverStep_beats {r : Recovery} {pc : RecoverPc} (hl : l.pc = .recover r pc) :
    Beats l s (recoverStep p s l r pc).1 := by
  cases pc with
  | clearHeartbeat released =>
      exact .store (by unfold Local.heartbeatSlot; rw [hl]) (.inl rfl)
  | clearHandleCount => exact .of_same (setHandleCount_heartbeat s r.slot · 0)
  | clearOwnerId => exact .of_same (setOwnerId_heartbeat s r.slot · 0)
  | handBack =>
      simp only [recoverStep, (nextRecover_scans r).shared]
      exact .of_same (setOwnerId_heartbeat s r.slot · r.ownerId)
  | claim h =>
      simp only [recoverStep]
      split
      · exact .of_same (setOwnerId_heartbeat s r.slot · (-r.ownerId))
      · rw [(nextRecover_scans r).shared]
        exact .rfl
  | addRecovered released =>
      simp only [recoverStep]
      split
      · rw [(endRecover_scans _).shared]
        exact .of_same fun _ => Eq.refl _
      · rw [(nextRecover_scans _).shared]
        exact .of_same fun _ => Eq.refl _
  | loadHandleCount =>
      simp only [recoverStep, endReduce]
      split <;> exact .rfl
  | loadOwnerId | loadHeartbeat | readAge | recheck =>
      simp only [recoverStep]
      repeat' split
      all_goals first
        | rw [(nextRecover_scans _).shared]; exact .rfl
        | exact .rfl

theorem beatStep_beats {caller : BeatCaller} {pc : BeatPc} {lease : LocalRuntimeLease}
    (hl : l.pc = .beat caller pc) (hlease : l.lease = some lease) :
    Beats l s (beatStep s l lease caller pc).1 := by
  cases pc with
  | loadOwnerId =>
      simp only [beatStep]
      split
      · rw [endBeat_shared]
        exact .rfl
      · exact .rfl
  | readClock => exact .rfl
  | storeHeartbeat nowMs =>
      simp only [beatStep]
      rw [endBeat_shared]
      exact .store (by unfold Local.heartbeatSlot; rw [hl, hlease]; rfl) (.inr (by rw [hl]; rfl))

theorem releaseStep_beats {pc : ReleasePc} {lease : LocalRuntimeLease} (hl : l.pc = .release pc)
    (hlease : l.lease = some lease) : Beats l s (releaseStep s l lease pc).1 := by
  cases pc with
  | clearHeartbeat =>
      exact .store (by unfold Local.heartbeatSlot; rw [hl, hlease]; rfl) (.inl rfl)
  | clearOwnerId => exact .of_same (setOwnerId_heartbeat s lease.slotIndex · 0)
  | clearHandleCount => exact .of_same (setHandleCount_heartbeat s lease.slotIndex · 0)
  | subHandleCount n => exact .of_same (setHandleCount_heartbeat s lease.slotIndex · _)
  | loadOwnerId =>
      simp only [releaseStep]
      split <;> exact .rfl
  | loadHandleCount =>
      simp only [releaseStep]
      split
      · exact .rfl
      · rw [(afterSub_stage _ _ _ _).1]
        exact .rfl

/-- **What one step does to the heartbeat words.** -/
theorem runStep_beats : Beats l s (runStep p s l).1 := by
  unfold runStep
  split
  next => exact .rfl
  next k pc hl => exact claimStep_beats hl
  next => exact .of_same fun _ => Eq.refl _
  next => exact .of_same (setHandleCount_heartbeat s _ · _)
  next caller pc lease hl hlease => exact beatStep_beats hl hlease
  next pc lease hl hlease => exact releaseStep_beats hl hlease
  next =>
    rw [reduceLoop_shared]
    exact .rfl
  next =>
    unfold reduceSwapStep
    simp only
    split
    · rw [endReduce_shared]
      exact .of_same fun _ => Eq.refl _
    · rw [reduceLoop_shared]
      exact .rfl
  next r pc hl => exact recoverStep_beats hl
  next =>
    split
    · exact .rfl
    · split <;> exact .rfl
  next ownerId i hl =>
    split
    · exact .of_same (setOwnerId_heartbeat s i · (-ownerId))
    · exact .rfl
  next pc hl =>
    cases pc with
    | clearHeartbeat i =>
        have hslot : l.heartbeatSlot = some i := by unfold Local.heartbeatSlot; rw [hl]
        simp only [resetStep]
        split <;> exact .store hslot (.inl rfl)
    | clearOwnerId i => exact .of_same (setOwnerId_heartbeat s i · 0)
    | clearHandleCount i => exact .of_same (setHandleCount_heartbeat s i · 0)
    | loadOpenHandleCount =>
        simp only [resetStep]
        split <;> exact .rfl
    | storeFileMeta | storeActiveSegmentCount | storeOpenHandleCount | storeRecovered =>
        exact .of_same fun _ => Eq.refl _
  next => exact .rfl

/-! ## §3. Who is in a reset. -/

def RecoverCaller.resets : RecoverCaller → Bool
  | .reset => true
  | _ => false

def ReduceCaller.resets : ReduceCaller → Bool
  | .recover r => r.caller.resets
  | .release _ => false

/-- The context is in a reset, or in the recovery that the reset starts with. -/
def Pc.resets : Pc → Bool
  | .reset _ => true
  | .recover r _ => r.caller.resets
  | .reduceLoad caller _ => caller.resets
  | .reduceSwap caller _ _ => caller.resets
  | _ => false

/-- The stores of a reset into the files' metadata. -/
def ResetPc.wipes : ResetPc → Bool
  | .storeFileMeta _ _ | .storeActiveSegmentCount _ => true
  | _ => false

def Pc.wipes : Pc → Bool
  | .reset pc => pc.wipes
  | _ => false

/-- A step goes on with a reset or is outside of one; the registry entry goes
with the end of one and does not come back. -/
structure Onward (l l' : Local) : Prop where
  resets : l'.pc.resets = true → l.pc.resets = true
  registered : l'.registered = false → l.registered = false ∨ l'.pc = .idle
  gone : l.registered = false → l'.registered = false
  wipes : l'.pc.wipes = true → ∃ pc, l.pc = .reset pc

theorem Onward.goto {pc : Pc} (h : pc.resets = true → l.pc.resets = true)
    (hwipes : pc.wipes = false) : Onward l (l.goto pc) :=
  ⟨h, .inl, id, fun ht => absurd ht (by rw [show (l.goto pc).pc = pc from Eq.refl _, hwipes]; decide)⟩

theorem Pc.wipes_of_not_resets {pc : Pc} (h : pc.resets = false) : pc.wipes = false := by
  cases pc with
  | reset pc => cases h
  | _ => rfl

theorem Onward.of_false {pc : Pc} (h : pc.resets = false) : Onward l (l.goto pc) :=
  .goto (fun ht => absurd ht (by rw [h]; decide)) (Pc.wipes_of_not_resets h)

theorem Onward.end {l' : Local} (h : l'.pc = .idle) (hreg : l.registered = false → l'.registered = false) :
    Onward l l' :=
  ⟨fun ht => absurd ht (by rw [h]; decide), fun _ => .inr h, hreg,
    fun ht => absurd ht (by rw [h]; decide)⟩

theorem endRecover_onward (r : Recovery) (h : r.caller.resets = true → l.pc.resets = true) :
    Onward l (endRecover s l r).2.1 := by
  unfold endRecover
  split
  next => exact .of_false rfl
  next => exact .of_false rfl
  next => exact .of_false rfl
  next hcaller => exact .goto (fun _ => h (by rw [hcaller]; rfl)) rfl

theorem nextRecover_onward (r : Recovery) (h : r.caller.resets = true → l.pc.resets = true) :
    Onward l (nextRecover s l r).2.1 := by
  unfold nextRecover
  split
  · exact .goto h rfl
  · exact endRecover_onward r h

theorem nextClaim_onward (k : Claim) : Onward l (nextClaim s l k).2.1 := by
  unfold nextClaim
  split
  · exact .of_false rfl
  · split <;> exact .of_false rfl

theorem endBeat_onward (lease : LocalRuntimeLease) (updated : Bool) (caller : BeatCaller) :
    Onward l (endBeat s l lease updated caller).2.1 := by
  cases caller <;> exact .end rfl id

theorem afterSub_onward (lease : LocalRuntimeLease) (n : Int) :
    Onward l (afterSub s l lease n).2.1 := by
  unfold afterSub
  split <;> exact .of_false rfl

theorem endReduce_onward {caller : ReduceCaller} {removed : Int}
    (h : caller.resets = true → l.pc.resets = true) :
    Onward l (endReduce s l removed caller).2.1 := by
  cases caller with
  | release n =>
      simp only [endReduce]
      split
      · exact afterSub_onward _ _
      · exact .of_false rfl
  | recover r => exact .goto h rfl

theorem reduceLoop_onward {caller : ReduceCaller} {released current : Int}
    (h : caller.resets = true → l.pc.resets = true) :
    Onward l (reduceLoop s l caller released current).2.1 := by
  unfold reduceLoop
  split
  · exact .goto h rfl
  · exact endReduce_onward h

theorem runStep_onward : Onward l (runStep p s l).2.1 := by
  unfold runStep
  split
  next hl => exact .end hl id
  next k pc hl =>
    cases pc <;> simp only [claimStep] <;> repeat' split
    all_goals first
      | exact nextClaim_onward k
      | exact .of_false rfl
      | exact ⟨fun h => Bool.noConfusion h, .inl, id, fun h => Bool.noConfusion h⟩
  next => exact .of_false rfl
  next => exact .of_false rfl
  next caller pc lease hl hlease =>
    cases pc <;> simp only [beatStep] <;> repeat' split
    all_goals first
      | exact endBeat_onward _ _ _
      | exact .of_false rfl
  next pc lease hl hlease =>
    cases pc <;> simp only [releaseStep] <;> repeat' split
    all_goals first
      | exact afterSub_onward _ _
      | exact .of_false rfl
      | exact .end rfl id
  next caller released hl => exact reduceLoop_onward fun h => by rw [hl]; exact h
  next caller released current hl =>
    have h (hcaller : caller.resets = true) : l.pc.resets = true := by rw [hl]; exact hcaller
    unfold reduceSwapStep
    simp only
    split
    · exact endReduce_onward h
    · exact reduceLoop_onward h
  next r pc hl =>
    have h (hcaller : r.caller.resets = true) : l.pc.resets = true := by rw [hl]; exact hcaller
    cases pc <;> simp only [recoverStep] <;> repeat' split
    all_goals first
      | exact nextRecover_onward _ h
      | exact endRecover_onward _ h
      | exact endReduce_onward h
      | exact .goto h rfl
  next ownerId i hl =>
    repeat' split
    all_goals exact .of_false rfl
  next ownerId i hl => split <;> exact .of_false rfl
  next pc hl =>
    have h : l.pc.resets = true := by rw [hl]; rfl
    cases pc <;> simp only [resetStep] <;> repeat' split
    all_goals first
      | exact .end rfl id
      | exact .end rfl fun _ => rfl
      | exact ⟨fun _ => h, .inl, id, fun _ => ⟨_, hl⟩⟩
  next => exact .of_false rfl

/-- **A choice goes on with a reset, is outside of one, or starts one.** -/
theorem choose_onward {choice : Choice} {s' : Shared} {l' : Local} {o : Option Outcome}
    (hr : choose p choice s l = some (s', l', o)) :
    Onward l l' ∨ choice = .reset ∧ l.registered = true ∧ l'.registered = true
      ∧ l'.pc.wipes = false := by
  by_cases hstep : choice = .step
  · obtain ⟨-, hrun⟩ | ⟨hne, -⟩ := choose_cases hr
    · rw [show l' = (runStep p s l).2.1 by rw [← hrun]]
      exact .inl runStep_onward
    · exact absurd hstep hne
  · unfold choose at hr
    rw [if_neg hstep] at hr
    split at hr
    · cases hr
    next hbusy =>
      have hidle : l.pc = .idle := Classical.not_not.mp hbusy
      have hend {l'' : Local} {o' : Option Outcome}
          (heq : some (s, l'', o') = some (s', l', o)) (h : Onward l l'') :
          Onward l l' ∨ choice = .reset ∧ l.registered = true ∧ l'.registered = true
            ∧ l'.pc.wipes = false := by
        simp only [Option.some.injEq, Prod.mk.injEq] at heq
        exact .inl (heq.2.1 ▸ h)
      split at hr
      next => exact hend hr ⟨nofun, .inl, id, nofun⟩
      next => exact hend hr ⟨nofun, .inl, id, nofun⟩
      next => exact hend hr ⟨nofun, .inl, id, nofun⟩
      next => exact hend hr (.end hidle id)
      next =>
        split at hr
        · exact hend hr (.of_false rfl)
        · cases hr
      next => cases hr
      next => exact hend hr (.of_false rfl)
      next =>
        split at hr
        · exact hend hr (.end hidle id)
        · exact hend hr (.of_false rfl)
      next =>
        split at hr
        next hreg =>
          simp only [Option.some.injEq, Prod.mk.injEq] at hr
          obtain ⟨-, rfl, -⟩ := hr
          exact .inr ⟨rfl, hreg, hreg, rfl⟩
        · exact hend hr (.end hidle id)
      next => cases hr

/-- A call that starts has no heartbeat in hand. -/
theorem choose_watch {choice : Choice} {s' : Shared} {l' : Local} {o : Option Outcome}
    (hr : choose p choice s l = some (s', l', o))
    (hlive : ∀ ownerId i, l.pc ≠ .terminatedClaim ownerId i) :
    WatchStep p.staleMs s l l'.pc.watch := by
  by_cases hstep : choice = .step
  · obtain ⟨-, hrun⟩ | ⟨hne, -⟩ := choose_cases hr
    · rw [show l' = (runStep p s l).2.1 by rw [← hrun]]
      exact runStep_watch hlive
    · exact absurd hstep hne
  · unfold choose at hr
    rw [if_neg hstep] at hr
    split at hr
    · cases hr
    next hbusy =>
      have hend {l'' : Local} {o' : Option Outcome}
          (heq : some (s, l'', o') = some (s', l', o)) (h : WatchStep p.staleMs s l l''.pc.watch) :
          WatchStep p.staleMs s l l'.pc.watch := by
        simp only [Option.some.injEq, Prod.mk.injEq] at heq
        exact heq.2.1 ▸ h
      split at hr
      next => exact hend hr .nothing
      next => exact hend hr .nothing
      next => exact hend hr .nothing
      next => exact hend hr (.keep rfl)
      next =>
        split at hr
        · exact hend hr .nothing
        · cases hr
      next => cases hr
      next => exact hend hr .nothing
      next =>
        split at hr
        · exact hend hr (.keep rfl)
        · exact hend hr .nothing
      next =>
        split at hr
        · exact hend hr .nothing
        · exact hend hr (.keep rfl)
      next => cases hr

theorem choose_beats {choice : Choice} {s' : Shared} {l' : Local} {o : Option Outcome}
    (hr : choose p choice s l = some (s', l', o)) : Beats l s s' := by
  obtain ⟨-, hrun⟩ | ⟨-, -, rfl, -⟩ := choose_cases hr
  · rw [show s' = (runStep p s l).1 by rw [← hrun]]
    exact runStep_beats
  · exact .rfl

end

end MemoryWriteAhead.Lease
