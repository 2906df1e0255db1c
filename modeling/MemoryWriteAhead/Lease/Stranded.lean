/-
  MemoryWriteAhead.Lease.Stranded
  ───────────────────────────────
  **NO LEASE SLOT IS STRANDED BY A DEATH.**

  A slot is three words that are written one after the other, and any context may
  die between two of its steps.  A slot that nobody alive owns can be claimed
  again when it has one of three shapes:

    • it is owned and has a heartbeat, which a recovery finds stale,
    • it is ownerless and has a heartbeat, which a claim finds stale,
    • it is ownerless, without a heartbeat and without handles.

  Two things make other shapes.  A recovery that dies between its claim and the
  store that ends it leaves the claim in the owner word, which no recovery and no
  claim looks at again.  A store that comes late, to a slot that has been cleared
  meanwhile, leaves handles or an owner without a heartbeat.  `KeepsShapes` is the
  condition, on the state before each step, that neither happens.
-/
import Mathlib
import MemoryWriteAhead.Lease.Exact
import MemoryWriteAhead.Lease.Watch

namespace MemoryWriteAhead.Lease

open Transition

/-! ## §1. What one step stores into a slot. -/

/-- The stores of `clearOwnerLeaseSlot`. -/
inductive ClearWord where
  | ownerId
  | handleCount
  | heartbeatMs
  deriving DecidableEq

/-- The store of a clear that comes next, and its slot. -/
def Local.clearing (l : Local) : Option (ClearWord × SlotIndex) :=
  match l.pc with
  | .release .clearOwnerId => l.lease.map fun lease => (.ownerId, lease.slotIndex)
  | .release .clearHandleCount => l.lease.map fun lease => (.handleCount, lease.slotIndex)
  | .release .clearHeartbeat => l.lease.map fun lease => (.heartbeatMs, lease.slotIndex)
  | .recover r (.clearOwnerId _) => some (.ownerId, r.slot)
  | .recover r (.clearHandleCount _) => some (.handleCount, r.slot)
  | .recover r (.clearHeartbeat _) => some (.heartbeatMs, r.slot)
  | .reset (.clearOwnerId i) => some (.ownerId, i)
  | .reset (.clearHandleCount i) => some (.handleCount, i)
  | .reset (.clearHeartbeat i) => some (.heartbeatMs, i)
  | _ => none

/-- Two stages hold the same claims. -/
def SameClaims (g g' : Stage) : Prop := ∀ i ownerId, g'.Recovers i ownerId ↔ g.Recovers i ownerId

/-- The stage holds no claim. -/
def Unclaiming (g : Stage) : Prop := ∀ i ownerId, ¬g.Recovers i ownerId

theorem SameClaims.of_unclaiming {g g' : Stage} (h : Unclaiming g) (h' : Unclaiming g') :
    SameClaims g g' := fun i ownerId => iff_of_false (h' i ownerId) (h i ownerId)

/-- What one step stores into the words of slot `i`, with the step that does it
and the stage it leads to. -/
inductive SlotWrite (s : Shared) (l : Local) (i : SlotIndex) : Slot → Stage → Prop
  | beat {g : Stage} (nowMs : Int) : l.pc.watch = .storing nowMs → SameClaims l.stage g →
      SlotWrite s l i { s.slots i with heartbeatMs := nowMs } g
  | take {g : Stage} (k : Claim) : l.pc = .claim k .takeSlot → k.slot = i →
      (s.slots i).ownerId = 0 → SameClaims l.stage g →
      SlotWrite s l i { s.slots i with ownerId := k.ownerId } g
  | openLease {g : Stage} : SameClaims l.stage g →
      SlotWrite s l i { s.slots i with handleCount := 0 } g
  | retain {g : Stage} (lease : LocalRuntimeLease) : l.pc = .retainAddHandle →
      l.lease = some lease → lease.slotIndex = i → SameClaims l.stage g →
      SlotWrite s l i { s.slots i with handleCount := (s.slots i).handleCount + 1 } g
  | release {g : Stage} (lease : LocalRuntimeLease) (n : Int) :
      l.pc = .release (.subHandleCount n) → l.lease = some lease → lease.slotIndex = i →
      SameClaims l.stage g →
      SlotWrite s l i { s.slots i with handleCount := (s.slots i).handleCount - 1 } g
  | clearOwnerId {g : Stage} : l.clearing = some (.ownerId, i) →
      (∀ j ownerId, l.stage.Recovers j ownerId → j = i) → Unclaiming g →
      SlotWrite s l i { s.slots i with ownerId := 0 } g
  | clearHandleCount {g : Stage} : l.clearing = some (.handleCount, i) → SameClaims l.stage g →
      SlotWrite s l i { s.slots i with handleCount := 0 } g
  | clearHeartbeat {g : Stage} : l.clearing = some (.heartbeatMs, i) → SameClaims l.stage g →
      SlotWrite s l i { s.slots i with heartbeatMs := 0 } g
  | claim (ownerId : Int) : (s.slots i).ownerId = ownerId → 0 < ownerId → Unclaiming l.stage →
      SlotWrite s l i { s.slots i with ownerId := -ownerId } (.recovering i ownerId)
  | handBack {g : Stage} (r : Recovery) : l.pc = .recover r .handBack → r.slot = i →
      Unclaiming g → SlotWrite s l i { s.slots i with ownerId := r.ownerId } g

/-- What one step does to the slots. -/
inductive SlotStep (s : Shared) (l : Local) (slots : SlotIndex → Slot) (g : Stage) : Prop
  | same : slots = s.slots → SameClaims l.stage g → SlotStep s l slots g
  | write (i : SlotIndex) (v : Slot) : slots = Function.update s.slots i v →
      SlotWrite s l i v g → SlotStep s l slots g

section

variable {C : Contexts Ctx} {t : Ctx} {s : Shared} {l : Local} {p : Params}

theorem unclaiming_rest : Unclaiming .rest := fun _ _ h => by
  rcases h with h | ⟨_, h⟩ <;> cases h

/-- The stages of a claim, a retain and a release hold no claim of a recovery. -/
theorem unclaiming_of_stage {g : Stage} (h : g.onLease = true ∨ g = .rest ∨ ∃ i o, g = .claimed i o) :
    Unclaiming g := by
  intro i ownerId hrec
  rcases hrec with rfl | ⟨n, rfl⟩ <;> simp [Stage.onLease] at h

theorem Scans.slotStep {r : Step} (h : Scans s l r) (hstage : Unclaiming l.stage) :
    SlotStep s l r.1.slots r.2.1.stage := by
  refine .same (by rw [h.shared]) (.of_unclaiming hstage ?_)
  rw [h.stage]
  exact unclaiming_rest

theorem claimStep_slots {k : Claim} {pc : ClaimPc} (hl : l.pc = .claim k pc) :
    SlotStep s l (claimStep p s l k pc).1.slots (claimStep p s l k pc).2.1.stage := by
  have hnone : Unclaiming l.stage := by
    rw [Local.stage, hl]
    apply unclaiming_of_stage
    cases pc <;> simp [Pc.stage]
  have hgo (pc : Pc)
      (hpc : pc.stage.onLease = true ∨ pc.stage = .rest ∨ ∃ i o, pc.stage = .claimed i o) :
      SameClaims l.stage pc.stage := .of_unclaiming hnone (unclaiming_of_stage hpc)
  cases pc with
  | storeHeartbeat nowMs =>
      exact .write k.slot _ rfl (.beat nowMs (by rw [hl]; rfl) (hgo (.claim k .takeSlot) (.inr (.inl rfl))))
  | storeHandleCount =>
      exact .write k.slot _ rfl (.openLease (hgo .retainAddOpen (.inl rfl)))
  | takeSlot =>
      simp only [claimStep]
      split
      next hfree =>
        exact .write k.slot _ rfl (.take k hl rfl hfree
          (hgo (.claim k .storeHandleCount) (.inr (.inr ⟨_, _, rfl⟩))))
      next => exact (nextClaim_scans k).slotStep hnone
  | loadOwnerId | loadHeartbeat | readAge | loadHandleCount | reloadHeartbeat | readClock =>
      simp only [claimStep]
      repeat' split
      all_goals first
        | exact (nextClaim_scans k).slotStep hnone
        | exact .same rfl (hgo _ (.inr (.inl rfl)))

theorem recoverStep_slots {r : Recovery} {pc : RecoverPc} (hl : l.pc = .recover r pc)
    (hpos : l.pc.Positive) :
    SlotStep s l (recoverStep p s l r pc).1.slots (recoverStep p s l r pc).2.1.stage := by
  rw [hl] at hpos
  have hscan (hrest : l.stage = .rest) (r' : Recovery) :
      SlotStep s l (nextRecover s l r').1.slots (nextRecover s l r').2.1.stage :=
    (nextRecover_scans r').slotStep (by rw [hrest]; exact unclaiming_rest)
  have hrest (pc' : Pc) (hstage : l.stage = .rest) (hstage' : pc'.stage = .rest) :
      SameClaims l.stage pc'.stage := by
    rw [hstage, hstage']
    exact fun _ _ => Iff.rfl
  cases pc with
  | loadOwnerId =>
      have hstage : l.stage = .rest := by rw [Local.stage, hl]; rfl
      simp only [recoverStep]
      split
      · exact hscan hstage _
      · exact .same rfl (hrest _ hstage rfl)
  | loadHeartbeat => exact .same rfl (hrest _ (by rw [Local.stage, hl]; rfl) rfl)
  | readAge h =>
      have hstage : l.stage = .rest := by rw [Local.stage, hl]; rfl
      simp only [recoverStep]
      split
      · exact .same rfl (hrest _ hstage rfl)
      · exact hscan hstage _
  | claim h =>
      have hstage : l.stage = .rest := by rw [Local.stage, hl]; rfl
      simp only [recoverStep]
      split
      next hsame =>
        exact .write r.slot _ rfl
          (.claim r.ownerId hsame hpos (by rw [hstage]; exact unclaiming_rest))
      next => exact hscan hstage _
  | recheck h =>
      have hstage : l.stage = .recovering r.slot r.ownerId := by rw [Local.stage, hl]; rfl
      simp only [recoverStep]
      split
      · exact .same rfl (by rw [hstage]; exact fun _ _ => Iff.rfl)
      · exact .same rfl (by rw [hstage]; exact fun _ _ => Iff.rfl)
  | handBack =>
      have hs := nextRecover_scans (s := s.setOwnerId r.slot r.ownerId) (l := l) r
      simp only [recoverStep]
      refine .write r.slot _ (by rw [hs.shared]; rfl) (.handBack r hl rfl ?_)
      rw [hs.stage]
      exact unclaiming_rest
  | loadHandleCount =>
      have hclaims (n : Int) : SameClaims l.stage (.draining r.slot r.ownerId n) := by
        rw [Local.stage, hl]
        intro i o
        simp only [Stage.Recovers, Stage.Drains, Pc.stage, Stage.draining.injEq,
          Stage.recovering.injEq, reduceCtorEq, false_or, exists_and_left, exists_eq', and_true,
          exists_false, or_false]
      simp only [recoverStep]
      split
      · exact .same rfl (hclaims 0)
      · exact .same rfl (hclaims _)
  | clearOwnerId n =>
      refine .write r.slot _ rfl (.clearOwnerId (by simp [Local.clearing, hl]) ?_ unclaiming_rest)
      rw [Local.stage, hl]
      rintro j o (hj | ⟨m, hj⟩)
      · cases hj
      · cases hj
        rfl
  | clearHandleCount n =>
      exact .write r.slot _ rfl (.clearHandleCount (by simp [Local.clearing, hl])
        (hrest (.recover r (.clearHeartbeat n)) (by rw [Local.stage, hl]; rfl) rfl))
  | clearHeartbeat n =>
      exact .write r.slot _ rfl (.clearHeartbeat (by simp [Local.clearing, hl])
        (hrest (.recover r (.addRecovered n)) (by rw [Local.stage, hl]; rfl) rfl))
  | addRecovered n =>
      have hstage : Unclaiming l.stage := by rw [Local.stage, hl]; exact unclaiming_rest
      simp only [recoverStep]
      split
      · have hs := endRecover_scans (l := l) (s := { s with
          recoveredAbandonedHandleCount := s.recoveredAbandonedHandleCount + n })
          { r with recoveredHandleCount := r.recoveredHandleCount + n }
        refine .same (by rw [hs.shared]) (.of_unclaiming hstage ?_)
        rw [hs.stage]
        exact unclaiming_rest
      · have hs := nextRecover_scans (l := l) (s := { s with
          recoveredAbandonedHandleCount := s.recoveredAbandonedHandleCount + n })
          { r with recoveredHandleCount := r.recoveredHandleCount + n }
        refine .same (by rw [hs.shared]) (.of_unclaiming hstage ?_)
        rw [hs.stage]
        exact unclaiming_rest

/-- A step that touches no slot and keeps out of recoveries. -/
theorem slotStep_plain {r : Step} (hs : r.1.slots = s.slots) (hl : Unclaiming l.stage)
    (hr : Unclaiming r.2.1.stage) : SlotStep s l r.1.slots r.2.1.stage :=
  .same hs (.of_unclaiming hl hr)

theorem endBeat_unclaiming (lease : LocalRuntimeLease) (updated : Bool) (caller : BeatCaller) :
    Unclaiming (endBeat s l lease updated caller).2.1.stage := by
  cases caller <;> exact unclaiming_rest

theorem afterSub_unclaiming (lease : LocalRuntimeLease) (n : Int) :
    Unclaiming (afterSub s l lease n).2.1.stage := by
  rw [(afterSub_stage s l lease n).2.1]
  unfold afterSubStage
  split <;> exact unclaiming_of_stage (.inl rfl)

theorem beat_unclaiming (caller : BeatCaller) (pc : BeatPc) :
    Unclaiming (Pc.beat caller pc).stage := by
  cases caller with
  | retain => exact unclaiming_of_stage (.inl rfl)
  | release => exact unclaiming_of_stage (.inl rfl)
  | timer => exact unclaiming_rest

theorem release_unclaiming (pc : ReleasePc) : Unclaiming (Pc.release pc).stage := by
  apply unclaiming_of_stage
  cases pc <;> simp [Pc.stage, Stage.onLease]

theorem beatStep_slots {lease : LocalRuntimeLease} {caller : BeatCaller} {pc : BeatPc}
    (hl : l.pc = .beat caller pc) :
    SlotStep s l (beatStep s l lease caller pc).1.slots
      (beatStep s l lease caller pc).2.1.stage := by
  have hbeat (pc' : BeatPc) : Unclaiming (Pc.beat caller pc').stage := beat_unclaiming caller pc'
  have hnone : Unclaiming l.stage := by
    rw [Local.stage, hl]
    exact hbeat pc
  cases pc with
  | loadOwnerId =>
      simp only [beatStep]
      split
      · exact slotStep_plain (by rw [endBeat_shared]) hnone (endBeat_unclaiming _ _ _)
      · exact slotStep_plain rfl hnone (hbeat .readClock)
  | readClock => exact slotStep_plain rfl hnone (hbeat _)
  | storeHeartbeat nowMs =>
      simp only [beatStep]
      refine .write lease.slotIndex _ ?_
        (.beat nowMs (by rw [hl]; rfl) (.of_unclaiming hnone (endBeat_unclaiming _ _ _)))
      rw [endBeat_shared]
      rfl

theorem releaseStep_slots {lease : LocalRuntimeLease} {pc : ReleasePc}
    (hl : l.pc = .release pc) (hlease : l.lease = some lease) :
    SlotStep s l (releaseStep s l lease pc).1.slots (releaseStep s l lease pc).2.1.stage := by
  have hnone : Unclaiming l.stage := by
    rw [Local.stage, hl]
    exact release_unclaiming pc
  have hon (pc' : Pc) (h : pc'.stage.onLease = true) : Unclaiming pc'.stage :=
    unclaiming_of_stage (.inl h)
  have hclearing (w : ClearWord) (hpc : l.clearing = l.lease.map fun lease => (w, lease.slotIndex)) :
      l.clearing = some (w, lease.slotIndex) := by
    rw [hpc, hlease]
    rfl
  cases pc with
  | loadOwnerId =>
      simp only [releaseStep]
      split
      · exact slotStep_plain rfl hnone (hon (.release .loadHandleCount) rfl)
      · exact slotStep_plain rfl hnone unclaiming_rest
  | loadHandleCount =>
      simp only [releaseStep]
      split
      · exact slotStep_plain rfl hnone (hon (.release (.subHandleCount _)) rfl)
      · exact slotStep_plain (by rw [(afterSub_stage s l lease _).1]) hnone (afterSub_unclaiming _ _)
  | subHandleCount n =>
      exact .write lease.slotIndex _ rfl (.release lease n hl hlease rfl
        (.of_unclaiming hnone (hon (.reduceLoad (.release n) 1) rfl)))
  | clearOwnerId =>
      exact .write lease.slotIndex _ rfl (.clearOwnerId
        (hclearing .ownerId (by simp [Local.clearing, hl]))
        (fun j o h => absurd h (hnone j o)) (hon (.release .clearHandleCount) rfl))
  | clearHandleCount =>
      exact .write lease.slotIndex _ rfl (.clearHandleCount
        (hclearing .handleCount (by simp [Local.clearing, hl]))
        (.of_unclaiming hnone (hon (.release .clearHeartbeat) rfl)))
  | clearHeartbeat =>
      exact .write lease.slotIndex _ rfl (.clearHeartbeat
        (hclearing .heartbeatMs (by simp [Local.clearing, hl]))
        (.of_unclaiming hnone unclaiming_rest))

/-- The claims of a context that waits for `reduceOpenHandleCount`. -/
theorem endReduce_claims {caller : ReduceCaller} {released removed : Int} {s' : Shared}
    (hl : l.stage = (Pc.reduceLoad caller released).stage) :
    SameClaims l.stage (endReduce s' l removed caller).2.1.stage := by
  rw [hl]
  cases caller with
  | release n =>
      refine .of_unclaiming (unclaiming_of_stage (.inl rfl)) ?_
      simp only [endReduce]
      split
      · exact afterSub_unclaiming _ _
      · exact unclaiming_rest
  | recover r =>
      intro i o
      simp only [endReduce, Stage.Recovers, Stage.Drains, Pc.stage, Local.goto, Local.stage,
        Stage.draining.injEq, reduceCtorEq, false_or, exists_and_left, exists_eq', and_true]

theorem reduceLoop_claims {caller : ReduceCaller} {released current : Int} {s' : Shared}
    (hl : l.stage = (Pc.reduceLoad caller released).stage) :
    SameClaims l.stage (reduceLoop s' l caller released current).2.1.stage := by
  unfold reduceLoop
  split
  · rw [hl]
    cases caller <;> exact fun _ _ => Iff.rfl
  · exact endReduce_claims hl

theorem resetStep_slots {pc : ResetPc} (hl : l.pc = .reset pc) :
    SlotStep s l (resetStep p s l pc).1.slots (resetStep p s l pc).2.1.stage := by
  have hnone : Unclaiming l.stage := by
    rw [Local.stage, hl]
    exact unclaiming_rest
  have hsame : SameClaims l.stage .rest := .of_unclaiming hnone unclaiming_rest
  cases pc with
  | loadOpenHandleCount =>
      simp only [resetStep]
      split <;> exact .same rfl hsame
  | storeFileMeta | storeActiveSegmentCount | storeOpenHandleCount | storeRecovered =>
      exact .same rfl hsame
  | clearOwnerId i =>
      exact .write i _ rfl (.clearOwnerId (by simp [Local.clearing, hl])
        (fun j o h => absurd h (hnone j o)) unclaiming_rest)
  | clearHandleCount i =>
      exact .write i _ rfl (.clearHandleCount (by simp [Local.clearing, hl]) hsame)
  | clearHeartbeat i =>
      simp only [resetStep]
      split <;> exact .write i _ rfl (.clearHeartbeat (by simp [Local.clearing, hl]) hsame)

/-- **Step lemma for the slots**: one word of one slot at most, by a step that
is named. -/
theorem runStep_slots (hpos : l.pc.Positive) :
    SlotStep s l (runStep p s l).1.slots (runStep p s l).2.1.stage := by
  have hon (h : l.stage.onLease = true) : Unclaiming l.stage := unclaiming_of_stage (.inl h)
  unfold runStep
  split
  next hl => exact .same rfl fun _ _ => Iff.rfl
  next k pc hl => exact claimStep_slots hl
  next hl =>
    exact slotStep_plain rfl (hon (by rw [Local.stage, hl]; rfl)) (unclaiming_of_stage (.inl rfl))
  next lease hl hlease =>
    exact .write lease.slotIndex _ rfl (.retain lease hl hlease rfl (.of_unclaiming
      (hon (by rw [Local.stage, hl]; rfl)) (unclaiming_of_stage (.inl rfl))))
  next caller pc lease hl hlease => exact beatStep_slots hl
  next pc lease hl hlease => exact releaseStep_slots hl hlease
  next caller released hl =>
    exact .same (by rw [reduceLoop_shared]) (reduceLoop_claims (by rw [Local.stage, hl]))
  next caller released current hl =>
    have hstage : l.stage = (Pc.reduceLoad caller released).stage := by
      rw [Local.stage, hl]
      cases caller <;> rfl
    unfold reduceSwapStep
    simp only
    split
    · exact .same (by rw [endReduce_shared]) (endReduce_claims hstage)
    · exact .same (by rw [reduceLoop_shared]) (reduceLoop_claims hstage)
  next r pc hl => exact recoverStep_slots hl hpos
  next ownerId i hl =>
    have hnone : Unclaiming l.stage := by rw [Local.stage, hl]; exact unclaiming_rest
    split
    · exact slotStep_plain rfl hnone unclaiming_rest
    · split <;> exact slotStep_plain rfl hnone unclaiming_rest
  next ownerId i hl =>
    have hnone : Unclaiming l.stage := by rw [Local.stage, hl]; exact unclaiming_rest
    rw [hl] at hpos
    split
    next hsame => exact .write i _ rfl (.claim ownerId hsame hpos hnone)
    next => exact slotStep_plain rfl hnone unclaiming_rest
  next pc hl => exact resetStep_slots hl
  next hlease hidle hclaim hadd hload hswap hrecover htl htc hreset =>
    -- a call on a lease that is gone is over
    refine slotStep_plain rfl ?_ unclaiming_rest
    rw [Local.stage]
    cases hpc : l.pc with
    | retainAddHandle => exact unclaiming_of_stage (.inl rfl)
    | beat caller pc => exact beat_unclaiming caller pc
    | release pc => exact release_unclaiming pc
    | idle => exact (hidle hpc).elim
    | claim k pc => exact (hclaim k pc hpc).elim
    | retainAddOpen => exact (hadd hpc).elim
    | reduceLoad caller n => exact (hload caller n hpc).elim
    | reduceSwap caller n m => exact (hswap caller n m hpc).elim
    | recover r pc => exact (hrecover r pc hpc).elim
    | terminatedLoad ownerId i => exact (htl ownerId i hpc).elim
    | terminatedClaim ownerId i => exact (htc ownerId i hpc).elim
    | reset pc => exact (hreset pc hpc).elim

/-- The same of a choice: the start of a call touches no slot. -/
theorem choose_slots {choice : Choice} {s' : Shared} {l' : Local} {o : Option Outcome}
    (hpos : l.pc.Positive) (hr : choose p choice s l = some (s', l', o)) :
    SlotStep s l s'.slots l'.stage := by
  rcases choose_cases hr with ⟨_, hrun⟩ | ⟨_, hidle, rfl, hstart⟩
  · have hs : s' = (runStep p s l).1 := congrArg Prod.fst hrun
    have hl : l' = (runStep p s l).2.1 := congrArg (fun r => r.2.1) hrun
    rw [hs, hl]
    exact runStep_slots hpos
  · have hnone : Unclaiming l.stage := by
      rw [Local.stage, hidle]
      exact unclaiming_rest
    refine .same rfl (.of_unclaiming hnone ?_)
    cases hstart with
    | retain lease _ => exact unclaiming_of_stage (.inl rfl)
    | claim _ => exact unclaiming_rest
    | release lease _ => exact unclaiming_of_stage (.inl rfl)
    | plain pc hstage _ _ _ => exact unclaiming_of_stage (.inr (.inl hstage))

/-- A reading that is about to be stored is one of the clock or was in hand before. -/
theorem choose_storing {choice : Choice} {s' : Shared} {l' : Local} {o : Option Outcome}
    (hr : choose p choice s l = some (s', l', o)) {nowMs : Int}
    (hstoring : l'.pc.watch = .storing nowMs) :
    nowMs = s.clockMs ∨ l.pc.watch = .storing nowMs := by
  by_cases hterm : ∃ ownerId i, l.pc = .terminatedClaim ownerId i
  · -- the claim of a terminated owner's slot goes on to its handle count
    exfalso
    obtain ⟨ownerId, i, hpc⟩ := hterm
    rcases choose_cases hr with ⟨_, hrun⟩ | ⟨_, hidle, _⟩
    · rw [show l' = (runStep p s l).2.1 from congrArg (fun r => r.2.1) hrun] at hstoring
      simp only [runStep, hpc] at hstoring
      split at hstoring <;> cases hstoring
    · rw [hpc] at hidle
      cases hidle
  · have hwatch := choose_watch hr fun ownerId i hpc => hterm ⟨ownerId, i, hpc⟩
    rw [hstoring] at hwatch
    cases hwatch with
    | keep hkeep => exact .inr hkeep
    | clock => exact .inl rfl

end

/-! ## §2. The shapes of a slot. -/

variable {Ctx : Type}

/-- An owned or claimed slot has a heartbeat; without owner and heartbeat there
are no handles. -/
structure Slot.Shaped (w : Slot) : Prop where
  nonneg : 0 ≤ w.heartbeatMs
  owned : w.ownerId ≠ 0 → w.heartbeatMs ≠ 0
  cleared : w.ownerId = 0 → w.heartbeatMs = 0 → w.handleCount = 0

/-- The slot has neither owner nor heartbeat. -/
def Cleared (c : LeaseConfig Ctx) (i : SlotIndex) : Prop :=
  owner c i = 0 ∧ heartbeat c.shared i = 0

/-- The next atomic step of context `t` does not come too late, and is none of a
reset. -/
def InTime (c : LeaseConfig Ctx) (t : Ctx) : Prop :=
  match (c.threads t).pc with
  | .claim k .takeSlot => ¬Cleared c k.slot
  | .retainAddHandle => ∀ lease, (c.threads t).lease = some lease → ¬Cleared c lease.slotIndex
  | .release (.subHandleCount _) =>
      ∀ lease, (c.threads t).lease = some lease → ¬Cleared c lease.slotIndex
  | .release .clearHeartbeat =>
      ∀ lease, (c.threads t).lease = some lease →
        owner c lease.slotIndex = 0 ∧ count c lease.slotIndex = 0
  | .recover r .handBack => heartbeat c.shared r.slot ≠ 0
  | .recover r (.clearHeartbeat _) => owner c r.slot = 0 ∧ count c r.slot = 0
  | .reset _ => False
  | _ => True

/-- **The condition**: no step comes too late, and no context dies while its
recovery holds a claim. -/
def KeepsShapes (x : LeaseConfig Ctx × (Ctx → Bool)) : MortalLabel Ctx Act → Prop
  | .lives (.thread t _) => InTime x.1 t
  | .lives .env => True
  | .dies t => Unclaiming (x.1.threads t).stage

/-- What every context knows by itself. -/
structure HandInv (C : Contexts Ctx) (t : Ctx) (l : Local) : Prop where
  inv : LocalInv C t l
  storing : ∀ nowMs, l.pc.watch = .storing nowMs → 0 < nowMs
  claims : ∀ i ownerId, l.stage.Recovers i ownerId → 0 < ownerId

/-- The slots have their shapes, and every claim is held. -/
structure ShapeInv (C : Contexts Ctx) (c : LeaseConfig Ctx) : Prop where
  shaped : ∀ i, (c.shared.slots i).Shaped
  held : ∀ i, owner c i < 0 → ∃ u, (c.threads u).stage.Recovers i (-owner c i)
  hands : ∀ t, HandInv C t (c.threads t)

section

variable {C : Contexts Ctx} {c : LeaseConfig Ctx} {t : Ctx} {i : SlotIndex}

/-- Who stores the last word of a clear. -/
theorem clearing_heartbeat {l : Local} (h : l.clearing = some (.heartbeatMs, i)) :
    (l.pc = .release .clearHeartbeat ∧ ∃ lease, l.lease = some lease ∧ lease.slotIndex = i)
      ∨ (∃ r n, l.pc = .recover r (.clearHeartbeat n) ∧ r.slot = i)
      ∨ l.pc = .reset (.clearHeartbeat i) := by
  unfold Local.clearing at h
  split at h
  case h_3 hpc =>
    obtain ⟨lease, hlease, heq⟩ := Option.map_eq_some_iff.mp h
    cases heq
    exact .inl ⟨hpc, lease, hlease, rfl⟩
  case h_6 r n hpc =>
    cases h
    exact .inr (.inl ⟨r, n, hpc, rfl⟩)
  case h_9 j hpc =>
    cases h
    exact .inr (.inr hpc)
  case h_1 | h_2 =>
    obtain ⟨lease, hlease, heq⟩ := Option.map_eq_some_iff.mp h
    cases heq
  all_goals cases h

/-- A step in time leaves a slot in shape. -/
theorem SlotWrite.shaped {v : Slot} {g : Stage} (h : SlotWrite c.shared (c.threads t) i v g)
    (htime : InTime c t) (hand : HandInv C t (c.threads t)) (hw : (c.shared.slots i).Shaped) :
    v.Shaped := by
  obtain ⟨hnonneg, howned, hcleared⟩ := hw
  unfold InTime at htime
  cases h with
  | beat nowMs hstoring hsame =>
      have hpos := hand.storing nowMs hstoring
      have hne : nowMs ≠ 0 := by omega
      exact ⟨Int.le_of_lt hpos, fun _ => hne, fun _ h => absurd h hne⟩
  | take k hpc hslot hfree hsame =>
      rw [hpc] at htime
      subst hslot
      have hbeat : (c.shared.slots k.slot).heartbeatMs ≠ 0 := fun h => htime ⟨hfree, h⟩
      exact ⟨hnonneg, fun _ => hbeat, fun _ h => absurd h hbeat⟩
  | openLease hsame => exact ⟨hnonneg, howned, fun _ _ => rfl⟩
  | retain lease hpc hlease hslot hsame =>
      rw [hpc] at htime
      subst hslot
      exact ⟨hnonneg, howned, fun ho hb => absurd ⟨ho, hb⟩ (htime lease hlease)⟩
  | release lease n hpc hlease hslot hsame =>
      rw [hpc] at htime
      subst hslot
      exact ⟨hnonneg, howned, fun ho hb => absurd ⟨ho, hb⟩ (htime lease hlease)⟩
  | clearOwnerId hclear hown hnone =>
      refine ⟨hnonneg, fun h => absurd rfl h, fun _ hb => ?_⟩
      -- without a heartbeat the slot was ownerless before
      have hfree : (c.shared.slots i).ownerId = 0 := by
        by_contra hne
        exact howned hne hb
      exact hcleared hfree hb
  | clearHandleCount hclear hsame => exact ⟨hnonneg, howned, fun _ _ => rfl⟩
  | clearHeartbeat hclear hsame =>
      have hempty : owner c i = 0 ∧ count c i = 0 := by
        rcases clearing_heartbeat hclear with ⟨hpc, lease, hlease, hslot⟩ | ⟨r, n, hpc, hslot⟩ | hpc
        · rw [hpc] at htime
          exact hslot ▸ htime lease hlease
        · rw [hpc] at htime
          exact hslot ▸ htime
        · rw [hpc] at htime
          exact htime.elim
      exact ⟨Int.le_refl _, fun h => absurd hempty.1 h, fun _ _ => hempty.2⟩
  | claim ownerId hsame hpos hnone =>
      have hbeat := howned (by omega)
      exact ⟨hnonneg, fun _ => hbeat, fun _ h => absurd h hbeat⟩
  | handBack r hpc hslot hnone =>
      rw [hpc] at htime
      subst hslot
      exact ⟨hnonneg, fun _ => htime, fun _ h => absurd h htime⟩

/-- The owner word that a step leaves in its slot. -/
theorem SlotWrite.ownerId {s : Shared} {l : Local} {v : Slot} {g : Stage}
    (h : SlotWrite s l i v g) :
    (v.ownerId = (s.slots i).ownerId ∧ SameClaims l.stage g)
      ∨ (∃ k, l.pc = .claim k .takeSlot ∧ v.ownerId = k.ownerId ∧ SameClaims l.stage g)
      ∨ (∃ ownerId, 0 < ownerId ∧ v.ownerId = -ownerId ∧ Unclaiming l.stage
          ∧ g = .recovering i ownerId)
      ∨ ((∀ j ownerId, l.stage.Recovers j ownerId → j = i) ∧ Unclaiming g
          ∧ (v.ownerId = 0 ∨ ∃ r, l.pc = .recover r .handBack ∧ v.ownerId = r.ownerId)) := by
  cases h with
  | beat nowMs hstoring hsame => exact .inl ⟨rfl, hsame⟩
  | take k hpc hslot hfree hsame => exact .inr (.inl ⟨k, hpc, rfl, hsame⟩)
  | openLease hsame => exact .inl ⟨rfl, hsame⟩
  | retain lease hpc hlease hslot hsame => exact .inl ⟨rfl, hsame⟩
  | release lease n hpc hlease hslot hsame => exact .inl ⟨rfl, hsame⟩
  | clearOwnerId hclear hown hnone => exact .inr (.inr (.inr ⟨hown, hnone, .inl rfl⟩))
  | clearHandleCount hclear hsame => exact .inl ⟨rfl, hsame⟩
  | clearHeartbeat hclear hsame => exact .inl ⟨rfl, hsame⟩
  | claim ownerId hsame hpos hnone => exact .inr (.inr (.inl ⟨ownerId, hpos, rfl, hnone, rfl⟩))
  | handBack r hpc hslot hnone =>
      refine .inr (.inr (.inr ⟨fun j o hrec => ?_, hnone, .inr ⟨r, hpc, rfl⟩⟩))
      rw [Local.stage, hpc] at hrec
      rcases hrec with hrec | ⟨n, hrec⟩
      · cases hrec
        exact hslot
      · cases hrec

/-- What a context knows after its step. -/
theorem HandInv.next {a : Act} {s' : Shared} {l' : Local} {s : Shared} {l : Local}
    (h : HandInv C t l) (hact : C.machine.act t a s l s' l') : HandInv C t l' := by
  refine ⟨(choose_local h.inv hact).inv, fun nowMs hstoring => ?_, fun i ownerId hrec => ?_⟩
  · rcases choose_storing hact hstoring with rfl | hold
    · exact clockMs_pos s
    · exact h.storing nowMs hold
  · rcases choose_slots h.inv.positive hact with ⟨_, hsame⟩ | ⟨j, v, _, hwrite⟩
    · exact h.claims i ownerId ((hsame i ownerId).mp hrec)
    · rcases hwrite.ownerId with ⟨_, hsame⟩ | ⟨k, _, _, hsame⟩ | ⟨o, hpos, _, _, hg⟩ | ⟨_, hnone, _⟩
      · exact h.claims i ownerId ((hsame i ownerId).mp hrec)
      · exact h.claims i ownerId ((hsame i ownerId).mp hrec)
      · rw [hg] at hrec
        rcases hrec with hrec | ⟨n, hrec⟩
        · cases hrec
          exact hpos
        · cases hrec
      · exact absurd hrec (hnone i ownerId)

/-- A holder of the claim on slot `j` still holds it when the step stores nothing
into that slot. -/
theorem held_after [DecidableEq Ctx] {s' : Shared} {l' : Local} {j : SlotIndex}
    (hkeeps : ∀ ownerId, (c.threads t).stage.Recovers j ownerId → l'.stage.Recovers j ownerId)
    (hsame : (s'.slots j).ownerId = owner c j)
    (hheld : owner c j < 0 → ∃ u, (c.threads u).stage.Recovers j (-owner c j))
    (hneg : owner (c.put t s' l') j < 0) :
    ∃ u, ((c.put t s' l').threads u).stage.Recovers j (-owner (c.put t s' l') j) := by
  have howner : owner (c.put t s' l') j = owner c j := hsame
  rw [howner] at hneg ⊢
  obtain ⟨u, hu⟩ := hheld hneg
  refine ⟨u, ?_⟩
  by_cases hut : u = t
  · subst hut
    rw [Config.put_threads_self]
    exact hkeeps _ hu
  · rw [Config.put_threads_ne _ hut]
    exact hu

/-- The claims of the recoveries are held after a step. -/
theorem ShapeInv.held_next [DecidableEq Ctx] {a : Act} {s' : Shared} {l' : Local}
    (h : ShapeInv C c) (hact : C.machine.act t a c.shared (c.threads t) s' l') (j : SlotIndex)
    (hneg : owner (c.put t s' l') j < 0) :
    ∃ u, ((c.put t s' l').threads u).stage.Recovers j (-owner (c.put t s' l') j) := by
  have hand := h.hands t
  rcases choose_slots hand.inv.positive hact with ⟨hslots, hsame⟩ | ⟨i, v, hslots, hwrite⟩
  · exact held_after (fun o => (hsame j o).mpr) (by rw [hslots]) (h.held j) hneg
  · by_cases hj : j = i
    · -- the slot that the step stores into
      subst hj
      have hv : s'.slots j = v := by rw [hslots, Function.update_self]
      have howner : owner (c.put t s' l') j = v.ownerId := congrArg Slot.ownerId hv
      rcases hwrite.ownerId with ⟨hid, hsame⟩ | ⟨k, hpc, hid, _⟩ | ⟨o, hpos, hid, _, hg⟩
        | ⟨_, _, hid⟩
      · exact held_after (fun o => (hsame j o).mpr) (hv ▸ hid) (h.held j) hneg
      · obtain ⟨_, m, hm, _⟩ := hand.inv.scan k.ownerId (by rw [hpc]; rfl)
        have hkpos : 0 < k.ownerId := hm ▸ C.owner_pos t m
        omega
      · refine ⟨t, ?_⟩
        rw [Config.put_threads_self, hg, howner, hid, Int.neg_neg]
        exact .inl rfl
      · rcases hid with hzero | ⟨r, hpc, hid⟩
        · omega
        · have hrpos : 0 < r.ownerId :=
            hand.claims r.slot r.ownerId (by rw [Local.stage, hpc]; exact .inl rfl)
          omega
    · -- another slot: its claim is not the one that ends
      have hother : s'.slots j = c.shared.slots j := by rw [hslots, Function.update_of_ne hj]
      refine held_after (fun o hrec => ?_) (congrArg Slot.ownerId hother) (h.held j) hneg
      rcases hwrite.ownerId with ⟨_, hsame⟩ | ⟨_, _, _, hsame⟩ | ⟨_, _, _, hnone, _⟩ | ⟨hown, _, _⟩
      · exact (hsame j o).mpr hrec
      · exact (hsame j o).mpr hrec
      · exact absurd hrec (hnone j o)
      · exact absurd (hown j o hrec) hj

/-- **Step lemma for the shapes.** -/
theorem ShapeInv.next [DecidableEq Ctx] {label : ThreadLabel Ctx Act} {c' : LeaseConfig Ctx}
    (h : ShapeInv C c) (htime : ∀ t a, label = .thread t a → InTime c t)
    (hn : C.system.next c label c') : ShapeInv C c' := by
  cases hn with
  | @thread t a s' l' hact =>
      have hand := h.hands t
      refine ⟨fun j => ?_, h.held_next hact, fun u => ?_⟩
      · show (s'.slots j).Shaped
        rcases choose_slots hand.inv.positive hact with ⟨hslots, _⟩ | ⟨i, v, hslots, hwrite⟩
        · rw [hslots]
          exact h.shaped j
        · rw [hslots]
          by_cases hj : j = i
          · subst hj
            rw [Function.update_self]
            exact hwrite.shaped (htime t a rfl) hand (h.shaped j)
          · rw [Function.update_of_ne hj]
            exact h.shaped j
      · by_cases hu : u = t
        · subst hu
          rw [Config.put_threads_self]
          exact hand.next hact
        · rw [Config.put_threads_ne _ hu]
          exact h.hands u
  | env henv =>
      obtain ⟨timeMs, _, rfl⟩ := henv
      exact ⟨h.shaped, h.held, h.hands⟩

theorem shapeInv_start [DecidableEq Ctx] (h : C.system.init c) : ShapeInv C c := by
  obtain ⟨⟨_, _, hslots⟩, hthreads⟩ := h
  refine ⟨fun i => ?_, fun i hneg => ?_, fun t => ?_⟩
  · rw [hslots i]
    exact ⟨Int.le_refl _, fun h => absurd rfl h, fun _ _ => rfl⟩
  · exact absurd hneg (by simp [owner, hslots i])
  · rw [hthreads t]
    refine ⟨⟨trivial, fun _ h => ?_, fun h => ?_⟩, fun _ h => ?_, fun i o h => ?_⟩
    · cases h
    · cases h
    · cases h
    · exact absurd h (unclaiming_rest i o)

theorem KeepsShapes.reach [DecidableEq Ctx] {x : LeaseConfig Ctx × (Ctx → Bool)}
    (h : Reach C.machine.mortal KeepsShapes x) : ShapeInv C x.1 := by
  have hlives : Reach C.machine.system (fun c l => ∀ t a, l = .thread t a → InTime c t) x.1 := by
    refine h.lives ?_
    rintro y _ hok t a rfl
    exact hok
  exact hlives.invariant (fun _ => shapeInv_start)
    (fun _ _ _ hinv htime hn => hinv.next htime hn)

/-- The dead hold no claim. -/
theorem KeepsShapes.stopped [DecidableEq Ctx] {x : LeaseConfig Ctx × (Ctx → Bool)}
    (h : Reach C.machine.mortal KeepsShapes x) (t : Ctx) (hdead : x.2 t = true) :
    Unclaiming (x.1.threads t).stage := by
  refine Threads.mortal_stopped (fun l => Unclaiming l.stage) (fun _ _ hok => hok) ?_ h t hdead
  rintro c c' ⟨timeMs, _, rfl⟩
  rfl

end

/-! ## §3. A recovery and a scan that run alone. -/

/-- The context has the slot with this id, or has just put the id there. -/
def Local.Owns (l : Local) (i : SlotIndex) (ownerId : Int) : Prop :=
  l.stage = .claimed i ownerId
    ∨ ∃ lease, l.lease = some lease ∧ lease.slotIndex = i ∧ lease.ownerId = ownerId

/-- The slot is a live context's: it owns it, or its recovery has a claim on it. -/
def OwnedByLive (c : LeaseConfig Ctx) (dead : Ctx → Bool) (i : SlotIndex) : Prop :=
  ∃ t, dead t = false
    ∧ ((c.threads t).Owns i (owner c i) ∨ (c.threads t).stage.Recovers i (-owner c i))

/-- A context that runs alone; `clock` has the times of its coming steps. -/
structure Alone where
  clock : Nat → Nat
  shared : Shared
  caller : Local

namespace Alone

/-- Its next step. -/
def step (p : Params) (x : Alone) : Alone :=
  let r := runStep p { x.shared with timeMs := x.clock 0 } x.caller
  ⟨fun n => x.clock (n + 1), r.1, r.2.1⟩

/-- The call has returned. -/
def returned (x : Alone) : Bool := decide (x.caller.pc = .idle)

/-- The callback of `claimOwnerLeaseSlot` has returned for the slot of `k`. -/
def scanned (k : Claim) (x : Alone) : Bool :=
  match x.caller.pc with
  | .claim k' _ => decide (k' ≠ k)
  | _ => true

/-- `recoverAbandonedRuntimeOwnerLeases` is called. -/
def recovering (x : Alone) : Alone :=
  { x with caller := x.caller.goto (.recover ⟨.client, 0, 0, 0⟩ .loadOwnerId) }

/-- `claimOwnerLeaseSlot` comes to the slot of `k`. -/
def scanning (k : Claim) (x : Alone) : Alone :=
  { x with caller := x.caller.goto (.claim k .loadOwnerId) }

/-- The heartbeat is stale at all readings to come. -/
def Stale (p : Params) (x : Alone) (heartbeatMs : Int) : Prop :=
  ∀ n, isStale p.staleMs heartbeatMs (getMemoryWriteAheadLockClockMs (x.clock n)) = true

end Alone

/-- Alone, the context ends a recovery, and the scan that comes to slot `i` after
it, with whatever owner id, claims the slot. -/
def RecoversAndClaims (p : Params) (x : Alone) (i : SlotIndex) : Prop :=
  ∃ fuel y, runUntil (Alone.step p) Alone.returned fuel x.recovering = some y
    ∧ ∀ retried ownerId, ∃ fuel z,
        runUntil (Alone.step p) (Alone.scanned ⟨retried, ownerId, i⟩) fuel
            (y.scanning ⟨retried, ownerId, i⟩) = some z
          ∧ z.caller.lease = some ⟨1, ownerId, i⟩ ∧ (z.shared.slots i).ownerId = ownerId
          ∧ (z.shared.slots i).handleCount = 0

section

variable {p : Params} {x : Alone}

/-- A slot that nobody alive owns, with a heartbeat that is stale or never was. -/
structure Slot.Orphan (p : Params) (x : Alone) (w : Slot) : Prop where
  shaped : w.Shaped
  unclaimed : 0 ≤ w.ownerId
  stale : w.heartbeatMs ≠ 0 → x.Stale p w.heartbeatMs

/-- What a claim accepts. -/
structure Slot.Claimable (p : Params) (x : Alone) (w : Slot) : Prop where
  ownerless : w.ownerId = 0
  empty : w.heartbeatMs = 0 → w.handleCount = 0
  stale : w.heartbeatMs ≠ 0 → x.Stale p w.heartbeatMs

/-- The run from `x` comes to `pc` with these slots. -/
def Alone.Comes (p : Params) (stop : Alone → Bool) (x : Alone) (pc : Pc)
    (slots : SlotIndex → Slot) : Prop :=
  ∃ z, Leads (Alone.step p) stop x z ∧ z.caller = x.caller.goto pc ∧ z.shared.slots = slots
    ∧ ∀ h, x.Stale p h → z.Stale p h

variable {stop : Alone → Bool} {pc pc' : Pc} {slots slots' : SlotIndex → Slot}

theorem Alone.Comes.start (hpc : x.caller.pc = pc) : x.Comes p stop pc x.shared.slots := by
  refine ⟨x, .refl x, ?_, rfl, fun _ h => h⟩
  rw [← hpc]
  rfl

theorem Alone.Stale.step {h : Int} (hstale : x.Stale p h) : (x.step p).Stale p h :=
  fun n => hstale (n + 1)

/-- One more step. -/
theorem Alone.Comes.next (hcomes : x.Comes p stop pc slots)
    (hstep : ∀ s : Shared, s.slots = slots →
      (∀ h, x.Stale p h → isStale p.staleMs h s.clockMs = true) →
      (runStep p s (x.caller.goto pc)).1.slots = slots'
        ∧ (runStep p s (x.caller.goto pc)).2.1 = x.caller.goto pc')
    (hgoes : ∀ z : Alone, z.caller.pc = pc' → stop z = false) : x.Comes p stop pc' slots' := by
  obtain ⟨z, hleads, hcaller, hslots, hstale⟩ := hcomes
  have hnow := hstep { z.shared with timeMs := z.clock 0 } hslots fun h hx => hstale h hx 0
  rw [← hcaller] at hnow
  refine ⟨z.step p, hleads.trans (.one (hgoes _ ?_)), hnow.2, hnow.1, fun h hx => (hstale h hx).step⟩
  rw [show (z.step p).caller = x.caller.goto pc' from hnow.2]
  rfl

/-- A step of the scan of `k`. -/
theorem scanned_claim (k : Claim) (pc : ClaimPc) (z : Alone) (h : z.caller.pc = .claim k pc) :
    Alone.scanned k z = false := by
  unfold Alone.scanned
  rw [h]
  simp

/-- **Alone, the scan claims a claimable slot.** -/
theorem Alone.claims (k : Claim) (hslot : (x.shared.slots k.slot).Claimable p x) :
    ∃ fuel z, runUntil (Alone.step p) (Alone.scanned k) fuel (x.scanning k) = some z
      ∧ z.caller.lease = some ⟨1, k.ownerId, k.slot⟩
      ∧ (z.shared.slots k.slot).ownerId = k.ownerId
      ∧ (z.shared.slots k.slot).handleCount = 0 := by
  obtain ⟨w, hw⟩ : ∃ w, x.shared.slots k.slot = w := ⟨_, rfl⟩
  rw [hw] at hslot
  obtain ⟨hownerless, hempty, hstale⟩ := hslot
  have h0 : (x.scanning k).Comes p (Alone.scanned k) (.claim k .loadOwnerId) x.shared.slots :=
    .start rfl
  have h1 : (x.scanning k).Comes p (Alone.scanned k) (.claim k .loadHeartbeat) x.shared.slots := by
    refine h0.next (fun s hs _ => ?_) (scanned_claim k _)
    have hfree : ¬(s.slots k.slot).ownerId ≠ 0 := by rw [hs, hw]; simpa using hownerless
    simp only [runStep, Local.goto, claimStep, if_neg hfree]
    exact ⟨hs, trivial⟩
  have h2 : (x.scanning k).Comes p (Alone.scanned k) (.claim k (.readAge w.heartbeatMs))
      x.shared.slots := by
    refine h1.next (fun s hs _ => ?_) (scanned_claim k _)
    simp only [runStep, Local.goto, claimStep, hs, hw]
    exact ⟨trivial, trivial⟩
  -- the heartbeat is stale, or there is none and no handles either
  have h3 : (x.scanning k).Comes p (Alone.scanned k) (.claim k .readClock) x.shared.slots := by
    by_cases hbeat : w.heartbeatMs = 0
    · have hnone (s : Shared) : isStale p.staleMs w.heartbeatMs s.clockMs = false := by
        rw [hbeat]
        rfl
      have h3 : (x.scanning k).Comes p (Alone.scanned k) (.claim k (.loadHandleCount false))
          x.shared.slots := by
        refine h2.next (fun s hs _ => ?_) (scanned_claim k _)
        simp only [runStep, Local.goto, claimStep, hnone s]
        exact ⟨hs, trivial⟩
      have h4 : (x.scanning k).Comes p (Alone.scanned k) (.claim k (.reloadHeartbeat false))
          x.shared.slots := by
        refine h3.next (fun s hs _ => ?_) (scanned_claim k _)
        have hcount : ¬(s.slots k.slot).handleCount ≠ 0 := by rw [hs, hw]; simpa using hempty hbeat
        simp only [runStep, Local.goto, claimStep, if_neg hcount]
        exact ⟨hs, trivial⟩
      refine h4.next (fun s hs _ => ?_) (scanned_claim k _)
      simp [runStep, Local.goto, claimStep, hs, hw, hbeat]
    · have h3 : (x.scanning k).Comes p (Alone.scanned k) (.claim k (.loadHandleCount true))
          x.shared.slots := by
        refine h2.next (fun s hs hnow => ?_) (scanned_claim k _)
        simp only [runStep, Local.goto, claimStep, hnow _ (hstale hbeat)]
        exact ⟨hs, trivial⟩
      by_cases hcount : w.handleCount = 0
      · have h4 : (x.scanning k).Comes p (Alone.scanned k) (.claim k (.reloadHeartbeat true))
            x.shared.slots := by
          refine h3.next (fun s hs _ => ?_) (scanned_claim k _)
          have hzero : ¬(s.slots k.slot).handleCount ≠ 0 := by rw [hs, hw]; simpa using hcount
          simp only [runStep, Local.goto, claimStep, if_neg hzero]
          exact ⟨hs, trivial⟩
        refine h4.next (fun s hs _ => ?_) (scanned_claim k _)
        simp [runStep, Local.goto, claimStep, hs]
      · refine h3.next (fun s hs _ => ?_) (scanned_claim k _)
        simp [runStep, Local.goto, claimStep, hs, hw, hcount]
  obtain ⟨nowMs, h4⟩ : ∃ nowMs, (x.scanning k).Comes p (Alone.scanned k)
      (.claim k (.storeHeartbeat nowMs)) x.shared.slots := by
    obtain ⟨z, hleads, hcaller, hslots, hlater⟩ := h3
    have hstep : (z.step p).caller = (x.scanning k).caller.goto
        (.claim k (.storeHeartbeat (getMemoryWriteAheadLockClockMs (z.clock 0)))) := by
      simp only [Alone.step, runStep, hcaller, Local.goto, claimStep, Shared.clockMs]
    refine ⟨_, z.step p, hleads.trans (.one (scanned_claim k _ _ (by rw [hstep]; rfl))), hstep, ?_,
      fun h hx => (hlater h hx).step⟩
    simp only [Alone.step, runStep, hcaller, Local.goto, claimStep]
    exact hslots
  have h5 : (x.scanning k).Comes p (Alone.scanned k) (.claim k .takeSlot)
      (Function.update x.shared.slots k.slot { w with heartbeatMs := nowMs }) := by
    refine h4.next (fun s hs _ => ?_) (scanned_claim k _)
    simp only [runStep, Local.goto, claimStep, Shared.setHeartbeatMs, hs, hw]
    exact ⟨trivial, trivial⟩
  have h6 : (x.scanning k).Comes p (Alone.scanned k) (.claim k .storeHandleCount)
      (Function.update x.shared.slots k.slot ⟨k.ownerId, w.handleCount, nowMs⟩) := by
    refine h5.next (fun s hs _ => ?_) (scanned_claim k _)
    simp [runStep, Local.goto, claimStep, Shared.setOwnerId, hs, hownerless]
  obtain ⟨z, hleads, hcaller, hslots, _⟩ := h6
  obtain ⟨fuel, hruns⟩ := hleads.ends (z := z.step p) rfl (by
    simp only [Alone.scanned, Alone.step, runStep, hcaller, Local.goto, claimStep])
  refine ⟨fuel, _, hruns, ?_⟩
  simp only [Alone.step, runStep, hcaller, Local.goto, claimStep, Shared.setHandleCount, hslots,
    Function.update_self]
  exact ⟨trivial, trivial, trivial⟩

/-- What a recovery leaves of a slot. -/
structure Swept (p : Params) (x : Alone) (w w' : Slot) : Prop where
  words : w' = w ∨ w' = ⟨0, 0, 0⟩
  freed : 0 < w.ownerId → x.Stale p w.heartbeatMs → w' = ⟨0, 0, 0⟩

/-- Where a recovery goes on after its slot. -/
def afterSlot (r : Recovery) : Pc :=
  match nextSlot r.slot with
  | some slot => .recover { r with slot } .loadOwnerId
  | none => .idle

theorem nextRecover_client (s : Shared) (l : Local) (r : Recovery) (hclient : r.caller = .client) :
    (nextRecover s l r).1 = s ∧ (nextRecover s l r).2.1 = l.goto (afterSlot r) := by
  unfold nextRecover afterSlot
  cases nextSlot r.slot with
  | some slot => exact ⟨rfl, rfl⟩
  | none =>
      simp only [endRecover, hclient]
      exact ⟨trivial, trivial⟩

theorem addRecovered_client (s : Shared) (l : Local) (r : Recovery) (released : Int)
    (hclient : r.caller = .client) :
    recoverStep p s l r (.addRecovered released) = nextRecover
      { s with recoveredAbandonedHandleCount := s.recoveredAbandonedHandleCount + released } l
      { r with recoveredHandleCount := r.recoveredHandleCount + released } := by
  simp only [recoverStep]
  split
  next hterm => cases hclient.symm.trans hterm
  next => rfl

/-- The run has come to the last step of its work on slot `r.slot`. -/
structure Alone.EndsSlot (p : Params) (x : Alone) (r : Recovery) (slots : SlotIndex → Slot)
    (z : Alone) : Prop where
  leads : Leads (Alone.step p) Alone.returned x z
  caller : (z.step p).caller = x.caller.goto (afterSlot r)
  slots_eq : (z.step p).shared.slots = slots
  later : ∀ h, x.Stale p h → (z.step p).Stale p h

theorem recovering_goes (r : Recovery) (pc : RecoverPc) (z : Alone)
    (h : z.caller.pc = .recover r pc) : Alone.returned z = false := by
  unfold Alone.returned
  rw [h]
  rfl

/-- After the claim: the handles are counted, the counter reduced and the slot
cleared. -/
theorem Alone.Comes.clears {r : Recovery} (hclient : r.caller = .client)
    (hcomes : x.Comes p Alone.returned (.recover r .loadHandleCount) slots) :
    ∃ z r', r'.slot = r.slot ∧ r'.caller = .client
      ∧ x.EndsSlot p r' (Function.update slots r.slot ⟨0, 0, 0⟩) z := by
  obtain ⟨released, hclear⟩ : ∃ released, x.Comes p Alone.returned
      (.recover r (.clearOwnerId released)) slots := by
    by_cases hcount : (slots r.slot).handleCount ≤ 0
    · refine ⟨0, hcomes.next (fun s hs _ => ?_) (recovering_goes r _)⟩
      simp [runStep, Local.goto, recoverStep, hs, hcount, endReduce]
    · have hload : x.Comes p Alone.returned
          (.reduceLoad (.recover r) (slots r.slot).handleCount) slots := by
        refine hcomes.next (fun s hs _ => ?_) (fun z hz => ?_)
        · simp [runStep, Local.goto, recoverStep, hs, hcount]
        · unfold Alone.returned
          rw [hz]
          rfl
      -- nobody else changes the counter between its load and the exchange
      obtain ⟨z, hleads, hcaller, hslots, hlater⟩ := hload
      by_cases hopen : z.shared.openHandleCount > 0
      · have hswap : (z.step p).caller = x.caller.goto (.reduceSwap (.recover r)
            (slots r.slot).handleCount z.shared.openHandleCount) := by
          simp [Alone.step, runStep, hcaller, Local.goto, reduceLoop, hopen]
        have hshared : (z.step p).shared = { z.shared with timeMs := z.clock 0 } := by
          simp [Alone.step, runStep, hcaller, Local.goto, reduceLoop, hopen]
        have hleads' := hleads.trans (.one (show Alone.returned (z.step p) = false by
          unfold Alone.returned
          rw [hswap]
          rfl))
        refine ⟨z.shared.openHandleCount
            - max 0 (z.shared.openHandleCount - (slots r.slot).handleCount),
          (z.step p).step p, hleads'.trans (.one ?_), ?_, ?_, fun h hx => (hlater h hx).step.step⟩
        · simp [Alone.returned, Alone.step, runStep, hcaller, Local.goto, reduceLoop, hopen,
            reduceSwapStep, endReduce]
        · rw [Alone.step, hswap, hshared]
          simp [runStep, Local.goto, reduceSwapStep, endReduce]
        · rw [Alone.step, hswap, hshared]
          simp [runStep, Local.goto, reduceSwapStep, endReduce, hslots]
      · refine ⟨0, z.step p, hleads.trans (.one ?_), ?_, ?_, fun h hx => (hlater h hx).step⟩
        · simp [Alone.returned, Alone.step, runStep, hcaller, Local.goto, reduceLoop, hopen,
            endReduce]
        · simp [Alone.step, runStep, hcaller, Local.goto, reduceLoop, hopen, endReduce]
        · simp [Alone.step, runStep, hcaller, Local.goto, reduceLoop, hopen, endReduce, hslots]
  have hcount : x.Comes p Alone.returned (.recover r (.clearHandleCount released))
      (Function.update slots r.slot { slots r.slot with ownerId := 0 }) := by
    refine hclear.next (fun s hs _ => ?_) (recovering_goes r _)
    simp [runStep, Local.goto, recoverStep, Shared.setOwnerId, hs]
  have hbeat : x.Comes p Alone.returned (.recover r (.clearHeartbeat released))
      (Function.update slots r.slot ⟨0, 0, (slots r.slot).heartbeatMs⟩) := by
    refine hcount.next (fun s hs _ => ?_) (recovering_goes r _)
    simp [runStep, Local.goto, recoverStep, Shared.setHandleCount, hs]
  have hadd : x.Comes p Alone.returned (.recover r (.addRecovered released))
      (Function.update slots r.slot ⟨0, 0, 0⟩) := by
    refine hbeat.next (fun s hs _ => ?_) (recovering_goes r _)
    simp [runStep, Local.goto, recoverStep, Shared.setHeartbeatMs, hs]
  obtain ⟨z, hleads, hcaller, hslots, hlater⟩ := hadd
  let r' : Recovery := { r with recoveredHandleCount := r.recoveredHandleCount + released }
  have hrun : runStep p { z.shared with timeMs := z.clock 0 } z.caller = nextRecover
      { z.shared with
        timeMs := z.clock 0
        recoveredAbandonedHandleCount := z.shared.recoveredAbandonedHandleCount + released }
      z.caller r' := by
    rw [hcaller]
    exact addRecovered_client (p := p) _ _ r released hclient
  obtain ⟨hshared, hgoes⟩ := nextRecover_client
    { z.shared with
      timeMs := z.clock 0
      recoveredAbandonedHandleCount := z.shared.recoveredAbandonedHandleCount + released }
    z.caller r' hclient
  have hstep : (z.step p).shared.slots = Function.update slots r.slot ⟨0, 0, 0⟩
      ∧ (z.step p).caller = x.caller.goto (afterSlot r') := by
    simp only [Alone.step, hrun]
    rw [hshared, hgoes, hcaller]
    exact ⟨hslots, rfl⟩
  exact ⟨z, r', rfl, hclient, hleads, hstep.2, hstep.1, fun h hx => (hlater h hx).step⟩

/-- The slot is left as it is. -/
theorem Alone.EndsSlot.skip {r : Recovery} {z : Alone} {pc : RecoverPc}
    (hclient : r.caller = .client) (hleads : Leads (Alone.step p) Alone.returned x z)
    (hcaller : z.caller = x.caller.goto (.recover r pc)) (hslots : z.shared.slots = slots)
    (hlater : ∀ h, x.Stale p h → z.Stale p h)
    (hskip : recoverStep p { z.shared with timeMs := z.clock 0 } z.caller r pc
      = nextRecover { z.shared with timeMs := z.clock 0 } z.caller r) :
    x.EndsSlot p r slots z := by
  obtain ⟨hshared, hgoes⟩ :=
    nextRecover_client { z.shared with timeMs := z.clock 0 } z.caller r hclient
  have hrun : runStep p { z.shared with timeMs := z.clock 0 } z.caller
      = nextRecover { z.shared with timeMs := z.clock 0 } z.caller r := by
    rw [← hskip]
    simp only [runStep, hcaller, Local.goto]
  refine ⟨hleads, ?_, ?_, fun h hx => (hlater h hx).step⟩
  · show (runStep p { z.shared with timeMs := z.clock 0 } z.caller).2.1 = _
    rw [hrun, hgoes, hcaller]
    rfl
  · show (runStep p { z.shared with timeMs := z.clock 0 } z.caller).1.slots = _
    rw [hrun, hshared]
    exact hslots

/-- **One slot of a recovery that runs alone.** -/
theorem Alone.Comes.sweeps {r : Recovery} (hclient : r.caller = .client)
    (hcomes : x.Comes p Alone.returned (.recover r .loadOwnerId) slots) :
    ∃ z r' slots', r'.slot = r.slot ∧ r'.caller = .client ∧ x.EndsSlot p r' slots' z
      ∧ (∀ j, j ≠ r.slot → slots' j = slots j) ∧ Swept p x (slots r.slot) (slots' r.slot) := by
  obtain ⟨w, hw⟩ : ∃ w, slots r.slot = w := ⟨_, rfl⟩
  rw [hw]
  by_cases howner : w.ownerId ≤ 0
  · -- not owned
    obtain ⟨z, hleads, hcaller, hslots, hlater⟩ := hcomes
    refine ⟨z, r, slots, rfl, hclient, .skip hclient hleads hcaller hslots hlater ?_,
      fun _ _ => rfl, .inl hw, fun hpos => absurd hpos (by omega)⟩
    simp [recoverStep, hslots, hw, howner]
  · let r₁ : Recovery := { r with ownerId := w.ownerId }
    have h1 : x.Comes p Alone.returned (.recover r₁ .loadHeartbeat) slots := by
      refine hcomes.next (fun s hs _ => ?_) (recovering_goes _ _)
      simp [runStep, Local.goto, recoverStep, hs, hw, howner, r₁]
    have h2 : x.Comes p Alone.returned (.recover r₁ (.readAge w.heartbeatMs)) slots := by
      refine h1.next (fun s hs _ => ?_) (recovering_goes _ _)
      simp [runStep, Local.goto, recoverStep, hs, hw, r₁]
    obtain ⟨z, hleads, hcaller, hslots, hlater⟩ := h2
    by_cases hnow : isStale p.staleMs w.heartbeatMs (getMemoryWriteAheadLockClockMs (z.clock 0))
    · -- stale: nobody else is there, so the claim and the second look succeed
      have h3 : x.Comes p Alone.returned (.recover r₁ (.claim w.heartbeatMs)) slots := by
        have hrun : (z.step p).caller = x.caller.goto (.recover r₁ (.claim w.heartbeatMs))
            ∧ (z.step p).shared.slots = slots := by
          simp [Alone.step, runStep, hcaller, Local.goto, recoverStep, Shared.clockMs, hnow, hslots]
        refine ⟨z.step p, hleads.trans (.one (recovering_goes r₁ (.claim w.heartbeatMs) _ ?_)), hrun.1, hrun.2,
          fun h hx => (hlater h hx).step⟩
        rw [hrun.1]
        rfl
      have h4 : x.Comes p Alone.returned (.recover r₁ (.recheck w.heartbeatMs))
          (Function.update slots r.slot { w with ownerId := -w.ownerId }) := by
        refine h3.next (fun s hs _ => ?_) (recovering_goes _ _)
        simp [runStep, Local.goto, recoverStep, Shared.setOwnerId, hs, hw, r₁]
      have h5 : x.Comes p Alone.returned (.recover r₁ .loadHandleCount)
          (Function.update slots r.slot { w with ownerId := -w.ownerId }) := by
        refine h4.next (fun s hs _ => ?_) (recovering_goes _ _)
        simp [runStep, Local.goto, recoverStep, hs, r₁]
      obtain ⟨z', r', hslot', hclient', hends⟩ := Alone.Comes.clears (r := r₁) hclient h5
      refine ⟨z', r', _, hslot', hclient', hends, fun j hj => ?_, ?_, fun _ _ => ?_⟩
      · show Function.update (Function.update slots r.slot _) r.slot (⟨0, 0, 0⟩ : Slot) j = slots j
        rw [Function.update_of_ne hj, Function.update_of_ne hj]
      · exact .inr (Function.update_self r.slot _ _)
      · exact Function.update_self r.slot _ _
    · -- not stale at this reading
      refine ⟨z, r₁, slots, rfl, hclient, .skip hclient hleads hcaller hslots hlater ?_,
        fun _ _ => rfl, .inl hw, fun _ hstale => absurd (hlater _ hstale 0) hnow⟩
      simp [recoverStep, Shared.clockMs, hnow]

/-- The loop over the slots, from slot `r.slot` on. -/
theorem Alone.Comes.recovers (n : Nat) {r : Recovery} (hclient : r.caller = .client)
    (hn : r.slot.val + n = memoryWriteAheadOwnerLeaseSlotCount - 1)
    (hcomes : x.Comes p Alone.returned (.recover r .loadOwnerId) slots) :
    ∃ fuel y, runUntil (Alone.step p) Alone.returned fuel x = some y
      ∧ y.caller = x.caller.goto .idle ∧ (∀ h, x.Stale p h → y.Stale p h)
      ∧ (∀ j, j.val < r.slot.val → y.shared.slots j = slots j)
      ∧ ∀ j, r.slot.val ≤ j.val → Swept p x (slots j) (y.shared.slots j) := by
  induction n generalizing r slots with
  | zero =>
      obtain ⟨z, r', slots', hslot, hclient', hends, hother, hswept⟩ := hcomes.sweeps hclient
      have hlast : nextSlot r'.slot = none := by
        unfold nextSlot
        rw [dif_neg (by rw [hslot]; omega)]
      have hidle : (z.step p).caller = x.caller.goto .idle := by
        rw [hends.caller, afterSlot, hlast]
      obtain ⟨fuel, hruns⟩ := hends.leads.ends (z := z.step p) rfl (by
        unfold Alone.returned
        rw [hidle]
        rfl)
      refine ⟨fuel, z.step p, hruns, hidle, hends.later, fun j hj => ?_, fun j hj => ?_⟩
      · rw [hends.slots_eq]
        exact hother j (by intro h; subst h; omega)
      · rw [hends.slots_eq]
        have hjslot : j = r.slot := Fin.ext (by have := j.isLt; omega)
        rw [hjslot]
        exact hswept
  | succ n ih =>
      obtain ⟨z, r', slots', hslot, hclient', hends, hother, hswept⟩ := hcomes.sweeps hclient
      have hlt : r.slot.val + 1 < memoryWriteAheadOwnerLeaseSlotCount := by omega
      have hnext : nextSlot r'.slot = some ⟨r.slot.val + 1, hlt⟩ := by
        unfold nextSlot
        rw [hslot, dif_pos hlt]
      have hgoes : (z.step p).caller
          = x.caller.goto (.recover { r' with slot := ⟨r.slot.val + 1, hlt⟩ } .loadOwnerId) := by
        rw [hends.caller, afterSlot, hnext]
      have hcomes' : x.Comes p Alone.returned
          (.recover { r' with slot := ⟨r.slot.val + 1, hlt⟩ } .loadOwnerId) slots' := by
        refine ⟨z.step p, hends.leads.trans (.one (recovering_goes
            { r' with slot := ⟨r.slot.val + 1, hlt⟩ } .loadOwnerId _ ?_)), hgoes,
          hends.slots_eq, hends.later⟩
        rw [hgoes]
        rfl
      obtain ⟨fuel, y, hruns, hidle, hlater, hbefore, hafter⟩ :=
        ih (r := { r' with slot := ⟨r.slot.val + 1, hlt⟩ }) hclient' (by simp only; omega) hcomes'
      refine ⟨fuel, y, hruns, hidle, hlater, fun j hj => ?_, fun j hj => ?_⟩
      · rw [hbefore j (by simp only; omega)]
        exact hother j (by intro h; subst h; omega)
      · rcases Nat.lt_or_ge r.slot.val j.val with hlater | hhere
        · rw [← hother j (by intro h; subst h; omega)]
          exact hafter j (by simp only; omega)
        · have hjslot : j = r.slot := Fin.ext (by omega)
          subst hjslot
          rw [hbefore r.slot (by simp only; omega)]
          exact hswept

/-- **Alone, a recovery and a scan claim an orphaned slot.** -/
theorem Alone.recoversAndClaims {i : SlotIndex} (horphan : (x.shared.slots i).Orphan p x) :
    RecoversAndClaims p x i := by
  obtain ⟨⟨hnonneg, howned, hcleared⟩, hunclaimed, hstale⟩ := horphan
  obtain ⟨fuel, y, hruns, hidle, hlater, _, hswept⟩ :=
    Alone.Comes.recovers (p := p) (x := x.recovering) (r := ⟨.client, 0, 0, 0⟩)
      (memoryWriteAheadOwnerLeaseSlotCount - 1) rfl rfl (.start rfl)
  obtain ⟨hwords, hfreed⟩ := hswept i (Nat.zero_le _)
  have hclaimable : (y.shared.slots i).Claimable p y := by
    by_cases hfree : (x.shared.slots i).ownerId = 0
    · rcases hwords with hsame | hzero
      · rw [hsame]
        exact ⟨hfree, hcleared hfree, fun h => hlater _ (hstale h)⟩
      · rw [hzero]
        exact ⟨rfl, fun _ => rfl, fun h => absurd rfl h⟩
    · rw [hfreed (by show 0 < (x.shared.slots i).ownerId; omega) (hstale (howned hfree))]
      exact ⟨rfl, fun _ => rfl, fun h => absurd rfl h⟩
  refine ⟨fuel, y, hruns, fun retried ownerId => ?_⟩
  exact Alone.claims ⟨retried, ownerId, i⟩ hclaimable

end

/-! ## §4. Every state that the deaths can leave behind. -/

section

variable {C : Contexts Ctx} {x : LeaseConfig Ctx × (Ctx → Bool)}

/-- In the state `x`, a context that is alive and between its calls can recover
and then claim every slot that no live context owns, once the heartbeats of all
these slots have become stale. -/
def SlotsReclaimable (C : Contexts Ctx) (x : LeaseConfig Ctx × (Ctx → Bool)) : Prop :=
  ∀ t (clock : Nat → Nat), x.2 t = false → (x.1.threads t).pc = .idle →
    (∀ j, ¬OwnedByLive x.1 x.2 j → heartbeat x.1.shared j ≠ 0 →
      Alone.Stale (C.params t) ⟨clock, x.1.shared, x.1.threads t⟩ (heartbeat x.1.shared j)) →
    ∀ i, ¬OwnedByLive x.1 x.2 i →
      RecoversAndClaims (C.params t) ⟨clock, x.1.shared, x.1.threads t⟩ i

/-- **No lease slot is stranded by a death**, where no step comes too late and no
context dies while its recovery holds a claim. -/
theorem no_slot_stranded [DecidableEq Ctx] (h : Reach C.machine.mortal KeepsShapes x) :
    SlotsReclaimable C x := by
  intro t clock halive hidle hstale i hfree
  have hinv := KeepsShapes.reach h
  refine Alone.recoversAndClaims ⟨hinv.shaped i, ?_, hstale i hfree⟩
  by_contra hneg
  -- a claim has a holder, and the holder is alive
  obtain ⟨u, hu⟩ := hinv.held i (Int.not_le.mp hneg)
  refine hfree ⟨u, ?_, .inr hu⟩
  by_contra hdead
  exact KeepsShapes.stopped h u (by simpa using hdead) i _ hu

end

/-! ## §5. A recovery that dies with its claim. -/

/-- What a run with deaths does next. -/
inductive MortalCmd (Ctx : Type) where
  | lives (k : Cmd Ctx)
  | dies (t : Ctx)

/-- The command's step, if it is open and allowed. -/
def mortalExec [DecidableEq Ctx] (C : Contexts Ctx)
    (ok : LeaseConfig Ctx × (Ctx → Bool) → MortalLabel Ctx Act → Prop)
    [∀ x label, Decidable (ok x label)] (x : LeaseConfig Ctx × (Ctx → Bool)) :
    MortalCmd Ctx → Option (LeaseConfig Ctx × (Ctx → Bool))
  | .dies t => if ok x (.dies t) then some (x.1, Function.update x.2 t true) else none
  | .lives (.context t choice) =>
      if x.2 t = true then none
      else
        (choose (C.params t) choice x.1.shared (x.1.threads t)).bind fun r =>
          if ok x (.lives (.thread t ⟨choice, r.2.2⟩)) then some (x.1.put t r.1 r.2.1, x.2)
          else none
  | .lives (.clock timeMs) =>
      if x.1.shared.timeMs ≤ timeMs ∧ ok x (.lives .env) then
        some ({ x.1 with shared := { x.1.shared with timeMs := timeMs } }, x.2)
      else none

theorem mortalExec_next [DecidableEq Ctx] (C : Contexts Ctx)
    (ok : LeaseConfig Ctx × (Ctx → Bool) → MortalLabel Ctx Act → Prop)
    [∀ x label, Decidable (ok x label)] (x : LeaseConfig Ctx × (Ctx → Bool)) (k : MortalCmd Ctx)
    (y : LeaseConfig Ctx × (Ctx → Bool)) (h : mortalExec C ok x k = some y) :
    ∃ label, ok x label ∧ C.machine.mortal.next x label y := by
  cases k with
  | dies t =>
      simp only [mortalExec] at h
      split at h
      next hok =>
        cases h
        exact ⟨.dies t, hok, .dies⟩
      next => cases h
  | lives k =>
      cases k with
      | context t choice =>
          simp only [mortalExec] at h
          split at h
          next => cases h
          next halive =>
            obtain ⟨⟨s, l, o⟩, hstep, hif⟩ := Option.bind_eq_some_iff.mp h
            split at hif
            next hok =>
              cases hif
              have halive' : x.2 t = false := by simpa using halive
              exact ⟨.lives (.thread t ⟨choice, o⟩), hok, .lives halive' (.thread hstep)⟩
            next => cases hif
      | clock timeMs =>
          simp only [mortalExec] at h
          split at h
          next hle =>
            cases h
            exact ⟨.lives .env, hle.2, .lives trivial (.env ⟨timeMs, hle.1, rfl⟩)⟩
          next => cases h

/-- A scan passes over a slot that has an owner word. -/
theorem Alone.scan_refused {p : Params} {y z : Alone} {k : Claim} {fuel : Nat}
    (howner : (y.shared.slots k.slot).ownerId ≠ 0)
    (hruns : runUntil (Alone.step p) (Alone.scanned k) fuel (y.scanning k) = some z) :
    z.caller.lease = y.caller.lease := by
  have hrun : runStep p { y.shared with timeMs := y.clock 0 } (y.scanning k).caller
      = nextClaim { y.shared with timeMs := y.clock 0 } (y.scanning k).caller k := by
    simp only [Alone.scanning, runStep, Local.goto, claimStep, if_pos howner]
  have hstep : Alone.step p (y.scanning k) = ⟨fun n => y.clock (n + 1),
      (nextClaim { y.shared with timeMs := y.clock 0 } (y.scanning k).caller k).1,
      (nextClaim { y.shared with timeMs := y.clock 0 } (y.scanning k).caller k).2.1⟩ := by
    rw [← hrun]
    rfl
  have hstop : Alone.scanned k (Alone.step p (y.scanning k)) = true := by
    rw [hstep]
    unfold Alone.scanned nextClaim nextSlot
    by_cases hlt : k.slot.val + 1 < memoryWriteAheadOwnerLeaseSlotCount
    · rw [dif_pos hlt]
      simp only [Local.goto, ne_eq, decide_not, Bool.not_eq_eq_eq_not, Bool.not_true,
        decide_eq_false_iff_not]
      intro hk
      have hslot := congrArg (fun k : Claim => k.slot.val) hk
      simp only at hslot
      omega
    · rw [dif_neg hlt]
      by_cases hretried : k.retried = true
      · simp [hretried, Local.goto]
      · simp [hretried, Local.goto]
  cases fuel with
  | zero => cases hruns
  | succ fuel =>
      simp only [runUntil, if_pos hstop, Option.some.injEq] at hruns
      rw [← hruns, hstep]
      exact (nextClaim_scans k).lease

/-- Three contexts; a heartbeat is stale after 5 ms. -/
def threeContexts : Contexts (Fin 3) where
  ownerId t k := 3 * k + t.val + 1
  owner_pos _ _ := by omega
  owner_inj t k u j h := by
    have ht := t.isLt
    have hu := u.isLt
    have hk : k = j := by omega
    exact ⟨Fin.ext (by omega), hk⟩
  staleMs := 5
  fileCount := 1

def threeStart : LeaseConfig (Fin 3) × (Fin 3 → Bool) :=
  (⟨⟨0, 0, fun _ => ⟨0, 0, 0⟩, fun _ _ => 0, 0⟩, fun _ => ⟨.idle, none, false, 0, true⟩⟩,
    fun _ => false)

theorem threeStart_reach
    (ok : LeaseConfig (Fin 3) × (Fin 3 → Bool) → MortalLabel (Fin 3) Act → Prop) :
    Reach threeContexts.machine.mortal ok threeStart :=
  .init ⟨⟨⟨rfl, rfl, fun _ => rfl⟩, fun _ => rfl⟩, fun _ => rfl⟩

/-- A call of a context and its next `n` steps. -/
def callOf (t : Fin 3) (choice : Choice) (n : Nat) : List (MortalCmd (Fin 3)) :=
  .lives (.context t choice) :: List.replicate n (.lives (.context t .step))

/-- No context calls for a reset. -/
def NoReset (_ : LeaseConfig Ctx × (Ctx → Bool)) : MortalLabel Ctx Act → Prop
  | .lives (.thread _ a) => a.choice ≠ .reset
  | _ => True

instance decidableNoReset (x : LeaseConfig Ctx × (Ctx → Bool)) (label : MortalLabel Ctx Act) :
    Decidable (NoReset x label) := by
  unfold NoReset
  split <;> infer_instance

instance decidableUnclaiming (g : Stage) : Decidable (Unclaiming g) :=
  match g with
  | .recovering i o => isFalse fun h => h i o (.inl rfl)
  | .draining i o n => isFalse fun h => h i o (.inr ⟨n, rfl⟩)
  | .rest => isTrue unclaiming_rest
  | .claimed _ _ => isTrue (unclaiming_of_stage (.inr (.inr ⟨_, _, rfl⟩)))
  | .adding | .added | .retained | .releasing | .loading | .subtracting _ | .reducing _ _
  | .clearing | .leaving => isTrue (unclaiming_of_stage (.inl rfl))

instance decidableCleared (c : LeaseConfig Ctx) (i : SlotIndex) : Decidable (Cleared c i) :=
  inferInstanceAs (Decidable (_ ∧ _))

instance decidableInTime (c : LeaseConfig Ctx) (t : Ctx) : Decidable (InTime c t) := by
  unfold InTime
  split <;> infer_instance

instance decidableKeepsShapes (x : LeaseConfig Ctx × (Ctx → Bool)) (label : MortalLabel Ctx Act) :
    Decidable (KeepsShapes x label) := by
  unfold KeepsShapes
  split <;> infer_instance

/-- Context 0 dies with its slot, context 1 in the middle of clearing it: the slot
has no owner, one handle and a heartbeat, and context 2 can claim it. -/
theorem no_slot_stranded_half_cleared :
    ∃ x, Reach threeContexts.machine.mortal KeepsShapes x ∧ x.2 0 = true ∧ x.2 1 = true
      ∧ owner x.1 0 = 0 ∧ count x.1 0 = 1 ∧ SlotsReclaimable threeContexts x := by
  obtain ⟨x, hx, h⟩ := (threeStart_reach KeepsShapes).exists_of_commands
    (mortalExec_next threeContexts KeepsShapes)
    (callOf 0 .retain 14 ++ .dies 0 :: .lives (.clock 10) :: callOf 1 .recover 9 ++ [.dies 1])
    (fun x => decide (x.2 0 = true ∧ x.2 1 = true ∧ owner x.1 0 = 0 ∧ count x.1 0 = 1))
    (by decide)
  obtain ⟨hzero, hone, howner, hcount⟩ := of_decide_eq_true h
  exact ⟨x, hx, hzero, hone, howner, hcount, no_slot_stranded hx⟩

/-- What context 2 can see after context 0 has died with slot 0 and context 1 with
its claim on it. -/
def ClaimLeft (x : LeaseConfig (Fin 3) × (Fin 3 → Bool)) : Bool :=
  decide (x.2 0 = true ∧ x.2 1 = true ∧ x.2 2 = false ∧ (x.1.threads 2).pc = .idle
      ∧ (x.1.threads 2).lease = none
      ∧ ∀ j, heartbeat x.1.shared j ≠ 0 → isStale 5 (heartbeat x.1.shared j) 20 = true)
    && (runUntil (Alone.step (threeContexts.params 2)) Alone.returned 50
        (Alone.recovering ⟨fun _ => 20, x.1.shared, x.1.threads 2⟩)).any
      fun y => decide ((y.shared.slots 0).ownerId ≠ 0 ∧ y.caller.lease = none)

/-- **A recovery that dies with its claim strands the slot.**  Context 0 retains a
handle and dies.  At 10 ms context 1 finds its heartbeat stale, puts its claim into
the owner word and dies.  Whatever context 2 does, slot 0 stays claimed. -/
theorem dead_claim_strands_slot :
    ∃ x, Reach threeContexts.machine.mortal NoReset x ∧ ¬SlotsReclaimable threeContexts x := by
  obtain ⟨x, hx, h⟩ := (threeStart_reach NoReset).exists_of_commands
    (mortalExec_next threeContexts NoReset)
    (callOf 0 .retain 14 ++ .dies 0 :: .lives (.clock 10) :: callOf 1 .recover 4 ++ [.dies 1])
    ClaimLeft (by decide)
  obtain ⟨hstate, hrecovered⟩ := Bool.and_eq_true_iff.mp h
  obtain ⟨hzero, hone, htwo, hidle, hlease, hstale⟩ := of_decide_eq_true hstate
  refine ⟨x, hx, fun hclaims => ?_⟩
  -- nobody alive owns a slot: context 2 has no lease and is between its calls
  have hnobody (j : SlotIndex) : ¬OwnedByLive x.1 x.2 j := by
    rintro ⟨u, halive, howns⟩
    have hu : u = 2 := by
      match u with
      | 0 => exact absurd (hzero.symm.trans halive) (by simp)
      | 1 => exact absurd (hone.symm.trans halive) (by simp)
      | 2 => rfl
    subst hu
    have hstage : (x.1.threads 2).stage = .rest := by rw [Local.stage, hidle]; rfl
    rcases howns with (hclaimed | ⟨lease, hsome, _⟩) | hrec
    · rw [hstage] at hclaimed
      cases hclaimed
    · rw [hlease] at hsome
      cases hsome
    · rw [hstage] at hrec
      exact unclaiming_rest _ _ hrec
  obtain ⟨fuel, y, hruns, hscans⟩ :=
    hclaims 2 (fun _ => 20) htwo hidle (fun j _ hbeat _ => hstale j hbeat) 0 (hnobody 0)
  obtain ⟨y', hruns', hleft⟩ := (Option.any_eq_true _ _).mp hrecovered
  obtain ⟨howner, hnone⟩ := of_decide_eq_true hleft
  obtain rfl := runUntil_unique hruns hruns'
  obtain ⟨fuel', z, hscan, hgot, _⟩ := hscans false 100
  have hkept := Alone.scan_refused howner hscan
  rw [hgot, hnone] at hkept
  cases hkept

end MemoryWriteAhead.Lease
