/-
  MemoryWriteAhead.Lease.Stages
  ─────────────────────────────
  **WHAT ONE STEP CAN DO TO THE ACCOUNTS.**

  For the accounts of a runtime it matters little where exactly a context is:
  `Pc.stage` keeps the twelve stages that do.  `Effect` lists everything that one
  atomic step can do to the counters, the owner words and the context's stage and
  lease, and `step_effect` shows that it is complete.

  Some stores of the source go to words that may have changed hands since they
  were last looked at.  `CalmStep` is the condition, on the state before the step,
  that such a store does not hit a slot that is now somebody else's; every effect
  that needs it carries it.
-/
import MemoryWriteAhead.Lease.Model

namespace MemoryWriteAhead.Lease

open Transition

/-! ## §1. Stages. -/

/-- What a context is doing, as far as the accounts are concerned. -/
inductive Stage where
  | rest
  /-- it has put its id into the slot and not yet stored the slot's handle count -/
  | claimed (i : SlotIndex) (ownerId : Int)
  /-- in a retain: before the open counter, between the counters, after them -/
  | adding
  | added
  | retained
  /-- in a release: before the owner word is loaded, before the handle count is
  loaded, before the handle is taken off the slot -/
  | releasing
  | loading
  | subtracting (slotHandleCount : Int)
  /-- the handle is off the slot and not yet off the open counter -/
  | reducing (slotHandleCount releasedHandleCount : Int)
  /-- before the owner word is cleared -/
  | clearing
  | leaving
  /-- in a recovery that has claimed the slot and not yet loaded its handle count -/
  | recovering (i : SlotIndex) (ownerId : Int)
  /-- in a recovery that has still to take `n` handles off the open counter -/
  | draining (i : SlotIndex) (ownerId n : Int)
  deriving DecidableEq

@[simp] def Pc.stage : Pc → Stage
  | .claim k .storeHandleCount => .claimed k.slot k.ownerId
  | .retainAddOpen => .adding
  | .retainAddHandle => .added
  | .beat .retain _ => .retained
  | .beat .release _ => .leaving
  | .release .loadOwnerId => .releasing
  | .release .loadHandleCount => .loading
  | .release (.subHandleCount n) => .subtracting n
  | .release .clearOwnerId => .clearing
  | .release .clearHandleCount => .leaving
  | .release .clearHeartbeat => .leaving
  | .reduceLoad (.release n) released => .reducing n released
  | .reduceSwap (.release n) released _ => .reducing n released
  | .reduceLoad (.recover r) released => .draining r.slot r.ownerId released
  | .reduceSwap (.recover r) released _ => .draining r.slot r.ownerId released
  | .recover r (.recheck _) => .recovering r.slot r.ownerId
  | .recover r .handBack => .recovering r.slot r.ownerId
  | .recover r .loadHandleCount => .recovering r.slot r.ownerId
  | .recover r (.clearOwnerId _) => .draining r.slot r.ownerId 0
  | _ => .rest

abbrev Local.stage (l : Local) : Stage := l.pc.stage

/-- The handles that are in the open counter for this context and in no slot. -/
def Stage.pending : Stage → Int
  | .added => 1
  | .reducing _ released => released
  | .draining _ _ n => n
  | _ => 0

def Stage.Drains (g : Stage) (i : SlotIndex) (ownerId : Int) : Prop :=
  ∃ n, g = .draining i ownerId n

def Stage.Recovers (g : Stage) (i : SlotIndex) (ownerId : Int) : Prop :=
  g = .recovering i ownerId ∨ g.Drains i ownerId

/-- The stages of a retain or release that works on the local lease. -/
@[simp] def Stage.onLease : Stage → Bool
  | .adding | .added | .retained | .releasing | .loading | .subtracting _ | .reducing _ _
  | .clearing | .leaving => true
  | _ => false

/-- The owner id of a context that has not found a slot for it yet. -/
def RecoverCaller.scanId : RecoverCaller → Option Int
  | .ensure ownerId => some ownerId
  | _ => none

def Pc.scanId : Pc → Option Int
  | .claim _ .storeHandleCount => none
  | .claim k _ => some k.ownerId
  | .recover r _ => r.caller.scanId
  | .reduceLoad (.recover r) _ => r.caller.scanId
  | .reduceSwap (.recover r) _ _ => r.caller.scanId
  | _ => none

/-- The number of a context's owner ids that have been in a slot or never will be. -/
def Local.usedIds (l : Local) : Nat :=
  if l.pc.scanId.isSome then l.ownerIdsCreated - 1 else l.ownerIdsCreated

/-- The last steps of a reset, which clear the runtime's words. -/
def ResetPc.clears : ResetPc → Bool
  | .loadOpenHandleCount | .storeFileMeta _ _ | .storeActiveSegmentCount _ => false
  | _ => true

def Pc.clears : Pc → Bool
  | .reset pc => pc.clears
  | _ => false

/-! ## §2. The calm steps. -/

variable {Ctx : Type}

abbrev LeaseConfig (Ctx : Type) := Config Ctx Shared Local

/-- The owner word of a slot. -/
abbrev owner (c : LeaseConfig Ctx) (i : SlotIndex) : Int := (c.shared.slots i).ownerId

/-- The handle count word of a slot. -/
abbrev count (c : LeaseConfig Ctx) (i : SlotIndex) : Int := (c.shared.slots i).handleCount

/-- The slot is the lease's: its word is the lease's id, or a claim on it whose
recovery has not loaded the handle count yet. -/
def Owned (c : LeaseConfig Ctx) (lease : LocalRuntimeLease) : Prop :=
  owner c lease.slotIndex = lease.ownerId ∨ owner c lease.slotIndex = -lease.ownerId
    ∧ ∀ u, ¬(c.threads u).stage.Drains lease.slotIndex lease.ownerId

/-- The owner word is the id, a claim on it, or 0. -/
def OwnOrFree (c : LeaseConfig Ctx) (i : SlotIndex) (ownerId : Int) : Prop :=
  owner c i = 0 ∨ owner c i = ownerId ∨ owner c i = -ownerId

/-- Storing 0 into the slot's handle count takes nothing from an owner. -/
def Clearable (c : LeaseConfig Ctx) (i : SlotIndex) : Prop := owner c i = 0 ∨ count c i = 0

/-- The condition on the next atomic step of context `t`: a store finds the slot as the
context has seen it.  That nobody changes the handle count of somebody else's slot is
little more than this; what it takes the invariant for are the sums. -/
def CalmStep (c : LeaseConfig Ctx) (t : Ctx) : Prop :=
  match (c.threads t).pc with
  | .claim k .storeHandleCount => OwnOrFree c k.slot k.ownerId ∨ count c k.slot = 0
  | .retainAddHandle => ∀ lease, (c.threads t).lease = some lease → Owned c lease
  | .release (.subHandleCount _) => ∀ lease, (c.threads t).lease = some lease → Owned c lease
  | .release .clearOwnerId =>
      ∀ lease, (c.threads t).lease = some lease → OwnOrFree c lease.slotIndex lease.ownerId
  | .release .clearHandleCount =>
      ∀ lease, (c.threads t).lease = some lease → Clearable c lease.slotIndex
  | .recover r .handBack => owner c r.slot = -r.ownerId
  | .recover r .loadHandleCount =>
      owner c r.slot = -r.ownerId ∧ (∀ u, (c.threads u).stage ≠ .claimed r.slot r.ownerId)
        ∨ count c r.slot ≤ 0
  | .recover r (.clearOwnerId _) => owner c r.slot = 0 ∨ owner c r.slot = -r.ownerId
  | .recover r (.clearHandleCount _) => Clearable c r.slot
  | _ => True

/-! ## §3. The effects. -/

/-- The counters and owner words are the same. -/
structure SameCounts (s s' : Shared) : Prop where
  openHandleCount : s'.openHandleCount = s.openHandleCount
  ownerId : ∀ i, (s'.slots i).ownerId = (s.slots i).ownerId
  handleCount : ∀ i, (s'.slots i).handleCount = (s.slots i).handleCount

/-- What `reduceOpenHandleCount` does to the open counter when it is done. -/
def Reduced (n : Int) (s s' : Shared) : Prop :=
  s' = { s with openHandleCount := max 0 (s.openHandleCount - n) }
    ∨ s.openHandleCount ≤ 0 ∧ s' = s

/-- The lease after the end of a release. -/
def finishedLease (lease : LocalRuntimeLease) : Option LocalRuntimeLease :=
  if lease.handleCount = 0 then none else some lease

/-- The stage after the handle is off the open counter. -/
def afterSubStage (lease : LocalRuntimeLease) (slotHandleCount : Int) : Stage :=
  if slotHandleCount ≤ 1 ∧ lease.handleCount = 0 then .clearing else .leaving

/-- Everything that one step of context `t` can do. -/
inductive Effect (C : Contexts Ctx) (c : LeaseConfig Ctx) (t : Ctx) (s' : Shared) (l' : Local) :
    Prop
  | quiet : SameCounts c.shared s' → l'.stage = (c.threads t).stage →
      l'.lease = (c.threads t).lease → Effect C c t s' l'
  | beginRetain (lease : LocalRuntimeLease) : (c.threads t).stage = .rest →
      (c.threads t).lease = some lease → s' = c.shared → l'.stage = .adding →
      l'.lease = some { lease with handleCount := lease.handleCount + 1 } → Effect C c t s' l'
  | beginRelease (lease : LocalRuntimeLease) : (c.threads t).stage = .rest →
      (c.threads t).lease = some lease → s' = c.shared → l'.stage = .releasing →
      l'.lease = some { lease with handleCount := lease.handleCount - 1 } → Effect C c t s' l'
  | take (i : SlotIndex) (ownerId : Int) : (c.threads t).stage = .rest →
      (c.threads t).pc.scanId = some ownerId → owner c i = 0 →
      s' = c.shared.setOwnerId i ownerId → l'.stage = .claimed i ownerId →
      l'.lease = (c.threads t).lease → l'.usedIds = (c.threads t).ownerIdsCreated →
      Effect C c t s' l'
  | openLease (i : SlotIndex) (ownerId : Int) : (c.threads t).stage = .claimed i ownerId →
      OwnOrFree c i ownerId ∨ count c i = 0 → s' = c.shared.setHandleCount i 0 →
      l'.stage = .adding → l'.lease = some ⟨1, ownerId, i⟩ → Effect C c t s' l'
  | addOpen : (c.threads t).stage = .adding →
      s' = { c.shared with openHandleCount := c.shared.openHandleCount + 1 } →
      l'.stage = .added → l'.lease = (c.threads t).lease → Effect C c t s' l'
  | addHandle (lease : LocalRuntimeLease) : (c.threads t).stage = .added →
      (c.threads t).lease = some lease → Owned c lease →
      s' = c.shared.setHandleCount lease.slotIndex (count c lease.slotIndex + 1) →
      l'.stage = .retained → l'.lease = some lease → Effect C c t s' l'
  | endRetain : (c.threads t).stage = .retained → SameCounts c.shared s' →
      l'.stage = .rest → l'.lease = (c.threads t).lease → Effect C c t s' l'
  | skip (lease : LocalRuntimeLease) : (c.threads t).stage = .releasing →
      (c.threads t).lease = some lease → owner c lease.slotIndex ≠ lease.ownerId →
      s' = c.shared → l'.stage = .rest → l'.lease = finishedLease lease → Effect C c t s' l'
  | load (lease : LocalRuntimeLease) : (c.threads t).stage = .releasing →
      (c.threads t).lease = some lease → owner c lease.slotIndex = lease.ownerId →
      s' = c.shared → l'.stage = .loading → l'.lease = some lease → Effect C c t s' l'
  | loadHandles (lease : LocalRuntimeLease) : (c.threads t).stage = .loading →
      (c.threads t).lease = some lease → 0 < count c lease.slotIndex → s' = c.shared →
      l'.stage = .subtracting (count c lease.slotIndex) → l'.lease = some lease →
      Effect C c t s' l'
  | loadNothing (lease : LocalRuntimeLease) : (c.threads t).stage = .loading →
      (c.threads t).lease = some lease → count c lease.slotIndex ≤ 0 → s' = c.shared →
      l'.stage = afterSubStage lease (count c lease.slotIndex) → l'.lease = some lease →
      Effect C c t s' l'
  | sub (lease : LocalRuntimeLease) (n : Int) : (c.threads t).stage = .subtracting n →
      (c.threads t).lease = some lease → Owned c lease →
      s' = c.shared.setHandleCount lease.slotIndex (count c lease.slotIndex - 1) →
      l'.stage = .reducing n 1 → l'.lease = some lease → Effect C c t s' l'
  | reduced (lease : LocalRuntimeLease) (n released : Int) :
      (c.threads t).stage = .reducing n released → (c.threads t).lease = some lease →
      Reduced released c.shared s' → l'.stage = afterSubStage lease n →
      l'.lease = some lease → Effect C c t s' l'
  | clear (lease : LocalRuntimeLease) : (c.threads t).stage = .clearing →
      (c.threads t).lease = some lease → OwnOrFree c lease.slotIndex lease.ownerId →
      s' = c.shared.setOwnerId lease.slotIndex 0 → l'.stage = .leaving →
      l'.lease = some lease → Effect C c t s' l'
  | wipe (i : SlotIndex) : Clearable c i → s' = c.shared.setHandleCount i 0 →
      l'.stage = (c.threads t).stage → l'.lease = (c.threads t).lease → Effect C c t s' l'
  | leave (lease : LocalRuntimeLease) : (c.threads t).stage = .leaving →
      (c.threads t).lease = some lease → SameCounts c.shared s' → l'.stage = .rest →
      l'.lease = finishedLease lease → Effect C c t s' l'
  | claimBack (i : SlotIndex) (ownerId : Int) : (c.threads t).stage = .rest →
      owner c i = ownerId → 0 < ownerId → s' = c.shared.setOwnerId i (-ownerId) →
      l'.stage = .recovering i ownerId → l'.lease = (c.threads t).lease → Effect C c t s' l'
  | handBack (i : SlotIndex) (ownerId : Int) : (c.threads t).stage = .recovering i ownerId →
      owner c i = -ownerId → s' = c.shared.setOwnerId i ownerId → l'.stage = .rest →
      l'.lease = (c.threads t).lease → Effect C c t s' l'
  | drain (i : SlotIndex) (ownerId : Int) : (c.threads t).stage = .recovering i ownerId →
      owner c i = -ownerId ∧ (∀ u, (c.threads u).stage ≠ .claimed i ownerId) ∨ count c i ≤ 0 →
      s' = c.shared → l'.stage = .draining i ownerId (max 0 (count c i)) →
      l'.lease = (c.threads t).lease → Effect C c t s' l'
  | drained (i : SlotIndex) (ownerId n : Int) : (c.threads t).stage = .draining i ownerId n →
      Reduced n c.shared s' → l'.stage = .draining i ownerId 0 →
      l'.lease = (c.threads t).lease → Effect C c t s' l'
  | free (i : SlotIndex) (ownerId : Int) : (c.threads t).stage = .draining i ownerId 0 →
      owner c i = 0 ∨ owner c i = -ownerId → s' = c.shared.setOwnerId i 0 →
      l'.stage = .rest → l'.lease = (c.threads t).lease → Effect C c t s' l'

/-! ## §4. What a context knows by itself. -/

/-- The owner ids that a program counter has found positive. -/
def Pc.Positive : Pc → Prop
  | .recover r .loadHeartbeat => 0 < r.ownerId
  | .recover r (.readAge _) => 0 < r.ownerId
  | .recover r (.claim _) => 0 < r.ownerId
  | .terminatedLoad ownerId _ => 0 < ownerId
  | .terminatedClaim ownerId _ => 0 < ownerId
  | _ => True

structure LocalInv (C : Contexts Ctx) (t : Ctx) (l : Local) : Prop where
  positive : l.pc.Positive
  scan : ∀ ownerId, l.pc.scanId = some ownerId →
    l.lease = none ∧ ∃ k, ownerId = C.ownerId t k ∧ l.ownerIdsCreated = k + 1
  lease : l.stage.onLease = true → l.lease.isSome = true

section

variable {C : Contexts Ctx} {t : Ctx} {s : Shared} {l : Local}

/-- The local state after a step: it knows what it has to, and no owner id has
become unused. -/
structure LocalNext (C : Contexts Ctx) (t : Ctx) (l l' : Local) : Prop where
  inv : LocalInv C t l'
  used : l.usedIds ≤ l'.usedIds

theorem usedIds_le_of_none {l' : Local} (hscan : l'.pc.scanId = none)
    (hids : l'.ownerIdsCreated = l.ownerIdsCreated) : l.usedIds ≤ l'.usedIds := by
  unfold Local.usedIds
  rw [hscan, hids]
  show _ ≤ l.ownerIdsCreated
  split <;> omega

/-- A program counter that asks nothing of the context. -/
theorem LocalInv.free {pc : Pc} (h : LocalInv C t l) (hpos : pc.Positive)
    (hscan : pc.scanId = none ∨ pc.scanId = l.pc.scanId)
    (hlease : pc.stage.onLease = true → l.lease.isSome = true) : LocalNext C t l (l.goto pc) := by
  refine ⟨⟨hpos, fun ownerId hid => ?_, hlease⟩, ?_⟩
  · rcases hscan with hnone | hsame
    · exact absurd hid (by simp [Local.goto, hnone])
    · exact h.scan ownerId (hsame ▸ hid)
  · rcases hscan with hnone | hsame
    · exact usedIds_le_of_none hnone rfl
    · unfold Local.usedIds
      show _ ≤ if pc.scanId.isSome then l.ownerIdsCreated - 1 else l.ownerIdsCreated
      exact Nat.le_of_eq (by rw [hsame])

theorem endRecover_local {r : Recovery} (h : LocalInv C t l)
    (hscan : l.pc.scanId = r.caller.scanId) : LocalNext C t l (endRecover s l r).2.1 := by
  unfold endRecover
  cases hcaller : r.caller with
  | client => exact h.free trivial (.inl rfl) (by simp [Pc.stage, Stage.onLease])
  | terminated => exact h.free trivial (.inl rfl) (by simp [Pc.stage, Stage.onLease])
  | reset => exact h.free trivial (.inl rfl) (by simp [Pc.stage, Stage.onLease])
  | ensure ownerId =>
      rw [hcaller] at hscan
      exact h.free trivial (.inr hscan.symm) (by simp [Pc.stage, Stage.onLease])

theorem nextRecover_local {r : Recovery} (h : LocalInv C t l)
    (hscan : l.pc.scanId = r.caller.scanId) : LocalNext C t l (nextRecover s l r).2.1 := by
  unfold nextRecover
  split
  · exact h.free trivial (.inr hscan.symm) (by simp [Pc.stage, Stage.onLease])
  · exact endRecover_local h hscan

theorem nextClaim_local {k : Claim} (h : LocalInv C t l)
    (hscan : l.pc.scanId = some k.ownerId) : LocalNext C t l (nextClaim s l k).2.1 := by
  unfold nextClaim
  split
  · exact h.free trivial (.inr hscan.symm) (by simp [Pc.stage, Stage.onLease])
  · split
    · exact h.free trivial (.inl rfl) (by simp [Pc.stage, Stage.onLease])
    · exact h.free trivial (.inr hscan.symm) (by simp [Pc.stage, Stage.onLease])

/-- Where the new program counter says what the old one says. -/
theorem LocalInv.stay {pc : Pc} (h : LocalInv C t l) (hpos : pc.Positive)
    (hscan : pc.scanId = l.pc.scanId) (hlease : pc.stage.onLease = false) :
    LocalNext C t l (l.goto pc) :=
  h.free hpos (.inr hscan) fun h => absurd h (by rw [hlease]; exact Bool.false_ne_true)

theorem claimStep_local {p : Params} {k : Claim} {pc : ClaimPc} (h : LocalInv C t l)
    (hl : l.pc = .claim k pc) : LocalNext C t l (claimStep p s l k pc).2.1 := by
  cases pc with
  | storeHandleCount =>
      refine ⟨⟨trivial, fun ownerId hid => ?_, fun _ => rfl⟩, usedIds_le_of_none rfl rfl⟩
      cases (show (none : Option Int) = some ownerId from hid)
  | takeSlot =>
      have hscan : l.pc.scanId = some k.ownerId := by rw [hl]; rfl
      simp only [claimStep]
      split
      · exact h.free trivial (.inl rfl) (by simp [Pc.stage, Stage.onLease])
      · exact nextClaim_local h hscan
  | loadOwnerId | loadHeartbeat | readAge | loadHandleCount | reloadHeartbeat | readClock
  | storeHeartbeat =>
      have hscan : l.pc.scanId = some k.ownerId := by rw [hl]; rfl
      simp only [claimStep]
      repeat' split
      all_goals first
        | exact nextClaim_local h hscan
        | exact h.stay trivial hscan.symm rfl

/-- The end of a call leaves nothing behind. -/
theorem idle_local {l' : Local} (h : l'.pc = .idle)
    (hids : l'.ownerIdsCreated = l.ownerIdsCreated) : LocalNext C t l l' := by
  refine ⟨⟨?_, fun _ hid => ?_, fun hstage => ?_⟩, usedIds_le_of_none (by rw [h]; rfl) hids⟩
  · rw [h]; trivial
  · rw [h] at hid; cases hid
  · unfold Local.stage at hstage
    rw [h] at hstage
    cases hstage

theorem finishRelease_local : LocalNext C t l (finishRelease l) := idle_local rfl rfl

theorem endBeat_local {lease : LocalRuntimeLease} {updated : Bool} {caller : BeatCaller} :
    LocalNext C t l (endBeat s l lease updated caller).2.1 := by
  cases caller with
  | retain => exact idle_local rfl rfl
  | release => exact finishRelease_local
  | timer => exact idle_local rfl rfl

theorem beatStep_local {lease : LocalRuntimeLease} {caller : BeatCaller} {pc : BeatPc}
    (h : LocalInv C t l) (hlease : l.lease = some lease) :
    LocalNext C t l (beatStep s l lease caller pc).2.1 := by
  have hgo (pc : BeatPc) : LocalNext C t l (l.goto (.beat caller pc)) :=
    h.free trivial (.inl rfl) fun _ => by rw [hlease]; rfl
  cases pc with
  | loadOwnerId =>
      simp only [beatStep]
      split
      · exact endBeat_local
      · exact hgo _
  | readClock => exact hgo _
  | storeHeartbeat nowMs => exact endBeat_local

theorem afterSub_local {lease : LocalRuntimeLease} {n : Int} (h : LocalInv C t l)
    (hlease : l.lease = some lease) : LocalNext C t l (afterSub s l lease n).2.1 := by
  unfold afterSub
  split
  · exact h.free trivial (.inl rfl) fun _ => by rw [hlease]; rfl
  · exact h.free trivial (.inl rfl) fun _ => by rw [hlease]; rfl

theorem releaseStep_local {lease : LocalRuntimeLease} {pc : ReleasePc} (h : LocalInv C t l)
    (hlease : l.lease = some lease) : LocalNext C t l (releaseStep s l lease pc).2.1 := by
  have hgo (pc : Pc) (hpos : pc.Positive) (hscan : pc.scanId = none) :
      LocalNext C t l (l.goto pc) := h.free hpos (.inl hscan) fun _ => by rw [hlease]; rfl
  cases pc with
  | loadOwnerId =>
      simp only [releaseStep]
      split
      · exact hgo _ trivial rfl
      · exact finishRelease_local
  | loadHandleCount =>
      simp only [releaseStep]
      split
      · exact hgo _ trivial rfl
      · exact afterSub_local h hlease
  | subHandleCount n => exact hgo _ trivial rfl
  | clearOwnerId => exact hgo _ trivial rfl
  | clearHandleCount => exact hgo _ trivial rfl
  | clearHeartbeat => exact finishRelease_local

theorem endReduce_local {caller : ReduceCaller} {removed : Int} (h : LocalInv C t l)
    (hscan : ∀ r, caller = .recover r → l.pc.scanId = r.caller.scanId) :
    LocalNext C t l (endReduce s l removed caller).2.1 := by
  cases caller with
  | release n =>
      simp only [endReduce]
      split
      next lease hlease => exact afterSub_local h hlease
      next => exact idle_local rfl rfl
  | recover r => exact h.stay trivial (hscan r rfl).symm rfl

theorem reduceLoop_local {caller : ReduceCaller} {released current : Int} (h : LocalInv C t l)
    (hscan : ∀ r, caller = .recover r → l.pc.scanId = r.caller.scanId)
    (hlease : ∀ n, caller = .release n → l.lease.isSome = true) :
    LocalNext C t l (reduceLoop s l caller released current).2.1 := by
  unfold reduceLoop
  split
  · cases caller with
    | release n => exact h.free trivial (.inl rfl) fun _ => hlease n rfl
    | recover r => exact h.stay trivial (hscan r rfl).symm rfl
  · exact endReduce_local h hscan

theorem recoverStep_local {p : Params} {r : Recovery} {pc : RecoverPc} (h : LocalInv C t l)
    (hl : l.pc = .recover r pc) : LocalNext C t l (recoverStep p s l r pc).2.1 := by
  have hscan : l.pc.scanId = r.caller.scanId := by rw [hl]; rfl
  have hpos := h.positive
  rw [hl] at hpos
  cases pc with
  | loadOwnerId =>
      simp only [recoverStep]
      split
      · exact nextRecover_local h hscan
      next hlt => exact h.stay (show 0 < (s.slots r.slot).ownerId by omega) hscan.symm rfl
  | loadHeartbeat => exact h.stay hpos hscan.symm rfl
  | readAge staleHeartbeat =>
      simp only [recoverStep]
      split
      · exact h.stay hpos hscan.symm rfl
      · exact nextRecover_local h hscan
  | claim staleHeartbeat =>
      simp only [recoverStep]
      split
      · exact h.stay trivial hscan.symm rfl
      · exact nextRecover_local h hscan
  | recheck staleHeartbeat =>
      simp only [recoverStep]
      split <;> exact h.stay trivial hscan.symm rfl
  | handBack => exact nextRecover_local h hscan
  | loadHandleCount =>
      simp only [recoverStep]
      split
      · exact h.stay trivial hscan.symm rfl
      · exact h.stay trivial hscan.symm rfl
  | clearOwnerId | clearHandleCount | clearHeartbeat => exact h.stay trivial hscan.symm rfl
  | addRecovered released =>
      simp only [recoverStep]
      split
      · exact endRecover_local h hscan
      · exact nextRecover_local h hscan

theorem resetStep_local {p : Params} {pc : ResetPc} (h : LocalInv C t l) :
    LocalNext C t l (resetStep p s l pc).2.1 := by
  have hgo (pc : ResetPc) : LocalNext C t l (l.goto (.reset pc)) :=
    h.free trivial (.inl rfl) (by simp [Pc.stage, Stage.onLease])
  cases pc with
  | loadOpenHandleCount =>
      simp only [resetStep]
      split
      · exact idle_local rfl rfl
      · exact hgo _
  | clearHeartbeat i =>
      simp only [resetStep]
      split
      · exact hgo _
      · exact idle_local rfl rfl
  | storeFileMeta | storeActiveSegmentCount | storeOpenHandleCount | storeRecovered
  | clearOwnerId | clearHandleCount => exact hgo _

/-- **An atomic step keeps what the context knows by itself.** -/
theorem runStep_local (h : LocalInv C t l) :
    LocalNext C t l (runStep (C.params t) s l).2.1 := by
  unfold runStep
  split
  next hl => exact ⟨h, Nat.le_refl _⟩
  next k pc hl => exact claimStep_local h hl
  next hl => 
    have hlease := h.lease (by unfold Local.stage; rw [hl]; rfl)
    exact h.free trivial (.inl rfl) fun _ => hlease
  next lease hl hlease => exact h.free trivial (.inl rfl) fun _ => by rw [hlease]; rfl
  next caller pc lease hl hlease => exact beatStep_local h hlease
  next pc lease hl hlease => exact releaseStep_local h hlease
  next caller released hl =>
    refine reduceLoop_local h (fun r hr => by rw [hl, hr]; rfl) fun n hn => ?_
    exact h.lease (by unfold Local.stage; rw [hl, hn]; rfl)
  next caller released current hl =>
    have hscan (r : Recovery) (hr : caller = .recover r) : l.pc.scanId = r.caller.scanId := by
      rw [hl, hr]; rfl
    unfold reduceSwapStep
    simp only
    split
    · exact endReduce_local h hscan
    · refine reduceLoop_local h hscan fun n hn => ?_
      exact h.lease (by unfold Local.stage; rw [hl, hn]; rfl)
  next r pc hl => exact recoverStep_local h hl
  next ownerId i hl =>
    have hpos := h.positive
    rw [hl] at hpos
    split
    · exact h.free hpos (.inl rfl) (by simp [Pc.stage, Stage.onLease])
    · split
      · exact h.free hpos (.inl rfl) (by simp [Pc.stage, Stage.onLease])
      · exact idle_local rfl rfl
  next ownerId i hl =>
    split
    · exact h.free trivial (.inl rfl) (by simp [Pc.stage, Stage.onLease])
    · exact idle_local rfl rfl
  next pc hl => exact resetStep_local h
  next => exact idle_local rfl rfl

/-- How a call starts. -/
inductive Start (p : Params) (l : Local) : Local → Prop
  | retain (lease : LocalRuntimeLease) : l.lease = some lease → Start p l
      { l with
        pc := .retainAddOpen
        lease := some { lease with handleCount := lease.handleCount + 1 } }
  | claim : l.lease = none → Start p l
      { l with
        pc := .claim ⟨false, p.ownerId l.ownerIdsCreated, 0⟩ .loadOwnerId
        ownerIdsCreated := l.ownerIdsCreated + 1 }
  | release (lease : LocalRuntimeLease) : l.lease = some lease → Start p l
      { l with
        pc := .release .loadOwnerId
        lease := some { lease with handleCount := lease.handleCount - 1 } }
  | plain (pc : Pc) : pc.stage = .rest → pc.scanId = none → pc.Positive → pc.clears = false →
      Start p l (l.goto pc)

/-- **A choice is an atomic step of the running call, or starts a call.** -/
theorem choose_cases {p : Params} {choice : Choice} {s' : Shared} {l' : Local}
    {o : Option Outcome} (hr : choose p choice s l = some (s', l', o)) :
    (choice = .step ∧ (s', l', o) = runStep p s l)
      ∨ (choice ≠ .step ∧ l.pc = .idle ∧ s' = s ∧ Start p l l') := by
  unfold choose at hr
  split at hr
  next hstep =>
    split at hr
    · cases hr
    · exact .inl ⟨hstep, (Option.some.inj hr).symm⟩
  next hstep =>
    split at hr
    · cases hr
    next hbusy =>
      have hidle : l.pc = .idle := Classical.not_not.mp hbusy
      have hsame : l.goto .idle = l := by
        cases l
        simp only at hidle
        rw [hidle]
        rfl
      have hplain (pc : Pc) (h : pc.stage = .rest ∧ pc.scanId = none ∧ pc.Positive
          ∧ pc.clears = false) : Start p l (l.goto pc) := .plain pc h.1 h.2.1 h.2.2.1 h.2.2.2
      have hnothing : Start p l l := by
        have h := hplain .idle ⟨rfl, rfl, trivial, rfl⟩
        rwa [hsame] at h
      have hplainEnd {pc : Pc} {o' : Option Outcome}
          (heq : some (s, l.goto pc, o') = some (s', l', o)) (h : pc.stage = .rest
          ∧ pc.scanId = none ∧ pc.Positive ∧ pc.clears = false) : s' = s ∧ Start p l l' := by
        simp only [Option.some.injEq, Prod.mk.injEq] at heq
        exact ⟨heq.1.symm, heq.2.1 ▸ hplain pc h⟩
      have hnothingEnd {o' : Option Outcome} (heq : some (s, l, o') = some (s', l', o)) :
          s' = s ∧ Start p l l' := by
        simp only [Option.some.injEq, Prod.mk.injEq] at heq
        exact ⟨heq.1.symm, heq.2.1 ▸ hnothing⟩
      refine .inr ⟨hstep, hidle, ?_⟩
      split at hr
      next lease hlease =>
        simp only [Option.some.injEq, Prod.mk.injEq] at hr
        exact ⟨hr.1.symm, hr.2.1 ▸ .retain lease hlease⟩
      next hlease =>
        simp only [Option.some.injEq, Prod.mk.injEq] at hr
        exact ⟨hr.1.symm, hr.2.1 ▸ .claim hlease⟩
      next lease hlease =>
        simp only [Option.some.injEq, Prod.mk.injEq] at hr
        exact ⟨hr.1.symm, hr.2.1 ▸ .release lease hlease⟩
      next => exact hnothingEnd hr
      next =>
        split at hr
        · exact hplainEnd hr ⟨rfl, rfl, trivial, rfl⟩
        · cases hr
      next => cases hr
      next => exact hplainEnd hr ⟨rfl, rfl, trivial, rfl⟩
      next ownerId _ =>
        split at hr
        · exact hnothingEnd hr
        next hpos => exact hplainEnd hr ⟨rfl, rfl, Int.not_le.mp hpos, rfl⟩
      next =>
        split at hr
        · exact hplainEnd hr ⟨rfl, rfl, trivial, rfl⟩
        · exact hnothingEnd hr
      next => cases hr

/-- **Every choice keeps it.** -/
theorem choose_local {choice : Choice} {s' : Shared} {l' : Local} {o : Option Outcome}
    (h : LocalInv C t l) (hr : choose (C.params t) choice s l = some (s', l', o)) :
    LocalNext C t l l' := by
  rcases choose_cases hr with ⟨-, hrun⟩ | ⟨-, hidle, -, hstart⟩
  · rw [show l' = (runStep (C.params t) s l).2.1 by rw [← hrun]]
    exact runStep_local h
  · cases hstart with
    | retain lease hlease =>
        exact ⟨⟨trivial, fun _ hid => absurd hid (by simp [Pc.scanId]), fun _ => rfl⟩,
          usedIds_le_of_none rfl rfl⟩
    | claim hlease =>
        refine ⟨⟨trivial, fun ownerId hid => ⟨hlease, l.ownerIdsCreated, ?_, rfl⟩, fun h => ?_⟩, ?_⟩
        · exact (Option.some.inj hid).symm
        · cases h
        · unfold Local.usedIds
          rw [hidle]
          exact Nat.le_refl _
    | release lease hlease =>
        exact ⟨⟨trivial, fun _ hid => absurd hid (by simp [Pc.scanId]), fun _ => rfl⟩,
          usedIds_le_of_none rfl rfl⟩
    | plain pc hstage hscan hpos _ =>
        exact h.free hpos (.inl hscan) fun hon => absurd hon (by rw [hstage]; simp [Stage.onLease])

end

/-! ## §5. Every step is one of the effects. -/

theorem SameCounts.rfl {s : Shared} : SameCounts s s := ⟨Eq.refl _, fun _ => Eq.refl _,
  fun _ => Eq.refl _⟩

theorem setHeartbeatMs_same (s : Shared) (i : SlotIndex) (v : Int) :
    SameCounts s (s.setHeartbeatMs i v) := by
  have hslot (j : SlotIndex) : ((s.setHeartbeatMs i v).slots j).ownerId = (s.slots j).ownerId
      ∧ ((s.setHeartbeatMs i v).slots j).handleCount = (s.slots j).handleCount := by
    unfold Shared.setHeartbeatMs
    by_cases hj : j = i
    · subst hj
      simp
    · simp [hj]
  exact ⟨Eq.refl _, fun j => (hslot j).1, fun j => (hslot j).2⟩

section

variable {C : Contexts Ctx} {s : Shared} {l : Local}

/-- Going on with a scan touches nothing. -/
structure Scans (s : Shared) (l : Local) (r : Step) : Prop where
  shared : r.1 = s
  stage : r.2.1.stage = .rest
  lease : r.2.1.lease = l.lease

theorem endRecover_scans (r : Recovery) : Scans s l (endRecover s l r) := by
  unfold endRecover
  split <;> exact ⟨rfl, rfl, rfl⟩

theorem nextRecover_scans (r : Recovery) : Scans s l (nextRecover s l r) := by
  unfold nextRecover
  split
  · exact ⟨rfl, rfl, rfl⟩
  · exact endRecover_scans r

theorem nextClaim_scans (k : Claim) : Scans s l (nextClaim s l k) := by
  unfold nextClaim
  split
  · exact ⟨rfl, rfl, rfl⟩
  · split <;> exact ⟨rfl, rfl, rfl⟩

end

section

variable {C : Contexts Ctx} {c : LeaseConfig Ctx} {t : Ctx}

theorem Scans.effect {r : Step} (h : Scans c.shared (c.threads t) r)
    (hstage : (c.threads t).stage = .rest) : Effect C c t r.1 r.2.1 :=
  .quiet (by rw [h.shared]; exact .rfl) (h.stage.trans hstage.symm) h.lease

theorem claimStep_effect {k : Claim} {pc : ClaimPc} (hl : (c.threads t).pc = .claim k pc)
    (hcalm : CalmStep c t) :
    Effect C c t (claimStep (C.params t) c.shared (c.threads t) k pc).1
      (claimStep (C.params t) c.shared (c.threads t) k pc).2.1 := by
  cases pc with
  | storeHandleCount =>
      unfold CalmStep at hcalm
      rw [hl] at hcalm
      exact .openLease k.slot k.ownerId (by rw [Local.stage, hl]; rfl) hcalm rfl rfl rfl
  | takeSlot =>
      have hstage : (c.threads t).stage = .rest := by rw [Local.stage, hl]; rfl
      simp only [claimStep]
      split
      next hfree =>
        exact .take k.slot k.ownerId hstage (by rw [hl]; rfl) hfree rfl rfl rfl rfl
      · exact (nextClaim_scans k).effect hstage
  | storeHeartbeat nowMs =>
      exact .quiet (setHeartbeatMs_same _ _ _) (by rw [Local.stage, Local.stage, hl]; rfl) rfl
  | loadOwnerId | loadHeartbeat | readAge | loadHandleCount | reloadHeartbeat | readClock =>
      have hstage : (c.threads t).stage = .rest := by rw [Local.stage, hl]; rfl
      simp only [claimStep]
      repeat' split
      all_goals first
        | exact (nextClaim_scans k).effect hstage
        | exact .quiet .rfl hstage.symm rfl

theorem beatStep_effect {lease : LocalRuntimeLease} {caller : BeatCaller} {pc : BeatPc}
    (hl : (c.threads t).pc = .beat caller pc) (hlease : (c.threads t).lease = some lease) :
    Effect C c t (beatStep c.shared (c.threads t) lease caller pc).1
      (beatStep c.shared (c.threads t) lease caller pc).2.1 := by
  have hend {s' : Shared} {updated : Bool} (hs : SameCounts c.shared s') :
      Effect C c t (endBeat s' (c.threads t) lease updated caller).1
        (endBeat s' (c.threads t) lease updated caller).2.1 := by
    cases caller with
    | retain => exact .endRetain (by rw [Local.stage, hl]; rfl) hs rfl rfl
    | release =>
        refine .leave lease (by rw [Local.stage, hl]; rfl) hlease hs rfl ?_
        simp only [endBeat, finishRelease, hlease]
        rfl
    | timer => exact .quiet hs (by rw [Local.stage, Local.stage, hl]; rfl) rfl
  have hgo (pc' : BeatPc) : Effect C c t c.shared ((c.threads t).goto (.beat caller pc')) := by
    refine .quiet .rfl ?_ rfl
    rw [Local.stage, Local.stage, hl]
    cases caller <;> rfl
  cases pc with
  | loadOwnerId =>
      simp only [beatStep]
      split
      · exact hend .rfl
      · exact hgo _
  | readClock => exact hgo _
  | storeHeartbeat nowMs => exact hend (setHeartbeatMs_same _ _ _)

theorem afterSub_stage (s : Shared) (l : Local) (lease : LocalRuntimeLease) (n : Int) :
    (afterSub s l lease n).1 = s ∧ (afterSub s l lease n).2.1.stage = afterSubStage lease n
      ∧ (afterSub s l lease n).2.1.lease = l.lease := by
  unfold afterSub afterSubStage
  split <;> exact ⟨rfl, rfl, rfl⟩

theorem releaseStep_effect {lease : LocalRuntimeLease} {pc : ReleasePc}
    (hl : (c.threads t).pc = .release pc) (hlease : (c.threads t).lease = some lease)
    (hcalm : CalmStep c t) :
    Effect C c t (releaseStep c.shared (c.threads t) lease pc).1
      (releaseStep c.shared (c.threads t) lease pc).2.1 := by
  unfold CalmStep at hcalm
  rw [hl] at hcalm
  have hfinish : (finishRelease (c.threads t)).lease = finishedLease lease := by
    simp only [finishRelease, hlease]
    rfl
  cases pc with
  | loadOwnerId =>
      simp only [releaseStep]
      split
      next hown =>
        exact .load lease (by rw [Local.stage, hl]; rfl) hlease hown rfl rfl hlease
      next hother =>
        exact .skip lease (by rw [Local.stage, hl]; rfl) hlease hother rfl rfl hfinish
  | loadHandleCount =>
      simp only [releaseStep]
      split
      next hpos =>
        exact .loadHandles lease (by rw [Local.stage, hl]; rfl) hlease hpos rfl rfl hlease
      next hnot =>
        obtain ⟨hs, hstage, hl'⟩ := afterSub_stage c.shared (c.threads t) lease
          (c.shared.slots lease.slotIndex).handleCount
        exact .loadNothing lease (by rw [Local.stage, hl]; rfl) hlease (Int.not_lt.mp hnot) hs
          hstage (hl'.trans hlease)
  | subHandleCount n =>
      exact .sub lease n (by rw [Local.stage, hl]; rfl) hlease (hcalm lease hlease) rfl rfl hlease
  | clearOwnerId =>
      exact .clear lease (by rw [Local.stage, hl]; rfl) hlease (hcalm lease hlease) rfl rfl hlease
  | clearHandleCount =>
      exact .wipe lease.slotIndex (hcalm lease hlease) rfl (by rw [Local.stage, Local.stage, hl]; rfl)
        rfl
  | clearHeartbeat =>
      exact .leave lease (by rw [Local.stage, hl]; rfl) hlease (setHeartbeatMs_same _ _ _) rfl
        hfinish

/-- The end of `reduceOpenHandleCount`. -/
theorem endReduce_effect {caller : ReduceCaller} {released removed : Int} {s' : Shared}
    (hstage : (c.threads t).stage = match caller with
      | .release n => .reducing n released
      | .recover r => .draining r.slot r.ownerId released)
    (hlocal : LocalInv C t (c.threads t)) (hs : Reduced released c.shared s') :
    Effect C c t (endReduce s' (c.threads t) removed caller).1
      (endReduce s' (c.threads t) removed caller).2.1 := by
  cases caller with
  | release n =>
      obtain ⟨lease, hlease⟩ := Option.isSome_iff_exists.mp
        (hlocal.lease (by rw [hstage]; rfl))
      obtain ⟨hs', hstage', hl'⟩ := afterSub_stage s' (c.threads t) lease n
      simp only [endReduce, hlease]
      exact .reduced lease n released hstage hlease (by rw [hs']; exact hs) hstage'
        (hl'.trans hlease)
  | recover r => exact .drained r.slot r.ownerId released hstage hs rfl rfl

theorem reduceLoop_effect {caller : ReduceCaller} {released : Int}
    (hstage : (c.threads t).stage = match caller with
      | .release n => .reducing n released
      | .recover r => .draining r.slot r.ownerId released)
    (hlocal : LocalInv C t (c.threads t)) :
    Effect C c t
      (reduceLoop c.shared (c.threads t) caller released c.shared.openHandleCount).1
      (reduceLoop c.shared (c.threads t) caller released c.shared.openHandleCount).2.1 := by
  unfold reduceLoop
  split
  · refine .quiet .rfl ?_ rfl
    rw [hstage]
    cases caller <;> rfl
  next hnot => exact endReduce_effect hstage hlocal (.inr ⟨Int.not_lt.mp hnot, rfl⟩)

theorem recoverStep_effect {r : Recovery} {pc : RecoverPc}
    (hl : (c.threads t).pc = .recover r pc) (hcalm : CalmStep c t)
    (hlocal : LocalInv C t (c.threads t)) :
    Effect C c t (recoverStep (C.params t) c.shared (c.threads t) r pc).1
      (recoverStep (C.params t) c.shared (c.threads t) r pc).2.1 := by
  have hpos := hlocal.positive
  unfold CalmStep at hcalm
  rw [hl] at hpos hcalm
  cases pc with
  | loadOwnerId | loadHeartbeat | readAge =>
      have hstage : (c.threads t).stage = .rest := by rw [Local.stage, hl]; rfl
      simp only [recoverStep]
      repeat' split
      all_goals first
        | exact (nextRecover_scans r).effect hstage
        | exact .quiet .rfl hstage.symm rfl
  | claim staleHeartbeat =>
      have hstage : (c.threads t).stage = .rest := by rw [Local.stage, hl]; rfl
      simp only [recoverStep]
      split
      next hown => exact .claimBack r.slot r.ownerId hstage hown hpos rfl rfl rfl
      · exact (nextRecover_scans r).effect hstage
  | recheck staleHeartbeat =>
      simp only [recoverStep]
      split <;> exact .quiet .rfl (by rw [Local.stage, Local.stage, hl]; rfl) rfl
  | handBack =>
      simp only [recoverStep]
      have hnext := nextRecover_scans (s := c.shared.setOwnerId r.slot r.ownerId)
        (l := c.threads t) r
      exact .handBack r.slot r.ownerId (by rw [Local.stage, hl]; rfl) hcalm hnext.shared
        hnext.stage hnext.lease
  | loadHandleCount =>
      have hstage : (c.threads t).stage = .recovering r.slot r.ownerId := by
        rw [Local.stage, hl]; rfl
      simp only [recoverStep]
      split
      next hnone =>
        refine .drain r.slot r.ownerId hstage hcalm rfl ?_ rfl
        rw [show max 0 (count c r.slot) = 0 from Int.max_eq_left hnone]
        rfl
      next hsome =>
        refine .drain r.slot r.ownerId hstage hcalm rfl ?_ rfl
        rw [show max 0 (count c r.slot) = count c r.slot from
          Int.max_eq_right (Int.le_of_not_le hsome)]
        rfl
  | clearOwnerId released =>
      exact .free r.slot r.ownerId (by rw [Local.stage, hl]; rfl) hcalm rfl rfl rfl
  | clearHandleCount released =>
      exact .wipe r.slot hcalm rfl (by rw [Local.stage, Local.stage, hl]; rfl) rfl
  | clearHeartbeat released =>
      exact .quiet (setHeartbeatMs_same _ _ _) (by rw [Local.stage, Local.stage, hl]; rfl) rfl
  | addRecovered released =>
      have hstage : (c.threads t).stage = .rest := by rw [Local.stage, hl]; rfl
      simp only [recoverStep]
      split
      · have hend := endRecover_scans (s := { c.shared with recoveredAbandonedHandleCount :=
            c.shared.recoveredAbandonedHandleCount + released }) (l := c.threads t)
          { r with recoveredHandleCount := r.recoveredHandleCount + released }
        exact .quiet (by rw [hend.shared]; exact ⟨rfl, fun _ => rfl, fun _ => rfl⟩)
          (hend.stage.trans hstage.symm) hend.lease
      · have hnext := nextRecover_scans (s := { c.shared with recoveredAbandonedHandleCount :=
            c.shared.recoveredAbandonedHandleCount + released }) (l := c.threads t)
          { r with recoveredHandleCount := r.recoveredHandleCount + released }
        exact .quiet (by rw [hnext.shared]; exact ⟨rfl, fun _ => rfl, fun _ => rfl⟩)
          (hnext.stage.trans hstage.symm) hnext.lease

theorem resetStep_effect {pc : ResetPc} (hl : (c.threads t).pc = .reset pc)
    (hclears : pc.clears = false) :
    Effect C c t (resetStep (C.params t) c.shared (c.threads t) pc).1
      (resetStep (C.params t) c.shared (c.threads t) pc).2.1 := by
  have hstage : (c.threads t).stage = .rest := by rw [Local.stage, hl]; rfl
  cases pc with
  | loadOpenHandleCount =>
      simp only [resetStep]
      split <;> exact .quiet .rfl hstage.symm rfl
  | storeFileMeta file word =>
      exact .quiet ⟨rfl, fun _ => rfl, fun _ => rfl⟩ hstage.symm rfl
  | storeActiveSegmentCount file =>
      exact .quiet ⟨rfl, fun _ => rfl, fun _ => rfl⟩ hstage.symm rfl
  | storeOpenHandleCount | storeRecovered | clearOwnerId | clearHandleCount | clearHeartbeat =>
      cases hclears

/-- **The classification of the atomic steps.** -/
theorem runStep_effect (hcalm : CalmStep c t) (hlocal : LocalInv C t (c.threads t))
    (hclears : (c.threads t).pc.clears = false) :
    Effect C c t (runStep (C.params t) c.shared (c.threads t)).1
      (runStep (C.params t) c.shared (c.threads t)).2.1 := by
  have hstage : (c.threads t).stage = (c.threads t).pc.stage := rfl
  unfold runStep
  split
  next => exact .quiet .rfl rfl rfl
  next k pc hl => exact claimStep_effect hl hcalm
  next hl =>
    rw [hl] at hstage
    exact .addOpen hstage rfl rfl rfl
  next lease hl hlease =>
    unfold CalmStep at hcalm
    rw [hl] at hcalm hstage
    exact .addHandle lease hstage hlease (hcalm lease hlease) rfl rfl hlease
  next caller pc lease hl hlease => exact beatStep_effect hl hlease
  next pc lease hl hlease => exact releaseStep_effect hl hlease hcalm
  next caller released hl =>
    rw [hl] at hstage
    exact reduceLoop_effect (by rw [hstage]; cases caller <;> rfl) hlocal
  next caller released current hl =>
    rw [hl] at hstage
    unfold reduceSwapStep
    simp only
    split
    next hsame =>
      refine endReduce_effect (by rw [hstage]; cases caller <;> rfl) hlocal (.inl ?_)
      rw [hsame]
    · exact reduceLoop_effect (by rw [hstage]; cases caller <;> rfl) hlocal
  next r pc hl => exact recoverStep_effect hl hcalm hlocal
  next ownerId i hl =>
    rw [hl] at hstage
    split
    · exact .quiet .rfl hstage.symm rfl
    · split <;> exact .quiet .rfl hstage.symm rfl
  next ownerId i hl =>
    have hpos := hlocal.positive
    rw [hl] at hstage hpos
    split
    next hown => exact .claimBack i ownerId hstage hown hpos rfl rfl rfl
    next => exact .quiet .rfl hstage.symm rfl
  next pc hl =>
    rw [hl] at hclears
    exact resetStep_effect hl hclears
  next =>
    -- only the calls that work on the lease are left, and they have one
    rename_i hnone _ _ _ _ _ _ _ _ _
    have hno : (c.threads t).stage.onLease = false := by
      by_contra hon
      have hsome := hlocal.lease (Bool.not_eq_false _ ▸ hon)
      rw [hnone] at hsome
      cases hsome
    rw [hstage] at hno
    refine .quiet .rfl ?_ rfl
    show Stage.rest = _
    rw [hstage]
    cases hl : (c.threads t).pc with
    | beat caller pc => cases caller <;> simp_all [Pc.stage, Stage.onLease]
    | release pc => cases pc <;> simp_all [Pc.stage, Stage.onLease]
    | idle | claim | retainAddOpen | retainAddHandle | reduceLoad | reduceSwap | recover
    | terminatedLoad | terminatedClaim | reset => simp_all [Pc.stage, Stage.onLease]

/-- The condition on a step with its label: the running call's next atomic step
is calm. -/
def Calm (c : LeaseConfig Ctx) : ThreadLabel Ctx Act → Prop
  | .thread t a => a.choice = .step → CalmStep c t
  | .env => True

/-- **The classification of the choices.** -/
theorem choose_effect {a : Act} {s' : Shared} {l' : Local} (hcalm : Calm c (.thread t a))
    (hlocal : LocalInv C t (c.threads t)) (hclears : (c.threads t).pc.clears = false)
    (hr : choose (C.params t) a.choice c.shared (c.threads t) = some (s', l', a.outcome)) :
    Effect C c t s' l' := by
  rcases choose_cases hr with ⟨hstep, hrun⟩ | ⟨-, hidle, rfl, hstart⟩
  · have heffect := runStep_effect (hcalm hstep) hlocal hclears
    rw [← hrun] at heffect
    exact heffect
  · have hrest : (c.threads t).stage = .rest := by rw [Local.stage, hidle]; rfl
    cases hstart with
    | retain lease hlease => exact .beginRetain lease hrest hlease rfl rfl rfl
    | claim hlease => exact .quiet .rfl hrest.symm rfl
    | release lease hlease => exact .beginRelease lease hrest hlease rfl rfl rfl
    | plain pc hstage _ _ _ => exact .quiet .rfl (hstage.trans hrest.symm) rfl

end

end MemoryWriteAhead.Lease
