/-
  MemoryWriteAhead.Lease.Ledger
  ─────────────────────────────
  **THE LEDGER OF A RUNTIME: WHAT THE OPEN COUNTER IS MADE OF.**

  In a calm run the open counter is, at every moment, the sum of

    • the CREDIT of every slot: its handle count, unless the slot is free, is
      just being claimed, or is being emptied by a recovery that has already
      loaded the count,
    • the handles that are PENDING with a context, on their way between a slot
      and the counter.

  `Ledger` is the invariant that says so, together with what it needs: whose ids
  are in the owner words, that every negative owner word has exactly one recovery
  working on it, and what a context in the middle of a release knows of its slot.
  This module keeps the part about ids and recoveries along every effect,
  `Lease.Accounts` the rest.
-/
import MemoryWriteAhead.Lease.Stages
import Mathlib.Algebra.BigOperators.Group.Finset.Basic
import Mathlib.Algebra.BigOperators.Group.Finset.Piecewise
import Mathlib.Data.Fintype.Basic

namespace MemoryWriteAhead.Lease

open Transition

variable {Ctx : Type} {C : Contexts Ctx}

/-! ## §1. The ledger. -/

/-- The id has been in a slot, or never will be. -/
def Used (C : Contexts Ctx) (c : LeaseConfig Ctx) (ownerId : Int) : Prop :=
  ∃ t k, ownerId = C.ownerId t k ∧ k < (c.threads t).usedIds

/-- The slot's handles are in the open counter. -/
def Credited (c : LeaseConfig Ctx) (i : SlotIndex) : Prop :=
  owner c i ≠ 0
    ∧ (∀ u ownerId, (c.threads u).stage = .claimed i ownerId →
        owner c i ≠ ownerId ∧ owner c i ≠ -ownerId)
    ∧ ∀ u, ¬(c.threads u).stage.Drains i (-owner c i)

open Classical in
/-- The handles of a slot that are in the open counter. -/
noncomputable def credit (c : LeaseConfig Ctx) (i : SlotIndex) : Int :=
  if Credited c i then count c i else 0

/-- The slot shows so many handles more than the local lease at this stage. -/
def Stage.offset : Stage → Int
  | .adding | .added => -1
  | .releasing | .loading | .subtracting _ => 1
  | _ => 0

/-- The stages of a release. -/
def Stage.releases : Stage → Bool
  | .releasing | .loading | .subtracting _ | .reducing _ _ | .clearing | .leaving => true
  | _ => false

/-- The handles the slot of the lease should show. -/
def shown (l : Local) (lease : LocalRuntimeLease) : Int := lease.handleCount + l.stage.offset

/-- What a context knows of its lease and its slot. -/
structure LeaseInv (C : Contexts Ctx) (c : LeaseConfig Ctx) (t : Ctx) : Prop where
  lease_used : ∀ lease, (c.threads t).lease = some lease →
    ∃ k, k < (c.threads t).usedIds ∧ lease.ownerId = C.ownerId t k
  claimed : ∀ i ownerId, (c.threads t).stage = .claimed i ownerId →
    (c.threads t).lease = none ∧ ∃ k, k < (c.threads t).usedIds ∧ ownerId = C.ownerId t k
  handles : ∀ lease, (c.threads t).lease = some lease →
    (c.threads t).stage.releases = false → 1 ≤ lease.handleCount
  covered : ∀ lease, (c.threads t).lease = some lease → Owned c lease →
    shown (c.threads t) lease ≤ count c lease.slotIndex
  subtracting : ∀ lease n, (c.threads t).lease = some lease →
    (c.threads t).stage = .subtracting n → 0 < n ∧ (Owned c lease → count c lease.slotIndex = n)
  reducing : ∀ lease n released, (c.threads t).lease = some lease →
    (c.threads t).stage = .reducing n released →
    0 ≤ released ∧ (Owned c lease → count c lease.slotIndex = n - 1)
  clearing : ∀ lease, (c.threads t).lease = some lease → (c.threads t).stage = .clearing →
    lease.handleCount = 0 ∧ (Owned c lease → count c lease.slotIndex = 0)
  draining : ∀ i ownerId n, (c.threads t).stage = .draining i ownerId n → 0 ≤ n

variable [Fintype Ctx]

/-- **The ledger invariant.** -/
structure Ledger (C : Contexts Ctx) (c : LeaseConfig Ctx) : Prop where
  localInv : ∀ t, LocalInv C t (c.threads t)
  context : ∀ t, LeaseInv C c t
  count_nonneg : ∀ i, 0 ≤ count c i
  owner_used : ∀ i, owner c i ≠ 0 →
    ∃ ownerId, Used C c ownerId ∧ (owner c i = ownerId ∨ owner c i = -ownerId)
  recoverer : ∀ i, owner c i < 0 → ∃ u, (c.threads u).stage.Recovers i (-owner c i)
  recovers : ∀ u i ownerId, (c.threads u).stage.Recovers i ownerId →
    Used C c ownerId ∧ owner c i ≠ ownerId
  unique : ∀ u v i ownerId, (c.threads u).stage.Recovers i ownerId →
    (c.threads v).stage.Recovers i ownerId → u = v
  accounts : c.shared.openHandleCount
    = ∑ i, credit c i + ∑ t, (c.threads t).stage.pending

/-! ## §2. The ids. -/

omit [Fintype Ctx] in
theorem Used.pos {c : LeaseConfig Ctx} {ownerId : Int} (h : Used C c ownerId) : 0 < ownerId := by
  obtain ⟨t, k, rfl, -⟩ := h
  exact C.owner_pos t k

section

variable {c : LeaseConfig Ctx} {t : Ctx} {s' : Shared} {l' : Local}

/-! ## §3. What the effects do to the words and to the recoveries. -/

omit [Fintype Ctx]

@[simp] theorem setHandleCount_ownerId (s : Shared) (i j : SlotIndex) (v : Int) :
    ((s.setHandleCount i v).slots j).ownerId = (s.slots j).ownerId := by
  unfold Shared.setHandleCount
  by_cases hj : j = i
  · subst hj
    simp
  · simp [hj]

@[simp] theorem setOwnerId_handleCount (s : Shared) (i j : SlotIndex) (v : Int) :
    ((s.setOwnerId i v).slots j).handleCount = (s.slots j).handleCount := by
  unfold Shared.setOwnerId
  by_cases hj : j = i
  · subst hj
    simp
  · simp [hj]

@[simp] theorem setOwnerId_self (s : Shared) (i : SlotIndex) (v : Int) :
    ((s.setOwnerId i v).slots i).ownerId = v := by
  simp [Shared.setOwnerId]

theorem setOwnerId_ne (s : Shared) {i j : SlotIndex} (h : j ≠ i) (v : Int) :
    ((s.setOwnerId i v).slots j).ownerId = (s.slots j).ownerId := by
  simp [Shared.setOwnerId, h]

@[simp] theorem setHandleCount_self (s : Shared) (i : SlotIndex) (v : Int) :
    ((s.setHandleCount i v).slots i).handleCount = v := by
  simp [Shared.setHandleCount]

theorem setHandleCount_ne (s : Shared) {i j : SlotIndex} (h : j ≠ i) (v : Int) :
    ((s.setHandleCount i v).slots j).handleCount = (s.slots j).handleCount := by
  simp [Shared.setHandleCount, h]

@[simp] theorem setOwnerId_openHandleCount (s : Shared) (i : SlotIndex) (v : Int) :
    (s.setOwnerId i v).openHandleCount = s.openHandleCount := rfl

@[simp] theorem setHandleCount_openHandleCount (s : Shared) (i : SlotIndex) (v : Int) :
    (s.setHandleCount i v).openHandleCount = s.openHandleCount := rfl

/-- The words of the slots are as they were. -/
def SameSlots (s s' : Shared) : Prop :=
  ∀ i, (s'.slots i).ownerId = (s.slots i).ownerId ∧ (s'.slots i).handleCount = (s.slots i).handleCount

theorem Reduced.sameSlots {n : Int} {s s' : Shared} (h : Reduced n s s') : SameSlots s s' := by
  rcases h with rfl | ⟨-, rfl⟩ <;> exact fun i => ⟨rfl, rfl⟩

theorem SameCounts.sameSlots {s s' : Shared} (h : SameCounts s s') : SameSlots s s' :=
  fun i => ⟨h.ownerId i, h.handleCount i⟩

/-- The changes of an owner word. -/
inductive OwnerWrite (C : Contexts Ctx) (c : LeaseConfig Ctx) (t : Ctx) (l' : Local) :
    SlotIndex → Int → Prop
  | take (i ownerId) : (c.threads t).stage = .rest →
      (c.threads t).pc.scanId = some ownerId → owner c i = 0 → l'.stage = .claimed i ownerId →
      l'.usedIds = (c.threads t).ownerIdsCreated → OwnerWrite C c t l' i ownerId
  | clear (lease : LocalRuntimeLease) : (c.threads t).stage = .clearing →
      (c.threads t).lease = some lease → OwnOrFree c lease.slotIndex lease.ownerId →
      l'.stage = .leaving → OwnerWrite C c t l' lease.slotIndex 0
  | claimBack (i ownerId) : (c.threads t).stage = .rest → owner c i = ownerId → 0 < ownerId →
      l'.stage = .recovering i ownerId → OwnerWrite C c t l' i (-ownerId)
  | handBack (i ownerId) : (c.threads t).stage = .recovering i ownerId → owner c i = -ownerId →
      l'.stage = .rest → OwnerWrite C c t l' i ownerId
  | free (i ownerId) : (c.threads t).stage = .draining i ownerId 0 →
      owner c i = 0 ∨ owner c i = -ownerId → l'.stage = .rest → OwnerWrite C c t l' i 0

/-- The changes of a handle count. -/
inductive CountWrite (C : Contexts Ctx) (c : LeaseConfig Ctx) (t : Ctx) (l' : Local) :
    SlotIndex → Int → Prop
  | openLease (i ownerId) : (c.threads t).stage = .claimed i ownerId →
      OwnOrFree c i ownerId ∨ count c i = 0 → l'.stage = .adding → CountWrite C c t l' i 0
  | addHandle (lease : LocalRuntimeLease) : (c.threads t).stage = .added →
      (c.threads t).lease = some lease → Owned c lease → l'.stage = .retained →
      CountWrite C c t l' lease.slotIndex (count c lease.slotIndex + 1)
  | sub (lease : LocalRuntimeLease) (n : Int) : (c.threads t).stage = .subtracting n →
      (c.threads t).lease = some lease → Owned c lease → l'.stage = .reducing n 1 →
      CountWrite C c t l' lease.slotIndex (count c lease.slotIndex - 1)
  | wipe (i) : Clearable c i → l'.stage = (c.threads t).stage → CountWrite C c t l' i 0

/-- A step writes no slot, one owner word, or one handle count. -/
theorem Effect.slots_cases (e : Effect C c t s' l') :
    SameSlots c.shared s' ∨ (∃ i v, s' = c.shared.setOwnerId i v ∧ OwnerWrite C c t l' i v)
      ∨ ∃ i v, s' = c.shared.setHandleCount i v ∧ CountWrite C c t l' i v := by
  have hsame : SameSlots c.shared c.shared := fun _ => ⟨rfl, rfl⟩
  cases e with
  | take i id h1 h2 h3 h4 h5 h6 h7 => exact .inr (.inl ⟨i, id, h4, .take i id h1 h2 h3 h5 h7⟩)
  | clear lease h1 h2 h3 h4 h5 h6 => exact .inr (.inl ⟨_, _, h4, .clear lease h1 h2 h3 h5⟩)
  | claimBack i id h1 h2 h3 h4 h5 h6 =>
      exact .inr (.inl ⟨_, _, h4, .claimBack i id h1 h2 h3 h5⟩)
  | handBack i id h1 h2 h3 h4 h5 => exact .inr (.inl ⟨_, _, h3, .handBack i id h1 h2 h4⟩)
  | free i id h1 h2 h3 h4 h5 => exact .inr (.inl ⟨_, _, h3, .free i id h1 h2 h4⟩)
  | openLease i id h1 h2 h3 h4 h5 => exact .inr (.inr ⟨_, _, h3, .openLease i id h1 h2 h4⟩)
  | addHandle lease h1 h2 h3 h4 h5 h6 =>
      exact .inr (.inr ⟨_, _, h4, .addHandle lease h1 h2 h3 h5⟩)
  | sub lease n h1 h2 h3 h4 h5 h6 => exact .inr (.inr ⟨_, _, h4, .sub lease n h1 h2 h3 h5⟩)
  | wipe i h1 h2 h3 h4 => exact .inr (.inr ⟨_, _, h2, .wipe i h1 h3⟩)
  | quiet h1 h2 h3 => exact .inl h1.sameSlots
  | endRetain h1 h2 h3 h4 => exact .inl h2.sameSlots
  | leave lease h1 h2 h3 h4 h5 => exact .inl h3.sameSlots
  | reduced lease n r h1 h2 h3 h4 h5 => exact .inl h3.sameSlots
  | drained i id n h1 h2 h3 h4 => exact .inl h2.sameSlots
  | addOpen h1 h2 h3 h4 => exact .inl fun i => by rw [h2]; exact ⟨rfl, rfl⟩
  | beginRetain lease h1 h2 h3 h4 h5 => exact .inl (h3 ▸ hsame)
  | beginRelease lease h1 h2 h3 h4 h5 => exact .inl (h3 ▸ hsame)
  | skip lease h1 h2 h3 h4 h5 h6 => exact .inl (h4 ▸ hsame)
  | load lease h1 h2 h3 h4 h5 h6 => exact .inl (h4 ▸ hsame)
  | loadHandles lease h1 h2 h3 h4 h5 h6 => exact .inl (h4 ▸ hsame)
  | loadNothing lease h1 h2 h3 h4 h5 h6 => exact .inl (h4 ▸ hsame)
  | drain i id h1 h2 h3 h4 h5 => exact .inl (h3 ▸ hsame)

theorem afterSubStage_cases (lease : LocalRuntimeLease) (n : Int) :
    afterSubStage lease n = .clearing ∧ n ≤ 1 ∧ lease.handleCount = 0
      ∨ afterSubStage lease n = .leaving ∧ ¬(n ≤ 1 ∧ lease.handleCount = 0) := by
  unfold afterSubStage
  split
  next h => exact .inl ⟨rfl, h⟩
  next h => exact .inr ⟨rfl, h⟩

@[simp] theorem afterSubStage_ne_claimed (lease : LocalRuntimeLease) (n : Int) (i : SlotIndex)
    (ownerId : Int) : afterSubStage lease n ≠ .claimed i ownerId := by
  unfold afterSubStage
  split <;> simp

@[simp] theorem afterSubStage_ne_recovering (lease : LocalRuntimeLease) (n : Int) (i : SlotIndex)
    (ownerId : Int) : afterSubStage lease n ≠ .recovering i ownerId := by
  unfold afterSubStage
  split <;> simp

@[simp] theorem afterSubStage_ne_draining (lease : LocalRuntimeLease) (n : Int) (i : SlotIndex)
    (ownerId m : Int) : afterSubStage lease n ≠ .draining i ownerId m := by
  unfold afterSubStage
  split <;> simp

@[simp] theorem afterSubStage_pending (lease : LocalRuntimeLease) (n : Int) :
    (afterSubStage lease n).pending = 0 := by
  unfold afterSubStage
  split <;> rfl

/-- A recovery begins with the claim of the slot. -/
theorem Effect.recovers_new (e : Effect C c t s' l') {i : SlotIndex} {ownerId : Int}
    (h : l'.stage.Recovers i ownerId) : (c.threads t).stage.Recovers i ownerId
      ∨ owner c i = ownerId ∧ 0 < ownerId ∧ s' = c.shared.setOwnerId i (-ownerId) := by
  unfold Stage.Recovers Stage.Drains at h ⊢
  cases e <;> simp_all

/-- A recovery ends with a store into the owner word. -/
theorem Effect.recovers_old (e : Effect C c t s' l') {i : SlotIndex} {ownerId : Int}
    (h : (c.threads t).stage.Recovers i ownerId) : l'.stage.Recovers i ownerId
      ∨ s' = c.shared.setOwnerId i ownerId ∨ s' = c.shared.setOwnerId i 0 := by
  unfold Stage.Recovers Stage.Drains at h ⊢
  cases e <;> simp_all

/-- A recovery that has loaded the count ends with clearing the owner word. -/
theorem Effect.drains_old (e : Effect C c t s' l') {i : SlotIndex} {ownerId : Int}
    (h : (c.threads t).stage.Drains i ownerId) : l'.stage.Drains i ownerId
      ∨ s' = c.shared.setOwnerId i 0 := by
  unfold Stage.Drains at h ⊢
  cases e <;> simp_all

/-! ## §4. The ids and recoveries after a step. -/

variable [DecidableEq Ctx]

theorem Used.next (hnext : LocalNext C t (c.threads t) l') {ownerId : Int}
    (h : Used C c ownerId) : Used C (c.put t s' l') ownerId := by
  obtain ⟨u, k, rfl, hk⟩ := h
  by_cases hu : u = t
  · subst hu
    exact ⟨u, k, rfl, by rw [Config.put_threads_self]; exact Nat.lt_of_lt_of_le hk hnext.used⟩
  · exact ⟨u, k, rfl, by rw [Config.put_threads_ne c hu]; exact hk⟩

omit [DecidableEq Ctx] in
/-- The id that a scanning context brings is not in use. -/
theorem LocalInv.scan_fresh (h : LocalInv C t (c.threads t)) {ownerId : Int}
    (hscan : (c.threads t).pc.scanId = some ownerId) :
    ¬Used C c ownerId ∧ ∃ k, ownerId = C.ownerId t k ∧ (c.threads t).ownerIdsCreated = k + 1 := by
  obtain ⟨-, k, rfl, hcreated⟩ := h.scan ownerId hscan
  refine ⟨?_, k, rfl, hcreated⟩
  rintro ⟨u, j, heq, hj⟩
  obtain ⟨rfl, rfl⟩ := C.owner_inj t k u j heq
  unfold Local.usedIds at hj
  rw [hscan] at hj
  simp only [Option.isSome_some, if_true] at hj
  omega

theorem recovers_put (e : Effect C c t s' l') {u : Ctx} {i : SlotIndex} {ownerId : Int}
    (h : ((c.put t s' l').threads u).stage.Recovers i ownerId) :
    (c.threads u).stage.Recovers i ownerId
      ∨ u = t ∧ owner c i = ownerId ∧ 0 < ownerId ∧ s' = c.shared.setOwnerId i (-ownerId) := by
  by_cases hu : u = t
  · subst hu
    rw [Config.put_threads_self] at h
    exact (e.recovers_new h).imp_right fun h => ⟨rfl, h⟩
  · rw [Config.put_threads_ne c hu] at h
    exact .inl h

variable [Fintype Ctx] (h : Ledger C c) (e : Effect C c t s' l')
include h e

theorem Ledger.unique_next {u v : Ctx} {i : SlotIndex} {ownerId : Int}
    (hu : ((c.put t s' l').threads u).stage.Recovers i ownerId)
    (hv : ((c.put t s' l').threads v).stage.Recovers i ownerId) : u = v := by
  rcases recovers_put e hu with hu' | ⟨hut, hown, -⟩ <;>
    rcases recovers_put e hv with hv' | ⟨hvt, hown', -⟩
  · exact h.unique u v i ownerId hu' hv'
  · exact absurd hown' (h.recovers u i ownerId hu').2
  · exact absurd hown (h.recovers v i ownerId hv').2
  · rw [hut, hvt]

theorem Ledger.recovers_next (hnext : LocalNext C t (c.threads t) l') {u : Ctx} {i : SlotIndex}
    {ownerId : Int} (hu : ((c.put t s' l').threads u).stage.Recovers i ownerId) :
    Used C (c.put t s' l') ownerId ∧ owner (c.put t s' l') i ≠ ownerId := by
  rcases recovers_put e hu with hold | ⟨rfl, hown, hpos, hs'⟩
  · obtain ⟨hused, hne⟩ := h.recovers u i ownerId hold
    have hpos := hused.pos
    refine ⟨hused.next hnext, ?_⟩
    show (s'.slots i).ownerId ≠ ownerId
    rcases e.slots_cases with hsame | ⟨j, v, rfl, hw⟩ | ⟨j, v, rfl, -⟩
    · rw [(hsame i).1]
      exact hne
    · by_cases hj : i = j
      · subst hj
        rw [setOwnerId_self]
        cases hw with
        | take _ _ _ hscan _ _ _ =>
            rintro rfl
            exact ((h.localInv t).scan_fresh hscan).1 hused
        | clear => omega
        | free => omega
        | claimBack => omega
        | handBack _ _ hrec _ hrest =>
            -- the recovery that hands the slot back was the only one, and is over
            rintro rfl
            obtain rfl := h.unique u t i _ hold (.inl hrec)
            rw [Config.put_threads_self, hrest] at hu
            simp [Stage.Recovers, Stage.Drains] at hu
      · rw [setOwnerId_ne _ hj]
        exact hne
    · rw [setHandleCount_ownerId]
      exact hne
  · obtain ⟨id, hused, heq⟩ := h.owner_used i (by omega)
    have hid := hused.pos
    obtain rfl : ownerId = id := by omega
    refine ⟨hused.next hnext, ?_⟩
    show (s'.slots i).ownerId ≠ ownerId
    rw [hs', setOwnerId_self]
    omega

theorem Ledger.recoverer_next {i : SlotIndex} (hneg : owner (c.put t s' l') i < 0) :
    ∃ u, ((c.put t s' l').threads u).stage.Recovers i (-owner (c.put t s' l') i) := by
  have hkeep (hsame : (s'.slots i).ownerId = owner c i) :
      ∃ u, ((c.put t s' l').threads u).stage.Recovers i (-owner (c.put t s' l') i) := by
    have hneg : (s'.slots i).ownerId < 0 := hneg
    show ∃ u, ((c.put t s' l').threads u).stage.Recovers i (-(s'.slots i).ownerId)
    rw [hsame] at hneg ⊢
    obtain ⟨u, hu⟩ := h.recoverer i hneg
    refine ⟨u, ?_⟩
    by_cases hut : u = t
    · subst hut
      rw [Config.put_threads_self]
      rcases e.recovers_old hu with hrec | hs' | hs'
      · exact hrec
      · rw [hs', setOwnerId_self] at hsame
        omega
      · rw [hs', setOwnerId_self] at hsame
        omega
    · rw [Config.put_threads_ne c hut]
      exact hu
  rcases e.slots_cases with hsame | ⟨j, v, hs', hw⟩ | ⟨j, v, hs', -⟩
  · exact hkeep (hsame i).1
  · by_cases hj : i = j
    · subst hj
      have hv : owner (c.put t s' l') i = v := by
        show (s'.slots i).ownerId = v
        rw [hs', setOwnerId_self]
      rw [hv] at hneg ⊢
      cases hw with
      | take _ _ _ hscan _ _ _ =>
          obtain ⟨-, k, rfl, -⟩ := (h.localInv t).scan_fresh hscan
          have hpos := C.owner_pos t k
          omega
      | clear => omega
      | free => omega
      | claimBack _ ownerId _ _ _ hrec =>
          refine ⟨t, ?_⟩
          rw [Config.put_threads_self, hrec, Int.neg_neg]
          exact .inl rfl
      | handBack _ _ hrec _ _ =>
          have hpos := (h.recovers t i v (.inl hrec)).1.pos
          omega
    · exact hkeep (by rw [hs', setOwnerId_ne _ hj])
  · exact hkeep (by rw [hs', setHandleCount_ownerId])

theorem Ledger.owner_used_next (hnext : LocalNext C t (c.threads t) l') {i : SlotIndex}
    (hne : owner (c.put t s' l') i ≠ 0) :
    ∃ ownerId, Used C (c.put t s' l') ownerId
      ∧ (owner (c.put t s' l') i = ownerId ∨ owner (c.put t s' l') i = -ownerId) := by
  have hkeep (hsame : (s'.slots i).ownerId = owner c i) : ∃ ownerId,
      Used C (c.put t s' l') ownerId
        ∧ (owner (c.put t s' l') i = ownerId ∨ owner (c.put t s' l') i = -ownerId) := by
    have hne : (s'.slots i).ownerId ≠ 0 := hne
    obtain ⟨ownerId, hused, heq⟩ := h.owner_used i (by rw [← hsame]; exact hne)
    exact ⟨ownerId, hused.next hnext, by rw [← hsame] at heq; exact heq⟩
  rcases e.slots_cases with hsame | ⟨j, v, hs', hw⟩ | ⟨j, v, hs', -⟩
  · exact hkeep (hsame i).1
  · by_cases hj : i = j
    · subst hj
      have hv : owner (c.put t s' l') i = v := by
        show (s'.slots i).ownerId = v
        rw [hs', setOwnerId_self]
      rw [hv] at hne ⊢
      cases hw with
      | take _ _ _ hscan _ _ hids =>
          obtain ⟨-, k, rfl, hcreated⟩ := (h.localInv t).scan_fresh hscan
          refine ⟨_, ⟨t, k, rfl, ?_⟩, .inl rfl⟩
          rw [Config.put_threads_self, hids]
          omega
      | clear => exact absurd rfl hne
      | free => exact absurd rfl hne
      | claimBack _ ownerId _ hown hpos _ =>
          obtain ⟨id, hused, heq⟩ := h.owner_used i (by omega)
          have hid := hused.pos
          obtain rfl : ownerId = id := by omega
          exact ⟨ownerId, hused.next hnext, .inr rfl⟩
      | handBack _ _ hrec _ _ =>
          exact ⟨v, ((h.recovers t i v (.inl hrec)).1).next hnext, .inl rfl⟩
    · exact hkeep (by rw [hs', setOwnerId_ne _ hj])
  · exact hkeep (by rw [hs', setHandleCount_ownerId])

end

end MemoryWriteAhead.Lease
