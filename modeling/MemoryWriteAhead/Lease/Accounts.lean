/-
  MemoryWriteAhead.Lease.Accounts
  ───────────────────────────────
  **THE ACCOUNTS ARE KEPT BY EVERY EFFECT.**

    • `Ledger.owned_of_put` / `Ledger.count_of_put`: nobody can make a slot mine,
      or change the count of a slot that is mine, but myself,
    • `Ledger.context_next`: what the acting context knows of its slot,
    • `Ledger.accounts_next`: the open counter is still the sum,
    • `Ledger.step` and, for whole runs, `Ledger.reach`.
-/
import MemoryWriteAhead.Lease.Ledger
import Mathlib.Algebra.Order.BigOperators.Group.Finset

namespace MemoryWriteAhead.Lease

open Transition

variable {Ctx : Type} {C : Contexts Ctx} {c : LeaseConfig Ctx} {t : Ctx} {s' : Shared} {l' : Local}

/-! ## §1. A slot that is owned. -/

/-- The lease carries an id of the context. -/
def IdOf (C : Contexts Ctx) (c : LeaseConfig Ctx) (u : Ctx) (ownerId : Int) : Prop :=
  ∃ k, k < (c.threads u).usedIds ∧ ownerId = C.ownerId u k

theorem IdOf.used {u : Ctx} {ownerId : Int} (h : IdOf C c u ownerId) : Used C c ownerId := by
  obtain ⟨k, hk, rfl⟩ := h
  exact ⟨u, k, rfl, hk⟩

theorem IdOf.pos {u : Ctx} {ownerId : Int} (h : IdOf C c u ownerId) : 0 < ownerId := h.used.pos

theorem IdOf.unique {u v : Ctx} {ownerId : Int} (hu : IdOf C c u ownerId)
    (hv : IdOf C c v ownerId) : u = v := by
  obtain ⟨k, -, rfl⟩ := hu
  obtain ⟨j, -, heq⟩ := hv
  exact (C.owner_inj u k v j heq).1

theorem Owned.owner_eq {lease : LocalRuntimeLease} (h : Owned c lease) :
    owner c lease.slotIndex = lease.ownerId ∨ owner c lease.slotIndex = -lease.ownerId :=
  h.imp_right And.left

/-- Two leases that own one slot have one id. -/
theorem Owned.same_id {lease lease' : LocalRuntimeLease} (h : Owned c lease) (h' : Owned c lease')
    (hpos : 0 < lease.ownerId) (hpos' : 0 < lease'.ownerId)
    (hslot : lease.slotIndex = lease'.slotIndex) : lease.ownerId = lease'.ownerId := by
  have hown := h.owner_eq
  have hown' := h'.owner_eq
  rw [hslot] at hown
  omega

section

variable [Fintype Ctx] [DecidableEq Ctx]

/-- Nobody makes a slot mine: a lease that owns its slot after the step did so
before. -/
theorem Ledger.owned_of_put (h : Ledger C c) (e : Effect C c t s' l') {lease : LocalRuntimeLease}
    (hused : Used C c lease.ownerId) (howned : Owned (c.put t s' l') lease) : Owned c lease := by
  have hpos := hused.pos
  have hkeep (hsame : (s'.slots lease.slotIndex).ownerId = owner c lease.slotIndex) :
      Owned c lease := by
    rcases howned with hown | ⟨hneg, hno⟩
    · exact .inl (hsame.symm.trans hown)
    · refine .inr ⟨hsame.symm.trans hneg, fun u hu => ?_⟩
      by_cases hut : u = t
      · subst hut
        rcases e.drains_old hu with hdrains | hs'
        · exact hno u (by rw [Config.put_threads_self]; exact hdrains)
        · have hzero : (s'.slots lease.slotIndex).ownerId = 0 := by rw [hs', setOwnerId_self]
          have hneg : (s'.slots lease.slotIndex).ownerId = -lease.ownerId := hneg
          omega
      · exact hno u (by rw [Config.put_threads_ne c hut]; exact hu)
  rcases e.slots_cases with hsame | ⟨j, v, hs', hw⟩ | ⟨j, v, hs', -⟩
  · exact hkeep (hsame lease.slotIndex).1
  · by_cases hj : lease.slotIndex = j
    · have hv : owner (c.put t s' l') lease.slotIndex = v := by
        show (s'.slots lease.slotIndex).ownerId = v
        rw [hs', hj, setOwnerId_self]
      have hown := howned.owner_eq
      rw [hv] at hown
      cases hw with
      | take _ _ _ hscan _ _ _ =>
          obtain ⟨hfresh, k, rfl, -⟩ := (h.localInv t).scan_fresh hscan
          have hid := C.owner_pos t k
          rcases hown with hown | hown
          · rw [hown] at hfresh
            exact absurd hused hfresh
          · omega
      | clear => omega
      | free => omega
      | claimBack _ ownerId _ howner _ _ =>
          refine .inl ?_
          rw [hj, howner]
          omega
      | handBack _ _ hrec howner _ =>
          have hid := (h.recovers t _ _ (.inl hrec)).1.pos
          obtain rfl : v = lease.ownerId := by omega
          refine .inr ⟨by rw [hj, howner], fun u hu => ?_⟩
          -- the recovery that hands the slot back is the only one, and has not drained it
          rw [hj] at hu
          obtain rfl := h.unique u t _ _ (.inr hu) (.inl hrec)
          obtain ⟨n, hn⟩ := hu
          rw [hrec] at hn
          cases hn
    · exact hkeep (by rw [hs', setOwnerId_ne _ hj])
  · exact hkeep (by rw [hs', setHandleCount_ownerId])

/-- Nobody changes the count of a slot that is mine. -/
theorem Ledger.count_of_put (h : Ledger C c) (e : Effect C c t s' l') {u : Ctx} (hu : u ≠ t)
    {lease : LocalRuntimeLease} (hid : IdOf C c u lease.ownerId) (howned : Owned c lease) :
    count (c.put t s' l') lease.slotIndex = count c lease.slotIndex := by
  have hpos := hid.pos
  have hown := howned.owner_eq
  show (s'.slots lease.slotIndex).handleCount = _
  have hother (lease' : LocalRuntimeLease) (hlease : (c.threads t).lease = some lease')
      (howned' : Owned c lease') : lease.slotIndex ≠ lease'.slotIndex := by
    intro hslot
    have hid' : IdOf C c t lease'.ownerId := (h.context t).lease_used lease' hlease
    have hsame := howned.same_id howned' hpos hid'.pos hslot
    exact hu (hid.unique (hsame ▸ hid'))
  rcases e.slots_cases with hsame | ⟨j, v, hs', -⟩ | ⟨j, v, hs', hw⟩
  · exact (hsame lease.slotIndex).2
  · rw [hs', setOwnerId_handleCount]
  · by_cases hj : lease.slotIndex = j
    · rw [hj] at hown ⊢
      rw [hs', setHandleCount_self]
      cases hw with
      | openLease _ ownerId hclaimed hfree _ =>
          have hid' : IdOf C c t ownerId := ((h.context t).claimed _ _ hclaimed).2
          have hpos' := hid'.pos
          rcases hfree with hfree | hzero
          · unfold OwnOrFree at hfree
            obtain rfl : ownerId = lease.ownerId := by omega
            exact absurd (hid.unique hid') hu
          · exact hzero.symm
      | addHandle lease' _ hlease howned' _ => exact absurd hj (hother lease' hlease howned')
      | sub lease' _ _ hlease howned' _ => exact absurd hj (hother lease' hlease howned')
      | wipe _ hclear _ =>
          rcases hclear with hzero | hzero
          · omega
          · exact hzero.symm
    · rw [hs', setHandleCount_ne _ hj]

end

/-! ## §2. What a context knows of its slot. -/

/-- A context that has gained nothing, and lost nothing of a slot it still owns. -/
structure Kept (c c' : LeaseConfig Ctx) (u : Ctx) : Prop where
  usedIds : (c.threads u).usedIds ≤ (c'.threads u).usedIds
  owned : ∀ lease, (c.threads u).lease = some lease → Owned c' lease →
    Owned c lease ∧ count c' lease.slotIndex = count c lease.slotIndex

theorem IdOf.mono {c' : LeaseConfig Ctx} {u : Ctx} {ownerId : Int} (h : IdOf C c u ownerId)
    (hids : (c.threads u).usedIds ≤ (c'.threads u).usedIds) : IdOf C c' u ownerId := by
  obtain ⟨k, hk, hid⟩ := h
  exact ⟨k, Nat.lt_of_lt_of_le hk hids, hid⟩

theorem LeaseInv.keep {c' : LeaseConfig Ctx} {u : Ctx} (h : LeaseInv C c u) (hkept : Kept c c' u)
    (hstage : (c'.threads u).stage = (c.threads u).stage)
    (hlease : (c'.threads u).lease = (c.threads u).lease) : LeaseInv C c' u where
  lease_used lease hl := IdOf.mono (h.lease_used lease (hlease ▸ hl)) hkept.usedIds
  claimed i ownerId hs := by
    obtain ⟨hnone, hid⟩ := h.claimed i ownerId (hstage ▸ hs)
    exact ⟨hlease.trans hnone, IdOf.mono hid hkept.usedIds⟩
  handles lease hl hrel := by
    rw [hlease] at hl
    rw [hstage] at hrel
    exact h.handles lease hl hrel
  covered lease hl howned := by
    rw [hlease] at hl
    obtain ⟨howned, hcount⟩ := hkept.owned lease hl howned
    unfold shown
    rw [hcount, hstage]
    exact h.covered lease hl howned
  subtracting lease n hl hs := by
    rw [hlease] at hl
    rw [hstage] at hs
    obtain ⟨hn, hcount⟩ := h.subtracting lease n hl hs
    refine ⟨hn, fun howned => ?_⟩
    obtain ⟨howned, hsame⟩ := hkept.owned lease hl howned
    rw [hsame, hcount howned]
  reducing lease n released hl hs := by
    rw [hlease] at hl
    rw [hstage] at hs
    obtain ⟨hn, hcount⟩ := h.reducing lease n released hl hs
    refine ⟨hn, fun howned => ?_⟩
    obtain ⟨howned, hsame⟩ := hkept.owned lease hl howned
    rw [hsame, hcount howned]
  clearing lease hl hs := by
    rw [hlease] at hl
    rw [hstage] at hs
    obtain ⟨hn, hcount⟩ := h.clearing lease hl hs
    refine ⟨hn, fun howned => ?_⟩
    obtain ⟨howned, hsame⟩ := hkept.owned lease hl howned
    rw [hsame, hcount howned]
  draining i ownerId n hs := h.draining i ownerId n (hstage ▸ hs)

/-- The stages of which the ledger says nothing special. -/
def Stage.plain : Stage → Bool
  | .claimed _ _ | .subtracting _ | .reducing _ _ | .clearing | .draining _ _ _ => false
  | _ => true

/-- A plain stage, or that of a recovery with a count that is not negative. -/
def Stage.Mild (g : Stage) : Prop :=
  g.plain = true ∨ ∃ i ownerId n, g = .draining i ownerId n ∧ 0 ≤ n

/-- A mild stage that asks no more than the one before it. -/
theorem LeaseInv.to_mild {c' : LeaseConfig Ctx} {u : Ctx} (h : LeaseInv C c u)
    (hkept : Kept c c' u) (hlease : (c'.threads u).lease = (c.threads u).lease)
    (hmild : (c'.threads u).stage.Mild)
    (hrel : (c'.threads u).stage.releases = (c.threads u).stage.releases)
    (hoff : (c'.threads u).stage.offset = (c.threads u).stage.offset) : LeaseInv C c' u where
  lease_used lease hl := IdOf.mono (h.lease_used lease (hlease ▸ hl)) hkept.usedIds
  claimed i ownerId hs := by
    rw [hs] at hmild
    rcases hmild with hplain | ⟨_, _, _, heq, -⟩
    · cases hplain
    · cases heq
  handles lease hl hno := h.handles lease (hlease ▸ hl) (hrel ▸ hno)
  covered lease hl howned := by
    rw [hlease] at hl
    obtain ⟨howned, hcount⟩ := hkept.owned lease hl howned
    unfold shown
    rw [hcount, hoff]
    exact h.covered lease hl howned
  subtracting lease n hl hs := by
    rw [hs] at hmild
    rcases hmild with hplain | ⟨_, _, _, heq, -⟩
    · cases hplain
    · cases heq
  reducing lease n released hl hs := by
    rw [hs] at hmild
    rcases hmild with hplain | ⟨_, _, _, heq, -⟩
    · cases hplain
    · cases heq
  clearing lease hl hs := by
    rw [hs] at hmild
    rcases hmild with hplain | ⟨_, _, _, heq, -⟩
    · cases hplain
    · cases heq
  draining i ownerId n hs := by
    rw [hs] at hmild
    rcases hmild with hplain | ⟨_, _, m, heq, hm⟩
    · cases hplain
    · injection heq with _ _ hnm
      rw [hnm]
      exact hm

/-- The stages of a context that works on its lease or is at rest. -/
def Stage.withLease (g : Stage) : Bool := g = .rest || g.onLease

section

variable [DecidableEq Ctx]

/-- What the acting context has to know when it works on its lease. -/
structure LeaseNext (C : Contexts Ctx) (c : LeaseConfig Ctx) (t : Ctx) (s' : Shared) (l' : Local)
    (lease : LocalRuntimeLease) (g : Stage) : Prop where
  stage_eq : l'.stage = g
  lease_eq : l'.lease = some lease
  id : IdOf C c t lease.ownerId
  handles : g.releases = false → 1 ≤ lease.handleCount
  covered : Owned (c.put t s' l') lease →
    lease.handleCount + g.offset ≤ (s'.slots lease.slotIndex).handleCount
  subtracting : ∀ n, g = .subtracting n →
    0 < n ∧ (Owned (c.put t s' l') lease → (s'.slots lease.slotIndex).handleCount = n)
  reducing : ∀ n released, g = .reducing n released →
    0 ≤ released
      ∧ (Owned (c.put t s' l') lease → (s'.slots lease.slotIndex).handleCount = n - 1)
  clearing : g = .clearing → lease.handleCount = 0
    ∧ (Owned (c.put t s' l') lease → (s'.slots lease.slotIndex).handleCount = 0)

theorem LeaseNext.inv {lease : LocalRuntimeLease} {g : Stage} (h : LeaseNext C c t s' l' lease g)
    (hg : g.withLease = true) (hids : (c.threads t).usedIds ≤ l'.usedIds) :
    LeaseInv C (c.put t s' l') t := by
  have hself : (c.put t s' l').threads t = l' := Config.put_threads_self ..
  obtain ⟨rfl, hlease, hid, hhandles, hcovered, hsub, hred, hclear⟩ := h
  refine ⟨?_, ?_, ?_, ?_, ?_, ?_, ?_, ?_⟩ <;> rw [hself]
  · intro lease' hl
    rw [hlease] at hl
    cases hl
    obtain ⟨k, hk, heq⟩ := hid
    exact ⟨k, Nat.lt_of_lt_of_le hk hids, heq⟩
  · intro i ownerId hs
    rw [hs] at hg
    cases hg
  · intro lease' hl hno
    rw [hlease] at hl
    cases hl
    exact hhandles hno
  · intro lease' hl howned
    rw [hlease] at hl
    cases hl
    exact hcovered howned
  · intro lease' n hl hs
    rw [hlease] at hl
    cases hl
    exact hsub n hs
  · intro lease' n released hl hs
    rw [hlease] at hl
    cases hl
    exact hred n released hs
  · intro lease' hl hs
    rw [hlease] at hl
    cases hl
    exact hclear hs
  · intro i ownerId n hs
    rw [hs] at hg
    cases hg

end

/-! ## §3. The acting context. -/

theorem finishedLease_eq_some {lease lease' : LocalRuntimeLease}
    (h : finishedLease lease = some lease') : lease' = lease ∧ 1 ≤ lease.handleCount := by
  unfold finishedLease at h
  split at h
  · cases h
  next hne =>
    injection h with h
    exact ⟨h.symm, Nat.pos_of_ne_zero hne⟩

/-- A context at rest without a lease knows nothing. -/
theorem LeaseInv.of_none {u : Ctx} (hlease : (c.threads u).lease = none)
    (hrest : (c.threads u).stage = .rest) : LeaseInv C c u := by
  constructor <;> intros <;> simp_all

section

variable [Fintype Ctx] [DecidableEq Ctx] (h : Ledger C c) (e : Effect C c t s' l')
  (hids : (c.threads t).usedIds ≤ l'.usedIds)
include h e hids

theorem Ledger.kept_self
    (hcount : ∀ lease, (c.threads t).lease = some lease → Owned c lease →
      (s'.slots lease.slotIndex).handleCount = count c lease.slotIndex) :
    Kept c (c.put t s' l') t := by
  refine ⟨by rw [Config.put_threads_self]; exact hids, fun lease hlease howned => ?_⟩
  have hid : IdOf C c t lease.ownerId := (h.context t).lease_used lease hlease
  have howned := h.owned_of_put e hid.used howned
  exact ⟨howned, hcount lease hlease howned⟩

theorem Ledger.mild_self (hlease : l'.lease = (c.threads t).lease)
    (hcount : ∀ i, (s'.slots i).handleCount = count c i) (hmild : l'.stage.Mild)
    (hrel : l'.stage.releases = (c.threads t).stage.releases)
    (hoff : l'.stage.offset = (c.threads t).stage.offset) : LeaseInv C (c.put t s' l') t := by
  refine (h.context t).to_mild (h.kept_self e hids fun lease _ _ => hcount _) ?_ ?_ ?_ ?_ <;>
    rw [Config.put_threads_self] <;> assumption

/-- The end of a release: the lease is forgotten or has handles left, and the slot
shows at least as many as before. -/
theorem Ledger.finished_self {lease : LocalRuntimeLease}
    (hlease : (c.threads t).lease = some lease) (hoff : 0 ≤ (c.threads t).stage.offset)
    (hcount : (s'.slots lease.slotIndex).handleCount = count c lease.slotIndex)
    (hstage : l'.stage = .rest) (hlease' : l'.lease = finishedLease lease) :
    LeaseInv C (c.put t s' l') t := by
  have hself : (c.put t s' l').threads t = l' := Config.put_threads_self ..
  have hid : IdOf C c t lease.ownerId := (h.context t).lease_used lease hlease
  cases hfinished : finishedLease lease with
  | none => exact .of_none (by rw [hself, hlease', hfinished]) (by rw [hself, hstage])
  | some lease' =>
      obtain ⟨rfl, hone⟩ := finishedLease_eq_some hfinished
      have hnext : LeaseNext C c t s' l' lease' .rest := by
        refine ⟨hstage, hlease'.trans hfinished, hid, fun _ => hone, fun howned => ?_, nofun,
          nofun, nofun⟩
        have hcovered := (h.context t).covered lease' hlease (h.owned_of_put e hid.used howned)
        rw [hcount]
        unfold shown at hcovered
        show (lease'.handleCount : Int) + 0 ≤ _
        omega
      exact hnext.inv rfl hids

/-- After the handle is off the slot, or there was none. -/
theorem Ledger.afterSub_self {lease : LocalRuntimeLease} {n : Int}
    (hlease : (c.threads t).lease = some lease)
    (hcount : (s'.slots lease.slotIndex).handleCount = count c lease.slotIndex)
    (hoff : 0 ≤ (c.threads t).stage.offset)
    (hn : Owned c lease → count c lease.slotIndex < n ∨ count c lease.slotIndex ≤ 0)
    (hstage : l'.stage = afterSubStage lease n) (hlease' : l'.lease = some lease) :
    LeaseInv C (c.put t s' l') t := by
  have hid : IdOf C c t lease.ownerId := (h.context t).lease_used lease hlease
  have hcovered (howned : Owned (c.put t s' l') lease) :
      (lease.handleCount : Int) + 0 ≤ (s'.slots lease.slotIndex).handleCount := by
    have hcovered := (h.context t).covered lease hlease (h.owned_of_put e hid.used howned)
    rw [hcount]
    unfold shown at hcovered
    omega
  rcases afterSubStage_cases lease n with ⟨heq, hone, hzero⟩ | ⟨heq, -⟩
  · have hnext : LeaseNext C c t s' l' lease .clearing := by
      refine ⟨hstage.trans heq, hlease', hid, nofun, hcovered, nofun, nofun,
        fun _ => ⟨hzero, fun howned => ?_⟩⟩
      have hnonneg := h.count_nonneg lease.slotIndex
      have hbound := hn (h.owned_of_put e hid.used howned)
      rw [hcount]
      omega
    exact hnext.inv rfl hids
  · have hnext : LeaseNext C c t s' l' lease .leaving :=
      ⟨hstage.trans heq, hlease', hid, nofun, hcovered, nofun, nofun, nofun⟩
    exact hnext.inv rfl hids

/-- **What the acting context knows after the step.** -/
theorem Ledger.context_self : LeaseInv C (c.put t s' l') t := by
  have hself : (c.put t s' l').threads t = l' := Config.put_threads_self ..
  have hinv := h.context t
  have hid {lease : LocalRuntimeLease} (hlease : (c.threads t).lease = some lease) :
      IdOf C c t lease.ownerId := hinv.lease_used lease hlease
  have hcovered {lease : LocalRuntimeLease} (hlease : (c.threads t).lease = some lease)
      (howned : Owned (c.put t s' l') lease) :
      lease.handleCount + (c.threads t).stage.offset ≤ count c lease.slotIndex :=
    hinv.covered lease hlease (h.owned_of_put e (hid hlease).used howned)
  have he := e
  cases he with
  | quiet hsame hstage hlease =>
      refine hinv.keep (h.kept_self e hids fun lease _ _ => hsame.handleCount _) ?_ ?_ <;>
        rw [hself] <;> assumption
  | beginRetain lease hrest hlease hs hstage hlease' =>
      refine LeaseNext.inv (g := .adding) ⟨hstage, hlease', hinv.lease_used lease hlease, fun _ => ?_,
        fun howned => ?_, nofun, nofun, nofun⟩ rfl hids
      · exact Nat.le_add_left 1 _
      · have hcov := hcovered hlease howned
        rw [hrest] at hcov
        rw [hs]
        simp only [Stage.offset] at hcov ⊢
        show ((lease.handleCount + 1 : Nat) : Int) + -1 ≤ count c lease.slotIndex
        omega
  | beginRelease lease hrest hlease hs hstage hlease' =>
      refine LeaseNext.inv (g := .releasing) ⟨hstage, hlease', hinv.lease_used lease hlease,
        nofun, fun howned => ?_, nofun, nofun, nofun⟩ rfl hids
      have hcov := hcovered hlease howned
      have hone := hinv.handles lease hlease (by rw [hrest]; rfl)
      rw [hrest] at hcov
      rw [hs]
      simp only [Stage.offset] at hcov ⊢
      show ((lease.handleCount - 1 : Nat) : Int) + 1 ≤ count c lease.slotIndex
      omega
  | take i ownerId hrest hscan hfree hs hstage hlease' hused =>
      obtain ⟨hnone, k, rfl, hk⟩ := (h.localInv t).scan ownerId hscan
      have hno : l'.lease = none := hlease'.trans hnone
      constructor <;> rw [hself] <;> intros <;> simp_all
      exact ⟨k, by omega, rfl⟩
  | openLease i ownerId hclaimed hfree hs hstage hlease' =>
      refine LeaseNext.inv (g := .adding) ⟨hstage, hlease', (hinv.claimed i ownerId hclaimed).2,
        fun _ => Nat.le_refl 1, fun _ => ?_, nofun, nofun, nofun⟩ rfl hids
      rw [hs, setHandleCount_self]
      exact Int.le_refl 0
  | addOpen hstage hs hstage' hlease' =>
      refine h.mild_self e hids hlease' (fun _ => by rw [hs]) (.inl ?_) ?_ ?_ <;>
        simp only [hstage, hstage'] <;> rfl
  | addHandle lease hstage hlease howned hs hstage' hlease' =>
      refine LeaseNext.inv (g := .retained) ⟨hstage', hlease', hid hlease,
        fun _ => hinv.handles lease hlease (by rw [hstage]; rfl), fun howned => ?_, nofun, nofun,
        nofun⟩ rfl hids
      have hcov := hcovered hlease howned
      rw [hstage] at hcov
      rw [hs, setHandleCount_self]
      simp only [Stage.offset] at hcov ⊢
      omega
  | endRetain hstage hsame hstage' hlease' =>
      refine h.mild_self e hids hlease' (fun _ => hsame.handleCount _) (.inl ?_) ?_ ?_ <;>
        simp only [hstage, hstage'] <;> rfl
  | skip lease hstage hlease hne hs hstage' hlease' =>
      exact h.finished_self e hids hlease (by rw [hstage]; decide) (by rw [hs]) hstage' hlease'
  | load lease hstage hlease howner hs hstage' hlease' =>
      refine h.mild_self e hids (hlease'.trans hlease.symm) (fun _ => by rw [hs]) (.inl ?_) ?_ ?_ <;>
        simp only [hstage, hstage'] <;> rfl
  | loadHandles lease hstage hlease hpos hs hstage' hlease' =>
      refine LeaseNext.inv (g := .subtracting (count c lease.slotIndex)) ⟨hstage', hlease',
        hid hlease, nofun, fun howned => ?_, ?_, nofun, nofun⟩ rfl hids
      · have hcov := hcovered hlease howned
        rw [hstage] at hcov
        rw [hs]
        exact hcov
      · rintro n ⟨rfl⟩
        exact ⟨hpos, fun _ => by rw [hs]⟩
  | loadNothing lease hstage hlease hnot hs hstage' hlease' =>
      exact h.afterSub_self e hids hlease (by rw [hs]) (by rw [hstage]; decide)
        (fun _ => .inr hnot) hstage' hlease'
  | sub lease n hstage hlease howned hs hstage' hlease' =>
      obtain ⟨hn, hcount⟩ := hinv.subtracting lease n hlease hstage
      have hput : (s'.slots lease.slotIndex).handleCount = n - 1 := by
        rw [hs, setHandleCount_self, hcount howned]
      refine LeaseNext.inv (g := .reducing n 1) ⟨hstage', hlease', hid hlease, nofun,
        fun howned => ?_, nofun, ?_, nofun⟩ rfl hids
      · have hcov := hcovered hlease howned
        rw [hstage] at hcov
        rw [hput]
        have hcount := hcount (h.owned_of_put e (hid hlease).used howned)
        simp only [Stage.offset] at hcov ⊢
        omega
      · rintro n' released ⟨rfl, rfl⟩
        exact ⟨by decide, fun _ => hput⟩
  | reduced lease n released hstage hlease hred hstage' hlease' =>
      have hcount := (hinv.reducing lease n released hlease hstage).2
      refine h.afterSub_self e hids hlease (hred.sameSlots _).2 (by rw [hstage]; exact Int.le_refl 0)
        (fun howned => .inl ?_) hstage' hlease'
      rw [hcount howned]
      omega
  | clear lease hstage hlease hfree hs hstage' hlease' =>
      refine LeaseNext.inv (g := .leaving) ⟨hstage', hlease', hid hlease, nofun,
        fun howned => ?_, nofun, nofun, nofun⟩ rfl hids
      -- the owner word is 0, so nothing is owned
      have hpos := (hid hlease).pos
      have hown := howned.owner_eq
      have hzero : owner (c.put t s' l') lease.slotIndex = 0 := by
        show (s'.slots lease.slotIndex).ownerId = 0
        rw [hs, setOwnerId_self]
      omega
  | wipe i hclear hs hstage hlease' =>
      refine hinv.keep (h.kept_self e hids fun lease hlease howned => ?_) ?_ ?_
      · have hpos := (hid hlease).pos
        have hown := howned.owner_eq
        rw [hs]
        by_cases hi : lease.slotIndex = i
        · rw [hi] at hown ⊢
          rw [setHandleCount_self]
          rcases hclear with hzero | hzero
          · omega
          · exact hzero.symm
        · rw [setHandleCount_ne _ hi]
      · rw [hself, hstage]
      · rw [hself, hlease']
  | leave lease hstage hlease hsame hstage' hlease' =>
      exact h.finished_self e hids hlease (by rw [hstage]; decide) (hsame.handleCount _) hstage'
        hlease'
  | claimBack i ownerId hstage howner hpos hs hstage' hlease' =>
      refine h.mild_self e hids hlease' (fun _ => by rw [hs, setOwnerId_handleCount]) (.inl ?_)
        ?_ ?_ <;> simp only [hstage, hstage'] <;> rfl
  | handBack i ownerId hstage howner hs hstage' hlease' =>
      refine h.mild_self e hids hlease' (fun _ => by rw [hs, setOwnerId_handleCount]) (.inl ?_)
        ?_ ?_ <;> simp only [hstage, hstage'] <;> rfl
  | drain i ownerId hstage hcond hs hstage' hlease' =>
      refine h.mild_self e hids hlease' (fun _ => by rw [hs])
        (.inr ⟨_, _, _, hstage', Int.le_max_left 0 _⟩) ?_ ?_ <;>
        simp only [hstage, hstage'] <;> rfl
  | drained i ownerId n hstage hred hstage' hlease' =>
      refine h.mild_self e hids hlease' (fun _ => (hred.sameSlots _).2)
        (.inr ⟨_, _, _, hstage', Int.le_refl 0⟩) ?_ ?_ <;>
        simp only [hstage, hstage'] <;> rfl
  | free i ownerId hstage hcond hs hstage' hlease' =>
      refine h.mild_self e hids hlease' (fun _ => by rw [hs, setOwnerId_handleCount]) (.inl ?_)
        ?_ ?_ <;> simp only [hstage, hstage'] <;> rfl

end

/-! ## §4. The credits. -/

/-- A sum of which one term has changed. -/
theorem sum_eq_of_one {ι : Type} [Fintype ι] [DecidableEq ι] {f f' : ι → Int} (i : ι)
    (hsame : ∀ j, j ≠ i → f' j = f j) : ∑ j, f' j = ∑ j, f j + (f' i - f i) := by
  have hmem : i ∈ Finset.univ := Finset.mem_univ i
  have hrest : ∑ j ∈ Finset.univ.erase i, f' j = ∑ j ∈ Finset.univ.erase i, f j :=
    Finset.sum_congr rfl fun j hj => hsame j (Finset.ne_of_mem_erase hj)
  rw [← Finset.add_sum_erase _ f' hmem, ← Finset.add_sum_erase _ f hmem, hrest]
  omega

theorem credit_eq {i : SlotIndex} (h : Credited c i) : credit c i = count c i := if_pos h

theorem credit_of_not {i : SlotIndex} (h : ¬Credited c i) : credit c i = 0 := if_neg h

theorem credit_of_count_zero {i : SlotIndex} (h : count c i = 0) : credit c i = 0 := by
  unfold credit
  rw [h]
  split <;> rfl

theorem credit_of_owner_zero {i : SlotIndex} (h : owner c i = 0) : credit c i = 0 :=
  credit_of_not fun hc => hc.1 h

theorem credit_of_claimed {u : Ctx} {i : SlotIndex} {ownerId : Int}
    (hstage : (c.threads u).stage = .claimed i ownerId) (hown : OwnOrFree c i ownerId) :
    credit c i = 0 := by
  refine credit_of_not fun hc => ?_
  obtain ⟨hne, hclaimed, -⟩ := hc
  obtain ⟨hne', hne''⟩ := hclaimed u ownerId hstage
  rcases hown with hzero | heq | heq
  · exact hne hzero
  · exact hne' heq
  · exact hne'' heq

theorem credit_of_drains {u : Ctx} {i : SlotIndex} {ownerId : Int}
    (hdrains : (c.threads u).stage.Drains i ownerId) (hown : owner c i = -ownerId) :
    credit c i = 0 := by
  refine credit_of_not fun hc => hc.2.2 u ?_
  rw [hown, Int.neg_neg]
  exact hdrains

/-- Slots in the same condition have the same credit. -/
theorem credit_congr {c' : LeaseConfig Ctx} {i : SlotIndex} (hcount : count c' i = count c i)
    (hcredited : Credited c' i ↔ Credited c i) : credit c' i = credit c i := by
  by_cases h : Credited c i
  · rw [credit_eq h, credit_eq (hcredited.mpr h), hcount]
  · rw [credit_of_not h, credit_of_not fun h' => h (hcredited.mp h')]

section

variable [Fintype Ctx]

/-- The slot of an owned lease is in the counter. -/
theorem Ledger.credited_of_owned (h : Ledger C c) {lease : LocalRuntimeLease}
    (hlease : (c.threads t).lease = some lease) (howned : Owned c lease) :
    Credited c lease.slotIndex := by
  have hid : IdOf C c t lease.ownerId := (h.context t).lease_used lease hlease
  have hpos := hid.pos
  have hown := howned.owner_eq
  refine ⟨by omega, fun u ownerId hclaimed => ?_, fun u hdrains => ?_⟩
  · obtain ⟨hnone, hid'⟩ := (h.context u).claimed _ _ hclaimed
    have hid' : IdOf C c u ownerId := hid'
    have hpos' := hid'.pos
    have hne : ownerId ≠ lease.ownerId := by
      rintro rfl
      obtain rfl := hid.unique hid'
      rw [hlease] at hnone
      cases hnone
    omega
  · have hpos' := (h.recovers u _ _ (.inr hdrains)).1.pos
    rcases howned with heq | ⟨heq, hno⟩
    · omega
    · refine hno u ?_
      rw [heq, Int.neg_neg] at hdrains
      exact hdrains

theorem credit_nonneg (h : Ledger C c) (i : SlotIndex) : 0 ≤ credit c i := by
  unfold credit
  split
  · exact h.count_nonneg i
  · exact Int.le_refl 0

theorem pending_nonneg (h : Ledger C c) (u : Ctx) : 0 ≤ (c.threads u).stage.pending := by
  cases hstage : (c.threads u).stage with
  | added => decide
  | draining i ownerId n => exact (h.context u).draining i ownerId n hstage
  | reducing n released =>
      obtain ⟨lease, hlease⟩ := Option.isSome_iff_exists.mp
        ((h.localInv u).lease (by rw [hstage]; rfl))
      exact ((h.context u).reducing lease n released hlease hstage).1
  | rest | claimed | adding | retained | releasing | loading | subtracting | clearing | leaving
  | recovering => exact Int.le_refl 0

/-- The handles that a context holds back are in the counter. -/
theorem Ledger.pending_le (h : Ledger C c) (u : Ctx) :
    (c.threads u).stage.pending ≤ c.shared.openHandleCount := by
  have hcredits : 0 ≤ ∑ i, credit c i := Finset.sum_nonneg fun i _ => credit_nonneg h i
  have hone : (c.threads u).stage.pending ≤ ∑ v, (c.threads v).stage.pending :=
    Finset.single_le_sum (fun v _ => pending_nonneg h v) (Finset.mem_univ u)
  rw [h.accounts]
  omega

end

section

variable [DecidableEq Ctx]

/-- The two stages mean the same for the slot. -/
structure SameFor (g g' : Stage) (i : SlotIndex) : Prop where
  claimed : ∀ ownerId, g' = .claimed i ownerId ↔ g = .claimed i ownerId
  drains : ∀ ownerId, g'.Drains i ownerId ↔ g.Drains i ownerId

/-- The slot that a stage claims or drains. -/
def Stage.about : Stage → Option SlotIndex
  | .claimed i _ | .draining i _ _ => some i
  | _ => none

omit [DecidableEq Ctx] in
theorem SameFor.of_about {g g' : Stage} {i : SlotIndex} (h : g.about ≠ some i)
    (h' : g'.about ≠ some i) : SameFor g g' i := by
  refine ⟨fun ownerId => ⟨?_, ?_⟩, fun ownerId => ⟨?_, ?_⟩⟩
  · rintro rfl
    exact absurd rfl h'
  · rintro rfl
    exact absurd rfl h
  · rintro ⟨n, rfl⟩
    exact absurd rfl h'
  · rintro ⟨n, rfl⟩
    exact absurd rfl h

@[simp] theorem afterSubStage_about (lease : LocalRuntimeLease) (n : Int) :
    (afterSubStage lease n).about = none := by
  unfold afterSubStage
  split <;> rfl

theorem claimed_put {i : SlotIndex} (hsame : SameFor (c.threads t).stage l'.stage i) (u : Ctx)
    (ownerId : Int) : ((c.put t s' l').threads u).stage = .claimed i ownerId
      ↔ (c.threads u).stage = .claimed i ownerId := by
  by_cases hu : u = t
  · subst hu
    rw [Config.put_threads_self]
    exact hsame.claimed ownerId
  · rw [Config.put_threads_ne c hu]

theorem drains_put {i : SlotIndex} (hsame : SameFor (c.threads t).stage l'.stage i) (u : Ctx)
    (ownerId : Int) : ((c.put t s' l').threads u).stage.Drains i ownerId
      ↔ (c.threads u).stage.Drains i ownerId := by
  by_cases hu : u = t
  · subst hu
    rw [Config.put_threads_self]
    exact hsame.drains ownerId
  · rw [Config.put_threads_ne c hu]

theorem credited_put {i : SlotIndex} (howner : (s'.slots i).ownerId = owner c i)
    (hsame : SameFor (c.threads t).stage l'.stage i) :
    Credited (c.put t s' l') i ↔ Credited c i := by
  have howner' : owner (c.put t s' l') i = owner c i := howner
  unfold Credited
  simp only [howner', claimed_put hsame, drains_put hsame]

/-- A claim, and its return, change nothing while nobody drains the slot. -/
theorem credited_negate {i : SlotIndex} (howner : (s'.slots i).ownerId = -owner c i)
    (hsame : SameFor (c.threads t).stage l'.stage i)
    (hno : ∀ u, ¬(c.threads u).stage.Drains i (owner c i))
    (hno' : ∀ u, ¬(c.threads u).stage.Drains i (-owner c i)) :
    Credited (c.put t s' l') i ↔ Credited c i := by
  have howner' : owner (c.put t s' l') i = -owner c i := howner
  unfold Credited
  simp only [howner', claimed_put hsame, drains_put hsame, Int.neg_neg]
  constructor
  · rintro ⟨hne, hclaimed, -⟩
    refine ⟨by omega, fun u ownerId hu => ?_, hno'⟩
    have hids := hclaimed u ownerId hu
    omega
  · rintro ⟨hne, hclaimed, -⟩
    refine ⟨by omega, fun u ownerId hu => ?_, hno⟩
    have hids := hclaimed u ownerId hu
    omega

theorem credit_put {i : SlotIndex} (howner : (s'.slots i).ownerId = owner c i)
    (hcount : (s'.slots i).handleCount = count c i)
    (hsame : SameFor (c.threads t).stage l'.stage i) :
    credit (c.put t s' l') i = credit c i :=
  credit_congr hcount (credited_put howner hsame)

variable [Fintype Ctx]

/-- The open counter is what the slots are credited with and what the contexts hold back. -/
def Balanced (c : LeaseConfig Ctx) : Prop :=
  c.shared.openHandleCount = ∑ i, credit c i + ∑ u, (c.threads u).stage.pending

/-- The sum after a step that changes the credit of one slot at most. -/
theorem Ledger.accounts_of (h : Ledger C c) (i : SlotIndex)
    (hcredit : ∀ j, j ≠ i → credit (c.put t s' l') j = credit c j)
    (hopen : s'.openHandleCount = c.shared.openHandleCount
      + (credit (c.put t s' l') i - credit c i)
      + (l'.stage.pending - (c.threads t).stage.pending)) : Balanced (c.put t s' l') := by
  have hpending : ∑ u, ((c.put t s' l').threads u).stage.pending
      = ∑ u, (c.threads u).stage.pending + (l'.stage.pending - (c.threads t).stage.pending) := by
    rw [sum_eq_of_one t fun u hu => by rw [Config.put_threads_ne c hu], Config.put_threads_self]
  show s'.openHandleCount = _
  rw [hopen, sum_eq_of_one i hcredit, hpending, h.accounts]
  omega

/-- The sum after a step that changes no credit. -/
theorem Ledger.accounts_of_same (h : Ledger C c)
    (hcredit : ∀ j, credit (c.put t s' l') j = credit c j)
    (hopen : s'.openHandleCount = c.shared.openHandleCount
      + (l'.stage.pending - (c.threads t).stage.pending)) : Balanced (c.put t s' l') := by
  refine h.accounts_of 0 (fun j _ => hcredit j) ?_
  rw [hopen, hcredit 0]
  omega

/-- The sum after a step that writes no slot and neither claims nor drains one. -/
theorem Ledger.accounts_silent (h : Ledger C c) {g g' : Stage} (hstage : (c.threads t).stage = g)
    (hstage' : l'.stage = g') (hg : g.about = none) (hg' : g'.about = none)
    (hs : SameSlots c.shared s')
    (hopen : s'.openHandleCount = c.shared.openHandleCount + (g'.pending - g.pending)) :
    Balanced (c.put t s' l') := by
  subst hstage hstage'
  refine h.accounts_of_same (fun i => credit_put (hs i).1 (hs i).2 (.of_about ?_ ?_)) hopen
  · rw [hg]; nofun
  · rw [hg']; nofun

/-- The sum after a store to the owner word of a slot that has no credit before the step
and none after it. -/
theorem Ledger.accounts_owner (h : Ledger C c) {i : SlotIndex} {v : Int}
    (hs : s' = c.shared.setOwnerId i v) (hzero : credit c i = 0)
    (hzero' : credit (c.put t s' l') i = 0)
    (hfor : ∀ j, j ≠ i → SameFor (c.threads t).stage l'.stage j)
    (hpending : l'.stage.pending = (c.threads t).stage.pending) : Balanced (c.put t s' l') := by
  refine h.accounts_of i (fun j hj => credit_put ?_ ?_ (hfor j hj)) ?_
  · rw [hs, setOwnerId_ne _ hj]
  · rw [hs, setOwnerId_handleCount]
  · rw [hzero, hzero', hpending, hs, setOwnerId_openHandleCount]
    omega

/-- The sum after the handle count of a slot without credit has been cleared. -/
theorem Ledger.accounts_count (h : Ledger C c) {i : SlotIndex}
    (hs : s' = c.shared.setHandleCount i 0) (hzero : credit c i = 0)
    (hfor : ∀ j, j ≠ i → SameFor (c.threads t).stage l'.stage j)
    (hpending : l'.stage.pending = (c.threads t).stage.pending) : Balanced (c.put t s' l') := by
  have hzero' : credit (c.put t s' l') i = 0 := by
    refine credit_of_count_zero ?_
    show (s'.slots i).handleCount = 0
    rw [hs, setHandleCount_self]
  refine h.accounts_of i (fun j hj => credit_put ?_ ?_ (hfor j hj)) ?_
  · rw [hs, setHandleCount_ownerId]
  · rw [hs, setHandleCount_ne _ hj]
  · rw [hzero, hzero', hpending, hs, setHandleCount_openHandleCount]
    omega

/-- The sum after a handle has moved between a context and the slot of its lease. -/
theorem Ledger.accounts_moved (h : Ledger C c) {lease : LocalRuntimeLease} {g g' : Stage} {d : Int}
    (hlease : (c.threads t).lease = some lease) (howned : Owned c lease)
    (hs : s' = c.shared.setHandleCount lease.slotIndex (count c lease.slotIndex + d))
    (hstage : (c.threads t).stage = g) (hstage' : l'.stage = g') (hg : g.about = none)
    (hg' : g'.about = none) (hpending : g'.pending + d = g.pending) :
    Balanced (c.put t s' l') := by
  subst hstage hstage'
  have hfor (i : SlotIndex) : SameFor (c.threads t).stage l'.stage i :=
    .of_about (by rw [hg]; nofun) (by rw [hg']; nofun)
  have hcredited := h.credited_of_owned hlease howned
  have hcredited' : Credited (c.put t s' l') lease.slotIndex :=
    (credited_put (by rw [hs, setHandleCount_ownerId]) (hfor _)).mpr hcredited
  refine h.accounts_of lease.slotIndex (fun j hj => credit_put ?_ ?_ (hfor j)) ?_
  · rw [hs, setHandleCount_ownerId]
  · rw [hs, setHandleCount_ne _ hj]
  · rw [credit_eq hcredited, credit_eq hcredited']
    show s'.openHandleCount = c.shared.openHandleCount
      + ((s'.slots lease.slotIndex).handleCount - count c lease.slotIndex)
      + (l'.stage.pending - (c.threads t).stage.pending)
    rw [hs, setHandleCount_self, setHandleCount_openHandleCount]
    omega

/-- The sum after a claim on a slot, or its return, while nobody drains the slot. -/
theorem Ledger.accounts_negated (h : Ledger C c) {i : SlotIndex} {v : Int}
    (hs : s' = c.shared.setOwnerId i v) (howner : v = -owner c i)
    (hfor : ∀ j, SameFor (c.threads t).stage l'.stage j)
    (hpending : l'.stage.pending = (c.threads t).stage.pending)
    (hno : ∀ u, ¬(c.threads u).stage.Drains i (owner c i))
    (hno' : ∀ u, ¬(c.threads u).stage.Drains i (-owner c i)) : Balanced (c.put t s' l') := by
  refine h.accounts_of_same (fun j => ?_) ?_
  · have hcount : (s'.slots j).handleCount = count c j := by rw [hs, setOwnerId_handleCount]
    by_cases hj : j = i
    · subst hj
      refine credit_congr hcount (credited_negate ?_ (hfor j) hno hno')
      rw [hs, setOwnerId_self, howner]
    · exact credit_put (by rw [hs, setOwnerId_ne _ hj]) hcount (hfor j)
  · rw [hs, hpending, setOwnerId_openHandleCount]
    omega

omit [DecidableEq Ctx] [Fintype Ctx] in
/-- A context that has a slot claimed has not begun to drain it. -/
theorem Stage.not_drains {g : Stage} {i : SlotIndex} {ownerId : Int}
    (hstage : g = .recovering i ownerId) : ¬g.Drains i ownerId := by
  rintro ⟨n, hn⟩
  rw [hstage] at hn
  cases hn

omit [DecidableEq Ctx] in
/-- The slot of a claim has its credit until the claim drains it. -/
theorem Ledger.credited_of_claim (h : Ledger C c) {i : SlotIndex} {ownerId : Int}
    (hstage : (c.threads t).stage = .recovering i ownerId) (howner : owner c i = -ownerId)
    (hnot : ∀ u, (c.threads u).stage ≠ .claimed i ownerId) : Credited c i := by
  have hpos := (h.recovers t _ _ (.inl hstage)).1.pos
  refine ⟨by omega, fun u id hclaimed => ?_, fun u hu => ?_⟩
  · have hid : IdOf C c u id := ((h.context u).claimed _ _ hclaimed).2
    have hpos' := hid.pos
    have hne : id ≠ ownerId := by
      rintro rfl
      exact hnot u hclaimed
    omega
  · rw [howner, Int.neg_neg] at hu
    obtain rfl := h.unique u t _ _ (.inr hu) (.inl hstage)
    exact Stage.not_drains hstage hu

/-- The sum after a recovery has loaded the handle count: the slot loses what the context
now holds back. -/
theorem Ledger.accounts_drain (h : Ledger C c) {i : SlotIndex} {ownerId : Int}
    (hstage : (c.threads t).stage = .recovering i ownerId)
    (hcond : owner c i = -ownerId ∧ (∀ u, (c.threads u).stage ≠ .claimed i ownerId)
      ∨ count c i ≤ 0)
    (hstage' : l'.stage = .draining i ownerId (max 0 (count c i))) :
    Balanced (c.put t c.shared l') := by
  have hnonneg := h.count_nonneg i
  refine h.accounts_of i (fun j hj => credit_put rfl rfl (.of_about ?_ ?_)) ?_
  · rw [hstage]; nofun
  · rw [hstage']
    exact fun heq => hj (Option.some.inj heq).symm
  rw [hstage, hstage']
  show c.shared.openHandleCount = c.shared.openHandleCount
    + (credit (c.put t c.shared l') i - credit c i) + (max 0 (count c i) - 0)
  rcases hcond with ⟨howner, hnot⟩ | hzero
  · have hzero' : credit (c.put t c.shared l') i = 0 := by
      refine credit_of_drains (u := t) ⟨max 0 (count c i), ?_⟩ howner
      rw [Config.put_threads_self, hstage']
    rw [credit_eq (h.credited_of_claim hstage howner hnot), hzero']
    omega
  · have hzero : count c i = 0 := by omega
    have hzero' : credit (c.put t c.shared l') i = 0 := credit_of_count_zero hzero
    rw [credit_of_count_zero hzero, hzero', hzero]
    simp

/-- What `reduceOpenHandleCount` takes off is there to be taken. -/
theorem Reduced.openHandleCount {n : Int} {s s' : Shared} (h : Reduced n s s') (hn : 0 ≤ n)
    (hle : n ≤ s.openHandleCount) : s'.openHandleCount = s.openHandleCount - n := by
  rcases h with rfl | ⟨hzero, rfl⟩
  · exact Int.max_eq_right (by omega)
  · omega

omit [DecidableEq Ctx] in
/-- A context takes off the counter what it holds back. -/
theorem Ledger.reduced_open (h : Ledger C c) {n : Int}
    (hpending : (c.threads t).stage.pending = n) (hred : Reduced n c.shared s') :
    s'.openHandleCount = c.shared.openHandleCount - n := by
  subst hpending
  exact hred.openHandleCount (pending_nonneg h t) (h.pending_le t)

omit [DecidableEq Ctx] in
/-- A lease that is about to give its slot up has no handles left there. -/
theorem Ledger.credit_of_clearing (h : Ledger C c) {lease : LocalRuntimeLease}
    (hstage : (c.threads t).stage = .clearing) (hlease : (c.threads t).lease = some lease)
    (hfree : OwnOrFree c lease.slotIndex lease.ownerId) : credit c lease.slotIndex = 0 := by
  have hempty := ((h.context t).clearing lease hlease hstage).2
  rcases hfree with hzero | hown | hown
  · exact credit_of_owner_zero hzero
  · exact credit_of_count_zero (hempty (.inl hown))
  · by_cases hno : ∀ u, ¬(c.threads u).stage.Drains lease.slotIndex lease.ownerId
    · exact credit_of_count_zero (hempty (.inr ⟨hown, hno⟩))
    · obtain ⟨u, hu⟩ := not_forall_not.mp hno
      exact credit_of_drains hu hown

omit [Fintype Ctx] in
/-- A slot that nobody owns has no credit. -/
theorem credit_of_cleared {i : SlotIndex} (hs : s' = c.shared.setOwnerId i 0) :
    credit (c.put t s' l') i = 0 := by
  refine credit_of_owner_zero ?_
  show (s'.slots i).ownerId = 0
  rw [hs, setOwnerId_self]

/-- **The open counter after the step.** -/
theorem Ledger.accounts_next (h : Ledger C c) (e : Effect C c t s' l') :
    Balanced (c.put t s' l') := by
  have hsame : SameSlots c.shared c.shared := fun _ => ⟨rfl, rfl⟩
  cases e with
  | quiet hs hstage hlease =>
      refine h.accounts_of_same (fun i => credit_put (hs.ownerId i) (hs.handleCount i) ?_) ?_
      · rw [hstage]
        exact ⟨fun _ => Iff.rfl, fun _ => Iff.rfl⟩
      · rw [hstage, hs.openHandleCount]
        omega
  | beginRetain lease hrest hlease hs hstage hlease' =>
      exact h.accounts_silent hrest hstage rfl rfl (hs ▸ hsame) (by rw [hs]; simp [Stage.pending])
  | beginRelease lease hrest hlease hs hstage hlease' =>
      exact h.accounts_silent hrest hstage rfl rfl (hs ▸ hsame) (by rw [hs]; simp [Stage.pending])
  | take i ownerId hrest hscan hfree hs hstage hlease' hused =>
      -- the slot is free before, and claimed after
      have hzero' : credit (c.put t s' l') i = 0 := by
        have hclaimed : ((c.put t s' l').threads t).stage = .claimed i ownerId := by
          rw [Config.put_threads_self, hstage]
        refine credit_of_claimed hclaimed (.inr (.inl ?_))
        show (s'.slots i).ownerId = ownerId
        rw [hs, setOwnerId_self]
      refine h.accounts_owner hs (credit_of_owner_zero hfree) hzero' (fun j hj => .of_about ?_ ?_) ?_
      · rw [hrest]; nofun
      · rw [hstage]
        exact fun heq => hj (Option.some.inj heq).symm
      · rw [hstage, hrest]; rfl
  | openLease i ownerId hclaimed hfree hs hstage hlease' =>
      have hzero : credit c i = 0 := hfree.elim (credit_of_claimed hclaimed) credit_of_count_zero
      refine h.accounts_count hs hzero (fun j hj => .of_about ?_ ?_) ?_
      · rw [hclaimed]
        exact fun heq => hj (Option.some.inj heq).symm
      · rw [hstage]; nofun
      · rw [hstage, hclaimed]; rfl
  | addOpen hstage hs hstage' hlease' =>
      refine h.accounts_silent hstage hstage' rfl rfl ?_ ?_ <;> rw [hs]
      · exact fun _ => ⟨rfl, rfl⟩
      · simp [Stage.pending]
  | addHandle lease hstage hlease howned hs hstage' hlease' =>
      exact h.accounts_moved hlease howned hs hstage hstage' rfl rfl rfl
  | endRetain hstage hs hstage' hlease' =>
      exact h.accounts_silent hstage hstage' rfl rfl hs.sameSlots
        (by rw [hs.openHandleCount]; simp [Stage.pending])
  | skip lease hstage hlease hne hs hstage' hlease' =>
      exact h.accounts_silent hstage hstage' rfl rfl (hs ▸ hsame) (by rw [hs]; simp [Stage.pending])
  | load lease hstage hlease howner hs hstage' hlease' =>
      exact h.accounts_silent hstage hstage' rfl rfl (hs ▸ hsame) (by rw [hs]; simp [Stage.pending])
  | loadHandles lease hstage hlease hpos hs hstage' hlease' =>
      exact h.accounts_silent hstage hstage' rfl rfl (hs ▸ hsame) (by rw [hs]; simp [Stage.pending])
  | loadNothing lease hstage hlease hnot hs hstage' hlease' =>
      exact h.accounts_silent hstage hstage' rfl (afterSubStage_about ..) (hs ▸ hsame)
        (by rw [hs, afterSubStage_pending]; simp [Stage.pending])
  | sub lease n hstage hlease howned hs hstage' hlease' =>
      exact h.accounts_moved hlease howned hs hstage hstage' rfl rfl rfl
  | reduced lease n released hstage hlease hred hstage' hlease' =>
      refine h.accounts_silent hstage hstage' rfl (afterSubStage_about ..) hred.sameSlots ?_
      rw [h.reduced_open (by rw [hstage]; rfl) hred, afterSubStage_pending]
      show _ = c.shared.openHandleCount + (0 - released)
      omega
  | clear lease hstage hlease hfree hs hstage' hlease' =>
      refine h.accounts_owner hs (h.credit_of_clearing hstage hlease hfree) (credit_of_cleared hs)
        (fun j hj => .of_about ?_ ?_) ?_
      · rw [hstage]; nofun
      · rw [hstage']; nofun
      · rw [hstage, hstage']; rfl
  | wipe i hclear hs hstage hlease' =>
      have hzero : credit c i = 0 := hclear.elim credit_of_owner_zero credit_of_count_zero
      refine h.accounts_count hs hzero (fun j _ => ?_) (by rw [hstage])
      rw [hstage]
      exact ⟨fun _ => Iff.rfl, fun _ => Iff.rfl⟩
  | leave lease hstage hlease hs hstage' hlease' =>
      exact h.accounts_silent hstage hstage' rfl rfl hs.sameSlots
        (by rw [hs.openHandleCount]; simp [Stage.pending])
  | claimBack i ownerId hstage howner hpos hs hstage' hlease' =>
      subst howner
      refine h.accounts_negated hs rfl
        (fun j => .of_about (by rw [hstage]; nofun) (by rw [hstage']; nofun))
        (by rw [hstage, hstage']; rfl) (fun u hu => ?_) fun u hu => ?_
      · exact absurd rfl (h.recovers u _ _ (.inr hu)).2
      · have hpos' := (h.recovers u _ _ (.inr hu)).1.pos
        omega
  | handBack i ownerId hstage howner hs hstage' hlease' =>
      have hpos := (h.recovers t _ _ (.inl hstage)).1.pos
      refine h.accounts_negated hs (by rw [howner, Int.neg_neg])
        (fun j => .of_about (by rw [hstage]; nofun) (by rw [hstage']; nofun))
        (by rw [hstage, hstage']; rfl) (fun u hu => ?_) fun u hu => ?_
      · have hpos' := (h.recovers u _ _ (.inr hu)).1.pos
        omega
      · -- only the claimant could drain the slot, and it hands it back
        rw [howner, Int.neg_neg] at hu
        obtain rfl := h.unique u t _ _ (.inr hu) (.inl hstage)
        exact Stage.not_drains hstage hu
  | drain i ownerId hstage hcond hs hstage' hlease' =>
      subst hs
      exact h.accounts_drain hstage hcond hstage'
  | drained i ownerId n hstage hred hstage' hlease' =>
      refine h.accounts_of_same (fun j => credit_put (hred.sameSlots j).1 (hred.sameSlots j).2 ?_) ?_
      · rw [hstage, hstage']
        refine ⟨fun _ => by simp, fun id => ?_⟩
        simp [Stage.Drains]
      · rw [h.reduced_open (by rw [hstage]; rfl) hred, hstage, hstage']
        show _ = c.shared.openHandleCount + (0 - n)
        omega
  | free i ownerId hstage hcond hs hstage' hlease' =>
      have hzero : credit c i = 0 :=
        hcond.elim credit_of_owner_zero (credit_of_drains ⟨0, hstage⟩)
      refine h.accounts_owner hs hzero (credit_of_cleared hs) (fun j hj => .of_about ?_ ?_) ?_
      · rw [hstage]
        exact fun heq => hj (Option.some.inj heq).symm
      · rw [hstage']; nofun
      · rw [hstage, hstage']; rfl

end

/-! ## §5. The step and the runs. -/

section

variable [Fintype Ctx] [DecidableEq Ctx]

omit [DecidableEq Ctx] in
theorem Ledger.count_nonneg_next (h : Ledger C c) (e : Effect C c t s' l') (i : SlotIndex) :
    0 ≤ (s'.slots i).handleCount := by
  have hnonneg := h.count_nonneg i
  rcases e.slots_cases with hsame | ⟨j, v, hs', -⟩ | ⟨j, v, hs', hw⟩
  · rw [(hsame i).2]
    exact hnonneg
  · rw [hs', setOwnerId_handleCount]
    exact hnonneg
  · by_cases hj : i = j
    · subst hj
      rw [hs', setHandleCount_self]
      cases hw with
      | openLease | wipe => exact Int.le_refl 0
      | addHandle => omega
      | sub lease n hstage hlease howned _ =>
          obtain ⟨hn, hcount⟩ := (h.context t).subtracting lease n hlease hstage
          rw [hcount howned]
          omega
    · rw [hs', setHandleCount_ne _ hj]
      exact hnonneg

/-- What the other contexts know after the step. -/
theorem Ledger.context_other (h : Ledger C c) (e : Effect C c t s' l') {u : Ctx} (hu : u ≠ t) :
    LeaseInv C (c.put t s' l') u := by
  have hother : (c.put t s' l').threads u = c.threads u := Config.put_threads_ne c hu ..
  refine (h.context u).keep ⟨by rw [hother], fun lease hlease howned => ?_⟩ (by rw [hother])
    (by rw [hother])
  have hid : IdOf C c u lease.ownerId := (h.context u).lease_used lease hlease
  have howned := h.owned_of_put e hid.used howned
  exact ⟨howned, h.count_of_put e hu hid howned⟩

/-- **The ledger is kept by every effect.** -/
theorem Ledger.step (h : Ledger C c) (e : Effect C c t s' l')
    (hnext : LocalNext C t (c.threads t) l') : Ledger C (c.put t s' l') where
  localInv u := by
    by_cases hu : u = t
    · subst hu
      rw [Config.put_threads_self]
      exact hnext.inv
    · rw [Config.put_threads_ne c hu]
      exact h.localInv u
  context u := by
    by_cases hu : u = t
    · subst hu
      exact h.context_self e hnext.used
    · exact h.context_other e hu
  count_nonneg := h.count_nonneg_next e
  owner_used _ := h.owner_used_next e hnext
  recoverer _ := h.recoverer_next e
  recovers _ _ _ := h.recovers_next e hnext
  unique _ _ _ _ := h.unique_next e
  accounts := h.accounts_next e

omit [DecidableEq Ctx] in
/-- The ledger does not look at the clock. -/
theorem Ledger.of_time (h : Ledger C c) (timeMs : Nat) :
    Ledger C { c with shared := { c.shared with timeMs := timeMs } } where
  localInv := h.localInv
  context u := (h.context u).keep ⟨Nat.le_refl _, fun _ _ howned => ⟨howned, rfl⟩⟩ rfl rfl
  count_nonneg := h.count_nonneg
  owner_used := h.owner_used
  recoverer := h.recoverer
  recovers := h.recovers
  unique := h.unique
  accounts := h.accounts

omit [DecidableEq Ctx] in
theorem Ledger.start (hstart : C.machine.start c.shared c.threads) : Ledger C c := by
  obtain ⟨⟨hopen, -, hslots⟩, hthreads⟩ := hstart
  have hstage (u : Ctx) : (c.threads u).stage = .rest := by rw [hthreads u]; rfl
  have hlease (u : Ctx) : (c.threads u).lease = none := by rw [hthreads u]
  have howner (i : SlotIndex) : owner c i = 0 := by rw [owner, hslots i]
  have hcount (i : SlotIndex) : count c i = 0 := by rw [count, hslots i]
  have hrecovers (u : Ctx) (i : SlotIndex) (ownerId : Int) :
      ¬(c.threads u).stage.Recovers i ownerId := by
    rw [hstage u]
    simp [Stage.Recovers, Stage.Drains]
  refine ⟨fun u => ?_, fun u => .of_none (hlease u) (hstage u), fun i => ?_, fun i hne => ?_,
    fun i hneg => ?_, fun u i ownerId hu => ?_, fun u v i ownerId hu _ => ?_, ?_⟩
  · rw [hthreads u]
    refine ⟨trivial, fun ownerId hscan => ?_, fun hstage => ?_⟩
    · exact absurd hscan (by simp [Pc.scanId])
    · exact absurd hstage (by decide)
  · rw [hcount i]
  · exact absurd (howner i) hne
  · have hzero := howner i
    omega
  · exact absurd hu (hrecovers u i ownerId)
  · exact absurd hu (hrecovers u i ownerId)
  · have hcredits : ∑ i, credit c i = 0 :=
      Finset.sum_eq_zero fun i _ => credit_of_owner_zero (howner i)
    have hpending : ∑ u, (c.threads u).stage.pending = 0 :=
      Finset.sum_eq_zero fun u _ => by rw [hstage u]; rfl
    rw [hopen, hcredits, hpending]
    rfl

/-- A calm step of a call that is not clearing the runtime's words. -/
def CalmCall (c : LeaseConfig Ctx) : ThreadLabel Ctx Act → Prop
  | .thread t a => Calm c (.thread t a) ∧ (c.threads t).pc.clears = false
  | .env => True

omit [DecidableEq Ctx] in
/-- **What a calm choice does.** -/
theorem Ledger.effect (h : Ledger C c) {a : Act} (hcalm : CalmCall c (.thread t a))
    (hact : C.machine.act t a c.shared (c.threads t) s' l') :
    Effect C c t s' l' ∧ LocalNext C t (c.threads t) l' :=
  ⟨choose_effect hcalm.1 (h.localInv t) hcalm.2 hact, choose_local (h.localInv t) hact⟩

theorem Ledger.next {c' : LeaseConfig Ctx} {label : ThreadLabel Ctx Act} (h : Ledger C c)
    (hcalm : CalmCall c label) (hn : C.system.next c label c') : Ledger C c' := by
  cases hn with
  | thread hact =>
      obtain ⟨e, hnext⟩ := h.effect hcalm hact
      exact h.step e hnext
  | env henv =>
      obtain ⟨timeMs, -, rfl⟩ := henv
      exact h.of_time timeMs

/-- **The ledger holds in every calm run.** -/
theorem Ledger.reach {ok : LeaseConfig Ctx → ThreadLabel Ctx Act → Prop}
    (hok : ∀ c label, ok c label → CalmCall c label) (h : Reach C.system ok c) : Ledger C c :=
  h.invariant (fun _ => Ledger.start) fun _ _ _ hinv hl hn => hinv.next (hok _ _ hl) hn

end

end MemoryWriteAhead.Lease
