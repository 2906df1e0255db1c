/-
  MemoryWriteAhead.Lease.Reclaim
  ──────────────────────────────
  **THE SLOT OF A DEAD OWNER IS RECLAIMED EXACTLY ONCE.**

  Any number of `recoverAbandonedRuntimeOwnerLeases` and
  `recoverTerminatedMemoryWriteAheadRuntimeOwner` calls race on the slots of owners
  that have died, while living owners retain, release and beat.  A dead owner is a
  slot with an owner id that no context's lease has.

    • `Tally` — the record of a run: which call has counted which slot's handles,
      what it has returned, and what the open counter holds on each slot's account,
    • `SlotInv` — a dead owner's slot is untouched, or in the hands of one recovery,
      or reclaimed,
    • `RaceInv` — the whole invariant, with one lemma a kind of step: quiet, within a
      call, on the slot a recovery holds, and on a living owner's own slot.
-/
import MemoryWriteAhead.Lease.Exact
import MemoryWriteAhead.Lease.Watch

namespace MemoryWriteAhead.Lease

open Transition

variable {Ctx : Type}

/-! ## §1. A runtime some of whose owners have died. -/

/-- Context `t` has at the start a lease on slot `i`. -/
def LiveSlot (c₀ : LeaseConfig Ctx) (i : SlotIndex) : Prop :=
  ∃ t lease, (c₀.threads t).lease = some lease ∧ lease.slotIndex = i

/-- The owner id is that of a context's lease. -/
def LiveOwner (c₀ : LeaseConfig Ctx) (ownerId : Int) : Prop :=
  ∃ t lease, (c₀.threads t).lease = some lease ∧ lease.ownerId = ownerId

/-- The runtime after the deaths: the contexts are between their calls, their
slots agree with their leases, and the open counter is the sum over the owned
slots. -/
structure Scenario (c₀ : LeaseConfig Ctx) : Prop where
  idle : ∀ t, (c₀.threads t).pc = .idle
  lease : ∀ t lease, (c₀.threads t).lease = some lease →
    owner c₀ lease.slotIndex = lease.ownerId ∧ count c₀ lease.slotIndex = lease.handleCount
      ∧ 0 < lease.ownerId ∧ 1 ≤ lease.handleCount
  lease_inj : ∀ t u lease lease', (c₀.threads t).lease = some lease →
    (c₀.threads u).lease = some lease' → lease.ownerId = lease'.ownerId → t = u
  owner_inj : ∀ i j, 0 < owner c₀ i → owner c₀ i = owner c₀ j → i = j
  count_nonneg : ∀ i, 0 < owner c₀ i → 0 ≤ count c₀ i
  open_eq : c₀.shared.openHandleCount = ∑ i with 0 < owner c₀ i, count c₀ i

/-- The contexts from `c₀` on. -/
def Contexts.machineAfter (C : Contexts Ctx) (c₀ : LeaseConfig Ctx) :
    Threads Ctx Shared Local Act where
  start s th := s = c₀.shared ∧ th = c₀.threads
  act := C.machine.act
  env := C.machine.env

/-- The slot whose age a scan is about to compute, and the heartbeat it has loaded. -/
def Pc.reading : Pc → Option (SlotIndex × Int)
  | .recover r (.readAge heartbeatMs) => some (r.slot, heartbeatMs)
  | _ => none

/-- What the contexts do in the race: a retain or release works on a lease of their
own and leaves it a handle, `recoverTerminated` is for dead owners, nobody resets;
and the age that a scan computes of a living owner's heartbeat is not stale. -/
def InRace (staleMs : Int) (c₀ c : LeaseConfig Ctx) : ThreadLabel Ctx Act → Prop
  | .thread t a =>
      match a.choice with
      | .retain => (c.threads t).lease ≠ none
      | .release => ∃ lease, (c.threads t).lease = some lease ∧ 2 ≤ lease.handleCount
      | .recoverTerminated ownerId => ¬LiveOwner c₀ ownerId
      | .reset => False
      | .step =>
          ∀ x, (c.threads t).pc.reading = some x → LiveSlot c₀ x.1 →
            isStale staleMs x.2 c.shared.clockMs = false
      | .beat | .recover => True
  | .env => True

/-! ## §2. The record of a run. -/

/-- What has happened so far. -/
structure Tally (Ctx : Type) where
  /-- how many recoveries a context has begun -/
  calls : Ctx → Nat
  /-- the handles that a context's `k`-th recovery has counted for a slot -/
  counted : Ctx → Nat → SlotIndex → Option Int
  /-- what a context's `k`-th recovery has returned -/
  returned : Ctx → Nat → Option Int
  /-- what the open counter holds on a slot's account -/
  account : SlotIndex → Int
  /-- what has been added to `recoveredAbandonedHandleCount` on a slot's account -/
  added : SlotIndex → Int
  /-- the owner ids whose `recoverTerminated` has returned -/
  finished : Int → Bool

/-- The owner id that a `recoverTerminated` is about. -/
def Pc.terminating : Pc → Option Int
  | .terminatedLoad ownerId _ | .terminatedClaim ownerId _ => some ownerId
  | .recover r _ | .reduceLoad (.recover r) _ | .reduceSwap (.recover r) _ _ =>
      if r.caller = .terminated then some r.ownerId else none
  | _ => none

namespace Tally

variable [DecidableEq Ctx] (r : Tally Ctx)

/-- A recovery begins. -/
def begins (t : Ctx) : Choice → Tally Ctx
  | .recover | .recoverTerminated _ => { r with calls := Function.update r.calls t (r.calls t + 1) }
  | _ => r

def credit (i : SlotIndex) (n : Int) : Tally Ctx :=
  { r with account := Function.update r.account i (r.account i + n) }

/-- Call `k` of context `t` counts `n` handles for slot `i`. -/
def counts (t : Ctx) (k : Nat) (i : SlotIndex) (n : Int) : Tally Ctx :=
  { r with
    counted := Function.update r.counted t
      (Function.update (r.counted t) k (Function.update (r.counted t k) i (some n)))
    added := Function.update r.added i (r.added i + n) }

/-- The next step changes one of the two counters. -/
def moves (t : Ctx) (s : Shared) (l : Local) : Tally Ctx :=
  match l.pc, l.lease with
  | .retainAddOpen, some lease => r.credit lease.slotIndex 1
  | .reduceSwap (.recover rec) n current, _ =>
      if s.openHandleCount = current then r.credit rec.slot (max 0 (current - n) - current) else r
  | .reduceSwap (.release _) n current, some lease =>
      if s.openHandleCount = current then
        r.credit lease.slotIndex (max 0 (current - n) - current)
      else r
  | .recover rec (.addRecovered n), _ => r.counts t (r.calls t) rec.slot n
  | _, _ => r

/-- A recovery returns. -/
def ends (t : Ctx) (l : Local) : Option Outcome → Tally Ctx
  | some (.recovered n) =>
      { r with
        returned := Function.update r.returned t (Function.update (r.returned t) (r.calls t) (some n))
        finished :=
          match l.pc.terminating with
          | some ownerId => Function.update r.finished ownerId true
          | none => r.finished }
  | _ => r

/-- The record after a step. -/
def note (c : LeaseConfig Ctx) : ThreadLabel Ctx Act → Tally Ctx
  | .thread t a =>
      ((r.begins t a.choice).moves t c.shared (c.threads t)).ends t (c.threads t) a.outcome
  | .env => r

/-- Nothing has been counted, and the open counter holds every owned slot's handles. -/
def start (c₀ : LeaseConfig Ctx) : Tally Ctx where
  calls _ := 0
  counted _ _ _ := none
  returned _ _ := none
  account i := if 0 < owner c₀ i then count c₀ i else 0
  added _ := 0
  finished _ := false

end Tally

/-- The race from `c₀` with its record. -/
abbrev Contexts.race [DecidableEq Ctx] (C : Contexts Ctx) (c₀ : LeaseConfig Ctx) :
    System (LeaseConfig Ctx × Tally Ctx) (ThreadLabel Ctx Act) :=
  (C.machineAfter c₀).system.record (.start c₀) Tally.note

/-! ## §3. The invariant. -/

/-- The recovery that has claimed its slot and not yet counted its handles. -/
def Pc.holds : Pc → Option Recovery
  | .recover r (.recheck _) | .recover r .loadHandleCount | .recover r (.clearOwnerId _)
  | .recover r (.clearHandleCount _) | .recover r (.clearHeartbeat _)
  | .recover r (.addRecovered _) => some r
  | .reduceLoad (.recover r) _ | .reduceSwap (.recover r) _ _ => some r
  | _ => none

def Local.Holds (l : Local) (i : SlotIndex) : Prop := ∃ rec, l.pc.holds = some rec ∧ rec.slot = i

/-- The handles that a running recovery has counted so far. -/
def Pc.soFar : Pc → Option Int
  | .recover r _ | .reduceLoad (.recover r) _ | .reduceSwap (.recover r) _ _ =>
      some r.recoveredHandleCount
  | .terminatedLoad _ _ | .terminatedClaim _ _ => some 0
  | _ => none

/-- By how much the slot's handle count differs from the lease's. -/
def Pc.slotDelta : Pc → Int
  | .retainAddOpen | .retainAddHandle => -1
  | .release .loadOwnerId | .release .loadHandleCount | .release (.subHandleCount _) => 1
  | _ => 0

/-- By how much the slot's account in the open counter differs from the lease. -/
def Pc.openDelta : Pc → Int
  | .retainAddOpen => -1
  | .release .loadOwnerId | .release .loadHandleCount | .release (.subHandleCount _)
  | .reduceLoad (.release _) _ | .reduceSwap (.release _) _ _ => 1
  | _ => 0

/-- A lease is the one of the start, with at least one handle. -/
def SameLease : Option LocalRuntimeLease → Option LocalRuntimeLease → Prop
  | none, none => True
  | some lease₀, some lease =>
      lease.slotIndex = lease₀.slotIndex ∧ lease.ownerId = lease₀.ownerId
        ∧ 1 ≤ lease.handleCount
  | _, _ => False

/-- The slot's owner word is no longer the owner id. -/
def Touched (c₀ c : LeaseConfig Ctx) (i : SlotIndex) : Prop := owner c i ≠ owner c₀ i

def Unheld (c : LeaseConfig Ctx) (i : SlotIndex) : Prop := ∀ t, ¬(c.threads t).Holds i

def Tally.Uncounted (r : Tally Ctx) (i : SlotIndex) : Prop :=
  r.added i = 0 ∧ ∀ t k, r.counted t k i = none

/-- What the holder's program counter says of the words and the account of a slot
that was `w₀`. -/
def HeldWords (w₀ w : Slot) (account : Int) : Pc → Prop
  | .recover _ (.recheck h) =>
      h = w₀.heartbeatMs ∧ w = { w₀ with ownerId := -w₀.ownerId } ∧ account = w₀.handleCount
  | .recover _ .loadHandleCount =>
      w = { w₀ with ownerId := -w₀.ownerId } ∧ account = w₀.handleCount
  | .reduceLoad _ n =>
      n = w₀.handleCount ∧ 0 < n ∧ w = { w₀ with ownerId := -w₀.ownerId }
        ∧ account = w₀.handleCount
  | .reduceSwap _ n current =>
      n = w₀.handleCount ∧ 0 < n ∧ 0 < current ∧ w = { w₀ with ownerId := -w₀.ownerId }
        ∧ account = w₀.handleCount
  | .recover _ (.clearOwnerId n) =>
      n = w₀.handleCount ∧ w = { w₀ with ownerId := -w₀.ownerId } ∧ account = 0
  | .recover _ (.clearHandleCount n) =>
      n = w₀.handleCount ∧ w = { w₀ with ownerId := 0 } ∧ account = 0
  | .recover _ (.clearHeartbeat n) =>
      n = w₀.handleCount ∧ w = ⟨0, 0, w₀.heartbeatMs⟩ ∧ account = 0
  | .recover _ (.addRecovered n) => n = w₀.handleCount ∧ w = ⟨0, 0, 0⟩ ∧ account = 0
  | _ => False

/-- **The life of a slot**: a living owner's, or untouched since the start, or held
by one recovery, or reclaimed by one call. -/
inductive SlotInv (c₀ c : LeaseConfig Ctx) (r : Tally Ctx) (i : SlotIndex) : Prop
  | live (t : Ctx) (lease : LocalRuntimeLease) : LiveSlot c₀ i →
      (c.threads t).lease = some lease → lease.slotIndex = i → owner c i = owner c₀ i →
      count c i = lease.handleCount + (c.threads t).pc.slotDelta →
      r.account i = lease.handleCount + (c.threads t).pc.openDelta → Unheld c i →
      r.Uncounted i → SlotInv c₀ c r i
  | untouched : ¬LiveSlot c₀ i → c.shared.slots i = c₀.shared.slots i →
      (r.account i = if 0 < owner c₀ i then count c₀ i else 0) → Unheld c i → r.Uncounted i →
      SlotInv c₀ c r i
  | held (t : Ctx) : ¬LiveSlot c₀ i → 0 < owner c₀ i → (c.threads t).Holds i →
      (∀ u, (c.threads u).Holds i → u = t) →
      HeldWords (c₀.shared.slots i) (c.shared.slots i) (r.account i) (c.threads t).pc →
      r.Uncounted i → SlotInv c₀ c r i
  | reclaimed (t : Ctx) (k : Nat) : ¬LiveSlot c₀ i → 0 < owner c₀ i →
      c.shared.slots i = ⟨0, 0, 0⟩ → r.account i = 0 → r.added i = count c₀ i →
      r.counted t k i = some (count c₀ i) →
      (∀ u j, r.counted u j i ≠ none → u = t ∧ j = k) → Unheld c i → SlotInv c₀ c r i

/-- What a context knows where it is. -/
def PcInv (c₀ c : LeaseConfig Ctx) (l : Local) : Prop :=
  match l.pc with
  | .idle => True
  | .retainAddOpen | .retainAddHandle | .beat _ _ | .release .loadOwnerId
  | .release .loadHandleCount => l.lease.isSome = true
  | .release (.subHandleCount n) => l.lease.isSome = true ∧ 2 ≤ n
  | .reduceLoad (.release n) m => l.lease.isSome = true ∧ 2 ≤ n ∧ m = 1
  | .reduceSwap (.release n) m current => l.lease.isSome = true ∧ 2 ≤ n ∧ m = 1 ∧ 0 < current
  | .recover r .loadOwnerId => r.caller = .client
  | .recover r .loadHeartbeat => r.caller = .client ∧ 0 < r.ownerId ∧ owner c₀ r.slot = r.ownerId
  | .recover r (.readAge h) =>
      r.caller = .client ∧ 0 < r.ownerId ∧ owner c₀ r.slot = r.ownerId
        ∧ (¬LiveSlot c₀ r.slot → h = heartbeat c₀.shared r.slot ∨ h = 0)
  | .recover r (.claim h) =>
      r.caller = .client ∧ 0 < r.ownerId ∧ owner c₀ r.slot = r.ownerId ∧ ¬LiveSlot c₀ r.slot
        ∧ h = heartbeat c₀.shared r.slot
  | .terminatedLoad ownerId i =>
      0 < ownerId ∧ ¬LiveOwner c₀ ownerId
        ∧ ∀ j : SlotIndex, j.val < i.val → owner c₀ j = ownerId → Touched c₀ c j
  | .terminatedClaim ownerId i => 0 < ownerId ∧ ¬LiveOwner c₀ ownerId ∧ owner c₀ i = ownerId
  | .recover _ .handBack | .claim _ _ | .release _ | .reset _ => False
  | .recover r _ | .reduceLoad (.recover r) _ | .reduceSwap (.recover r) _ _ =>
      (r.caller = .client ∨ r.caller = .terminated) ∧ owner c₀ r.slot = r.ownerId

/-- The sum of what a call has counted. -/
def Tally.total (r : Tally Ctx) (t : Ctx) (k : Nat) : Int := ∑ i, (r.counted t k i).getD 0

/-- What a context's calls have counted and returned. -/
structure CallInv (r : Tally Ctx) (t : Ctx) (pc : Pc) : Prop where
  running : ∀ n, pc.soFar = some n → n = r.total t (r.calls t) ∧ r.returned t (r.calls t) = none
  fresh : ∀ k, r.calls t < k → r.returned t k = none ∧ ∀ i, r.counted t k i = none
  returned : ∀ k n, r.returned t k = some n → n = r.total t k
  counted : ∀ k i, r.counted t k i ≠ none →
    r.returned t k ≠ none ∨ k = r.calls t ∧ pc.soFar.isSome = true

/-- **The invariant of the race.** -/
structure RaceInv (c₀ c : LeaseConfig Ctx) (r : Tally Ctx) : Prop where
  open_eq : c.shared.openHandleCount = ∑ i, r.account i
  recovered_eq : c.shared.recoveredAbandonedHandleCount
    = c₀.shared.recoveredAbandonedHandleCount + ∑ i, r.added i
  slot : ∀ i, SlotInv c₀ c r i
  pc : ∀ t, PcInv c₀ c (c.threads t)
  lease : ∀ t, SameLease (c₀.threads t).lease (c.threads t).lease
  call : ∀ t, CallInv r t (c.threads t).pc
  finished : ∀ i, 0 < owner c₀ i → r.finished (owner c₀ i) = true → Touched c₀ c i

section

variable {c₀ c : LeaseConfig Ctx} {r r' : Tally Ctx} {t : Ctx} {i : SlotIndex} {s' : Shared}
  {l' : Local}

theorem sum_update (f : SlotIndex → Int) (i : SlotIndex) (v : Int) :
    ∑ j, Function.update f i v j = ∑ j, f j + (v - f i) := by
  rw [Finset.sum_update_of_mem (Finset.mem_univ i), ← Finset.add_sum_erase _ _ (Finset.mem_univ i),
    Finset.sdiff_singleton_eq_erase]
  omega

/-- The accounts are not negative. -/
theorem SlotInv.account_nonneg (hs : Scenario c₀) (hlease : ∀ t, SameLease (c₀.threads t).lease (c.threads t).lease)
    (h : SlotInv c₀ c r i) : 0 ≤ r.account i := by
  cases h with
  | live t lease hlive hsome hslot howner hcount haccount hunheld huncounted =>
      have hl := hlease t
      rw [hsome] at hl
      have hpos : 1 ≤ lease.handleCount := by
        cases hl₀ : (c₀.threads t).lease with
        | none => rw [hl₀] at hl; exact hl.elim
        | some lease₀ => rw [hl₀] at hl; exact hl.2.2
      have hdelta : -1 ≤ (c.threads t).pc.openDelta := by
        unfold Pc.openDelta
        split <;> omega
      omega
  | untouched hdead hwords haccount hunheld huncounted =>
      rw [haccount]
      split
      next hpos => exact hs.count_nonneg i hpos
      next => exact Int.le_refl _
  | held t hdead hpos hholds hunique hstage huncounted =>
      have hnonneg : 0 ≤ (c₀.shared.slots i).handleCount := hs.count_nonneg i hpos
      unfold HeldWords at hstage
      split at hstage
      all_goals first
        | exact hstage.elim
        | (obtain ⟨_, _, h⟩ := hstage; omega)
        | (obtain ⟨_, h⟩ := hstage; omega)
  | reclaimed t k hdead hpos hwords haccount hadded hcounted hunique hunheld => omega

/-! ## §4. What a step of one context leaves alone. -/

variable [DecidableEq Ctx]

/-- A slot that a step does not work on. -/
theorem SlotInv.frame (h : SlotInv c₀ c r i) (hwords : s'.slots i = c.shared.slots i)
    (haccount : r'.account i = r.account i) (hadded : r'.added i = r.added i)
    (hcounted : ∀ u k, r'.counted u k i = r.counted u k i)
    (hold : ¬(c.threads t).Holds i) (hnew : ¬l'.Holds i)
    (hshares : ∀ lease, (c.threads t).lease = some lease → lease.slotIndex = i →
      ∃ lease', l'.lease = some lease' ∧ lease'.slotIndex = i
        ∧ lease'.handleCount + l'.pc.slotDelta
          = lease.handleCount + (c.threads t).pc.slotDelta
        ∧ lease'.handleCount + l'.pc.openDelta
          = lease.handleCount + (c.threads t).pc.openDelta) :
    SlotInv c₀ (c.put t s' l') r' i := by
  have howner : owner (c.put t s' l') i = owner c i := congrArg Slot.ownerId hwords
  have hcount : count (c.put t s' l') i = count c i := congrArg Slot.handleCount hwords
  have hunheld (hun : Unheld c i) : Unheld (c.put t s' l') i := by
    intro u
    by_cases hu : u = t
    · subst hu
      rw [Config.put_threads_self]
      exact hnew
    · rw [Config.put_threads_ne _ hu]
      exact hun u
  have huncounted (hun : r.Uncounted i) : r'.Uncounted i :=
    ⟨hadded.trans hun.1, fun u k => (hcounted u k).trans (hun.2 u k)⟩
  cases h with
  | live u lease hlive hsome hslot hown hcnt hacc hun hunc =>
      by_cases hu : u = t
      · subst hu
        obtain ⟨lease', hsome', hslot', hslotShare, hopenShare⟩ := hshares lease hsome hslot
        refine .live u lease' hlive ?_ hslot' (howner.trans hown) ?_ ?_ (hunheld hun)
          (huncounted hunc)
        · rw [Config.put_threads_self]
          exact hsome'
        · rw [Config.put_threads_self, hcount, hcnt, hslotShare]
        · rw [Config.put_threads_self, haccount, hacc, hopenShare]
      · refine .live u lease hlive ?_ hslot (howner.trans hown) ?_ ?_ (hunheld hun)
          (huncounted hunc)
        · rw [Config.put_threads_ne _ hu]
          exact hsome
        · rw [Config.put_threads_ne _ hu, hcount]
          exact hcnt
        · rw [Config.put_threads_ne _ hu, haccount]
          exact hacc
  | untouched hdead hw hacc hun hunc =>
      exact .untouched hdead (hwords.trans hw) (haccount.trans hacc) (hunheld hun) (huncounted hunc)
  | held u hdead hpos hholds hunique hstage hunc =>
      have hu : u ≠ t := by
        intro hut
        subst hut
        exact hold hholds
      refine .held u hdead hpos ?_ (fun v hv => ?_) ?_ (huncounted hunc)
      · rw [Config.put_threads_ne _ hu]
        exact hholds
      · by_cases hvt : v = t
        · subst hvt
          rw [Config.put_threads_self] at hv
          exact absurd hv hnew
        · rw [Config.put_threads_ne _ hvt] at hv
          exact hunique v hv
      · rw [Config.put_threads_ne _ hu, haccount]
        show HeldWords _ (s'.slots i) _ _
        rw [hwords]
        exact hstage
  | reclaimed u k hdead hpos hw hacc hadd hcnt hunique hun =>
      refine .reclaimed u k hdead hpos (hwords.trans hw) (haccount.trans hacc) (hadded.trans hadd)
        ((hcounted u k).trans hcnt) (fun v j hv => ?_) (hunheld hun)
      rw [hcounted v j] at hv
      exact hunique v j hv

omit [DecidableEq Ctx] in
/-- What a context knows does not depend on the others, once a slot that has been
touched stays touched. -/
theorem PcInv.frame {l : Local} {c' : LeaseConfig Ctx} (h : PcInv c₀ c l)
    (htouched : ∀ i, Touched c₀ c i → Touched c₀ c' i) : PcInv c₀ c' l := by
  unfold PcInv at h ⊢
  cases hpc : l.pc with
  | terminatedLoad ownerId i =>
      rw [hpc] at h
      exact ⟨h.1, h.2.1, fun j hj hown => htouched j (h.2.2 j hj hown)⟩
  | idle | claim | retainAddOpen | retainAddHandle | beat | terminatedClaim | reset =>
      rw [hpc] at h
      exact h
  | release pc => cases pc <;> (rw [hpc] at h; exact h)
  | recover rec pc => cases pc <;> (rw [hpc] at h; exact h)
  | reduceLoad caller n => cases caller <;> (rw [hpc] at h; exact h)
  | reduceSwap caller n m => cases caller <;> (rw [hpc] at h; exact h)

omit [DecidableEq Ctx] in
theorem CallInv.frame {pc : Pc} {u : Ctx} (h : CallInv r u pc)
    (hcalls : r'.calls u = r.calls u) (hcounted : r'.counted u = r.counted u)
    (hreturned : r'.returned u = r.returned u) : CallInv r' u pc := by
  have htotal (k : Nat) : r'.total u k = r.total u k := by
    unfold Tally.total
    rw [hcounted]
  refine ⟨fun n hn => ?_, fun k hk => ?_, fun k n hn => ?_, fun k i hki => ?_⟩
  · rw [hcalls, htotal, hreturned]
    exact h.running n hn
  · rw [hreturned, hcounted]
    exact h.fresh k (hcalls ▸ hk)
  · rw [htotal]
    exact h.returned k n (hreturned ▸ hn)
  · rw [hcalls, hreturned]
    exact h.counted k i (by rw [hcounted] at hki; exact hki)

/-- **Assembly of a step of context `t`.** -/
theorem RaceInv.put (h : RaceInv c₀ c r)
    (hopen : s'.openHandleCount = ∑ i, r'.account i)
    (hrecovered : s'.recoveredAbandonedHandleCount
      = c₀.shared.recoveredAbandonedHandleCount + ∑ i, r'.added i)
    (hslot : ∀ i, SlotInv c₀ (c.put t s' l') r' i)
    (htouched : ∀ i, Touched c₀ c i → Touched c₀ (c.put t s' l') i)
    (hpc : PcInv c₀ (c.put t s' l') l') (hlease : SameLease (c₀.threads t).lease l'.lease)
    (hcall : CallInv r' t l'.pc)
    (hothers : ∀ u, u ≠ t → r'.calls u = r.calls u ∧ r'.counted u = r.counted u
      ∧ r'.returned u = r.returned u)
    (hfinished : ∀ i, 0 < owner c₀ i → r'.finished (owner c₀ i) = true →
      Touched c₀ (c.put t s' l') i) : RaceInv c₀ (c.put t s' l') r' := by
  refine ⟨hopen, hrecovered, hslot, fun u => ?_, fun u => ?_, fun u => ?_, hfinished⟩
  · by_cases hu : u = t
    · subst hu
      rw [Config.put_threads_self]
      exact hpc
    · rw [Config.put_threads_ne _ hu]
      exact (h.pc u).frame htouched
  · by_cases hu : u = t
    · subst hu
      rw [Config.put_threads_self]
      exact hlease
    · rw [Config.put_threads_ne _ hu]
      exact h.lease u
  · by_cases hu : u = t
    · subst hu
      rw [Config.put_threads_self]
      exact hcall
    · rw [Config.put_threads_ne _ hu]
      obtain ⟨hcalls, hcounted, hreturned⟩ := hothers u hu
      exact (h.call u).frame hcalls hcounted hreturned

/-- The context keeps its shares of its slot and of the open counter. -/
def KeepsShares (l l' : Local) : Prop :=
  ∀ lease, l.lease = some lease → ∃ lease', l'.lease = some lease'
    ∧ lease'.slotIndex = lease.slotIndex
    ∧ lease'.handleCount + l'.pc.slotDelta = lease.handleCount + l.pc.slotDelta
    ∧ lease'.handleCount + l'.pc.openDelta = lease.handleCount + l.pc.openDelta

theorem KeepsShares.goto {l : Local} {pc : Pc} (hslot : pc.slotDelta = l.pc.slotDelta)
    (hopen : pc.openDelta = l.pc.openDelta) : KeepsShares l (l.goto pc) := by
  intro lease hlease
  refine ⟨lease, hlease, rfl, ?_, ?_⟩
  · rw [show (l.goto pc).pc = pc from rfl, hslot]
  · rw [show (l.goto pc).pc = pc from rfl, hopen]

theorem holds_none {l : Local} (h : l.pc.holds = none) : ¬l.Holds i := by
  rintro ⟨rec, hrec, _⟩
  rw [h] at hrec
  cases hrec

/-- The shared words that the race is about are the same. -/
structure SameRace (s s' : Shared) : Prop where
  slots : s'.slots = s.slots
  openHandleCount : s'.openHandleCount = s.openHandleCount
  recovered : s'.recoveredAbandonedHandleCount = s.recoveredAbandonedHandleCount

/-- **A step that touches nothing of the race**, by a context that holds no slot. -/
theorem RaceInv.quiet (h : RaceInv c₀ c r) (hs : SameRace c.shared s')
    (haccount : r'.account = r.account) (hadded : r'.added = r.added)
    (hcounted : r'.counted = r.counted)
    (hold : (c.threads t).pc.holds = none) (hnew : l'.pc.holds = none)
    (hshares : KeepsShares (c.threads t) l')
    (hpc : PcInv c₀ c l') (hlease : SameLease (c₀.threads t).lease l'.lease)
    (hcall : CallInv r' t l'.pc)
    (hothers : ∀ u, u ≠ t → r'.calls u = r.calls u ∧ r'.returned u = r.returned u)
    (hfinished : ∀ i, 0 < owner c₀ i → r'.finished (owner c₀ i) = true → Touched c₀ c i) :
    RaceInv c₀ (c.put t s' l') r' := by
  have htouched (i : SlotIndex) : Touched c₀ (c.put t s' l') i ↔ Touched c₀ c i := by
    unfold Touched owner
    rw [Config.put_shared, hs.slots]
  refine h.put ?_ ?_ (fun i => ?_) (fun i hi => (htouched i).mpr hi)
    (hpc.frame fun i hi => (htouched i).mpr hi) hlease hcall (fun u hu => ?_)
    (fun i hi hf => (htouched i).mpr (hfinished i hi hf))
  · rw [hs.openHandleCount, haccount]
    exact h.open_eq
  · rw [hs.recovered, hadded]
    exact h.recovered_eq
  · refine (h.slot i).frame (by rw [hs.slots]) (by rw [haccount]) (by rw [hadded])
      (fun u k => by rw [hcounted]) (holds_none hold) (holds_none hnew) fun lease hl hi => ?_
    obtain ⟨lease', hl', hslot, hshare⟩ := hshares lease hl
    exact ⟨lease', hl', hslot.trans hi, hshare⟩
  · obtain ⟨hcalls, hreturned⟩ := hothers u hu
    exact ⟨hcalls, by rw [hcounted], hreturned⟩

omit [DecidableEq Ctx] in
theorem CallInv.of_soFar {pc pc' : Pc} (h : CallInv r t pc) (hsame : pc'.soFar = pc.soFar) :
    CallInv r t pc' := by
  refine ⟨fun n hn => h.running n (hsame ▸ hn), h.fresh, h.returned, fun k i hki => ?_⟩
  rw [hsame]
  exact h.counted k i hki

/-- A step within a call. -/
theorem RaceInv.goes {pc' : Pc} (h : RaceInv c₀ c r) (hs : SameRace c.shared s')
    (hold : (c.threads t).pc.holds = none) (hnew : pc'.holds = none)
    (hsoFar : pc'.soFar = (c.threads t).pc.soFar)
    (hslot : pc'.slotDelta = (c.threads t).pc.slotDelta)
    (hopen : pc'.openDelta = (c.threads t).pc.openDelta)
    (hpc : PcInv c₀ c ((c.threads t).goto pc')) :
    RaceInv c₀ (c.put t s' ((c.threads t).goto pc')) r :=
  h.quiet hs rfl rfl rfl hold hnew (.goto hslot hopen) hpc (h.lease t)
    ((h.call t).of_soFar hsoFar) (fun _ _ => ⟨rfl, rfl⟩) h.finished

/-- A recovery returns what it has counted. -/
theorem CallInv.ends {l : Local} {pc : Pc} {n : Int} (h : CallInv r t pc)
    (hsoFar : pc.soFar = some n) : CallInv (r.ends t l (some (.recovered n))) t .idle := by
  obtain ⟨htotal, hnone⟩ := h.running n hsoFar
  have hsame (k : Nat) : (r.ends t l (some (.recovered n))).total t k = r.total t k := rfl
  have hret (k : Nat) : (r.ends t l (some (.recovered n))).returned t k
      = if k = r.calls t then some n else r.returned t k := by
    simp [Tally.ends, Function.update_apply]
  refine ⟨fun m hm => ?_, fun k hk => ?_, fun k m hm => ?_, fun k i hki => .inl ?_⟩
  · cases hm
  · have hk' : r.calls t < k := hk
    rw [hret, if_neg (by omega)]
    exact h.fresh k hk'
  · rw [hret] at hm
    rw [hsame]
    split at hm
    next hk =>
      cases hm
      rw [hk]
      exact htotal
    next => exact h.returned k m hm
  · rw [hret]
    split
    · simp
    next hk =>
      rcases h.counted k i hki with hr | ⟨hcur, _⟩
      · exact hr
      · exact absurd hcur hk

/-- A recovery that holds no slot returns. -/
theorem RaceInv.returns {n : Int} (h : RaceInv c₀ c r) (hs : SameRace c.shared s')
    (hold : (c.threads t).pc.holds = none) (hsoFar : (c.threads t).pc.soFar = some n)
    (hslot : (c.threads t).pc.slotDelta = 0) (hopen : (c.threads t).pc.openDelta = 0)
    (hterm : ∀ ownerId, (c.threads t).pc.terminating = some ownerId → ∀ i,
      owner c₀ i = ownerId → 0 < ownerId → Touched c₀ c i) :
    RaceInv c₀ (c.put t s' ((c.threads t).goto .idle))
      (r.ends t (c.threads t) (some (.recovered n))) := by
  refine h.quiet hs rfl rfl rfl hold rfl (.goto hslot.symm hopen.symm) trivial (h.lease t)
    ((h.call t).ends hsoFar) (fun u hu => ⟨rfl, ?_⟩) (fun i hpos hf => ?_)
  · simp [Tally.ends, hu]
  · cases hown : (c.threads t).pc.terminating with
    | none =>
        simp only [Tally.ends, hown] at hf
        exact h.finished i hpos hf
    | some ownerId =>
        simp only [Tally.ends, hown] at hf
        by_cases hi : owner c₀ i = ownerId
        · exact hterm ownerId hown i hi (hi ▸ hpos)
        · rw [Function.update_of_ne hi] at hf
          exact h.finished i hpos hf

/-- The loop of a recovery that holds no slot goes on, or it returns. -/
theorem RaceInv.recoverLoops {rec : Recovery} (h : RaceInv c₀ c r) (hclient : rec.caller = .client)
    (hold : (c.threads t).pc.holds = none)
    (hsoFar : (c.threads t).pc.soFar = some rec.recoveredHandleCount)
    (hslot : (c.threads t).pc.slotDelta = 0) (hopen : (c.threads t).pc.openDelta = 0)
    (hterm : (c.threads t).pc.terminating = none) :
    RaceInv c₀
      (c.put t (nextRecover c.shared (c.threads t) rec).1
        (nextRecover c.shared (c.threads t) rec).2.1)
      (r.ends t (c.threads t) (nextRecover c.shared (c.threads t) rec).2.2) := by
  unfold nextRecover
  split
  next j hj =>
    exact h.goes ⟨rfl, rfl, rfl⟩ hold rfl hsoFar.symm hslot.symm hopen.symm hclient
  next hlast =>
    simp only [endRecover, hclient]
    exact h.returns ⟨rfl, rfl, rfl⟩ hold hsoFar hslot hopen fun o ho => by
      rw [hterm] at ho
      cases ho

/-! ## §5. Work on one slot. -/

/-- **A step that works on slot `i` alone.** -/
theorem RaceInv.works (h : RaceInv c₀ c r) (i : SlotIndex)
    (hslots : ∀ j, j ≠ i → s'.slots j = c.shared.slots j)
    (haccount : ∀ j, j ≠ i → r'.account j = r.account j)
    (hadded : ∀ j, j ≠ i → r'.added j = r.added j)
    (hcounted : ∀ u k j, j ≠ i → r'.counted u k j = r.counted u k j)
    (hold : ∀ j, (c.threads t).Holds j → j = i) (hnew : ∀ j, l'.Holds j → j = i)
    (hshares : ∀ lease, (c.threads t).lease = some lease → lease.slotIndex ≠ i →
      ∃ lease', l'.lease = some lease' ∧ lease'.slotIndex = lease.slotIndex
        ∧ lease'.handleCount + l'.pc.slotDelta = lease.handleCount + (c.threads t).pc.slotDelta
        ∧ lease'.handleCount + l'.pc.openDelta = lease.handleCount + (c.threads t).pc.openDelta)
    (hslot : SlotInv c₀ (c.put t s' l') r' i)
    (htouched : Touched c₀ c i → Touched c₀ (c.put t s' l') i)
    (hopen : s'.openHandleCount - c.shared.openHandleCount = r'.account i - r.account i)
    (hrecovered : s'.recoveredAbandonedHandleCount - c.shared.recoveredAbandonedHandleCount
      = r'.added i - r.added i)
    (hpc : PcInv c₀ (c.put t s' l') l') (hlease : SameLease (c₀.threads t).lease l'.lease)
    (hcall : CallInv r' t l'.pc)
    (hothers : ∀ u, u ≠ t → r'.calls u = r.calls u ∧ r'.counted u = r.counted u
      ∧ r'.returned u = r.returned u)
    (hfinished : ∀ j, 0 < owner c₀ j → r'.finished (owner c₀ j) = true →
      r.finished (owner c₀ j) = true ∨ Touched c₀ (c.put t s' l') j) :
    RaceInv c₀ (c.put t s' l') r' := by
  have hother (j : SlotIndex) (hj : j ≠ i) :
      Touched c₀ c j → Touched c₀ (c.put t s' l') j := by
    unfold Touched owner
    rw [Config.put_shared, hslots j hj]
    exact id
  have hall (j : SlotIndex) (hj : Touched c₀ c j) : Touched c₀ (c.put t s' l') j := by
    by_cases hji : j = i
    · subst hji
      exact htouched hj
    · exact hother j hji hj
  have hupdate {f g : SlotIndex → Int} (hfg : ∀ j, j ≠ i → g j = f j) :
      ∑ j, g j = ∑ j, f j + (g i - f i) := by
    rw [← sum_update f i (g i)]
    congr 1
    funext j
    by_cases hji : j = i
    · subst hji
      rw [Function.update_self]
    · rw [Function.update_of_ne hji]
      exact hfg j hji
  refine h.put ?_ ?_ (fun j => ?_) hall hpc hlease hcall hothers (fun j hpos hf => ?_)
  · rw [hupdate haccount, ← h.open_eq]
    omega
  · have hrec := h.recovered_eq
    rw [hupdate hadded]
    omega
  · by_cases hji : j = i
    · subst hji
      exact hslot
    · refine (h.slot j).frame (hslots j hji) (haccount j hji) (hadded j hji)
        (fun u k => hcounted u k j hji) (fun hh => hji (hold j hh)) (fun hh => hji (hnew j hh))
        fun lease hl hlj => ?_
      obtain ⟨lease', hl', hlslot, hshare⟩ := hshares lease hl (by rw [hlj]; exact hji)
      exact ⟨lease', hl', hlslot.trans hlj, hshare⟩
  · rcases hfinished j hpos hf with hold' | hnew'
    · exact hall j (h.finished j hpos hold')
    · exact hnew'

/-- What is known of the slot that a recovery holds. -/
structure HeldBy (c₀ c : LeaseConfig Ctx) (r : Tally Ctx) (t : Ctx) (i : SlotIndex) : Prop where
  dead : ¬LiveSlot c₀ i
  owned : 0 < owner c₀ i
  unique : ∀ u, (c.threads u).Holds i → u = t
  words : HeldWords (c₀.shared.slots i) (c.shared.slots i) (r.account i) (c.threads t).pc
  uncounted : r.Uncounted i

omit [DecidableEq Ctx] in
theorem SlotInv.heldBy (h : SlotInv c₀ c r i) (hholds : (c.threads t).Holds i) :
    HeldBy c₀ c r t i := by
  cases h with
  | live u lease _ _ _ _ _ _ hun _ => exact absurd hholds (hun t)
  | untouched _ _ _ hun _ => exact absurd hholds (hun t)
  | held u hdead hpos hu hunique hwords hunc =>
      have htu := hunique t hholds
      subst htu
      exact ⟨hdead, hpos, hunique, hwords, hunc⟩
  | reclaimed u k _ _ _ _ _ _ _ hun => exact absurd hholds (hun t)

/-- A held slot is no longer its owner's. -/
theorem HeldWords.touched {w₀ w : Slot} {account : Int} {pc : Pc}
    (h : HeldWords w₀ w account pc) (hpos : 0 < w₀.ownerId) : w.ownerId ≠ w₀.ownerId := by
  have hneg (hw : w = { w₀ with ownerId := -w₀.ownerId }) : w.ownerId ≠ w₀.ownerId := by
    rw [hw]
    simp only
    omega
  have hzero (hw : w.ownerId = 0) : w.ownerId ≠ w₀.ownerId := by omega
  unfold HeldWords at h
  split at h
  · exact hneg h.2.1
  · exact hneg h.1
  · exact hneg h.2.2.1
  · exact hneg h.2.2.2.1
  · exact hneg h.2.1
  · exact hzero (by rw [h.2.1])
  · exact hzero (by rw [h.2.1])
  · exact hzero (by rw [h.2.1])
  · exact h.elim

omit [DecidableEq Ctx] in
theorem holds_slot {l : Local} {rec : Recovery} (h : l.pc.holds = some rec) {j : SlotIndex}
    (hj : l.Holds j) : j = rec.slot := by
  obtain ⟨rec', hrec', hslot⟩ := hj
  rw [h] at hrec'
  cases hrec'
  exact hslot.symm

/-- The stages of a recovery have nothing to do with the context's own lease. -/
theorem holds_deltas {pc : Pc} {rec : Recovery} (h : pc.holds = some rec) :
    pc.slotDelta = 0 ∧ pc.openDelta = 0 := by
  unfold Pc.holds at h
  split at h <;> first | exact ⟨rfl, rfl⟩ | cases h

/-- **A recovery goes on with the slot it holds.** -/
theorem RaceInv.progress {rec : Recovery} {pc' : Pc} (h : RaceInv c₀ c r)
    (hholds : (c.threads t).pc.holds = some rec) (hholds' : pc'.holds = some rec)
    (hslots : ∀ j, j ≠ rec.slot → s'.slots j = c.shared.slots j)
    (hr : r' = r.credit rec.slot (s'.openHandleCount - c.shared.openHandleCount))
    (hrecovered : s'.recoveredAbandonedHandleCount = c.shared.recoveredAbandonedHandleCount)
    (hwords : HeldWords (c₀.shared.slots rec.slot) (s'.slots rec.slot) (r'.account rec.slot) pc')
    (hsoFar : pc'.soFar = (c.threads t).pc.soFar)
    (hpc : PcInv c₀ c ((c.threads t).goto pc')) :
    RaceInv c₀ (c.put t s' ((c.threads t).goto pc')) r' := by
  have hheld := (h.slot rec.slot).heldBy ⟨rec, hholds, rfl⟩
  have htouched : Touched c₀ (c.put t s' ((c.threads t).goto pc')) rec.slot :=
    hwords.touched hheld.owned
  have hall (j : SlotIndex) (hj : Touched c₀ c j) :
      Touched c₀ (c.put t s' ((c.threads t).goto pc')) j := by
    by_cases hji : j = rec.slot
    · subst hji
      exact htouched
    · unfold Touched owner
      rw [Config.put_shared, hslots j hji]
      exact hj
  subst hr
  refine h.works rec.slot hslots (fun j hj => ?_) (fun _ _ => rfl) (fun _ _ _ _ => rfl)
    (fun j hj => holds_slot hholds hj) (fun j hj => holds_slot hholds' hj) (fun lease hl _ => ?_)
    ?_ (fun _ => htouched) ?_ ?_ (hpc.frame hall) (h.lease t) ?_ (fun _ _ => ⟨rfl, rfl, rfl⟩)
    (fun _ _ hf => .inl hf)
  · simp [Tally.credit, hj]
  · refine ⟨lease, hl, rfl, ?_, ?_⟩
    · rw [(holds_deltas hholds).1]
      exact congrArg _ (holds_deltas hholds').1
    · rw [(holds_deltas hholds).2]
      exact congrArg _ (holds_deltas hholds').2
  · refine .held t hheld.dead hheld.owned ?_ (fun u hu => ?_) ?_ hheld.uncounted
    · rw [Config.put_threads_self]
      exact ⟨rec, hholds', rfl⟩
    · by_cases hut : u = t
      · exact hut
      · rw [Config.put_threads_ne _ hut] at hu
        exact hheld.unique u hu
    · rw [Config.put_threads_self]
      exact hwords
  · simp [Tally.credit]
  · rw [hrecovered]
    simp [Tally.credit]
  · exact ((h.call t).of_soFar hsoFar).frame rfl rfl rfl

/-- **A recovery puts its claim on the slot of a dead owner.** -/
theorem RaceInv.claims {rec : Recovery} {pc' : Pc} (h : RaceInv c₀ c r)
    (hold : (c.threads t).pc.holds = none) (hnew : pc'.holds = some rec)
    (hdead : ¬LiveSlot c₀ rec.slot) (hpos : 0 < owner c₀ rec.slot)
    (hword : owner c rec.slot = owner c₀ rec.slot)
    (hsoFar : pc'.soFar = (c.threads t).pc.soFar)
    (hslot : (c.threads t).pc.slotDelta = 0) (hopen : (c.threads t).pc.openDelta = 0)
    (hwords : HeldWords (c₀.shared.slots rec.slot)
      { c₀.shared.slots rec.slot with ownerId := -owner c₀ rec.slot } (count c₀ rec.slot) pc')
    (hpc : PcInv c₀ c ((c.threads t).goto pc')) :
    RaceInv c₀ (c.put t (c.shared.setOwnerId rec.slot (-owner c₀ rec.slot))
      ((c.threads t).goto pc')) r := by
  -- the owner word is the owner's, so nobody has come before
  obtain ⟨hsame, haccount, hun, hunc⟩ : c.shared.slots rec.slot = c₀.shared.slots rec.slot
      ∧ r.account rec.slot = count c₀ rec.slot ∧ Unheld c rec.slot ∧ r.Uncounted rec.slot := by
    cases h.slot rec.slot with
    | live u lease hlive _ _ _ _ _ _ _ => exact absurd hlive hdead
    | untouched _ hw ha hun hunc =>
        rw [if_pos hpos] at ha
        exact ⟨hw, ha, hun, hunc⟩
    | held u _ _ _ _ hw _ => exact absurd hword (hw.touched hpos)
    | reclaimed u k _ _ hw _ _ _ _ _ =>
        have hzero : owner c rec.slot = 0 := by rw [owner, hw]
        omega
  have hslots (j : SlotIndex) (hj : j ≠ rec.slot) :
      (c.shared.setOwnerId rec.slot (-owner c₀ rec.slot)).slots j = c.shared.slots j := by
    simp [Shared.setOwnerId, hj]
  have hself : (c.shared.setOwnerId rec.slot (-owner c₀ rec.slot)).slots rec.slot
      = { c₀.shared.slots rec.slot with ownerId := -owner c₀ rec.slot } := by
    simp [Shared.setOwnerId, hsame]
  have htouched : Touched c₀ (c.put t (c.shared.setOwnerId rec.slot (-owner c₀ rec.slot))
      ((c.threads t).goto pc')) rec.slot := by
    show ((c.shared.setOwnerId rec.slot (-owner c₀ rec.slot)).slots rec.slot).ownerId
      ≠ owner c₀ rec.slot
    rw [hself]
    show -owner c₀ rec.slot ≠ owner c₀ rec.slot
    omega
  have hall (j : SlotIndex) (hj : Touched c₀ c j) :
      Touched c₀ (c.put t (c.shared.setOwnerId rec.slot (-owner c₀ rec.slot))
        ((c.threads t).goto pc')) j := by
    by_cases hji : j = rec.slot
    · subst hji
      exact htouched
    · unfold Touched owner
      rw [Config.put_shared, hslots j hji]
      exact hj
  refine h.works rec.slot hslots (fun _ _ => rfl) (fun _ _ => rfl) (fun _ _ _ _ => rfl)
    (fun j hj => absurd hj (holds_none hold)) (fun j hj => holds_slot hnew hj)
    (fun lease hl _ => ?_) ?_ (fun _ => htouched) ?_ ?_ (hpc.frame hall) (h.lease t)
    ((h.call t).of_soFar hsoFar) (fun _ _ => ⟨rfl, rfl, rfl⟩) (fun _ _ hf => .inl hf)
  · refine ⟨lease, hl, rfl, ?_, ?_⟩
    · rw [hslot]
      exact congrArg _ (holds_deltas hnew).1
    · rw [hopen]
      exact congrArg _ (holds_deltas hnew).2
  · refine .held t hdead hpos ?_ (fun u hu => ?_) ?_ hunc
    · rw [Config.put_threads_self]
      exact ⟨rec, hnew, rfl⟩
    · by_cases hut : u = t
      · exact hut
      · rw [Config.put_threads_ne _ hut] at hu
        exact absurd hu (hun u)
    · rw [Config.put_threads_self, haccount, Config.put_shared, hself]
      exact hwords
  · simp [Shared.setOwnerId]
  · simp [Shared.setOwnerId]

/-- What a call has counted, with one more slot. -/
theorem CallInv.counts {pc pc' : Pc} {n m : Int} (h : CallInv r t pc) (hsoFar : pc.soFar = some m)
    (hsoFar' : pc'.soFar = some (m + n)) (hnone : r.counted t (r.calls t) i = none) :
    CallInv (r.counts t (r.calls t) i n) t pc' := by
  obtain ⟨htotal, hret⟩ := h.running m hsoFar
  have hcounted (k : Nat) (j : SlotIndex) : (r.counts t (r.calls t) i n).counted t k j
      = if k = r.calls t ∧ j = i then some n else r.counted t k j := by
    by_cases hk : k = r.calls t
    · subst hk
      by_cases hj : j = i
      · subst hj
        simp [Tally.counts]
      · simp [Tally.counts, hj]
    · simp [Tally.counts, hk]
  have hsame (k : Nat) (hk : k ≠ r.calls t) :
      (r.counts t (r.calls t) i n).total t k = r.total t k := by
    unfold Tally.total
    congr 1
    funext j
    rw [hcounted, if_neg (fun h => hk h.1)]
  have hnow : (r.counts t (r.calls t) i n).total t (r.calls t) = r.total t (r.calls t) + n := by
    have hupdate : (fun j => ((r.counts t (r.calls t) i n).counted t (r.calls t) j).getD 0)
        = Function.update (fun j => (r.counted t (r.calls t) j).getD 0) i n := by
      funext j
      rw [hcounted]
      by_cases hj : j = i
      · subst hj
        simp
      · simp [hj]
    unfold Tally.total
    rw [hupdate, sum_update, hnone]
    simp
  refine ⟨fun k hk => ?_, fun k hk => ?_, fun k v hv => ?_, fun k j hkj => ?_⟩
  · rw [hsoFar'] at hk
    cases hk
    refine ⟨?_, hret⟩
    show m + n = (r.counts t (r.calls t) i n).total t (r.calls t)
    rw [hnow, htotal]
  · have hk' : r.calls t < k := hk
    refine ⟨(h.fresh k hk').1, fun j => ?_⟩
    rw [hcounted, if_neg (fun h => by omega)]
    exact (h.fresh k hk').2 j
  · have hne : k ≠ r.calls t := by
      intro hk
      subst hk
      rw [show r.returned t (r.calls t) = some v from hv] at hret
      cases hret
    rw [hsame k hne]
    exact h.returned k v hv
  · rw [hcounted] at hkj
    by_cases hk : k = r.calls t
    · exact .inr ⟨hk, by rw [hsoFar']; rfl⟩
    · rw [if_neg (fun h => hk h.1)] at hkj
      rcases h.counted k j hkj with hr | ⟨hcur, _⟩
      · exact .inl hr
      · exact absurd hcur hk

/-- A recovery begins. -/
theorem CallInv.begins {pc' : Pc} {choice : Choice} (h : CallInv r t .idle)
    (hchoice : choice = .recover ∨ ∃ ownerId, choice = .recoverTerminated ownerId)
    (hsoFar : pc'.soFar = some 0) : CallInv (r.begins t choice) t pc' := by
  have hcalls : (r.begins t choice).calls t = r.calls t + 1 := by
    rcases hchoice with rfl | ⟨o, rfl⟩ <;> simp [Tally.begins]
  have hcounted : (r.begins t choice).counted = r.counted := by
    rcases hchoice with rfl | ⟨o, rfl⟩ <;> rfl
  have hreturned : (r.begins t choice).returned = r.returned := by
    rcases hchoice with rfl | ⟨o, rfl⟩ <;> rfl
  have htotal (k : Nat) : (r.begins t choice).total t k = r.total t k := by
    unfold Tally.total
    rw [hcounted]
  have hnext := h.fresh (r.calls t + 1) (by omega)
  refine ⟨fun n hn => ?_, fun k hk => ?_, fun k n hn => ?_, fun k i hki => ?_⟩
  · rw [hsoFar] at hn
    cases hn
    rw [hcalls, htotal, hreturned]
    refine ⟨?_, hnext.1⟩
    unfold Tally.total
    simp [hnext.2]
  · rw [hcalls] at hk
    rw [hcounted, hreturned]
    exact h.fresh k (by omega)
  · rw [htotal]
    rw [hreturned] at hn
    exact h.returned k n hn
  · rw [hcounted] at hki
    rw [hreturned]
    rcases h.counted k i hki with hr | ⟨_, hsome⟩
    · exact .inl hr
    · cases hsome

/-- The end of a recovery's work on its slot: the call has counted the handles. -/
theorem RaceInv.reclaims {rec : Recovery} {n : Int} {pc' : Pc} (h : RaceInv c₀ c r)
    (hat : (c.threads t).pc = .recover rec (.addRecovered n)) (hnew : pc'.holds = none)
    (hdelta : pc'.slotDelta = 0 ∧ pc'.openDelta = 0)
    (hs : s' = { c.shared with
      recoveredAbandonedHandleCount := c.shared.recoveredAbandonedHandleCount + n })
    (hr' : r'.account = (r.counts t (r.calls t) rec.slot n).account
      ∧ r'.added = (r.counts t (r.calls t) rec.slot n).added
      ∧ r'.counted = (r.counts t (r.calls t) rec.slot n).counted)
    (hpc : PcInv c₀ c ((c.threads t).goto pc')) (hcall : CallInv r' t pc')
    (hothers : ∀ u, u ≠ t → r'.calls u = r.calls u ∧ r'.returned u = r.returned u)
    (hfinished : ∀ j, 0 < owner c₀ j → r'.finished (owner c₀ j) = true →
      r.finished (owner c₀ j) = true ∨ j = rec.slot) :
    RaceInv c₀ (c.put t s' ((c.threads t).goto pc')) r' := by
  subst hs
  obtain ⟨haccount, hadded, hcounted⟩ := hr'
  have hholds : (c.threads t).pc.holds = some rec := by rw [hat]; rfl
  obtain ⟨hdead, hpos, hunique, hwords, hunc⟩ := (h.slot rec.slot).heldBy ⟨rec, hholds, rfl⟩
  rw [hat] at hwords
  obtain ⟨hn, hclear, hzero⟩ := hwords
  have htouched : Touched c₀ c rec.slot := by
    unfold Touched owner
    rw [hclear]
    show (0 : Int) ≠ owner c₀ rec.slot
    omega
  have hcountedAt (u : Ctx) (k : Nat) (j : SlotIndex) : r'.counted u k j
      = if (u = t ∧ k = r.calls t) ∧ j = rec.slot then some n else r.counted u k j := by
    rw [hcounted]
    by_cases hu : u = t
    · subst hu
      by_cases hk : k = r.calls u
      · subst hk
        by_cases hj : j = rec.slot
        · subst hj
          simp [Tally.counts]
        · simp [Tally.counts, hj]
      · simp [Tally.counts, hk]
    · simp [Tally.counts, hu]
  refine h.works rec.slot (fun _ _ => rfl) (fun j _ => by rw [haccount]; rfl)
    (fun j hj => by rw [hadded]; simp [Tally.counts, hj])
    (fun u k j hj => by rw [hcountedAt, if_neg (fun h => hj h.2)])
    (fun j hj => holds_slot hholds hj) (fun j hj => absurd hj (holds_none hnew))
    (fun lease hl _ => ?_) ?_ (fun _ => htouched) ?_ ?_ (hpc.frame fun _ h => h) (h.lease t) hcall
    (fun u hu => ?_) (fun j hp hf => ?_)
  · refine ⟨lease, hl, rfl, ?_, ?_⟩
    · rw [hat]
      exact congrArg _ hdelta.1
    · rw [hat]
      exact congrArg _ hdelta.2
  · refine .reclaimed t (r.calls t) hdead hpos hclear ?_ ?_ ?_ (fun u k huk => ?_) (fun u hu => ?_)
    · rw [haccount]
      exact hzero
    · rw [hadded]
      simp [Tally.counts, hunc.1, hn]
    · rw [hcountedAt, if_pos ⟨⟨rfl, rfl⟩, rfl⟩, hn]
    · by_contra hother
      rw [hcountedAt, if_neg (fun h => hother h.1)] at huk
      exact huk (hunc.2 u k)
    · by_cases hut : u = t
      · subst hut
        rw [Config.put_threads_self] at hu
        exact holds_none hnew hu
      · rw [Config.put_threads_ne _ hut] at hu
        exact hut (hunique u hu)
  · rw [haccount]
    simp [Tally.counts]
  · rw [hadded]
    simp [Tally.counts]
  · obtain ⟨hcalls, hreturned⟩ := hothers u hu
    refine ⟨hcalls, ?_, hreturned⟩
    funext k j
    rw [hcountedAt, if_neg (fun h => hu h.1.1)]
  · rcases hfinished j hp hf with hold | hj
    · exact .inl hold
    · exact .inr (hj ▸ htouched)

/-! ## §6. Work of a living owner on its own slot. -/

/-- What is known of the slot of a living owner. -/
structure OwnSlot (c : LeaseConfig Ctx) (r : Tally Ctx) (t : Ctx) (lease : LocalRuntimeLease)
    (c₀ : LeaseConfig Ctx) : Prop where
  live : LiveSlot c₀ lease.slotIndex
  owner_same : owner c lease.slotIndex = owner c₀ lease.slotIndex
  owner_eq : owner c lease.slotIndex = lease.ownerId
  count_eq : count c lease.slotIndex = lease.handleCount + (c.threads t).pc.slotDelta
  account_eq : r.account lease.slotIndex = lease.handleCount + (c.threads t).pc.openDelta
  unheld : Unheld c lease.slotIndex
  uncounted : r.Uncounted lease.slotIndex
  positive : 1 ≤ lease.handleCount

omit [DecidableEq Ctx] in
theorem sameLease_some {lease₀ : Option LocalRuntimeLease} {lease : LocalRuntimeLease}
    (h : SameLease lease₀ (some lease)) : ∃ e, lease₀ = some e
      ∧ lease.slotIndex = e.slotIndex ∧ lease.ownerId = e.ownerId ∧ 1 ≤ lease.handleCount := by
  cases lease₀ with
  | none => exact h.elim
  | some e => exact ⟨e, rfl, h⟩

omit [DecidableEq Ctx] in
theorem RaceInv.ownSlot (hs : Scenario c₀) (h : RaceInv c₀ c r) {lease : LocalRuntimeLease}
    (hlease : (c.threads t).lease = some lease) : OwnSlot c r t lease c₀ := by
  have hsame := h.lease t
  rw [hlease] at hsame
  obtain ⟨e, he, hslot, hid, hpos⟩ := sameLease_some hsame
  have hlive : LiveSlot c₀ lease.slotIndex := ⟨t, e, he, hslot.symm⟩
  obtain ⟨howner, _, _, _⟩ := hs.lease t e he
  cases h.slot lease.slotIndex with
  | untouched hdead _ _ _ _ => exact absurd hlive hdead
  | held u hdead _ _ _ _ _ => exact absurd hlive hdead
  | reclaimed u k hdead _ _ _ _ _ _ _ => exact absurd hlive hdead
  | live u lease' _ hlease' hslot' hown hcount haccount hun hunc =>
      -- another context's lease on the slot would have the same owner id
      have hsame' := h.lease u
      rw [hlease'] at hsame'
      obtain ⟨e', he', hslot'', hid', _⟩ := sameLease_some hsame'
      obtain ⟨howner', _, _, _⟩ := hs.lease u e' he'
      have hut : u = t := by
        refine hs.lease_inj u t e' e he' he ?_
        rw [← howner', ← howner, ← hslot'', ← hslot, hslot']
      subst hut
      rw [hlease] at hlease'
      cases hlease'
      refine ⟨hlive, hown, ?_, hcount, haccount, hun, hunc, hpos⟩
      rw [hown, hid, ← howner, hslot]

/-- **A living owner works on its own slot.** -/
theorem RaceInv.ownWork (hs : Scenario c₀) (h : RaceInv c₀ c r) {lease : LocalRuntimeLease}
    {hc : Nat} {pc' : Pc} (hlease : (c.threads t).lease = some lease)
    (hl' : l'.lease = some { lease with handleCount := hc } ∧ l'.pc = pc') (hpos : 1 ≤ hc)
    (hslots : ∀ j, j ≠ lease.slotIndex → s'.slots j = c.shared.slots j)
    (howner : (s'.slots lease.slotIndex).ownerId = owner c lease.slotIndex)
    (hcount : (s'.slots lease.slotIndex).handleCount - count c lease.slotIndex
      = hc + pc'.slotDelta - (lease.handleCount + (c.threads t).pc.slotDelta))
    (hr : r' = r.credit lease.slotIndex (s'.openHandleCount - c.shared.openHandleCount))
    (hopen : s'.openHandleCount - c.shared.openHandleCount
      = hc + pc'.openDelta - (lease.handleCount + (c.threads t).pc.openDelta))
    (hrecovered : s'.recoveredAbandonedHandleCount = c.shared.recoveredAbandonedHandleCount)
    (hold : (c.threads t).pc.holds = none) (hnew : pc'.holds = none)
    (hsoFar : pc'.soFar = (c.threads t).pc.soFar) (hpc : PcInv c₀ c l') :
    RaceInv c₀ (c.put t s' l') r' := by
  obtain ⟨hl', hpc'⟩ := hl'
  subst hpc'
  have hown := h.ownSlot hs hlease
  have hkept (j : SlotIndex) : Touched c₀ (c.put t s' l') j ↔ Touched c₀ c j := by
    unfold Touched owner
    rw [Config.put_shared]
    by_cases hj : j = lease.slotIndex
    · subst hj
      rw [howner]
    · rw [hslots j hj]
  subst hr
  refine h.works lease.slotIndex hslots (fun j hj => ?_) (fun _ _ => rfl) (fun _ _ _ _ => rfl)
    (fun j hj => absurd hj (holds_none hold)) (fun j hj => absurd hj (holds_none hnew))
    (fun lease' hl hne => ?_) ?_ (fun ht => (hkept _).mpr ht) ?_ ?_
    (hpc.frame fun j hj => (hkept j).mpr hj) ?_ ?_ (fun _ _ => ⟨rfl, rfl, rfl⟩)
    (fun _ _ hf => .inl hf)
  · simp [Tally.credit, hj]
  · rw [hlease] at hl
    cases hl
    exact absurd rfl hne
  · refine .live t { lease with handleCount := hc } hown.live ?_ rfl ?_ ?_ ?_ (fun u hu => ?_) ?_
    · rw [Config.put_threads_self]
      exact hl'
    · exact howner.trans hown.owner_same
    · rw [Config.put_threads_self]
      show (s'.slots lease.slotIndex).handleCount = _
      have := hown.count_eq
      simp only
      omega
    · rw [Config.put_threads_self]
      have := hown.account_eq
      simp only [Tally.credit, Function.update_self]
      omega
    · by_cases hut : u = t
      · subst hut
        rw [Config.put_threads_self] at hu
        exact holds_none hnew hu
      · rw [Config.put_threads_ne _ hut] at hu
        exact hown.unheld u hu
    · exact hown.uncounted
  · simp [Tally.credit]
  · rw [hrecovered]
    simp [Tally.credit]
  · have hsame := h.lease t
    rw [hlease] at hsame
    obtain ⟨e, he, hslot, hid, _⟩ := sameLease_some hsame
    rw [he, hl']
    exact ⟨hslot, hid, hpos⟩
  · exact ((h.call t).of_soFar hsoFar).frame rfl rfl rfl

end

end MemoryWriteAhead.Lease
