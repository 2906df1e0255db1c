/-
  MemoryWriteAhead.Lease.Exact
  ────────────────────────────
  **WHEN THE OWNER-LEASE ACCOUNTING IS EXACT.**

  The release looks at the owner word before it touches its slot, the retain does
  not, and neither looks again.  So a context whose lease has been recovered goes
  on adding handles to the open counter that no slot shows:
  `recovered_owner_leaves_open_count` is such a run.

  `Exact` is the invariant of the runs in which no such store happens
  (`SettledStep`), and `lease_accounting_exact` what follows from it:

    • a context changes the handle count of a slot only if the slot is its own or
      free,
    • between the calls the open counter is the sum over the owned slots,
    • it is 0 once all handles are released.
-/
import MemoryWriteAhead.Lease.Accounts
import Mathlib

namespace MemoryWriteAhead.Lease

open Transition

variable {Ctx : Type} {C : Contexts Ctx} {c : LeaseConfig Ctx} {t : Ctx} {s' : Shared} {l' : Local}

/-! ## §1. The condition and the invariant. -/

/-- The slot is the lease's place. -/
def LocalRuntimeLease.At (lease : LocalRuntimeLease) (i : SlotIndex) (ownerId : Int) : Prop :=
  lease.slotIndex = i ∧ lease.ownerId = ownerId

instance decidableAt (lease : LocalRuntimeLease) (i : SlotIndex) (ownerId : Int) :
    Decidable (lease.At i ownerId) := inferInstanceAs (Decidable (_ ∧ _))

/-- Somebody has just put the id into the slot, or holds a lease there that
agrees with the slot's handle count. -/
def Settled (c : LeaseConfig Ctx) (i : SlotIndex) (ownerId : Int) : Prop :=
  ∃ u, (c.threads u).stage = .claimed i ownerId
    ∨ ∃ lease, (c.threads u).lease = some lease ∧ lease.At i ownerId
      ∧ count c i = shown (c.threads u) lease

/-- The condition on the next step of context `t`: no store goes to a slot that
has changed hands, and a slot is handed back only to a lease that agrees with it. -/
def SettledStep (c : LeaseConfig Ctx) (t : Ctx) : Prop :=
  match (c.threads t).pc with
  | .recover r .handBack => Settled c r.slot r.ownerId
  | _ => True

/-- The condition on a step of the run. -/
def SettledCall (c : LeaseConfig Ctx) : ThreadLabel Ctx Act → Prop
  | .thread t a => CalmCall c (.thread t a) ∧ (a.choice = .step → SettledStep c t)
  | .env => True

theorem SettledCall.calm {label : ThreadLabel Ctx Act} (h : SettledCall c label) :
    CalmCall c label := by
  cases label with
  | thread t a => exact h.1
  | env => trivial

/-- The exact accounts. -/
structure Exact [Fintype Ctx] (C : Contexts Ctx) (c : LeaseConfig Ctx) : Prop where
  ledger : Ledger C c
  sync : ∀ u lease, (c.threads u).lease = some lease →
    owner c lease.slotIndex = lease.ownerId →
    count c lease.slotIndex = shown (c.threads u) lease
  leaving : ∀ u lease, (c.threads u).lease = some lease → (c.threads u).stage = .leaving →
    lease.handleCount = 0 → Owned c lease → 0 < count c lease.slotIndex
  known : ∀ i, 0 < owner c i → ∃ u, (c.threads u).stage = .claimed i (owner c i)
    ∨ ∃ lease, (c.threads u).lease = some lease ∧ lease.At i (owner c i)

/-! ## §2. The step. -/

section

variable {p : Params} {s : Shared} {l : Local}

/-- Only the hand-back of a recovery changes the owner word of a slot it has
claimed and not drained. -/
theorem hand_back_of_owner {choice : Choice} {o : Option Outcome} {i : SlotIndex} {ownerId : Int}
    (hr : choose p choice s l = some (s', l', o)) (hstage : l.stage = .recovering i ownerId)
    (hchange : (s'.slots i).ownerId ≠ (s.slots i).ownerId) :
    choice = .step ∧ ∃ r, l.pc = .recover r .handBack ∧ r.slot = i ∧ r.ownerId = ownerId := by
  rcases choose_cases hr with ⟨hstep, hrun⟩ | ⟨-, -, rfl, -⟩
  · refine ⟨hstep, ?_⟩
    have hs' : s' = (runStep p s l).1 := by rw [← hrun]
    rw [hs'] at hchange
    unfold Local.stage at hstage
    cases hpc : l.pc with
    | recover r pc =>
        rw [hpc] at hstage
        cases pc with
        | handBack =>
            cases hstage
            exact ⟨r, rfl, rfl, rfl⟩
        | recheck staleHeartbeat =>
            simp only [runStep, hpc, recoverStep] at hchange
            split at hchange <;> exact absurd rfl hchange
        | loadHandleCount =>
            simp only [runStep, hpc, recoverStep, endReduce] at hchange
            split at hchange <;> exact absurd rfl hchange
        | _ => cases hstage
    | claim k pc => rw [hpc] at hstage; cases pc <;> cases hstage
    | beat caller pc => rw [hpc] at hstage; cases caller <;> cases hstage
    | release pc => rw [hpc] at hstage; cases pc <;> cases hstage
    | reduceLoad caller n => rw [hpc] at hstage; cases caller <;> cases hstage
    | reduceSwap caller n m => rw [hpc] at hstage; cases caller <;> cases hstage
    | _ => rw [hpc] at hstage; cases hstage
  · exact absurd rfl hchange

end

/-- A context lets go of a lease whose id is in the slot only if the slot shows
handles that are not the lease's. -/
theorem Effect.keeps_lease (e : Effect C c t s' l') {lease : LocalRuntimeLease}
    (hlease : (c.threads t).lease = some lease) (hnone : ∀ i ownerId,
      (c.threads t).stage = .claimed i ownerId → (c.threads t).lease = none)
    (hscan : ∀ ownerId, (c.threads t).pc.scanId = some ownerId → (c.threads t).lease = none)
    (hown : owner c lease.slotIndex = lease.ownerId) :
    (∃ lease', l'.lease = some lease' ∧ lease'.At lease.slotIndex lease.ownerId)
      ∨ (c.threads t).stage = .leaving ∧ lease.handleCount = 0 := by
  have hat : lease.At lease.slotIndex lease.ownerId := ⟨rfl, rfl⟩
  cases e with
  | beginRetain lease' _ hl _ _ hl' | beginRelease lease' _ hl _ _ hl' =>
      rw [hlease] at hl
      cases hl
      exact .inl ⟨_, hl', ⟨rfl, rfl⟩⟩
  | take i ownerId _ hid _ _ _ _ _ =>
      rw [hscan ownerId hid] at hlease
      cases hlease
  | openLease i ownerId hclaimed _ _ _ _ =>
      rw [hnone i ownerId hclaimed] at hlease
      cases hlease
  | skip lease' _ hl hne _ _ _ =>
      rw [hlease] at hl
      cases hl
      exact absurd hown hne
  | leave lease' hstage hl _ _ hl' =>
      rw [hlease] at hl
      cases hl
      by_cases hzero : lease.handleCount = 0
      · exact .inr ⟨hstage, hzero⟩
      · exact .inl ⟨lease, by rw [hl', finishedLease, if_neg hzero], hat⟩
  | addHandle lease' _ hl _ _ _ hl' | load lease' _ hl _ _ _ hl' | loadHandles lease' _ hl _ _ _ hl'
  | loadNothing lease' _ hl _ _ _ hl' | clear lease' _ hl _ _ _ hl' =>
      rw [hlease] at hl
      cases hl
      exact .inl ⟨lease, hl', hat⟩
  | sub lease' n _ hl _ _ _ hl' | reduced lease' n r _ hl _ _ hl' =>
      rw [hlease] at hl
      cases hl
      exact .inl ⟨lease, hl', hat⟩
  | quiet _ _ hl' | addOpen _ _ _ hl' | endRetain _ _ _ hl' | wipe _ _ _ _ hl'
  | claimBack _ _ _ _ _ _ _ hl' | handBack _ _ _ _ _ _ hl' | drain _ _ _ _ _ _ hl'
  | drained _ _ _ _ _ _ hl' | free _ _ _ _ _ _ hl' =>
      exact .inl ⟨lease, hl'.trans hlease, hat⟩

/-- A context that has put its id into a slot goes on to its lease. -/
theorem Effect.keeps_claim (e : Effect C c t s' l') {i : SlotIndex} {ownerId : Int}
    (hclaimed : (c.threads t).stage = .claimed i ownerId) :
    l'.stage = .claimed i ownerId ∨ ∃ lease', l'.lease = some lease' ∧ lease'.At i ownerId := by
  cases e with
  | quiet _ hstage _ => exact .inl (hstage.trans hclaimed)
  | wipe _ _ _ hstage _ => exact .inl (hstage.trans hclaimed)
  | openLease j id hclaimed' _ _ _ hl' =>
      rw [hclaimed] at hclaimed'
      cases hclaimed'
      exact .inr ⟨_, hl', ⟨rfl, rfl⟩⟩
  | _ => simp_all

section

variable [Fintype Ctx] [DecidableEq Ctx] {a : Act}

omit [DecidableEq Ctx] in
/-- A slot shows my id after the step only if it did before, or if it was handed
back to me and agrees with my lease. -/
theorem Ledger.owner_of_put (h : Ledger C c) (hcall : SettledCall c (.thread t a))
    (hact : C.machine.act t a c.shared (c.threads t) s' l') {u : Ctx} {lease : LocalRuntimeLease}
    (hlease : (c.threads u).lease = some lease)
    (hown : (s'.slots lease.slotIndex).ownerId = lease.ownerId) :
    owner c lease.slotIndex = lease.ownerId
      ∨ (c.threads t).stage = .recovering lease.slotIndex lease.ownerId
        ∧ (s'.slots lease.slotIndex).handleCount = count c lease.slotIndex
        ∧ count c lease.slotIndex = shown (c.threads u) lease := by
  obtain ⟨e, -⟩ := h.effect hcall.calm hact
  have hid : IdOf C c u lease.ownerId := (h.context u).lease_used lease hlease
  have hpos := hid.pos
  rcases e.slots_cases with hsame | ⟨j, v, hs', hw⟩ | ⟨j, v, hs', -⟩
  · exact .inl ((hsame lease.slotIndex).1.symm.trans hown)
  · by_cases hj : lease.slotIndex = j
    · have hv : v = lease.ownerId := by rw [← hown, hs', hj, setOwnerId_self]
      cases hw with
      | take _ _ _ hscan _ _ _ =>
          have hfresh := ((h.localInv t).scan_fresh hscan).1
          rw [hv] at hfresh
          exact absurd hid.used hfresh
      | clear => omega
      | free => omega
      | claimBack _ ownerId _ _ hpos' _ => omega
      | handBack _ _ hrec howner _ =>
          obtain ⟨hstep, r, hpc, rfl, rfl⟩ := hand_back_of_owner hact hrec (by
            show _ ≠ owner c _
            rw [howner, hs', setOwnerId_self]
            have hpos' := (h.recovers t _ _ (.inl hrec)).1.pos
            omega)
          have hsettled := hcall.2 hstep
          unfold SettledStep at hsettled
          rw [hpc] at hsettled
          obtain ⟨v, hclaimed | ⟨lease', hlease', ⟨hslot, hid'⟩, hcount⟩⟩ := hsettled
          · obtain ⟨hnone, hidv⟩ := (h.context v).claimed _ _ hclaimed
            have hidv : IdOf C c v r.ownerId := hidv
            rw [hv] at hidv
            obtain rfl := hid.unique hidv
            rw [hlease] at hnone
            cases hnone
          · have hidv : IdOf C c v lease'.ownerId := (h.context v).lease_used lease' hlease'
            rw [hid', hv] at hidv
            obtain rfl := hid.unique hidv
            rw [hlease] at hlease'
            cases hlease'
            refine .inr ⟨by rw [hslot, hid']; exact hrec, ?_, hslot ▸ hcount⟩
            rw [hs', setOwnerId_handleCount]
    · refine .inl ?_
      rw [← hown, hs', setOwnerId_ne _ hj]
  · refine .inl ?_
    rw [← hown, hs', setHandleCount_ownerId]

omit [DecidableEq Ctx] in
theorem afterSubStage_offset (lease : LocalRuntimeLease) (n : Int) :
    (afterSubStage lease n).offset = 0 := by
  unfold afterSubStage
  split <;> rfl

omit [DecidableEq Ctx] in
/-- The acting context's slot agrees with its lease after the step. -/
theorem Exact.sync_self (h : Exact C c) (hcall : SettledCall c (.thread t a))
    (hact : C.machine.act t a c.shared (c.threads t) s' l') {lease' : LocalRuntimeLease}
    (hlease' : l'.lease = some lease')
    (hown : (s'.slots lease'.slotIndex).ownerId = lease'.ownerId) :
    (s'.slots lease'.slotIndex).handleCount = shown l' lease' := by
  obtain ⟨e, -⟩ := h.ledger.effect hcall.calm hact
  have hinv := h.ledger.context t
  -- the slot of a lease that the step keeps, with the same stage offset
  have hkeep (hlease : (c.threads t).lease = some lease')
      (hoff : l'.stage.offset = (c.threads t).stage.offset)
      (hcount : owner c lease'.slotIndex = lease'.ownerId →
        (s'.slots lease'.slotIndex).handleCount = count c lease'.slotIndex) :
      (s'.slots lease'.slotIndex).handleCount = shown l' lease' := by
    unfold shown
    rw [hoff]
    rcases h.ledger.owner_of_put hcall hact hlease hown with howner | ⟨-, hcount', hshown⟩
    · rw [hcount howner]
      exact h.sync t lease' hlease howner
    · rw [hcount']
      exact hshown
  cases e with
  | quiet hs hstage hlease =>
      exact hkeep (hlease ▸ hlease') (by rw [hstage]) fun _ => hs.handleCount _
  | beginRetain lease hrest hlease hs hstage hl =>
      rw [hlease'] at hl
      cases hl
      subst hs
      have hsync := h.sync t lease hlease hown
      unfold shown at hsync ⊢
      rw [hrest] at hsync
      rw [hstage]
      simp only [Stage.offset] at hsync ⊢
      show count c lease.slotIndex = ((lease.handleCount + 1 : Nat) : Int) + -1
      omega
  | beginRelease lease hrest hlease hs hstage hl =>
      rw [hlease'] at hl
      cases hl
      subst hs
      have hsync := h.sync t lease hlease hown
      have hone := hinv.handles lease hlease (by rw [hrest]; rfl)
      unfold shown at hsync ⊢
      rw [hrest] at hsync
      rw [hstage]
      simp only [Stage.offset] at hsync ⊢
      show count c lease.slotIndex = ((lease.handleCount - 1 : Nat) : Int) + 1
      omega
  | take i ownerId hrest hscan hfree hs hstage hl hused =>
      rw [hl, ((h.ledger.localInv t).scan ownerId hscan).1] at hlease'
      cases hlease'
  | openLease i ownerId hclaimed hfree hs hstage hl =>
      rw [hlease'] at hl
      cases hl
      rw [hs, setHandleCount_self, shown, hstage]
      rfl
  | addOpen hstage hs hstage' hl =>
      exact hkeep (hl ▸ hlease') (by rw [hstage, hstage']; rfl) fun _ => by rw [hs]
  | addHandle lease hstage hlease howned hs hstage' hl =>
      rw [hlease'] at hl
      cases hl
      rw [hs, setHandleCount_ownerId] at hown
      have hsync := h.sync t lease' hlease hown
      rw [hs, setHandleCount_self]
      unfold shown at hsync ⊢
      rw [hstage] at hsync
      rw [hstage']
      simp only [Stage.offset] at hsync ⊢
      omega
  | endRetain hstage hs hstage' hl =>
      exact hkeep (hl ▸ hlease') (by rw [hstage, hstage']; rfl) fun _ => hs.handleCount _
  | skip lease hstage hlease hne hs hstage' hl =>
      obtain ⟨rfl, -⟩ := finishedLease_eq_some (hl.symm.trans hlease')
      rw [hs] at hown
      exact absurd hown hne
  | load lease hstage hlease howner hs hstage' hl =>
      rw [hlease'] at hl
      cases hl
      exact hkeep hlease (by rw [hstage, hstage']; rfl) fun _ => by rw [hs]
  | loadHandles lease hstage hlease hpos hs hstage' hl =>
      rw [hlease'] at hl
      cases hl
      exact hkeep hlease (by rw [hstage, hstage']; rfl) fun _ => by rw [hs]
  | loadNothing lease hstage hlease hnot hs hstage' hl =>
      rw [hlease'] at hl
      cases hl
      rw [hs] at hown
      -- a slot that is its own shows the handle that is being released
      have hcovered := hinv.covered lease' hlease (.inl hown)
      unfold shown at hcovered
      rw [hstage] at hcovered
      simp only [Stage.offset] at hcovered
      omega
  | sub lease n hstage hlease howned hs hstage' hl =>
      rw [hlease'] at hl
      cases hl
      rw [hs, setHandleCount_ownerId] at hown
      have hsync := h.sync t lease' hlease hown
      rw [hs, setHandleCount_self]
      unfold shown at hsync ⊢
      rw [hstage] at hsync
      rw [hstage']
      simp only [Stage.offset] at hsync ⊢
      omega
  | reduced lease n released hstage hlease hred hstage' hl =>
      rw [hlease'] at hl
      cases hl
      refine hkeep hlease ?_ fun _ => (hred.sameSlots _).2
      rw [hstage, hstage', afterSubStage_offset]
      rfl
  | clear lease hstage hlease hfree hs hstage' hl =>
      rw [hlease'] at hl
      cases hl
      have hpos := IdOf.pos (C := C) (c := c) (u := t) (hinv.lease_used lease' hlease)
      rw [hs, setOwnerId_self] at hown
      omega
  | wipe i hclear hs hstage hl =>
      have hlease := hl ▸ hlease'
      have hpos := IdOf.pos (C := C) (c := c) (u := t) (hinv.lease_used lease' hlease)
      refine hkeep hlease (by rw [hstage]) fun howner => ?_
      rw [hs]
      by_cases hi : lease'.slotIndex = i
      · rw [hi] at howner ⊢
        rw [setHandleCount_self]
        rcases hclear with hzero | hzero
        · omega
        · exact hzero.symm
      · rw [setHandleCount_ne _ hi]
  | leave lease hstage hlease hs hstage' hl =>
      obtain ⟨rfl, -⟩ := finishedLease_eq_some (hl.symm.trans hlease')
      exact hkeep hlease (by rw [hstage, hstage']; rfl) fun _ => hs.handleCount _
  | claimBack i ownerId hstage howner hpos hs hstage' hl =>
      exact hkeep (hl ▸ hlease') (by rw [hstage, hstage']; rfl) fun _ => by
        rw [hs, setOwnerId_handleCount]
  | handBack i ownerId hstage howner hs hstage' hl =>
      exact hkeep (hl ▸ hlease') (by rw [hstage, hstage']; rfl) fun _ => by
        rw [hs, setOwnerId_handleCount]
  | drain i ownerId hstage hcond hs hstage' hl =>
      exact hkeep (hl ▸ hlease') (by rw [hstage, hstage']; rfl) fun _ => by rw [hs]
  | drained i ownerId n hstage hred hstage' hl =>
      exact hkeep (hl ▸ hlease') (by rw [hstage, hstage']; rfl) fun _ => (hred.sameSlots _).2
  | free i ownerId hstage hcond hs hstage' hl =>
      exact hkeep (hl ▸ hlease') (by rw [hstage, hstage']; rfl) fun _ => by
        rw [hs, setOwnerId_handleCount]

/-- A release that leaves without handles has a slot that shows more. -/
theorem Exact.leaving_self (h : Exact C c) (e : Effect C c t s' l') {lease' : LocalRuntimeLease}
    (hlease' : l'.lease = some lease') (hleaving : l'.stage = .leaving)
    (hzero : lease'.handleCount = 0) (howned : Owned (c.put t s' l') lease') :
    0 < (s'.slots lease'.slotIndex).handleCount := by
  have hinv := h.ledger.context t
  have howned_of {lease : LocalRuntimeLease} (hlease : (c.threads t).lease = some lease)
      (howned : Owned (c.put t s' l') lease) : Owned c lease :=
    h.ledger.owned_of_put e (IdOf.used (hinv.lease_used lease hlease)) howned
  have he := e
  cases he with
  | quiet hs hstage hlease =>
      have hlease := hlease ▸ hlease'
      rw [hs.handleCount]
      exact h.leaving t lease' hlease (hstage ▸ hleaving) hzero (howned_of hlease howned)
  | loadNothing lease hstage hlease hnot hs hstage' hl =>
      rw [hlease'] at hl
      cases hl
      rcases afterSubStage_cases lease' (count c lease'.slotIndex) with ⟨heq, -⟩ | ⟨-, hno⟩
      · rw [hstage', heq] at hleaving
        cases hleaving
      · exact absurd ⟨by omega, hzero⟩ hno
  | reduced lease n released hstage hlease hred hstage' hl =>
      rw [hlease'] at hl
      cases hl
      have hcount := (hinv.reducing lease' n released hlease hstage).2 (howned_of hlease howned)
      rw [(hred.sameSlots _).2]
      rcases afterSubStage_cases lease' n with ⟨heq, -⟩ | ⟨-, hno⟩
      · rw [hstage', heq] at hleaving
        cases hleaving
      · have hmore : ¬n ≤ 1 := fun hn => hno ⟨hn, hzero⟩
        show 0 < count c lease'.slotIndex
        omega
  | clear lease hstage hlease hfree hs hstage' hl =>
      rw [hlease'] at hl
      cases hl
      have hpos := IdOf.pos (C := C) (c := c) (u := t) (hinv.lease_used lease' hlease)
      have hown := howned.owner_eq
      have hnone : owner (c.put t s' l') lease'.slotIndex = 0 := by
        show (s'.slots lease'.slotIndex).ownerId = 0
        rw [hs, setOwnerId_self]
      omega
  | wipe i hclear hs hstage hl =>
      have hlease := hl ▸ hlease'
      have howned := howned_of hlease howned
      have hpos := IdOf.pos (C := C) (c := c) (u := t) (hinv.lease_used lease' hlease)
      have hown := howned.owner_eq
      have hmore := h.leaving t lease' hlease (hstage ▸ hleaving) hzero howned
      rw [hs]
      by_cases hi : lease'.slotIndex = i
      · rw [hi] at hown hmore
        rcases hclear with hnone | hnone <;> omega
      · rw [setHandleCount_ne _ hi]
        exact hmore
  | beginRetain | beginRelease | take | openLease | addOpen | addHandle | endRetain | skip | load
  | loadHandles | sub | leave | claimBack | handBack | drain | drained | free =>
      simp_all

/-- Every id in a slot is known to its context after the step. -/
theorem Exact.known_next (h : Exact C c) (hcall : SettledCall c (.thread t a))
    (hact : C.machine.act t a c.shared (c.threads t) s' l') {i : SlotIndex}
    (hpos : 0 < (s'.slots i).ownerId) :
    ∃ u, ((c.put t s' l').threads u).stage = .claimed i (s'.slots i).ownerId
      ∨ ∃ lease, ((c.put t s' l').threads u).lease = some lease
        ∧ lease.At i (s'.slots i).ownerId := by
  obtain ⟨e, -⟩ := h.ledger.effect hcall.calm hact
  have hself : (c.put t s' l').threads t = l' := Config.put_threads_self ..
  have hkeep (hsame : (s'.slots i).ownerId = owner c i) :
      ∃ u, ((c.put t s' l').threads u).stage = .claimed i (s'.slots i).ownerId
        ∨ ∃ lease, ((c.put t s' l').threads u).lease = some lease
          ∧ lease.At i (s'.slots i).ownerId := by
    rw [hsame] at hpos ⊢
    obtain ⟨u, hu⟩ := h.known i hpos
    refine ⟨u, ?_⟩
    by_cases hut : u = t
    · subst hut
      rw [hself]
      rcases hu with hclaimed | ⟨lease, hlease, hslot, hid⟩
      · exact e.keeps_claim hclaimed
      · have hown : owner c lease.slotIndex = lease.ownerId := by rw [hslot, hid]
        rw [← hid, ← hslot]
        refine .inr ?_
        rcases e.keeps_lease hlease (fun j id hs => ((h.ledger.context u).claimed j id hs).1)
          (fun id hs => ((h.ledger.localInv u).scan id hs).1) hown with hkept | ⟨hleaving, hzero⟩
        · exact hkept
        · -- the slot would have to show more handles than the lease, and agrees with it
          have hsync := h.sync u lease hlease hown
          have hmore := h.leaving u lease hlease hleaving hzero (.inl hown)
          unfold shown at hsync
          rw [hleaving] at hsync
          simp only [Stage.offset] at hsync
          omega
    · rw [Config.put_threads_ne c hut]
      exact hu
  rcases e.slots_cases with hsame | ⟨j, v, hs', hw⟩ | ⟨j, v, hs', -⟩
  · exact hkeep (hsame i).1
  · by_cases hj : i = j
    · subst hj
      have hv : (s'.slots i).ownerId = v := by rw [hs', setOwnerId_self]
      rw [hv] at hpos ⊢
      cases hw with
      | take _ _ _ _ _ hclaimed _ => exact ⟨t, .inl (by rw [hself]; exact hclaimed)⟩
      | clear => omega
      | free => omega
      | claimBack => omega
      | handBack _ _ hrec howner hrest =>
          obtain ⟨hstep, r, hpc, rfl, rfl⟩ := hand_back_of_owner hact hrec (by
            show _ ≠ owner c _
            rw [hv, howner]
            omega)
          have hsettled := hcall.2 hstep
          unfold SettledStep at hsettled
          rw [hpc] at hsettled
          obtain ⟨u, hu⟩ := hsettled
          refine ⟨u, ?_⟩
          by_cases hut : u = t
          · subst hut
            rw [hself]
            rcases hu with hclaimed | ⟨lease, hlease, hat, -⟩
            · rw [hrec] at hclaimed
              cases hclaimed
            · refine .inr ⟨lease, ?_, hat⟩
              obtain ⟨-, hrun⟩ | ⟨hno, -⟩ := choose_cases hact
              · rw [show l' = (runStep (C.params u) c.shared (c.threads u)).2.1 by rw [← hrun]]
                simp only [runStep, hpc, recoverStep, (nextRecover_scans r).lease]
                exact hlease
              · exact absurd hstep hno
          · rw [Config.put_threads_ne c hut]
            rcases hu with hclaimed | ⟨lease, hlease, hat, -⟩
            · exact .inl hclaimed
            · exact .inr ⟨lease, hlease, hat⟩
    · exact hkeep (by rw [hs', setOwnerId_ne _ hj])
  · exact hkeep (by rw [hs', setHandleCount_ownerId])

/-- **The exact accounts are kept by every settled step.** -/
theorem Exact.step (h : Exact C c) (hcall : SettledCall c (.thread t a))
    (hact : C.machine.act t a c.shared (c.threads t) s' l') : Exact C (c.put t s' l') := by
  obtain ⟨e, hnext⟩ := h.ledger.effect hcall.calm hact
  have hself : (c.put t s' l').threads t = l' := Config.put_threads_self ..
  refine ⟨h.ledger.step e hnext, fun u lease hlease hown => ?_,
    fun u lease hlease hleaving hzero howned => ?_, fun i hpos => h.known_next hcall hact hpos⟩
  · by_cases hu : u = t
    · subst hu
      rw [hself] at hlease ⊢
      exact h.sync_self hcall hact hlease hown
    · rw [Config.put_threads_ne c hu] at hlease ⊢
      rcases h.ledger.owner_of_put hcall hact hlease hown with howner | ⟨-, hcount, hshown⟩
      · have hid : IdOf C c u lease.ownerId := (h.ledger.context u).lease_used lease hlease
        rw [h.ledger.count_of_put e hu hid (.inl howner)]
        exact h.sync u lease hlease howner
      · exact hcount.trans hshown
  · by_cases hu : u = t
    · subst hu
      rw [hself] at hlease hleaving
      exact h.leaving_self e hlease hleaving hzero howned
    · rw [Config.put_threads_ne c hu] at hlease hleaving
      have hid : IdOf C c u lease.ownerId := (h.ledger.context u).lease_used lease hlease
      have howned := h.ledger.owned_of_put e hid.used howned
      rw [h.ledger.count_of_put e hu hid howned]
      exact h.leaving u lease hlease hleaving hzero howned

theorem Exact.reach (h : Reach C.system SettledCall c) : Exact C c := by
  refine h.invariant (fun c hstart => ?_) fun c label c' hinv hcall hn => ?_
  · have hthreads := hstart.2
    refine ⟨.start hstart, fun u lease hlease => ?_, fun u lease hlease => ?_, fun i hpos => ?_⟩
    · rw [hthreads u] at hlease
      cases hlease
    · rw [hthreads u] at hlease
      cases hlease
    · rw [owner, hstart.1.2.2 i] at hpos
      exact absurd hpos (Int.lt_irrefl 0)
  · cases hn with
    | thread hact => exact hinv.step hcall hact
    | env henv =>
        obtain ⟨timeMs, -, rfl⟩ := henv
        exact ⟨hinv.ledger.of_time timeMs, hinv.sync, hinv.leaving, hinv.known⟩

/-! ## §3. The accounting. -/

/-- No operation is in flight. -/
def Quiescent (c : LeaseConfig Ctx) : Prop := ∀ u, (c.threads u).pc = .idle

/-- The handles that a context has retained and not released. -/
def Local.heldHandleCount (l : Local) : Nat :=
  match l.lease with
  | some lease => lease.handleCount
  | none => 0

/-- What the accounting promises of a reached state. -/
structure Accounting (C : Contexts Ctx) (c : LeaseConfig Ctx) : Prop where
  /-- close to the condition on the step, which is about the same owner words -/
  own_slots : ∀ t a c', SettledCall c (.thread t a) → C.system.next c (.thread t a) c' →
    ∀ i, count c' i ≠ count c i →
      owner c i = 0 ∨ ∃ k, owner c i = C.ownerId t k ∨ owner c i = -C.ownerId t k
  open_eq_sum : Quiescent c →
    c.shared.openHandleCount = ∑ i with 0 < owner c i, count c i
  released : Quiescent c → (∀ u, (c.threads u).heldHandleCount = 0) →
    c.shared.openHandleCount = 0

omit [DecidableEq Ctx] in
/-- A context writes the count of a slot only if the slot is its own or free. -/
theorem Ledger.own_slots (h : Ledger C c) (e : Effect C c t s' l') {i : SlotIndex}
    (hne : (s'.slots i).handleCount ≠ count c i) :
    owner c i = 0 ∨ ∃ k, owner c i = C.ownerId t k ∨ owner c i = -C.ownerId t k := by
  have hown {ownerId : Int} (hid : IdOf C c t ownerId) (hfree : OwnOrFree c i ownerId) :
      owner c i = 0 ∨ ∃ k, owner c i = C.ownerId t k ∨ owner c i = -C.ownerId t k := by
    obtain ⟨k, -, rfl⟩ := hid
    exact hfree.imp_right fun hk => ⟨k, hk⟩
  rcases e.slots_cases with hsame | ⟨j, v, hs', -⟩ | ⟨j, v, hs', hw⟩
  · exact absurd (hsame i).2 hne
  · rw [hs', setOwnerId_handleCount] at hne
    exact absurd rfl hne
  · by_cases hj : i = j
    · subst hj
      rw [hs', setHandleCount_self] at hne
      cases hw with
      | openLease _ ownerId hclaimed hfree _ =>
          rcases hfree with hfree | hzero
          · exact hown ((h.context t).claimed _ _ hclaimed).2 hfree
          · exact absurd hzero.symm hne
      | addHandle lease _ hlease howned _ =>
          exact hown ((h.context t).lease_used lease hlease) (.inr howned.owner_eq)
      | sub lease _ _ hlease howned _ =>
          exact hown ((h.context t).lease_used lease hlease) (.inr howned.owner_eq)
      | wipe _ hclear _ =>
          rcases hclear with hzero | hzero
          · exact .inl hzero
          · exact absurd hzero.symm hne
    · rw [hs', setHandleCount_ne _ hj] at hne
      exact absurd rfl hne

omit [DecidableEq Ctx] in
/-- Between the calls a slot is in the counter exactly if its owner is positive. -/
theorem Ledger.credit_of_quiescent (h : Ledger C c) (hq : Quiescent c) (i : SlotIndex) :
    credit c i = if 0 < owner c i then count c i else 0 := by
  have hrest (u : Ctx) : (c.threads u).stage = .rest := by rw [Local.stage, hq u]; rfl
  split
  next hpos =>
    refine credit_eq ⟨by omega, fun u ownerId hu => ?_, fun u hu => ?_⟩
    · rw [hrest u] at hu
      cases hu
    · obtain ⟨n, hn⟩ := hu
      rw [hrest u] at hn
      cases hn
  next hnot =>
    by_cases hzero : owner c i = 0
    · exact credit_of_owner_zero hzero
    · obtain ⟨u, hu⟩ := h.recoverer i (by omega)
      rw [hrest u] at hu
      simp [Stage.Recovers, Stage.Drains] at hu

omit [DecidableEq Ctx] in
theorem Ledger.open_of_quiescent (h : Ledger C c) (hq : Quiescent c) :
    c.shared.openHandleCount = ∑ i with 0 < owner c i, count c i := by
  have hpending : ∑ u, (c.threads u).stage.pending = 0 :=
    Finset.sum_eq_zero fun u _ => by rw [Local.stage, hq u]; rfl
  rw [h.accounts, hpending, Finset.sum_filter, Int.add_zero]
  exact Finset.sum_congr rfl fun i _ => h.credit_of_quiescent hq i

/-- **The owner-lease accounting is exact in every settled run.** -/
theorem lease_accounting_exact (h : Reach C.system SettledCall c) : Accounting C c := by
  have hexact := Exact.reach h
  refine ⟨fun t a c' hcall hn i hne => ?_, hexact.ledger.open_of_quiescent, fun hq hreleased => ?_⟩
  · cases hn with
    | thread hact =>
        obtain ⟨e, -⟩ := hexact.ledger.effect hcall.calm hact
        exact hexact.ledger.own_slots e hne
  · rw [hexact.ledger.open_of_quiescent hq]
    refine Finset.sum_eq_zero fun i hi => ?_
    have hpos : 0 < owner c i := (Finset.mem_filter.mp hi).2
    obtain ⟨u, hclaimed | ⟨lease, hlease, hat⟩⟩ := hexact.known i hpos
    · rw [Local.stage, hq u] at hclaimed
      cases hclaimed
    · -- a lease between two calls has a handle
      have hone := (hexact.ledger.context u).handles lease hlease (by
        rw [Local.stage, hq u]
        rfl)
      have hzero := hreleased u
      unfold Local.heldHandleCount at hzero
      rw [hlease] at hzero
      simp only at hzero
      omega

end

/-! ## §4. Executed runs. -/

instance decidableForallSome {α : Type} (o : Option α) (p : α → Prop) [DecidablePred p] :
    Decidable (∀ a, o = some a → p a) :=
  match o with
  | none => isTrue nofun
  | some a => decidable_of_iff (p a) ⟨fun h _ heq => Option.some.inj heq ▸ h, fun h => h a rfl⟩

instance decidableExistsSome {α : Type} (o : Option α) (p : α → Prop) [DecidablePred p] :
    Decidable (∃ a, o = some a ∧ p a) :=
  match o with
  | none => isFalse nofun
  | some a =>
      decidable_of_iff (p a) ⟨fun h => ⟨a, rfl, h⟩, fun ⟨_, heq, h⟩ => Option.some.inj heq ▸ h⟩

instance decidableDrains (g : Stage) (i : SlotIndex) (ownerId : Int) : Decidable (g.Drains i ownerId) :=
  match g with
  | .draining j id n =>
      decidable_of_iff (j = i ∧ id = ownerId)
        ⟨fun ⟨hj, hid⟩ => ⟨n, by rw [hj, hid]⟩, fun ⟨_, heq⟩ => by cases heq; exact ⟨rfl, rfl⟩⟩
  | .rest | .claimed _ _ | .adding | .added | .retained | .releasing | .loading | .subtracting _
  | .reducing _ _ | .clearing | .leaving | .recovering _ _ => isFalse nofun

section

variable {n : Nat} (c : LeaseConfig (Fin n))

instance decidableOwned (lease : LocalRuntimeLease) : Decidable (Owned c lease) := by
  unfold Owned
  infer_instance

instance decidableOwnOrFree (i : SlotIndex) (ownerId : Int) : Decidable (OwnOrFree c i ownerId) := by
  unfold OwnOrFree
  infer_instance

instance decidableClearable (i : SlotIndex) : Decidable (Clearable c i) := by
  unfold Clearable
  infer_instance

instance decidableCalmStep (t : Fin n) : Decidable (CalmStep c t) := by
  unfold CalmStep
  split <;> infer_instance

instance decidableSettled (i : SlotIndex) (ownerId : Int) : Decidable (Settled c i ownerId) := by
  unfold Settled
  infer_instance

instance decidableSettledStep (t : Fin n) : Decidable (SettledStep c t) := by
  unfold SettledStep
  split <;> infer_instance

instance decidableSettledCall (label : ThreadLabel (Fin n) Act) : Decidable (SettledCall c label) :=
  match label with
  | .thread t a => inferInstanceAs (Decidable (((a.choice = .step → CalmStep c t)
      ∧ (c.threads t).pc.clears = false) ∧ (a.choice = .step → SettledStep c t)))
  | .env => isTrue trivial

end

/-- Contexts 0 and 1, whose owner ids are 1, 4, 7, … and 2, 5, 8, …; heartbeats
are stale after 5 ms. -/
def twoContexts : Contexts (Fin 2) where
  ownerId t k := 3 * k + t + 1
  owner_pos t k := by omega
  owner_inj t k u j h := ⟨Fin.ext (by omega), by omega⟩
  staleMs := 5
  fileCount := 1

def twoStart : LeaseConfig (Fin 2) where
  shared := ⟨0, 0, fun _ => ⟨0, 0, 0⟩, fun _ _ => 7, 1⟩
  threads _ := ⟨.idle, none, false, 0, true⟩

theorem twoStart_reach (ok) : Reach twoContexts.system ok twoStart :=
  .init ⟨⟨rfl, rfl, fun _ => rfl⟩, fun _ => rfl⟩

/-- A context makes a call of `k` steps. -/
def call (t : Fin 2) (choice : Choice) (k : Nat) : List (Cmd (Fin 2)) :=
  .context t choice :: List.replicate k (.context t .step)

/-- The operations that the accounting is about. -/
def LeaseCall (_ : LeaseConfig (Fin 2)) : ThreadLabel (Fin 2) Act → Prop
  | .thread _ a => a.choice ∈ [.retain, .release, .beat, .recover, .step]
  | .env => True

instance decidableLeaseCall (c : LeaseConfig (Fin 2)) (label : ThreadLabel (Fin 2) Act) :
    Decidable (LeaseCall c label) := by
  unfold LeaseCall
  split <;> infer_instance

/-- Context 0 retains twice and releases once: the open counter is 1, and the sum
over the owned slots. -/
theorem lease_accounting_exact_two :
    ∃ c, Reach twoContexts.system SettledCall c ∧ c.shared.openHandleCount = 1
      ∧ ∑ i with 0 < owner c i, count c i = 1 := by
  obtain ⟨c, hc, h⟩ := (twoStart_reach SettledCall).exists_of_commands
    (exec_next twoContexts SettledCall)
    (call 0 .retain 14 ++ call 0 .retain 5 ++ call 0 .release 8)
    (fun c => decide (c.shared.openHandleCount = 1 ∧ ∀ u, (c.threads u).pc = .idle)) (by decide)
  obtain ⟨hopen, hq⟩ := of_decide_eq_true h
  exact ⟨c, hc, hopen, by rw [← (lease_accounting_exact hc).open_eq_sum hq, hopen]⟩

/-- **A recovered owner leaves the open counter too high.**  Context 0 retains a
handle and is slow; at 10 ms context 1 recovers its lease.  Context 0 retains
again, which adds to the open counter although its slot is free now, and then
releases both handles, which finds the foreign owner word and does nothing.  All
handles are released, no slot is owned, and the open counter is 1. -/
theorem recovered_owner_leaves_open_count :
    ∃ c, Reach twoContexts.system LeaseCall c ∧ Quiescent c
      ∧ (∀ u, (c.threads u).heldHandleCount = 0) ∧ (∀ i, owner c i = 0)
      ∧ c.shared.openHandleCount = 1 := by
  obtain ⟨c, hc, h⟩ := (twoStart_reach LeaseCall).exists_of_commands
    (exec_next twoContexts LeaseCall)
    (call 0 .retain 14 ++ .clock 10 :: call 1 .recover 43 ++ call 0 .retain 3
      ++ call 0 .release 1 ++ call 0 .release 1)
    (fun c => decide ((∀ u, (c.threads u).pc = .idle) ∧ (∀ u, (c.threads u).heldHandleCount = 0)
      ∧ (∀ i, owner c i = 0) ∧ c.shared.openHandleCount = 1)) (by decide)
  obtain ⟨hq, hheld, howner, hopen⟩ := of_decide_eq_true h
  exact ⟨c, hc, hq, hheld, howner, hopen⟩

end MemoryWriteAhead.Lease
