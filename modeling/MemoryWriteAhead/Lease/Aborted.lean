/-
  MemoryWriteAhead.Lease.Aborted
  ──────────────────────────────
  **WHAT AN ABORTED RECOVERY LEAVES OF A LIVE OWNER'S LEASE.**

  A scan that has claimed a slot looks at its heartbeat once more.  When it has
  changed, the scan stores the owner id back and goes on.  Until then the owner
  finds a foreign word in its own slot.

    • `OwnerAt` — the lease, the timer and the slot, read off the place where the
      owner is in its code,
    • `ScannerAt` — the same for the scan, as far as the owner's slot is concerned,
    • `OwnerAt.step`, `ScannerAt.step` — what one step of either does,
    • `aborted_recovery_invisible` — and a whole run, if the owner takes none of the
      three steps that mind the claim while it is in place.
-/
import Mathlib
import MemoryWriteAhead.Lease.Reclaim

namespace MemoryWriteAhead.Lease

open Transition

variable {Ctx : Type}

/-! ## §1. The window. -/

/-- The slot that a scan has claimed and not handed back, before it has found the
heartbeat unchanged. -/
def Pc.claims : Pc → Option SlotIndex
  | .recover r (.recheck _) | .recover r .handBack => some r.slot
  | _ => none

theorem Pc.unclaimed {pc : Pc} (h : pc.claims = none) {i : SlotIndex} : pc.claims ≠ some i :=
  fun hsome => Option.some_ne_none i (hsome.symm.trans h)

/-- The slot whose heartbeat a scan is about to compare, and the one it has seen. -/
def Pc.rechecks : Pc → Option (SlotIndex × Int)
  | .recover r (.recheck staleHeartbeat) => some (r.slot, staleHeartbeat)
  | _ => none

/-- The owner's steps that go wrong on a claimed slot: a release that compares the
owner word skips its subtraction, a timer that compares it stops, and a cleared word
is overwritten by the hand-back. -/
def Pc.mindsClaim : Pc → Bool
  | .release .loadOwnerId | .release .clearOwnerId | .beat .timer .loadOwnerId => true
  | _ => false

/-- The owner is between two calls with `lease`, which agrees with its slot, its
timer is running, and the scan has not begun. -/
structure LiveLease (c₀ : LeaseConfig Ctx) (owner scanner : Ctx) (lease : LocalRuntimeLease) :
    Prop where
  distinct : scanner ≠ owner
  scan : (c₀.threads scanner).pc = .idle
  idle : (c₀.threads owner).pc = .idle
  held : (c₀.threads owner).lease = some lease
  beating : (c₀.threads owner).beating = true
  owner_pos : 0 < lease.ownerId
  handles : 1 ≤ lease.handleCount
  ownerWord : Lease.owner c₀ lease.slotIndex = lease.ownerId
  countWord : Lease.count c₀ lease.slotIndex = lease.handleCount

/-- The owner retains, releases and beats on its lease, the scanner scans, and finds
the heartbeat changed if it has claimed the owner's slot. -/
def Aborting [DecidableEq Ctx] (owner scanner : Ctx) (lease : LocalRuntimeLease)
    (c : LeaseConfig Ctx) : ThreadLabel Ctx Act → Prop
  | .thread t a =>
      if t = owner then
        (a.choice = .retain → (c.threads owner).lease ≠ none)
          ∧ a.choice ∈ [.retain, .release, .beat, .step]
      else
        t = scanner ∧ a.choice ∈ [.recover, .step]
          ∧ (a.choice = .step → ∀ x, (c.threads scanner).pc.rechecks = some x →
            x.1 = lease.slotIndex → heartbeat c.shared x.1 ≠ x.2)
  | .env => True

/-- While the owner's slot is claimed, the owner takes none of the steps that mind it. -/
def OutOfWindow (owner scanner : Ctx) (lease : LocalRuntimeLease) (c : LeaseConfig Ctx) :
    ThreadLabel Ctx Act → Prop
  | .thread t a =>
      t = owner → a.choice = .step → (c.threads scanner).pc.claims = some lease.slotIndex →
        (c.threads owner).pc.mindsClaim = false
  | .env => True

/-- The slot is as the owner's own operations have left it. -/
def AsOwnerLeft (c : LeaseConfig Ctx) (owner : Ctx) (lease : LocalRuntimeLease) : Prop :=
  (∃ handleCount, 1 ≤ handleCount
      ∧ (c.threads owner).lease = some { lease with handleCount }
      ∧ Lease.owner c lease.slotIndex = lease.ownerId
      ∧ Lease.count c lease.slotIndex = handleCount
      ∧ (c.threads owner).beating = true)
    ∨ (c.threads owner).lease = none ∧ c.shared.slots lease.slotIndex = ⟨0, 0, 0⟩

/-! ## §2. The owner. -/

section

variable {ownerId word : Int} {i : SlotIndex} {n : Nat} {shown : Int} {w : Slot} {l : Local}
  {s : Shared} {p : Params}

/-- The owner has `n` handles, its slot shows `shown` of them, and `word` for the
owner id; the timer is running. -/
structure Holds (ownerId : Int) (i : SlotIndex) (word : Int) (n : Nat) (shown : Int) (w : Slot)
    (l : Local) : Prop where
  lease : l.lease = some ⟨n, ownerId, i⟩
  beating : l.beating = true
  ownerWord : w.ownerId = word
  countWord : w.handleCount = shown

/-- Where the owner can be, and what its lease and slot are there. -/
inductive OwnerAt (ownerId : Int) (i : SlotIndex) (word : Int) (w : Slot) (l : Local) : Prop
  | idle (n : Nat) : l.pc = .idle → Holds ownerId i word (n + 1) (n + 1) w l →
      OwnerAt ownerId i word w l
  | beating (n : Nat) (caller : BeatCaller) (pc : BeatPc) : l.pc = .beat caller pc →
      Holds ownerId i word (n + 1) (n + 1) w l → OwnerAt ownerId i word w l
  | retaining (n : Nat) : l.pc = .retainAddOpen ∨ l.pc = .retainAddHandle →
      Holds ownerId i word (n + 1) n w l → OwnerAt ownerId i word w l
  | releasing (n : Nat) : l.pc = .release .loadOwnerId ∨ l.pc = .release .loadHandleCount
        ∨ l.pc = .release (.subHandleCount (n + 1)) →
      Holds ownerId i word n (n + 1) w l → OwnerAt ownerId i word w l
  | reducing (n : Nat) (released : Int) : (l.pc = .reduceLoad (.release (n + 1)) released
        ∨ ∃ current, l.pc = .reduceSwap (.release (n + 1)) released current) →
      Holds ownerId i word n n w l → OwnerAt ownerId i word w l
  | clearing : l.pc = .release .clearOwnerId → Holds ownerId i word 0 0 w l →
      OwnerAt ownerId i word w l
  | clearingHandleCount : l.pc = .release .clearHandleCount → l.lease = some ⟨0, ownerId, i⟩ →
      w.ownerId = 0 → OwnerAt ownerId i word w l
  | clearingHeartbeat : l.pc = .release .clearHeartbeat → l.lease = some ⟨0, ownerId, i⟩ →
      w.ownerId = 0 → w.handleCount = 0 → OwnerAt ownerId i word w l
  | released : l.pc = .idle → l.lease = none → w = ⟨0, 0, 0⟩ → OwnerAt ownerId i word w l

/-- What the owner knows does not depend on its place. -/
theorem Holds.goto (h : Holds ownerId i word n shown w l) (pc : Pc) :
    Holds ownerId i word n shown w (l.goto pc) :=
  ⟨h.lease, h.beating, h.ownerWord, h.countWord⟩

/-- The owner's next state, and that it changes its owner word only to clear it. -/
structure OwnerNext (ownerId : Int) (i : SlotIndex) (word : Int) (s : Shared) (l : Local)
    (st : Step) : Prop where
  place : OwnerAt ownerId i word (st.1.slots i) st.2.1
  ownerWord : l.pc ≠ .release .clearOwnerId → (st.1.slots i).ownerId = (s.slots i).ownerId

/-- A step that leaves the slots as they are. -/
theorem OwnerNext.quiet {st : Step} (hslots : st.1.slots i = s.slots i)
    (h : OwnerAt ownerId i word (s.slots i) st.2.1) : OwnerNext ownerId i word s l st :=
  ⟨by rw [hslots]; exact h, fun _ => by rw [hslots]⟩

theorem slots_setHeartbeatMs (s : Shared) (i : SlotIndex) (v : Int) :
    (s.setHeartbeatMs i v).slots i = ⟨(s.slots i).ownerId, (s.slots i).handleCount, v⟩ :=
  Function.update_self ..

/-- `updateOwnerLeaseHeartbeat` returns, to the timer only after it has updated. -/
theorem Holds.endBeat {updated : Bool} {caller : BeatCaller}
    (h : Holds ownerId i word (n + 1) (n + 1) w l) (hupdated : updated = true ∨ caller ≠ .timer)
    (s : Shared) :
    (endBeat s l ⟨n + 1, ownerId, i⟩ updated caller).1 = s
      ∧ OwnerAt ownerId i word w (endBeat s l ⟨n + 1, ownerId, i⟩ updated caller).2.1 := by
  cases caller with
  | retain => exact ⟨rfl, .idle n rfl (h.goto _)⟩
  | release =>
      have hlease : (finishRelease l).lease = some ⟨n + 1, ownerId, i⟩ := by
        simp [finishRelease, h.lease]
      exact ⟨rfl, .idle n rfl ⟨hlease, h.beating, h.ownerWord, h.countWord⟩⟩
  | timer =>
      have htrue : updated = true := hupdated.resolve_right fun hne => hne rfl
      have hbeating : (l.beating && updated) = true := by rw [h.beating, htrue]; rfl
      exact ⟨rfl, .idle n rfl ⟨h.lease, hbeating, h.ownerWord, h.countWord⟩⟩

/-- After the handle is taken off, only the last release clears the slot. -/
theorem Holds.afterSub (h : Holds ownerId i word n n w l) (s : Shared) :
    (afterSub s l ⟨n, ownerId, i⟩ (n + 1)).1 = s
      ∧ OwnerAt ownerId i word w (afterSub s l ⟨n, ownerId, i⟩ (n + 1)).2.1 := by
  cases n with
  | zero =>
      have hlast : Lease.afterSub s l ⟨0, ownerId, i⟩ ((0 : Nat) + 1)
          = (s, l.goto (.release .clearOwnerId), none) := if_pos ⟨Int.le_refl 1, rfl⟩
      rw [hlast]
      exact ⟨rfl, .clearing rfl (h.goto _)⟩
  | succ n =>
      have hmore : Lease.afterSub s l ⟨n + 1, ownerId, i⟩ ((n + 1 : Nat) + 1)
          = (s, l.goto (.beat .release .loadOwnerId), none) :=
        if_neg fun hlast => Nat.succ_ne_zero n hlast.2
      rw [hmore]
      refine ⟨rfl, .beating n _ _ rfl ⟨h.lease, h.beating, h.ownerWord, ?_⟩⟩
      rw [h.countWord]
      push_cast
      rfl

theorem Holds.beatStep {caller : BeatCaller} {pc : BeatPc}
    (h : Holds ownerId i word (n + 1) (n + 1) (s.slots i) l) (hpc : l.pc = .beat caller pc)
    (hword : word = ownerId ∨ l.pc.mindsClaim = false) :
    OwnerNext ownerId i word s l (beatStep s l ⟨n + 1, ownerId, i⟩ caller pc) := by
  cases pc with
  | loadOwnerId =>
      simp only [Lease.beatStep]
      split
      next hforeign =>
        -- the word is foreign, so the slot is claimed and this is not the timer
        have hcaller : caller ≠ .timer := by
          intro htimer
          rcases hword with hsame | hminds
          · rw [h.ownerWord, hsame] at hforeign
            exact hforeign.elim (fun hne => hne rfl) fun hzero => Nat.succ_ne_zero n hzero
          · rw [hpc, htimer] at hminds
            cases hminds
        obtain ⟨hs, hplace⟩ := h.endBeat (.inr hcaller) s
        exact .quiet (by rw [hs]) hplace
      · exact .quiet rfl (.beating n _ _ rfl (h.goto _))
  | readClock => exact .quiet rfl (.beating n _ _ rfl (h.goto _))
  | storeHeartbeat nowMs =>
      simp only [Lease.beatStep]
      have hstored : Holds ownerId i word (n + 1) (n + 1)
          ((s.setHeartbeatMs i nowMs).slots i) l := by
        rw [slots_setHeartbeatMs]
        exact ⟨h.lease, h.beating, h.ownerWord, h.countWord⟩
      obtain ⟨hs, hplace⟩ := hstored.endBeat (.inl rfl) (s.setHeartbeatMs i nowMs)
      refine ⟨by rw [hs]; exact hplace, fun _ => ?_⟩
      rw [hs, slots_setHeartbeatMs]

theorem Holds.reduceLoop {released : Int} (h : Holds ownerId i word n n (s.slots i) l)
    (current : Int) :
    OwnerNext ownerId i word s l (reduceLoop s l (.release (n + 1)) released current) := by
  unfold Lease.reduceLoop
  split
  · exact .quiet rfl (.reducing n released (.inr ⟨current, rfl⟩) (h.goto _))
  · simp only [endReduce, h.lease]
    obtain ⟨hs, hplace⟩ := h.afterSub s
    exact .quiet (by rw [hs]) hplace

/-- **One step of the owner's running call.** -/
theorem OwnerAt.run (h : OwnerAt ownerId i word (s.slots i) l)
    (hword : word = ownerId ∨ l.pc.mindsClaim = false) :
    OwnerNext ownerId i word s l (runStep p s l) := by
  cases h with
  | idle n hpc h =>
      rw [show runStep p s l = (s, l, none) by unfold runStep; rw [hpc]]
      exact .quiet rfl (.idle n hpc h)
  | beating n caller pc hpc h =>
      rw [show runStep p s l = Lease.beatStep s l ⟨n + 1, ownerId, i⟩ caller pc by
        unfold runStep; rw [hpc, h.lease]]
      exact h.beatStep hpc hword
  | retaining n hpc h =>
      rcases hpc with hpc | hpc
      · unfold runStep
        rw [hpc]
        exact .quiet rfl (.retaining n (.inr rfl) (h.goto _))
      · unfold runStep
        rw [hpc, h.lease]
        have hcount : ((s.setHandleCount i ((s.slots i).handleCount + 1)).slots i).handleCount
            = n + 1 := by
          rw [setHandleCount_self, h.countWord]
        exact ⟨.beating n _ _ rfl ⟨h.lease, h.beating,
          (setHandleCount_ownerId s i i _).trans h.ownerWord, hcount⟩,
          fun _ => setHandleCount_ownerId s i i _⟩
  | releasing n hpc h =>
      rcases hpc with hpc | hpc | hpc
      · have hown : (s.slots i).ownerId = ownerId := by
          rw [h.ownerWord]
          exact hword.resolve_right fun hminds => by rw [hpc] at hminds; cases hminds
        unfold runStep
        rw [hpc, h.lease]
        simp only [releaseStep, if_pos hown]
        exact .quiet rfl (.releasing n (.inr (.inl rfl)) (h.goto _))
      · have hpos : (s.slots i).handleCount > 0 := by rw [h.countWord]; omega
        unfold runStep
        rw [hpc, h.lease]
        simp only [releaseStep, if_pos hpos]
        refine .quiet rfl (.releasing n (.inr (.inr ?_)) (h.goto _))
        rw [h.countWord]
        rfl
      · unfold runStep
        rw [hpc, h.lease]
        have hcount : ((s.setHandleCount i ((s.slots i).handleCount - 1)).slots i).handleCount
            = n := by
          rw [setHandleCount_self, h.countWord, Int.add_sub_cancel]
        exact ⟨.reducing n 1 (.inl rfl) ⟨h.lease, h.beating,
          (setHandleCount_ownerId s i i _).trans h.ownerWord, hcount⟩,
          fun _ => setHandleCount_ownerId s i i _⟩
  | reducing n released hpc h =>
      rcases hpc with hpc | ⟨current, hpc⟩
      · unfold runStep
        rw [hpc]
        exact h.reduceLoop _
      · unfold runStep
        rw [hpc]
        simp only [reduceSwapStep]
        split
        · -- the exchange succeeds, and only the open counter changes
          simp only [endReduce, h.lease]
          obtain ⟨hs, hplace⟩ := h.afterSub
            { s with openHandleCount := max 0 (current - released) }
          exact .quiet (by rw [hs]) hplace
        · exact h.reduceLoop _
  | clearing hpc h =>
      unfold runStep
      rw [hpc, h.lease]
      exact ⟨.clearingHandleCount rfl h.lease (setOwnerId_self s i 0), fun hne => absurd hpc hne⟩
  | clearingHandleCount hpc hlease howner =>
      unfold runStep
      rw [hpc, hlease]
      exact ⟨.clearingHeartbeat rfl hlease ((setHandleCount_ownerId s i i 0).trans howner)
        (setHandleCount_self s i 0), fun _ => setHandleCount_ownerId s i i 0⟩
  | clearingHeartbeat hpc hlease howner hcount =>
      unfold runStep
      rw [hpc, hlease]
      have hcleared : (s.setHeartbeatMs i 0).slots i = ⟨0, 0, 0⟩ := by
        rw [slots_setHeartbeatMs, howner, hcount]
      have hfinished : (finishRelease l).lease = none := by simp [finishRelease, hlease]
      exact ⟨.released rfl hfinished hcleared, fun _ => (setHeartbeatMs_same s i 0).ownerId i⟩
  | released hpc hlease hw =>
      rw [show runStep p s l = (s, l, none) by unfold runStep; rw [hpc]]
      exact .quiet rfl (.released hpc hlease hw)

/-- Between two calls the owner begins one of its own. -/
theorem OwnerAt.begins {choice : Choice} {s' : Shared} {l' : Local} {o : Option Outcome}
    (h : OwnerAt ownerId i word (s.slots i) l) (hidle : l.pc = .idle)
    (hretain : choice = .retain → l.lease ≠ none)
    (hchoice : choice ∈ [.retain, .release, .beat, .step])
    (hr : choose p choice s l = some (s', l', o)) :
    s' = s ∧ OwnerAt ownerId i word (s.slots i) l' := by
  have hfree : ¬l.pc ≠ .idle := fun hbusy => hbusy hidle
  cases h with
  | idle n hpc h =>
      simp only [List.mem_cons, List.not_mem_nil, or_false] at hchoice
      rcases hchoice with rfl | rfl | rfl | rfl
      · simp only [choose, reduceCtorEq, if_false, if_neg hfree, h.lease] at hr
        obtain ⟨rfl, rfl, -⟩ := by simpa using hr
        refine ⟨rfl, .retaining (n + 1) (.inl rfl) ⟨rfl, h.beating, h.ownerWord, ?_⟩⟩
        rw [h.countWord]
        push_cast
        rfl
      · simp only [choose, reduceCtorEq, if_false, if_neg hfree, h.lease] at hr
        obtain ⟨rfl, rfl, -⟩ := by simpa using hr
        exact ⟨rfl, .releasing n (.inl rfl) ⟨rfl, h.beating, h.ownerWord, h.countWord⟩⟩
      · simp only [choose, reduceCtorEq, if_false, if_neg hfree, h.lease, h.beating, if_true] at hr
        obtain ⟨rfl, rfl, -⟩ := by simpa using hr
        exact ⟨rfl, .beating n _ _ rfl (h.goto _)⟩
      · simp only [choose, if_true, if_pos hidle] at hr
        cases hr
  | released hpc hlease hw =>
      simp only [List.mem_cons, List.not_mem_nil, or_false] at hchoice
      rcases hchoice with rfl | rfl | rfl | rfl
      · exact absurd hlease (hretain rfl)
      · simp only [choose, reduceCtorEq, if_false, if_neg hfree, hlease] at hr
        obtain ⟨rfl, rfl, -⟩ := by simpa using hr
        exact ⟨rfl, .released hpc hlease hw⟩
      · simp only [choose, reduceCtorEq, if_false, if_neg hfree, hlease] at hr
      · simp only [choose, if_true, if_pos hidle] at hr
        cases hr
  | beating _ _ _ hpc _ | clearing hpc _ | clearingHandleCount hpc _ _
  | clearingHeartbeat hpc _ _ _ =>
      rw [hidle] at hpc
      cases hpc
  | retaining n hpc _ => rcases hpc with hpc | hpc <;> rw [hidle] at hpc <;> cases hpc
  | releasing n hpc _ => rcases hpc with hpc | hpc | hpc <;> rw [hidle] at hpc <;> cases hpc
  | reducing n _ hpc _ => rcases hpc with hpc | ⟨_, hpc⟩ <;> rw [hidle] at hpc <;> cases hpc

/-- A running call can only go on. -/
theorem choose_of_busy {choice : Choice} {st : Step} (hbusy : l.pc ≠ .idle)
    (hr : choose p choice s l = some st) : choice = .step ∧ st = runStep p s l := by
  obtain ⟨s', l', o⟩ := st
  rcases choose_cases hr with hrun | ⟨-, hidle, -⟩
  · exact hrun
  · exact absurd hidle hbusy

/-- **A choice of the owner.** -/
theorem OwnerAt.step {choice : Choice} {s' : Shared} {l' : Local} {o : Option Outcome}
    (h : OwnerAt ownerId i word (s.slots i) l)
    (hword : word = ownerId ∨ (choice = .step → l.pc.mindsClaim = false))
    (hretain : choice = .retain → l.lease ≠ none)
    (hchoice : choice ∈ [.retain, .release, .beat, .step])
    (hr : choose p choice s l = some (s', l', o)) :
    OwnerNext ownerId i word s l (s', l', o) := by
  by_cases hidle : l.pc = .idle
  · obtain ⟨rfl, hplace⟩ := h.begins hidle hretain hchoice hr
    exact .quiet rfl hplace
  · obtain ⟨hstep, hrun⟩ := choose_of_busy hidle hr
    rw [hrun]
    exact h.run (hword.imp_right fun hminds => hminds hstep)

/-- Only the owner word depends on whether the slot is claimed. -/
theorem OwnerAt.reword (h : OwnerAt ownerId i word w l) (howned : w.ownerId ≠ 0) (word' : Int) :
    OwnerAt ownerId i word' { w with ownerId := word' } l := by
  have hholds {n : Nat} {shown : Int} (h : Holds ownerId i word n shown w l) :
      Holds ownerId i word' n shown { w with ownerId := word' } l :=
    ⟨h.lease, h.beating, rfl, h.countWord⟩
  cases h with
  | idle n hpc h => exact .idle n hpc (hholds h)
  | beating n caller pc hpc h => exact .beating n caller pc hpc (hholds h)
  | retaining n hpc h => exact .retaining n hpc (hholds h)
  | releasing n hpc h => exact .releasing n hpc (hholds h)
  | reducing n released hpc h => exact .reducing n released hpc (hholds h)
  | clearing hpc h => exact .clearing hpc (hholds h)
  | clearingHandleCount _ _ hzero | clearingHeartbeat _ _ hzero _ => exact absurd hzero howned
  | released _ _ hw => exact absurd (by rw [hw]) howned

/-- An owned slot shows the owner word that the scan has left. -/
theorem OwnerAt.ownerWord (h : OwnerAt ownerId i word w l) : w.ownerId = word ∨ w.ownerId = 0 := by
  cases h with
  | idle _ _ h | beating _ _ _ _ h | retaining _ _ h | releasing _ _ h | reducing _ _ _ h
  | clearing _ h => exact .inl h.ownerWord
  | clearingHandleCount _ _ hzero | clearingHeartbeat _ _ hzero _ => exact .inr hzero
  | released _ _ hw => exact .inr (by rw [hw])

/-! ## §3. The scan. -/

/-- Where the scan can be.  At the owner's slot it has the owner's id in hand, and it
does not come to reclaim the slot. -/
inductive ScannerAt (ownerId : Int) (i : SlotIndex) : Pc → Prop
  | idle : ScannerAt ownerId i .idle
  | elsewhere (r : Recovery) (pc : RecoverPc) : r.caller = .client → r.slot ≠ i →
      ScannerAt ownerId i (.recover r pc)
  | reduceLoad (r : Recovery) (released : Int) : r.caller = .client → r.slot ≠ i →
      ScannerAt ownerId i (.reduceLoad (.recover r) released)
  | reduceSwap (r : Recovery) (released current : Int) : r.caller = .client → r.slot ≠ i →
      ScannerAt ownerId i (.reduceSwap (.recover r) released current)
  | arrives (r : Recovery) : r.caller = .client → r.slot = i →
      ScannerAt ownerId i (.recover r .loadOwnerId)
  | judges (r : Recovery) (pc : RecoverPc) : r.caller = .client → r.slot = i →
      r.ownerId = ownerId → pc = .loadHeartbeat ∨ (∃ h, pc = .readAge h) ∨ (∃ h, pc = .claim h) →
      ScannerAt ownerId i (.recover r pc)
  | holds (r : Recovery) (pc : RecoverPc) : r.caller = .client → r.slot = i →
      r.ownerId = ownerId → (∃ h, pc = .recheck h) ∨ pc = .handBack →
      ScannerAt ownerId i (.recover r pc)

/-- What one step of the scan does to the owner's slot. -/
inductive ScanNext (ownerId : Int) (i : SlotIndex) (s : Shared) (pc : Pc) (st : Step) : Prop
  | passes : st.1.slots i = s.slots i → (st.2.1.pc.claims = some i ↔ pc.claims = some i) →
      ScannerAt ownerId i st.2.1.pc → ScanNext ownerId i s pc st
  | claims : (s.slots i).ownerId = ownerId →
      st.1.slots i = { s.slots i with ownerId := -ownerId } → st.2.1.pc.claims = some i →
      ScannerAt ownerId i st.2.1.pc → ScanNext ownerId i s pc st
  | handsBack : pc.claims = some i → st.1.slots i = { s.slots i with ownerId := ownerId } →
      st.2.1.pc.claims ≠ some i → ScannerAt ownerId i st.2.1.pc → ScanNext ownerId i s pc st

/-- The scan goes on to the next slot, or returns. -/
theorem nextRecover_scannerAt (ownerId : Int) (i : SlotIndex) (s : Shared) (l : Local)
    {r : Recovery} (hcaller : r.caller = .client) :
    (nextRecover s l r).1 = s ∧ (nextRecover s l r).2.1.pc.claims = none
      ∧ ScannerAt ownerId i (nextRecover s l r).2.1.pc := by
  unfold nextRecover
  cases nextSlot r.slot with
  | some slot =>
      refine ⟨rfl, rfl, ?_⟩
      by_cases hslot : slot = i
      · exact .arrives { r with slot } hcaller hslot
      · exact .elsewhere { r with slot } _ hcaller hslot
  | none =>
      have hend : endRecover s l r = (s, l.goto .idle, some (.recovered r.recoveredHandleCount)) := by
        unfold endRecover
        rw [hcaller]
      simp only [hend]
      exact ⟨trivial, rfl, .idle⟩

theorem setOwnerId_slots_ne (s : Shared) {i j : SlotIndex} (h : i ≠ j) (v : Int) :
    (s.setOwnerId j v).slots i = s.slots i := Function.update_of_ne h ..

theorem setHandleCount_slots_ne (s : Shared) {i j : SlotIndex} (h : i ≠ j) (v : Int) :
    (s.setHandleCount j v).slots i = s.slots i := Function.update_of_ne h ..

theorem setHeartbeatMs_slots_ne (s : Shared) {i j : SlotIndex} (h : i ≠ j) (v : Int) :
    (s.setHeartbeatMs j v).slots i = s.slots i := Function.update_of_ne h ..

section

variable {r : Recovery}

/-- A step from a place without a claim on the owner's slot to another. -/
theorem ScanNext.unclaimed {pc : Pc} {st : Step} (hbefore : pc.claims ≠ some i)
    (hslots : st.1.slots i = s.slots i) (hafter : st.2.1.pc.claims ≠ some i)
    (hplace : ScannerAt ownerId i st.2.1.pc) : ScanNext ownerId i s pc st :=
  .passes hslots (iff_of_false hafter hbefore) hplace

theorem ScanNext.next {pc : Pc} {s' : Shared} (hbefore : pc.claims ≠ some i)
    (hslots : s'.slots i = s.slots i) (hcaller : r.caller = .client) :
    ScanNext ownerId i s pc (nextRecover s' l r) := by
  obtain ⟨hs, hclaims, hplace⟩ := nextRecover_scannerAt ownerId i s' l hcaller
  refine .unclaimed hbefore (by rw [hs]; exact hslots) ?_ hplace
  rw [hclaims]
  exact (Option.some_ne_none i).symm

/-- A recovery of another slot. -/
theorem recoverStep_elsewhere (hcaller : r.caller = .client) (hslot : r.slot ≠ i)
    (pc : RecoverPc) : ScanNext ownerId i s (.recover r pc) (recoverStep p s l r pc) := by
  have hclaims (pc : RecoverPc) : (Pc.recover r pc).claims ≠ some i := by
    cases pc with
    | recheck | handBack => exact fun h => hslot (Option.some.inj h)
    | _ => exact Pc.unclaimed rfl
  have hgo {s' : Shared} (hslots : s'.slots i = s.slots i) (pc' : RecoverPc) :
      ScanNext ownerId i s (.recover r pc) (s', l.goto (.recover r pc'), none) :=
    .unclaimed (hclaims pc) hslots (hclaims pc') (.elsewhere r pc' hcaller hslot)
  have hnext : ScanNext ownerId i s (.recover r pc) (nextRecover s l r) :=
    .next (hclaims pc) rfl hcaller
  cases pc with
  | loadOwnerId =>
      simp only [recoverStep]
      split
      · exact hnext
      · exact .unclaimed (hclaims _) rfl (Pc.unclaimed rfl) (.elsewhere _ _ hcaller hslot)
  | loadHeartbeat => exact hgo rfl _
  | readAge staleHeartbeat =>
      simp only [recoverStep]
      split
      · exact hgo rfl _
      · exact hnext
  | claim staleHeartbeat =>
      simp only [recoverStep]
      split
      · exact hgo (setOwnerId_slots_ne s hslot.symm _) _
      · exact hnext
  | recheck staleHeartbeat =>
      simp only [recoverStep]
      split
      · exact hgo rfl _
      · exact hgo rfl _
  | handBack => exact .next (hclaims _) (setOwnerId_slots_ne s hslot.symm _) hcaller
  | loadHandleCount =>
      simp only [recoverStep]
      split
      · exact hgo rfl _
      · exact .unclaimed (hclaims _) rfl (Pc.unclaimed rfl) (.reduceLoad r _ hcaller hslot)
  | clearOwnerId released => exact hgo (setOwnerId_slots_ne s hslot.symm _) _
  | clearHandleCount released => exact hgo (setHandleCount_slots_ne s hslot.symm _) _
  | clearHeartbeat released => exact hgo (setHeartbeatMs_slots_ne s hslot.symm _) _
  | addRecovered released =>
      simp only [recoverStep, hcaller]
      exact .next (hclaims _) rfl rfl

/-- The reduction of the open counter for another slot. -/
theorem reduceLoop_elsewhere {pc : Pc} {released : Int} (hbefore : pc.claims ≠ some i)
    (hcaller : r.caller = .client) (hslot : r.slot ≠ i) (current : Int) :
    ScanNext ownerId i s pc (reduceLoop s l (.recover r) released current) := by
  unfold reduceLoop
  split
  · exact .unclaimed hbefore rfl (Pc.unclaimed rfl) (.reduceSwap r released current hcaller hslot)
  · exact .unclaimed hbefore rfl (Pc.unclaimed rfl) (.elsewhere r _ hcaller hslot)

end

/-- **One step of the running scan**, which finds the heartbeat of a claimed owner's
slot changed. -/
theorem ScannerAt.run (h : ScannerAt ownerId i l.pc) (hpos : 0 < ownerId)
    (howner : (s.slots i).ownerId = ownerId ∨ (s.slots i).ownerId = -ownerId
      ∨ (s.slots i).ownerId = 0)
    (hchanged : ∀ x, l.pc.rechecks = some x → x.1 = i → heartbeat s x.1 ≠ x.2) :
    ScanNext ownerId i s l.pc (runStep p s l) := by
  unfold runStep
  generalize hpc : l.pc = pc at h
  cases h with
  | idle =>
      refine .passes rfl (by rw [hpc]) ?_
      rw [hpc]
      exact .idle
  | elsewhere r pc hcaller hslot => exact recoverStep_elsewhere hcaller hslot pc
  | reduceLoad r released hcaller hslot =>
      have hnone : (Pc.reduceLoad (.recover r) released).claims ≠ some i := Pc.unclaimed rfl
      exact reduceLoop_elsewhere hnone hcaller hslot _
  | reduceSwap r released current hcaller hslot =>
      have hnone : (Pc.reduceSwap (.recover r) released current).claims ≠ some i :=
        Pc.unclaimed rfl
      simp only [reduceSwapStep]
      split
      · exact .unclaimed hnone rfl (Pc.unclaimed rfl) (.elsewhere r _ hcaller hslot)
      · exact reduceLoop_elsewhere hnone hcaller hslot _
  | arrives r hcaller hslot =>
      have hnone : (Pc.recover r .loadOwnerId).claims ≠ some i := Pc.unclaimed rfl
      simp only [recoverStep]
      split
      · exact .next hnone rfl hcaller
      next howned =>
        -- a positive owner word of the slot is the owner's id
        have hid : (s.slots r.slot).ownerId = ownerId := by
          rw [hslot] at howned ⊢
          omega
        exact .unclaimed hnone rfl (Pc.unclaimed rfl)
          (.judges _ _ hcaller hslot hid (.inl rfl))
  | judges r pc hcaller hslot hid hjudges =>
      have hnone : (Pc.recover r pc).claims ≠ some i := by
        rcases hjudges with rfl | ⟨h, rfl⟩ | ⟨h, rfl⟩ <;> exact Pc.unclaimed rfl
      rcases hjudges with rfl | ⟨h, rfl⟩ | ⟨h, rfl⟩
      · exact .unclaimed hnone rfl (Pc.unclaimed rfl)
          (.judges r _ hcaller hslot hid (.inr (.inl ⟨_, rfl⟩)))
      · simp only [recoverStep]
        split
        · exact .unclaimed hnone rfl (Pc.unclaimed rfl)
            (.judges r _ hcaller hslot hid (.inr (.inr ⟨h, rfl⟩)))
        · exact .next hnone rfl hcaller
      · simp only [recoverStep]
        split
        next hsame =>
          rw [hslot, hid] at hsame
          refine .claims hsame ?_ (congrArg some hslot) (.holds r _ hcaller hslot hid (.inl ⟨h, rfl⟩))
          rw [hslot, hid]
          exact Function.update_self ..
        · exact .next hnone rfl hcaller
  | holds r pc hcaller hslot hid hholds =>
      rcases hholds with ⟨h, rfl⟩ | rfl
      · have hne : (s.slots r.slot).heartbeatMs ≠ h := hchanged (r.slot, h) (by rw [hpc]; rfl) hslot
        simp only [recoverStep, if_pos hne]
        exact .passes rfl Iff.rfl (.holds r _ hcaller hslot hid (.inr rfl))
      · obtain ⟨hs, hclaims, hplace⟩ := nextRecover_scannerAt ownerId i
          (s.setOwnerId r.slot r.ownerId) l hcaller
        refine .handsBack (congrArg some hslot) ?_ ?_ hplace
        · show (nextRecover _ l r).1.slots i = _
          rw [hs, hslot, hid]
          exact Function.update_self ..
        · show (nextRecover _ l r).2.1.pc.claims ≠ some i
          rw [hclaims]
          exact (Option.some_ne_none i).symm

end

/-! ## §4. Both together. -/

section

variable [DecidableEq Ctx] {C : Contexts Ctx} {c₀ c : LeaseConfig Ctx} {owner scanner : Ctx}
  {lease : LocalRuntimeLease}

/-- The owner word that the owner's slot shows while it is owned. -/
def shownOwnerId (c : LeaseConfig Ctx) (scanner : Ctx) (lease : LocalRuntimeLease) : Int :=
  if (c.threads scanner).pc.claims = some lease.slotIndex then -lease.ownerId else lease.ownerId

/-- The owner and the scan are where they can be, and a claim lies on an owned slot. -/
structure Invisible (c : LeaseConfig Ctx) (owner scanner : Ctx) (lease : LocalRuntimeLease) :
    Prop where
  place : OwnerAt lease.ownerId lease.slotIndex (shownOwnerId c scanner lease)
    (c.shared.slots lease.slotIndex) (c.threads owner)
  scan : ScannerAt lease.ownerId lease.slotIndex (c.threads scanner).pc
  claimed : (c.threads scanner).pc.claims = some lease.slotIndex →
    Lease.owner c lease.slotIndex ≠ 0

omit [DecidableEq Ctx] in
theorem Invisible.ownerWord (h : Invisible c owner scanner lease) :
    Lease.owner c lease.slotIndex = lease.ownerId ∨ Lease.owner c lease.slotIndex = -lease.ownerId
      ∨ Lease.owner c lease.slotIndex = 0 := by
  have hword := h.place.ownerWord
  unfold shownOwnerId at hword
  split at hword
  · exact .inr hword
  · exact hword.imp_right .inr

omit [DecidableEq Ctx] in
theorem LiveLease.start (h : LiveLease c₀ owner scanner lease) :
    Invisible c₀ owner scanner lease := by
  have hnone : (c₀.threads scanner).pc.claims ≠ some lease.slotIndex := by
    rw [h.scan]
    exact Pc.unclaimed rfl
  obtain ⟨n, hn⟩ : ∃ n, lease.handleCount = n + 1 := ⟨lease.handleCount - 1, by
    have hhandles := h.handles
    omega⟩
  refine ⟨.idle n h.idle ⟨?_, h.beating, ?_, ?_⟩, ?_, fun hclaims => absurd hclaims hnone⟩
  · rw [h.held, ← hn]
  · rw [shownOwnerId, if_neg hnone]
    exact h.ownerWord
  · have hcount := h.countWord
    rw [hn] at hcount
    exact hcount
  · rw [h.scan]
    exact .idle

/-- A step of the owner. -/
theorem Invisible.owner_step (h : Invisible c owner scanner lease) (hne : scanner ≠ owner)
    {a : Act} {s' : Shared} {l' : Local} (hok : Aborting owner scanner lease c (.thread owner a))
    (hout : OutOfWindow owner scanner lease c (.thread owner a))
    (hr : choose (C.params owner) a.choice c.shared (c.threads owner) = some (s', l', a.outcome)) :
    Invisible (c.put owner s' l') owner scanner lease := by
  have hscanner : (c.put owner s' l').threads scanner = c.threads scanner :=
    Config.put_threads_ne c hne s' l'
  simp only [Aborting, if_true] at hok
  by_cases hclaimed : (c.threads scanner).pc.claims = some lease.slotIndex
  · -- the owner's step does not look at the owner word, and does not clear it
    have hminds := fun hstep => hout rfl hstep hclaimed
    have hnext := h.place.step (.inr hminds) hok.1 hok.2 hr
    refine ⟨?_, by rw [hscanner]; exact h.scan, fun _ => ?_⟩
    · rw [shownOwnerId, hscanner, Config.put_threads_self]
      exact hnext.place
    · have hkept : (c.threads owner).pc ≠ .release .clearOwnerId := by
        intro hclears
        have hbusy : (c.threads owner).pc ≠ .idle := by simp [hclears]
        have hfalse := hminds (choose_of_busy hbusy hr).1
        rw [hclears] at hfalse
        cases hfalse
      exact fun hzero => h.claimed hclaimed ((hnext.ownerWord hkept).symm.trans hzero)
  · have hword : shownOwnerId c scanner lease = lease.ownerId := if_neg hclaimed
    have hnext := h.place.step (.inl hword) hok.1 hok.2 hr
    refine ⟨?_, by rw [hscanner]; exact h.scan, fun hclaims => ?_⟩
    · rw [shownOwnerId, hscanner, Config.put_threads_self]
      exact hnext.place
    · rw [hscanner] at hclaims
      exact absurd hclaims hclaimed

/-- A step of the scan. -/
theorem Invisible.scanner_step (h : Invisible c owner scanner lease) (hne : scanner ≠ owner)
    (hpos : 0 < lease.ownerId) {a : Act} {s' : Shared} {l' : Local}
    (hok : Aborting owner scanner lease c (.thread scanner a))
    (hr : choose (C.params scanner) a.choice c.shared (c.threads scanner)
      = some (s', l', a.outcome)) :
    Invisible (c.put scanner s' l') owner scanner lease := by
  have howner : (c.put scanner s' l').threads owner = c.threads owner :=
    Config.put_threads_ne c hne.symm s' l'
  have hscanner : (c.put scanner s' l').threads scanner = l' := Config.put_threads_self ..
  simp only [Aborting, if_neg hne] at hok
  obtain ⟨-, hchoice, hchanged⟩ := hok
  -- what one step of the scan does to the slot, whether the scan begins or goes on
  have hnext : ScanNext lease.ownerId lease.slotIndex c.shared (c.threads scanner).pc
      (s', l', a.outcome) := by
    by_cases hidle : (c.threads scanner).pc = .idle
    · have hbegins : a.choice = .recover := by
        simp only [List.mem_cons, List.not_mem_nil, or_false] at hchoice
        refine hchoice.resolve_right fun hstep => ?_
        simp only [choose, hstep, if_true, if_pos hidle] at hr
        cases hr
      simp only [choose, hbegins, reduceCtorEq, if_false, hidle, ne_eq, not_true] at hr
      obtain ⟨rfl, rfl, -⟩ := by simpa using hr
      refine .unclaimed (by rw [hidle]; exact Pc.unclaimed rfl) rfl (Pc.unclaimed rfl) ?_
      by_cases hslot : (0 : SlotIndex) = lease.slotIndex
      · exact .arrives ⟨.client, 0, 0, 0⟩ rfl hslot
      · exact .elsewhere ⟨.client, 0, 0, 0⟩ _ rfl hslot
    · obtain ⟨hstep, hrun⟩ := choose_of_busy hidle hr
      rw [hrun]
      exact h.scan.run hpos h.ownerWord (hchanged hstep)
  cases hnext with
  | passes hslots hclaims hplace =>
      refine ⟨?_, by rw [hscanner]; exact hplace, fun hclaimed => ?_⟩
      · have hword : shownOwnerId (c.put scanner s' l') scanner lease
            = shownOwnerId c scanner lease := by
          unfold shownOwnerId
          rw [hscanner]
          simp only [hclaims]
        rw [hword, howner]
        show OwnerAt _ _ _ (s'.slots lease.slotIndex) _
        rw [hslots]
        exact h.place
      · rw [hscanner] at hclaimed
        show (s'.slots lease.slotIndex).ownerId ≠ 0
        rw [hslots]
        exact h.claimed (hclaims.mp hclaimed)
  | claims hid hslots hclaims hplace =>
      refine ⟨?_, by rw [hscanner]; exact hplace, fun _ => ?_⟩
      · rw [shownOwnerId, hscanner, if_pos hclaims, howner]
        show OwnerAt _ _ _ (s'.slots lease.slotIndex) _
        rw [hslots]
        exact h.place.reword (by rw [hid]; omega) _
      · show (s'.slots lease.slotIndex).ownerId ≠ 0
        rw [hslots]
        show -lease.ownerId ≠ 0
        omega
  | handsBack hclaimed hslots hclaims hplace =>
      refine ⟨?_, by rw [hscanner]; exact hplace, fun hafter => ?_⟩
      · rw [shownOwnerId, hscanner, if_neg hclaims, howner]
        show OwnerAt _ _ _ (s'.slots lease.slotIndex) _
        rw [hslots]
        exact h.place.reword (h.claimed hclaimed) _
      · rw [hscanner] at hafter
        exact absurd hafter hclaims

/-- **The run**: an aborted recovery leaves no trace in what the owner and its slot
have of each other. -/
theorem Invisible.reach (hstart : LiveLease c₀ owner scanner lease)
    (h : Reach (C.machineAfter c₀).system (fun c label =>
      Aborting owner scanner lease c label ∧ OutOfWindow owner scanner lease c label) c) :
    Invisible c owner scanner lease := by
  induction h with
  | @init c hc =>
      obtain ⟨hshared, hthreads⟩ := hc
      have hsame : c = c₀ := by
        cases c
        cases c₀
        cases hshared
        cases hthreads
        rfl
      rw [hsame]
      exact hstart.start
  | step _ hok hn ih =>
      cases hn with
      | @thread t a s' l' hact =>
          by_cases ht : t = owner
          · subst ht
            exact ih.owner_step hstart.distinct hok.1 hok.2 hact
          · have hscan : t = scanner := by
              have hother := hok.1
              simp only [Aborting, if_neg ht] at hother
              exact hother.1
            subst hscan
            exact ih.scanner_step hstart.distinct hstart.owner_pos hok.1 hact
      | env hmoves =>
          obtain ⟨timeMs, -, rfl⟩ := hmoves
          exact ⟨ih.place, ih.scan, ih.claimed⟩

/-- **An aborted recovery is invisible to the live owner**, if the owner takes no step
that minds the claim while it is in place. -/
theorem aborted_recovery_invisible (C : Contexts Ctx) (hstart : LiveLease c₀ owner scanner lease)
    (h : Reach (C.machineAfter c₀).system (fun c label =>
      Aborting owner scanner lease c label ∧ OutOfWindow owner scanner lease c label) c)
    (howner : (c.threads owner).pc = .idle) (hscan : (c.threads scanner).pc = .idle) :
    AsOwnerLeft c owner lease := by
  have hinv := Invisible.reach hstart h
  have hword : shownOwnerId c scanner lease = lease.ownerId := by
    unfold shownOwnerId
    rw [hscan]
    exact if_neg (Pc.unclaimed rfl)
  have hat := hinv.place
  rw [hword] at hat
  cases hat with
  | idle n _ hholds =>
      exact .inl ⟨n + 1, Nat.succ_le_succ (Nat.zero_le n), hholds.lease, hholds.ownerWord,
        hholds.countWord, hholds.beating⟩
  | released _ hlease hcleared => exact .inr ⟨hlease, hcleared⟩
  | beating _ _ _ hpc _ | clearing hpc _ | clearingHandleCount hpc _ _
  | clearingHeartbeat hpc _ _ _ =>
      rw [howner] at hpc
      cases hpc
  | retaining _ hpc _ => rcases hpc with hpc | hpc <;> rw [howner] at hpc <;> cases hpc
  | releasing _ hpc _ => rcases hpc with hpc | hpc | hpc <;> rw [howner] at hpc <;> cases hpc
  | reducing _ _ hpc _ => rcases hpc with hpc | ⟨_, hpc⟩ <;> rw [howner] at hpc <;> cases hpc

end

/-! ## §5. Executed runs. -/

theorem next_after [DecidableEq Ctx] {C : Contexts Ctx} (c₀ : LeaseConfig Ctx)
    {c c' : LeaseConfig Ctx} {label : ThreadLabel Ctx Act} (h : C.system.next c label c') :
    (C.machineAfter c₀).system.next c label c' := by
  cases h with
  | thread hact => exact .thread hact
  | env hmoves => exact .env hmoves

section

variable {n : Nat} (owner scanner : Fin n) (lease : LocalRuntimeLease) (c : LeaseConfig (Fin n))

instance decidableAborting (label : ThreadLabel (Fin n) Act) :
    Decidable (Aborting owner scanner lease c label) :=
  match label with
  | .thread t a =>
      inferInstanceAs (Decidable (if t = owner then
          (a.choice = .retain → (c.threads owner).lease ≠ none)
            ∧ a.choice ∈ [.retain, .release, .beat, .step]
        else
          t = scanner ∧ a.choice ∈ [.recover, .step]
            ∧ (a.choice = .step → ∀ x, (c.threads scanner).pc.rechecks = some x →
              x.1 = lease.slotIndex → heartbeat c.shared x.1 ≠ x.2)))
  | .env => isTrue trivial

instance decidableOutOfWindow (label : ThreadLabel (Fin n) Act) :
    Decidable (OutOfWindow owner scanner lease c label) :=
  match label with
  | .thread t a =>
      inferInstanceAs (Decidable (t = owner → a.choice = .step →
        (c.threads scanner).pc.claims = some lease.slotIndex →
          (c.threads owner).pc.mindsClaim = false))
  | .env => isTrue trivial

end

/-- Context 0 has one handle on slot 0 and has not beaten for 9 ms. -/
def lateStart : LeaseConfig (Fin 2) :=
  ⟨⟨1, 0, fun i => if i.val = 0 then ⟨1, 1, 1⟩ else ⟨0, 0, 0⟩, fun _ _ => 0, 10⟩,
    fun t => ⟨.idle, if t.val = 0 then some ⟨1, 1, 0⟩ else none, t.val = 0, 1, true⟩⟩

theorem lateStart_live : LiveLease lateStart 0 1 ⟨1, 1, 0⟩ where
  distinct := by decide
  scan := rfl
  idle := rfl
  held := rfl
  beating := rfl
  owner_pos := by decide
  handles := by decide
  ownerWord := rfl
  countWord := rfl

/-- What the commands reach from there. -/
theorem lateStart_runs (ok : LeaseConfig (Fin 2) → ThreadLabel (Fin 2) Act → Prop)
    [∀ c label, Decidable (ok c label)] (ks : List (Cmd (Fin 2))) (q : LeaseConfig (Fin 2) → Bool)
    (hrun : (runCommands (exec twoContexts ok) lateStart ks).any q = true) :
    ∃ c, Reach (twoContexts.machineAfter lateStart).system ok c ∧ q c = true := by
  have hstart : Reach (twoContexts.machineAfter lateStart).system ok lateStart := .init ⟨rfl, rfl⟩
  refine hstart.exists_of_commands (fun c k c' h => ?_) ks q hrun
  obtain ⟨label, hok, hnext⟩ := exec_next twoContexts ok c k c' h
  exact ⟨label, hok, next_after lateStart hnext⟩

/-- The owner retains a second handle while the slot is claimed, and releases it
after the hand-back. -/
theorem aborted_recovery_invisible_two :
    ∃ c, Reach (twoContexts.machineAfter lateStart).system (fun c label =>
        Aborting 0 1 ⟨1, 1, 0⟩ c label ∧ OutOfWindow 0 1 ⟨1, 1, 0⟩ c label) c
      ∧ AsOwnerLeft c 0 ⟨1, 1, 0⟩ := by
  obtain ⟨c, hc, hidle⟩ := lateStart_runs (fun c label =>
      Aborting 0 1 ⟨1, 1, 0⟩ c label ∧ OutOfWindow 0 1 ⟨1, 1, 0⟩ c label)
    (call 1 .recover 3 ++ call 0 .beat 3 ++ .context 1 .step :: call 0 .retain 3
      ++ List.replicate 33 (.context 1 .step) ++ call 0 .release 8)
    (fun c => decide ((c.threads 0).pc = .idle ∧ (c.threads 1).pc = .idle)) (by decide)
  obtain ⟨howner, hscan⟩ := of_decide_eq_true hidle
  exact ⟨c, hc, aborted_recovery_invisible twoContexts lateStart_live hc howner hscan⟩

/-- **An aborted recovery costs a live owner its handle count, its timer, or its
release.**  Each run is one scan that claims slot 0 and hands it back.  In the first the
owner's last release falls between the two and is skipped: the slot keeps the handle.
In the second its timer fires there and stops, with a handle left.  In the third its
last release has already compared the owner word: the hand-back puts the id into the
slot that has been cleared. -/
theorem aborted_recovery_is_seen :
    (∃ c, Reach (twoContexts.machineAfter lateStart).system (Aborting 0 1 ⟨1, 1, 0⟩) c
      ∧ (c.threads 0).pc = .idle ∧ (c.threads 1).pc = .idle ∧ ¬AsOwnerLeft c 0 ⟨1, 1, 0⟩
      ∧ (c.threads 0).lease = none ∧ owner c 0 = 1 ∧ count c 0 = 1)
    ∧ (∃ c, Reach (twoContexts.machineAfter lateStart).system (Aborting 0 1 ⟨1, 1, 0⟩) c
      ∧ (c.threads 0).pc = .idle ∧ (c.threads 1).pc = .idle ∧ ¬AsOwnerLeft c 0 ⟨1, 1, 0⟩
      ∧ (c.threads 0).lease = some ⟨1, 1, 0⟩ ∧ (c.threads 0).beating = false)
    ∧ (∃ c, Reach (twoContexts.machineAfter lateStart).system (Aborting 0 1 ⟨1, 1, 0⟩) c
      ∧ (c.threads 0).pc = .idle ∧ (c.threads 1).pc = .idle ∧ ¬AsOwnerLeft c 0 ⟨1, 1, 0⟩
      ∧ (c.threads 0).lease = none ∧ c.shared.slots 0 = ⟨1, 0, 0⟩) := by
  refine ⟨?_, ?_, ?_⟩
  · obtain ⟨c, hc, h⟩ := lateStart_runs (Aborting 0 1 ⟨1, 1, 0⟩)
      (call 1 .recover 3 ++ call 0 .beat 3 ++ .context 1 .step :: call 0 .release 1
        ++ List.replicate 33 (.context 1 .step))
      (fun c => decide ((c.threads 0).pc = .idle ∧ (c.threads 1).pc = .idle
        ∧ (c.threads 0).lease = none ∧ owner c 0 = 1 ∧ count c 0 = 1)) (by decide)
    obtain ⟨howner, hscan, hlease, hword, hcount⟩ := of_decide_eq_true h
    refine ⟨c, hc, howner, hscan, ?_, hlease, hword, hcount⟩
    rintro (⟨n, -, hheld, -⟩ | ⟨-, hcleared⟩)
    · rw [hlease] at hheld
      cases hheld
    · rw [Lease.owner, hcleared] at hword
      cases hword
  · obtain ⟨c, hc, h⟩ := lateStart_runs (Aborting 0 1 ⟨1, 1, 0⟩)
      (call 1 .recover 3 ++ call 0 .beat 3 ++ .context 1 .step :: call 0 .beat 1
        ++ List.replicate 33 (.context 1 .step))
      (fun c => decide ((c.threads 0).pc = .idle ∧ (c.threads 1).pc = .idle
        ∧ (c.threads 0).lease = some ⟨1, 1, 0⟩ ∧ (c.threads 0).beating = false)) (by decide)
    obtain ⟨howner, hscan, hlease, hstopped⟩ := of_decide_eq_true h
    refine ⟨c, hc, howner, hscan, ?_, hlease, hstopped⟩
    rintro (⟨n, -, -, -, -, hbeating⟩ | ⟨hnone, -⟩)
    · rw [hstopped] at hbeating
      cases hbeating
    · rw [hlease] at hnone
      cases hnone
  · obtain ⟨c, hc, h⟩ := lateStart_runs (Aborting 0 1 ⟨1, 1, 0⟩)
      (call 1 .recover 3 ++ call 0 .release 5 ++ .context 1 .step
        :: List.replicate 3 (.context 0 .step) ++ List.replicate 33 (.context 1 .step))
      (fun c => decide ((c.threads 0).pc = .idle ∧ (c.threads 1).pc = .idle
        ∧ (c.threads 0).lease = none ∧ c.shared.slots 0 = ⟨1, 0, 0⟩)) (by decide)
    obtain ⟨howner, hscan, hlease, hslot⟩ := of_decide_eq_true h
    refine ⟨c, hc, howner, hscan, ?_, hlease, hslot⟩
    rintro (⟨n, -, hheld, -⟩ | ⟨-, hcleared⟩)
    · rw [hlease] at hheld
      cases hheld
    · rw [hslot] at hcleared
      cases hcleared

end MemoryWriteAhead.Lease
