/-
  MemoryWriteAhead.Lease.Race
  ───────────────────────────
  **EVERY STEP OF THE RACE KEEPS THE INVARIANT.**

  One lemma a routine of the runtime: the calls that begin, the heartbeat, the
  release, `reduceOpenHandleCount` for a release and for a recovery, the scan of
  `recoverAbandonedRuntimeOwnerLeases` and the search of
  `recoverTerminatedMemoryWriteAheadRuntimeOwner`.

    • `RaceInv.step` — what one step preserves,
    • `dead_owners_reclaimed_once` — what a whole run preserves, read off at its end.
-/
import Mathlib
import MemoryWriteAhead.Lease.Reclaim

namespace MemoryWriteAhead.Lease

open Transition

variable {Ctx : Type} {c₀ c : LeaseConfig Ctx} {r r' : Tally Ctx} {t : Ctx} {i : SlotIndex}

/-! ## §1. What the words of a slot tell. -/

/-- A held slot's owner word is the negated owner id or zero. -/
theorem HeldWords.owner_nonpos {w₀ w : Slot} {account : Int} {pc : Pc}
    (h : HeldWords w₀ w account pc) (hpos : 0 < w₀.ownerId) : w.ownerId ≤ 0 := by
  have hneg (hw : w = { w₀ with ownerId := -w₀.ownerId }) : w.ownerId ≤ 0 := by
    rw [hw]
    show -w₀.ownerId ≤ 0
    omega
  have hzero (hw : w.ownerId = 0) : w.ownerId ≤ 0 := by omega
  unfold HeldWords at h
  split at h
  · exact hneg h.2.1
  · exact hneg h.1
  · exact hneg h.2.2.1
  · exact hneg h.2.2.2.1
  · exact hneg h.2.1
  · exact hzero (by rw [h.2.1])
  · exact hzero (by rw [h.2.1])
  · exact hzero (by rw [h.2.1])
  · exact h.elim

/-- Only the last store of a recovery takes the heartbeat away. -/
theorem HeldWords.heartbeat {w₀ w : Slot} {account : Int} {pc : Pc}
    (h : HeldWords w₀ w account pc) : w.heartbeatMs = w₀.heartbeatMs ∨ w.heartbeatMs = 0 := by
  unfold HeldWords at h
  split at h
  · exact .inl (by rw [h.2.1])
  · exact .inl (by rw [h.1])
  · exact .inl (by rw [h.2.2.1])
  · exact .inl (by rw [h.2.2.2.1])
  · exact .inl (by rw [h.2.1])
  · exact .inl (by rw [h.2.1])
  · exact .inl (by rw [h.2.1])
  · exact .inr (by rw [h.2.1])
  · exact h.elim

/-- A positive owner word is the one of the start. -/
theorem SlotInv.owner_of_pos (h : SlotInv c₀ c r i) (hpos : 0 < owner c i) :
    owner c i = owner c₀ i := by
  cases h with
  | live t lease _ _ _ howner _ _ _ _ => exact howner
  | untouched _ hwords _ _ _ => rw [owner, hwords]
  | held t _ hpos₀ _ _ hwords _ => exact absurd hpos (not_lt.mpr (hwords.owner_nonpos hpos₀))
  | reclaimed t k _ _ hwords _ _ _ _ _ =>
      rw [owner, hwords] at hpos
      exact absurd hpos (by decide)

/-- The heartbeat word of a dead owner is the last one, or cleared. -/
theorem SlotInv.heartbeat_dead (h : SlotInv c₀ c r i) (hdead : ¬LiveSlot c₀ i) :
    heartbeat c.shared i = heartbeat c₀.shared i ∨ heartbeat c.shared i = 0 := by
  cases h with
  | live t lease hlive _ _ _ _ _ _ _ => exact absurd hlive hdead
  | untouched _ hwords _ _ _ => exact .inl (by rw [Lease.heartbeat, hwords])
  | held t _ _ _ _ hwords _ => exact hwords.heartbeat
  | reclaimed t k _ _ hwords _ _ _ _ _ => exact .inr (by rw [Lease.heartbeat, hwords])

/-- No account exceeds the open counter. -/
theorem RaceInv.account_le_open (hs : Scenario c₀) (h : RaceInv c₀ c r) (i : SlotIndex) :
    r.account i ≤ c.shared.openHandleCount := by
  rw [h.open_eq]
  exact Finset.single_le_sum (f := r.account)
    (fun j _ => (h.slot j).account_nonneg hs h.lease) (Finset.mem_univ i)

/-- The slot of a dead owner is nobody's. -/
theorem not_liveSlot (hs : Scenario c₀) {ownerId : Int} (hdead : ¬LiveOwner c₀ ownerId)
    (howner : owner c₀ i = ownerId) : ¬LiveSlot c₀ i := by
  rintro ⟨t, lease, hlease, hslot⟩
  refine hdead ⟨t, lease, hlease, ?_⟩
  rw [← (hs.lease t lease hlease).1, hslot, howner]

/-! ## §2. The record of a step. -/

@[simp] theorem Tally.credit_zero (r : Tally Ctx) (i : SlotIndex) : r.credit i 0 = r := by
  simp [Tally.credit]

variable [DecidableEq Ctx]

/-- The record after a step that returns nothing of a recovery. -/
theorem Tally.ends_of_ne {l : Local} {o : Option Outcome} (h : ∀ n, o ≠ some (.recovered n)) :
    r.ends t l o = r := by
  unfold Tally.ends
  split
  next n => exact absurd rfl (h n)
  next => rfl

/-- The invariant after the step `st` of context `t`'s running call. -/
def Keeps (c₀ c : LeaseConfig Ctx) (r : Tally Ctx) (t : Ctx) (st : Step) : Prop :=
  RaceInv c₀ (c.put t st.1 st.2.1)
    ((r.moves t c.shared (c.threads t)).ends t (c.threads t) st.2.2)

/-! ## §3. The calls that begin. -/

variable {C : Contexts Ctx} {s' : Shared} {l' : Local} {o : Option Outcome}

/-- **A call begins.** -/
theorem RaceInv.callBegins (hs : Scenario c₀) (h : RaceInv c₀ c r) {choice : Choice}
    (hne : choice ≠ .step) (hok : InRace C.staleMs c₀ c (.thread t ⟨choice, o⟩))
    (hstep : choose (C.params t) choice c.shared (c.threads t) = some (s', l', o)) :
    RaceInv c₀ (c.put t s' l') (r.note c (.thread t ⟨choice, o⟩)) := by
  have hidle : (c.threads t).pc = .idle := by
    by_contra hbusy
    simp [choose, hne, hbusy] at hstep
  have hnote : r.note c (.thread t ⟨choice, o⟩)
      = (r.begins t choice).ends t (c.threads t) o := by
    simp [Tally.note, Tally.moves, hidle]
  have hcall : CallInv r t .idle := hidle ▸ h.call t
  rw [hnote]
  simp only [choose, if_neg hne, hidle, ne_eq, not_true_eq_false, if_false] at hstep
  cases choice with
  | step => exact absurd rfl hne
  | reset => exact hok.elim
  | retain =>
      cases hlease : (c.threads t).lease with
      | none => exact absurd hlease hok
      | some lease =>
          simp only [hlease, Option.some.injEq, Prod.mk.injEq] at hstep
          obtain ⟨rfl, rfl, rfl⟩ := hstep
          refine h.ownWork hs hlease ⟨rfl, rfl⟩ (by omega) (fun _ _ => rfl) rfl ?_ ?_ ?_ rfl ?_ rfl
            ?_ ?_
          · rw [hidle]
            simp [Pc.slotDelta]
          · simp [Tally.begins, Tally.ends]
          · rw [hidle]
            simp [Pc.openDelta]
          · rw [hidle]
            rfl
          · rw [hidle]
            rfl
          · simp [PcInv]
  | release =>
      obtain ⟨lease, hlease, htwo⟩ := hok
      simp only [hlease, Option.some.injEq, Prod.mk.injEq] at hstep
      obtain ⟨rfl, rfl, rfl⟩ := hstep
      refine h.ownWork hs hlease ⟨rfl, rfl⟩ (by omega) (fun _ _ => rfl) rfl ?_ ?_ ?_ rfl ?_ rfl
        ?_ ?_
      · rw [hidle]
        simp only [Pc.slotDelta, count]
        omega
      · simp [Tally.begins, Tally.ends]
      · rw [hidle]
        simp only [Pc.openDelta]
        omega
      · rw [hidle]
        rfl
      · rw [hidle]
        rfl
      · simp [PcInv]
  | beat =>
      cases hlease : (c.threads t).lease with
      | none => simp [hlease] at hstep
      | some lease =>
          simp only [hlease] at hstep
          split at hstep
          next =>
            simp only [Option.some.injEq, Prod.mk.injEq] at hstep
            obtain ⟨rfl, rfl, rfl⟩ := hstep
            refine h.goes ⟨rfl, rfl, rfl⟩ ?_ rfl ?_ ?_ ?_ ?_
            · rw [hidle]
              rfl
            · rw [hidle]
              rfl
            · rw [hidle]
              rfl
            · rw [hidle]
              rfl
            · simp [PcInv, Local.goto, hlease]
          next => cases hstep
  | recover =>
      simp only [Option.some.injEq, Prod.mk.injEq] at hstep
      obtain ⟨rfl, rfl, rfl⟩ := hstep
      refine h.quiet ⟨rfl, rfl, rfl⟩ rfl rfl rfl (by rw [hidle]; rfl) rfl
        (.goto (by rw [hidle]; rfl) (by rw [hidle]; rfl)) rfl (h.lease t)
        (hcall.begins (.inl rfl) rfl) (fun u hu => ⟨by simp [Tally.ends, Tally.begins, hu], rfl⟩) h.finished
  | recoverTerminated ownerId =>
      simp only at hstep
      split at hstep
      next hnonpos =>
        simp only [Option.some.injEq, Prod.mk.injEq] at hstep
        obtain ⟨rfl, rfl, rfl⟩ := hstep
        have hbegun : CallInv (r.begins t (.recoverTerminated ownerId)) t
            (.terminatedLoad ownerId 0) := hcall.begins (.inr ⟨ownerId, rfl⟩) rfl
        have hreturned := hbegun.ends (l := c.threads t) rfl
        refine h.quiet ⟨rfl, rfl, rfl⟩ rfl rfl rfl (by rw [hidle]; rfl) (by rw [hidle]; rfl)
          (fun lease hl => ⟨lease, hl, rfl, rfl, rfl⟩) (h.pc t) (h.lease t) (hidle ▸ hreturned)
          (fun u hu => ⟨by simp [Tally.ends, Tally.begins, hu], ?_⟩) (fun i hpos hf => h.finished i hpos ?_)
        · simp [Tally.ends, Tally.begins, hu]
        · simpa [Tally.ends, Tally.begins, hidle, Pc.terminating] using hf
      next hpos =>
        simp only [Option.some.injEq, Prod.mk.injEq] at hstep
        obtain ⟨rfl, rfl, rfl⟩ := hstep
        refine h.quiet ⟨rfl, rfl, rfl⟩ rfl rfl rfl (by rw [hidle]; rfl) rfl
          (.goto (by rw [hidle]; rfl) (by rw [hidle]; rfl)) ?_ (h.lease t)
          (hcall.begins (.inr ⟨ownerId, rfl⟩) rfl) (fun u hu => ⟨by simp [Tally.ends, Tally.begins, hu], rfl⟩)
          h.finished
        -- no slot has been looked at
        exact ⟨by omega, hok, fun j hj _ => absurd hj (by simp)⟩

/-! ## §4. A living owner's calls go on. -/

/-- A lease that keeps a handle outlives the release. -/
theorem finishRelease_goto {l : Local} {lease : LocalRuntimeLease} (hlease : l.lease = some lease)
    (hpos : 1 ≤ lease.handleCount) : finishRelease l = l.goto .idle := by
  unfold finishRelease Local.goto
  rw [hlease]
  simp only [Option.bind_some]
  rw [if_neg (by omega)]

/-- **The heartbeat.** -/
theorem RaceInv.beatKeeps (hs : Scenario c₀) (h : RaceInv c₀ c r) {lease : LocalRuntimeLease}
    {caller : BeatCaller} {pc : BeatPc} (hlease : (c.threads t).lease = some lease)
    (hpc : (c.threads t).pc = .beat caller pc) :
    Keeps c₀ c r t (beatStep c.shared (c.threads t) lease caller pc) := by
  have hpos := (h.ownSlot hs hlease).positive
  have hmoves : r.moves t c.shared (c.threads t) = r := by simp [Tally.moves, hpc]
  -- whoever waits, the context is idle again and has returned nothing of a recovery
  have hends (s : Shared) (updated : Bool)
      (hslots : ∀ j, j ≠ lease.slotIndex → s.slots j = c.shared.slots j)
      (howner : (s.slots lease.slotIndex).ownerId = owner c lease.slotIndex)
      (hcount : (s.slots lease.slotIndex).handleCount = count c lease.slotIndex)
      (hopen : s.openHandleCount = c.shared.openHandleCount)
      (hrecovered : s.recoveredAbandonedHandleCount = c.shared.recoveredAbandonedHandleCount) :
      Keeps c₀ c r t (endBeat s (c.threads t) lease updated caller) := by
    have hpart (l' : Local) (o : Option Outcome) (hl' : l'.lease = some lease ∧ l'.pc = .idle)
        (ho : ∀ n, o ≠ some (.recovered n)) : Keeps c₀ c r t (s, l', o) := by
      unfold Keeps
      rw [hmoves, Tally.ends_of_ne ho]
      refine h.ownWork hs hlease hl' hpos hslots howner ?_ ?_ ?_
        hrecovered ?_ rfl ?_ ?_
      · rw [hcount, hpc]
        simp [Pc.slotDelta]
      · rw [hopen]
        simp
      · rw [hopen, hpc]
        simp [Pc.openDelta]
      · rw [hpc]
        rfl
      · rw [hpc]
        rfl
      · simp [PcInv, hl'.2]
    cases caller with
    | retain => exact hpart _ _ ⟨hlease, rfl⟩ (fun _ => by simp)
    | release =>
        show Keeps c₀ c r t (s, finishRelease (c.threads t), some .released)
        rw [finishRelease_goto hlease hpos]
        exact hpart _ _ ⟨hlease, rfl⟩ (fun _ => by simp)
    | timer => exact hpart _ _ ⟨hlease, rfl⟩ (fun _ => by simp)
  have hgoes (pc' : BeatPc) :
      Keeps c₀ c r t (c.shared, (c.threads t).goto (.beat caller pc'), none) := by
    unfold Keeps
    rw [hmoves]
    refine h.goes ⟨rfl, rfl, rfl⟩ ?_ rfl ?_ ?_ ?_ ?_
    · rw [hpc]
      rfl
    · rw [hpc]
      rfl
    · rw [hpc]
      rfl
    · rw [hpc]
      rfl
    · simp [PcInv, Local.goto, hlease]
  cases pc with
  | loadOwnerId =>
      simp only [beatStep]
      split
      next => exact hends c.shared false (fun _ _ => rfl) rfl rfl rfl rfl
      next => exact hgoes _
  | readClock => exact hgoes _
  | storeHeartbeat nowMs =>
      refine hends _ true (fun j hj => ?_) ?_ ?_ rfl rfl
      · simp [Shared.setHeartbeatMs, hj]
      · simp [Shared.setHeartbeatMs]
      · simp [Shared.setHeartbeatMs]

/-- **The retain** counts its handle, first in the open counter and then in the slot. -/
theorem RaceInv.retainKeeps (hs : Scenario c₀) (h : RaceInv c₀ c r) {lease : LocalRuntimeLease}
    {p : Params} (hlease : (c.threads t).lease = some lease)
    (hpc : (c.threads t).pc = .retainAddOpen ∨ (c.threads t).pc = .retainAddHandle) :
    Keeps c₀ c r t (runStep p c.shared (c.threads t)) := by
  have hpos := (h.ownSlot hs hlease).positive
  rcases hpc with hpc | hpc
  · simp only [runStep, hpc, Keeps, Tally.moves, hlease, Tally.ends]
    refine h.ownWork hs hlease ⟨hlease, rfl⟩ hpos (fun _ _ => rfl) rfl
      ?_ ?_ ?_ rfl ?_ rfl ?_ ?_
    · rw [hpc]
      simp [Pc.slotDelta, Local.goto]
    · simp
    · rw [hpc]
      simp only [Pc.openDelta, Local.goto]
      omega
    · rw [hpc]
      rfl
    · rw [hpc]
      rfl
    · simp [PcInv, Local.goto, hlease]
  · simp only [runStep, hpc, Keeps, Tally.moves, hlease, Tally.ends]
    refine h.ownWork hs hlease ⟨hlease, rfl⟩ hpos (fun j hj => ?_) ?_
      ?_ ?_ ?_ rfl ?_ rfl ?_ ?_
    · simp [Shared.setHandleCount, hj]
    · simp [Shared.setHandleCount]
    · rw [hpc]
      simp only [Shared.setHandleCount, Function.update_self, Pc.slotDelta, Local.goto, count]
      omega
    · simp [Shared.setHandleCount]
    · rw [hpc]
      simp [Pc.openDelta, Shared.setHandleCount, Local.goto]
    · rw [hpc]
      rfl
    · rw [hpc]
      rfl
    · simp [PcInv, Local.goto, hlease]

/-- **The release** takes its handle off the slot; the slot keeps one. -/
theorem RaceInv.releaseKeeps (hs : Scenario c₀) (h : RaceInv c₀ c r) {lease : LocalRuntimeLease}
    {pc : ReleasePc} (hlease : (c.threads t).lease = some lease)
    (hpc : (c.threads t).pc = .release pc) :
    Keeps c₀ c r t (releaseStep c.shared (c.threads t) lease pc) := by
  have hown := h.ownSlot hs hlease
  have hpos := hown.positive
  have hmoves : r.moves t c.shared (c.threads t) = r := by simp [Tally.moves, hpc]
  have hknown := h.pc t
  unfold PcInv at hknown
  rw [hpc] at hknown
  unfold Keeps
  rw [hmoves]
  cases pc with
  | loadOwnerId =>
      simp only [releaseStep]
      rw [if_pos hown.owner_eq]
      refine h.goes ⟨rfl, rfl, rfl⟩ ?_ rfl ?_ ?_ ?_ ?_
      · rw [hpc]
        rfl
      · rw [hpc]
        rfl
      · rw [hpc]
        rfl
      · rw [hpc]
        rfl
      · simp [PcInv, Local.goto, hlease]
  | loadHandleCount =>
      have hcount := hown.count_eq
      rw [hpc] at hcount
      simp only [Pc.slotDelta, count] at hcount
      simp only [releaseStep]
      rw [if_pos (by omega)]
      refine h.goes ⟨rfl, rfl, rfl⟩ ?_ rfl ?_ ?_ ?_ ?_
      · rw [hpc]
        rfl
      · rw [hpc]
        rfl
      · rw [hpc]
        rfl
      · rw [hpc]
        rfl
      · simp only [PcInv, Local.goto, hlease]
        exact ⟨rfl, by omega⟩
  | subHandleCount n =>
      refine h.ownWork hs hlease ⟨hlease, rfl⟩ hpos (fun j hj => ?_) ?_
        ?_ ?_ ?_ rfl ?_ rfl ?_ ?_
      · simp [releaseStep, Shared.setHandleCount, hj]
      · simp [releaseStep, Shared.setHandleCount]
      · rw [hpc]
        simp only [releaseStep, Shared.setHandleCount, Function.update_self, Pc.slotDelta, Local.goto,
          count]
        omega
      · simp [releaseStep, Shared.setHandleCount, Tally.ends]
      · rw [hpc]
        simp [releaseStep, Pc.openDelta, Shared.setHandleCount, Local.goto]
      · rw [hpc]
        rfl
      · rw [hpc]
        rfl
      · simp only [releaseStep, PcInv, Local.goto, hlease]
        exact ⟨rfl, hknown.2, trivial⟩
  | clearOwnerId => exact hknown.elim
  | clearHandleCount => exact hknown.elim
  | clearHeartbeat => exact hknown.elim

/-- The loop of a release's `reduceOpenHandleCount` sees the counter positive. -/
theorem RaceInv.releaseLoops (hs : Scenario c₀) (h : RaceInv c₀ c r) {lease : LocalRuntimeLease}
    {n : Int} (hlease : (c.threads t).lease = some lease) (hn : 2 ≤ n)
    (hdelta : (c.threads t).pc.slotDelta = 0 ∧ (c.threads t).pc.openDelta = 1)
    (hold : (c.threads t).pc.holds = none) (hsoFar : (c.threads t).pc.soFar = none) :
    RaceInv c₀
      (c.put t
        (reduceLoop c.shared (c.threads t) (.release n) 1 c.shared.openHandleCount).1
        (reduceLoop c.shared (c.threads t) (.release n) 1 c.shared.openHandleCount).2.1)
      (r.ends t (c.threads t)
        (reduceLoop c.shared (c.threads t) (.release n) 1 c.shared.openHandleCount).2.2) := by
  have hown := h.ownSlot hs hlease
  have hpos := hown.positive
  have haccount := hown.account_eq
  have hle := h.account_le_open hs lease.slotIndex
  rw [hdelta.2] at haccount
  have hopen : c.shared.openHandleCount > 0 := by omega
  unfold reduceLoop
  rw [if_pos hopen]
  refine h.goes ⟨rfl, rfl, rfl⟩ hold rfl hsoFar.symm hdelta.1.symm hdelta.2.symm ?_
  simp only [PcInv, Local.goto, hlease]
  exact ⟨rfl, hn, trivial, hopen⟩

/-- **A release takes its handle off the open counter.** -/
theorem RaceInv.releaseReduces (hs : Scenario c₀) (h : RaceInv c₀ c r) {n m : Int} {p : Params}
    (hpc : (c.threads t).pc = .reduceLoad (.release n) m
      ∨ ∃ current, (c.threads t).pc = .reduceSwap (.release n) m current) :
    Keeps c₀ c r t (runStep p c.shared (c.threads t)) := by
  have hknown := h.pc t
  unfold PcInv at hknown
  rcases hpc with hpc | ⟨current, hpc⟩
  · rw [hpc] at hknown
    obtain ⟨hsome, hn, rfl⟩ := hknown
    obtain ⟨lease, hlease⟩ := Option.isSome_iff_exists.mp hsome
    simp only [runStep, hpc, Keeps, Tally.moves]
    exact h.releaseLoops hs hlease hn (by rw [hpc]; exact ⟨rfl, rfl⟩) (by rw [hpc]; rfl)
      (by rw [hpc]; rfl)
  · rw [hpc] at hknown
    obtain ⟨hsome, hn, rfl, hcurrent⟩ := hknown
    obtain ⟨lease, hlease⟩ := Option.isSome_iff_exists.mp hsome
    have hpos := (h.ownSlot hs hlease).positive
    simp only [runStep, hpc, Keeps, Tally.moves, hlease, reduceSwapStep]
    by_cases hsame : c.shared.openHandleCount = current
    · simp only [if_pos hsame, endReduce, hlease, afterSub]
      rw [if_neg (by omega)]
      refine h.ownWork hs hlease ⟨hlease, rfl⟩ hpos (fun _ _ => rfl) rfl
        ?_ ?_ ?_ rfl ?_ rfl ?_ ?_
      · rw [hpc]
        simp [Pc.slotDelta, Local.goto]
      · simp only [hsame, Tally.ends]
      · rw [hpc, hsame]
        simp only [Pc.openDelta, Local.goto]
        omega
      · rw [hpc]
        rfl
      · rw [hpc]
        rfl
      · simp [PcInv, Local.goto, hlease]
    · simp only [if_neg hsame]
      exact h.releaseLoops hs hlease hn (by rw [hpc]; exact ⟨rfl, rfl⟩) (by rw [hpc]; rfl)
        (by rw [hpc]; rfl)

/-! ## §5. A recovery goes on. -/

section

variable {p : Params} {rec : Recovery}

/-- A step of a recovery that holds its slot, as `Keeps` has it. -/
theorem RaceInv.holderKeeps {pc' : Pc} (h : RaceInv c₀ c r)
    (hholds : (c.threads t).pc.holds = some rec) (hholds' : pc'.holds = some rec)
    (hslots : ∀ j, j ≠ rec.slot → s'.slots j = c.shared.slots j)
    (hmoves : r.moves t c.shared (c.threads t)
      = r.credit rec.slot (s'.openHandleCount - c.shared.openHandleCount))
    (hrecovered : s'.recoveredAbandonedHandleCount = c.shared.recoveredAbandonedHandleCount)
    (hwords : HeldWords (c₀.shared.slots rec.slot) (s'.slots rec.slot)
      ((r.credit rec.slot (s'.openHandleCount - c.shared.openHandleCount)).account rec.slot) pc')
    (hsoFar : pc'.soFar = (c.threads t).pc.soFar)
    (hpc : PcInv c₀ c ((c.threads t).goto pc')) :
    Keeps c₀ c r t (s', (c.threads t).goto pc', none) := by
  unfold Keeps
  rw [Tally.ends_of_ne (by simp), hmoves]
  exact h.progress hholds hholds' hslots rfl hrecovered hwords hsoFar hpc

omit [DecidableEq Ctx] in
/-- What a recovery that holds its slot knows. -/
theorem RaceInv.holderKnows (h : RaceInv c₀ c r) (hholds : (c.threads t).pc.holds = some rec) :
    (rec.caller = .client ∨ rec.caller = .terminated) ∧ owner c₀ rec.slot = rec.ownerId := by
  have hknown := h.pc t
  unfold Pc.holds at hholds
  unfold PcInv at hknown
  split at hholds
  all_goals first
    | cases hholds; done
    | (rename_i heq
       rw [heq] at hknown
       cases hholds
       exact hknown)

/-- **`reduceOpenHandleCount` for a recovery never meets its clamp**: the open
counter holds at least the slot's handles. -/
theorem RaceInv.recoverReduces (hs : Scenario c₀) (h : RaceInv c₀ c r) {n : Int}
    (hpc : (c.threads t).pc = .reduceLoad (.recover rec) n
      ∨ ∃ current, (c.threads t).pc = .reduceSwap (.recover rec) n current) :
    Keeps c₀ c r t (runStep p c.shared (c.threads t)) := by
  have hholds : (c.threads t).pc.holds = some rec := by
    rcases hpc with hpc | ⟨current, hpc⟩ <;> (rw [hpc]; rfl)
  have hknown := h.holderKnows hholds
  have hheld := (h.slot rec.slot).heldBy ⟨rec, hholds, rfl⟩
  have hle := h.account_le_open hs rec.slot
  have hwords := hheld.words
  -- with the counter positive the loop goes to its compare-exchange
  have hloops (hn : n = (c₀.shared.slots rec.slot).handleCount ∧ 0 < n
        ∧ c.shared.slots rec.slot
          = { c₀.shared.slots rec.slot with ownerId := -(c₀.shared.slots rec.slot).ownerId }
        ∧ r.account rec.slot = (c₀.shared.slots rec.slot).handleCount)
      (hmoves : r.moves t c.shared (c.threads t) = r) :
      Keeps c₀ c r t
        (reduceLoop c.shared (c.threads t) (.recover rec) n c.shared.openHandleCount) := by
    obtain ⟨hcount, hpos, hslot, haccount⟩ := hn
    have hopen : c.shared.openHandleCount > 0 := by omega
    unfold reduceLoop
    rw [if_pos hopen]
    refine h.holderKeeps hholds rfl (fun _ _ => rfl) ?_ rfl ?_ ?_ hknown
    · rw [hmoves]
      simp
    · rw [Int.sub_self, Tally.credit_zero]
      exact ⟨hcount, hpos, hopen, hslot, haccount⟩
    · rcases hpc with hpc | ⟨current, hpc⟩ <;> (rw [hpc]; rfl)
  rcases hpc with hpc | ⟨current, hpc⟩
  · rw [hpc] at hwords
    simp only [runStep, hpc]
    exact hloops hwords (by simp [Tally.moves, hpc])
  · rw [hpc] at hwords
    obtain ⟨hcount, hpos, hcurrent, hslot, haccount⟩ := hwords
    simp only [runStep, hpc, reduceSwapStep]
    by_cases hsame : c.shared.openHandleCount = current
    · have hnext : max 0 (current - n) = current - n := by omega
      simp only [if_pos hsame, endReduce, hnext]
      refine h.holderKeeps hholds rfl (fun _ _ => rfl) ?_ rfl ?_ ?_ hknown
      · simp only [Tally.moves, hpc, hnext, hsame, if_true]
      · refine ⟨by omega, hslot, ?_⟩
        simp only [Tally.credit, Function.update_self]
        omega
      · rw [hpc]
        rfl
    · simp only [if_neg hsame]
      exact hloops ⟨hcount, hpos, hslot, haccount⟩ (by simp [Tally.moves, hpc, hsame])

/-- **The scan of `recoverAbandonedRuntimeOwnerLeases`** up to its claim. -/
theorem RaceInv.scanKeeps (h : RaceInv c₀ c r) {pc : RecoverPc}
    (hpc : (c.threads t).pc = .recover rec pc) (hnone : (Pc.recover rec pc).holds = none)
    (hfresh : ∀ heartbeatMs, pc = .readAge heartbeatMs → LiveSlot c₀ rec.slot →
      isStale p.staleMs heartbeatMs c.shared.clockMs = false) :
    Keeps c₀ c r t (recoverStep p c.shared (c.threads t) rec pc) := by
  have hknown := h.pc t
  unfold PcInv at hknown
  rw [hpc] at hknown
  have hold : (c.threads t).pc.holds = none := hpc ▸ hnone
  have hsoFar : (c.threads t).pc.soFar = some rec.recoveredHandleCount := by
    rw [hpc]
    rfl
  have hslot : (c.threads t).pc.slotDelta = 0 := by
    rw [hpc]
    rfl
  have hopen : (c.threads t).pc.openDelta = 0 := by
    rw [hpc]
    rfl
  have hmoves : r.moves t c.shared (c.threads t) = r := by
    cases pc with
    | addRecovered n => cases hnone
    | _ => simp [Tally.moves, hpc]
  have hnext (hclient : rec.caller = .client) :
      Keeps c₀ c r t (nextRecover c.shared (c.threads t) rec) := by
    unfold Keeps
    rw [hmoves]
    refine h.recoverLoops hclient hold hsoFar hslot hopen ?_
    rw [hpc]
    simp [Pc.terminating, hclient]
  have hgoes (rec' : Recovery) (pc' : RecoverPc)
      (hnone' : (Pc.recover rec' pc').holds = none)
      (hcount : rec'.recoveredHandleCount = rec.recoveredHandleCount)
      (hpc' : PcInv c₀ c ((c.threads t).goto (.recover rec' pc'))) :
      Keeps c₀ c r t (c.shared, (c.threads t).goto (.recover rec' pc'), none) := by
    unfold Keeps
    rw [hmoves]
    refine h.goes ⟨rfl, rfl, rfl⟩ hold hnone' ?_ hslot.symm hopen.symm hpc'
    rw [hsoFar, ← hcount]
    rfl
  cases pc with
  | loadOwnerId =>
      simp only [recoverStep]
      split
      next => exact hnext hknown
      next hpos =>
        have hpos : 0 < (c.shared.slots rec.slot).ownerId := by omega
        exact hgoes _ _ rfl rfl ⟨hknown, hpos, ((h.slot rec.slot).owner_of_pos hpos).symm⟩
  | loadHeartbeat =>
      obtain ⟨hclient, hpos, howner⟩ := hknown
      exact hgoes _ _ rfl rfl
        ⟨hclient, hpos, howner, fun hdead => (h.slot rec.slot).heartbeat_dead hdead⟩
  | readAge heartbeatMs =>
      obtain ⟨hclient, hpos, howner, hheartbeat⟩ := hknown
      simp only [recoverStep]
      split
      next hstale =>
        -- the slot is a dead owner's, and a cleared heartbeat has no age
        have hdead : ¬LiveSlot c₀ rec.slot := by
          intro hlive
          rw [hfresh heartbeatMs rfl hlive] at hstale
          cases hstale
        have hlast : heartbeatMs = heartbeat c₀.shared rec.slot := by
          rcases hheartbeat hdead with hlast | hzero
          · exact hlast
          · subst hzero
            simp [isStale, getMemoryWriteAheadLockAgeMs] at hstale
        exact hgoes _ _ rfl rfl ⟨hclient, hpos, howner, hdead, hlast⟩
      next => exact hnext hclient
  | claim heartbeatMs =>
      obtain ⟨hclient, hpos, howner, hdead, hlast⟩ := hknown
      simp only [recoverStep]
      split
      next hword =>
        unfold Keeps
        rw [hmoves, ← howner]
        refine h.claims hold rfl hdead (howner ▸ hpos) (hword.trans howner.symm) ?_ hslot hopen
          ⟨hlast, rfl, rfl⟩ ⟨.inl hclient, howner⟩
        rw [hpc]
        rfl
      next => exact hnext hclient
  | recheck | loadHandleCount | clearOwnerId | clearHandleCount | clearHeartbeat | addRecovered =>
      cases hnone
  | handBack => exact hknown.elim

/-- **A recovery works on the slot it holds**, up to the counting. -/
theorem RaceInv.holdsKeeps (hs : Scenario c₀) (h : RaceInv c₀ c r) {pc : RecoverPc}
    (hpc : (c.threads t).pc = .recover rec pc) (hholds : (Pc.recover rec pc).holds = some rec)
    (hbefore : ∀ n, pc ≠ .addRecovered n) :
    Keeps c₀ c r t (recoverStep p c.shared (c.threads t) rec pc) := by
  have hat : (c.threads t).pc.holds = some rec := hpc ▸ hholds
  have hknown := h.holderKnows hat
  have hheld := (h.slot rec.slot).heldBy ⟨rec, hat, rfl⟩
  have hwords := hheld.words
  rw [hpc] at hwords
  have hmoves : r.moves t c.shared (c.threads t) = r := by
    cases pc with
    | addRecovered n => exact absurd rfl (hbefore n)
    | _ => simp [Tally.moves, hpc]
  -- a step that leaves the open counter alone
  have hgoes (s' : Shared) (pc' : Pc) (hnew : pc'.holds = some rec)
      (hslots : ∀ j, j ≠ rec.slot → s'.slots j = c.shared.slots j)
      (hopen : s'.openHandleCount = c.shared.openHandleCount)
      (hrecovered : s'.recoveredAbandonedHandleCount = c.shared.recoveredAbandonedHandleCount)
      (hwords' : HeldWords (c₀.shared.slots rec.slot) (s'.slots rec.slot) (r.account rec.slot) pc')
      (hsoFar : pc'.soFar = some rec.recoveredHandleCount)
      (hpc' : PcInv c₀ c ((c.threads t).goto pc')) :
      Keeps c₀ c r t (s', (c.threads t).goto pc', none) := by
    refine h.holderKeeps hat hnew hslots ?_ hrecovered ?_ ?_ hpc'
    · rw [hmoves, hopen, Int.sub_self, Tally.credit_zero]
    · rw [hopen, Int.sub_self, Tally.credit_zero]
      exact hwords'
    · rw [hpc]
      exact hsoFar
  cases pc with
  | loadOwnerId | loadHeartbeat | readAge | claim => cases hholds
  | handBack => cases hholds
  | addRecovered n => exact absurd rfl (hbefore n)
  | recheck heartbeatMs =>
      -- a dead owner beats no more
      obtain ⟨hlast, hslot, haccount⟩ := hwords
      have hsame : (c.shared.slots rec.slot).heartbeatMs = heartbeatMs := by
        rw [hslot, hlast]
      simp only [recoverStep]
      rw [if_neg (not_not.mpr hsame)]
      exact hgoes _ _ rfl (fun _ _ => rfl) rfl rfl ⟨hslot, haccount⟩ rfl hknown
  | loadHandleCount =>
      obtain ⟨hslot, haccount⟩ := hwords
      have hcount : (c.shared.slots rec.slot).handleCount
          = (c₀.shared.slots rec.slot).handleCount := by
        rw [hslot]
      have hnonneg : 0 ≤ (c₀.shared.slots rec.slot).handleCount :=
        hs.count_nonneg rec.slot hheld.owned
      simp only [recoverStep]
      split
      next hle =>
        exact hgoes _ _ rfl (fun _ _ => rfl) rfl rfl ⟨by omega, hslot, by omega⟩ rfl hknown
      next hpos =>
        exact hgoes _ _ rfl (fun _ _ => rfl) rfl rfl ⟨hcount, by omega, hslot, haccount⟩ rfl hknown
  | clearOwnerId n =>
      obtain ⟨hn, hslot, haccount⟩ := hwords
      refine hgoes _ _ rfl (fun j hj => ?_) rfl rfl ⟨hn, ?_, haccount⟩ rfl hknown
      · simp [Shared.setOwnerId, hj]
      · simp [Shared.setOwnerId, hslot]
  | clearHandleCount n =>
      obtain ⟨hn, hslot, haccount⟩ := hwords
      refine hgoes _ _ rfl (fun j hj => ?_) rfl rfl ⟨hn, ?_, haccount⟩ rfl hknown
      · simp [Shared.setHandleCount, hj]
      · simp [Shared.setHandleCount, hslot]
  | clearHeartbeat n =>
      obtain ⟨hn, hslot, haccount⟩ := hwords
      refine hgoes _ _ rfl (fun j hj => ?_) rfl rfl ⟨hn, ?_, haccount⟩ rfl hknown
      · simp [Shared.setHeartbeatMs, hj]
      · simp [Shared.setHeartbeatMs, hslot]

/-- **A recovery counts the handles of its slot**, and goes on or returns. -/
theorem RaceInv.countKeeps (hs : Scenario c₀) (h : RaceInv c₀ c r) {n : Int}
    (hpc : (c.threads t).pc = .recover rec (.addRecovered n)) :
    Keeps c₀ c r t (recoverStep p c.shared (c.threads t) rec (.addRecovered n)) := by
  have hat : (c.threads t).pc.holds = some rec := by
    rw [hpc]
    rfl
  obtain ⟨hcaller, howner⟩ := h.holderKnows hat
  have hheld := (h.slot rec.slot).heldBy ⟨rec, hat, rfl⟩
  have hmoves : r.moves t c.shared (c.threads t) = r.counts t (r.calls t) rec.slot n := by
    simp [Tally.moves, hpc]
  have hsoFar : (c.threads t).pc.soFar = some rec.recoveredHandleCount := by
    rw [hpc]
    rfl
  have hcall (pc' : Pc) (hsoFar' : pc'.soFar = some (rec.recoveredHandleCount + n)) :
      CallInv (r.counts t (r.calls t) rec.slot n) t pc' :=
    (h.call t).counts hsoFar hsoFar' (hheld.uncounted.2 t _)
  have hothers (u : Ctx) (_ : u ≠ t) :
      (r.counts t (r.calls t) rec.slot n).calls u = r.calls u
        ∧ (r.counts t (r.calls t) rec.slot n).returned u = r.returned u :=
    ⟨rfl, rfl⟩
  -- the recovery returns
  have hreturns (s' : Shared) (m : Int) (hm : m = rec.recoveredHandleCount + n)
      (hs' : s' = { c.shared with
        recoveredAbandonedHandleCount := c.shared.recoveredAbandonedHandleCount + n }) :
      Keeps c₀ c r t (s', (c.threads t).goto .idle, some (.recovered m)) := by
    unfold Keeps
    rw [hmoves]
    have hended := (hcall (.recover { rec with
      recoveredHandleCount := rec.recoveredHandleCount + n } .loadOwnerId) rfl).ends
        (l := c.threads t) rfl
    subst hm
    refine h.reclaims hpc rfl ⟨rfl, rfl⟩ hs' ⟨rfl, rfl, rfl⟩ trivial hended
      (fun u hu => ⟨rfl, ?_⟩) (fun j hpos hf => ?_)
    · simp [Tally.ends, Tally.counts, hu]
    · -- a `recoverTerminated` that returns was about the owner of its slot
      by_cases hterminated : rec.caller = .terminated
      · by_cases hj : owner c₀ j = owner c₀ rec.slot
        · exact .inr (hs.owner_inj j rec.slot hpos hj)
        · refine .inl ?_
          rw [howner] at hj
          simpa [Tally.ends, Tally.counts, hpc, Pc.terminating, hterminated, hj] using hf
      · refine .inl ?_
        simpa [Tally.ends, Tally.counts, hpc, Pc.terminating, hterminated] using hf
  simp only [recoverStep]
  rcases hcaller with hclient | hterminated
  · simp only [hclient, nextRecover]
    split
    next j hj =>
      unfold Keeps
      rw [hmoves, Tally.ends_of_ne (by simp)]
      exact h.reclaims hpc rfl ⟨rfl, rfl⟩ rfl ⟨rfl, rfl, rfl⟩ rfl (hcall _ rfl) hothers
        (fun _ _ hf => .inl hf)
    next => exact hreturns _ _ rfl rfl
  · simp only [hterminated, endRecover]
    exact hreturns _ _ rfl rfl

/-- **The search of `recoverTerminatedMemoryWriteAheadRuntimeOwner`.** -/
theorem RaceInv.terminatedKeeps (hs : Scenario c₀) (h : RaceInv c₀ c r) {ownerId : Int}
    (hpc : (c.threads t).pc = .terminatedLoad ownerId i
      ∨ (c.threads t).pc = .terminatedClaim ownerId i) :
    Keeps c₀ c r t (runStep p c.shared (c.threads t)) := by
  have hknown := h.pc t
  unfold PcInv at hknown
  have hmoves : r.moves t c.shared (c.threads t) = r := by
    rcases hpc with hpc | hpc <;> simp [Tally.moves, hpc]
  have hold : (c.threads t).pc.holds = none := by
    rcases hpc with hpc | hpc <;> (rw [hpc]; rfl)
  have hsoFar : (c.threads t).pc.soFar = some 0 := by
    rcases hpc with hpc | hpc <;> (rw [hpc]; rfl)
  have hslot : (c.threads t).pc.slotDelta = 0 := by
    rcases hpc with hpc | hpc <;> (rw [hpc]; rfl)
  have hopen : (c.threads t).pc.openDelta = 0 := by
    rcases hpc with hpc | hpc <;> (rw [hpc]; rfl)
  have hterm : (c.threads t).pc.terminating = some ownerId := by
    rcases hpc with hpc | hpc <;> (rw [hpc]; rfl)
  have hgoes (pc' : Pc) (hnone : pc'.holds = none) (hso : pc'.soFar = some 0)
      (hd : pc'.slotDelta = 0 ∧ pc'.openDelta = 0)
      (hpc' : PcInv c₀ c ((c.threads t).goto pc')) :
      Keeps c₀ c r t (c.shared, (c.threads t).goto pc', none) := by
    unfold Keeps
    rw [hmoves]
    exact h.goes ⟨rfl, rfl, rfl⟩ hold hnone (hso.trans hsoFar.symm) (hd.1.trans hslot.symm)
      (hd.2.trans hopen.symm) hpc'
  have hreturns (htouched : ∀ j, owner c₀ j = ownerId → Touched c₀ c j) :
      Keeps c₀ c r t (c.shared, (c.threads t).goto .idle, some (.recovered 0)) := by
    unfold Keeps
    rw [hmoves]
    refine h.returns ⟨rfl, rfl, rfl⟩ hold hsoFar hslot hopen fun o ho j hj _ => ?_
    rw [hterm] at ho
    cases ho
    exact htouched j hj
  rcases hpc with hpc | hpc
  · rw [hpc] at hknown
    obtain ⟨hpos, hdead, hpassed⟩ := hknown
    simp only [runStep, hpc]
    split
    next hword =>
      refine hgoes _ rfl rfl ⟨rfl, rfl⟩ ⟨hpos, hdead, ?_⟩
      have hwordPos : 0 < owner c i := by
        show 0 < (c.shared.slots i).ownerId
        omega
      exact ((h.slot i).owner_of_pos hwordPos).symm.trans hword
    next hword =>
      -- the slot is not the owner's, or is so no longer
      have hpassed' (j : SlotIndex) (hj : j.val ≤ i.val) (howner : owner c₀ j = ownerId) :
          Touched c₀ c j := by
        rcases Nat.lt_or_eq_of_le hj with hlt | heq
        · exact hpassed j hlt howner
        · obtain rfl : j = i := Fin.ext heq
          unfold Touched
          rw [howner]
          exact hword
      split
      next j hj =>
        refine hgoes _ rfl rfl ⟨rfl, rfl⟩ ⟨hpos, hdead, fun k hk howner => hpassed' k ?_ howner⟩
        unfold nextSlot at hj
        split at hj
        next =>
          cases hj
          exact Nat.le_of_lt_succ hk
        next => cases hj
      next hlast =>
        refine hreturns fun j howner => hpassed' j ?_ howner
        unfold nextSlot at hlast
        split at hlast
        next => cases hlast
        next hge =>
          have := j.isLt
          omega
  · rw [hpc] at hknown
    obtain ⟨hpos, hdead, howner⟩ := hknown
    simp only [runStep, hpc]
    split
    next hword =>
      unfold Keeps
      rw [hmoves, ← howner]
      have hnew : (Pc.recover ⟨.terminated, i, owner c₀ i, 0⟩ .loadHandleCount).holds
          = some ⟨.terminated, i, owner c₀ i, 0⟩ := rfl
      exact h.claims hold hnew
        (not_liveSlot hs hdead howner) (howner ▸ hpos) (hword.trans howner.symm) hsoFar.symm hslot
        hopen ⟨rfl, rfl⟩ ⟨.inr rfl, rfl⟩
    next hword =>
      refine hreturns fun j hj => ?_
      obtain rfl : j = i := hs.owner_inj j i (hj ▸ hpos) (hj.trans howner.symm)
      unfold Touched
      rw [howner]
      exact hword

/-- **A running call's step.** -/
theorem RaceInv.runKeeps (hs : Scenario c₀) (h : RaceInv c₀ c r)
    (hbusy : (c.threads t).pc ≠ .idle)
    (hfresh : ∀ rec heartbeatMs, (c.threads t).pc = .recover rec (.readAge heartbeatMs) →
      LiveSlot c₀ rec.slot → isStale p.staleMs heartbeatMs c.shared.clockMs = false) :
    Keeps c₀ c r t (runStep p c.shared (c.threads t)) := by
  have hknown := h.pc t
  unfold PcInv at hknown
  cases hpc : (c.threads t).pc with
  | idle => exact absurd hpc hbusy
  | claim k pc =>
      rw [hpc] at hknown
      exact hknown.elim
  | reset pc =>
      rw [hpc] at hknown
      exact hknown.elim
  | retainAddOpen =>
      rw [hpc] at hknown
      obtain ⟨lease, hlease⟩ := Option.isSome_iff_exists.mp hknown
      exact h.retainKeeps hs hlease (.inl hpc)
  | retainAddHandle =>
      rw [hpc] at hknown
      obtain ⟨lease, hlease⟩ := Option.isSome_iff_exists.mp hknown
      exact h.retainKeeps hs hlease (.inr hpc)
  | beat caller pc =>
      rw [hpc] at hknown
      obtain ⟨lease, hlease⟩ := Option.isSome_iff_exists.mp hknown
      simp only [runStep, hpc, hlease]
      exact h.beatKeeps hs hlease hpc
  | release pc =>
      have hsome : (c.threads t).lease.isSome = true := by
        rw [hpc] at hknown
        cases pc with
        | loadOwnerId => exact hknown
        | loadHandleCount => exact hknown
        | subHandleCount n => exact hknown.1
        | clearOwnerId | clearHandleCount | clearHeartbeat => exact hknown.elim
      obtain ⟨lease, hlease⟩ := Option.isSome_iff_exists.mp hsome
      simp only [runStep, hpc, hlease]
      exact h.releaseKeeps hs hlease hpc
  | reduceLoad caller n =>
      cases caller with
      | release m => exact h.releaseReduces hs (.inl hpc)
      | recover rec => exact h.recoverReduces hs (.inl hpc)
  | reduceSwap caller n current =>
      cases caller with
      | release m => exact h.releaseReduces hs (.inr ⟨current, hpc⟩)
      | recover rec => exact h.recoverReduces hs (.inr ⟨current, hpc⟩)
  | recover rec pc =>
      simp only [runStep, hpc]
      have hscan := h.scanKeeps (p := p) hpc
      cases pc with
      | loadOwnerId => exact hscan rfl (fun _ h => by cases h)
      | loadHeartbeat => exact hscan rfl (fun _ h => by cases h)
      | readAge heartbeatMs =>
          refine hscan rfl fun _ heq => ?_
          cases heq
          exact hfresh rec heartbeatMs hpc
      | claim heartbeatMs => exact hscan rfl (fun _ h => by cases h)
      | handBack => exact hscan rfl (fun _ h => by cases h)
      | recheck heartbeatMs => exact h.holdsKeeps hs hpc rfl (fun _ h => by cases h)
      | loadHandleCount => exact h.holdsKeeps hs hpc rfl (fun _ h => by cases h)
      | clearOwnerId n => exact h.holdsKeeps hs hpc rfl (fun _ h => by cases h)
      | clearHandleCount n => exact h.holdsKeeps hs hpc rfl (fun _ h => by cases h)
      | clearHeartbeat n => exact h.holdsKeeps hs hpc rfl (fun _ h => by cases h)
      | addRecovered n => exact h.countKeeps hs hpc
  | terminatedLoad ownerId i => exact h.terminatedKeeps hs (.inl hpc)
  | terminatedClaim ownerId i => exact h.terminatedKeeps hs (.inr hpc)

end

/-! ## §6. Every run of the race. -/

omit [DecidableEq Ctx] in
/-- The invariant does not depend on the time. -/
theorem RaceInv.time (h : RaceInv c₀ c r) (timeMs : Nat) :
    RaceInv c₀ { c with shared := { c.shared with timeMs := timeMs } } r := by
  refine ⟨h.open_eq, h.recovered_eq, fun i => ?_, fun t => (h.pc t).frame fun _ ht => ht, h.lease,
    h.call, h.finished⟩
  cases h.slot i with
  | live t lease hlive hsome hslot howner hcount haccount hun hunc =>
      exact .live t lease hlive hsome hslot howner hcount haccount hun hunc
  | untouched hdead hwords haccount hun hunc => exact .untouched hdead hwords haccount hun hunc
  | held t hdead hpos hholds hunique hwords hunc =>
      exact .held t hdead hpos hholds hunique hwords hunc
  | reclaimed t k hdead hpos hwords haccount hadded hcounted hunique hun =>
      exact .reclaimed t k hdead hpos hwords haccount hadded hcounted hunique hun

/-- **What one step preserves.** -/
theorem RaceInv.step (hs : Scenario c₀) (h : RaceInv c₀ c r) {label : ThreadLabel Ctx Act}
    {c' : LeaseConfig Ctx} (hok : InRace C.staleMs c₀ c label)
    (hnext : (C.machineAfter c₀).system.next c label c') : RaceInv c₀ c' (r.note c label) := by
  cases hnext with
  | @thread t a s' l' hact =>
      obtain ⟨choice, o⟩ := a
      by_cases hstep : choice = .step
      · subst hstep
        have hact : (if (c.threads t).pc = .idle then none
            else some (runStep (C.params t) c.shared (c.threads t))) = some (s', l', o) := hact
        split at hact
        next => cases hact
        next hbusy =>
          obtain hrun := Option.some.inj hact
          have hkeeps : Keeps c₀ c r t (runStep (C.params t) c.shared (c.threads t)) := by
            refine h.runKeeps hs hbusy fun rec heartbeatMs hpc => ?_
            exact hok (rec.slot, heartbeatMs) (by rw [hpc]; rfl)
          rw [hrun] at hkeeps
          exact hkeeps
      · exact h.callBegins hs hstep hok hact
  | env hmoves =>
      obtain ⟨timeMs, _, rfl⟩ := hmoves
      exact h.time timeMs

omit [DecidableEq Ctx] in
/-- The race begins with every slot untouched or its living owner's. -/
theorem Scenario.raceInv (hs : Scenario c₀) : RaceInv c₀ c₀ (.start c₀) := by
  have hpcs (t : Ctx) (pc : Pc) (hpc : pc ≠ .idle) : (c₀.threads t).pc ≠ pc := by
    rw [hs.idle t]
    exact hpc.symm
  have hunheld (i : SlotIndex) : Unheld c₀ i := by
    intro t
    refine holds_none ?_
    rw [hs.idle t]
    rfl
  refine ⟨?_, ?_, fun i => ?_, fun t => ?_, fun t => ?_, fun t => ?_, fun i _ hf => ?_⟩
  · rw [hs.open_eq]
    exact Finset.sum_filter _ _
  · simp [Tally.start]
  · by_cases hlive : LiveSlot c₀ i
    · obtain ⟨t, lease, hlease, rfl⟩ := id hlive
      obtain ⟨howner, hcount, hpos, _⟩ := hs.lease t lease hlease
      refine .live t lease hlive hlease rfl rfl ?_ ?_ (hunheld _) ⟨rfl, fun _ _ => rfl⟩
      · rw [hcount, hs.idle t]
        simp [Pc.slotDelta]
      · rw [hs.idle t]
        simp only [Tally.start]
        rw [if_pos (howner ▸ hpos), hcount]
        simp [Pc.openDelta]
    · exact .untouched hlive rfl rfl (hunheld i) ⟨rfl, fun _ _ => rfl⟩
  · simp [PcInv, hs.idle t]
  · cases hlease : (c₀.threads t).lease with
    | none => trivial
    | some lease => exact ⟨rfl, rfl, (hs.lease t lease hlease).2.2.2⟩
  · rw [hs.idle t]
    exact ⟨fun _ h => (by cases h), fun _ _ => ⟨rfl, fun _ => rfl⟩, fun _ _ h => (by cases h),
      fun _ _ h => absurd rfl h⟩
  · cases hf

/-- Every run of the race: the step condition looks at the configuration only. -/
abbrev RaceStep (C : Contexts Ctx) (c₀ : LeaseConfig Ctx) (x : LeaseConfig Ctx × Tally Ctx)
    (label : ThreadLabel Ctx Act) : Prop :=
  InRace C.staleMs c₀ x.1 label

/-- **What a whole run preserves.** -/
theorem Scenario.run (hs : Scenario c₀) {x : LeaseConfig Ctx × Tally Ctx}
    (hx : Reach (C.race c₀) (RaceStep C c₀) x) : RaceInv c₀ x.1 x.2 := by
  refine hx.record_invariant (fun _ => True) (fun x => RaceInv c₀ x.1 x.2) (fun _ _ => trivial)
    (fun c hinit => ?_) (fun c r label c' _ _ h hok hnext => h.step hs hok hnext)
  obtain ⟨hshared, hthreads⟩ := hinit
  have hc : c = c₀ := by
    cases c
    cases c₀
    simp_all
  rw [hc]
  exact hs.raceInv

/-! ## §7. What is left of the dead owners. -/

/-- A recovery is under way in context `t`. -/
def Recovering (c : LeaseConfig Ctx) (t : Ctx) : Prop := (c.threads t).pc.soFar.isSome = true

/-- **Dead owners are reclaimed exactly once.** -/
structure ReclaimedOnce (c₀ c : LeaseConfig Ctx) (r : Tally Ctx) : Prop where
  /-- what is counted for a dead owner's slot is its handle count -/
  exact : ∀ i, ¬LiveSlot c₀ i → ∀ t k n, r.counted t k i = some n → n = count c₀ i
  /-- by one call only, and never for a living owner's slot -/
  once : ∀ i t k u j, r.counted t k i ≠ none → r.counted u j i ≠ none → t = u ∧ k = j
  dead : ∀ i t k, r.counted t k i ≠ none → ¬LiveSlot c₀ i ∧ 0 < owner c₀ i
  /-- a call returns the sum of what it has counted -/
  returned : ∀ t k v, r.returned t k = some v → v = r.total t k
  /-- when the recoveries have run to completion, a dead owner's slot is as it was,
  or it is clear, its handles are off the open counter, in the recovered counter, and
  in what one call has returned -/
  completed : (∀ t, ¬Recovering c t) → ∀ i, ¬LiveSlot c₀ i → 0 < owner c₀ i →
    (c.shared.slots i = c₀.shared.slots i ∧ r.account i = count c₀ i ∧ r.added i = 0
        ∧ ∀ t k, r.counted t k i = none)
      ∨ c.shared.slots i = ⟨0, 0, 0⟩ ∧ r.account i = 0 ∧ r.added i = count c₀ i
        ∧ ∃ t k v, r.counted t k i = some (count c₀ i) ∧ r.returned t k = some v
  /-- the slot of an owner for which `recoverTerminated` has returned is clear -/
  terminated : (∀ t, ¬Recovering c t) → ∀ i, ¬LiveSlot c₀ i → 0 < owner c₀ i →
    r.finished (owner c₀ i) = true → c.shared.slots i = ⟨0, 0, 0⟩
  /-- the two counters are the sums of the accounts -/
  open_eq : c.shared.openHandleCount = ∑ i, r.account i
  recovered_eq : c.shared.recoveredAbandonedHandleCount
    = c₀.shared.recoveredAbandonedHandleCount + ∑ i, r.added i
  /-- living owners keep their slots -/
  kept : ∀ i, LiveSlot c₀ i → owner c i = owner c₀ i
  /-- with every call over, the open counter is the sum over the owned slots again -/
  settled : (∀ t, (c.threads t).pc = .idle) →
    c.shared.openHandleCount = ∑ i with 0 < owner c i, count c i

omit [DecidableEq Ctx] in
/-- The invariant at the end of a run. -/
theorem RaceInv.reclaimedOnce (hs : Scenario c₀) (h : RaceInv c₀ c r) : ReclaimedOnce c₀ c r := by
  have hlive (i : SlotIndex) (hi : LiveSlot c₀ i) : owner c i = owner c₀ i := by
    cases h.slot i with
    | live _ _ _ _ _ howner _ _ _ _ => exact howner
    | untouched hdead _ _ _ _ => exact absurd hi hdead
    | held _ hdead _ _ _ _ _ => exact absurd hi hdead
    | reclaimed _ _ hdead _ _ _ _ _ _ _ => exact absurd hi hdead
  -- a slot for which something is counted has been reclaimed
  have hcounted (i : SlotIndex) (t : Ctx) (k : Nat) (hne : r.counted t k i ≠ none) :
      ¬LiveSlot c₀ i ∧ 0 < owner c₀ i ∧ r.counted t k i = some (count c₀ i)
        ∧ ∀ u j, r.counted u j i ≠ none → u = t ∧ j = k := by
    cases h.slot i with
    | live _ _ _ _ _ _ _ _ _ hunc => exact absurd (hunc.2 t k) hne
    | untouched _ _ _ _ hunc => exact absurd (hunc.2 t k) hne
    | held _ _ _ _ _ _ hunc => exact absurd (hunc.2 t k) hne
    | reclaimed u j hdead hpos _ _ _ hcount hunique _ =>
        obtain ⟨rfl, rfl⟩ := hunique t k hne
        exact ⟨hdead, hpos, hcount, hunique⟩
  have hcompleted (hdone : ∀ t, ¬Recovering c t) (i : SlotIndex) (hdead : ¬LiveSlot c₀ i)
      (hpos : 0 < owner c₀ i) :
      (c.shared.slots i = c₀.shared.slots i ∧ r.account i = count c₀ i ∧ r.added i = 0
          ∧ ∀ t k, r.counted t k i = none)
        ∨ c.shared.slots i = ⟨0, 0, 0⟩ ∧ r.account i = 0 ∧ r.added i = count c₀ i
          ∧ ∃ t k v, r.counted t k i = some (count c₀ i) ∧ r.returned t k = some v := by
    cases h.slot i with
    | live _ _ hlive _ _ _ _ _ _ _ => exact absurd hlive hdead
    | untouched _ hwords haccount _ hunc =>
        rw [if_pos hpos] at haccount
        exact .inl ⟨hwords, haccount, hunc⟩
    | held t _ _ hholds _ _ _ =>
        -- the holder is still at it
        obtain ⟨rec, hrec, _⟩ := hholds
        refine absurd ?_ (hdone t)
        unfold Recovering
        unfold Pc.holds at hrec
        split at hrec
        all_goals first
          | cases hrec; done
          | (rename_i heq
             rw [heq]
             rfl)
    | reclaimed t k _ _ hwords haccount hadded hcount _ _ =>
        refine .inr ⟨hwords, haccount, hadded, t, k, ?_⟩
        have hreturned : r.returned t k ≠ none := by
          rcases (h.call t).counted k i (by rw [hcount]; simp) with hret | ⟨_, hrun⟩
          · exact hret
          · exact absurd hrun (hdone t)
        obtain ⟨v, hv⟩ := Option.ne_none_iff_exists'.mp hreturned
        exact ⟨v, hcount, hv⟩
  refine ⟨fun i _ t k n hn => ?_, fun i t k u j ht hu => ?_, fun i t k hne => ?_,
    fun t => (h.call t).returned, hcompleted, fun hdone i hdead hpos hf => ?_, h.open_eq,
    h.recovered_eq, hlive, fun hidle => ?_⟩
  · have hcount := (hcounted i t k (by rw [hn]; simp)).2.2.1
    rw [hn] at hcount
    exact Option.some.inj hcount
  · obtain ⟨hu, hj⟩ := (hcounted i t k ht).2.2.2 u j hu
    exact ⟨hu.symm, hj.symm⟩
  · obtain ⟨hdead, hpos, _⟩ := hcounted i t k hne
    exact ⟨hdead, hpos⟩
  · rcases hcompleted hdone i hdead hpos with ⟨hwords, _⟩ | ⟨hwords, _⟩
    · exact absurd (congrArg Slot.ownerId hwords) (h.finished i hpos hf)
    · exact hwords
  · rw [h.open_eq, Finset.sum_filter]
    refine Finset.sum_congr rfl fun i _ => ?_
    cases h.slot i with
    | live t lease hi hsome hslot howner hcount haccount _ _ =>
        obtain ⟨u, lease₀, hlease₀, hslot₀⟩ := hi
        obtain ⟨howner₀, _, hpos₀, _⟩ := hs.lease u lease₀ hlease₀
        rw [hslot₀] at howner₀
        rw [if_pos (by omega), haccount, hcount, hidle t]
        rfl
    | untouched _ hwords haccount _ _ =>
        rw [haccount, owner, count, owner, count, hwords]
    | held t _ _ hholds _ _ _ =>
        obtain ⟨rec, hrec, _⟩ := hholds
        rw [hidle t] at hrec
        cases hrec
    | reclaimed t k _ _ hwords haccount _ _ _ _ =>
        rw [haccount, owner, hwords]
        rfl

/-- **Dead owners are reclaimed exactly once**, in every run of recoveries, retains,
releases and heartbeats. -/
theorem dead_owners_reclaimed_once (C : Contexts Ctx) {c₀ : LeaseConfig Ctx} (hs : Scenario c₀)
    {x : LeaseConfig Ctx × Tally Ctx} (hx : Reach (C.race c₀) (RaceStep C c₀) x) :
    ReclaimedOnce c₀ x.1 x.2 :=
  (hs.run hx).reclaimedOnce hs

/-! ## §8. An executed race. -/

/-- A choice of one context, named. -/
def execNamed (C : Contexts Ctx) (c : LeaseConfig Ctx) :
    Cmd Ctx → Option (ThreadLabel Ctx Act × LeaseConfig Ctx)
  | .context t choice =>
      (choose (C.params t) choice c.shared (c.threads t)).map fun st =>
        (.thread t ⟨choice, st.2.2⟩, c.put t st.1 st.2.1)
  | .clock timeMs =>
      if c.shared.timeMs ≤ timeMs then
        some (.env, { c with shared := { c.shared with timeMs := timeMs } })
      else none

theorem execNamed_next (C : Contexts Ctx) (c₀ c : LeaseConfig Ctx) (k : Cmd Ctx)
    (label : ThreadLabel Ctx Act) (c' : LeaseConfig Ctx) (h : execNamed C c k = some (label, c')) :
    (C.machineAfter c₀).system.next c label c' := by
  cases k with
  | context t choice =>
      obtain ⟨⟨s, l, o⟩, hstep, heq⟩ := Option.map_eq_some_iff.mp h
      cases heq
      exact .thread hstep
  | clock timeMs =>
      simp only [execNamed] at h
      split at h
      next hle =>
        cases h
        exact .env ⟨timeMs, hle, rfl⟩
      next => cases h

section

variable {n : Nat} (c₀ : LeaseConfig (Fin n))

instance decidableLiveSlot (i : SlotIndex) : Decidable (LiveSlot c₀ i) := by
  unfold LiveSlot
  infer_instance

instance decidableLiveOwner (ownerId : Int) : Decidable (LiveOwner c₀ ownerId) := by
  unfold LiveOwner
  infer_instance

instance decidableInRace (staleMs : Int) (c : LeaseConfig (Fin n))
    (label : ThreadLabel (Fin n) Act) : Decidable (InRace staleMs c₀ c label) :=
  match label with
  | .thread t ⟨.retain, _⟩ => inferInstanceAs (Decidable ((c.threads t).lease ≠ none))
  | .thread t ⟨.release, _⟩ =>
      inferInstanceAs (Decidable (∃ lease, (c.threads t).lease = some lease ∧ 2 ≤ lease.handleCount))
  | .thread _ ⟨.recoverTerminated ownerId, _⟩ =>
      inferInstanceAs (Decidable (¬LiveOwner c₀ ownerId))
  | .thread _ ⟨.reset, _⟩ => isFalse id
  | .thread t ⟨.step, _⟩ =>
      inferInstanceAs (Decidable (∀ x, (c.threads t).pc.reading = some x → LiveSlot c₀ x.1 →
        isStale staleMs x.2 c.shared.clockMs = false))
  | .thread _ ⟨.beat, _⟩ | .thread _ ⟨.recover, _⟩ | .env => isTrue trivial

end

/-- Context 0 has slot 1; the owner of slot 0 has died with three handles. -/
def deadStart : LeaseConfig (Fin 2) :=
  ⟨⟨4, 0, fun i => if i = 0 then ⟨99, 3, 1⟩ else if i = 1 then ⟨1, 1, 1⟩ else ⟨0, 0, 0⟩,
      fun _ _ => 0, 10⟩,
    fun t => ⟨.idle, if t.val = 0 then some ⟨1, 1, 1⟩ else none, t.val = 0, 1, true⟩⟩

theorem deadStart_scenario : Scenario deadStart where
  idle _ := rfl
  lease := by decide
  lease_inj t u lease lease' ht hu _ := by
    have hzero (v : Fin 2) (e : LocalRuntimeLease) (hv : (deadStart.threads v).lease = some e) :
        v = 0 := by
      by_contra hne
      simp [deadStart, hne] at hv
    rw [hzero t lease ht, hzero u lease' hu]
  owner_inj := by decide
  count_nonneg := by decide
  open_eq := by decide

/-- Both contexts are told of the death and search at once; context 1 wins the slot,
context 0 returns 0, and retains a handle meanwhile. -/
theorem dead_owners_reclaimed_once_two :
    ∃ x, Reach (twoContexts.race deadStart) (RaceStep twoContexts deadStart) x
      ∧ x.2.counted 1 1 0 = some 3 ∧ x.2.returned 0 1 = some 0 ∧ x.1.shared.openHandleCount = 2
      ∧ ReclaimedOnce deadStart x.1 x.2 := by
  have hstart : Reach (twoContexts.race deadStart) (RaceStep twoContexts deadStart)
      (deadStart, .start deadStart) := .init ⟨⟨rfl, rfl⟩, rfl⟩
  obtain ⟨x, hx, h⟩ := hstart.exists_of_commands
    (recorded_next (RaceStep twoContexts deadStart) (execNamed_next twoContexts deadStart))
    (call 0 (.recoverTerminated 99) 1 ++ call 1 (.recoverTerminated 99) 5
      ++ List.replicate 1 (.context 0 .step) ++ call 0 .retain 5
      ++ List.replicate 4 (.context 1 .step))
    (fun x => decide (x.2.counted 1 1 0 = some 3 ∧ x.2.returned 0 1 = some 0
      ∧ x.1.shared.openHandleCount = 2)) (by decide)
  obtain ⟨hcounted, hreturned, hopen⟩ := of_decide_eq_true h
  exact ⟨x, hx, hcounted, hreturned, hopen, dead_owners_reclaimed_once twoContexts deadStart_scenario hx⟩

end MemoryWriteAhead.Lease
