/-
  MemoryWriteAhead.Lease.Reset
  ────────────────────────────
  **WHEN A RESET WIPES NOTHING THAT IS IN USE.**

  The reset reads the open counter once and then takes hundreds of separate
  stores; nothing keeps a context from retaining a handle between the two, and
  `retain_during_reset` is a run in which one does.

  `reset_fails_closed` is about the runs in which no retain reaches the open
  counter while the reset is wiping, no store goes to a slot that has changed
  hands (`Lease.Ledger`), and no heartbeat is stored into a slot whose recovery
  has rechecked it.  In these the moment of a wipe finds no handle of a context
  whose lease heartbeat is fresh.
-/
import Mathlib
import MemoryWriteAhead.Lease.Exact
import MemoryWriteAhead.Lease.Watch

namespace MemoryWriteAhead.Lease

open Transition

variable {Ctx : Type} {C : Contexts Ctx} {c : LeaseConfig Ctx} {t : Ctx} {s' : Shared} {l' : Local}

/-! ## §1. The clock. -/

/-- How often the lock clock has wrapped. -/
def Shared.lockClockEpoch (s : Shared) : Int := (s.timeMs : Int) / lockClockModuloMs

theorem clockMs_mono {s s' : Shared} (hle : s.timeMs ≤ s'.timeMs)
    (hepoch : s'.lockClockEpoch = s.lockClockEpoch) : s.clockMs ≤ s'.clockMs := by
  unfold Shared.lockClockEpoch lockClockModuloMs at hepoch
  unfold Shared.clockMs getMemoryWriteAheadLockClockMs lockClockModuloMs
  omega

/-- What is stale stays stale while the clock moves on. -/
theorem isStale_mono {staleMs h n n' : Int} (hn : h ≤ n) (hle : n ≤ n')
    (hstale : isStale staleMs h n = true) : isStale staleMs h n' = true := by
  unfold isStale at hstale ⊢
  by_cases hpos : 0 < h
  · rw [getMemoryWriteAheadLockAgeMs_of_le hpos hn] at hstale
    rw [getMemoryWriteAheadLockAgeMs_of_le hpos (Int.le_trans hn hle)]
    simp only [decide_eq_true_eq] at hstale ⊢
    omega
  · rw [getMemoryWriteAheadLockAgeMs_eq_none.mpr (Int.not_lt.mp hpos)] at hstale
    cases hstale

/-! ## §2. The heartbeats are in time. -/

/-- What a context has in hand is not from the future, and what it has judged is
stale. -/
def Watch.Timely (staleMs n : Int) : Watch → Prop
  | .storing nowMs => nowMs ≤ n
  | .reading h => h ≤ n
  | .judged _ _ h => h ≤ n ∧ isStale staleMs h n = true
  | _ => True

structure Timely (C : Contexts Ctx) (c : LeaseConfig Ctx) : Prop where
  words : ∀ i, heartbeat c.shared i ≤ c.shared.clockMs
  watch : ∀ u, (c.threads u).pc.watch.Timely C.staleMs c.shared.clockMs
  rechecked : ∀ u i ownerId, (c.threads u).pc.watch = .rechecked i ownerId →
    owner c i = -ownerId → isStale C.staleMs (heartbeat c.shared i) c.shared.clockMs = true

theorem Watch.Timely.mono {staleMs n n' : Int} {w : Watch} (h : w.Timely staleMs n) (hle : n ≤ n') :
    w.Timely staleMs n' := by
  cases w with
  | storing nowMs => exact Int.le_trans (show nowMs ≤ n from h) hle
  | reading hb => exact Int.le_trans (show hb ≤ n from h) hle
  | judged i ownerId hb => exact ⟨Int.le_trans h.1 hle, isStale_mono h.1 hle h.2⟩
  | nothing | rechecked => trivial

theorem Timely.of_time (h : Timely C c) {timeMs : Nat} (hle : c.shared.timeMs ≤ timeMs)
    (hepoch : ({ c.shared with timeMs := timeMs } : Shared).lockClockEpoch
      = c.shared.lockClockEpoch) :
    Timely C { c with shared := { c.shared with timeMs := timeMs } } := by
  have hclock : c.shared.clockMs ≤ ({ c.shared with timeMs := timeMs } : Shared).clockMs :=
    clockMs_mono hle hepoch
  refine ⟨fun i => Int.le_trans (h.words i) hclock, fun u => (h.watch u).mono hclock,
    fun u i ownerId hw hown => isStale_mono (h.words i) hclock (h.rechecked u i ownerId hw hown)⟩

theorem Timely.start (hstart : C.machine.start c.shared c.threads) : Timely C c := by
  have hwatch (u : Ctx) : (c.threads u).pc.watch = .nothing := by rw [hstart.2 u]; rfl
  refine ⟨fun i => ?_, fun u => ?_, fun u i ownerId hw => ?_⟩
  · have hpos := clockMs_pos c.shared
    rw [heartbeat, hstart.1.2.2 i]
    show (0 : Int) ≤ _
    omega
  · rw [hwatch u]
    trivial
  · rw [hwatch u] at hw
    cases hw

/-- A slot that has been rechecked is in recovery. -/
theorem Pc.recovers_of_rechecked {pc : Pc} {i : SlotIndex} {ownerId : Int}
    (h : pc.watch = .rechecked i ownerId) : pc.stage.Recovers i ownerId := by
  have hreduce {caller : ReduceCaller} (hc : caller.watch = .rechecked i ownerId) :
      ∃ r, caller = .recover r ∧ r.slot = i ∧ r.ownerId = ownerId := by
    cases caller with
    | release n => cases hc
    | recover r => cases hc; exact ⟨r, rfl, rfl, rfl⟩
  cases pc with
  | recover r pc =>
      cases pc with
      | loadHandleCount => cases h; exact .inl rfl
      | clearOwnerId released => cases h; exact .inr ⟨0, rfl⟩
      | _ => cases h
  | reduceLoad caller n =>
      obtain ⟨r, rfl, rfl, rfl⟩ := hreduce h
      exact .inr ⟨n, rfl⟩
  | reduceSwap caller n m =>
      obtain ⟨r, rfl, rfl, rfl⟩ := hreduce h
      exact .inr ⟨n, rfl⟩
  | claim k pc => cases pc <;> cases h
  | beat caller pc => cases pc <;> cases h
  | _ => cases h

/-- A slot that is being drained has been rechecked. -/
theorem Pc.rechecked_of_drains {pc : Pc} {i : SlotIndex} {ownerId : Int}
    (h : pc.stage.Drains i ownerId) : pc.watch = .rechecked i ownerId := by
  obtain ⟨n, h⟩ := h
  cases pc with
  | recover r pc =>
      cases pc <;> cases h
      all_goals rfl
  | reduceLoad caller n =>
      cases caller <;> cases h
      rfl
  | reduceSwap caller n m =>
      cases caller <;> cases h
      rfl
  | claim k pc => cases pc <;> cases h
  | beat caller pc => cases caller <;> cases h
  | release pc => cases pc <;> cases h
  | _ => cases h

/-! ## §3. Fresh holders, and the condition. -/

/-- The handles of a context whose retain is complete and whose release has not
begun. -/
def Local.retainedHandleCount (l : Local) : Nat :=
  if l.stage = .adding ∨ l.stage = .added then l.heldHandleCount - 1 else l.heldHandleCount

/-- The context holds a handle, the slot of its lease still names it, and the
heartbeat there is not stale. -/
def FreshHolder (C : Contexts Ctx) (c : LeaseConfig Ctx) (t : Ctx) : Prop :=
  0 < (c.threads t).retainedHandleCount
    ∧ ∃ lease, (c.threads t).lease = some lease
      ∧ (owner c lease.slotIndex = lease.ownerId ∨ owner c lease.slotIndex = -lease.ownerId)
      ∧ isStale C.staleMs (heartbeat c.shared lease.slotIndex) c.shared.clockMs = false

/-- The condition on a step of the run in which context `r` resets. -/
structure ClosedStep (r : Ctx) (c : LeaseConfig Ctx) (t : Ctx) (a : Act) : Prop where
  /-- only `r` resets -/
  resets : a.choice = .reset → t = r
  /-- no store goes to a slot that has changed hands -/
  calm : a.choice = .step → CalmStep c t
  /-- recovery is that of abandoned leases -/
  abandoned : ∀ ownerId i, (c.threads t).pc ≠ .terminatedClaim ownerId i
  /-- no retain reaches the open counter while the files are wiped -/
  retain : (c.threads t).pc = .retainAddOpen → (c.threads r).pc.wipes = false
  /-- no heartbeat is stored into a slot that a recovery has rechecked -/
  beat : ∀ i, (c.threads t).heartbeatSlot = some i → ∀ u ownerId,
    (c.threads u).pc.watch = .rechecked i ownerId → owner c i ≠ -ownerId

/-- … and the lock clock does not wrap. -/
def ClosedRun (r : Ctx) (epoch : Int) (c : LeaseConfig Ctx) : ThreadLabel Ctx Act → Prop
  | .thread t a => c.shared.lockClockEpoch = epoch ∧ ClosedStep r c t a
  | .env => c.shared.lockClockEpoch = epoch

/-! ## §4. The invariant. -/

/-- No owned lease has a handle whose retain is complete. -/
def NoneHeld (c : LeaseConfig Ctx) : Prop :=
  ∀ u lease, (c.threads u).lease = some lease → Owned c lease →
    (c.threads u).stage = .adding ∧ lease.handleCount = 1
      ∨ (c.threads u).stage.releases = true ∧ lease.handleCount = 0

theorem Pc.eq_of_adding {pc : Pc} (h : pc.stage = .adding) : pc = .retainAddOpen := by
  cases pc with
  | retainAddOpen => rfl
  | claim k pc => cases pc <;> cases h
  | beat caller pc => cases caller <;> cases h
  | release pc => cases pc <;> cases h
  | reduceLoad caller n => cases caller <;> cases h
  | reduceSwap caller n m => cases caller <;> cases h
  | recover r pc => cases pc <;> cases h
  | _ => cases h

/-- The running step of a reset. -/
theorem choose_reset {p : Params} {choice : Choice} {s : Shared} {l : Local} {o : Option Outcome}
    {pc : ResetPc} (hpc : l.pc = .reset pc) (hr : choose p choice s l = some (s', l', o)) :
    (s', l', o) = resetStep p s l pc := by
  rcases choose_cases hr with ⟨-, hrun⟩ | ⟨-, hidle, -⟩
  · rw [hrun]
    unfold runStep
    rw [hpc]
  · rw [hpc] at hidle
    cases hidle

/-- Once the words are being cleared, they are until the registry entry goes. -/
theorem clears_next {p : Params} {choice : Choice} {s : Shared} {l : Local} {o : Option Outcome}
    (hclears : l.pc.clears = true) (hr : choose p choice s l = some (s', l', o)) :
    l'.pc.clears = true ∨ l'.registered = false := by
  cases hpc : l.pc with
  | reset pc =>
      rw [hpc] at hclears
      have hstep := choose_reset hpc hr
      rw [show l' = (resetStep p s l pc).2.1 by rw [← hstep]]
      cases pc with
      | clearHeartbeat i =>
          simp only [resetStep]
          split
          · exact .inl rfl
          · exact .inr rfl
      | storeOpenHandleCount | storeRecovered | clearOwnerId | clearHandleCount => exact .inl rfl
      | loadOpenHandleCount | storeFileMeta | storeActiveSegmentCount => cases hclears
  | _ => rw [hpc] at hclears; cases hclears

/-- The files are wiped after an open counter of 0. -/
theorem wipes_next {p : Params} {choice : Choice} {s : Shared} {l : Local} {o : Option Outcome}
    {pc : ResetPc} (hpc : l.pc = .reset pc) (hr : choose p choice s l = some (s', l', o))
    (hwipes : l'.pc.wipes = true) : s.openHandleCount ≤ 0 ∨ l.pc.wipes = true := by
  have hstep := choose_reset hpc hr
  rw [show l' = (resetStep p s l pc).2.1 by rw [← hstep]] at hwipes
  cases pc with
  | loadOpenHandleCount =>
      simp only [resetStep] at hwipes
      split at hwipes
      · cases hwipes
      next hnot => exact .inl (Int.not_lt.mp hnot)
  | storeFileMeta | storeActiveSegmentCount => exact .inr (by rw [hpc]; rfl)
  | clearHeartbeat i =>
      simp only [resetStep] at hwipes
      split at hwipes <;> cases hwipes
  | storeOpenHandleCount | storeRecovered | clearOwnerId | clearHandleCount => cases hwipes

theorem Pc.resets_of_clears {pc : Pc} (h : pc.clears = true) : pc.resets = true := by
  cases pc with
  | reset pc => rfl
  | _ => cases h

theorem Pc.not_clears_of_wipes {pc : Pc} (h : pc.wipes = true) : pc.clears = false := by
  cases pc with
  | reset pc =>
      cases pc with
      | storeFileMeta | storeActiveSegmentCount => rfl
      | _ => cases h
  | _ => cases h

section

variable [Fintype Ctx] [DecidableEq Ctx]

/-- The invariant of a run with a reset: until `r` clears the runtime's words the
ledger holds. -/
structure ClosedInv (C : Contexts Ctx) (r : Ctx) (epoch : Int) (c : LeaseConfig Ctx) : Prop where
  others : ∀ u, u ≠ r → (c.threads u).pc.resets = false
  gone : (c.threads r).registered = false → (c.threads r).pc.resets = false
  ledger : (c.threads r).pc.clears = true ∨ (c.threads r).registered = false
    ∨ Ledger C c ∧ ((c.threads r).pc.wipes = true → NoneHeld c)
      ∧ (c.shared.lockClockEpoch = epoch → Timely C c)

omit [DecidableEq Ctx] in
/-- An open counter of 0 means that nothing is held. -/
theorem Ledger.noneHeld (h : Ledger C c) (hopen : c.shared.openHandleCount ≤ 0) : NoneHeld c := by
  intro u lease hlease howned
  have hcredits : ∀ i, 0 ≤ credit c i := credit_nonneg h
  have hpendings : ∀ v, 0 ≤ (c.threads v).stage.pending := pending_nonneg h
  have hsum : 0 ≤ ∑ i, credit c i := Finset.sum_nonneg fun i _ => hcredits i
  have hone : credit c lease.slotIndex ≤ ∑ i, credit c i :=
    Finset.single_le_sum (fun i _ => hcredits i) (Finset.mem_univ _)
  have hpending := h.pending_le u
  have hpos := hpendings u
  have hsumPending : 0 ≤ ∑ v, (c.threads v).stage.pending :=
    Finset.sum_nonneg fun v _ => hpendings v
  have haccounts := h.accounts
  have hcovered := (h.context u).covered lease hlease howned
  have hhandles := (h.context u).handles lease hlease
  rw [credit_eq (h.credited_of_owned hlease howned)] at hone
  unfold shown at hcovered
  cases hstage : (c.threads u).stage with
  | adding =>
      rw [hstage] at hcovered hhandles
      have hone' := hhandles rfl
      simp only [Stage.offset] at hcovered
      exact .inl ⟨rfl, by omega⟩
  | added =>
      rw [hstage] at hpending
      simp only [Stage.pending] at hpending
      omega
  | rest | claimed | retained | recovering | draining =>
      rw [hstage] at hcovered hhandles
      have hone' := hhandles rfl
      simp only [Stage.offset] at hcovered
      omega
  | releasing | loading | subtracting | reducing | clearing | leaving =>
      rw [hstage] at hcovered
      simp only [Stage.offset] at hcovered
      exact .inr ⟨rfl, by omega⟩

/-- Nothing becomes held but by the open counter. -/
theorem NoneHeld.step (hnone : NoneHeld c) (h : Ledger C c) (e : Effect C c t s' l')
    (hretain : (c.threads t).stage = .adding → l'.stage ≠ .added) :
    NoneHeld (c.put t s' l') := by
  intro u lease' hlease' howned
  have hold {lease : LocalRuntimeLease} {v : Ctx} (hlease : (c.threads v).lease = some lease)
      (howned : Owned (c.put t s' l') lease) :
      (c.threads v).stage = .adding ∧ lease.handleCount = 1
        ∨ (c.threads v).stage.releases = true ∧ lease.handleCount = 0 := by
    have hid : IdOf C c v lease.ownerId := (h.context v).lease_used lease hlease
    exact hnone v lease hlease (h.owned_of_put e hid.used howned)
  by_cases hu : u = t
  · subst hu
    rw [Config.put_threads_self] at hlease' ⊢
    -- a context at rest or in a recovery, or past the open counter, holds an owned lease
    have hno {lease : LocalRuntimeLease} (hlease : (c.threads u).lease = some lease)
        (howned : Owned (c.put u s' l') lease) (hadding : (c.threads u).stage ≠ .adding)
        (hrel : (c.threads u).stage.releases = false) : False := by
      rcases hold hlease howned with ⟨hstage, -⟩ | ⟨hstage, -⟩
      · exact hadding hstage
      · rw [hrel] at hstage
        cases hstage
    have hrelease {lease : LocalRuntimeLease} (hlease : (c.threads u).lease = some lease)
        (howned : Owned (c.put u s' l') lease) (hadding : (c.threads u).stage ≠ .adding) :
        lease.handleCount = 0 := by
      rcases hold hlease howned with ⟨hstage, -⟩ | ⟨-, hzero⟩
      · exact absurd hstage hadding
      · exact hzero
    have he := e
    cases he with
    | quiet hs hstage hlease =>
        rw [hlease] at hlease'
        rw [hstage]
        exact hold hlease' howned
    | wipe i hclear hs hstage hlease =>
        rw [hlease] at hlease'
        rw [hstage]
        exact hold hlease' howned
    | beginRetain lease hrest hlease hs hstage hl | beginRelease lease hrest hlease hs hstage hl =>
        rw [hl] at hlease'
        cases hlease'
        exact absurd (hno hlease howned (by rw [hrest]; nofun) (by rw [hrest]; rfl)) id
    | take i ownerId hrest hscan hfree hs hstage hl hused =>
        rw [hl, ((h.localInv u).scan ownerId hscan).1] at hlease'
        cases hlease'
    | openLease i ownerId hclaimed hfree hs hstage hl =>
        rw [hl] at hlease'
        cases hlease'
        exact .inl ⟨hstage, rfl⟩
    | addOpen hstage hs hstage' hl => exact absurd hstage' (hretain hstage)
    | addHandle lease hstage hlease howned' hs hstage' hl =>
        rw [hl] at hlease'
        cases hlease'
        exact absurd (hno hlease howned (by rw [hstage]; nofun) (by rw [hstage]; rfl)) id
    | endRetain hstage hs hstage' hl =>
        rw [hl] at hlease'
        exact absurd (hno hlease' howned (by rw [hstage]; nofun) (by rw [hstage]; rfl)) id
    | skip lease hstage hlease hne hs hstage' hl | leave lease hstage hlease hs hstage' hl =>
        obtain ⟨rfl, hone⟩ := finishedLease_eq_some (hl.symm.trans hlease')
        have hzero := hrelease hlease howned (by rw [hstage]; nofun)
        omega
    | load lease hstage hlease hown hs hstage' hl | clear lease hstage hlease hfree hs hstage' hl
    | loadHandles lease hstage hlease hpos hs hstage' hl
    | sub lease n hstage hlease howned' hs hstage' hl =>
        rw [hl] at hlease'
        cases hlease'
        exact .inr ⟨by rw [hstage']; rfl, hrelease hlease howned (by rw [hstage]; nofun)⟩
    | loadNothing lease hstage hlease hnot hs hstage' hl
    | reduced lease n released hstage hlease hred hstage' hl =>
        rw [hl] at hlease'
        cases hlease'
        refine .inr ⟨?_, hrelease hlease howned (by rw [hstage]; nofun)⟩
        rw [hstage']
        rcases afterSubStage_cases lease' _ with ⟨heq, -⟩ | ⟨heq, -⟩ <;> rw [heq] <;> rfl
    | claimBack i ownerId hstage howner hpos hs hstage' hl
    | handBack i ownerId hstage howner hs hstage' hl
    | drain i ownerId hstage hcond hs hstage' hl
    | drained i ownerId n hstage hred hstage' hl
    | free i ownerId hstage hcond hs hstage' hl =>
        rw [hl] at hlease'
        exact absurd (hno hlease' howned (by rw [hstage]; nofun) (by rw [hstage]; rfl)) id
  · rw [Config.put_threads_ne c hu] at hlease' ⊢
    exact hold hlease' howned

/-- The heartbeats stay in time. -/
theorem Timely.step (htime : Timely C c) (h : Ledger C c) (e : Effect C c t s' l')
    (hbeats : Beats (c.threads t) c.shared s')
    (hwatch : WatchStep C.staleMs c.shared (c.threads t) l'.pc.watch)
    (hbeat : ∀ i, (c.threads t).heartbeatSlot = some i → ∀ u ownerId,
      (c.threads u).pc.watch = .rechecked i ownerId → owner c i ≠ -ownerId) :
    Timely C (c.put t s' l') := by
  have hself : (c.put t s' l').threads t = l' := Config.put_threads_self ..
  have hclock : s'.clockMs = c.shared.clockMs := by
    unfold Shared.clockMs
    rw [hbeats.time]
  refine ⟨fun i => ?_, fun u => ?_, fun u i ownerId hw hown => ?_⟩ <;>
    rw [Config.put_shared, hclock]
  · rcases hbeats.word i with hsame | ⟨-, hzero | hstore⟩
    · rw [hsame]
      exact htime.words i
    · have hpos := clockMs_pos c.shared
      omega
    · have hheld := htime.watch t
      rw [hstore] at hheld
      exact hheld
  · by_cases hu : u = t
    · subst hu
      rw [hself]
      revert hwatch
      generalize l'.pc.watch = w
      intro hwatch
      cases hwatch with
      | keep hsame => exact hsame ▸ htime.watch u
      | clock => exact Int.le_refl _
      | load i => exact htime.words i
      | judge i ownerId hb hread hstale =>
          have hheld := htime.watch u
          rw [hread] at hheld
          exact ⟨hheld, hstale⟩
      | nothing | recheck => trivial
    · rw [Config.put_threads_ne c hu]
      exact htime.watch u
  · -- the recovery was past its recheck before, or has just rechecked
    have hcases : (c.threads u).pc.watch = .rechecked i ownerId
        ∨ u = t ∧ (c.threads t).stage = .recovering i ownerId ∧ (c.threads t).heartbeatSlot = none
          ∧ isStale C.staleMs (heartbeat c.shared i) c.shared.clockMs = true := by
      by_cases hu : u = t
      · subst hu
        rw [hself] at hw
        rw [hw] at hwatch
        cases hwatch with
        | keep hold => exact .inl hold
        | recheck _ _ hb hjudged hstage hslot hsame =>
            have hheld := htime.watch u
            rw [hjudged] at hheld
            exact .inr ⟨rfl, hstage, hslot, hsame ▸ hheld.2⟩
      · rw [Config.put_threads_ne c hu] at hw
        exact .inl hw
    have hrecovers : (c.threads u).stage.Recovers i ownerId := by
      rcases hcases with hold | ⟨rfl, hstage, -⟩
      · exact Pc.recovers_of_rechecked hold
      · exact .inl hstage
    have hpos := (h.recovers u i ownerId hrecovers).1.pos
    have hown' : owner c i = -ownerId := by
      have hown : (s'.slots i).ownerId = -ownerId := hown
      rcases e.slots_cases with hsame | ⟨j, v, hs', hwrite⟩ | ⟨j, v, hs', -⟩
      · rw [(hsame i).1] at hown
        exact hown
      · by_cases hj : i = j
        · subst hj
          rw [hs', setOwnerId_self] at hown
          cases hwrite with
          | take _ _ _ hscan _ _ _ =>
              obtain ⟨-, k, rfl, -⟩ := (h.localInv t).scan_fresh hscan
              have hpos' := C.owner_pos t k
              omega
          | clear => omega
          | free => omega
          | claimBack _ id _ howner _ _ =>
              exact absurd (by rw [howner]; omega) (h.recovers u i ownerId hrecovers).2
          | handBack _ _ hrec _ _ =>
              have hpos' := (h.recovers t _ _ (.inl hrec)).1.pos
              omega
        · rw [hs', setOwnerId_ne _ hj] at hown
          exact hown
      · rw [hs', setHandleCount_ownerId] at hown
        exact hown
    rcases hbeats.word i with hsame | ⟨hslot, -⟩
    · rw [hsame]
      rcases hcases with hold | ⟨-, -, -, hstale⟩
      · exact htime.rechecked u i ownerId hold hown'
      · exact hstale
    · rcases hcases with hold | ⟨rfl, -, hnone, -⟩
      · exact absurd hown' (hbeat i hslot u ownerId hold)
      · rw [hslot] at hnone
        cases hnone

variable {r : Ctx} {epoch : Int} {a : Act}

/-- **One step of a closed run.** -/
theorem ClosedInv.step (h : ClosedInv C r epoch c) (hok : ClosedRun r epoch c (.thread t a))
    (hact : C.machine.act t a c.shared (c.threads t) s' l') :
    ClosedInv C r epoch (c.put t s' l') := by
  obtain ⟨hepoch, hok⟩ := hok
  have hself : (c.put t s' l').threads t = l' := Config.put_threads_self ..
  have honward := choose_onward hact
  have hledger (hclears : (c.threads t).pc.clears = false) (hl : Ledger C c)
      (hnone : (c.threads r).pc.wipes = true → NoneHeld c) (htime : Timely C c) :
      Ledger C (c.put t s' l')
        ∧ (((c.put t s' l').threads r).pc.wipes = true → NoneHeld (c.put t s' l'))
        ∧ Timely C (c.put t s' l') := by
    have e := choose_effect hok.calm (hl.localInv t) hclears hact
    refine ⟨hl.step e (choose_local (hl.localInv t) hact), fun hwipes => ?_,
      htime.step hl e (choose_beats hact) (choose_watch hact hok.abandoned) hok.beat⟩
    by_cases hr : r = t
    · subst hr
      rw [hself] at hwipes
      rcases honward with honward | ⟨-, -, -, hno⟩
      · obtain ⟨pc, hpc⟩ := honward.wipes hwipes
        have hnone' : NoneHeld c := by
          rcases wipes_next hpc hact hwipes with hopen | hwiping
          · exact hl.noneHeld hopen
          · exact hnone hwiping
        refine hnone'.step hl e fun hadding => ?_
        rw [Local.stage, hpc] at hadding
        cases hadding
      · rw [hno] at hwipes
        cases hwipes
    · rw [Config.put_threads_ne c hr] at hwipes
      refine (hnone hwipes).step hl e fun hadding => ?_
      rw [hok.retain (Pc.eq_of_adding hadding)] at hwipes
      cases hwipes
  refine ⟨fun u hu => ?_, fun hgone => ?_, ?_⟩
  · by_cases hut : u = t
    · subst hut
      rw [hself]
      rcases honward with honward | ⟨hreset, -⟩
      · exact Bool.eq_false_iff.mpr fun ht => absurd (honward.resets ht) (by
          rw [h.others u hu]
          decide)
      · exact absurd (hok.resets hreset) hu
    · rw [Config.put_threads_ne c hut]
      exact h.others u hu
  · by_cases hr : r = t
    · subst hr
      rw [hself] at hgone ⊢
      rcases honward with honward | ⟨-, -, hreg, -⟩
      · rcases honward.registered hgone with hold | hidle
        · exact Bool.eq_false_iff.mpr fun ht => absurd (honward.resets ht) (by
            rw [h.gone hold]
            decide)
        · rw [hidle]
          rfl
      · rw [hreg] at hgone
        cases hgone
    · rw [Config.put_threads_ne c hr] at hgone ⊢
      exact h.gone hgone
  · by_cases hclears : (c.threads t).pc.clears = true
    · -- only `r` clears, and it goes on clearing
      obtain rfl : t = r := by
        by_contra hne
        have hresets := Pc.resets_of_clears hclears
        rw [h.others t hne] at hresets
        cases hresets
      rw [hself]
      rcases clears_next hclears hact with hnext | hnext
      · exact .inl hnext
      · exact .inr (.inl hnext)
    · rcases h.ledger with hc | hgone | ⟨hl, hnone, htime⟩
      · by_cases hr : r = t
        · subst hr
          exact absurd hc hclears
        · rw [Config.put_threads_ne c hr]
          exact .inl hc
      · by_cases hr : r = t
        · subst hr
          rw [hself]
          rcases honward with honward | ⟨-, hreg, -⟩
          · exact .inr (.inl (honward.gone hgone))
          · rw [hgone] at hreg
            cases hreg
        · rw [Config.put_threads_ne c hr]
          exact .inr (.inl hgone)
      · obtain ⟨hl', hnone', htime'⟩ :=
          hledger (Bool.eq_false_iff.mpr hclears) hl hnone (htime hepoch)
        exact .inr (.inr ⟨hl', hnone', fun _ => htime'⟩)

theorem ClosedInv.reach (h : Reach C.system (ClosedRun r epoch) c) : ClosedInv C r epoch c := by
  refine h.invariant (fun c hstart => ?_) fun c label c' hinv hok hn => ?_
  · have hidle (u : Ctx) : (c.threads u).pc = .idle := by rw [hstart.2 u]
    refine ⟨fun u _ => by rw [hidle u]; rfl, fun _ => by rw [hidle r]; rfl,
      .inr (.inr ⟨.start hstart, fun hwipes => ?_, fun _ => .start hstart⟩)⟩
    rw [hidle r] at hwipes
    cases hwipes
  · cases hn with
    | thread hact => exact hinv.step hok hact
    | env henv =>
        obtain ⟨timeMs, hle, rfl⟩ := henv
        refine ⟨hinv.others, hinv.gone, ?_⟩
        rcases hinv.ledger with hc | hgone | ⟨hl, hnone, htime⟩
        · exact .inl hc
        · exact .inr (.inl hgone)
        · exact .inr (.inr ⟨hl.of_time timeMs, hnone, fun hepoch =>
            (htime hok).of_time hle (hepoch.trans (show c.shared.lockClockEpoch = epoch from hok).symm)⟩)

/-! ## §5. The reset. -/

/-- **The reset fails closed**: in a closed run no step that stores into the files'
metadata is taken while a context is a fresh holder. -/
theorem reset_fails_closed (h : Reach C.system (ClosedRun r epoch) c)
    (hepoch : c.shared.lockClockEpoch = epoch) (hwipes : (c.threads r).pc.wipes = true) (t : Ctx) :
    ¬FreshHolder C c t := by
  have hinv := ClosedInv.reach h
  rintro ⟨hheld, lease, hlease, hown, hfresh⟩
  rcases hinv.ledger with hclears | hgone | ⟨hl, hnone, htime⟩
  · rw [Pc.not_clears_of_wipes hwipes] at hclears
    cases hclears
  · rw [Pc.wipes_of_not_resets (hinv.gone hgone)] at hwipes
    cases hwipes
  · by_cases howned : Owned c lease
    · -- an owned lease is in the middle of its first retain or of its last release
      unfold Local.retainedHandleCount Local.heldHandleCount at hheld
      rw [hlease] at hheld
      rcases hnone hwipes t lease hlease howned with ⟨hstage, hone⟩ | ⟨-, hzero⟩
      · rw [if_pos (.inl hstage)] at hheld
        simp only at hheld
        omega
      · simp only at hheld
        split at hheld <;> omega
    · -- a slot that names the lease and is not the lease's is being recovered
      obtain ⟨hneg, u, hu⟩ : owner c lease.slotIndex = -lease.ownerId
          ∧ ∃ u, (c.threads u).stage.Drains lease.slotIndex lease.ownerId := by
        rcases hown with hown | hown
        · exact absurd (.inl hown) howned
        · refine ⟨hown, ?_⟩
          by_contra hno
          exact howned (.inr ⟨hown, fun u hu => hno ⟨u, hu⟩⟩)
      have hstale := (htime hepoch).rechecked u _ _ (Pc.rechecked_of_drains hu) hneg
      rw [hfresh] at hstale
      cases hstale

end

/-! ## §6. Executed runs. -/

instance decidableRechecked (w : Watch) (i : SlotIndex) (v : Int) :
    Decidable (∀ ownerId, w = .rechecked i ownerId → v ≠ -ownerId) :=
  match w with
  | .rechecked j id =>
      decidable_of_iff (j = i → v ≠ -id)
        ⟨fun h ownerId heq => by cases heq; exact h rfl, fun h hj => h id (by rw [hj])⟩
  | .nothing | .storing _ | .reading _ | .judged _ _ _ => isTrue nofun

instance decidableAbandoned (pc : Pc) : Decidable (∀ ownerId i, pc ≠ .terminatedClaim ownerId i) :=
  match pc with
  | .terminatedClaim ownerId i => isFalse fun h => h ownerId i rfl
  | .idle | .claim _ _ | .retainAddOpen | .retainAddHandle | .beat _ _ | .release _
  | .reduceLoad _ _ | .reduceSwap _ _ _ | .recover _ _ | .terminatedLoad _ _ | .reset _ =>
      isTrue nofun

instance decidableClosedStep {n : Nat} (r : Fin n) (c : LeaseConfig (Fin n)) (t : Fin n) (a : Act) :
    Decidable (ClosedStep r c t a) :=
  decidable_of_iff ((a.choice = .reset → t = r) ∧ (a.choice = .step → CalmStep c t)
      ∧ (∀ ownerId i, (c.threads t).pc ≠ .terminatedClaim ownerId i)
      ∧ ((c.threads t).pc = .retainAddOpen → (c.threads r).pc.wipes = false)
      ∧ ∀ i, (c.threads t).heartbeatSlot = some i → ∀ u ownerId,
        (c.threads u).pc.watch = .rechecked i ownerId → owner c i ≠ -ownerId)
    ⟨fun ⟨h1, h2, h3, h4, h5⟩ => ⟨h1, h2, h3, h4, h5⟩,
      fun ⟨h1, h2, h3, h4, h5⟩ => ⟨h1, h2, h3, h4, h5⟩⟩

instance decidableClosedRun {n : Nat} (r : Fin n) (epoch : Int) (c : LeaseConfig (Fin n))
    (label : ThreadLabel (Fin n) Act) : Decidable (ClosedRun r epoch c label) := by
  unfold ClosedRun
  split <;> infer_instance

/-- Context 0 retains and releases a handle; context 1 comes to wipe the files, and
context 0 is no fresh holder. -/
theorem reset_fails_closed_two :
    ∃ c, Reach twoContexts.system (ClosedRun 1 0) c ∧ (c.threads 1).pc.wipes = true
      ∧ ¬FreshHolder twoContexts c 0 := by
  obtain ⟨c, hc, h⟩ := (twoStart_reach (ClosedRun 1 0)).exists_of_commands
    (exec_next twoContexts (ClosedRun 1 0))
    (call 0 .retain 14 ++ call 0 .release 8 ++ call 1 .reset 33)
    (fun c => decide (c.shared.lockClockEpoch = 0 ∧ (c.threads 1).pc.wipes = true)) (by decide)
  obtain ⟨hepoch, hwipes⟩ := of_decide_eq_true h
  exact ⟨c, hc, hwipes, reset_fails_closed hc hepoch hwipes 0⟩

/-- The operations that the reset of context 1 is interleaved with. -/
def ResetCall (c : LeaseConfig (Fin 2)) : ThreadLabel (Fin 2) Act → Prop
  | .thread t a => LeaseCall c (.thread t a) ∨ a.choice = .reset ∧ t = 1
  | .env => True

instance decidableResetCall (c : LeaseConfig (Fin 2)) (label : ThreadLabel (Fin 2) Act) :
    Decidable (ResetCall c label) :=
  match label with
  | .thread t a => inferInstanceAs (Decidable (LeaseCall c (.thread t a) ∨ a.choice = .reset ∧ t = 1))
  | .env => isTrue trivial

/-- **A handle retained during a reset is wiped.**  Context 1 finds the open counter
at 0; context 0 retains a handle, heartbeat and all; the next step of context 1
zeroes the first word of the file's metadata. -/
theorem retain_during_reset :
    ∃ c label c', Reach twoContexts.system ResetCall c ∧ FreshHolder twoContexts c 0
      ∧ c.shared.fileMeta 0 0 = 7 ∧ twoContexts.system.next c label c'
      ∧ c'.shared.fileMeta 0 0 = 0 := by
  obtain ⟨c, hc, h⟩ := (twoStart_reach ResetCall).exists_of_commands
    (exec_next twoContexts ResetCall) (call 1 .reset 33 ++ call 0 .retain 14)
    (fun c => decide ((0 < (c.threads 0).retainedHandleCount
      ∧ ∃ lease, (c.threads 0).lease = some lease
        ∧ (owner c lease.slotIndex = lease.ownerId ∨ owner c lease.slotIndex = -lease.ownerId)
        ∧ isStale twoContexts.staleMs (heartbeat c.shared lease.slotIndex) c.shared.clockMs = false)
      ∧ c.shared.fileMeta 0 0 = 7
      ∧ (exec twoContexts ResetCall c (.context 1 .step)).any
          (fun c' => c'.shared.fileMeta 0 0 = 0) = true)) (by decide)
  obtain ⟨hfresh, hmeta, hnext⟩ := of_decide_eq_true h
  obtain ⟨c', hexec, hzero⟩ := (Option.any_eq_true _ _).mp hnext
  obtain ⟨label, -, hstep⟩ := exec_next twoContexts ResetCall c _ c' hexec
  exact ⟨c, label, c', hc, hfresh, hmeta, hstep, of_decide_eq_true hzero⟩

end MemoryWriteAhead.Lease
