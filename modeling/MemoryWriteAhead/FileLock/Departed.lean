/-
  MemoryWriteAhead.FileLock.Departed
  ──────────────────────────────────
  **A RELEASE OF THE FILE LOCK AND THE HAND-BACK OF A CLAIM.**

  An owner has DEPARTED when its release has returned and it has not started
  another acquire.  Its id comes back into the lock word by one kind of step
  only: a recovery that has claimed the word finds the heartbeat changed and
  hands the word back, after the owner's release met the claim and did
  nothing.

    • `departed_inv` — where no hand-back is late, a departed owner's id is
      not in the word, whatever the words and the clock were,
    • `departed_word_ne` — the same as the statement about releases,
    • `late_hand_back` — one late hand-back leaves the word with an owner that
      is gone.
-/
import MemoryWriteAhead.FileLock.Recovery

namespace MemoryWriteAhead.FileLock

open Transition

variable {Ctx : Type} [DecidableEq Ctx] (C : Contexts Ctx)

/-! ## §1. Departed owners. -/

/-- The owners whose release has returned since their last acquire began. -/
def noteDeparted (departed : Ctx → Bool) (c : Config Ctx Shared Local) :
    ThreadLabel Ctx Act → Ctx → Bool
  | .thread t a =>
      if a.choice = .acquire then Function.update departed t false
      else if a.choice = .step ∧ (c.threads t).pc = .releaseLock then
        Function.update departed t true
      else departed
  | .env => departed

/-- No context's id or claim is in the word. -/
def Contexts.Unmarked (s : Shared) : Prop :=
  ∀ t, s.words.lock ≠ C.ownerId t ∧ s.words.lock ≠ -C.ownerId t

def AnyClock (_ _ : Int) : Prop := True

/-- The contexts with the record of the departed. -/
abbrev Contexts.departing :
    System (Config Ctx Shared Local × (Ctx → Bool)) (ThreadLabel Ctx Act) :=
  (C.systemFrom C.Unmarked AnyClock).record (fun _ => false) noteDeparted

/-- A recovery does not hand the word back to a departed owner. -/
def NoLateHandBack (x : Config Ctx Shared Local × (Ctx → Bool)) : ThreadLabel Ctx Act → Prop
  | .thread u a =>
      match (x.1.threads u).pc with
      | .recoverHandBack _ lockState =>
          a.choice = .step → x.1.shared.words.lock = -lockState →
            ∀ t, x.2 t = true → C.ownerId t ≠ lockState
      | _ => True
  | .env => True

/-- No departed owner's id is in the word, unless a recovery is in flight. -/
def ReleaseKept (x : Config Ctx Shared Local × (Ctx → Bool)) : Prop :=
  (∀ u, (x.1.threads u).pc.recovering = false) →
    ∀ t, x.2 t = true → x.1.shared.words.lock ≠ C.ownerId t

/-! ## §2. What a recovery has claimed, and who is acquiring. -/

/-- A recovery claims a held word only. -/
def ClaimInv (l : Local) : Prop :=
  match l.pc with
  | .recoverLoadHeartbeat _ lockState | .recoverReadClock _ lockState _ => lockState ≠ 0
  | .recoverClaim _ lockState _ | .recoverRecheck _ lockState _ | .recoverHandBack _ lockState =>
      0 < lockState
  | _ => True

/-- The call is an acquire. -/
def Pc.acquiring (pc : Pc) : Prop := pc.nonHolder = true ∧ pc ≠ .releaseLock

theorem judge_claim {staleMs nowMs : Int} {caller : Caller} {lockState heartbeatMs : Int}
    {l : Local} (hlock : lockState ≠ 0) :
    ClaimInv (judge staleMs nowMs caller lockState heartbeatMs l).1 := by
  unfold judge
  cases getMemoryWriteAheadLockAgeMs heartbeatMs nowMs with
  | none =>
      simp only
      split <;> cases caller <;> trivial
  | some ageMs =>
      simp only
      split
      next => cases caller <;> trivial
      next =>
        split
        next => trivial
        next hpos =>
          show 0 < lockState
          omega

theorem runStep_claim {p : Params} {s : Shared} {l : Local} (hinv : ClaimInv l) :
    ClaimInv (runStep p s l).2.1 := by
  unfold ClaimInv at hinv
  cases hl : l.pc <;> simp only [runStep, hl]
  case idle => simp [ClaimInv, hl]
  case recoverLoadLock caller =>
    split
    next => cases caller <;> trivial
    next hlock => exact hlock
  case recoverLoadHeartbeat caller lockState =>
    rw [hl] at hinv
    exact hinv
  case recoverReadClock caller lockState heartbeatMs =>
    rw [hl] at hinv
    exact judge_claim hinv
  case recoverClaim caller lockState heartbeatMs =>
    rw [hl] at hinv
    split
    next => exact hinv
    next => cases caller <;> trivial
  case recoverRecheck caller lockState heartbeatMs =>
    rw [hl] at hinv
    split
    next => exact hinv
    next => trivial
  case recoverHandBack caller lockState => cases caller <;> trivial
  case recoverFree caller claim heartbeatMs => split <;> cases caller <;> trivial
  case recoverCount caller => cases caller <;> trivial
  all_goals first | trivial | (split <;> first | trivial | (split <;> trivial))

theorem Contexts.reach_claim {start : Shared → Prop} {moves : Int → Int → Prop}
    {ok : Config Ctx Shared Local → ThreadLabel Ctx Act → Prop} {c : Config Ctx Shared Local}
    (hc : Reach (C.systemFrom start moves) ok c) : ∀ t, ClaimInv (c.threads t) := by
  refine (Threads.reach_threadwise (G := fun _ => True) (L := fun _ _ => ClaimInv)
    ?_ ?_ ?_ hc).2
  · rintro s th ⟨-, hth⟩
    refine ⟨trivial, fun t => ?_⟩
    unfold ClaimInv
    rw [(hth t).1]
    trivial
  · rintro c t ⟨choice, outcome⟩ s' l' ⟨-, hl⟩ - hstep
    refine ⟨trivial, ?_, fun u _ => hl u⟩
    rcases choose_cases hstep with ⟨-, -, hrun⟩ | ⟨-, -, -, hstarts⟩
    · have hl' : (runStep (C.params t) c.shared (c.threads t)).2.1 = l' :=
        congrArg (fun r => r.2.1) hrun
      subst hl'
      exact runStep_claim (hl t)
    · cases hstarts <;> trivial
  · rintro c c' ⟨-, hl⟩ - ⟨nowMs, -, rfl⟩
    exact ⟨trivial, hl⟩

/-- A call that is no acquire does not become one. -/
theorem runStep_not_acquiring {p : Params} {s : Shared} {l : Local} (h : ¬l.pc.acquiring) :
    ¬(runStep p s l).2.1.pc.acquiring := by
  unfold Pc.acquiring at h ⊢
  cases hl : l.pc with
  | recoverReadClock caller lockState heartbeatMs =>
      simp only [runStep, hl, judge] at h ⊢
      cases caller with
      | acquire => simp [Pc.nonHolder] at h
      | client =>
          cases getMemoryWriteAheadLockAgeMs heartbeatMs s.clockMs with
          | none => simp only; split <;> simp [Local.goto, Local.endRecover, Pc.nonHolder]
          | some ageMs =>
              simp only
              split
              next => simp [Local.goto, Local.endRecover, Pc.nonHolder]
              next => split <;> simp [Local.goto, Pc.nonHolder]
  | recoverLoadLock caller | recoverLoadHeartbeat caller _ | recoverClaim caller _ _
  | recoverRecheck caller _ _ | recoverHandBack caller _ | recoverFree caller _ _
  | recoverCount caller =>
      cases caller with
      | acquire => simp [hl, Pc.nonHolder] at h
      | client =>
          simp only [runStep, hl]
          repeat' split
          all_goals simp [Local.goto, Local.endRecover, Pc.nonHolder]
  | idle => simp [runStep, hl]
  | releaseLock => simp [runStep, hl, Local.goto, Pc.nonHolder]
  | refreshLoadLock | refreshLoadOwner =>
      simp only [runStep, hl]
      split <;> simp [Local.goto, Local.endRefresh, Pc.nonHolder]
  | refreshReadClock => simp [runStep, hl, Local.goto, Pc.nonHolder]
  | refreshStore nowMs => simp [runStep, hl, Local.endRefresh, Pc.nonHolder]
  | acquireLoadLock | acquireReadClock | acquireStoreHeartbeat _ | acquireTakeLock
  | acquireStoreOwner | acquireReloadLock | waitLoadLock | waitSleep =>
      simp [hl, Pc.nonHolder] at h

/-! ## §3. The invariant of the departed. -/

/-- A departed owner is in no acquire and its id is not in the word. -/
def DepartedInv (x : Config Ctx Shared Local × (Ctx → Bool)) : Prop :=
  ∀ t, x.2 t = true → x.1.shared.words.lock ≠ C.ownerId t ∧ ¬(x.1.threads t).pc.acquiring

variable {C}

omit [DecidableEq Ctx] in
/-- A step does not put a departed owner's id into the word, but for a late
hand-back. -/
theorem LockStep.ne_departed {t u : Ctx} {lock lock' : Int} {l : Local}
    (hstep : LockStep (C.ownerId u) lock l.pc lock') (hclaim : ClaimInv l)
    (hne : lock ≠ C.ownerId t) (hacq : u = t → ¬l.pc.acquiring)
    (hback : ∀ caller lockState, l.pc = .recoverHandBack caller lockState → lock = -lockState →
      C.ownerId t ≠ lockState) : lock' ≠ C.ownerId t := by
  have hpos := C.owner_pos t
  unfold ClaimInv at hclaim
  cases hstep with
  | same => exact hne
  | take hpc hfree =>
      intro hsame
      have hut := C.owner_inj u t hsame
      apply hacq hut
      rw [hpc]
      exact ⟨rfl, by simp⟩
  | claim caller lockState heartbeatMs hpc hlock =>
      rw [hpc] at hclaim
      have hheld : 0 < lockState := hclaim
      omega
  | handBack caller lockState hpc hlock =>
      exact fun hsame => hback caller _ hpc hlock hsame.symm
  | free => omega
  | release => omega

theorem departed_step {c c' : Config Ctx Shared Local} {departed : Ctx → Bool}
    {label : ThreadLabel Ctx Act} (hclaim : ∀ t, ClaimInv (c.threads t))
    (hinv : DepartedInv C (c, departed)) (hok : NoLateHandBack C (c, departed) label)
    (hn : (C.systemFrom C.Unmarked AnyClock).next c label c') :
    DepartedInv C (c', noteDeparted departed c label) := by
  cases hn with
  | env hclock =>
      obtain ⟨nowMs, -, rfl⟩ := hclock
      exact hinv
  | @thread u a s' l' hstep =>
      obtain ⟨choice, outcome⟩ := a
      intro t ht
      rcases choose_cases hstep with ⟨hchoice, hbusy, hrun⟩ | ⟨rfl, -, hidle, hstarts⟩
      · -- the running call of `u` goes on
        obtain rfl : choice = .step := hchoice
        have hs' : (runStep (C.params u) c.shared (c.threads u)).1 = s' := congrArg Prod.fst hrun
        have hl' : (runStep (C.params u) c.shared (c.threads u)).2.1 = l' :=
          congrArg (fun r => r.2.1) hrun
        have hword := runStep_lock (C.params u) c.shared (c.threads u)
        rw [hs'] at hword
        by_cases hrel : (c.threads u).pc = .releaseLock ∧ u = t
        · -- the release of `t` returns: its word is 0 now or was not its own
          obtain ⟨hpc, rfl⟩ := hrel
          have hrelease : runStep (C.params u) c.shared (c.threads u)
              = ({ c.shared with words := { c.shared.words with
                  lock := if c.shared.words.lock = C.ownerId u then 0 else c.shared.words.lock } },
                (c.threads u).goto .idle, none) := by
            simp only [runStep, hpc]
            rfl
          rw [hrelease] at hs' hl'
          subst hs' hl'
          refine ⟨?_, ?_⟩
          · show (if c.shared.words.lock = C.ownerId u then 0 else c.shared.words.lock) ≠ _
            have hpos := C.owner_pos u
            split
            next => omega
            next hne => exact hne
          · rw [Config.put_threads_self]
            simp [Pc.acquiring, Local.goto, Pc.nonHolder]
        · -- `t` had departed before
          have hold : departed t = true := by
            simp only [noteDeparted] at ht
            rw [if_neg (by simp)] at ht
            by_cases hpc : (c.threads u).pc = .releaseLock
            · rw [if_pos ⟨trivial, hpc⟩] at ht
              rwa [Function.update_of_ne (fun htu => hrel ⟨hpc, htu.symm⟩)] at ht
            · rwa [if_neg (fun h => hpc h.2)] at ht
          obtain ⟨hne, hacq⟩ := hinv t hold
          refine ⟨hword.ne_departed (hclaim u) hne (fun hut => hut ▸ hacq) ?_, ?_⟩
          · intro caller lockState hpc hlock
            simp only [NoLateHandBack, hpc] at hok
            exact hok trivial hlock t hold
          · by_cases hut : t = u
            · subst hut
              rw [Config.put_threads_self, ← hl']
              exact runStep_not_acquiring hacq
            · rw [Config.put_threads_ne c hut]
              exact hacq
      · -- `u` starts a call: an acquire ends its departure
        have hold : departed t = true ∧ (u = t → choice ≠ .acquire) := by
          simp only [noteDeparted] at ht
          by_cases hacquire : choice = .acquire
          · rw [if_pos hacquire] at ht
            by_cases hut : t = u
            · subst hut
              simp at ht
            · rw [Function.update_of_ne hut] at ht
              exact ⟨ht, fun h => absurd h.symm hut⟩
          · rw [if_neg hacquire, if_neg (by rintro ⟨rfl, -⟩; cases hstarts)] at ht
            exact ⟨ht, fun _ => hacquire⟩
        obtain ⟨hne, hacq⟩ := hinv t hold.1
        refine ⟨hne, ?_⟩
        by_cases hut : t = u
        · subst hut
          rw [Config.put_threads_self]
          have hother := hold.2 rfl
          cases hstarts with
          | acquire => exact absurd rfl hother
          | refresh | recover | release => simp [Pc.acquiring, Local.goto, Pc.nonHolder]
        · rw [Config.put_threads_ne c hut]
          exact hacq

/-- **Where no hand-back is late, departed owners stay out of the word.** -/
theorem departed_inv {x : Config Ctx Shared Local × (Ctx → Bool)}
    (hx : Reach C.departing (NoLateHandBack C) x) : DepartedInv C x := by
  refine hx.record_invariant (fun c => ∀ t, ClaimInv (c.threads t)) _ ?_ ?_ ?_
  · intro y hy
    exact C.reach_claim (hy.unrecorded_any)
  · intro c _ t ht
    exact absurd ht (by simp)
  · intro c departed label c' hclaim _ hinv hok hn
    exact departed_step hclaim hinv hok hn

/-- **A release is kept**, in every run without a late hand-back. -/
theorem departed_word_ne {x : Config Ctx Shared Local × (Ctx → Bool)}
    (hx : Reach C.departing (NoLateHandBack C) x) : ReleaseKept C x :=
  fun _ t ht => (departed_inv hx t ht).1

/-! ## §4. Executed runs. -/

instance instDecidableNoLateHandBack (x : Config (Fin 3) Shared Local × (Fin 3 → Bool))
    (label : ThreadLabel (Fin 3) Act) : Decidable (NoLateHandBack threeContexts x label) := by
  cases label with
  | thread u a =>
      simp only [NoLateHandBack]
      split <;> infer_instance
  | env => exact isTrue trivial

instance instDecidableAnyClock (a b : Int) : Decidable (AnyClock a b) := isTrue trivial

theorem threeStart_departing (ok) :
    Reach threeContexts.departing ok (threeStart, fun _ => false) :=
  .init ⟨⟨by unfold Contexts.Unmarked; decide, fun _ => ⟨rfl, rfl⟩⟩, rfl⟩

/-- A recovery hands the word back while context 0 still holds it; the release
after that is kept. -/
theorem departed_word_ne_three :
    ∃ x, Reach threeContexts.departing (NoLateHandBack threeContexts) x ∧ x.2 0 = true
      ∧ x.1.shared.words.lock ≠ 1 := by
  obtain ⟨x, hx, h⟩ := (threeStart_departing (NoLateHandBack threeContexts)).exists_of_commands
    (recorded_next (NoLateHandBack threeContexts) (execFrom_next threeContexts AnyClock))
    (.context 0 .acquire :: steps 0 5 ++ .clock 7 :: .context 0 .refresh :: steps 0 3
      ++ .context 1 .recover :: steps 1 4 ++ steps 0 1 ++ steps 1 2 ++ .context 0 .release
      :: steps 0 1)
    (fun x => decide ((∀ u, (x.1.threads u).pc.recovering = false) ∧ x.2 0 = true)) (by decide)
  obtain ⟨hquiet, hgone⟩ := of_decide_eq_true h
  exact ⟨x, hx, hgone, departed_word_ne hx hquiet 0 hgone⟩

/-- **A late hand-back.**  The heartbeat of context 0 is stale while its
refresh is about to store a new one; context 1 claims the word; context 0
stores the heartbeat and releases, which does nothing to the claim; context 1
finds the heartbeat changed and hands the word back to an owner that is gone. -/
theorem late_hand_back :
    ∃ x, Reach threeContexts.departing anyStep x ∧ ¬ReleaseKept threeContexts x := by
  obtain ⟨x, hx, h⟩ := (threeStart_departing anyStep).exists_of_commands
    (recorded_next anyStep (execFrom_next threeContexts AnyClock))
    (.context 0 .acquire :: steps 0 5 ++ .clock 7 :: .context 0 .refresh :: steps 0 3
      ++ .context 1 .recover :: steps 1 4 ++ steps 0 1 ++ .context 0 .release :: steps 0 1
      ++ steps 1 2)
    (fun x => decide ((∀ u, (x.1.threads u).pc.recovering = false) ∧ x.2 0 = true
      ∧ x.1.shared.words.lock = 1)) (by decide)
  obtain ⟨hquiet, hgone, hlock⟩ := of_decide_eq_true h
  exact ⟨x, hx, fun hkept => hkept hquiet 0 hgone hlock⟩

end MemoryWriteAhead.FileLock
