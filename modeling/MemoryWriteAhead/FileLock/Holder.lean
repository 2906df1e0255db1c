/-
  MemoryWriteAhead.FileLock.Holder
  ────────────────────────────────
  **A PROMPT HOLDER KEEPS ITS FILE LOCK IN EVERY CALM RUN.**

    • `runStep_inv`, `choose_inv` — a calm step keeps the assertion of the
      context that takes it, one case for each program counter,
    • `Contexts.reach_inv` — the assertions hold in every state of a calm run,
    • `prompt_holder_keeps_lock` — the word of a prompt holder stays its id, up
      to a passing recovery claim on it,
    • `late_heartbeat_breaks_lock` — one late heartbeat store is enough to put
      two prompt holders into the critical section.
-/
import MemoryWriteAhead.FileLock.Calm
import Mathlib.Data.Fintype.Pi

namespace MemoryWriteAhead.FileLock

open Transition

variable {Ctx : Type} {C : Contexts Ctx}

/-! ## §1. A calm step of a context keeps its own assertion. -/

/-- What a holder relies on while it goes on. -/
theorem ContextInv.kept {ownerId staleMs : Int} {s : Shared} {l : Local}
    (hinv : ContextInv ownerId staleMs s l) (hp : l.Protected) (hhold : l.holding = true) :
    l.beatMs ≤ s.words.lockHeartbeatMs ∧ OwnWord ownerId s.words ∧ s.words.lockOwner = ownerId :=
  ⟨hinv.published hp, hinv.taken hp.1 (.inl hhold), hinv.owner hp.1 hhold⟩

/-- Going on to a program counter where the context is not protected. -/
theorem ContextInv.goto {ownerId staleMs : Int} {s s' : Shared} {l : Local} {pc : Pc}
    (hinv : ContextInv ownerId staleMs s l) (hclock : s'.clockMs = s.clockMs)
    (hpc : PcInv staleMs s' (l.goto pc)) (hfree : pc.nonHolder = true → l.holding = false)
    (htake : pc ≠ .acquireTakeLock) (hstore : pc ≠ .acquireStoreOwner)
    (hkeep : l.Protected → l.holding = true → l.beatMs ≤ s'.words.lockHeartbeatMs
      ∧ OwnWord ownerId s'.words ∧ s'.words.lockOwner = ownerId) :
    ContextInv ownerId staleMs s' (l.goto pc) := by
  have hprot (hp : (l.goto pc).Protected) : l.Protected ∧ l.holding = true := by
    obtain ⟨hprompt, hhold | hpcEq | hpcEq⟩ := hp
    · exact ⟨⟨hprompt, .inl hhold⟩, hhold⟩
    · exact absurd hpcEq htake
    · exact absurd hpcEq hstore
  refine ⟨hpc, hfree, ?_, ?_, ?_, ?_, ?_⟩
  · rw [hclock]; exact hinv.beat_le
  · rw [hclock]; exact hinv.prompt_beat
  · intro hp
    obtain ⟨hp, hhold⟩ := hprot hp
    exact (hkeep hp hhold).1
  · intro hprompt htaken
    rcases htaken with hhold | hpcEq
    · exact (hkeep ⟨hprompt, .inl hhold⟩ hhold).2.1
    · exact absurd hpcEq hstore
  · intro hprompt hhold
    exact (hkeep ⟨hprompt, .inl hhold⟩ hhold).2.2

/-- The same where the words stay. -/
theorem ContextInv.goto_same {ownerId staleMs : Int} {s : Shared} {l : Local} {pc : Pc}
    (hinv : ContextInv ownerId staleMs s l)
    (hpc : PcInv staleMs s (l.goto pc)) (hfree : pc.nonHolder = true → l.holding = false)
    (htake : pc ≠ .acquireTakeLock) (hstore : pc ≠ .acquireStoreOwner) :
    ContextInv ownerId staleMs s (l.goto pc) :=
  hinv.goto rfl hpc hfree htake hstore hinv.kept

theorem ContextInv.endRecover {ownerId staleMs : Int} {s s' : Shared} {l : Local}
    {caller : Caller} (hinv : ContextInv ownerId staleMs s l) (hclock : s'.clockMs = s.clockMs)
    (hfree : caller = .acquire → l.holding = false)
    (hkeep : l.Protected → l.holding = true → l.beatMs ≤ s'.words.lockHeartbeatMs
      ∧ OwnWord ownerId s'.words ∧ s'.words.lockOwner = ownerId) :
    ContextInv ownerId staleMs s' (l.endRecover caller) := by
  cases caller with
  | client => exact hinv.goto hclock trivial (by simp [Pc.nonHolder]) (by simp) (by simp) hkeep
  | acquire =>
      exact hinv.goto hclock trivial (fun _ => hfree rfl) (by simp) (by simp) hkeep

/-- The end of a refresh whose reading is newer than the last beat. -/
theorem ContextInv.endRefresh {ownerId staleMs : Int} {s s' : Shared} {l : Local} {nowMs : Int}
    (hinv : ContextInv ownerId staleMs s l) (hclock : s'.clockMs = s.clockMs)
    (hle : nowMs ≤ s.clockMs) (hge : l.beatMs ≤ nowMs)
    (hkeep : l.Protected → l.holding = true → nowMs ≤ s'.words.lockHeartbeatMs
      ∧ OwnWord ownerId s'.words ∧ s'.words.lockOwner = ownerId) :
    ContextInv ownerId staleMs s' (l.endRefresh nowMs) := by
  have hprot (hp : (l.endRefresh nowMs).Protected) : l.Protected ∧ l.holding = true := by
    obtain ⟨hprompt, hhold | hpcEq | hpcEq⟩ := hp
    · exact ⟨⟨hprompt, .inl hhold⟩, hhold⟩
    · exact absurd hpcEq (by simp [Local.endRefresh])
    · exact absurd hpcEq (by simp [Local.endRefresh])
  refine ⟨trivial, by simp [Local.endRefresh, Pc.nonHolder], ?_, ?_, ?_, ?_, ?_⟩
  · rw [hclock]; exact hle
  · intro hprompt
    have hbeat := hinv.prompt_beat hprompt
    show 1 ≤ nowMs ∧ s'.clockMs ≤ nowMs + staleMs
    omega
  · intro hp
    exact (hkeep (hprot hp).1 (hprot hp).2).1
  · intro hprompt htaken
    rcases htaken with hhold | hpcEq
    · exact (hkeep ⟨hprompt, .inl hhold⟩ hhold).2.1
    · exact absurd hpcEq (by simp [Local.endRefresh])
  · intro hprompt hhold
    exact (hkeep ⟨hprompt, .inl hhold⟩ hhold).2.2

/-- The verdict: a context goes on to a claim or to freeing one only where the
heartbeat it loaded is stale or was never written. -/
theorem judge_inv {ownerId staleMs : Int} {s : Shared} {l : Local} {caller : Caller}
    {lockState heartbeatMs : Int} (hinv : ContextInv ownerId staleMs s l)
    (hcaller : caller = .acquire → l.holding = false) (hlock : lockState ≠ 0)
    (hpast : heartbeatMs ≤ s.clockMs) :
    ContextInv ownerId staleMs s
      (judge staleMs s.clockMs caller lockState heartbeatMs l).1 := by
  unfold judge
  cases hage : getMemoryWriteAheadLockAgeMs heartbeatMs s.clockMs with
  | none =>
      have hnever : heartbeatMs ≤ 0 := getMemoryWriteAheadLockAgeMs_eq_none.mp hage
      simp only
      split
      next hneg =>
        exact hinv.goto_same ⟨hneg, fun h => by omega⟩
          (by cases caller <;> simp_all [Pc.nonHolder]) (by simp) (by simp)
      next => exact hinv.endRecover rfl hcaller hinv.kept
  | some ageMs =>
      have hpos : 0 < heartbeatMs := by
        by_contra hle
        rw [getMemoryWriteAheadLockAgeMs_eq_none.mpr (by omega)] at hage
        exact absurd hage (by simp)
      rw [getMemoryWriteAheadLockAgeMs_of_le hpos hpast] at hage
      have hageEq : s.clockMs - heartbeatMs = ageMs := Option.some.inj hage
      simp only
      split
      next => exact hinv.endRecover rfl hcaller hinv.kept
      next hstale =>
        split
        next hneg =>
          exact hinv.goto_same ⟨hneg, fun _ => by omega⟩
            (by cases caller <;> simp_all [Pc.nonHolder]) (by simp) (by simp)
        next hneg =>
          exact hinv.goto_same ⟨by omega, hpos, by omega⟩
            (by cases caller <;> simp_all [Pc.nonHolder]) (by simp) (by simp)

/-- A recovery inside an acquisition is that of a context without the lock. -/
theorem ContextInv.caller_free {ownerId staleMs : Int} {s : Shared} {l : Local} {caller : Caller}
    (hinv : ContextInv ownerId staleMs s l) (pc : Caller → Pc) (hl : l.pc = pc caller)
    (hnon : (pc .acquire).nonHolder = true) : caller = .acquire → l.holding = false := by
  rintro rfl
  exact hinv.nonHolder_free (by rw [hl]; exact hnon)

/-- The clock reading of an acquisition: from here on the context is prompt. -/
theorem ContextInv.readsClock {ownerId staleMs : Int} {s : Shared} {l : Local}
    (hs : SharedInv s) (hstale : 0 < staleMs) (hhold : l.holding = false) :
    ContextInv ownerId staleMs s
      { l with pc := .acquireStoreHeartbeat s.clockMs, beatMs := s.clockMs, prompt := true } := by
  refine ⟨rfl, fun _ => hhold, Int.le_refl _, fun _ => ⟨hs.1, ?_⟩, ?_, ?_, ?_⟩
  · show s.clockMs ≤ s.clockMs + staleMs
    omega
  · intro hp
    simp [Local.Protected, Local.Published, hhold] at hp
  · intro _ htaken
    simp [hhold] at htaken
  · intro _ hh
    simp [hhold] at hh

/-- The store of that reading. -/
theorem ContextInv.storesHeartbeat {ownerId staleMs nowMs : Int} {s : Shared} {l : Local}
    (hinv : ContextInv ownerId staleMs s l) (hhold : l.holding = false) (hnow : nowMs = l.beatMs) :
    ContextInv ownerId staleMs { s with words := { s.words with lockHeartbeatMs := nowMs } }
      (l.goto .acquireTakeLock) := by
  refine ⟨trivial, fun _ => hhold, hinv.beat_le, hinv.prompt_beat, ?_, ?_, ?_⟩
  · intro _
    show l.beatMs ≤ nowMs
    omega
  · intro _ htaken
    simp [Local.goto, hhold] at htaken
  · intro _ hh
    simp [Local.goto, hhold] at hh

/-- The exchange that takes the free lock. -/
theorem ContextInv.takesLock {ownerId staleMs : Int} {s : Shared} {l : Local}
    (hinv : ContextInv ownerId staleMs s l) (hhold : l.holding = false)
    (hl : l.pc = .acquireTakeLock) :
    ContextInv ownerId staleMs { s with words := { s.words with lock := ownerId } }
      (l.goto .acquireStoreOwner) := by
  refine ⟨trivial, fun _ => hhold, hinv.beat_le, hinv.prompt_beat, ?_, ?_, ?_⟩
  · intro hp
    exact hinv.published ⟨hp.1, .inr (.inl hl)⟩
  · intro _ _
    exact .inl rfl
  · intro _ hh
    simp [Local.goto, hhold] at hh

/-- The store of the owner word, behind which the context holds the lock. -/
theorem ContextInv.storesOwner {ownerId staleMs : Int} {s : Shared} {l : Local}
    (hinv : ContextInv ownerId staleMs s l) (hl : l.pc = .acquireStoreOwner) :
    ContextInv ownerId staleMs { s with words := { s.words with lockOwner := ownerId } }
      { l with pc := .idle, holding := true } := by
  refine ⟨trivial, by simp [Pc.nonHolder], hinv.beat_le, hinv.prompt_beat, ?_, ?_, ?_⟩
  · intro hp
    exact hinv.published ⟨hp.1, .inr (.inr hl)⟩
  · intro hprompt _
    exact hinv.taken hprompt (.inr hl)
  · intro _ _
    rfl

/-- A claim on a lock; the word of a holder stays one of its own. -/
theorem ContextInv.claims {ownerId staleMs lockState heartbeatMs : Int} {s : Shared} {l : Local}
    {caller : Caller} (hinv : ContextInv ownerId staleMs s l)
    (hcaller : caller = .acquire → l.holding = false)
    (hpc : 0 < lockState ∧ 0 < heartbeatMs ∧ heartbeatMs + staleMs < s.clockMs)
    (hlock : s.words.lock = lockState) :
    ContextInv ownerId staleMs { s with words := { s.words with lock := -lockState } }
      (l.goto (.recoverRecheck caller lockState heartbeatMs)) := by
  refine hinv.goto rfl hpc (by cases caller <;> simp_all [Pc.nonHolder])
    (by simp) (by simp) fun hp hhold => ?_
  obtain ⟨hbeat, hword, howner⟩ := hinv.kept hp hhold
  refine ⟨hbeat, ?_, howner⟩
  show -lockState = ownerId ∨ -lockState = -ownerId
  unfold OwnWord at hword
  omega

/-- The return of a claim, which may find that the word has changed. -/
theorem ContextInv.handsBack {ownerId staleMs lockState : Int} {s : Shared} {l : Local}
    {caller : Caller} (hinv : ContextInv ownerId staleMs s l)
    (hcaller : caller = .acquire → l.holding = false) :
    ContextInv ownerId staleMs
      { s with words :=
        { s.words with lock := if s.words.lock = -lockState then lockState else s.words.lock } }
      (l.endRecover caller) := by
  refine hinv.endRecover rfl hcaller fun hp hhold => ?_
  obtain ⟨hbeat, hword, howner⟩ := hinv.kept hp hhold
  refine ⟨hbeat, ?_, howner⟩
  unfold OwnWord at hword ⊢
  show (if s.words.lock = -lockState then lockState else s.words.lock) = _
    ∨ (if s.words.lock = -lockState then lockState else s.words.lock) = _
  split <;> omega

/-- A claimed lock is freed, which is not that of a protected holder: its heartbeat is
fresh. -/
theorem ContextInv.frees {ownerId staleMs claim heartbeatMs : Int} {s : Shared} {l : Local}
    {caller : Caller} (hinv : ContextInv ownerId staleMs s l) (hpos : 0 < ownerId)
    (hcaller : caller = .acquire → l.holding = false)
    (hpc : claim < 0 ∧ (0 < heartbeatMs → heartbeatMs + staleMs < s.clockMs))
    (hlock : s.words.lock = claim)
    (hcalm : l.Protected → claim = -ownerId → s.words.lockHeartbeatMs = heartbeatMs) :
    ContextInv ownerId staleMs { s with words := { s.words with lock := 0 } }
      (l.goto (.recoverCount caller)) := by
  refine hinv.goto rfl trivial (by cases caller <;> simp_all [Pc.nonHolder])
    (by simp) (by simp) fun hp hhold => ?_
  exfalso
  obtain ⟨hbeat, hword, howner⟩ := hinv.kept hp hhold
  have hprompt := hinv.prompt_beat hp.1
  have hneg : claim < 0 := hpc.1
  unfold OwnWord at hword
  have heq := hcalm hp (by omega)
  have hold := hpc.2 (by omega)
  omega

/-- **An atomic step keeps the context's own assertion**, one case for each
program counter, where the step is calm for the context itself. -/
theorem runStep_inv {t : Ctx} {s : Shared} {l : Local} (hs : SharedInv s)
    (hinv : ContextInv (C.ownerId t) C.staleMs s l)
    (hfreeCalm : ∀ caller claim heartbeatMs, l.pc = .recoverFree caller claim heartbeatMs →
      l.Protected → claim = -C.ownerId t → s.words.lock = claim →
      s.words.lockHeartbeatMs = heartbeatMs)
    (hrefreshCalm : l.pc = .refreshLoadLock → l.Protected → s.words.lock ≠ -C.ownerId t) :
    ContextInv (C.ownerId t) C.staleMs (runStep (C.params t) s l).1
      (runStep (C.params t) s l).2.1 := by
  have hpc := hinv.pc_inv
  have hacq := hinv.nonHolder_free
  unfold PcInv at hpc
  cases hl : l.pc with
  | idle => simpa [runStep, hl] using hinv
  | acquireLoadLock =>
      have hhold := hacq (by rw [hl]; rfl)
      simp only [runStep, hl]
      split
      · exact hinv.goto_same trivial (fun _ => hhold) (by simp) (by simp)
      · exact hinv.goto_same trivial (fun _ => hhold) (by simp) (by simp)
  | acquireReadClock =>
      simp only [runStep, hl]
      exact .readsClock hs C.stale_pos (hacq (by rw [hl]; rfl))
  | acquireStoreHeartbeat nowMs =>
      rw [hl] at hpc
      simp only [runStep, hl]
      exact hinv.storesHeartbeat (hacq (by rw [hl]; rfl)) hpc
  | acquireTakeLock =>
      have hhold := hacq (by rw [hl]; rfl)
      simp only [runStep, hl]
      split
      · exact hinv.takesLock hhold hl
      · exact hinv.goto_same trivial (fun _ => hhold) (by simp) (by simp)
  | acquireStoreOwner =>
      simp only [runStep, hl]
      exact hinv.storesOwner hl
  | acquireReloadLock =>
      have hhold := hacq (by rw [hl]; rfl)
      simp only [runStep, hl]
      split
      · exact hinv.goto_same trivial (fun _ => hhold) (by simp) (by simp)
      · exact hinv.goto_same trivial (fun _ => hhold) (by simp) (by simp)
  | waitLoadLock =>
      have hhold := hacq (by rw [hl]; rfl)
      simp only [runStep, hl]
      split
      · exact hinv.goto_same trivial (fun _ => hhold) (by simp) (by simp)
      · split
        · exact hinv.goto_same trivial (fun _ => hhold) (by simp) (by simp)
        · exact hinv.goto_same trivial (fun _ => hhold) (by simp) (by simp)
  | waitSleep =>
      have hhold := hacq (by rw [hl]; rfl)
      simp only [runStep, hl]
      exact hinv.goto_same trivial (fun _ => hhold) (by simp) (by simp)
  | recoverLoadLock caller =>
      have hcaller := hinv.caller_free .recoverLoadLock hl rfl
      simp only [runStep, hl]
      split
      · exact hinv.endRecover rfl hcaller hinv.kept
      next hlock =>
        exact hinv.goto_same hlock (by cases caller <;> simp_all [Pc.nonHolder])
          (by simp) (by simp)
  | recoverLoadHeartbeat caller lockState =>
      have hcaller := hinv.caller_free (.recoverLoadHeartbeat · lockState) hl rfl
      rw [hl] at hpc
      simp only [runStep, hl]
      exact hinv.goto_same ⟨hpc, hs.2⟩ (by cases caller <;> simp_all [Pc.nonHolder])
        (by simp) (by simp)
  | recoverReadClock caller lockState heartbeatMs =>
      have hcaller := hinv.caller_free (.recoverReadClock · lockState heartbeatMs) hl rfl
      rw [hl] at hpc
      simp only [runStep, hl]
      exact judge_inv hinv hcaller hpc.1 hpc.2
  | recoverClaim caller lockState heartbeatMs =>
      have hcaller := hinv.caller_free (.recoverClaim · lockState heartbeatMs) hl rfl
      rw [hl] at hpc
      simp only [runStep, hl]
      split
      next hlock => exact hinv.claims hcaller hpc hlock
      next => exact hinv.endRecover rfl hcaller hinv.kept
  | recoverRecheck caller lockState heartbeatMs =>
      have hcaller := hinv.caller_free (.recoverRecheck · lockState heartbeatMs) hl rfl
      rw [hl] at hpc
      simp only [runStep, hl]
      split
      · exact hinv.goto_same hpc.1 (by cases caller <;> simp_all [Pc.nonHolder])
          (by simp) (by simp)
      · refine hinv.goto_same ⟨by omega, fun _ => hpc.2.2⟩
          (by cases caller <;> simp_all [Pc.nonHolder]) (by simp) (by simp)
  | recoverHandBack caller lockState =>
      simp only [runStep, hl]
      exact hinv.handsBack (hinv.caller_free (.recoverHandBack · lockState) hl rfl)
  | recoverFree caller claim heartbeatMs =>
      have hcaller := hinv.caller_free (.recoverFree · claim heartbeatMs) hl rfl
      rw [hl] at hpc
      simp only [runStep, hl]
      split
      next hlock =>
        exact hinv.frees (C.owner_pos t) hcaller hpc hlock fun hp hclaim =>
          hfreeCalm caller claim heartbeatMs hl hp hclaim hlock
      next => exact hinv.endRecover rfl hcaller hinv.kept
  | recoverCount caller =>
      simp only [runStep, hl]
      exact hinv.endRecover rfl (hinv.caller_free .recoverCount hl rfl) hinv.kept
  | refreshLoadLock =>
      simp only [runStep, hl]
      split
      · exact hinv.goto_same trivial (by simp [Pc.nonHolder]) (by simp) (by simp)
      next hlock =>
        refine hinv.endRefresh rfl (Int.le_refl _) hinv.beat_le fun hp hhold => ?_
        -- the holder's word is its id, so the refresh is not skipped here
        exfalso
        have hword := hinv.taken hp.1 (.inl hhold)
        exact hword.elim hlock (hrefreshCalm hl hp)
  | refreshLoadOwner =>
      simp only [runStep, hl]
      split
      · exact hinv.goto_same trivial (by simp [Pc.nonHolder]) (by simp) (by simp)
      next howner =>
        refine hinv.endRefresh rfl (Int.le_refl _) hinv.beat_le fun hp hhold => ?_
        exact absurd (hinv.owner hp.1 hhold) howner
  | refreshReadClock =>
      simp only [runStep, hl]
      exact hinv.goto_same ⟨Int.le_refl _, hinv.beat_le⟩ (by simp [Pc.nonHolder])
        (by simp) (by simp)
  | refreshStore nowMs =>
      rw [hl] at hpc
      simp only [runStep, hl]
      refine hinv.endRefresh rfl hpc.1 hpc.2 fun hp hhold => ?_
      obtain ⟨-, hword, howner⟩ := hinv.kept hp hhold
      exact ⟨Int.le_refl _, hword, howner⟩
  | releaseLock =>
      have hhold := hacq (by rw [hl]; rfl)
      simp only [runStep, hl]
      exact hinv.goto rfl trivial (fun h => absurd h (by simp [Pc.nonHolder])) (by simp)
        (by simp) fun _ hh => absurd hh (by simp [hhold])

/-- **A context keeps its own assertion, whatever it does next.** -/
theorem choose_inv {c : Config Ctx Shared Local} {t : Ctx} {a : Act} {s' : Shared} {l' : Local}
    (hs : SharedInv c.shared)
    (hinv : ContextInv (C.ownerId t) C.staleMs c.shared (c.threads t))
    (hcalm : Calm C c (.thread t a))
    (h : choose (C.params t) a.choice c.shared (c.threads t) = some (s', l', a.outcome)) :
    ContextInv (C.ownerId t) C.staleMs s' l' := by
  rcases choose_change h with ⟨hstep, hrun⟩ | ⟨hcall, hidle, hsame⟩
  · have hcalm : CalmStep C c t := hcalm hstep
    unfold CalmStep at hcalm
    have hkeep := runStep_inv (C := C) (t := t) hs hinv ?_ ?_
    · rw [← hrun] at hkeep
      exact hkeep
    · intro caller claim heartbeatMs hpc hp hclaim hlock
      rw [hpc] at hcalm
      exact hcalm t hp hclaim hlock
    · intro hpc hp
      rw [hpc] at hcalm
      exact hcalm hp
  · subst hsame
    cases hchoice : a.choice <;> simp only [hchoice, choose] at h <;> split at h
    case step.isTrue => exact absurd hchoice hcall
    case step.isFalse => exact absurd hchoice hcall
    case acquire.isFalse => cases h
    case refresh.isFalse hbusy => exact absurd hidle hbusy
    case recover.isFalse hbusy => exact absurd hidle hbusy
    case release.isFalse hbusy => exact absurd hidle hbusy
    case acquire.isTrue hfree =>
      simp only [Option.some.injEq, Prod.mk.injEq, true_and] at h
      rw [← h.1]
      exact hinv.goto_same trivial (fun _ => hfree.2) (by simp) (by simp)
    case refresh.isTrue =>
      simp only [Option.some.injEq, Prod.mk.injEq, true_and] at h
      rw [← h.1]
      exact hinv.goto_same trivial (by simp [Pc.nonHolder]) (by simp) (by simp)
    case recover.isTrue =>
      simp only [Option.some.injEq, Prod.mk.injEq, true_and] at h
      rw [← h.1]
      exact hinv.goto_same trivial (by simp [Pc.nonHolder]) (by simp) (by simp)
    case release.isTrue =>
      simp only [Option.some.injEq, Prod.mk.injEq, true_and] at h
      rw [← h.1]
      refine ⟨trivial, fun _ => rfl, hinv.beat_le, hinv.prompt_beat, ?_, ?_, ?_⟩
      · intro hp
        simp [Local.Protected, Local.Published] at hp
      · intro _ htaken
        simp at htaken
      · intro _ hh
        simp at hh

/-! ## §2. The runs. -/

theorem SharedInv.change {ownerId : Int} {s s' : Shared} {pc : Pc} (hs : SharedInv s)
    (hchange : Change ownerId s pc s')
    (hstore : ∀ nowMs, pc = .acquireStoreHeartbeat nowMs ∨ pc = .refreshStore nowMs →
      nowMs ≤ s.clockMs) : SharedInv s' := by
  unfold SharedInv at hs ⊢
  cases hchange with
  | heartbeat nowMs hpc => exact ⟨hs.1, hstore nowMs hpc⟩
  | same | take | owner | claim | handBack | free | release | count => exact hs

/-- The clock may move on: a prompt context that is now late is prompt no more. -/
theorem ContextInv.tick {ownerId staleMs nowMs : Int} {s : Shared} {l : Local}
    (hinv : ContextInv ownerId staleMs s l) (hle : s.clockMs ≤ nowMs) :
    ContextInv ownerId staleMs { s with clockMs := nowMs }
      { l with prompt := l.prompt && decide (nowMs ≤ l.beatMs + staleMs) } := by
  have hprompt (h : (l.prompt && decide (nowMs ≤ l.beatMs + staleMs)) = true) :
      l.prompt = true ∧ nowMs ≤ l.beatMs + staleMs := by
    simpa using h
  refine ⟨?_, hinv.nonHolder_free, ?_, ?_, ?_, ?_, ?_⟩
  · have hpc : PcInv staleMs { s with clockMs := nowMs } l := hinv.pc_inv.of_clock hle
    exact hpc
  · exact Int.le_trans hinv.beat_le hle
  · intro h
    obtain ⟨hp, hfresh⟩ := hprompt h
    exact ⟨(hinv.prompt_beat hp).1, hfresh⟩
  · intro hp
    exact hinv.published ⟨(hprompt hp.1).1, hp.2⟩
  · intro h htaken
    exact hinv.taken (hprompt h).1 htaken
  · intro h hhold
    exact hinv.owner (hprompt h).1 hhold

variable [DecidableEq Ctx]

/-- **The invariant of calm runs.** -/
theorem Contexts.reach_inv {c : Config Ctx Shared Local} (hc : Reach C.system (Calm C) c) :
    Threadwise SharedInv (fun t => ContextInv (C.ownerId t) C.staleMs) c := by
  refine Threads.reach_threadwise ?_ ?_ ?_ hc
  · intro s th hstart
    obtain ⟨hclock, hpast, hidle⟩ := hstart
    refine ⟨⟨hclock, hpast⟩, fun t => ?_⟩
    obtain ⟨hpc, hhold, hprompt, hbeat⟩ := hidle t
    refine ⟨?_, fun _ => hhold, hbeat, ?_, ?_, ?_, ?_⟩
    · unfold PcInv
      rw [hpc]
      trivial
    all_goals simp [Local.Protected, hprompt]
  · intro c t a s' l' hinv hcalm hstep
    have hself := hinv.2 t
    refine ⟨?_, choose_inv hinv.1 hself hcalm hstep, fun u hu => ?_⟩
    · rcases choose_change hstep with ⟨-, hrun⟩ | ⟨-, -, hsame⟩
      · have hs' : s' = (runStep (C.params t) c.shared (c.threads t)).1 := by rw [← hrun]
        rw [hs']
        refine hinv.1.change (runStep_change (C.params t) c.shared (c.threads t))
          fun nowMs hpc => ?_
        have hknow := hself.pc_inv
        unfold PcInv at hknow
        rcases hpc with hpc | hpc <;> rw [hpc] at hknow
        · have hbeat := hself.beat_le
          have heq : nowMs = (c.threads t).beatMs := hknow
          omega
        · exact hknow.1
      · rw [hsame]
        exact hinv.1
    · rcases choose_change hstep with ⟨hchoice, hrun⟩ | ⟨-, -, hsame⟩
      · have hs' : s' = (runStep (C.params t) c.shared (c.threads t)).1 := by rw [← hrun]
        rw [hs']
        exact (hinv.2 u).frame hu hself.pc_inv (hcalm hchoice)
          (runStep_change (C.params t) c.shared (c.threads t))
      · rw [hsame]
        exact hinv.2 u
  · intro c c' hinv _ henv
    obtain ⟨nowMs, hle, rfl⟩ := henv
    refine ⟨⟨Int.le_trans hinv.1.1 hle, Int.le_trans hinv.1.2 hle⟩, fun t => ?_⟩
    exact (hinv.2 t).tick hle

/-- The acquire has returned, release has not been called, and the heartbeats
have never been more than `staleMs` apart. -/
def Local.PromptHolder (l : Local) : Prop := l.holding = true ∧ l.prompt = true

instance (l : Local) : Decidable l.PromptHolder := inferInstanceAs (Decidable (_ ∧ _))

/-- The word of a prompt holder is neither 0 nor another context's id, and two
prompt holders are one. -/
structure KeepsLock (C : Contexts Ctx) (c : Config Ctx Shared Local) : Prop where
  word : ∀ t, (c.threads t).PromptHolder →
    c.shared.words.lock ≠ 0 ∧ ∀ u, u ≠ t → c.shared.words.lock ≠ C.ownerId u
  exclusive : ∀ t u, (c.threads t).PromptHolder → (c.threads u).PromptHolder → t = u

/-- **A prompt holder keeps its lock in every calm run.** -/
theorem prompt_holder_keeps_lock {c : Config Ctx Shared Local}
    (hc : Reach C.system (Calm C) c) : KeepsLock C c := by
  have hinv := C.reach_inv hc
  have hword (t : Ctx) (ht : (c.threads t).PromptHolder) :
      OwnWord (C.ownerId t) c.shared.words := (hinv.2 t).taken ht.2 (.inl ht.1)
  unfold OwnWord at hword
  refine ⟨fun t ht => ⟨?_, fun u hu => ?_⟩, fun t u ht hu => ?_⟩
  · have hpos := C.owner_pos t
    have hown := hword t ht
    omega
  · have hpost := C.owner_pos t
    have hposu := C.owner_pos u
    have hne : C.ownerId u ≠ C.ownerId t := fun h => hu (C.owner_inj u t h)
    have hown := hword t ht
    omega
  · have hpost := C.owner_pos t
    have hposu := C.owner_pos u
    have hownt := hword t ht
    have hownu := hword u hu
    exact C.owner_inj t u (by omega)

/-! ## §3. Executed runs: a calm one, and one with a late heartbeat. -/

/-- What a run does next: a choice of one context, or the clock moves on. -/
inductive Cmd (Ctx : Type) where
  | context (t : Ctx) (choice : Choice)
  | clock (nowMs : Int)

def exec (C : Contexts Ctx) (c : Config Ctx Shared Local) :
    Cmd Ctx → Option (Config Ctx Shared Local)
  | .context t choice =>
      (choose (C.params t) choice c.shared (c.threads t)).map fun r => c.put t r.1 r.2.1
  | .clock nowMs => if c.shared.clockMs ≤ nowMs then some (tick C.staleMs nowMs c) else none

theorem exec_next (c : Config Ctx Shared Local) (k : Cmd Ctx) (c' : Config Ctx Shared Local)
    (h : exec C c k = some c') : ∃ l, anyStep c l ∧ C.system.next c l c' := by
  cases k with
  | context t choice =>
      obtain ⟨⟨s, l, o⟩, hstep, rfl⟩ := Option.map_eq_some_iff.mp h
      exact ⟨.thread t ⟨choice, o⟩, trivial, .thread hstep⟩
  | clock nowMs =>
      simp only [exec] at h
      split at h
      next hle =>
        obtain rfl := Option.some.inj h
        exact ⟨.env, trivial, .env ⟨nowMs, hle, rfl⟩⟩
      next => cases h

/-- The calm steps only. -/
def execCalm (C : Contexts Ctx) [∀ c t, Decidable (CalmStep C c t)]
    (c : Config Ctx Shared Local) : Cmd Ctx → Option (Config Ctx Shared Local)
  | .context t choice => if CalmStep C c t then exec C c (.context t choice) else none
  | .clock nowMs => exec C c (.clock nowMs)

theorem execCalm_next [∀ c t, Decidable (CalmStep C c t)] (c : Config Ctx Shared Local)
    (k : Cmd Ctx) (c' : Config Ctx Shared Local) (h : execCalm C c k = some c') :
    ∃ l, Calm C c l ∧ C.system.next c l c' := by
  cases k with
  | context t choice =>
      simp only [execCalm] at h
      split at h
      next hcalm =>
        obtain ⟨⟨s, l, o⟩, hstep, rfl⟩ := Option.map_eq_some_iff.mp h
        exact ⟨.thread t ⟨choice, o⟩, fun _ => hcalm, .thread hstep⟩
      next => cases h
  | clock nowMs =>
      simp only [execCalm, exec] at h
      split at h
      next hle =>
        obtain rfl := Option.some.inj h
        exact ⟨.env, trivial, .env ⟨nowMs, hle, rfl⟩⟩
      next => cases h

/-- Contexts 0, 1 and 2 with the owner ids 1, 2 and 3, and heartbeats that are
stale after 5 ms. -/
def threeContexts : Contexts (Fin 3) where
  ownerId t := t + 1
  owner_pos := by decide
  owner_inj := by decide
  staleMs := 5
  stale_pos := by decide
  isWorkerBlockingContext _ := true

instance (c : Config (Fin 3) Shared Local) (t : Fin 3) : Decidable (CalmStep threeContexts c t) := by
  unfold CalmStep
  split <;> infer_instance

def threeStart : Config (Fin 3) Shared Local where
  shared := ⟨⟨0, 0, 0, 0⟩, 1⟩
  threads _ := ⟨.idle, false, 1, false⟩

theorem threeStart_reach (ok) : Reach threeContexts.system ok threeStart :=
  .init ⟨by decide, by decide, fun _ => ⟨rfl, rfl, rfl, Int.le_refl 1⟩⟩

/-- A context goes on with its running call, `n` steps. -/
def steps (t : Fin 3) (n : Nat) : List (Cmd (Fin 3)) :=
  List.replicate n (.context t .step)

/-- Context 0 acquires and refreshes while context 1 tries to recover its lock:
a calm run, and context 0 keeps its word. -/
theorem prompt_holder_keeps_lock_three :
    ∃ c, Reach threeContexts.system (Calm threeContexts) c ∧ (c.threads 0).PromptHolder
      ∧ c.shared.words.lock ≠ 0 ∧ ∀ t, (c.threads t).PromptHolder → 0 = t := by
  obtain ⟨c, hc, h0⟩ := (threeStart_reach (Calm threeContexts)).exists_of_commands
    execCalm_next
    (.context 0 .acquire :: steps 0 5 ++ [.clock 4, .context 1 .recover] ++ steps 1 3
      ++ .context 0 .refresh :: steps 0 4)
    (fun c => decide (c.threads 0).PromptHolder) (by decide)
  replace h0 := of_decide_eq_true h0
  have hkeep := prompt_holder_keeps_lock hc
  exact ⟨c, hc, h0, (hkeep.word 0 h0).1, fun t ht => hkeep.exclusive 0 t h0 ht⟩

/-- **One late heartbeat store breaks the lock.**  Context 1 reads the clock at
1 for its acquire heartbeat and stalls; context 0 acquires at 10; context 1
stores its 1 over the heartbeat of context 0; context 2 finds that heartbeat
stale, recovers the lock and acquires it.  Contexts 0 and 2 are both prompt
holders now. -/
theorem late_heartbeat_breaks_lock :
    ∃ c, Reach threeContexts.system anyStep c ∧ (c.threads 0).PromptHolder
      ∧ (c.threads 2).PromptHolder ∧ c.shared.words.lock = threeContexts.ownerId 2 := by
  obtain ⟨c, hc, h⟩ := (threeStart_reach anyStep).exists_of_commands exec_next
    (.context 1 .acquire :: steps 1 2 ++ .clock 10 :: .context 0 .acquire :: steps 0 5
      ++ steps 1 1 ++ .context 2 .acquire :: steps 2 14)
    (fun c => decide ((c.threads 0).PromptHolder ∧ (c.threads 2).PromptHolder
      ∧ c.shared.words.lock = threeContexts.ownerId 2)) (by decide)
  exact ⟨c, hc, of_decide_eq_true h⟩

end MemoryWriteAhead.FileLock
