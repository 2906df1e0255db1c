/-
  MemoryWriteAhead.FileLock.Recovery
  ──────────────────────────────────
  **A FILE LOCK CAN ALWAYS BE RECOVERED.**

  The lock starts from words that are all 0 and the clock reads any
  millisecond of its range, also an earlier one (it wraps).  Any context may
  stop at any step, a recoverer too.

    • `Contexts.machineFrom` — the contexts from words and on a clock of the
      reader's choice,
    • `solo` — a call that runs alone, on any readings of the clock,
    • `solo_recover` — from a word that is not 0 and a stale heartbeat, one
      recovery alone frees the word and counts it, whatever the word is,
    • `solo_acquire` — on a free word an acquire alone returns without a wait,
    • `abandoned_lock_recoverable` — every half-finished state that the
      contexts can leave behind is one of these.
-/
import MemoryWriteAhead.FileLock.Holder

namespace MemoryWriteAhead.FileLock

open Transition

variable {Ctx : Type}

/-! ## §1. Contexts from other words and on another clock. -/

/-- The contexts from the words that `start` allows, on a clock that may go
from one reading to another where `moves` says so. -/
def Contexts.machineFrom (C : Contexts Ctx) (start : Shared → Prop) (moves : Int → Int → Prop) :
    Threads Ctx Shared Local Act where
  start s th := start s ∧ ∀ t, (th t).pc = .idle ∧ (th t).holding = false
  act := C.machine.act
  env c c' := ∃ nowMs, moves c.shared.clockMs nowMs ∧ c' = tick C.staleMs nowMs c

/-- A reading of the lock clock. -/
def IsReading (nowMs : Int) : Prop := 1 ≤ nowMs ∧ nowMs ≤ lockClockModuloMs - 1

/-- The clock may go from any reading to any other. -/
def AnyReading (_ nowMs : Int) : Prop := IsReading nowMs

instance instDecidableAnyReading (a b : Int) : Decidable (AnyReading a b) :=
  inferInstanceAs (Decidable (_ ∧ _))

/-- All words are 0 and the clock is in its range. -/
def FromZero (s : Shared) : Prop := s.words = ⟨0, 0, 0, 0⟩ ∧ IsReading s.clockMs

variable [DecidableEq Ctx]

abbrev Contexts.systemFrom (C : Contexts Ctx) (start : Shared → Prop) (moves : Int → Int → Prop) :
    System (Config Ctx Shared Local) (ThreadLabel Ctx Act) :=
  (C.machineFrom start moves).system

/-! ## §2. A call that runs alone. -/

/-- The end of a call, with the number of its waits. -/
structure CallEnd where
  shared : Shared
  caller : Local
  outcome : Option Outcome
  waitCount : Nat
  deriving DecidableEq

/-- The running call alone, up to its end; `clock n` is the reading at its
`n`-th step.  `none`: it has not ended after `fuel` steps. -/
def solo (p : Params) : Nat → (Nat → Int) → Shared → Local → Option CallEnd
  | 0, _, _, _ => none
  | fuel + 1, clock, s, l =>
      let (s', l', outcome) := runStep p { s with clockMs := clock 0 } l
      if l'.pc = .idle then some ⟨s', l', outcome, 0⟩
      else
        let waits := if l.pc = .waitSleep then 1 else 0
        (solo p fuel (fun n => clock (n + 1)) s' l').map
          fun e => { e with waitCount := e.waitCount + waits }

/-- A call from its first step to its end, alone. -/
def soloCall (p : Params) (choice : Choice) (fuel : Nat) (clock : Nat → Int) (s : Shared)
    (l : Local) : Option CallEnd :=
  (choose p choice s l).bind fun r => solo p fuel clock r.1 r.2.1

section Solo

variable {p : Params} {clock : Nat → Int} {s : Shared} {l : Local}

/-- A step that does not end the call. -/
theorem solo_succ {fuel : Nat} {s' : Shared} {l' : Local} {outcome : Option Outcome}
    (hstep : runStep p { s with clockMs := clock 0 } l = (s', l', outcome))
    (hgoes : l'.pc ≠ .idle) (hsleep : l.pc ≠ .waitSleep) :
    solo p (fuel + 1) clock s l = solo p fuel (fun n => clock (n + 1)) s' l' := by
  simp only [solo, hstep, if_neg hgoes, if_neg hsleep, Nat.add_zero]
  exact Option.map_id'

/-- The step that ends the call. -/
theorem solo_last {fuel : Nat} {s' : Shared} {l' : Local} {outcome : Option Outcome}
    (hstep : runStep p { s with clockMs := clock 0 } l = (s', l', outcome))
    (hends : l'.pc = .idle) :
    solo p (fuel + 1) clock s l = some ⟨s', l', outcome, 0⟩ := by
  simp only [solo, hstep, if_pos hends]

/-- The words after a recovery. -/
def Words.recovered (w : Words) : Words :=
  { w with lock := 0, recoveredAbandonedLockCount := w.recoveredAbandonedLockCount + 1 }

/-- Freeing a claim and counting it. -/
theorem solo_finish {claim heartbeatMs : Int} {fuel : Nat} (hlock : s.words.lock = claim)
    (hpc : l.pc = .recoverFree .client claim heartbeatMs) :
    solo p (fuel + 2) clock s l
      = some ⟨⟨s.words.recovered, clock 1⟩, l.goto .idle, some (.recoverReturned true), 0⟩ := by
  have hfree : runStep p { s with clockMs := clock 0 } l
      = (⟨{ s.words with lock := 0 }, clock 0⟩, l.goto (.recoverCount .client), none) := by
    simp only [runStep, hpc, if_pos hlock]
  rw [solo_succ hfree (by simp [Local.goto]) (by simp [hpc])]
  exact solo_last rfl rfl

/-- **One recovery alone frees a word with a stale heartbeat**, a held one or a
claim. -/
theorem solo_recover (hidle : l.pc = .idle) (hlock : s.words.lock ≠ 0)
    (hstale : ∃ ageMs, getMemoryWriteAheadLockAgeMs s.words.lockHeartbeatMs (clock 2) = some ageMs
      ∧ p.staleMs < ageMs) :
    ∃ e, soloCall p .recover 7 clock s l = some e ∧ e.outcome = some (.recoverReturned true)
      ∧ e.shared.words = s.words.recovered := by
  obtain ⟨ageMs, hage, holder⟩ := hstale
  have hload : runStep p { s with clockMs := clock 0 } (l.goto (.recoverLoadLock .client))
      = ({ s with clockMs := clock 0 },
        l.goto (.recoverLoadHeartbeat .client s.words.lock), none) := by
    show (if s.words.lock = 0 then _ else _) = _
    rw [if_neg hlock]
    rfl
  have hbeat : runStep p { s with clockMs := clock 1 }
      (l.goto (.recoverLoadHeartbeat .client s.words.lock)) = ({ s with clockMs := clock 1 },
        l.goto (.recoverReadClock .client s.words.lock s.words.lockHeartbeatMs), none) := rfl
  have hstart : soloCall p .recover 7 clock s l
      = solo p 7 clock s (l.goto (.recoverLoadLock .client)) := by
    simp only [soloCall, choose, if_pos hidle, Option.bind_some]
  rw [hstart, solo_succ hload (by simp [Local.goto]) (by simp [Local.goto]),
    solo_succ (s := { s with clockMs := clock 0 }) hbeat (by simp [Local.goto])
      (by simp [Local.goto])]
  rcases lt_or_ge s.words.lock 0 with hneg | hpos
  · -- a claim that a recoverer left behind is freed at once
    have hjudge : runStep p { s with clockMs := clock 2 }
        (l.goto (.recoverReadClock .client s.words.lock s.words.lockHeartbeatMs))
          = ({ s with clockMs := clock 2 },
            l.goto (.recoverFree .client s.words.lock s.words.lockHeartbeatMs), none) := by
      show ({ s with clockMs := clock 2 }, judge p.staleMs (clock 2) .client s.words.lock
        s.words.lockHeartbeatMs _) = _
      simp only [judge, hage, if_neg (not_le.mpr holder), if_pos hneg]
      rfl
    rw [solo_succ (s := { s with clockMs := clock 1 }) hjudge (by simp [Local.goto])
        (by simp [Local.goto]),
      solo_finish (s := { s with clockMs := clock 2 }) rfl rfl]
    exact ⟨_, rfl, rfl, rfl⟩
  · -- a held word is claimed first; the heartbeat is still the one that was judged
    have hjudge : runStep p { s with clockMs := clock 2 }
        (l.goto (.recoverReadClock .client s.words.lock s.words.lockHeartbeatMs))
          = ({ s with clockMs := clock 2 },
            l.goto (.recoverClaim .client s.words.lock s.words.lockHeartbeatMs), none) := by
      show ({ s with clockMs := clock 2 }, judge p.staleMs (clock 2) .client s.words.lock
        s.words.lockHeartbeatMs _) = _
      simp only [judge, hage, if_neg (not_le.mpr holder), if_neg (not_lt.mpr hpos)]
      rfl
    have hclaim : runStep p { s with clockMs := clock 3 }
        (l.goto (.recoverClaim .client s.words.lock s.words.lockHeartbeatMs))
          = (⟨{ s.words with lock := -s.words.lock }, clock 3⟩,
            l.goto (.recoverRecheck .client s.words.lock s.words.lockHeartbeatMs), none) := by
      show (if s.words.lock = s.words.lock then _ else _) = _
      rw [if_pos rfl]
      rfl
    have hrecheck : runStep p ⟨{ s.words with lock := -s.words.lock }, clock 4⟩
        (l.goto (.recoverRecheck .client s.words.lock s.words.lockHeartbeatMs))
          = (⟨{ s.words with lock := -s.words.lock }, clock 4⟩,
            l.goto (.recoverFree .client (-s.words.lock) s.words.lockHeartbeatMs), none) := by
      show (if s.words.lockHeartbeatMs ≠ s.words.lockHeartbeatMs then _ else _) = _
      rw [if_neg (by simp)]
      rfl
    rw [solo_succ (s := { s with clockMs := clock 1 }) hjudge (by simp [Local.goto])
        (by simp [Local.goto]),
      solo_succ (s := { s with clockMs := clock 2 }) hclaim (by simp [Local.goto])
        (by simp [Local.goto]),
      solo_succ (s := ⟨{ s.words with lock := -s.words.lock }, clock 3⟩) hrecheck
        (by simp [Local.goto]) (by simp [Local.goto]),
      solo_finish (s := ⟨{ s.words with lock := -s.words.lock }, clock 4⟩) rfl rfl]
    exact ⟨_, rfl, rfl, rfl⟩

/-- **On a free word an acquire alone returns without a wait.** -/
theorem solo_acquire (hidle : l.pc = .idle) (hfree : l.holding = false)
    (hlock : s.words.lock = 0) :
    ∃ e, soloCall p .acquire 5 clock s l = some e ∧ e.outcome = some .acquired
      ∧ e.waitCount = 0 ∧ e.shared.words.lock = p.ownerId ∧ e.caller.holding = true := by
  have hstart : soloCall p .acquire 5 clock s l = solo p 5 clock s (l.goto .acquireLoadLock) := by
    simp only [soloCall, choose, if_pos (And.intro hidle hfree), Option.bind_some]
  have hload : runStep p { s with clockMs := clock 0 } (l.goto .acquireLoadLock)
      = ({ s with clockMs := clock 0 }, l.goto .acquireReadClock, none) := by
    show (if s.words.lock = 0 then _ else _) = _
    rw [if_pos hlock]
    rfl
  have hclock : runStep p { s with clockMs := clock 1 } (l.goto .acquireReadClock)
      = ({ s with clockMs := clock 1 }, { l with
          pc := .acquireStoreHeartbeat (clock 1), beatMs := clock 1, prompt := true }, none) := rfl
  have hstore : runStep p { s with clockMs := clock 2 } { l with
        pc := .acquireStoreHeartbeat (clock 1), beatMs := clock 1, prompt := true }
      = (⟨{ s.words with lockHeartbeatMs := clock 1 }, clock 2⟩, { l with
          pc := .acquireTakeLock, beatMs := clock 1, prompt := true }, none) := rfl
  have htake : runStep p ⟨{ s.words with lockHeartbeatMs := clock 1 }, clock 3⟩ { l with
        pc := .acquireTakeLock, beatMs := clock 1, prompt := true }
      = (⟨{ s.words with lockHeartbeatMs := clock 1, lock := p.ownerId }, clock 3⟩, { l with
          pc := .acquireStoreOwner, beatMs := clock 1, prompt := true }, none) := by
    show (if s.words.lock = 0 then _ else _) = _
    rw [if_pos hlock]
    rfl
  rw [hstart, solo_succ hload (by simp [Local.goto]) (by simp [Local.goto]),
    solo_succ (s := { s with clockMs := clock 0 }) hclock (by simp) (by simp [Local.goto]),
    solo_succ (s := { s with clockMs := clock 1 }) hstore (by simp) (by simp),
    solo_succ (s := ⟨{ s.words with lockHeartbeatMs := clock 1 }, clock 2⟩) htake (by simp)
      (by simp)]
  exact ⟨_, solo_last rfl rfl, rfl, rfl, rfl, rfl⟩

end Solo

/-! ## §3. A word that is not 0 has a heartbeat. -/

/-- A recovery call is in flight, also one inside an acquire. -/
def Pc.recovering : Pc → Bool
  | .recoverLoadLock _ | .recoverLoadHeartbeat _ _ | .recoverReadClock _ _ _
  | .recoverClaim _ _ _ | .recoverRecheck _ _ _ | .recoverHandBack _ _ | .recoverFree _ _ _
  | .recoverCount _ => true
  | _ => false

/-- The readings a context has in hand, and its published heartbeat. -/
def BeatInv (s : Shared) (l : Local) : Prop :=
  match l.pc with
  | .acquireStoreHeartbeat nowMs | .refreshStore nowMs => 1 ≤ nowMs
  | .acquireTakeLock => 1 ≤ s.words.lockHeartbeatMs
  | _ => True

def BeatShared (s : Shared) : Prop :=
  1 ≤ s.clockMs ∧ (s.words.lock ≠ 0 → 1 ≤ s.words.lockHeartbeatMs)

theorem runStep_clockMs (p : Params) (s : Shared) (l : Local) :
    (runStep p s l).1.clockMs = s.clockMs :=
  (runStep_change p s l).clockMs_eq

/-- A step leaves the heartbeat or stores the reading it has in hand. -/
theorem runStep_heartbeat (p : Params) (s : Shared) (l : Local) :
    (runStep p s l).1.words.lockHeartbeatMs = s.words.lockHeartbeatMs ∨
      ∃ nowMs, (l.pc = .acquireStoreHeartbeat nowMs ∨ l.pc = .refreshStore nowMs) ∧
        (runStep p s l).1.words.lockHeartbeatMs = nowMs := by
  have hchange := runStep_change p s l
  generalize (runStep p s l).1 = s' at hchange
  cases hchange with
  | heartbeat nowMs hpc => exact .inr ⟨nowMs, hpc, rfl⟩
  | same | take | owner | claim | handBack | free | release | count => exact .inl rfl

/-- What a step does to the lock word, with the step that does it. -/
inductive LockStep (ownerId lock : Int) (pc : Pc) : Int → Prop
  | same : LockStep ownerId lock pc lock
  | take : pc = .acquireTakeLock → lock = 0 → LockStep ownerId lock pc ownerId
  | claim (caller : Caller) (lockState heartbeatMs : Int) :
      pc = .recoverClaim caller lockState heartbeatMs → lock = lockState →
      LockStep ownerId lock pc (-lockState)
  | handBack (caller : Caller) (lockState : Int) :
      pc = .recoverHandBack caller lockState → lock = -lockState →
      LockStep ownerId lock pc lockState
  | free (caller : Caller) (claim heartbeatMs : Int) :
      pc = .recoverFree caller claim heartbeatMs → lock = claim → LockStep ownerId lock pc 0
  | release : pc = .releaseLock → lock = ownerId → LockStep ownerId lock pc 0

/-- **Step lemma for the word.** -/
theorem runStep_lock (p : Params) (s : Shared) (l : Local) :
    LockStep p.ownerId s.words.lock l.pc (runStep p s l).1.words.lock := by
  cases hl : l.pc <;> simp only [runStep, hl]
  case acquireTakeLock =>
    by_cases hfree : s.words.lock = 0
    · rw [if_pos hfree]; exact .take rfl hfree
    · rw [if_neg hfree]; exact .same
  case recoverClaim caller lockState heartbeatMs =>
    by_cases hsame : s.words.lock = lockState
    · rw [if_pos hsame]; exact .claim caller lockState heartbeatMs rfl hsame
    · rw [if_neg hsame]; exact .same
  case recoverHandBack caller lockState =>
    by_cases hsame : s.words.lock = -lockState
    · rw [if_pos hsame]; exact .handBack caller lockState rfl hsame
    · rw [if_neg hsame]; exact .same
  case recoverFree caller claim heartbeatMs =>
    by_cases hsame : s.words.lock = claim
    · rw [if_pos hsame]; exact .free caller claim heartbeatMs rfl hsame
    · rw [if_neg hsame]; exact .same
  case releaseLock =>
    by_cases hsame : s.words.lock = p.ownerId
    · rw [if_pos hsame]; exact .release rfl hsame
    · rw [if_neg hsame]; exact .same
  all_goals first | exact .same | (split <;> first | exact .same | (split <;> exact .same))

/-- Only an acquire makes a free word one that is not 0. -/
theorem runStep_lock_ne {p : Params} {s : Shared} {l : Local}
    (hlock : (runStep p s l).1.words.lock ≠ 0) : s.words.lock ≠ 0 ∨ l.pc = .acquireTakeLock := by
  have hstep := runStep_lock p s l
  generalize (runStep p s l).1.words.lock = lock' at hlock hstep
  cases hstep with
  | same => exact .inl hlock
  | take hpc hfree => exact .inr hpc
  | claim caller lockState heartbeatMs hpc hsame => exact .inl (by omega)
  | handBack caller lockState hpc hsame => exact .inl (by omega)
  | free => exact absurd rfl hlock
  | release => exact absurd rfl hlock

/-- A heartbeat that has been written stays written. -/
theorem runStep_beat_pos {p : Params} {s : Shared} {l : Local} (hinv : BeatInv s l)
    (hpos : 1 ≤ s.words.lockHeartbeatMs) : 1 ≤ (runStep p s l).1.words.lockHeartbeatMs := by
  unfold BeatInv at hinv
  rcases runStep_heartbeat p s l with hsame | ⟨nowMs, hpc | hpc, hstore⟩
  · rw [hsame]
    exact hpos
  · rw [hpc] at hinv
    rw [hstore]
    exact hinv
  · rw [hpc] at hinv
    rw [hstore]
    exact hinv

theorem runStep_beatShared {p : Params} {s : Shared} {l : Local} (hs : BeatShared s)
    (hinv : BeatInv s l) : BeatShared (runStep p s l).1 := by
  refine ⟨by rw [runStep_clockMs]; exact hs.1, fun hlock => ?_⟩
  apply runStep_beat_pos hinv
  rcases runStep_lock_ne hlock with hold | hpc
  · exact hs.2 hold
  · unfold BeatInv at hinv
    rw [hpc] at hinv
    exact hinv

theorem judge_beat {staleMs nowMs : Int} {caller : Caller} {lockState heartbeatMs : Int}
    {s : Shared} {l : Local} : BeatInv s (judge staleMs nowMs caller lockState heartbeatMs l).1 := by
  unfold judge
  cases getMemoryWriteAheadLockAgeMs heartbeatMs nowMs with
  | none =>
      simp only
      split <;> cases caller <;> trivial
  | some ageMs =>
      simp only
      split
      next => cases caller <;> trivial
      next => split <;> trivial

theorem runStep_beat {p : Params} {s : Shared} {l : Local} (hs : BeatShared s)
    (hinv : BeatInv s l) : BeatInv (runStep p s l).1 (runStep p s l).2.1 := by
  unfold BeatInv at hinv
  cases hl : l.pc <;> simp only [runStep, hl]
  case idle => simp [BeatInv, hl]
  case acquireReadClock => exact hs.1
  case acquireStoreHeartbeat nowMs =>
    rw [hl] at hinv
    exact hinv
  case refreshReadClock => exact hs.1
  case recoverReadClock caller lockState heartbeatMs => exact judge_beat
  case recoverHandBack caller lockState => cases caller <;> trivial
  case recoverCount caller => cases caller <;> trivial
  case recoverLoadLock caller => split <;> cases caller <;> trivial
  case recoverClaim caller lockState heartbeatMs => split <;> cases caller <;> trivial
  case recoverFree caller claim heartbeatMs => split <;> cases caller <;> trivial
  all_goals first | trivial | (split <;> first | trivial | (split <;> trivial))

/-- The other contexts' part. -/
theorem BeatInv.frame {p : Params} {s : Shared} {l lu : Local} (hinv : BeatInv s l)
    (hu : BeatInv s lu) : BeatInv (runStep p s l).1 lu := by
  unfold BeatInv at hu ⊢
  split at hu
  · exact hu
  · exact hu
  · exact runStep_beat_pos hinv hu
  · trivial

theorem BeatInv.clock {s : Shared} {l : Local} {nowMs : Int} (h : BeatInv s l) :
    BeatInv { s with clockMs := nowMs } l := h

/-- The calls a context can start, and where they start. -/
inductive Starts (l : Local) : Choice → Local → Prop
  | acquire : l.holding = false → Starts l .acquire (l.goto .acquireLoadLock)
  | refresh : Starts l .refresh (l.goto .refreshLoadLock)
  | recover : Starts l .recover (l.goto (.recoverLoadLock .client))
  | release : Starts l .release { l with pc := .releaseLock, holding := false }

/-- A choice takes the next step of the running call or starts a call. -/
theorem choose_cases {p : Params} {choice : Choice} {s s' : Shared} {l l' : Local}
    {o : Option Outcome} (h : choose p choice s l = some (s', l', o)) :
    (choice = .step ∧ l.pc ≠ .idle ∧ runStep p s l = (s', l', o)) ∨
      (s' = s ∧ o = none ∧ l.pc = .idle ∧ Starts l choice l') := by
  cases choice <;> simp only [choose] at h <;> split at h <;> try cases h
  case step.isFalse hrun => exact .inl ⟨rfl, hrun, Option.some.inj h⟩
  case acquire.isTrue.refl hidle => exact .inr ⟨rfl, rfl, hidle.1, .acquire hidle.2⟩
  case refresh.isTrue.refl hidle => exact .inr ⟨rfl, rfl, hidle, .refresh⟩
  case recover.isTrue.refl hidle => exact .inr ⟨rfl, rfl, hidle, .recover⟩
  case release.isTrue.refl hidle => exact .inr ⟨rfl, rfl, hidle, .release⟩

/-- **A word that is not 0 has a heartbeat**, in every state the contexts reach. -/
theorem Contexts.reach_beat {C : Contexts Ctx} {moves : Int → Int → Prop}
    (hmoves : ∀ now now', moves now now' → 1 ≤ now') {c : Config Ctx Shared Local}
    {ok : Config Ctx Shared Local → ThreadLabel Ctx Act → Prop}
    (hc : Reach (C.systemFrom FromZero moves) ok c) :
    Threadwise BeatShared (fun _ => BeatInv) c := by
  refine Threads.reach_threadwise ?_ ?_ ?_ hc
  · rintro s th ⟨⟨hwords, hclock⟩, hth⟩
    refine ⟨⟨hclock.1, by simp [hwords]⟩, fun t => ?_⟩
    unfold BeatInv
    rw [(hth t).1]
    trivial
  · rintro c t ⟨choice, outcome⟩ s' l' ⟨hs, hl⟩ - hstep
    rcases choose_cases hstep with ⟨-, -, hrun⟩ | ⟨rfl, -, -, hstarts⟩
    · have hs' : (runStep (C.params t) c.shared (c.threads t)).1 = s' := congrArg Prod.fst hrun
      have hl' : (runStep (C.params t) c.shared (c.threads t)).2.1 = l' :=
        congrArg (fun r => r.2.1) hrun
      subst hs' hl'
      exact ⟨runStep_beatShared hs (hl t), runStep_beat hs (hl t),
        fun u _ => (hl t).frame (hl u)⟩
    · exact ⟨hs, by cases hstarts <;> trivial, fun u _ => hl u⟩
  · rintro c c' ⟨hs, hl⟩ - ⟨nowMs, hmove, rfl⟩
    exact ⟨⟨hmoves _ _ hmove, hs.2⟩, hl⟩

/-! ## §4. The claim of the lock protocol about abandoned locks. -/

/-- **Whatever the contexts leave behind can be recovered.**  In every state
they reach, a word that is not 0 has a heartbeat; and where nobody takes a
step any more and the heartbeat is stale, one recovery alone returns true,
frees the word and counts once, and then any owner's acquire returns without a
wait.  The recoverer `p` and the owner `p'` may be newcomers. -/
theorem abandoned_lock_recoverable {C : Contexts Ctx} {c : Config Ctx Shared Local}
    (hc : Reach (C.systemFrom FromZero AnyReading) anyStep c)
    (hlock : c.shared.words.lock ≠ 0) :
    c.shared.words.lockHeartbeatMs ≠ 0 ∧
      ∀ (p : Params) (l : Local) (clock : Nat → Int), l.pc = .idle → p.staleMs = C.staleMs →
        (∃ ageMs, getMemoryWriteAheadLockAgeMs c.shared.words.lockHeartbeatMs (clock 2)
          = some ageMs ∧ C.staleMs < ageMs) →
        ∃ e, soloCall p .recover 7 clock c.shared l = some e
          ∧ e.outcome = some (.recoverReturned true) ∧ e.shared.words.lock = 0
          ∧ e.shared.words.recoveredAbandonedLockCount
            = c.shared.words.recoveredAbandonedLockCount + 1
          ∧ ∀ (p' : Params) (l' : Local) (clock' : Nat → Int), l'.pc = .idle →
            l'.holding = false →
            ∃ e', soloCall p' .acquire 5 clock' e.shared l' = some e'
              ∧ e'.outcome = some .acquired ∧ e'.waitCount = 0
              ∧ e'.shared.words.lock = p'.ownerId := by
  have hbeat := (C.reach_beat (fun _ _ h => h.1) hc).1.2 hlock
  refine ⟨by omega, fun p l clock hidle hsame hstale => ?_⟩
  obtain ⟨e, hrun, houtcome, hwords⟩ := solo_recover hidle hlock (by rw [hsame]; exact hstale)
  have hfree : e.shared.words.lock = 0 := by rw [hwords]; rfl
  refine ⟨e, hrun, houtcome, hfree, by rw [hwords]; rfl, fun p' l' clock' hidle' hholding => ?_⟩
  obtain ⟨e', hrun', houtcome', hwait, hlock', -⟩ := solo_acquire hidle' hholding hfree
  exact ⟨e', hrun', houtcome', hwait, hlock'⟩

/-- One command of an executed run with its label, where the clock allows it. -/
def execFrom (C : Contexts Ctx) (moves : Int → Int → Prop) [∀ a b, Decidable (moves a b)]
    (c : Config Ctx Shared Local) :
    Cmd Ctx → Option (ThreadLabel Ctx Act × Config Ctx Shared Local)
  | .context t choice =>
      (choose (C.params t) choice c.shared (c.threads t)).map fun r =>
        (.thread t ⟨choice, r.2.2⟩, c.put t r.1 r.2.1)
  | .clock nowMs =>
      if moves c.shared.clockMs nowMs then some (.env, tick C.staleMs nowMs c) else none

theorem execFrom_next (C : Contexts Ctx) {start : Shared → Prop} (moves : Int → Int → Prop)
    [∀ a b, Decidable (moves a b)] (c : Config Ctx Shared Local) (k : Cmd Ctx)
    (label : ThreadLabel Ctx Act) (c' : Config Ctx Shared Local)
    (h : execFrom C moves c k = some (label, c')) : (C.systemFrom start moves).next c label c' := by
  cases k with
  | context t choice =>
      obtain ⟨⟨s, l, o⟩, hstep, hpair⟩ := Option.map_eq_some_iff.mp h
      obtain ⟨rfl, rfl⟩ := Prod.mk.inj hpair
      exact .thread hstep
  | clock nowMs =>
      simp only [execFrom] at h
      split at h
      next hmove =>
        obtain ⟨rfl, rfl⟩ := Prod.mk.inj (Option.some.inj h)
        exact .env ⟨nowMs, hmove, rfl⟩
      next => cases h

/-- Context 0 holds the lock and dies, context 1 claims it and dies too; a
newcomer recovers it. -/
theorem abandoned_lock_recoverable_claim :
    ∃ c, Reach (threeContexts.systemFrom FromZero AnyReading) anyStep c
      ∧ c.shared.words.lock = -1 ∧ ∃ e,
        soloCall ⟨9, 5, true⟩ .recover 7 (fun _ => 7) c.shared ⟨.idle, false, 7, false⟩ = some e
        ∧ e.outcome = some (.recoverReturned true) := by
  have hstart : Reach (threeContexts.systemFrom FromZero AnyReading) anyStep
      threeStart := .init ⟨⟨rfl, by decide, by decide⟩, fun _ => ⟨rfl, rfl⟩⟩
  obtain ⟨c, hc, h⟩ := hstart.exists_of_commands (unlabelled_next (execFrom_next threeContexts AnyReading))
    (.context 0 .acquire :: steps 0 5 ++ .clock 7 :: .context 1 .recover :: steps 1 4)
    (fun c => decide (c.shared.words = ⟨-1, 1, 1, 0⟩)) (by decide)
  have hwords := of_decide_eq_true h
  have hlock : c.shared.words.lock = -1 := by rw [hwords]
  obtain ⟨-, hrecover⟩ := abandoned_lock_recoverable hc (by rw [hlock]; decide)
  obtain ⟨e, hrun, houtcome, -⟩ := hrecover ⟨9, 5, true⟩ ⟨.idle, false, 7, false⟩ (fun _ => 7) rfl
    rfl ⟨6, by rw [hwords]; decide, by decide⟩
  exact ⟨c, hc, hlock, e, hrun, houtcome⟩

end MemoryWriteAhead.FileLock
