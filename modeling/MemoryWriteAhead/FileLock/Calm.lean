/-
  MemoryWriteAhead.FileLock.Calm
  ──────────────────────────────
  **THE FOUR LATE STEPS, AND WHAT THE OTHER STEPS DO TO A HOLDER.**

  A context is PROTECTED while it has been prompt and either holds the lock or
  is about to take it with its heartbeat already published.  Four kinds of late
  steps of the source can take the lock from a protected context (`CalmStep`
  names them, each as a condition on the state before the step):

    • a heartbeat read long ago is stored over a protected context's newer one,
    • a recovered acquirer stores `lockOwner` over the holder's, which switches
      the holder's refreshes off,
    • a recovery frees a claim on a verdict about a heartbeat that has been
      replaced since,
    • the holder's refresh comes while a recovery claim is on its own word, and
      is skipped.

  The rest of the module is the proof outline of the calm runs: the assertion
  of one context (`ContextInv`), the changes one atomic step can make to the
  words (`runStep_change`), and the frame lemma (`ContextInv.frame`): a calm
  step of one context leaves the assertions of the others.
-/
import MemoryWriteAhead.FileLock.Model

namespace MemoryWriteAhead.FileLock

open Transition

/-! ## §1. Protected contexts and calm steps. -/

/-- The heartbeat is published and the lock taken or about to be. -/
def Local.Published (l : Local) : Prop :=
  l.holding = true ∨ l.pc = .acquireTakeLock ∨ l.pc = .acquireStoreOwner

def Local.Protected (l : Local) : Prop := l.prompt = true ∧ l.Published

instance (l : Local) : Decidable l.Published := inferInstanceAs (Decidable (_ ∨ _))

instance (l : Local) : Decidable l.Protected := inferInstanceAs (Decidable (_ ∧ _))

variable {Ctx : Type} (C : Contexts Ctx)

/-- The next atomic step of context `t` is none of the four late ones. -/
def CalmStep (c : Config Ctx Shared Local) (t : Ctx) : Prop :=
  match (c.threads t).pc with
  | .acquireStoreHeartbeat nowMs | .refreshStore nowMs =>
      ∀ u, u ≠ t → (c.threads u).Protected → (c.threads u).beatMs ≤ nowMs
  | .acquireStoreOwner =>
      ∀ u, u ≠ t → (c.threads u).prompt = true → (c.threads u).holding = false
  | .recoverFree _ claim heartbeatMs =>
      ∀ u, (c.threads u).Protected → claim = -C.ownerId u → c.shared.words.lock = claim →
        c.shared.words.lockHeartbeatMs = heartbeatMs
  | .refreshLoadLock =>
      (c.threads t).Protected → c.shared.words.lock ≠ -C.ownerId t
  | _ => True

/-- The step condition of a calm run. -/
def Calm (c : Config Ctx Shared Local) : ThreadLabel Ctx Act → Prop
  | .thread t a => a.choice = .step → CalmStep C c t
  | .env => True

/-! ## §2. The assertions. -/

/-- Whether the call is an acquire or a release: its context is no holder. -/
@[simp] def Pc.nonHolder : Pc → Bool
  | .acquireLoadLock | .acquireReadClock | .acquireStoreHeartbeat _ | .acquireTakeLock
  | .acquireStoreOwner | .acquireReloadLock | .waitLoadLock | .waitSleep
  | .recoverLoadLock .acquire | .recoverLoadHeartbeat .acquire _
  | .recoverReadClock .acquire _ _ | .recoverClaim .acquire _ _ | .recoverRecheck .acquire _ _
  | .recoverHandBack .acquire _ | .recoverFree .acquire _ _ | .recoverCount .acquire
  | .releaseLock => true
  | _ => false

/-- What a context knows from its earlier steps, by its program counter. -/
def PcInv (staleMs : Int) (s : Shared) (l : Local) : Prop :=
  match l.pc with
  | .acquireStoreHeartbeat nowMs => nowMs = l.beatMs
  | .refreshStore nowMs => nowMs ≤ s.clockMs ∧ l.beatMs ≤ nowMs
  | .recoverLoadHeartbeat _ lockState => lockState ≠ 0
  | .recoverReadClock _ lockState heartbeatMs => lockState ≠ 0 ∧ heartbeatMs ≤ s.clockMs
  | .recoverClaim _ lockState heartbeatMs | .recoverRecheck _ lockState heartbeatMs =>
      0 < lockState ∧ 0 < heartbeatMs ∧ heartbeatMs + staleMs < s.clockMs
  | .recoverHandBack _ lockState => 0 < lockState
  | .recoverFree _ claim heartbeatMs =>
      claim < 0 ∧ (0 < heartbeatMs → heartbeatMs + staleMs < s.clockMs)
  | _ => True

/-- The word is the context's id or a recovery claim on it. -/
def OwnWord (ownerId : Int) (w : Words) : Prop := w.lock = ownerId ∨ w.lock = -ownerId

/-- The local assertion of one context. -/
structure ContextInv (ownerId staleMs : Int) (s : Shared) (l : Local) : Prop where
  pc_inv : PcInv staleMs s l
  nonHolder_free : l.pc.nonHolder = true → l.holding = false
  beat_le : l.beatMs ≤ s.clockMs
  prompt_beat : l.prompt = true → 1 ≤ l.beatMs ∧ s.clockMs ≤ l.beatMs + staleMs
  published : l.Protected → l.beatMs ≤ s.words.lockHeartbeatMs
  taken : l.prompt = true → (l.holding = true ∨ l.pc = .acquireStoreOwner) →
    OwnWord ownerId s.words
  owner : l.prompt = true → l.holding = true → s.words.lockOwner = ownerId

/-- The global assertion. -/
def SharedInv (s : Shared) : Prop := 1 ≤ s.clockMs ∧ s.words.lockHeartbeatMs ≤ s.clockMs

/-! ## §3. What one step does to the words. -/

/-- The changes an atomic step can make, each with the program counter and the
word it needs. -/
inductive Change (ownerId : Int) (s : Shared) (pc : Pc) : Shared → Prop
  | same : Change ownerId s pc s
  | heartbeat (nowMs : Int) : pc = .acquireStoreHeartbeat nowMs ∨ pc = .refreshStore nowMs →
      Change ownerId s pc { s with words := { s.words with lockHeartbeatMs := nowMs } }
  | take : s.words.lock = 0 →
      Change ownerId s pc { s with words := { s.words with lock := ownerId } }
  | owner : pc = .acquireStoreOwner →
      Change ownerId s pc { s with words := { s.words with lockOwner := ownerId } }
  | claim (caller : Caller) (lockState heartbeatMs : Int) :
      pc = .recoverClaim caller lockState heartbeatMs → s.words.lock = lockState →
      Change ownerId s pc { s with words := { s.words with lock := -lockState } }
  | handBack (caller : Caller) (lockState : Int) :
      pc = .recoverHandBack caller lockState → s.words.lock = -lockState →
      Change ownerId s pc { s with words := { s.words with lock := lockState } }
  | free (caller : Caller) (claim heartbeatMs : Int) :
      pc = .recoverFree caller claim heartbeatMs → s.words.lock = claim →
      Change ownerId s pc { s with words := { s.words with lock := 0 } }
  | release : s.words.lock = ownerId →
      Change ownerId s pc { s with words := { s.words with lock := 0 } }
  | count (n : BitVec 32) :
      Change ownerId s pc { s with words := { s.words with recoveredAbandonedLockCount := n } }

/-- **Step lemma**: an atomic step makes one of these changes. -/
theorem runStep_change (p : Params) (s : Shared) (l : Local) :
    Change p.ownerId s l.pc (runStep p s l).1 := by
  cases hpc : l.pc <;> simp only [runStep, hpc]
  case acquireStoreHeartbeat nowMs => exact .heartbeat nowMs (.inl rfl)
  case refreshStore nowMs => exact .heartbeat nowMs (.inr rfl)
  case acquireTakeLock =>
    by_cases hfree : s.words.lock = 0
    · rw [if_pos hfree]; exact .take hfree
    · rw [if_neg hfree]; exact .same
  case acquireStoreOwner => exact .owner rfl
  case recoverClaim caller lockState heartbeatMs =>
    by_cases hlock : s.words.lock = lockState
    · rw [if_pos hlock]; exact .claim caller lockState heartbeatMs rfl hlock
    · rw [if_neg hlock]; exact .same
  case recoverHandBack caller lockState =>
    by_cases hlock : s.words.lock = -lockState
    · rw [if_pos hlock]; exact .handBack caller lockState rfl hlock
    · rw [if_neg hlock]; exact .same
  case recoverFree caller claim heartbeatMs =>
    by_cases hlock : s.words.lock = claim
    · rw [if_pos hlock]; exact .free caller claim heartbeatMs rfl hlock
    · rw [if_neg hlock]; exact .same
  case recoverCount caller => exact .count _
  case releaseLock =>
    by_cases hlock : s.words.lock = p.ownerId
    · rw [if_pos hlock]; exact .release hlock
    · rw [if_neg hlock]; exact .same
  all_goals first | exact .same | (split <;> first | exact .same | (split <;> exact .same))

/-- A call only starts: the words stay. -/
theorem choose_change {p : Params} {choice : Choice} {s s' : Shared} {l l' : Local}
    {o : Option Outcome} (h : choose p choice s l = some (s', l', o)) :
    (choice = .step ∧ (s', l', o) = runStep p s l) ∨ (choice ≠ .step ∧ l.pc = .idle ∧ s' = s) := by
  cases choice <;> simp only [choose] at h <;> split at h <;> try cases h
  case step.isFalse _ => exact .inl ⟨rfl, (Option.some.inj h).symm⟩
  case acquire.isTrue.refl hidle => exact .inr ⟨by simp, hidle.1, rfl⟩
  all_goals exact .inr ⟨by simp, ‹_›, rfl⟩

/-! ## §4. A step of one context leaves the assertions of the others. -/

variable {C}

/-- The other context's word survives: only a verdict on a heartbeat that is
still in place could free it, and a prompt context's heartbeat is fresh. -/
theorem OwnWord.frame {t u : Ctx} (htu : u ≠ t) {s s' : Shared} {lt lu : Local}
    (hpc : PcInv C.staleMs s lt) (hchange : Change (C.ownerId t) s lt.pc s')
    (hcalm : ∀ caller claim heartbeatMs, lt.pc = .recoverFree caller claim heartbeatMs →
      claim = -C.ownerId u → s.words.lock = claim → s.words.lockHeartbeatMs = heartbeatMs)
    (hbeat : 1 ≤ lu.beatMs ∧ s.clockMs ≤ lu.beatMs + C.staleMs)
    (hpub : lu.beatMs ≤ s.words.lockHeartbeatMs)
    (hown : OwnWord (C.ownerId u) s.words) : OwnWord (C.ownerId u) s'.words := by
  have hut : C.ownerId u ≠ C.ownerId t := fun h => htu (C.owner_inj u t h)
  have hposu := C.owner_pos u
  have hpost := C.owner_pos t
  unfold OwnWord at hown ⊢
  cases hchange with
  | same => exact hown
  | heartbeat nowMs _ => exact hown
  | owner _ => exact hown
  | count n => exact hown
  | take hfree => omega
  | release hlock => omega
  | claim caller lockState heartbeatMs hpcEq hlock =>
      -- a positive word that is the holder's becomes the claim on the holder
      unfold PcInv at hpc
      rw [hpcEq] at hpc
      have hpos : 0 < lockState := hpc.1
      show -lockState = C.ownerId u ∨ -lockState = -C.ownerId u
      omega
  | handBack caller lockState hpcEq hlock =>
      unfold PcInv at hpc
      rw [hpcEq] at hpc
      have hpos : 0 < lockState := hpc
      show lockState = C.ownerId u ∨ lockState = -C.ownerId u
      omega
  | free caller claim heartbeatMs hpcEq hlock =>
      exfalso
      unfold PcInv at hpc
      rw [hpcEq] at hpc
      have hneg : claim < 0 := hpc.1
      have hclaim : claim = -C.ownerId u := by omega
      have hsame := hcalm caller claim heartbeatMs hpcEq hclaim hlock
      have hold := hpc.2 (by omega)
      omega

theorem Change.clockMs_eq {ownerId : Int} {s s' : Shared} {pc : Pc}
    (h : Change ownerId s pc s') : s'.clockMs = s.clockMs := by
  cases h <;> rfl

/-- What a context knows from its earlier steps depends on the clock only. -/
theorem PcInv.of_clock {staleMs : Int} {s s' : Shared} {l : Local} (h : PcInv staleMs s l)
    (hclock : s.clockMs ≤ s'.clockMs) : PcInv staleMs s' l := by
  unfold PcInv at h ⊢
  split at h <;> simp_all <;> omega

/-- **Frame lemma.** -/
theorem ContextInv.frame {c : Config Ctx Shared Local} {t u : Ctx} (htu : u ≠ t) {s' : Shared}
    (hpc : PcInv C.staleMs c.shared (c.threads t)) (hcalm : CalmStep C c t)
    (hchange : Change (C.ownerId t) c.shared (c.threads t).pc s')
    (hu : ContextInv (C.ownerId u) C.staleMs c.shared (c.threads u)) :
    ContextInv (C.ownerId u) C.staleMs s' (c.threads u) := by
  have hclock := hchange.clockMs_eq
  unfold CalmStep at hcalm
  refine ⟨hu.pc_inv.of_clock (by omega), hu.nonHolder_free, ?_, ?_, ?_, ?_, ?_⟩
  · rw [hclock]; exact hu.beat_le
  · rw [hclock]; exact hu.prompt_beat
  · intro hprot
    have hpub := hu.published hprot
    cases hchange with
    | heartbeat nowMs hpcEq =>
        -- a calm store is not older than what `u` has published
        rcases hpcEq with hpcEq | hpcEq <;> rw [hpcEq] at hcalm <;> exact hcalm u htu hprot
    | same | take | owner | claim | handBack | free | release | count => exact hpub
  · intro hprompt htaken
    have hprot : (c.threads u).Protected := by
      refine ⟨hprompt, ?_⟩
      rcases htaken with hhold | hstore
      · exact .inl hhold
      · exact .inr (.inr hstore)
    refine OwnWord.frame htu hpc hchange ?_ (hu.prompt_beat hprompt) (hu.published hprot)
      (hu.taken hprompt htaken)
    intro caller claim heartbeatMs hpcEq hclaim hlock
    rw [hpcEq] at hcalm
    exact hcalm u hprot hclaim hlock
  · intro hprompt hhold
    have hown := hu.owner hprompt hhold
    cases hchange with
    | owner hpcEq =>
        rw [hpcEq] at hcalm
        exact absurd hhold (by rw [hcalm u htu hprompt]; simp)
    | same | heartbeat | take | claim | handBack | free | release | count => exact hown

end MemoryWriteAhead.FileLock
