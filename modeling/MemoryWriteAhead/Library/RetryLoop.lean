/-
  MemoryWriteAhead.Library.RetryLoop
  ──────────────────────────────────
  **COMPARE-AND-EXCHANGE LOOPS ON ONE WORD.**

  Any number of threads call routines on one word.  A `CasLoop` loads the word,
  and as long as its condition holds of the value it has seen, tries to exchange
  that value for the next one; a failed exchange is a new look at the word.
  Every look and every exchange is one step.

    • `Routine.effect` — what a call does if nobody comes in between,
    • `choose_effect` — a step that returns does all of that in one step, and a
      step that does not return leaves the word alone,
    • `Chain` — a list of calls, each of which starts from the word that the one
      before has left,
    • `chain` — in every run the completed calls, in the order of their returns,
      are such a chain from the first word to the present one.

  A call's effect is the step in which it returns, so it lies between its start
  and its end.  Nothing here names the program under verification.
-/
import MemoryWriteAhead.Library.Transition

namespace RetryLoop

open Transition

universe u v

variable {W : Type u} {R : Type v}

/-! ## §1. Routines and their effect. -/

/-- `current = load(); while (retry(current)) { … }; return ended(current)`, where
the body exchanges `current` for `next(current)` and returns `swapped(current)`, or
goes on with the value that was there instead. -/
structure CasLoop (W : Type u) (R : Type v) where
  retry : W → Bool
  next : W → W
  swapped : W → R
  ended : W → R

inductive Routine (W : Type u) (R : Type v) where
  | loop (l : CasLoop W R)
  /-- one instruction that reads and writes the word -/
  | update (next : W → W) (returned : W → R)
  /-- it returns without a look at the word -/
  | constant (r : R)

/-- The loop on a word that only it changes. -/
def CasLoop.effect (l : CasLoop W R) (x : W) : W × R :=
  if l.retry x then (l.next x, l.swapped x) else (x, l.ended x)

/-- The word and the value that an undisturbed call leaves and returns. -/
def Routine.effect : Routine W R → W → W × R
  | .loop l, x => l.effect x
  | .update next returned, x => (next x, returned x)
  | .constant r, x => (x, r)

/-! ## §2. The threads. -/

variable {Op : Type*}

inductive Pc (Op : Type*) (W : Type u) where
  | idle
  | load (op : Op)
  | swap (op : Op) (current : W)

inductive Choice (Op : Type*) where
  | call (op : Op)
  | step

/-- A choice and what it returns, if it returns. -/
structure Act (Op : Type*) (R : Type v) where
  choice : Choice Op
  outcome : Option R

/-- The word, the program counter and the value returned after a step. -/
abbrev Step (Op : Type*) (W : Type u) (R : Type v) := W × Pc Op W × Option R

/-- The loop's condition, for the value `current` just seen in the word. -/
def CasLoop.head (l : CasLoop W R) (op : Op) (current : W) : Step Op W R :=
  if l.retry current then (current, .swap op current, none)
  else (current, .idle, some (l.ended current))

variable [DecidableEq W] (routine : Op → Routine W R)

/-- One step of a thread; `none` where the choice is not open to it. -/
def choose (choice : Choice Op) (x : W) : Pc Op W → Option (Step Op W R)
  | .idle =>
      match choice with
      | .step => none
      | .call op =>
          match routine op with
          | .loop _ => some (x, .load op, none)
          | .update next returned => some (next x, .idle, some (returned x))
          | .constant r => some (x, .idle, some r)
  | .load op =>
      match choice, routine op with
      | .step, .loop l => some (l.head op x)
      | _, _ => none
  | .swap op current =>
      match choice, routine op with
      | .step, .loop l =>
          if x = current then some (l.next current, .idle, some (l.swapped current))
          else some (l.head op x)
      | _, _ => none

/-- The call that a step belongs to. -/
def callOf (choice : Choice Op) : Pc Op W → Option Op
  | .idle =>
      match choice with
      | .call op => some op
      | .step => none
  | .load op => some op
  | .swap op _ => some op

/-- An exchange is tried only with a value that met the loop's condition. -/
def Pc.Guarded : Pc Op W → Prop
  | .idle => True
  | .load _ => True
  | .swap op current => ∃ l, routine op = .loop l ∧ l.retry current = true

/-- What a step does: it returns and has the call's effect, or it goes on and leaves
the word alone. -/
inductive Effect (choice : Choice Op) (x : W) (pc : Pc Op W) : Step Op W R → Prop
  | returns {op x' r} : callOf choice pc = some op → (routine op).effect x = (x', r) →
      Effect choice x pc (x', .idle, some r)
  | goesOn {pc'} : pc'.Guarded routine → Effect choice x pc (x, pc', none)

variable {routine} {choice : Choice Op} {x : W} {pc : Pc Op W} {next : Step Op W R}

omit [DecidableEq W] in
theorem CasLoop.head_effect {op : Op} {l : CasLoop W R} (hl : routine op = .loop l)
    (hcall : callOf choice pc = some op) : Effect routine choice x pc (l.head op x) := by
  unfold CasLoop.head
  by_cases hretry : l.retry x = true
  · rw [if_pos hretry]
    exact .goesOn ⟨l, hl, hretry⟩
  · rw [if_neg hretry]
    refine .returns hcall ?_
    rw [hl]
    show l.effect x = _
    unfold CasLoop.effect
    rw [if_neg hretry]

/-- **One step.** -/
theorem choose_effect (hguard : pc.Guarded routine)
    (h : choose routine choice x pc = some next) : Effect routine choice x pc next := by
  cases pc with
  | idle =>
      cases choice with
      | step => cases h
      | call op =>
          simp only [choose] at h
          split at h
          next hop => cases h; exact .goesOn trivial
          next hop => cases h; exact .returns rfl (by rw [hop]; rfl)
          next hop => cases h; exact .returns rfl (by rw [hop]; rfl)
  | load op =>
      simp only [choose] at h
      split at h
      next hop => cases h; exact CasLoop.head_effect hop rfl
      next => cases h
  | swap op current =>
      simp only [choose] at h
      split at h
      next l hop =>
        split at h
        next hsame =>
          cases h
          subst hsame
          -- the exchange succeeds, and the value met the condition when it was seen
          obtain ⟨l', hl', hretry⟩ := hguard
          obtain rfl : l' = l := by
            rw [hop] at hl'
            exact (Routine.loop.inj hl').symm
          refine .returns rfl ?_
          rw [hop]
          show l'.effect x = _
          unfold CasLoop.effect
          rw [if_pos hretry]
        next => cases h; exact CasLoop.head_effect hop rfl
      next => cases h

/-! ## §3. The record of the completed calls. -/

variable {Tid : Type*} [DecidableEq Tid]

/-- A completed call: who made it, the word it took effect on, and its value. -/
structure Entry (Tid Op : Type*) (W : Type u) (R : Type v) where
  thread : Tid
  op : Op
  before : W
  returned : R

/-- The threads start idle on the word `x₀`; nobody else touches the word. -/
def machine (routine : Op → Routine W R) (x₀ : W) : Threads Tid W (Pc Op W) (Act Op R) where
  start x th := x = x₀ ∧ ∀ t, th t = .idle
  act _ a x pc x' pc' := choose routine a.choice x pc = some (x', pc', a.outcome)
  env _ _ := False

/-- A step that returns adds its call. -/
def note (es : List (Entry Tid Op W R)) (c : Config Tid W (Pc Op W)) :
    ThreadLabel Tid (Act Op R) → List (Entry Tid Op W R)
  | .env => es
  | .thread t a =>
      match callOf a.choice (c.threads t), a.outcome with
      | some op, some r => es ++ [⟨t, op, c.shared, r⟩]
      | _, _ => es

/-- The runs with the record of the completed calls. -/
def runs (Tid : Type*) [DecidableEq Tid] (routine : Op → Routine W R) (x₀ : W) :
    System (Config Tid W (Pc Op W) × List (Entry Tid Op W R)) (ThreadLabel Tid (Act Op R)) :=
  (machine routine x₀).system.record [] note

/-- Each call starts from the word that the call before has left; `Does op x x' r`: a
call of `op` may take the word from `x` to `x'` and return `r`. -/
def Chain (Does : Op → W → W → R → Prop) : W → List (Entry Tid Op W R) → W → Prop
  | x, [], y => x = y
  | x, e :: es, y => e.before = x ∧ ∃ x', Does e.op x x' e.returned ∧ Chain Does x' es y

section

variable {Does Does' : Op → W → W → R → Prop} {x₀ y : W} {es : List (Entry Tid Op W R)}

omit [DecidableEq W] [DecidableEq Tid] in
theorem Chain.snoc {t : Tid} {op : Op} {y' : W} {r : R} (h : Chain Does x₀ es y)
    (hdoes : Does op y y' r) : Chain Does x₀ (es ++ [⟨t, op, y, r⟩]) y' := by
  induction es generalizing x₀ with
  | nil =>
      obtain rfl : x₀ = y := h
      exact ⟨rfl, y', hdoes, rfl⟩
  | cons e es ih =>
      obtain ⟨hbefore, x', hfirst, hrest⟩ := h
      exact ⟨hbefore, x', hfirst, ih hrest⟩

omit [DecidableEq W] [DecidableEq Tid] in
theorem Chain.mono (himp : ∀ op x x' r, Does op x x' r → Does' op x x' r)
    (h : Chain Does x₀ es y) : Chain Does' x₀ es y := by
  induction es generalizing x₀ with
  | nil => exact h
  | cons e es ih =>
      obtain ⟨hbefore, x', hfirst, hrest⟩ := h
      exact ⟨hbefore, x', himp _ _ _ _ hfirst, ih hrest⟩

omit [DecidableEq W] [DecidableEq Tid] in
/-- **The rule for chains**: what the first word has and every call of the chain
passes on, with what the calls have added up to. -/
theorem Chain.accumulate {A : Type*} (Inv : A → W → Prop) (add : A → Entry Tid Op W R → A)
    {a : A} (h : Chain Does x₀ es y) (h0 : Inv a x₀)
    (hstep : ∀ b x x', ∀ e ∈ es, e.before = x → Inv b x → Does e.op x x' e.returned →
      Inv (add b e) x') :
    Inv (es.foldl add a) y := by
  induction es generalizing x₀ a with
  | nil =>
      obtain rfl : x₀ = y := h
      exact h0
  | cons e es ih =>
      obtain ⟨hbefore, x', hfirst, hrest⟩ := h
      have hnext := hstep a x₀ x' e (List.mem_cons_self ..) hbefore h0 hfirst
      exact ih hrest hnext fun b x x' f hf => hstep b x x' f (List.mem_cons_of_mem _ hf)

end

/-- A call has its routine's effect. -/
def Does (routine : Op → Routine W R) (op : Op) (x x' : W) (r : R) : Prop :=
  (routine op).effect x = (x', r)

/-- **No update is lost**: the completed calls form a chain from the first word to the
present one, each with its routine's undisturbed effect. -/
theorem chain {x₀ : W} {c : Config Tid W (Pc Op W) × List (Entry Tid Op W R)}
    (h : Reach (runs Tid routine x₀) anyStep c) :
    Chain (Does routine) x₀ c.2 c.1.shared ∧ ∀ t, (c.1.threads t).Guarded routine := by
  refine @Reach.invariant _ _ _ _ (fun c =>
    Chain (Does routine) x₀ c.2 c.1.shared ∧ ∀ t, (c.1.threads t).Guarded routine) ?_ ?_ _ h
  · rintro ⟨c, es⟩ ⟨⟨hword, hidle⟩, rfl⟩
    refine ⟨hword.symm, fun t => ?_⟩
    rw [hidle t]
    trivial
  · rintro ⟨c, es⟩ label ⟨c', es'⟩ ⟨hchain, hguard⟩ - ⟨hnext, rfl⟩
    cases hnext with
    | @thread t a x' pc' hact =>
        have heffect := choose_effect (hguard t) hact
        -- the other threads stay where they are
        have hothers (hself : pc'.Guarded routine) (u : Tid) :
            ((c.put t x' pc').threads u).Guarded routine := by
          by_cases hu : u = t
          · subst hu
            rw [Config.put_threads_self]
            exact hself
          · rw [Config.put_threads_ne c hu]
            exact hguard u
        obtain ⟨choice, outcome⟩ := a
        cases heffect with
        | @returns op _ r hcall heffect =>
            refine ⟨?_, hothers trivial⟩
            have hnote : note es c (.thread t (⟨choice, some r⟩ : Act Op R))
                = es ++ [⟨t, op, c.shared, r⟩] := by
              simp only [note, hcall]
            show Chain (Does routine) x₀ (note es c (.thread t ⟨choice, some r⟩)) x'
            rw [hnote]
            exact hchain.snoc heffect
        | goesOn hself =>
            refine ⟨?_, hothers hself⟩
            have hnote : note es c (.thread t (⟨choice, none⟩ : Act Op R)) = es := by
              simp only [note]
              split
              next hnone => cases hnone
              next => rfl
            show Chain (Does routine) x₀ (note es c (.thread t ⟨choice, none⟩)) c.shared
            rw [hnote]
            exact hchain
    | env hmoves => exact hmoves.elim

/-! ## §4. Executed runs. -/

/-- A choice of one thread, with the step it is. -/
def exec (routine : Op → Routine W R) (c : Config Tid W (Pc Op W)) (k : Tid × Choice Op) :
    Option (ThreadLabel Tid (Act Op R) × Config Tid W (Pc Op W)) :=
  (choose routine k.2 c.shared (c.threads k.1)).map fun r =>
    (.thread k.1 ⟨k.2, r.2.2⟩, c.put k.1 r.1 r.2.1)

theorem exec_next {x₀ : W} (c : Config Tid W (Pc Op W)) (k : Tid × Choice Op)
    (label : ThreadLabel Tid (Act Op R)) (c' : Config Tid W (Pc Op W))
    (h : exec routine c k = some (label, c')) : (machine routine x₀).system.next c label c' := by
  obtain ⟨⟨x, pc, outcome⟩, hchoose, hstep⟩ := Option.map_eq_some_iff.mp h
  cases hstep
  exact .thread hchoose

end RetryLoop
