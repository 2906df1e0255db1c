/-
  MemoryWriteAhead.Library.Transition
  ───────────────────────────────────
  **LABELLED TRANSITION SYSTEMS AND INTERLEAVED THREADS.**

  A `System` has initial states and a labelled step relation.  Both kinds of
  runs carry a STEP CONDITION `ok`, a predicate on the state before a step and
  its label: a run is allowed when every one of its steps meets `ok`, and the
  unrestricted runs are those under `anyStep`.

    • `Reach`  — the states at the end of an allowed run from an initial state,
    • `Path`   — an allowed run between two given states with its labels,
    • `Reach.invariant`, `Path.invariant` — the two induction rules,
    • `System.record` — the system with a record of its run, for properties
      that look back.

  `Threads` is the special case of any number of threads over one shared
  memory, where a step is one atomic action of one thread or a step of the
  environment.  `Threads.reach_threadwise` is the Owicki–Gries rule for it: a
  global assertion and one local assertion a thread, each local assertion kept
  by its own thread and undisturbed by the others.  `Threads.mortal` lets threads
  die between any two of their actions.

  `runUntil` runs a deterministic step function alone, up to a state that stops
  it; `Leads` composes the parts of such a run.

  Nothing here names the program under verification.
-/
import Mathlib.Logic.Function.Basic

namespace Transition

/-! ## §1. Systems and their runs. -/

/-- A labelled transition system. -/
structure System (State Label : Type*) where
  init : State → Prop
  next : State → Label → State → Prop

variable {State Label : Type*}

/-- The step condition that allows everything. -/
def anyStep : State → Label → Prop := fun _ _ => True

instance instDecidableAnyStep (s : State) (l : Label) : Decidable (anyStep s l) := isTrue trivial

/-- The states at the end of a run all of whose steps meet `ok`. -/
inductive Reach (sys : System State Label) (ok : State → Label → Prop) : State → Prop
  | init {s} : sys.init s → Reach sys ok s
  | step {s l s'} : Reach sys ok s → ok s l → sys.next s l s' → Reach sys ok s'

/-- A run from `s` to `s'` with its labels, all of whose steps meet `ok`. -/
inductive Path (sys : System State Label) (ok : State → Label → Prop) :
    State → List Label → State → Prop
  | nil (s) : Path sys ok s [] s
  | snoc {s ls t l s'} : Path sys ok s ls t → ok t l → sys.next t l s' →
      Path sys ok s (ls ++ [l]) s'

variable {sys : System State Label} {ok ok' : State → Label → Prop}

/-- **The invariant rule.** -/
theorem Reach.invariant {Inv : State → Prop}
    (hinit : ∀ s, sys.init s → Inv s)
    (hstep : ∀ s l s', Inv s → ok s l → sys.next s l s' → Inv s')
    {s : State} (h : Reach sys ok s) : Inv s := by
  induction h with
  | init h0 => exact hinit _ h0
  | step _ hok hn ih => exact hstep _ _ _ ih hok hn

theorem Reach.mono (himp : ∀ s l, ok s l → ok' s l) {s : State}
    (h : Reach sys ok s) : Reach sys ok' s := by
  induction h with
  | init h0 => exact .init h0
  | step _ hok hn ih => exact .step ih (himp _ _ hok) hn

/-- **The invariant rule along a path**: `Inv` is kept by every step and
yields `P` of every label. -/
theorem Path.invariant (Inv : State → Prop) (P : Label → Prop)
    (hstep : ∀ s l s', Inv s → ok s l → sys.next s l s' → Inv s' ∧ P l)
    {s s' : State} {ls : List Label} (hp : Path sys ok s ls s') (h0 : Inv s) :
    Inv s' ∧ ∀ l ∈ ls, P l := by
  induction hp with
  | nil => exact ⟨h0, by simp⟩
  | snoc _ hok hn ih =>
      obtain ⟨hinv, hall⟩ := ih
      obtain ⟨hinv', hl⟩ := hstep _ _ _ hinv hok hn
      refine ⟨hinv', fun l hmem => ?_⟩
      rcases List.mem_append.mp hmem with hmem | hmem
      · exact hall l hmem
      · rw [List.mem_singleton.mp hmem]
        exact hl

/-- Execute a list of commands, each a step chosen by `exec`. -/
def runCommands {Cmd : Type*} (exec : State → Cmd → Option State) (s : State)
    (ks : List Cmd) : Option State :=
  ks.foldlM exec s

/-- What an executable step function reaches is reached. -/
theorem Reach.of_commands {Cmd : Type*} {exec : State → Cmd → Option State}
    (hexec : ∀ s k s', exec s k = some s' → ∃ l, ok s l ∧ sys.next s l s')
    {ks : List Cmd} {s s' : State} (h : Reach sys ok s)
    (hrun : runCommands exec s ks = some s') : Reach sys ok s' := by
  induction ks generalizing s with
  | nil =>
      obtain rfl : s = s' := by simpa [runCommands] using hrun
      exact h
  | cons k ks ih =>
      simp only [runCommands, List.foldlM_cons] at hrun
      obtain ⟨t, hk, hks⟩ := Option.bind_eq_some_iff.mp hrun
      obtain ⟨l, hok, hn⟩ := hexec s k t hk
      exact ih (h.step hok hn) hks

/-- A state with the decidable property `q` is reached by executing `ks`. -/
theorem Reach.exists_of_commands {Cmd : Type*} {exec : State → Cmd → Option State}
    (hexec : ∀ s k s', exec s k = some s' → ∃ l, ok s l ∧ sys.next s l s')
    {s : State} (h : Reach sys ok s) (ks : List Cmd) (q : State → Bool)
    (hrun : (runCommands exec s ks).any q = true) :
    ∃ s', Reach sys ok s' ∧ q s' = true := by
  obtain ⟨s', hs', hq⟩ := (Option.any_eq_true _ _).mp hrun
  exact ⟨s', h.of_commands hexec hs', hq⟩

/-- The system with a record of its run: what `note` makes of each step. -/
def System.record {Record : Type*} (sys : System State Label) (start : Record)
    (note : Record → State → Label → Record) : System (State × Record) Label where
  init x := sys.init x.1 ∧ x.2 = start
  next x l y := sys.next x.1 l y.1 ∧ y.2 = note x.2 x.1 l

/-- The recorded runs are runs. -/
theorem Reach.unrecorded {Record : Type*} {start : Record} {note : Record → State → Label → Record}
    {okRecord : State × Record → Label → Prop} (himp : ∀ x l, okRecord x l → ok x.1 l)
    {x : State × Record} (h : Reach (sys.record start note) okRecord x) : Reach sys ok x.1 := by
  induction h with
  | init h0 => exact .init h0.1
  | step _ hok hn ih => exact .step ih (himp _ _ hok) hn.1

theorem Reach.unrecorded_any {Record : Type*} {start : Record}
    {note : Record → State → Label → Record} {okRecord : State × Record → Label → Prop}
    {x : State × Record} (h : Reach (sys.record start note) okRecord x) :
    Reach sys anyStep x.1 :=
  h.unrecorded fun _ _ _ => trivial

/-- **The invariant rule for the record**, with what is known of the states. -/
theorem Reach.record_invariant {Record : Type*} {start : Record}
    {note : Record → State → Label → Record} {okRecord : State × Record → Label → Prop}
    (Known : State → Prop) (Inv : State × Record → Prop)
    (hknown : ∀ x, Reach (sys.record start note) okRecord x → Known x.1)
    (hinit : ∀ s, sys.init s → Inv (s, start))
    (hstep : ∀ s r l s', Known s → Known s' → Inv (s, r) → okRecord (s, r) l → sys.next s l s' →
      Inv (s', note r s l))
    {x : State × Record} (h : Reach (sys.record start note) okRecord x) : Inv x := by
  induction h with
  | @init x h0 =>
      obtain ⟨s, r⟩ := x
      obtain ⟨hs, rfl⟩ := h0
      exact hinit s hs
  | @step x l y hx hok hn ih =>
      have hy := hknown y (hx.step hok hn)
      obtain ⟨s, r⟩ := x
      obtain ⟨s', r'⟩ := y
      obtain ⟨hnext, rfl⟩ := hn
      exact hstep s r l s' (hknown _ hx) hy ih hok hnext

section Executed

variable {Record Cmd : Type*} {start : Record} {note : Record → State → Label → Record}
  {exec : State → Cmd → Option (Label × State)}

/-- Commands that name their step, executed without a record. -/
def unlabelled (exec : State → Cmd → Option (Label × State)) (s : State) (k : Cmd) :
    Option State :=
  (exec s k).map Prod.snd

theorem unlabelled_next (hexec : ∀ s k l s', exec s k = some (l, s') → sys.next s l s')
    (s : State) (k : Cmd) (s' : State) (h : unlabelled exec s k = some s') :
    ∃ l, anyStep s l ∧ sys.next s l s' := by
  obtain ⟨⟨l, t⟩, hrun, rfl⟩ := Option.map_eq_some_iff.mp h
  exact ⟨l, trivial, hexec s k l t hrun⟩

/-- Commands executed with the record, where the step is allowed. -/
def recorded (exec : State → Cmd → Option (Label × State))
    (note : Record → State → Label → Record) (okRecord : State × Record → Label → Prop)
    [∀ x l, Decidable (okRecord x l)] (x : State × Record) (k : Cmd) : Option (State × Record) :=
  (exec x.1 k).bind fun r =>
    if okRecord x r.1 then some (r.2, note x.2 x.1 r.1) else none

theorem recorded_next (okRecord : State × Record → Label → Prop)
    [∀ x l, Decidable (okRecord x l)]
    (hexec : ∀ s k l s', exec s k = some (l, s') → sys.next s l s')
    (x : State × Record) (k : Cmd) (y : State × Record)
    (h : recorded exec note okRecord x k = some y) :
    ∃ l, okRecord x l ∧ (sys.record start note).next x l y := by
  obtain ⟨⟨l, s'⟩, hrun, hif⟩ := Option.bind_eq_some_iff.mp h
  split at hif
  next hok =>
    obtain rfl := Option.some.inj hif
    exact ⟨l, hok, hexec _ k l s' hrun, rfl⟩
  next => cases hif

end Executed

/-! ## §2. Threads over one shared memory. -/

/-- The shared memory and the local state of every thread. -/
structure Config (Tid Shared Local : Type*) where
  shared : Shared
  threads : Tid → Local

/-- A thread takes an action, or the environment moves. -/
inductive ThreadLabel (Tid Act : Type*) where
  | thread (t : Tid) (a : Act)
  | env
  deriving DecidableEq

/-- Threads given by their atomic actions on the shared memory and their own
local state. -/
structure Threads (Tid Shared Local Act : Type*) where
  start : Shared → (Tid → Local) → Prop
  act : Tid → Act → Shared → Local → Shared → Local → Prop
  env : Config Tid Shared Local → Config Tid Shared Local → Prop

variable {Tid Shared Local Act : Type*} [DecidableEq Tid]

/-- One atomic action of thread `t` replaces the shared memory and `t`'s local
state and leaves every other thread where it is. -/
def Config.put (c : Config Tid Shared Local) (t : Tid) (sh : Shared) (l : Local) :
    Config Tid Shared Local :=
  { shared := sh, threads := Function.update c.threads t l }

@[simp] theorem Config.put_shared (c : Config Tid Shared Local) (t : Tid) (sh : Shared)
    (l : Local) : (c.put t sh l).shared = sh := rfl

@[simp] theorem Config.put_threads_self (c : Config Tid Shared Local) (t : Tid)
    (sh : Shared) (l : Local) : (c.put t sh l).threads t = l := by
  simp [Config.put]

theorem Config.put_threads_ne (c : Config Tid Shared Local) {t u : Tid} (h : u ≠ t)
    (sh : Shared) (l : Local) : (c.put t sh l).threads u = c.threads u := by
  simp [Config.put, h]

/-- The interleaving of all threads and the environment. -/
inductive Threads.Next (P : Threads Tid Shared Local Act) :
    Config Tid Shared Local → ThreadLabel Tid Act → Config Tid Shared Local → Prop
  | thread {c t a sh l} : P.act t a c.shared (c.threads t) sh l →
      Threads.Next P c (.thread t a) (c.put t sh l)
  | env {c c'} : P.env c c' → Threads.Next P c .env c'

def Threads.system (P : Threads Tid Shared Local Act) :
    System (Config Tid Shared Local) (ThreadLabel Tid Act) where
  init c := P.start c.shared c.threads
  next := P.Next

/-- A global assertion together with one local assertion a thread. -/
def Threadwise (G : Shared → Prop) (L : Tid → Shared → Local → Prop)
    (c : Config Tid Shared Local) : Prop :=
  G c.shared ∧ ∀ t, L t c.shared (c.threads t)

section OwickiGries

variable {P : Threads Tid Shared Local Act}
  {ok : Config Tid Shared Local → ThreadLabel Tid Act → Prop}
  {G : Shared → Prop} {L : Tid → Shared → Local → Prop}

/-- One step keeps a threadwise assertion when the acting thread keeps its own
part and disturbs no other. -/
theorem Threadwise.next
    (hact : ∀ c t a sh l, Threadwise G L c → ok c (.thread t a) →
      P.act t a c.shared (c.threads t) sh l →
      G sh ∧ L t sh l ∧ ∀ u, u ≠ t → L u sh (c.threads u))
    (henv : ∀ c c', Threadwise G L c → ok c .env → P.env c c' → Threadwise G L c')
    {c c' : Config Tid Shared Local} {l : ThreadLabel Tid Act}
    (hinv : Threadwise G L c) (hok : ok c l) (hn : P.Next c l c') :
    Threadwise G L c' := by
  cases hn with
  | @thread t a sh l hstep =>
      obtain ⟨hG, hself, hother⟩ := hact c t a sh l hinv hok hstep
      refine ⟨hG, fun u => ?_⟩
      by_cases hu : u = t
      · subst hu
        simpa using hself
      · rw [Config.put_threads_ne c hu]
        exact hother u hu
  | env hstep => exact henv c c' hinv hok hstep

/-- **The Owicki–Gries rule.** -/
theorem Threads.reach_threadwise
    (hstart : ∀ sh th, P.start sh th → G sh ∧ ∀ t, L t sh (th t))
    (hact : ∀ c t a sh l, Threadwise G L c → ok c (.thread t a) →
      P.act t a c.shared (c.threads t) sh l →
      G sh ∧ L t sh l ∧ ∀ u, u ≠ t → L u sh (c.threads u))
    (henv : ∀ c c', Threadwise G L c → ok c .env → P.env c c' → Threadwise G L c')
    {c : Config Tid Shared Local} (h : Reach P.system ok c) : Threadwise G L c :=
  h.invariant (fun c h0 => hstart c.shared c.threads h0)
    (fun _ _ _ hinv hok hn => hinv.next hact henv hok hn)

end OwickiGries

/-! ## §3. Threads that may die. -/

/-- A step of the threads, or the death of one of them. -/
inductive MortalLabel (Tid Act : Type*) where
  | lives (l : ThreadLabel Tid Act)
  | dies (t : Tid)

/-- The acting thread of a step is not among the dead. -/
def ThreadLabel.Alive (dead : Tid → Bool) : ThreadLabel Tid Act → Prop
  | .thread t _ => dead t = false
  | .env => True

/-- The threads with the set of those that have died: a dead thread takes no
further step, and nobody else notices its death. -/
inductive Threads.MortalNext (P : Threads Tid Shared Local Act) :
    Config Tid Shared Local × (Tid → Bool) → MortalLabel Tid Act →
    Config Tid Shared Local × (Tid → Bool) → Prop
  | lives {c dead l c'} : l.Alive dead → P.Next c l c' →
      Threads.MortalNext P (c, dead) (.lives l) (c', dead)
  | dies {c dead t} : Threads.MortalNext P (c, dead) (.dies t) (c, Function.update dead t true)

/-- Everybody is alive at the start. -/
def Threads.mortal (P : Threads Tid Shared Local Act) :
    System (Config Tid Shared Local × (Tid → Bool)) (MortalLabel Tid Act) where
  init x := P.start x.1.shared x.1.threads ∧ ∀ t, x.2 t = false
  next := P.MortalNext

/-- What a step condition of mortal threads says about the steps of the living. -/
theorem Reach.lives {P : Threads Tid Shared Local Act}
    {okMortal : Config Tid Shared Local × (Tid → Bool) → MortalLabel Tid Act → Prop}
    {ok : Config Tid Shared Local → ThreadLabel Tid Act → Prop}
    (himp : ∀ x l, okMortal x (.lives l) → ok x.1 l)
    {x : Config Tid Shared Local × (Tid → Bool)} (h : Reach P.mortal okMortal x) :
    Reach P.system ok x.1 := by
  induction h with
  | init h0 => exact .init h0.1
  | step _ hok hn ih =>
      cases hn with
      | lives _ hn => exact .step ih (himp _ _ hok) hn
      | dies => exact ih

/-- **Where the dead have stopped**: what a thread may die with, it stays dead
with. -/
theorem Threads.mortal_stopped {P : Threads Tid Shared Local Act}
    {okMortal : Config Tid Shared Local × (Tid → Bool) → MortalLabel Tid Act → Prop}
    (Stopped : Local → Prop)
    (hdies : ∀ x t, okMortal x (.dies t) → Stopped (x.1.threads t))
    (henv : ∀ c c', P.env c c' → c'.threads = c.threads)
    {x : Config Tid Shared Local × (Tid → Bool)} (h : Reach P.mortal okMortal x)
    (t : Tid) (hdead : x.2 t = true) : Stopped (x.1.threads t) := by
  induction h with
  | init h0 => exact absurd hdead (by simp [h0.2 t])
  | @step x l y _ hok hn ih =>
      cases hn with
      | @lives c dead l c' halive hn =>
          cases hn with
          | @thread u a sh l hact =>
              -- the acting thread is alive, so it is another one
              have hne : t ≠ u := by
                intro htu
                subst htu
                exact absurd (hdead.symm.trans halive) (by simp)
              rw [Config.put_threads_ne _ hne]
              exact ih hdead
          | env hmoves =>
              rw [henv _ _ hmoves]
              exact ih hdead
      | @dies c dead u =>
          by_cases htu : t = u
          · subst htu
            exact hdies (c, dead) t hok
          · exact ih (by simpa [htu] using hdead)

/-! ## §4. A deterministic program run alone. -/

section Alone

variable {step : State → State} {stop : State → Bool}

/-- Steps from a state, at least one, up to one that stops the run; `none`: it
has not come after `fuel` steps. -/
def runUntil (step : State → State) (stop : State → Bool) : Nat → State → Option State
  | 0, _ => none
  | fuel + 1, x => if stop (step x) then some (step x) else runUntil step stop fuel (step x)

/-- The fuel does not decide where a run ends. -/
theorem runUntil_unique {n m : Nat} {x y z : State} (hy : runUntil step stop n x = some y)
    (hz : runUntil step stop m x = some z) : y = z := by
  induction n generalizing m x with
  | zero => cases hy
  | succ n ih =>
      cases m with
      | zero => cases hz
      | succ m =>
          simp only [runUntil] at hy hz
          split at hy
          next hstop =>
            rw [if_pos hstop] at hz
            exact Option.some.inj (hy.symm.trans hz)
          next hgoes =>
            rw [if_neg hgoes] at hz
            exact ih hy hz

/-- The run from `x` comes to `y` without having been stopped. -/
def Leads (step : State → State) (stop : State → Bool) (x y : State) : Prop :=
  ∃ n, ∀ fuel, runUntil step stop (fuel + n) x = runUntil step stop fuel y

theorem Leads.refl (x : State) : Leads step stop x x := ⟨0, fun _ => rfl⟩

theorem Leads.trans {x y z : State} (hxy : Leads step stop x y) (hyz : Leads step stop y z) :
    Leads step stop x z := by
  obtain ⟨n, hn⟩ := hxy
  obtain ⟨m, hm⟩ := hyz
  refine ⟨m + n, fun fuel => ?_⟩
  rw [← Nat.add_assoc, hn, hm]

theorem Leads.one {x : State} (hgoes : stop (step x) = false) : Leads step stop x (step x) := by
  refine ⟨1, fun fuel => ?_⟩
  show (if stop (step x) then _ else _) = _
  rw [hgoes]
  rfl

theorem Leads.cons {x y z : State} (hstep : step x = y) (hgoes : stop y = false)
    (h : Leads step stop y z) : Leads step stop x z := by
  subst hstep
  exact (Leads.one hgoes).trans h

/-- The step that ends the run. -/
theorem Leads.ends {x y z : State} (h : Leads step stop x y) (hstep : step y = z)
    (hstop : stop z = true) : ∃ fuel, runUntil step stop fuel x = some z := by
  obtain ⟨n, hn⟩ := h
  refine ⟨1 + n, ?_⟩
  subst hstep
  rw [hn]
  simp only [runUntil, hstop, if_true]

end Alone

end Transition
