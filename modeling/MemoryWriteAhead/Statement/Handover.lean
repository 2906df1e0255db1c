/-
  MemoryWriteAhead.Statement.Handover
  ───────────────────────────────────
  **WHAT A STATEMENT LEAVES BEHIND.**

  A retry acquires its lock for a later execution, which takes it over when it
  asks for the database again.  Until then `retryResult` makes `jUnlock` skip
  the release, and an execution that stops earlier, at another database, never
  comes to it.

  Main results:
    • `Inv.step` — the invariant: what is unlocked, answered for and not left by
    a retry holds nothing,
    • `Inv.ended_released_iff` — where a statement has finally ended, its unlocked
    databases hold nothing exactly when no retry has left one of them holding,
    • `statement_releases` — the runs in which every retry is handed over.
-/
import Mathlib
import MemoryWriteAhead.Statement.Calls

namespace MemoryWriteAhead.Statement

open Transition
open Connection (LockType Rc)

/-! ## §1. The invariant. -/

variable {Db : Type} [DecidableEq Db]

/-- What holds of one database of the connection, at any time. -/
structure Kept (s : State Db) (left : Db → Bool) (d : Db) : Prop where
  /-- SQLite's lock is the file's -/
  order : s.sqliteLock d ≠ .none → (s.files d).lockState = s.sqliteLock d
  /-- a level that an unlock has left behind hides no answer -/
  settled : s.sqliteLock d = .none →
    (s.files d).lockState = .none ∨ (s.files d).unanswered = true
  waiting : ∀ op, (d, op) ∈ s.queue → op.isRetry = true
    ∧ (op ≠ .primary .upgrade → s.sqliteLock d = .none ∧ (s.files d).lockState = .none)
    ∧ (op = .primary .upgrade → (s.files d).unanswered = false)
  answered : (∀ op, (d, op) ∉ s.queue) → (s.files d).Answered
  /-- unlocked, and no answer to hand over: it holds nothing -/
  unlocked : (s.files d).unanswered = true → (s.files d).lockState = .none →
    s.owed ≠ some d → (s.files d).holds = false
  /-- an answer that left nothing: it holds nothing -/
  unasked : (s.files d).unanswered = false → (∀ op, (d, op) ∉ s.queue) → left d = false →
    (s.files d).holds = false
  left : left d = true → (s.files d).holds = true ∧ (s.files d).unanswered = false

structure Inv (x : State Db × (Db → Bool)) : Prop where
  each : ∀ d, Kept x.1 x.2 d
  /-- operations are in flight only until the next execution -/
  idle : x.1.phase = .running ∨ x.1.phase = .ended → x.1.queue = []
  paid : x.1.phase ≠ .refused → x.1.owed = none

section Steps

variable {s s' : State Db} {left left' : Db → Bool} {d : Db}

omit [DecidableEq Db] in
/-- A database that a step does not touch. -/
theorem Kept.frame (h : Kept s left d) (hfile : s'.files d = s.files d)
    (hlock : s'.sqliteLock d = s.sqliteLock d)
    (hqueue : ∀ op, (d, op) ∈ s'.queue ↔ (d, op) ∈ s.queue)
    (howed : s.owed = some d → s'.owed = some d) (hleft : left' d = left d) :
    Kept s' left' d := by
  have hidle : (∀ op, (d, op) ∉ s'.queue) → ∀ op, (d, op) ∉ s.queue :=
    fun hnone op hmem => hnone op ((hqueue op).mpr hmem)
  refine ⟨?_, ?_, fun op hmem => ?_, fun hnone => ?_, fun hans hnone hmine => ?_,
    fun hans hnone hl => ?_, fun hl => ?_⟩
  · rw [hfile, hlock]
    exact h.order
  · rw [hfile, hlock]
    exact h.settled
  · rw [hfile, hlock]
    exact h.waiting op ((hqueue op).mp hmem)
  · rw [hfile]
    exact h.answered (hidle hnone)
  · rw [hfile] at hans hnone ⊢
    exact h.unlocked hans hnone fun heq => hmine (howed heq)
  · rw [hfile] at hans ⊢
    exact h.unasked hans (hidle hnone) (hleft ▸ hl)
  · rw [hfile]
    exact h.left (hleft ▸ hl)

omit [DecidableEq Db] in
theorem Kept.requested (h : Kept s left d) {lockType : LockType}
    (horder : LockInOrder (s.sqliteLock d) lockType) : Requested (s.files d) lockType := by
  rcases horder with ⟨rfl, hnone⟩ | ⟨hlevel, hlocked, -⟩
  · exact .inl ⟨rfl, h.settled hnone⟩
  · refine .inr ⟨hlevel, ?_⟩
    rw [h.order hlocked]
    exact hlocked

theorem lockInOrder_ne_none {sqliteLock lockType : LockType}
    (h : LockInOrder sqliteLock lockType) : lockType ≠ .none := by
  rintro rfl
  rcases h with ⟨hshared, -⟩ | ⟨hlevel, -⟩
  · cases hshared
  · exact absurd hlevel (by decide)

/-- **The database of a lock call.** -/
theorem Kept.lock (h : Kept s left d) (hidle : s.queue = []) {lockType : LockType}
    (horder : LockInOrder (s.sqliteLock d) lockType)
    {x : Rc × File × Option Op} (hx : LockSpec (s.files d) lockType x) :
    Kept (s.afterLock d lockType x) (Function.update left d false) d := by
  have hne := lockInOrder_ne_none horder
  -- a request that is not the first finds the file locked
  have hfirst : lockType ≠ .shared → (s.files d).lockState ≠ .none := by
    intro hshared
    rcases h.requested horder with ⟨heq, -⟩ | ⟨-, hlocked⟩
    · exact absurd heq hshared
    · exact hlocked
  have howes : ∀ {rc : Rc}, rc ≠ .ok → (s.files d).lockState = .none →
      (if rc ≠ .ok ∧ lockType = .shared then some d else s.owed) = some d := by
    intro rc hrc hnone
    have hshared : lockType = .shared := by
      by_contra hshared
      exact hfirst hshared hnone
    rw [if_pos ⟨hrc, hshared⟩]
  cases hx with
  | @grants g hlevel hans =>
      refine ⟨fun _ => ?_, fun hnone => ?_, fun op hmem => ?_, fun _ => ?_, fun _ hnone => ?_,
        fun hno => ?_, fun hl => ?_⟩
      · simpa [State.afterLock] using hlevel
      · exact absurd (by simpa [State.afterLock] using hnone) hne
      · exact absurd hmem (by simp [State.afterLock, hidle])
      · simpa [State.afterLock] using File.answered_of_unanswered hans
      · have hnone' : g.lockState = .none := by simpa [State.afterLock] using hnone
        exact absurd (hlevel.symm.trans hnone') hne
      · simp [State.afterLock, hans] at hno
      · simp at hl
  | @refuses rc g hrc hlevel hfree hans =>
      refine ⟨fun hlocked => ?_, fun _ => ?_, fun op hmem => ?_, fun _ => ?_, fun _ hnone hmine => ?_,
        fun hno => ?_, fun hl => ?_⟩
      · have hlocked' : s.sqliteLock d ≠ .none := by simpa [State.afterLock, hrc] using hlocked
        simpa [State.afterLock, hrc] using hlevel.trans (h.order hlocked')
      · exact .inr (by simpa [State.afterLock] using hans)
      · exact absurd hmem (by simp [State.afterLock, hidle])
      · simpa [State.afterLock] using File.answered_of_unanswered hans
      · have hnone' : g.lockState = .none := by simpa [State.afterLock] using hnone
        exact absurd (howes hrc (hlevel.symm.trans hnone')) hmine
      · simp [State.afterLock, hans] at hno
      · simp at hl
  | @queues g op hlevel hfree hretry hkind hupgrade =>
      have hbusy : Rc.busy ≠ .ok := by decide
      refine ⟨fun hlocked => ?_, fun hnone => ?_, fun op' hmem => ?_, fun hnone => ?_,
        fun _ hnone hmine => ?_, fun _ hnone => ?_, fun hl => ?_⟩
      · have hlocked' : s.sqliteLock d ≠ .none := by simpa [State.afterLock] using hlocked
        simpa [State.afterLock] using hlevel.trans (h.order hlocked')
      · have hnone' : s.sqliteLock d = .none := by simpa [State.afterLock] using hnone
        have hshared : lockType = .shared := by
          rcases horder with ⟨heq, -⟩ | ⟨-, hlocked, -⟩
          · exact heq
          · exact absurd hnone' hlocked
        exact .inl (by simpa [State.afterLock] using hlevel.trans (hfree hshared))
      · obtain rfl : op' = op := by simpa [State.afterLock, hidle] using hmem
        refine ⟨hretry, fun hop => ?_, fun hop => ?_⟩
        · have hshared := hkind hop
          rcases horder with ⟨-, hnone⟩ | ⟨hlow, -⟩
          · exact ⟨by simpa [State.afterLock] using hnone,
              by simpa [State.afterLock] using hlevel.trans (hfree hshared)⟩
          · rw [hshared] at hlow
            exact absurd hlow (by decide)
        · simpa [State.afterLock] using hupgrade hop
      · exact absurd (by simp [State.afterLock]) (hnone op)
      · have hnone' : g.lockState = .none := by simpa [State.afterLock] using hnone
        exact absurd (howes hbusy (hlevel.symm.trans hnone')) hmine
      · exact absurd (by simp [State.afterLock]) (hnone op)
      · simp at hl

/-- **The database of an unlock call.** -/
theorem Kept.unlock (h : Kept s left d) {lockType : LockType} {env : Env}
    (horder : UnlockInOrder (s.sqliteLock d) lockType)
    (hrejoins : lockType = .none → ¬(s.files d).RejoinThrows env) {g : File}
    (hg : UnlockSpec env (s.files d) lockType g) : Kept (s.afterUnlock d lockType g) left d := by
  -- an operation for an unlocked file leaves SQLite only the full unlock
  have hfull : s.sqliteLock d = .none → lockType = .none := by
    intro hnone
    rcases horder with heq | ⟨-, hlocked⟩
    · exact heq
    · exact absurd hnone hlocked
  have hself : (s.afterUnlock d lockType g).files d = g := by simp [State.afterUnlock]
  have hlock : (s.afterUnlock d lockType g).sqliteLock d = lockType := by
    simp [State.afterUnlock]
  have hqueue : (s.afterUnlock d lockType g).queue = s.queue := rfl
  cases hg with
  | lowers hlevel hsame hkeeps hno =>
      refine ⟨fun _ => ?_, fun hnone => ?_, fun op hmem => ?_, fun hnone => ?_,
        fun hans hnone _ => ?_, fun hans hnone hl => ?_, fun hl => ?_⟩
      · rw [hself, hlock]
        exact hlevel
      · rw [hlock] at hnone
        rw [hself]
        exact .inl (hlevel.trans hnone)
      · obtain ⟨hretry, hkind, hupgrade⟩ := h.waiting op hmem
        refine ⟨hretry, fun hop => ?_, fun hop => ?_⟩
        · rw [hself, hlock]
          exact ⟨hfull (hkind hop).1, hlevel.trans (hfull (hkind hop).1)⟩
        · rw [hself, hsame.1]
          exact hupgrade hop
      · rw [hself]
        refine hkeeps (h.answered hnone) fun hne => ?_
        rcases horder with heq | ⟨-, hlocked⟩
        · exact absurd heq hne
        · rw [h.order hlocked]
          exact hlocked
      · rw [hself] at hans hnone
        rw [hsame.1, hno (hlevel.symm.trans hnone)] at hans
        cases hans
      · rw [hself, hsame.1] at hans
        rw [hself, hsame.2]
        exact h.unasked hans hnone hl
      · rw [hself, hsame.1, hsame.2]
        exact h.left hl
  | releases hfullUnlock hans hans' hlevel hholds =>
      refine ⟨fun hlocked => ?_, fun _ => ?_, fun op hmem => ?_, fun _ => ?_, fun _ _ _ => ?_,
        fun hno => ?_, fun hl => ?_⟩
      · rw [hlock] at hlocked
        exact absurd hfullUnlock hlocked
      · rw [hself]
        exact .inr hans'
      · obtain ⟨hretry, hkind, hupgrade⟩ := h.waiting op hmem
        refine ⟨hretry, fun hop => ?_, fun hop => ?_⟩
        · rw [hself, hlock]
          refine ⟨hfullUnlock, ?_⟩
          rcases hlevel with hnone | hsame
          · exact hnone
          · exact hsame.trans (hkind hop).2
        · exact absurd (hans.symm.trans (hupgrade hop)) (by simp)
      · rw [hself]
        exact File.answered_of_unanswered hans'
      · rw [hself]
        exact hholds
      · rw [hself, hans'] at hno
        cases hno
      · exact absurd (hans.symm.trans (h.left hl).2) (by simp)
  | throws hfullUnlock hans hthrows =>
      refine ⟨fun hlocked => ?_, fun _ => ?_, fun op hmem => ?_, fun hnone => ?_,
        fun _ hnone _ => ?_, fun hno => ?_, fun hl => ?_⟩
      · rw [hlock] at hlocked
        exact absurd hfullUnlock hlocked
      · rw [hself]
        exact .inr hans
      · obtain ⟨hretry, hkind, hupgrade⟩ := h.waiting op hmem
        refine ⟨hretry, fun hop => ?_, fun hop => ?_⟩
        · rw [hself, hlock]
          exact ⟨hfullUnlock, (hkind hop).2⟩
        · rw [hself]
          exact hupgrade hop
      · rw [hself]
        exact h.answered hnone
      · rw [hself] at hnone
        exact absurd (hthrows hnone) (hrejoins hfullUnlock)
      · rw [hself, hans] at hno
        cases hno
      · rw [hself]
        exact h.left hl

/-- **The database of a retry.** -/
theorem Kept.resume (h : Kept s left d) {op : Op} (hmem : (d, op) ∈ s.queue)
    {x : File × Option Op} (hx : ResumeSpec (s.files d) op x) :
    Kept (s.afterResume d op x)
      (if x.2 = none then Function.update left d x.1.holds else left) d := by
  obtain ⟨hretry, hkind, hupgrade⟩ := h.waiting op hmem
  have hrest : ∀ op', (d, op') ∈ s.queue.erase (d, op) → (d, op') ∈ s.queue :=
    fun op' hop => List.mem_of_mem_erase hop
  cases hx with
  | @waits again hagain hup hdown =>
      have hself : (s.afterResume d op (s.files d, some again)).files d = s.files d := by
        simp [State.afterResume]
      have hlast : (d, again) ∈ (s.afterResume d op (s.files d, some again)).queue := by
        simp [State.afterResume]
      refine ⟨?_, ?_, fun op' hop => ?_, fun hnone => absurd hlast (hnone again), ?_,
        fun _ hnone => absurd hlast (hnone again), ?_⟩
      · rw [hself]
        exact h.order
      · rw [hself]
        exact h.settled
      · rw [hself]
        rcases List.mem_append.mp hop with hold | hnew
        · exact h.waiting op' (hrest op' hold)
        · obtain rfl : op' = again := by simpa using hnew
          exact ⟨hagain, fun hne => hkind (hup hne), fun heq => hupgrade (hdown heq)⟩
      · rw [hself]
        exact h.unlocked
      · rw [hself]
        exact h.left
  | @ends g hlevel hans hanswered =>
      have hself : (s.afterResume d op (g, none)).files d = g := by simp [State.afterResume]
      have hleft : (if ((g, none) : File × Option Op).2 = none then Function.update left d g.holds
          else left) d = g.holds := by simp
      have hunlocked : s.sqliteLock d = .none → (s.files d).lockState = .none := by
        intro hnone
        by_cases hop : op = .primary .upgrade
        · rcases h.settled hnone with hlevel | hans
          · exact hlevel
          · exact absurd (hans.symm.trans (hupgrade hop)) (by simp)
        · exact (hkind hop).2
      refine ⟨?_, fun hnone => ?_, fun op' hop => ?_, fun _ => ?_, fun hno => ?_,
        fun _ _ hl => ?_, fun hl => ?_⟩
      · rw [hself, hlevel]
        exact h.order
      · rw [hself, hlevel]
        exact .inl (hunlocked hnone)
      · have hold : (d, op') ∈ s.queue.erase (d, op) := by simpa [State.afterResume] using hop
        obtain ⟨hretry', hkind', -⟩ := h.waiting op' (hrest op' hold)
        rw [hself, hlevel]
        exact ⟨hretry', hkind', fun _ => hans⟩
      · rw [hself]
        exact hanswered fun hop => (hkind hop).2
      · rw [hself, hans] at hno
        cases hno
      · rw [hself]
        exact hleft.symm.trans hl
      · rw [hself]
        exact ⟨hleft.symm.trans hl, hans⟩

/-- A step that leaves the lock fields of the database as they are. -/
theorem Kept.setFile (h : Kept s left d) {g : File}
    (hlevel : g.lockState = (s.files d).lockState) (hsame : (s.files d).SameHold g)
    (hans : (s.files d).Answered → g.Answered) : Kept (s.setFile d g) left d := by
  have hself : (s.setFile d g).files d = g := by simp [State.setFile]
  refine ⟨?_, ?_, ?_, fun hnone => ?_, ?_, ?_, ?_⟩
  · rw [hself, hlevel]
    exact h.order
  · rw [hself, hlevel, hsame.1]
    exact h.settled
  · rw [hself, hlevel, hsame.1]
    exact h.waiting
  · rw [hself]
    exact hans (h.answered hnone)
  · rw [hself, hlevel, hsame.1, hsame.2]
    exact h.unlocked
  · rw [hself, hsame.1, hsame.2]
    exact h.unasked
  · rw [hself, hsame.1, hsame.2]
    exact h.left

end Steps

/-! ## §2. The runs. -/

/-- No unlock of an unlocked database finds that the catch-up of `rejoin`
throws. -/
def Rejoins (x : State Db × (Db → Bool)) : Act Db → Prop
  | .unlock d lockType env => lockType = .none → ¬(x.1.files d).RejoinThrows env
  | _ => True

/-- And where the statement finally ends, every database that SQLite has left
and that a retry left holding has been asked for again. -/
def HandsOver (x : State Db × (Db → Bool)) : Act Db → Prop
  | .unlock d lockType env => lockType = .none → ¬(x.1.files d).RejoinThrows env
  | .stop => x.1.queue = [] → ∀ d, (x.1.files d).lockState = .none → x.2 d = false
  | _ => True

omit [DecidableEq Db] in
theorem HandsOver.rejoins {x : State Db × (Db → Bool)} {act : Act Db} (h : HandsOver x act) :
    Rejoins x act := by
  cases act with
  | unlock => exact h
  | _ => trivial

/-- No unlocked database holds anything. -/
def Released (s : State Db) : Prop :=
  ∀ d, (s.files d).lockState = .none → (s.files d).holds = false

/-- A step that writes to one database and leaves its lock fields as they are. -/
theorem Inv.of_each {s s' : State Db} {left : Db → Bool} (h : Inv (s, left))
    {d : Db} {g : File} (hs' : s' = s.setFile d g)
    (hlevel : g.lockState = (s.files d).lockState) (hsame : (s.files d).SameHold g)
    (hans : (s.files d).Answered → g.Answered) : Inv (s', left) := by
  subst hs'
  refine ⟨fun e => ?_, h.idle, h.paid⟩
  by_cases he : e = d
  · subst he
    exact (h.each e).setFile hlevel hsame hans
  · exact (h.each e).frame (by simp [State.setFile, he]) rfl (fun _ => Iff.rfl) id rfl

omit [DecidableEq Db] in
theorem Inv.phase {s : State Db} {left : Db → Bool} (h : Inv (s, left)) {phase : Phase}
    (hidle : phase = .running ∨ phase = .ended → s.queue = []) (hpaid : s.owed = none) :
    Inv ({ s with phase := phase }, left) :=
  ⟨fun d => (h.each d).frame rfl rfl (fun _ => Iff.rfl) id rfl, hidle, fun _ => hpaid⟩

theorem Inv.lock {s : State Db} {left : Db → Bool} (h : Inv (s, left)) {d : Db}
    {lockType : LockType} (env : Env) (hrunning : s.phase = .running)
    (horder : LockInOrder (s.sqliteLock d) lockType) :
    Inv (s.afterLock d lockType ((s.files d).jLock env lockType), Function.update left d false) := by
  have hidle : s.queue = [] := h.idle (.inl hrunning)
  have howed : s.owed = none := h.paid (by simp [hrunning])
  have hans : (s.files d).Answered := (h.each d).answered (by simp [hidle])
  have hspec := File.jLock_spec env ((h.each d).requested horder) hans
  revert hspec
  generalize (s.files d).jLock env lockType = x
  intro hspec
  refine ⟨fun e => ?_, ?_, ?_⟩
  · by_cases he : e = d
    · subst he
      exact (h.each e).lock hidle horder hspec
    · refine (h.each e).frame (by simp [State.afterLock, he]) ?_ (fun op => ?_) ?_ (by simp [he])
      · simp only [State.afterLock]
        split
        · simp [he]
        · rfl
      · simp only [State.afterLock, List.mem_append]
        constructor
        · rintro (hold | hnew)
          · exact hold
          · simp only [Option.mem_toList, Option.map_eq_some_iff, Prod.mk.injEq] at hnew
            obtain ⟨_, -, heq, -⟩ := hnew
            exact absurd heq.symm he
        · exact .inl
      · intro heq
        exact absurd (howed.symm.trans heq) (by simp)
  · cases hspec with
    | grants => intro _; simp [State.afterLock, hidle]
    | refuses hrc => intro hphase; simp [State.afterLock, hrc] at hphase
    | queues => intro hphase; simp [State.afterLock] at hphase
  · cases hspec with
    | grants => intro _; simpa [State.afterLock] using howed
    | refuses hrc => intro hphase; simp [State.afterLock, hrc] at hphase
    | queues => intro hphase; simp [State.afterLock] at hphase

theorem Inv.unlock {s : State Db} {left : Db → Bool} (h : Inv (s, left)) {d : Db}
    {lockType : LockType} {env : Env} (horder : UnlockInOrder (s.sqliteLock d) lockType)
    (hrejoins : lockType = .none → ¬(s.files d).RejoinThrows env) :
    Inv (s.afterUnlock d lockType ((s.files d).jUnlock env lockType), left) := by
  have hspec := File.jUnlock_spec env lockType (s.files d)
  refine ⟨fun e => ?_, h.idle, fun hphase => ?_⟩
  · by_cases he : e = d
    · subst he
      exact (h.each e).unlock horder hrejoins hspec
    · refine (h.each e).frame (by simp [State.afterUnlock, he]) (by simp [State.afterUnlock, he])
        (fun _ => Iff.rfl) (fun heq => ?_) rfl
      have hne : ¬(lockType = .none ∧ s.owed = some d) := by
        rintro ⟨-, hd⟩
        exact he (Option.some.inj (heq.symm.trans hd))
      show (if lockType = .none ∧ s.owed = some d then none else s.owed) = some e
      rw [if_neg hne]
      exact heq
  · show (if lockType = .none ∧ s.owed = some d then none else s.owed) = none
    rw [h.paid hphase]
    simp

theorem Inv.resume {s : State Db} {left : Db → Bool} (h : Inv (s, left)) {d : Db} {op : Op}
    (env : Env) (hmem : (d, op) ∈ s.queue) :
    Inv (s.afterResume d op ((s.files d).resume env op),
      noteLeft left s (.resume d op env)) := by
  have hretry := ((h.each d).waiting op hmem).1
  have hspec := File.resume_spec env hretry (s.files d)
  have hbusy : ¬(s.phase = .running ∨ s.phase = .ended) := by
    intro hphase
    rw [h.idle hphase] at hmem
    cases hmem
  refine ⟨fun e => ?_, fun hphase => absurd hphase hbusy, h.paid⟩
  by_cases he : e = d
  · subst he
    exact (h.each e).resume hmem hspec
  · refine (h.each e).frame (by simp [State.afterResume, he]) rfl (fun op' => ?_) id ?_
    · have hne : (e, op') ≠ (d, op) := fun heq => he (Prod.mk.inj heq).1
      simp only [State.afterResume, List.mem_append, List.mem_erase_of_ne hne]
      constructor
      · rintro (hold | hnew)
        · exact hold
        · have heq := hnew
          simp only [Option.mem_toList, Option.map_eq_some_iff, Prod.mk.injEq] at heq
          obtain ⟨_, -, heq, -⟩ := heq
          exact absurd heq.symm he
      · exact .inl
    · simp only [noteLeft]
      split
      · simp [he]
      · rfl

theorem File.setHint_same (f : File) (hint : Connection.WriteHint) :
    (f.setHint hint).lockState = f.lockState ∧ f.SameHold (f.setHint hint)
      ∧ (f.Answered → (f.setHint hint).Answered) := by
  cases f <;> exact ⟨rfl, ⟨rfl, rfl⟩, id⟩

theorem File.setLockingMode_same (f : File) (mode : Connection.LockingMode) :
    (f.setLockingMode mode).lockState = f.lockState ∧ f.SameHold (f.setLockingMode mode)
      ∧ (f.Answered → (f.setLockingMode mode).Answered) := by
  cases f <;> exact ⟨rfl, ⟨rfl, rfl⟩, id⟩

theorem File.setLazyLock_same (f : File) (mode : Connection.LazyLockMode) :
    (f.setLazyLock mode).lockState = f.lockState ∧ f.SameHold (f.setLazyLock mode)
      ∧ (f.Answered → (f.setLazyLock mode).Answered) := by
  cases f <;> exact ⟨rfl, ⟨rfl, rfl⟩, id⟩

theorem File.yieldLock_same (f : File) :
    f.yieldLock.lockState = f.lockState ∧ f.SameHold f.yieldLock
      ∧ (f.Answered → f.yieldLock.Answered) := by
  cases f <;> exact ⟨rfl, ⟨rfl, rfl⟩, id⟩

/-- **The invariant over one step.** -/
theorem Inv.step {s s' : State Db} {left : Db → Bool} {act : Act Db} (h : Inv (s, left))
    (hok : Rejoins (s, left) act) (hn : Statement.step s act = some s') :
    Inv (s', noteLeft left s act) := by
  cases act with
  | lock d lockType env =>
      simp only [Statement.step] at hn
      split at hn
      next hopen =>
        obtain rfl := Option.some.inj hn
        exact h.lock env hopen.1 hopen.2
      next => cases hn
  | unlock d lockType env =>
      simp only [Statement.step] at hn
      split at hn
      next hopen =>
        obtain rfl := Option.some.inj hn
        exact h.unlock hopen.2 hok
      next => cases hn
  | hint d hint =>
      simp only [Statement.step] at hn
      split at hn
      next =>
        obtain ⟨hlevel, hsame, hans⟩ := (s.files d).setHint_same hint
        exact h.of_each (Option.some.inj hn).symm hlevel hsame hans
      next => cases hn
  | lockingMode d mode =>
      simp only [Statement.step] at hn
      split at hn
      next =>
        obtain ⟨hlevel, hsame, hans⟩ := (s.files d).setLockingMode_same mode
        exact h.of_each (Option.some.inj hn).symm hlevel hsame hans
      next => cases hn
  | lazyLock d mode =>
      simp only [Statement.step] at hn
      split at hn
      next =>
        obtain ⟨hlevel, hsame, hans⟩ := (s.files d).setLazyLock_same mode
        exact h.of_each (Option.some.inj hn).symm hlevel hsame hans
      next => cases hn
  | stop =>
      simp only [Statement.step] at hn
      split at hn
      next hopen =>
        obtain rfl := Option.some.inj hn
        refine h.phase (fun hphase => ?_) hopen.2
        by_contra hqueue
        simp [hqueue] at hphase
      next => cases hn
  | resume d op env =>
      simp only [Statement.step] at hn
      split at hn
      next hmem =>
        obtain rfl := Option.some.inj hn
        exact h.resume env hmem
      next => cases hn
  | reexecute =>
      simp only [Statement.step] at hn
      split at hn
      next hopen =>
        obtain rfl := Option.some.inj hn
        exact h.phase (fun _ => hopen.2) (h.paid (by simp [hopen.1]))
      next => cases hn
  | begin =>
      simp only [Statement.step] at hn
      split at hn
      next hended =>
        obtain rfl := Option.some.inj hn
        exact h.phase (fun _ => h.idle (.inr hended)) (h.paid (by simp [hended]))
      next => cases hn
  | yieldLock d =>
      obtain ⟨hlevel, hsame, hans⟩ := (s.files d).yieldLock_same
      exact h.of_each (Option.some.inj hn).symm hlevel hsame hans

omit [DecidableEq Db] in
theorem inv_start {s : State Db} (h : s.IsNew) : Inv (s, fun _ => false) := by
  obtain ⟨hnew, hqueue, hended, howed⟩ := h
  refine ⟨fun d => ?_, fun _ => hqueue, fun _ => howed⟩
  obtain ⟨hlevel, hans, hholds, hlock⟩ := hnew d
  refine ⟨fun hlocked => absurd hlock hlocked, fun _ => .inl hlevel, fun op hmem => ?_,
    fun _ => File.answered_of_unanswered hans, fun _ _ _ => hholds, fun _ _ _ => hholds,
    fun hleft => ?_⟩
  · rw [hqueue] at hmem
    cases hmem
  · cases hleft

theorem inv_of_reach {x : State Db × (Db → Bool)} (h : Reach (recordedMachine Db) Rejoins x) :
    Inv x :=
  h.record_invariant (fun _ => True) Inv (fun _ _ => trivial) (fun _ => inv_start)
    (fun _ _ _ _ _ _ hinv hok hn => hinv.step hok hn)

omit [DecidableEq Db] in
/-- **Where a statement has finally ended.** -/
theorem Inv.ended_released_iff {x : State Db × (Db → Bool)} (h : Inv x)
    (hended : x.1.phase = .ended) :
    Released x.1 ↔ ∀ d, (x.1.files d).lockState = .none → x.2 d = false := by
  have hqueue : x.1.queue = [] := h.idle (.inr hended)
  have howed : x.1.owed = none := h.paid (by simp [hended])
  constructor
  · intro hreleased d hnone
    cases hleft : x.2 d with
    | false => rfl
    | true =>
        have hholds := ((h.each d).left hleft).1
        exact absurd (hholds.symm.trans (hreleased d hnone)) (by simp)
  · intro hleft d hnone
    cases hans : (x.1.files d).unanswered with
    | true => exact (h.each d).unlocked hans hnone (by simp [howed])
    | false => exact (h.each d).unasked hans (by simp [hqueue]) (hleft d hnone)

/-- Only the final stop ends a statement. -/
theorem step_ended {s s' : State Db} {act : Act Db} (hn : step s act = some s')
    (hended : s'.phase = .ended) (hidle : s.phase = .ended → s.queue = []) :
    (act = .stop ∧ s.queue = [] ∧ s'.files = s.files)
      ∨ (s.phase = .ended ∧ ∃ d, s' = s.setFile d (s.files d).yieldLock) := by
  cases act with
  | yieldLock d =>
      obtain rfl := Option.some.inj hn
      exact .inr ⟨hended, d, rfl⟩
  | stop =>
      simp only [step] at hn
      split at hn
      next =>
        obtain rfl := Option.some.inj hn
        refine .inl ⟨rfl, ?_, rfl⟩
        by_contra hqueue
        simp [hqueue] at hended
      next => cases hn
  | lock d lockType env =>
      simp only [step] at hn
      split at hn
      next hopen =>
        obtain rfl := Option.some.inj hn
        simp only [State.afterLock, hopen.1] at hended
        split at hended <;> cases hended
      next => cases hn
  | unlock d lockType env =>
      simp only [step] at hn
      split at hn
      next hopen =>
        obtain rfl := Option.some.inj hn
        have hphase : s.phase = .ended := hended
        rcases hopen.1 with hp | hp <;> rw [hp] at hphase <;> cases hphase
      next => cases hn
  | resume d op env =>
      simp only [step] at hn
      split at hn
      next hmem =>
        obtain rfl := Option.some.inj hn
        rw [hidle hended] at hmem
        cases hmem
      next => cases hn
  | hint | lockingMode | lazyLock =>
      simp only [step] at hn
      split at hn
      next hrunning =>
        obtain rfl := Option.some.inj hn
        have hphase : s.phase = .ended := hended
        rw [hrunning] at hphase
        cases hphase
      next => cases hn
  | reexecute | begin =>
      simp only [step] at hn
      split at hn
      next =>
        obtain rfl := Option.some.inj hn
        cases hended
      next => cases hn

/-- **In every run in which the retries are handed over, no lock outlives its
statement.** -/
theorem statement_releases (x : State Db × (Db → Bool))
    (h : Reach (recordedMachine Db) HandsOver x) (hended : x.1.phase = .ended) :
    Released x.1 := by
  have hall : Inv x ∧ (x.1.phase = .ended → Released x.1) := by
    refine h.record_invariant (fun _ => True)
      (fun x => Inv x ∧ (x.1.phase = .ended → Released x.1)) (fun _ _ => trivial) ?_ ?_
    · intro s hnew
      exact ⟨inv_start hnew, fun _ d _ => (hnew.1 d).2.2.1⟩
    · rintro s left act s' - - ⟨hinv, hreleased⟩ hok hn
      have hinv' := hinv.step hok.rejoins hn
      refine ⟨hinv', fun hphase => ?_⟩
      rcases step_ended hn hphase (fun hp => hinv.idle (.inr hp)) with
        ⟨rfl, hqueue, hfiles⟩ | ⟨hbefore, d, rfl⟩
      · refine (hinv'.ended_released_iff hphase).mpr fun d hnone => ?_
        rw [hfiles] at hnone
        exact hok hqueue d hnone
      · intro e hnone
        by_cases he : e = d
        · subst he
          obtain ⟨hlevel, hsame, -⟩ := (s.files e).yieldLock_same
          simp only [State.setFile, Function.update_self] at hnone ⊢
          rw [hsame.2]
          exact hreleased hbefore e (hlevel.symm.trans hnone)
        · simp only [State.setFile, Function.update_of_ne he] at hnone ⊢
          exact hreleased hbefore e hnone
  exact hall.2 hended

/-! ## §3. Executed runs. -/

instance decidableRejoinThrows (env : Env) : (f : File) → Decidable (f.RejoinThrows env)
  | .primary _ f =>
      inferInstanceAs (Decidable (f.lockState = .none ∧ f.retryResult = .null
        ∧ f.isolationState = some .read ∧ env.primary.advance ≠ none))
  | .attached _ => isFalse id

instance decidableHandsOver [Fintype Db] (x : State Db × (Db → Bool)) :
    (act : Act Db) → Decidable (HandsOver x act)
  | .unlock d lockType env =>
      inferInstanceAs (Decidable (lockType = .none → ¬(x.1.files d).RejoinThrows env))
  | .stop => inferInstanceAs (Decidable (x.1.queue = [] → ∀ _, _ → _))
  | .lock .. | .hint .. | .lockingMode .. | .lazyLock .. | .resume .. | .reexecute | .begin
  | .yieldLock _ => isTrue trivial

/-- The step with its name. -/
def exec (s : State Db) (act : Act Db) : Option (Act Db × State Db) :=
  (step s act).map fun s' => (act, s')

theorem exec_next (s : State Db) (k : Act Db) (act : Act Db) (s' : State Db)
    (h : exec s k = some (act, s')) : (machine Db).next s act s' := by
  obtain ⟨t, hstep, heq⟩ := Option.map_eq_some_iff.mp h
  obtain ⟨rfl, rfl⟩ := Prod.mk.inj heq
  exact hstep

/-- The primary database and two attached ones. -/
inductive Database where
  | main
  | first
  | second
  deriving DecidableEq

instance fintypeDatabase : Fintype Database :=
  ⟨{.main, .first, .second}, fun d => by cases d <;> decide⟩

/-- All of them opened. -/
def opened : State Database where
  files
    | .main => .primary ⟨none, false⟩ Connection.Local.opened.file
    | .first | .second => .attached ⟨.none, .null, none, false⟩
  sqliteLock _ := .none
  queue := []
  phase := .ended
  owed := none

theorem opened_new : opened.IsNew := by
  refine ⟨fun d => ?_, rfl, rfl, rfl⟩
  cases d <;> exact ⟨rfl, rfl, rfl, rfl⟩

/-- The environment of a run: whether tries succeed, and whether the deadline
has passed. -/
def answers (attempt expired : Bool) : Env where
  primary := ⟨true, .ok true, none, none, .ok true, false, false⟩
  attached := ⟨.ok attempt, expired⟩

/-- The statement waits for `first`, gets it and ends with all released. -/
theorem statement_releases_after_retry :
    ∃ x : State Database × (Database → Bool),
      Reach (recordedMachine Database) HandsOver x ∧ x.1.phase = .ended ∧ Released x.1 := by
  have hstart : Reach (recordedMachine Database) HandsOver (opened, fun _ => false) :=
    .init ⟨opened_new, rfl⟩
  obtain ⟨x, hx, hended⟩ := hstart.exists_of_commands
    (recorded_next HandsOver exec_next)
    [.begin, .lock .first .shared (answers false false), .unlock .first .none (answers false false),
      .stop, .resume .first .attached (answers true false), .reexecute,
      .lock .first .shared (answers true false), .unlock .first .none (answers true false), .stop]
    (fun x => decide (x.1.phase = .ended)) (by decide)
  have hphase : x.1.phase = .ended := by simpa using hended
  exact ⟨x, hx, hphase, statement_releases x hx hphase⟩

/-- `second` is granted after the statement has waited for it; the next
execution stops at `first`, times out on it and never asks for `second`. -/
theorem lock_outlives_statement :
    ∃ s : State Database, Reach (machine Database) anyStep s ∧ s.phase = .ended
      ∧ (s.files .second).lockState = .none ∧ (s.files .second).holds = true := by
  have hstart : Reach (machine Database) anyStep opened := .init opened_new
  obtain ⟨s, hs, hq⟩ := hstart.exists_of_commands
    (unlabelled_next exec_next)
    [.begin,
      .lock .first .shared (answers true false), .lock .second .shared (answers false false),
      .unlock .second .none (answers false false), .unlock .first .none (answers false false),
      .stop, .resume .second .attached (answers true false), .reexecute,
      .lock .first .shared (answers false false), .unlock .first .none (answers false false),
      .stop, .resume .first .attached (answers false true), .reexecute,
      .lock .first .shared (answers false false), .unlock .first .none (answers false false),
      .stop]
    (fun s => decide (s.phase = .ended ∧ (s.files .second).lockState = .none
      ∧ (s.files .second).holds = true)) (by decide)
  exact ⟨s, hs, by simpa using hq⟩

end MemoryWriteAhead.Statement
