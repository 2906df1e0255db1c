/-
  MemoryWriteAhead.Statement.Calls
  ────────────────────────────────
  **WHAT THE LOCK CALLS DO TO ONE DATABASE.**

  One specification for each of `jLock`, `jUnlock` and a queued retry, the same
  for the primary and the attached databases:

    • `File.jLock_spec` — it grants, it refuses with the last answer taken, or
    it queues a retry,
    • `File.jUnlock_spec` — it sets the level, it releases, or `rejoin` throws
    before the release,
    • `File.resume_spec` — it waits again, or it ends with an answer.

  `File.Answered` is what the answer of a retry tells about the database.
-/
import Mathlib
import MemoryWriteAhead.Statement.Model

namespace MemoryWriteAhead.Statement

open Connection (LockType WriteLock OpenFile Rc)

/-! ## §1. A lock call. -/

/-- What the answer of a retry tells: a locked primary database whose retry
succeeded is isolated for writing; an attached database is unlocked, and where
its retry succeeded it has the transaction lock. -/
def File.Answered : File → Prop
  | primary _ f =>
      f.retryResult = .done → f.lockState ≠ .none → f.isolationState = some .write
  | attached f =>
      (f.retryResult ≠ .null → f.lockState = .none)
        ∧ (f.retryResult = .done → f.attachedTransactionLockHeld = true)

theorem File.answered_of_unanswered {f : File} (h : f.unanswered = true) : f.Answered := by
  cases f with
  | primary lock f =>
      have hnull : f.retryResult = .null := by simpa [unanswered] using h
      intro hdone
      rw [hnull] at hdone
      cases hdone
  | attached f =>
      have hnull : f.retryResult = .null := by simpa [unanswered] using h
      refine ⟨fun hne => absurd hnull hne, fun hdone => ?_⟩
      rw [hnull] at hdone
      cases hdone

/-- A request in SQLite's order, as the file sees it. -/
def Requested (f : File) (lockType : LockType) : Prop :=
  (lockType = .shared ∧ (f.lockState = .none ∨ f.unanswered = true)) ∨
    (LockType.reserved.level ≤ lockType.level ∧ f.lockState ≠ .none)

/-- The operation is in `module.retryOps`. -/
def Op.isRetry : Op → Bool
  | .primary op => op.isRetry
  | .attached => true

/-- What a lock call does: it grants the lock, or refuses it with the answer of
the last retry taken, or refuses it and queues a retry. -/
inductive LockSpec (f : File) (lockType : LockType) : Rc × File × Option Op → Prop
  | grants {g : File} : g.lockState = lockType → g.unanswered = true →
      LockSpec f lockType (.ok, g, none)
  | refuses {rc : Rc} {g : File} : rc ≠ .ok → g.lockState = f.lockState →
      (lockType = .shared → f.lockState = .none) → g.unanswered = true →
      LockSpec f lockType (rc, g, none)
  | queues {g : File} {op : Op} : g.lockState = f.lockState →
      (lockType = .shared → f.lockState = .none) → op.isRetry = true →
      (op ≠ .primary .upgrade → lockType = .shared) →
      (op = .primary .upgrade → g.unanswered = false) →
      LockSpec f lockType (.busy, g, some op)

theorem attachedLockError_ne_ok (e : AttachedError) : attachedLockError e ≠ .ok := by
  cases e <;> simp [attachedLockError, AttachedError.isBusy]

theorem lockError_ne_ok (e : Connection.VfsError) : Connection.lockError e ≠ .ok := by
  cases e <;> simp [Connection.lockError, Connection.VfsError.isBusy]

/-- A try keeps everything but the flag, which it raises when it succeeds. -/
theorem tryLockAttachedDatabase_spec (env : AttachedEnv) (f : AttachedFile) :
    (tryLockAttachedDatabase env f = (.ok true, { f with attachedTransactionLockHeld := true }))
      ∨ (f.attachedTransactionLockHeld = false
        ∧ ((∃ e, tryLockAttachedDatabase env f = (.error e, f))
          ∨ tryLockAttachedDatabase env f = (.ok false, f))) := by
  unfold tryLockAttachedDatabase
  split
  next hheld =>
    refine .inl ?_
    rw [← hheld]
  next hheld =>
    have hfree : f.attachedTransactionLockHeld = false := by simpa using hheld
    split
    next => exact .inl rfl
    next hrefused =>
      refine .inr ⟨hfree, ?_⟩
      cases hattempt : env.attempt with
      | error e => exact .inl ⟨e, rfl⟩
      | ok granted =>
          cases granted with
          | true => exact absurd hattempt hrefused
          | false => exact .inr rfl

theorem jLockAttached_spec {env : Env} {lockType : LockType} {f : AttachedFile}
    (h : Requested (.attached f) lockType) (hans : (File.attached f).Answered) :
    LockSpec (.attached f) lockType ((File.attached f).jLock env lockType) := by
  simp only [File.jLock, jLockAttached]
  split
  next hshared =>
    obtain ⟨hnone, rfl⟩ := hshared
    split
    next e herror =>
      exact .refuses (attachedLockError_ne_ok e) rfl (fun _ => hnone) rfl
    next hnull =>
      rcases tryLockAttachedDatabase_spec env.attached f with heq | ⟨hfree, ⟨e, heq⟩ | heq⟩
      · rw [heq]
        exact .grants rfl rfl
      · rw [heq]
        exact .refuses (attachedLockError_ne_ok e) rfl (fun _ => hnone) (by simp [File.unanswered, hnull])
      · rw [heq]
        exact .queues rfl (fun _ => hnone) rfl (fun _ => rfl) (fun h => by cases h)
    next hdone =>
      -- the retry that answered has the lock, so this try cannot fail
      rcases tryLockAttachedDatabase_spec env.attached f with heq | ⟨hfree, -⟩
      · rw [heq]
        exact .grants rfl rfl
      · exact absurd ((hans.2 hdone).symm.trans hfree) (by simp)
  next hother =>
    rcases h with ⟨rfl, hunlocked | hnull⟩ | ⟨-, hlocked⟩
    · exact absurd ⟨hunlocked, rfl⟩ hother
    · exact .grants rfl hnull
    · have hnull : f.retryResult = .null := by
        by_contra hne
        exact hlocked (hans.1 hne)
      exact .grants rfl (by simp [File.unanswered, hnull])

/-! ## §2. The primary database. -/

theorem isolateForWrite_keeps (env : Connection.Env) (f : OpenFile) :
    (Connection.isolateForWrite env f).2.lockState = f.lockState
      ∧ (Connection.isolateForWrite env f).2.retryResult = f.retryResult := by
  unfold Connection.isolateForWrite
  split <;> exact ⟨rfl, rfl⟩

theorem isolateForRead_keeps {f f' : OpenFile} (h : Connection.isolateForRead f = .ok f') :
    f' = { f with isolationState := some .read } := by
  unfold Connection.isolateForRead at h
  split at h
  · cases h
  · exact (Except.ok.inj h).symm

/-- The upgrade succeeds into the write isolation, or changes nothing. -/
theorem tryUpgrade_spec (env : Connection.Env) (f : OpenFile) :
    (Connection.tryUpgradeReadIsolationToWrite env f
        = (.ok true, { f with isolationState := some .write }))
      ∨ (∃ e, Connection.tryUpgradeReadIsolationToWrite env f = (.error e, f))
      ∨ Connection.tryUpgradeReadIsolationToWrite env f = (.ok false, f) := by
  unfold Connection.tryUpgradeReadIsolationToWrite
  split
  · exact .inr (.inl ⟨_, rfl⟩)
  · split
    next => exact .inl rfl
    next hrefused =>
      cases hcurrent : env.current with
      | error e => exact .inr (.inl ⟨e, rfl⟩)
      | ok isCurrent =>
          cases isCurrent with
          | true => exact absurd hcurrent hrefused
          | false => exact .inr (.inr rfl)

/-- What a call on the primary database gives back, as a `File`. -/
def ofReturn (x : Connection.Return Unit) : Rc × File × Option Op :=
  (x.1, .primary x.2.1 x.2.2.1, x.2.2.2.map .primary)

theorem jLockShared_spec (env : Connection.Env) {lock : WriteLock Unit} {f : OpenFile}
    (hnone : f.lockState = .none) :
    LockSpec (.primary lock f) .shared (ofReturn (Connection.jLockShared () env lock f)) := by
  have hfree : LockType.shared = .shared → (File.primary lock f).lockState = .none :=
    fun _ => hnone
  unfold Connection.jLockShared
  split
  next hnull =>
    have hanswer : ∀ (lock' : WriteLock Unit) (g : OpenFile), g.retryResult = f.retryResult →
        (File.primary lock' g).unanswered = true := by
      intro lock' g hg
      simp [File.unanswered, hg, hnull]
    split
    next => exact .queues rfl hfree rfl (fun _ => rfl) (fun h => by cases h)
    next =>
      split
      next =>
        split
        next lock' heq => exact .queues rfl hfree rfl (fun _ => rfl) (fun h => by cases h)
        next lock' heq =>
          obtain ⟨hlock, hretry⟩ := isolateForWrite_keeps env f
          split
          next e f' hiso =>
            rw [hiso] at hlock hretry
            exact .refuses (lockError_ne_ok e) hlock hfree (hanswer lock' f' hretry)
          next f' hiso => exact .grants rfl rfl
      next =>
        split
        next hread =>
          split
          next e hiso => exact .refuses (lockError_ne_ok e) rfl hfree (hanswer lock f rfl)
          next f' hiso => exact .grants rfl rfl
        next => exact .queues rfl hfree rfl (fun _ => rfl) (fun h => by cases h)
  next e herror => exact .refuses (lockError_ne_ok e) rfl hfree rfl
  next hdone => exact .grants rfl rfl

theorem jLockReserved_spec (env : Connection.Env) {lockType : LockType} {lock : WriteLock Unit}
    {f : OpenFile} (hlevel : LockType.reserved.level ≤ lockType.level)
    (hlocked : f.lockState ≠ .none) (hans : (File.primary lock f).Answered) :
    LockSpec (.primary lock f) lockType
      (ofReturn (Connection.jLockReserved () env lockType lock f)) := by
  have hfree : lockType = .shared → (File.primary lock f).lockState = .none := by
    rintro rfl
    exact absurd hlevel (by decide)
  unfold Connection.jLockReserved
  split
  next e herror => exact .refuses (lockError_ne_ok e) rfl hfree rfl
  next hnoerror =>
    split
    next => exact .grants rfl rfl
    next hread =>
      -- a retry that succeeded has left the write isolation, so there is none
      have hnull : f.retryResult = .null := by
        cases hretry : f.retryResult with
        | null => rfl
        | done => exact absurd (hans hretry hlocked) hread
        | error e => exact absurd hretry (hnoerror e)
      have hanswer : ∀ lock' : WriteLock Unit, (File.primary lock' f).unanswered = true := by
        intro lock'
        simp [File.unanswered, hnull]
      split
      next holdsWriteLock lock' hheld =>
      split
      next =>
        rcases tryUpgrade_spec env f with heq | ⟨e, heq⟩ | heq
        · rw [heq]
          exact .grants rfl rfl
        · rw [heq]
          exact .refuses (lockError_ne_ok e) rfl hfree (hanswer _)
        · rw [heq]
          exact .refuses (lockError_ne_ok .staleSnapshot) rfl hfree (hanswer _)
      next => exact .queues rfl hfree rfl (fun h => absurd rfl h) (fun _ => rfl)

/-- **What a lock call does to a database.** -/
theorem File.jLock_spec (env : Env) {lockType : LockType} {f : File}
    (h : Requested f lockType) (hans : f.Answered) :
    LockSpec f lockType (f.jLock env lockType) := by
  cases f with
  | attached f => exact jLockAttached_spec h hans
  | primary lock f =>
      show LockSpec _ _ (ofReturn (Connection.jLock () env.primary lockType lock f))
      unfold Connection.jLock
      split
      next hshared =>
        obtain ⟨hnone, rfl⟩ := hshared
        exact jLockShared_spec env.primary hnone
      next hother =>
        split
        next hlevel =>
          rcases h with ⟨rfl, -⟩ | ⟨-, hlocked⟩
          · exact absurd hlevel (by decide)
          · exact jLockReserved_spec env.primary hlevel hlocked hans
        next hlow =>
          rcases h with ⟨rfl, hunlocked | hnull⟩ | ⟨hlevel, -⟩
          · exact absurd ⟨hunlocked, rfl⟩ hother
          · exact .grants rfl hnull
          · exact absurd hlevel hlow

/-! ## §3. An unlock call and a retry. -/

/-- The catch-up of `rejoin` throws in an unlock of a file that is unlocked
already: nothing will call it again. -/
def File.RejoinThrows (env : Env) : File → Prop
  | primary _ f =>
      f.lockState = .none ∧ f.retryResult = .null ∧ f.isolationState = some .read
        ∧ env.primary.advance ≠ none
  | attached _ => False

/-- The database holds what it held and has the answer it had. -/
def File.SameHold (f g : File) : Prop :=
  g.unanswered = f.unanswered ∧ g.holds = f.holds

/-- What an unlock call does: it sets the level; or it releases; or `rejoin`
throws before the release. -/
inductive UnlockSpec (env : Env) (f : File) (lockType : LockType) : File → Prop
  | lowers {g : File} : g.lockState = lockType → f.SameHold g →
      (f.Answered → (lockType ≠ .none → f.lockState ≠ .none) → g.Answered) →
      (lockType = .none → f.unanswered = false) → UnlockSpec env f lockType g
  | releases {g : File} : lockType = .none → f.unanswered = true → g.unanswered = true →
      (g.lockState = .none ∨ g.lockState = f.lockState) → g.holds = false →
      UnlockSpec env f lockType g
  | throws : lockType = .none → f.unanswered = true →
      (f.lockState = .none → f.RejoinThrows env) → UnlockSpec env f lockType f

theorem jUnlockAttached_spec (env : Env) (lockType : LockType) (f : AttachedFile) :
    UnlockSpec env (.attached f) lockType ((File.attached f).jUnlock env lockType) := by
  simp only [File.jUnlock, jUnlockAttached]
  split
  next hrelease =>
    obtain ⟨hnull, rfl⟩ := hrelease
    exact .releases rfl (by simp [File.unanswered, hnull])
      (by simp [File.unanswered, releaseAttachedDatabaseLock, hnull]) (.inl rfl) rfl
  next hkeep =>
    refine .lowers rfl ⟨rfl, rfl⟩ (fun hans hlocked => ⟨fun hne => ?_, hans.2⟩) fun hnone => ?_
    · by_contra hlevel
      exact hlocked hlevel (hans.1 hne)
    · simp only [File.unanswered, decide_eq_false_iff_not]
      exact fun hnull => hkeep ⟨hnull, hnone⟩

/-- `rejoin` ends the isolation, unless its catch-up throws. -/
theorem rejoin_spec (env : Connection.Env) (f : OpenFile) :
    (∃ e, Connection.rejoin env f = (some e, f) ∧ f.isolationState = some .read
        ∧ env.advance ≠ none)
      ∨ ∃ thrown, Connection.rejoin env f = (thrown, { f with isolationState := none }) := by
  unfold Connection.rejoin
  split
  next hread =>
    obtain ⟨hisolated, hadvance⟩ := hread
    obtain ⟨e, he⟩ := Option.ne_none_iff_exists'.mp hadvance
    exact .inl ⟨e, by rw [he], hisolated, hadvance⟩
  next => exact .inr ⟨env.backstop, rfl⟩

/-- **What an unlock call does to a database.** -/
theorem File.jUnlock_spec (env : Env) (lockType : LockType) (f : File) :
    UnlockSpec env f lockType (f.jUnlock env lockType) := by
  cases f with
  | attached f => exact jUnlockAttached_spec env lockType f
  | primary lock f =>
      simp only [File.jUnlock, Connection.jUnlock]
      split
      next hrelease =>
        obtain ⟨hnull, rfl⟩ := hrelease
        have hun : (File.primary lock f).unanswered = true := by simp [File.unanswered, hnull]
        rcases rejoin_spec env.primary f with ⟨e, heq, hread, hadvance⟩ | ⟨thrown, heq⟩
        · rw [heq]
          exact .throws rfl hun fun hnone => ⟨hnone, hnull, hread, hadvance⟩
        · rw [heq]
          cases thrown with
          | some e => exact .releases rfl hun (by simp [File.unanswered, hnull]) (.inr rfl) rfl
          | none => exact .releases rfl hun (by simp [File.unanswered, hnull]) (.inl rfl) rfl
      next hkeep =>
        refine .lowers rfl ⟨rfl, rfl⟩ (fun hans hlocked hdone hlevel => ?_) fun hnone => ?_
        · exact hans hdone (hlocked hlevel)
        · simp only [File.unanswered, decide_eq_false_iff_not]
          exact fun hnull => hkeep ⟨hnull, hnone⟩

/-- What a retry does when it goes on: it waits again and has changed nothing,
or it ends with an answer. -/
inductive ResumeSpec (f : File) (op : Op) : File × Option Op → Prop
  | waits {again : Op} : again.isRetry = true →
      (again ≠ .primary .upgrade → op ≠ .primary .upgrade) →
      (again = .primary .upgrade → op = .primary .upgrade) → ResumeSpec f op (f, some again)
  | ends {g : File} : g.lockState = f.lockState → g.unanswered = false →
      ((op ≠ .primary .upgrade → f.lockState = .none) → g.Answered) → ResumeSpec f op (g, none)

theorem retryLockAttachedDatabase_spec (env : AttachedEnv) (f : AttachedFile) :
    ResumeSpec (.attached f) .attached
      (.attached (retryLockAttachedDatabase env f).1,
        if (retryLockAttachedDatabase env f).2 then some .attached else none) := by
  unfold retryLockAttachedDatabase
  rcases tryLockAttachedDatabase_spec env f with heq | ⟨-, ⟨e, heq⟩ | heq⟩
  · rw [heq]
    exact .ends rfl rfl fun hnone => ⟨fun _ => hnone (by simp), fun _ => rfl⟩
  · rw [heq]
    refine .ends rfl rfl fun hnone => ⟨fun _ => hnone (by simp), fun hdone => ?_⟩
    cases hdone
  · rw [heq]
    cases env.expired with
    | true =>
        refine .ends rfl rfl fun hnone => ⟨fun _ => hnone (by simp), fun hdone => ?_⟩
        cases hdone
    | false => exact .waits rfl (by simp) (fun h => by cases h)

/-- A retry of the primary database that failed. -/
theorem ResumeSpec.failed {lock lock' : WriteLock Unit} {f g : OpenFile} {op : Op}
    {e : Connection.VfsError} (hlevel : g.lockState = f.lockState) :
    ResumeSpec (.primary lock f) op (.primary lock' (g.failed e), none) := by
  refine .ends hlevel rfl fun _ hdone => ?_
  cases hdone

/-- A retry for an unlocked primary database that succeeded. -/
theorem ResumeSpec.unlocked {lock lock' : WriteLock Unit} {f g : OpenFile} {op : Op}
    (hop : op ≠ .primary .upgrade) (hlevel : g.lockState = f.lockState) :
    ResumeSpec (.primary lock f) op (.primary lock' g.granted, none) := by
  refine .ends hlevel rfl fun hnone _ hlocked => ?_
  have hunlocked : g.lockState = .none := hlevel.trans (hnone hop)
  exact absurd hunlocked hlocked

/-- **What a retry does when it goes on.** -/
theorem File.resume_spec (env : Env) {op : Op} (hretry : op.isRetry = true) (f : File) :
    ResumeSpec f op (f.resume env op) := by
  cases f with
  | attached f =>
      cases op with
      | attached => exact retryLockAttachedDatabase_spec env.attached f
      | primary op => exact .waits hretry id id
  | primary lock f =>
      cases op with
      | attached => exact .waits rfl (by simp) (fun h => by cases h)
      | primary op =>
          simp only [File.resume, Connection.Op.resume]
          cases op with
          | lockRead =>
              simp only [Connection.retryLockRead]
              cases env.primary.acquired with
              | error e => exact .failed rfl
              | ok granted =>
                  cases granted with
                  | false => exact .failed rfl
                  | true =>
                      dsimp only
                      split
                      next e hiso => exact .failed rfl
                      next f' hiso =>
                        obtain rfl := isolateForRead_keeps hiso
                        exact .unlocked (by simp) rfl
          | lockExclusive =>
              simp only [Connection.retryLockExclusive]
              cases env.primary.acquired with
              | error e => exact .failed rfl
              | ok granted =>
                  cases granted with
                  | false => exact .failed rfl
                  | true => exact .waits rfl (by simp) (fun h => by cases h)
          | lockWrite =>
              simp only [Connection.retryLockWrite]
              cases env.primary.acquired with
              | error e => exact .failed rfl
              | ok granted =>
                  cases granted with
                  | false => exact .failed rfl
                  | true =>
                      obtain ⟨hlevel, -⟩ := isolateForWrite_keeps env.primary f
                      dsimp only
                      split
                      next e f' hiso =>
                        rw [hiso] at hlevel
                        exact .failed hlevel
                      next f' hiso =>
                        rw [hiso] at hlevel
                        exact .unlocked (by simp) hlevel
          | upgrade =>
              simp only [Connection.retryUpgradeDeferredWrite]
              cases env.primary.acquired with
              | error e => exact .failed rfl
              | ok granted =>
                  cases granted with
                  | false => exact .failed rfl
                  | true =>
                      rcases tryUpgrade_spec env.primary f with heq | ⟨e, heq⟩ | heq
                      · rw [heq]
                        exact .ends rfl rfl fun _ _ _ => rfl
                      · rw [heq]
                        exact .failed rfl
                      · rw [heq]
                        exact .failed rfl
          | checkpoint => cases hretry
          | checkpointing isPassive => cases hretry

end MemoryWriteAhead.Statement
