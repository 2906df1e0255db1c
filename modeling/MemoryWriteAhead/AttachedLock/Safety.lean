/-
  MemoryWriteAhead.AttachedLock.Safety
  ────────────────────────────────────
  **THE TRANSACTION LOCK IS EXCLUSIVE AND FAILS CLOSED.**

  The whole argument is one local assertion a record, `RecordInv`: the word a
  record has put into `transactionLock` (`Local.mark`: its id, its negative
  claim, or nothing) is there, and where it has put nothing neither its id nor
  its claim is there.  A step of a record moves the word only among `0` and
  its own two marks (`choose_lock`), so no other record's assertion is
  disturbed as long as the owner ids are positive and pairwise distinct.
-/
import MemoryWriteAhead.AttachedLock.Model

namespace MemoryWriteAhead.AttachedLock

open Transition

/-! ## §1. The mark of a record. -/

/-- The value the record has put into `transactionLock`. -/
def Local.mark (ids : Ids) (l : Local) : Int :=
  match l.pc with
  | .storeRuntimeOwner _ | .promoteClaim _ | .clearRuntimeOwner | .freeLock =>
      -ids.attachedTransactionLockOwnerId
  | _ => if l.attachedTransactionLockHeld then ids.attachedTransactionLockOwnerId else 0

/-- Whether the record's call belongs to a `#tryLockAttachedDatabase` that has
not ended. -/
@[simp] def Pc.trying : Pc → Bool
  | .loadAbandoned _ | .claimLock _ | .storeRuntimeOwner _ | .promoteClaim _
  | .retryDeadline => true
  | _ => false

/-- Whether the record's call is a `#releaseAttachedDatabaseLock`. -/
@[simp] def Pc.releasing : Pc → Bool
  | .releaseClaim | .clearRuntimeOwner | .freeLock => true
  | _ => false

/-- The local assertion of one record. -/
structure RecordInv (ids : Ids) (w : Words) (l : Local) : Prop where
  trying_free : l.pc.trying = true → l.attachedTransactionLockHeld = false
  releasing_held : l.pc.releasing = true → l.attachedTransactionLockHeld = true
  mark_there : l.mark ids ≠ 0 → w.transactionLock = l.mark ids
  mark_absent : l.mark ids = 0 →
    w.transactionLock ≠ ids.attachedTransactionLockOwnerId ∧
      w.transactionLock ≠ -ids.attachedTransactionLockOwnerId

/-- The marks of a record and the free word. -/
def IsMark (ids : Ids) (v : Int) : Prop :=
  v = 0 ∨ v = ids.attachedTransactionLockOwnerId ∨ v = -ids.attachedTransactionLockOwnerId

/-! ## §2. What one choice does to the word. -/

/-- **Step lemma**: a record moves the word only among `0` and its own marks. -/
theorem choose_lock {ids : Ids} {choice : Choice} {w w' : Words} {l l' : Local}
    {o : Option Outcome} (h : choose ids choice w l = some (w', l', o)) :
    w'.transactionLock = w.transactionLock
      ∨ (IsMark ids w.transactionLock ∧ IsMark ids w'.transactionLock) := by
  cases choice with
  | step =>
      simp only [choose] at h
      split at h
      · exact absurd h (by simp)
      · simp only [Option.some.injEq, runStep] at h
        cases hpc : l.pc <;> simp only [hpc] at h
        case claimLock caller =>
          split at h
          next hfree =>
            obtain ⟨rfl, -⟩ := Prod.mk.inj h
            exact .inr ⟨.inl hfree, .inr (.inr rfl)⟩
          next => obtain ⟨rfl, -⟩ := Prod.mk.inj h; exact .inl rfl
        case promoteClaim caller =>
          split at h
          next hclaim =>
            obtain ⟨rfl, -⟩ := Prod.mk.inj h
            exact .inr ⟨.inr (.inr hclaim), .inr (.inl rfl)⟩
          next => obtain ⟨rfl, -⟩ := Prod.mk.inj h; exact .inl rfl
        case releaseClaim =>
          split at h
          next hheld =>
            obtain ⟨rfl, -⟩ := Prod.mk.inj h
            exact .inr ⟨.inr (.inl hheld), .inr (.inr rfl)⟩
          next => obtain ⟨rfl, -⟩ := Prod.mk.inj h; exact .inl rfl
        case freeLock =>
          obtain ⟨rfl, -⟩ := Prod.mk.inj h
          by_cases hclaim : w.transactionLock = -ids.attachedTransactionLockOwnerId
          · exact .inr ⟨.inr (.inr hclaim), .inl (by simp [hclaim])⟩
          · exact .inl (by simp [hclaim])
        all_goals
          first
            | (obtain ⟨rfl, -⟩ := Prod.mk.inj h; exact .inl rfl)
            | (split at h <;> (obtain ⟨rfl, -⟩ := Prod.mk.inj h; exact .inl rfl))
  | tryLock | startRetry | wakeRetry | release | quarantine _ | timedOut =>
      simp only [choose] at h
      split at h
      · obtain ⟨rfl, -⟩ := Prod.mk.inj (Option.some.inj h)
        exact .inl rfl
      · exact absurd h (by simp)

/-! ## §3. A record keeps its own assertion. -/

theorem startTry_inv {ids : Ids} {caller : Caller} {w : Words} {l : Local}
    (hidle : l.pc = .idle) (hinv : RecordInv ids w l) :
    RecordInv ids w (startTry ids caller l).1 := by
  obtain ⟨-, -, hthere, habsent⟩ := hinv
  cases hheld : l.attachedTransactionLockHeld
  · simp only [Local.mark, hidle, hheld, Bool.false_eq_true, if_false] at hthere habsent
    unfold startTry
    by_cases hmissing : ids.attachedTransactionLockOwnerId = 0
        ∨ ids.attachedTransactionLockRuntimeOwnerId = 0
    · constructor <;>
        simp_all [Local.done, Local.mark, Pc.trying, Pc.releasing]
    · constructor <;>
        simp_all [Local.mark, Pc.trying, Pc.releasing]
  · constructor <;>
      simp_all [startTry, Local.done, Local.mark, Pc.trying, Pc.releasing]

/-- Giving up an attempt, or starting a release, from a place where the record
has put nothing but its id into the word. -/
theorem startRelease_inv {ids : Ids} {w : Words} {l : Local}
    (hmark : l.mark ids
      = if l.attachedTransactionLockHeld then ids.attachedTransactionLockOwnerId else 0)
    (hinv : RecordInv ids w l) : RecordInv ids w (startRelease ids l) := by
  obtain ⟨-, -, hthere, habsent⟩ := hinv
  rw [hmark] at hthere habsent
  cases hheld : l.attachedTransactionLockHeld <;>
    by_cases hid : ids.attachedTransactionLockOwnerId = 0 <;>
    constructor <;>
    simp_all [startRelease, Local.done, Local.mark, Pc.trying, Pc.releasing]

theorem done_inv {ids : Ids} {w : Words} {l : Local}
    (hmark : l.mark ids
      = if l.attachedTransactionLockHeld then ids.attachedTransactionLockOwnerId else 0)
    (hinv : RecordInv ids w l) : RecordInv ids w l.done := by
  obtain ⟨-, -, hthere, habsent⟩ := hinv
  rw [hmark] at hthere habsent
  cases hheld : l.attachedTransactionLockHeld <;>
    constructor <;> simp_all [Local.done, Local.mark, Pc.trying, Pc.releasing]

theorem afterFailedTry_inv {ids : Ids} (caller : Caller) {w : Words} {l : Local}
    (hheld : l.attachedTransactionLockHeld = false) (hmark : l.mark ids = 0)
    (hinv : RecordInv ids w l) : RecordInv ids w (afterFailedTry caller l) := by
  have habsent := hinv.mark_absent hmark
  cases caller <;> constructor <;>
    simp_all [afterFailedTry, Local.done, Local.mark, Pc.trying, Pc.releasing]

theorem afterThrow_inv {ids : Ids} (caller : Caller) {w : Words} {l : Local}
    (hheld : l.attachedTransactionLockHeld = false) (hmark : l.mark ids = 0)
    (hinv : RecordInv ids w l) : RecordInv ids w (afterThrow ids caller l) := by
  have hmark' : l.mark ids
      = if l.attachedTransactionLockHeld then ids.attachedTransactionLockOwnerId else 0 := by
    simp [hmark, hheld]
  cases caller with
  | jLock => exact done_inv hmark' hinv
  | retryLockAttachedDatabase => exact startRelease_inv hmark' hinv

/-- **An atomic step of the running call keeps the record's assertion.**  One
case for each program counter. -/
theorem runStep_inv {ids : Ids} {w : Words} {l : Local}
    (hpos : 0 < ids.attachedTransactionLockOwnerId) (hinv : RecordInv ids w l) :
    RecordInv ids (runStep ids w l).1 (runStep ids w l).2.1 := by
  have htrying := hinv.trying_free
  have hreleasing := hinv.releasing_held
  have hthere := hinv.mark_there
  have habsent := hinv.mark_absent
  have hne : ids.attachedTransactionLockOwnerId ≠ -ids.attachedTransactionLockOwnerId := by
    omega
  cases hpc : l.pc with
  | idle => simpa [runStep, hpc] using hinv
  | loadAbandoned caller =>
      have hheld := htrying (by simp [hpc, Pc.trying])
      have hmark : l.mark ids = 0 := by simp [Local.mark, hpc, hheld]
      by_cases hab : w.abandonedTransaction = 0
      · constructor <;>
          simp_all [runStep, Local.mark, Pc.trying, Pc.releasing]
      · simpa [runStep, hpc, hab] using afterThrow_inv caller hheld hmark hinv
  | claimLock caller =>
      have hheld := htrying (by simp [hpc, Pc.trying])
      have hmark : l.mark ids = 0 := by simp [Local.mark, hpc, hheld]
      by_cases hfree : w.transactionLock = 0
      · have hzero : ids.attachedTransactionLockOwnerId ≠ 0 := by omega
        constructor <;> simp_all [runStep, Local.mark, Pc.trying, Pc.releasing]
      · simpa [runStep, hpc, hfree] using
          afterFailedTry_inv caller hheld hmark hinv
  | storeRuntimeOwner caller =>
      constructor <;> simp_all [runStep, Local.mark, Pc.trying, Pc.releasing]
  | promoteClaim caller =>
      -- the claim is still there, so the attempt cannot lose it
      have hclaim : w.transactionLock = -ids.attachedTransactionLockOwnerId := by
        simpa [Local.mark, hpc] using hthere (by simp [Local.mark, hpc]; omega)
      constructor <;> simp_all [runStep, Local.mark, Pc.trying, Pc.releasing]
  | retryDeadline =>
      constructor <;> simp_all [runStep, Local.mark, Pc.trying, Pc.releasing]
  | releaseClaim =>
      have hheld := hreleasing (by simp [hpc, Pc.releasing])
      have hlock : w.transactionLock = ids.attachedTransactionLockOwnerId := by
        simpa [Local.mark, hpc, hheld] using
          hthere (by simp [Local.mark, hpc, hheld]; omega)
      constructor <;> simp_all [runStep, Local.mark, Pc.trying, Pc.releasing]
  | clearRuntimeOwner =>
      constructor <;> simp_all [runStep, Local.mark, Pc.trying, Pc.releasing]
  | freeLock =>
      have hclaim : w.transactionLock = -ids.attachedTransactionLockOwnerId := by
        simpa [Local.mark, hpc] using hthere (by simp [Local.mark, hpc]; omega)
      constructor <;> simp_all [runStep, Local.mark, Pc.trying, Pc.releasing]
      omega
  | loadRuntimeOwner ownerId =>
      have hmark : l.mark ids
          = if l.attachedTransactionLockHeld then ids.attachedTransactionLockOwnerId else 0 := by
        simp [Local.mark, hpc]
      by_cases hown : w.transactionLockRuntimeOwner = ownerId
      · constructor <;> simp_all [runStep, Local.mark, Pc.trying, Pc.releasing]
      · simpa [runStep, hpc, hown] using done_inv hmark hinv
  | loadTransactionLock ownerId =>
      have hmark : l.mark ids
          = if l.attachedTransactionLockHeld then ids.attachedTransactionLockOwnerId else 0 := by
        simp [Local.mark, hpc]
      by_cases hlock : w.transactionLock = 0
      · simpa [runStep, hpc, hlock] using done_inv hmark hinv
      · constructor <;> simp_all [runStep, Local.mark, Pc.trying, Pc.releasing]
  | storeAbandoned ownerId =>
      constructor <;> simp_all [runStep, Local.done, Local.mark, Pc.trying, Pc.releasing]

theorem eq_of_some {w w' : Words} {r : Local × Option Outcome} {l' : Local}
    {o : Option Outcome} (h : some (w, r) = some (w', l', o)) : w' = w ∧ l' = r.1 := by
  obtain ⟨hw, hr⟩ := Prod.mk.inj (Option.some.inj h)
  exact ⟨hw.symm, by rw [hr]⟩

/-- **A record keeps its own assertion, whatever it does next.** -/
theorem choose_inv {ids : Ids} {choice : Choice} {w w' : Words} {l l' : Local}
    {o : Option Outcome} (hpos : 0 < ids.attachedTransactionLockOwnerId)
    (hinv : RecordInv ids w l) (h : choose ids choice w l = some (w', l', o)) :
    RecordInv ids w' l' := by
  have hmark (hpc : l.pc = .idle ∨ l.pc = .retryDeadline) : l.mark ids
      = if l.attachedTransactionLockHeld then ids.attachedTransactionLockOwnerId else 0 := by
    rcases hpc with hpc | hpc <;> simp [Local.mark, hpc]
  cases choice <;> simp only [choose] at h <;> split at h <;> try (cases h; done)
  case tryLock.isTrue hpc =>
    obtain ⟨rfl, rfl⟩ := eq_of_some h
    exact startTry_inv hpc hinv
  case startRetry.isTrue hpc =>
    obtain ⟨rfl, rfl⟩ := eq_of_some h
    exact startTry_inv hpc hinv
  case wakeRetry.isTrue hpc =>
    obtain ⟨rfl, rfl⟩ := eq_of_some h
    exact startTry_inv hpc.1 ⟨hinv.1, hinv.2, hinv.3, hinv.4⟩
  case release.isTrue hpc =>
    obtain ⟨rfl, rfl⟩ := eq_of_some h
    exact startRelease_inv (hmark (.inl hpc)) hinv
  case quarantine.isTrue ownerId hpc =>
    obtain ⟨rfl, rfl⟩ := eq_of_some h
    obtain ⟨-, -, hthere, habsent⟩ := hinv
    constructor <;> simp_all [Local.mark, Pc.trying, Pc.releasing]
  case step.isFalse hpc =>
    have hrun := runStep_inv hpos hinv
    rw [Option.some.inj h] at hrun
    exact hrun
  case timedOut.isTrue hpc =>
    obtain ⟨rfl, rfl⟩ := eq_of_some h
    exact startRelease_inv (hmark (.inr hpc)) hinv

/-! ## §4. All records together. -/

/-- The open records of the attached file, one an instance, with positive and
pairwise distinct lock owner ids. -/
structure Records (Instance : Type) where
  ids : Instance → Ids
  owner_pos : ∀ i, 0 < (ids i).attachedTransactionLockOwnerId
  owner_inj : ∀ i j, (ids i).attachedTransactionLockOwnerId
    = (ids j).attachedTransactionLockOwnerId → i = j

variable {Instance : Type} [DecidableEq Instance] (R : Records Instance)

/-- The system of all records of the attached file. -/
abbrev Records.system : System (Config Instance Words Local) (ThreadLabel Instance Act) :=
  (machine R.ids).system

variable {R}

omit [DecidableEq Instance] in
/-- **Frame lemma**: a step of one record leaves every other record's
assertion true. -/
theorem RecordInv.frame {i j : Instance} (hij : j ≠ i) {choice : Choice}
    {w w' : Words} {l l' lj : Local} {o : Option Outcome}
    (h : choose (R.ids i) choice w l = some (w', l', o))
    (hinv : RecordInv (R.ids j) w lj) : RecordInv (R.ids j) w' lj := by
  have hi := R.owner_pos i
  have hj := R.owner_pos j
  have hne : (R.ids j).attachedTransactionLockOwnerId
      ≠ (R.ids i).attachedTransactionLockOwnerId := fun e => hij (R.owner_inj _ _ e)
  obtain ⟨htrying, hreleasing, hthere, habsent⟩ := hinv
  refine ⟨htrying, hreleasing, fun hm => ?_, fun hm => ?_⟩
  · rcases choose_lock h with hsame | ⟨hold, -⟩
    · rw [hsame]; exact hthere hm
    · -- the word is one of `i`'s marks, so it is not `j`'s
      have hw := hthere hm
      have hmark : lj.mark (R.ids j) = (R.ids j).attachedTransactionLockOwnerId
          ∨ lj.mark (R.ids j) = -(R.ids j).attachedTransactionLockOwnerId := by
        unfold Local.mark at hm ⊢
        split at hm <;> first | exact .inr rfl | (split at hm <;> simp_all)
      unfold IsMark at hold
      omega
  · rcases choose_lock h with hsame | ⟨-, hnew⟩
    · rw [hsame]; exact habsent hm
    · unfold IsMark at hnew
      omega

/-- **The invariant**: every record's assertion holds in every reached state. -/
theorem Records.reach_inv {ok : Config Instance Words Local → ThreadLabel Instance Act → Prop}
    {c : Config Instance Words Local} (hc : Reach R.system ok c) (i : Instance) :
    RecordInv (R.ids i) c.shared (c.threads i) := by
  have hall : Threadwise (fun _ => True) (fun i => RecordInv (R.ids i)) c := by
    refine Threads.reach_threadwise ?_ ?_ ?_ hc
    · rintro w th ⟨hfree, hidle⟩
      refine ⟨trivial, fun j => ?_⟩
      have hpos := R.owner_pos j
      obtain ⟨hheld, hpc⟩ := hidle j
      constructor <;> simp [Local.mark, Pc.trying, Pc.releasing, hheld, hpc, hfree]
      omega
    · intro c j a w l hinv _ hstep
      exact ⟨trivial, choose_inv (R.owner_pos j) (hinv.2 j) hstep,
        fun u hu => RecordInv.frame hu hstep (hinv.2 u)⟩
    · intro c c' _ _ hstep
      exact hstep.elim
  exact hall.2 i

/-- A record in its transaction has its id in the word. -/
theorem RecordInv.lock_of_inTransaction {ids : Ids} {w : Words} {l : Local}
    (hpos : 0 < ids.attachedTransactionLockOwnerId) (hinv : RecordInv ids w l)
    (hl : l.InTransaction) :
    w.transactionLock = ids.attachedTransactionLockOwnerId := by
  obtain ⟨hheld, -, hclear, hfree⟩ := hl
  have hmark : l.mark ids = ids.attachedTransactionLockOwnerId := by
    cases hpc : l.pc <;> simp_all [Local.mark]
    all_goals
      have := hinv.trying_free (by simp [hpc, Pc.trying])
      simp_all
  rw [hinv.mark_there (by rw [hmark]; omega), hmark]

/-- No step finds its own claim gone. -/
theorem choose_never_lostClaim {ids : Ids} {choice : Choice} {w w' : Words} {l l' : Local}
    {o : Option Outcome} (hpos : 0 < ids.attachedTransactionLockOwnerId)
    (hinv : RecordInv ids w l) (h : choose ids choice w l = some (w', l', o)) :
    o ≠ some .lostClaim := by
  rintro rfl
  cases choice <;> simp only [choose] at h <;> split at h <;> try cases h
  case step.isFalse hidle =>
    have ho : (runStep ids w l).2.2 = some .lostClaim := by rw [Option.some.inj h]
    cases hpc : l.pc <;> simp only [runStep, hpc] at ho <;> try cases ho
    case promoteClaim caller =>
      have hclaim : w.transactionLock = -ids.attachedTransactionLockOwnerId := by
        simpa [Local.mark, hpc] using
          hinv.mark_there (by simp [Local.mark, hpc]; omega)
      simp [hclaim] at ho
    all_goals split at ho <;> simp at ho
  all_goals
    simp only [Option.some.injEq, Prod.mk.injEq, startTry] at h
    try (split at h <;> try split at h) <;> simp at h

/-- An attempt returns true only to a record whose id or claim is in the word. -/
theorem choose_returns_true {ids : Ids} {choice : Choice} {w w' : Words} {l l' : Local}
    (hpos : 0 < ids.attachedTransactionLockOwnerId) (hinv : RecordInv ids w l)
    (h : choose ids choice w l = some (w', l', some (.tryReturned true))) :
    w.transactionLock = ids.attachedTransactionLockOwnerId
      ∨ w.transactionLock = -ids.attachedTransactionLockOwnerId := by
  have hearly (hidle : l.pc = .idle) (hheld : l.attachedTransactionLockHeld = true) :
      w.transactionLock = ids.attachedTransactionLockOwnerId :=
    hinv.lock_of_inTransaction hpos ⟨hheld, by simp [hidle]⟩
  cases choice <;> simp only [choose] at h <;> split at h <;> try cases h
  case tryLock.isTrue hidle | startRetry.isTrue hidle =>
    cases hheld : l.attachedTransactionLockHeld
    · simp only [startTry, hheld, Option.some.injEq, Prod.mk.injEq] at h
      split at h
      next hcontra => exact absurd hcontra (by simp)
      next => split at h <;> simp at h
    · exact .inl (hearly hidle hheld)
  case wakeRetry.isTrue hidle =>
    cases hheld : l.attachedTransactionLockHeld
    · simp only [startTry, hheld, Option.some.injEq, Prod.mk.injEq] at h
      split at h
      next hcontra => exact absurd hcontra (by simp)
      next => split at h <;> simp at h
    · exact .inl (hearly hidle.1 hheld)
  case step.isFalse hidle =>
    have ho : (runStep ids w l).2.2 = some (.tryReturned true) := by rw [Option.some.inj h]
    cases hpc : l.pc <;> simp only [runStep, hpc] at ho <;> try cases ho
    case promoteClaim caller =>
      by_cases hclaim : w.transactionLock = -ids.attachedTransactionLockOwnerId
      · exact .inr hclaim
      · simp [hclaim] at ho
    all_goals split at ho <;> simp at ho

/-! ## §5. Exclusion and fail-closure. -/

/-- What a step told the caller of the running call. -/
def outcomeOf : ThreadLabel Instance Act → Option Outcome
  | .thread _ a => a.outcome
  | .env => none

/-- The steps of every context but that of record `i`: `i`'s context is dead. -/
def deadContext (i : Instance) (_ : Config Instance Words Local) :
    ThreadLabel Instance Act → Prop
  | .thread j _ => j ≠ i
  | .env => True

/-- While record `i` is in its transaction and its context takes no step, the
word keeps `i`'s id and no attempt returns true. -/
theorem Records.no_try_succeeds {c c' : Config Instance Words Local} {i : Instance}
    {ls : List (ThreadLabel Instance Act)} (hc : Reach R.system anyStep c)
    (hi : (c.threads i).InTransaction) (hp : Path R.system (deadContext i) c ls c') :
    ∀ l ∈ ls, outcomeOf l ≠ some (.tryReturned true) := by
  have hkept : ∀ d l d', (Reach R.system anyStep d ∧ d.threads i = c.threads i) →
      deadContext i d l → R.system.next d l d' →
      (Reach R.system anyStep d' ∧ d'.threads i = c.threads i)
        ∧ outcomeOf l ≠ some (.tryReturned true) := by
    intro d l d' hd hdead hn
    obtain ⟨hd, hsame⟩ := hd
    have hnext : Reach R.system anyStep d' := hd.step (by trivial) hn
    cases hn with
    | @thread j a w l hstep =>
        have hji : j ≠ i := hdead
        refine ⟨⟨hnext, by rw [Config.put_threads_ne d (Ne.symm hji), hsame]⟩, ?_⟩
        intro htrue
        have hlock := (R.reach_inv hd i).lock_of_inTransaction (R.owner_pos i)
          (by rw [hsame]; exact hi)
        change choose (R.ids j) a.choice _ _ = some (w, l, a.outcome) at hstep
        rw [show a.outcome = some (.tryReturned true) from htrue] at hstep
        have hpos := R.owner_pos i
        have hposj := R.owner_pos j
        rcases choose_returns_true hposj (R.reach_inv hd j) hstep with hj | hj
        · exact hji (R.owner_inj _ _ (hj.symm.trans hlock))
        · omega
    | env hstep => exact hstep.elim
  exact (hp.invariant _ _ hkept ⟨hc, rfl⟩).2

/-- **The transaction lock of an attached database is exclusive and fails
closed.**  In every reached state at most one record is in its transaction; no
step throws `Lost attached database lock claim`; and once the context of a
record in its transaction takes no further step, no attempt of any record
returns true again. -/
theorem transactionLock_exclusive_and_fails_closed {c : Config Instance Words Local}
    (hc : Reach R.system anyStep c) :
    (∀ i j, (c.threads i).InTransaction → (c.threads j).InTransaction → i = j)
      ∧ (∀ l c', R.system.next c l c' → outcomeOf l ≠ some .lostClaim)
      ∧ ∀ i, (c.threads i).InTransaction → ∀ ls c', Path R.system (deadContext i) c ls c' →
          ∀ l ∈ ls, outcomeOf l ≠ some (.tryReturned true) := by
  refine ⟨fun i j hi hj => ?_, fun l c' hn => ?_, fun i hi ls c' hp =>
    R.no_try_succeeds hc hi hp⟩
  · have hlocki := (R.reach_inv hc i).lock_of_inTransaction (R.owner_pos i) hi
    have hlockj := (R.reach_inv hc j).lock_of_inTransaction (R.owner_pos j) hj
    exact R.owner_inj i j (hlocki.symm.trans hlockj)
  · cases hn with
    | @thread j a w l hstep =>
        exact choose_never_lostClaim (R.owner_pos j) (R.reach_inv hc j) hstep
    | env hstep => exact hstep.elim

/-- Two instances with lock owner ids 1 and 2 in contexts 11 and 12. -/
def twoRecords : Records Bool where
  ids b := if b then ⟨1, 11⟩ else ⟨2, 12⟩
  owner_pos b := by cases b <;> decide
  owner_inj i j h := by cases i <;> cases j <;> simp_all

/-- One choice of one instance, executed. -/
def exec {Instance : Type} [DecidableEq Instance] (R : Records Instance)
    (c : Config Instance Words Local) (k : Instance × Choice) :
    Option (Config Instance Words Local) :=
  (choose (R.ids k.1) k.2 c.shared (c.threads k.1)).map fun r => c.put k.1 r.1 r.2.1

theorem exec_next {Instance : Type} [DecidableEq Instance] {R : Records Instance}
    (c : Config Instance Words Local) (k : Instance × Choice) (c' : Config Instance Words Local)
    (h : exec R c k = some c') : ∃ l, anyStep c l ∧ R.system.next c l c' := by
  obtain ⟨⟨w, l, o⟩, hstep, rfl⟩ := Option.map_eq_some_iff.mp h
  exact ⟨.thread k.1 ⟨k.2, o⟩, trivial, .thread hstep⟩

/-- Instance `true` takes the free lock: no other instance is then in its
transaction, and none gets in if the context of `true` dies there. -/
theorem transactionLock_exclusive_and_fails_closed_two :
    ∃ c, Reach twoRecords.system anyStep c ∧ (c.threads true).InTransaction
      ∧ (∀ j, (c.threads j).InTransaction → true = j)
      ∧ ∀ ls c', Path twoRecords.system (deadContext true) c ls c' →
          ∀ l ∈ ls, outcomeOf l ≠ some (.tryReturned true) := by
  have hinit : Reach twoRecords.system anyStep ⟨⟨0, 0, 0⟩, fun _ => ⟨false, 0, .idle⟩⟩ :=
    .init ⟨rfl, fun _ => ⟨rfl, rfl⟩⟩
  obtain ⟨c, hc, htrue⟩ := hinit.exists_of_commands exec_next
    [(true, .tryLock), (true, .step), (true, .step), (true, .step), (true, .step)]
    (fun c => decide (c.threads true).InTransaction) (by decide)
  replace htrue := of_decide_eq_true htrue
  obtain ⟨hexcl, -, hclosed⟩ := transactionLock_exclusive_and_fails_closed hc
  exact ⟨c, hc, htrue, fun j hj => hexcl true j htrue hj, hclosed true htrue⟩

end MemoryWriteAhead.AttachedLock
