/-
  MemoryWriteAhead.AttachedLock.Orphan
  ────────────────────────────────────
  **AFTER A RECOVERY NO ATTACHED LOCK IS LEFT WITH A DEAD OWNER.**

  `recoverTerminatedMemoryWriteAheadRuntimeOwner` finds the locks of a terminated
  owner by the word `transactionLockRuntimeOwner`, which `#tryLockAttachedDatabase`
  stores after it has claimed the lock word and `#releaseAttachedDatabaseLock`
  clears before it frees it.  An owner that dies in between is not found:
  `dead_claim_not_quarantined` is such a run.

  `attached_lock_not_orphaned`: where no owner dies there with a lock that is not
  quarantined already, and the recovery finds the lease slot of an owner that has
  locks, every attached file is afterwards unlocked, quarantined, or locked by
  somebody else.

  The parties are any number of open records, each on one of any number of attached
  files; a party may also run the recovery.  The words of the lease slots may be
  changed at any time by the lease operations, which are not part of this model.
-/
import Mathlib
import MemoryWriteAhead.AttachedLock.Safety
import MemoryWriteAhead.Lease.Model

namespace MemoryWriteAhead.AttachedLock

open Transition
open Lease (SlotIndex nextSlot)

variable {File : Type} [DecidableEq File]

/-! ## §1. The recovery of a terminated owner. -/

/-- The `ownerId` words of the lease slots and the words of the attached files. -/
structure Shared (File : Type) where
  leaseOwnerId : SlotIndex → Int
  files : File → Words

def Shared.setFile (s : Shared File) (f : File) (w : Words) : Shared File :=
  { s with files := Function.update s.files f w }

def Shared.setLeaseOwnerId (s : Shared File) (i : SlotIndex) (ownerId : Int) : Shared File :=
  { s with leaseOwnerId := Function.update s.leaseOwnerId i ownerId }

/-- The next atomic step of `recoverTerminatedMemoryWriteAheadRuntimeOwner`; its
steps on the handle counters touch no word of this model and are left out. -/
inductive RecoverPc (File : Type) where
  | idle
  /-- `Atomics.load(runtimeMeta, ownerIdIndex) === ownerId` -/
  | findSlot (ownerId : Int) (i : SlotIndex)
  /-- `Atomics.compareExchange(runtimeMeta, ownerIdIndex, ownerId, -ownerId)` -/
  | claimSlot (ownerId : Int) (i : SlotIndex)
  /-- quarantine of `file`, then of the `rest` -/
  | loadRuntimeOwner (ownerId : Int) (i : SlotIndex) (file : File) (rest : List File)
  | loadTransactionLock (ownerId : Int) (i : SlotIndex) (file : File) (rest : List File)
  | storeAbandoned (ownerId : Int) (i : SlotIndex) (file : File) (rest : List File)
  /-- `clearOwnerLeaseSlot`, the store of the owner word -/
  | clearSlot (ownerId : Int) (i : SlotIndex)
  deriving DecidableEq

/-- A step of the recovery; the last component is the owner id with which it
returns. -/
abbrev RecoverStep (File : Type) := Shared File × RecoverPc File × Option Int

/-- `Object.values(runtime.files).forEach` goes on. -/
def nextFile (ownerId : Int) (i : SlotIndex) : List File → RecoverPc File
  | [] => .clearSlot ownerId i
  | file :: rest => .loadRuntimeOwner ownerId i file rest

def recoverStep (files : List File) (s : Shared File) : RecoverPc File → RecoverStep File
  | .idle => (s, .idle, none)
  | .findSlot ownerId i =>
      if s.leaseOwnerId i = ownerId then (s, .claimSlot ownerId i, none)
      else
        match nextSlot i with
        | some j => (s, .findSlot ownerId j, none)
        | none => (s, .idle, some ownerId)
  | .claimSlot ownerId i =>
      if s.leaseOwnerId i = ownerId then
        (s.setLeaseOwnerId i (-ownerId), nextFile ownerId i files, none)
      else (s, .idle, some ownerId)
  | .loadRuntimeOwner ownerId i file rest =>
      if (s.files file).transactionLockRuntimeOwner ≠ ownerId then
        (s, nextFile ownerId i rest, none)
      else (s, .loadTransactionLock ownerId i file rest, none)
  | .loadTransactionLock ownerId i file rest =>
      if (s.files file).transactionLock ≠ 0 then (s, .storeAbandoned ownerId i file rest, none)
      else (s, nextFile ownerId i rest, none)
  | .storeAbandoned ownerId i file rest =>
      (s.setFile file { s.files file with abandonedTransaction := 1 }, nextFile ownerId i rest,
        none)
  | .clearSlot ownerId i => (s.setLeaseOwnerId i 0, .idle, some ownerId)

/-! ## §2. Any number of parties. -/

/-- The open records of the attached files, with positive and pairwise distinct
lock owner ids; `files` are the registered files of the runtime, all of them. -/
structure Parties (Party File : Type) where
  file : Party → File
  ids : Party → Ids
  owner_pos : ∀ i, 0 < (ids i).attachedTransactionLockOwnerId
  owner_inj : ∀ i j, (ids i).attachedTransactionLockOwnerId
    = (ids j).attachedTransactionLockOwnerId → i = j
  files : List File
  registered : ∀ f, f ∈ files

/-- A party: its record, and a recovery it runs. -/
structure PartyLocal (File : Type) where
  record : Local
  recovery : RecoverPc File
  deriving DecidableEq

inductive PartyChoice where
  | record (choice : Choice)
  | recoverTerminated (ownerId : Int)
  | recoverStep
  deriving DecidableEq

/-- An action: the choice, and the owner id whose recovery has returned with it. -/
structure PartyAct where
  choice : PartyChoice
  recovered : Option Int
  deriving DecidableEq

variable {Party : Type}

namespace Parties

variable (P : Parties Party File)

/-- The lease's owner id under which the record was opened. -/
def runtimeOwnerId (i : Party) : Int := (P.ids i).attachedTransactionLockRuntimeOwnerId

omit [DecidableEq File] in
/-- The records without their files. -/
def records : Records Party := ⟨P.ids, P.owner_pos, P.owner_inj⟩

/-- One choice of a party; `none` where it is not open to it. -/
def choose (i : Party) (choice : PartyChoice) (s : Shared File) (l : PartyLocal File) :
    Option (Shared File × PartyLocal File × Option Int) :=
  match choice with
  | .record choice =>
      if l.recovery = .idle then
        (AttachedLock.choose (P.ids i) choice (s.files (P.file i)) l.record).map fun r =>
          (s.setFile (P.file i) r.1, { l with record := r.2.1 }, none)
      else none
  | .recoverTerminated ownerId =>
      if l.record.pc = .idle ∧ l.recovery = .idle then
        if ownerId ≤ 0 then some (s, l, none)
        else some (s, { l with recovery := .findSlot ownerId 0 }, none)
      else none
  | .recoverStep =>
      if l.recovery = .idle then none
      else
        let r := recoverStep P.files s l.recovery
        some (r.1, { l with recovery := r.2.1 }, r.2.2)

/-- The files start unlocked with every record idle; the lease slots change by
themselves. -/
def machine : Threads Party (Shared File) (PartyLocal File) PartyAct where
  start s th := (∀ f, (s.files f).transactionLock = 0)
    ∧ ∀ i, (th i).record.attachedTransactionLockHeld = false ∧ (th i).record.pc = .idle
      ∧ (th i).recovery = .idle
  act i a s l s' l' := P.choose i a.choice s l = some (s', l', a.recovered)
  env c c' := ∃ leaseOwnerId, c' = { c with shared := { c.shared with leaseOwnerId } }

end Parties

abbrev PartyConfig (Party File : Type) := Config Party (Shared File) (PartyLocal File)

/-- The recovery of an owner id has returned, or not. -/
def withRecovered (recovered : Int → Bool) : Option Int → Int → Bool
  | some ownerId => Function.update recovered ownerId true
  | none => recovered

/-- The owner ids whose recovery has returned. -/
def noteRecovered (recovered : Int → Bool) (_ : PartyConfig Party File × (Party → Bool)) :
    MortalLabel Party PartyAct → Int → Bool
  | .lives (.thread _ a) => withRecovered recovered a.recovered
  | _ => recovered

variable [DecidableEq Party]

/-- The parties, who may die, with the recoveries that have returned. -/
abbrev Parties.system (P : Parties Party File) :
    System ((PartyConfig Party File × (Party → Bool)) × (Int → Bool))
      (MortalLabel Party PartyAct) :=
  P.machine.mortal.record (fun _ => false) noteRecovered

/-- The context of an owner id is dead with all its records. -/
def Parties.Terminated (P : Parties Party File) (dead : Party → Bool) (ownerId : Int) : Prop :=
  ∀ i, P.runtimeOwnerId i = ownerId → dead i = true

variable {P : Parties Party File} {c : PartyConfig Party File} {dead : Party → Bool}

/-- The recovery of an owner is called only after its context has terminated. -/
def CalledForDead (P : Parties Party File) :
    (PartyConfig Party File × (Party → Bool)) × (Int → Bool) → MortalLabel Party PartyAct → Prop
  | x, .lives (.thread _ ⟨.recoverTerminated ownerId, _⟩) => P.Terminated x.1.2 ownerId
  | _, _ => True

/-- Between the claim of the lock and the store of its owner word, or between the
clear of the owner word and the store that frees the lock. -/
def Pc.unnamed : Pc → Bool
  | .storeRuntimeOwner _ | .freeLock => true
  | _ => false

/-- The words of the record's file. -/
abbrev Parties.words (P : Parties Party File) (c : PartyConfig Party File) (i : Party) : Words :=
  c.shared.files (P.file i)

/-- What the record has put into its file's lock word. -/
abbrev Parties.mark (P : Parties Party File) (c : PartyConfig Party File) (i : Party) : Int :=
  (c.threads i).record.mark (P.ids i)

/-- No record of the owner can hold the file any more, or the file is quarantined. -/
def Parties.Settled (P : Parties Party File) (c : PartyConfig Party File) (ownerId : Int)
    (f : File) : Prop :=
  (c.shared.files f).abandonedTransaction ≠ 0
    ∨ ∀ i, P.file i = f → P.runtimeOwnerId i = ownerId → P.mark c i = 0

/-- The recovery finds the owner's lease slot and claims it, or there is no lock that it
would have to quarantine. -/
def Parties.Finds (P : Parties Party File) (c : PartyConfig Party File) :
    RecoverPc File → Prop
  | .findSlot ownerId i =>
      c.shared.leaseOwnerId i = ownerId ∨ nextSlot i ≠ none ∨ ∀ f, P.Settled c ownerId f
  | .claimSlot ownerId i => c.shared.leaseOwnerId i = ownerId ∨ ∀ f, P.Settled c ownerId f
  | _ => True

/-- **The condition**: nobody dies while its lock has no owner word, up to a lock that is
quarantined, and a recovery finds the owner's lease slot, up to an owner without locks. -/
def Named (P : Parties Party File)
    (x : (PartyConfig Party File × (Party → Bool)) × (Int → Bool))
    (label : MortalLabel Party PartyAct) : Prop :=
  CalledForDead P x label ∧
    match label with
    | .dies i => (x.1.1.threads i).record.pc.unnamed = false
        ∨ (P.words x.1.1 i).abandonedTransaction ≠ 0
    | .lives (.thread i a) =>
        a.choice = .recoverStep → P.Finds x.1.1 (x.1.1.threads i).recovery
    | .lives .env => True

/-! ## §3. Who has put what into the words of a file. -/

/-- A lock that is named carries the owner id of its record. -/
def OwnerInv (ids : Ids) (w : Words) (l : Local) : Prop :=
  l.mark ids ≠ 0 → l.pc.unnamed = false →
    w.transactionLockRuntimeOwner = ids.attachedTransactionLockRuntimeOwnerId

/-- What a recovery has done so far. -/
def Parties.RecoveryInv (P : Parties Party File) (c : PartyConfig Party File)
    (dead : Party → Bool) : RecoverPc File → Prop
  | .idle => True
  | .findSlot ownerId _ | .claimSlot ownerId _ => P.Terminated dead ownerId
  | .loadRuntimeOwner ownerId _ file rest | .loadTransactionLock ownerId _ file rest
  | .storeAbandoned ownerId _ file rest =>
      P.Terminated dead ownerId ∧ ∀ f, f ∉ file :: rest → P.Settled c ownerId f
  | .clearSlot ownerId _ => P.Terminated dead ownerId ∧ ∀ f, P.Settled c ownerId f

/-- **The invariant.** -/
structure Parties.Inv (P : Parties Party File) (c : PartyConfig Party File) (dead : Party → Bool)
    (recovered : Int → Bool) : Prop where
  record : ∀ i, RecordInv (P.ids i) (P.words c i) (c.threads i).record
  owner : ∀ i, OwnerInv (P.ids i) (P.words c i) (c.threads i).record
  marked : ∀ f, (c.shared.files f).transactionLock ≠ 0 →
    ∃ i, P.file i = f ∧ P.mark c i = (c.shared.files f).transactionLock
  stopped : ∀ i, dead i = true → (c.threads i).record.pc.unnamed = false
    ∨ (P.words c i).abandonedTransaction ≠ 0
  recovery : ∀ i, P.RecoveryInv c dead (c.threads i).recovery
  recovered : ∀ ownerId, recovered ownerId = true →
    P.Terminated dead ownerId ∧ ∀ f, P.Settled c ownerId f

section Record

variable {ids : Ids} {w w' : Words} {l l' : Local} {o : Option Outcome} {choice : Choice}

/-- A record that has just gone on or ended without a step on the words. -/
theorem OwnerInv.same_held (hown : OwnerInv ids w l)
    (hheld : l'.attachedTransactionLockHeld = l.attachedTransactionLockHeld)
    (hmark : l.mark ids = if l.attachedTransactionLockHeld
      then ids.attachedTransactionLockOwnerId else 0)
    (hmark' : l'.mark ids = if l'.attachedTransactionLockHeld
      then ids.attachedTransactionLockOwnerId else 0)
    (hnamed : l.pc.unnamed = false) : OwnerInv ids w l' := by
  intro hne _
  apply hown
  · rw [hmark, ← hheld, ← hmark']
    exact hne
  · exact hnamed

/-- A record without a lock has nothing to name. -/
theorem OwnerInv.of_free (hmark : l'.mark ids = 0) : OwnerInv ids w l' :=
  fun hne _ => absurd hmark hne

theorem done_mark : l.done.mark ids
    = if l.done.attachedTransactionLockHeld then ids.attachedTransactionLockOwnerId else 0 := rfl

theorem startRelease_mark : (startRelease ids l).mark ids
      = if (startRelease ids l).attachedTransactionLockHeld
        then ids.attachedTransactionLockOwnerId else 0 := by
  unfold startRelease
  split <;> rfl

theorem startRelease_held :
    (startRelease ids l).attachedTransactionLockHeld = l.attachedTransactionLockHeld := by
  unfold startRelease
  split <;> rfl

theorem startTry_mark {caller : Caller} : (startTry ids caller l).1.mark ids
      = if (startTry ids caller l).1.attachedTransactionLockHeld
        then ids.attachedTransactionLockOwnerId else 0 := by
  unfold startTry
  split
  · rfl
  next hfree =>
    split
    · rfl
    · simp [Local.mark, hfree]

theorem startTry_held {caller : Caller} :
    (startTry ids caller l).1.attachedTransactionLockHeld = l.attachedTransactionLockHeld := by
  unfold startTry
  split
  · rfl
  · split <;> rfl

theorem afterFailedTry_free {caller : Caller} (hfree : l.attachedTransactionLockHeld = false) :
    (afterFailedTry caller l).mark ids = 0 := by
  cases caller <;> simp [afterFailedTry, Local.done, Local.mark, hfree]

theorem afterThrow_free {caller : Caller} (hfree : l.attachedTransactionLockHeld = false) :
    (afterThrow ids caller l).mark ids = 0 := by
  cases caller <;> simp [afterThrow, startRelease, Local.done, Local.mark, hfree]

/-- **A record's own step keeps the name of its lock.** -/
theorem runStep_owner (hinv : RecordInv ids w l) (hown : OwnerInv ids w l) :
    OwnerInv ids (runStep ids w l).1 (runStep ids w l).2.1 := by
  have hfree := hinv.trying_free
  cases hpc : l.pc with
  | idle =>
      simp only [runStep, hpc]
      exact hown
  | loadAbandoned caller =>
      rw [hpc] at hfree
      simp only [runStep, hpc]
      split
      · exact .of_free (afterThrow_free (hfree rfl))
      · exact .of_free (by simp [Local.mark, hfree rfl])
  | claimLock caller =>
      rw [hpc] at hfree
      simp only [runStep, hpc]
      split
      · intro _ hnamed
        cases hnamed
      · exact .of_free (afterFailedTry_free (hfree rfl))
  | storeRuntimeOwner caller =>
      simp only [runStep, hpc]
      exact fun _ _ => rfl
  | promoteClaim caller =>
      rw [hpc] at hfree
      simp only [runStep, hpc]
      split
      · intro hne _
        apply hown
        · simpa [Local.mark, hpc] using hne
        · rw [hpc]; rfl
      · exact .of_free (afterThrow_free (hfree rfl))
  | retryDeadline =>
      rw [hpc] at hfree
      simp only [runStep, hpc]
      exact .of_free (by simp [Local.mark, hfree rfl])
  | releaseClaim =>
      have hheld := hinv.releasing_held (by rw [hpc]; rfl)
      simp only [runStep, hpc]
      split
      · intro hne _
        apply hown
        · simpa [Local.mark, hpc, hheld] using hne
        · rw [hpc]; rfl
      · exact .of_free (by simp [Local.mark])
  | clearRuntimeOwner =>
      simp only [runStep, hpc]
      intro _ hnamed
      cases hnamed
  | freeLock =>
      simp only [runStep, hpc]
      exact .of_free (by simp [Local.mark])
  | loadRuntimeOwner ownerId =>
      have hmark : l.mark ids
          = if l.attachedTransactionLockHeld then ids.attachedTransactionLockOwnerId else 0 := by
        simp [Local.mark, hpc]
      simp only [runStep, hpc]
      split
      · exact hown.same_held rfl hmark done_mark (by rw [hpc]; rfl)
      · exact hown.same_held rfl hmark rfl (by rw [hpc]; rfl)
  | loadTransactionLock ownerId =>
      have hmark : l.mark ids
          = if l.attachedTransactionLockHeld then ids.attachedTransactionLockOwnerId else 0 := by
        simp [Local.mark, hpc]
      simp only [runStep, hpc]
      split
      · exact hown.same_held rfl hmark rfl (by rw [hpc]; rfl)
      · exact hown.same_held rfl hmark done_mark (by rw [hpc]; rfl)
  | storeAbandoned ownerId =>
      have hmark : l.mark ids
          = if l.attachedTransactionLockHeld then ids.attachedTransactionLockOwnerId else 0 := by
        simp [Local.mark, hpc]
      simp only [runStep, hpc]
      exact hown.same_held (w := w) rfl hmark done_mark (by rw [hpc]; rfl)

/-- A choice keeps the name of the record's lock. -/
theorem choose_owner (hinv : RecordInv ids w l) (hown : OwnerInv ids w l)
    (h : choose ids choice w l = some (w', l', o)) : OwnerInv ids w' l' := by
  have hidle (hpc : l.pc = .idle ∨ l.pc = .retryDeadline) :
      l.mark ids = (if l.attachedTransactionLockHeld
        then ids.attachedTransactionLockOwnerId else 0) ∧ l.pc.unnamed = false := by
    rcases hpc with hpc | hpc <;> simp [Local.mark, hpc, Pc.unnamed]
  cases choice <;> simp only [choose] at h <;> split at h <;> try (cases h; done)
  case tryLock.isTrue hpc =>
    obtain ⟨rfl, rfl⟩ := eq_of_some h
    exact hown.same_held startTry_held (hidle (.inl hpc)).1 startTry_mark (hidle (.inl hpc)).2
  case startRetry.isTrue hpc =>
    obtain ⟨rfl, rfl⟩ := eq_of_some h
    exact hown.same_held startTry_held (hidle (.inl hpc)).1 startTry_mark (hidle (.inl hpc)).2
  case wakeRetry.isTrue hpc =>
    obtain ⟨rfl, rfl⟩ := eq_of_some h
    exact hown.same_held startTry_held (hidle (.inl hpc.1)).1 startTry_mark (hidle (.inl hpc.1)).2
  case release.isTrue hpc =>
    obtain ⟨rfl, rfl⟩ := eq_of_some h
    exact hown.same_held startRelease_held (hidle (.inl hpc)).1 startRelease_mark
      (hidle (.inl hpc)).2
  case quarantine.isTrue ownerId hpc =>
    obtain ⟨rfl, rfl⟩ := eq_of_some h
    exact hown.same_held rfl (hidle (.inl hpc)).1 rfl (hidle (.inl hpc)).2
  case step.isFalse hpc =>
    have hrun := runStep_owner hinv hown
    rw [Option.some.inj h] at hrun
    exact hrun
  case timedOut.isTrue hpc =>
    obtain ⟨rfl, rfl⟩ := eq_of_some h
    exact hown.same_held startRelease_held (hidle (.inr hpc)).1 startRelease_mark
      (hidle (.inr hpc)).2

/-- A record that has put nothing into the lock word leaves the owner word alone,
and no record takes a quarantine back. -/
theorem choose_words (hpos : 0 < ids.attachedTransactionLockOwnerId)
    (h : choose ids choice w l = some (w', l', o)) :
    (l.mark ids = 0 → w'.transactionLockRuntimeOwner = w.transactionLockRuntimeOwner)
      ∧ (w.abandonedTransaction ≠ 0 → w'.abandonedTransaction ≠ 0) := by
  cases choice <;> simp only [choose] at h <;> split at h <;> try (cases h; done)
  case step.isFalse hpc =>
    have hrun : runStep ids w l = (w', l', o) := Option.some.inj h
    rw [show w' = (runStep ids w l).1 by rw [hrun]]
    cases hl : l.pc <;> simp only [runStep, hl]
    case storeRuntimeOwner caller =>
      exact ⟨fun hmark => absurd hmark (by simp [Local.mark, hl]; omega), fun h => h⟩
    case clearRuntimeOwner =>
      exact ⟨fun hmark => absurd hmark (by simp [Local.mark, hl]; omega), fun h => h⟩
    case storeAbandoned ownerId => exact ⟨fun _ => trivial, fun _ => by simp⟩
    all_goals first
      | exact ⟨fun _ => trivial, fun h => h⟩
      | (split <;> exact ⟨fun _ => rfl, fun h => h⟩)
  all_goals
    obtain ⟨rfl, rfl⟩ := eq_of_some h
    exact ⟨fun _ => rfl, fun h => h⟩

theorem mark_isMark (ids : Ids) (l : Local) : IsMark ids (l.mark ids) := by
  unfold Local.mark IsMark
  split
  all_goals first
    | exact .inr (.inr rfl)
    | (split
       · exact .inr (.inl rfl)
       · exact .inl rfl)

/-- A mark that is in the lock word is the record's. -/
theorem RecordInv.mark_eq (hinv : RecordInv ids w l) (hmark : IsMark ids w.transactionLock)
    (hne : w.transactionLock ≠ 0) : l.mark ids = w.transactionLock := by
  by_cases hfree : l.mark ids = 0
  · have habsent := hinv.mark_absent hfree
    unfold IsMark at hmark
    omega
  · exact (hinv.mark_there hfree).symm

end Record

/-! ## §4. The steps. -/

section Steps

variable {i : Party} {recovered : Int → Bool}

omit [DecidableEq File] [DecidableEq Party] in
/-- A settled file stays settled while the owner's records keep their marks. -/
theorem Parties.Settled.mono {c' : PartyConfig Party File} {ownerId : Int} {f : File}
    (h : P.Settled c ownerId f)
    (habandoned : (c.shared.files f).abandonedTransaction ≠ 0 →
      (c'.shared.files f).abandonedTransaction ≠ 0)
    (hmark : ∀ j, P.runtimeOwnerId j = ownerId → P.mark c' j = P.mark c j) :
    P.Settled c' ownerId f := by
  rcases h with hquarantined | hfree
  · exact .inl (habandoned hquarantined)
  · refine .inr fun j hj hown => ?_
    rw [hmark j hown]
    exact hfree j hj hown

omit [DecidableEq File] [DecidableEq Party] in
theorem Parties.RecoveryInv.mono {c' : PartyConfig Party File} {dead' : Party → Bool}
    {pc : RecoverPc File} (h : P.RecoveryInv c dead pc)
    (hdead : ∀ j, dead j = true → dead' j = true)
    (hsettled : ∀ ownerId f, P.Terminated dead ownerId → P.Settled c ownerId f →
      P.Settled c' ownerId f) : P.RecoveryInv c' dead' pc := by
  have hterm (ownerId : Int) (h : P.Terminated dead ownerId) : P.Terminated dead' ownerId :=
    fun j hj => hdead j (h j hj)
  cases pc with
  | idle => trivial
  | findSlot ownerId k => exact hterm ownerId h
  | claimSlot ownerId k => exact hterm ownerId h
  | loadRuntimeOwner ownerId k file rest =>
      exact ⟨hterm ownerId h.1, fun f hf => hsettled ownerId f h.1 (h.2 f hf)⟩
  | loadTransactionLock ownerId k file rest =>
      exact ⟨hterm ownerId h.1, fun f hf => hsettled ownerId f h.1 (h.2 f hf)⟩
  | storeAbandoned ownerId k file rest =>
      exact ⟨hterm ownerId h.1, fun f hf => hsettled ownerId f h.1 (h.2 f hf)⟩
  | clearSlot ownerId k => exact ⟨hterm ownerId h.1, fun f => hsettled ownerId f h.1 (h.2 f)⟩

omit [DecidableEq File] [DecidableEq Party] in
/-- The recoveries do not notice a step that keeps the settled files. -/
theorem Parties.Inv.recoveries_mono (h : P.Inv c dead recovered) (c' : PartyConfig Party File)
    (dead' : Party → Bool) (hdead : ∀ j, dead j = true → dead' j = true)
    (hsettled : ∀ ownerId f, P.Terminated dead ownerId → P.Settled c ownerId f →
      P.Settled c' ownerId f) :
    (∀ j, P.RecoveryInv c' dead' (c.threads j).recovery)
      ∧ ∀ ownerId, recovered ownerId = true →
        P.Terminated dead' ownerId ∧ ∀ f, P.Settled c' ownerId f := by
  refine ⟨fun j => (h.recovery j).mono hdead hsettled, fun ownerId hrec => ?_⟩
  obtain ⟨hterm, hall⟩ := h.recovered ownerId hrec
  exact ⟨fun j hj => hdead j (hterm j hj), fun f => hsettled ownerId f hterm (hall f)⟩

omit [DecidableEq File] [DecidableEq Party] in
/-- Two records with a mark in one file are the same. -/
theorem Parties.Inv.mark_unique {j : Party} (h : P.Inv c dead recovered)
    (hfile : P.file j = P.file i) (hi : P.mark c i ≠ 0) (hj : P.mark c j ≠ 0) : j = i := by
  have hi' := (h.record i).mark_there hi
  have hj' := (h.record j).mark_there hj
  have hposi := P.owner_pos i
  have hposj := P.owner_pos j
  have hki := mark_isMark (P.ids i) (c.threads i).record
  have hkj := mark_isMark (P.ids j) (c.threads j).record
  have hsame : (c.threads j).record.mark (P.ids j) = (c.threads i).record.mark (P.ids i) := by
    rw [Parties.words, hfile] at hj'
    exact hj'.symm.trans hi'
  apply P.owner_inj
  rcases hki with hki | hki | hki <;> rcases hkj with hkj | hkj | hkj
  all_goals
    simp only [Parties.mark] at hi hj
    omega

theorem setFile_self (s : Shared File) (f : File) (w : Words) : (s.setFile f w).files f = w := by
  simp [Shared.setFile]

theorem setFile_ne (s : Shared File) {f g : File} (h : g ≠ f) (w : Words) :
    (s.setFile f w).files g = s.files g := by
  simp [Shared.setFile, h]

/-- **A record's step.** -/
theorem Parties.Inv.record_step {choice : Choice} {w : Words} {l : Local} {o : Option Outcome}
    (h : P.Inv c dead recovered) (halive : dead i = false)
    (hstep : AttachedLock.choose (P.ids i) choice (P.words c i) (c.threads i).record
      = some (w, l, o)) :
    P.Inv (c.put i (c.shared.setFile (P.file i) w) { c.threads i with record := l }) dead
      recovered := by
  have hwords := choose_words (P.owner_pos i) hstep
  have hinv : RecordInv (P.ids i) w l := choose_inv (P.owner_pos i) (h.record i) hstep
  have hself : (c.put i (c.shared.setFile (P.file i) w)
      { c.threads i with record := l }).threads i = { c.threads i with record := l } :=
    Config.put_threads_self c i _ _
  have hother (j : Party) (hj : j ≠ i) : (c.put i (c.shared.setFile (P.file i) w)
      { c.threads i with record := l }).threads j = c.threads j :=
    Config.put_threads_ne c hj _ _
  have hrecovery (j : Party) : ((c.put i (c.shared.setFile (P.file i) w)
      { c.threads i with record := l }).threads j).recovery = (c.threads j).recovery := by
    by_cases hj : j = i
    · subst hj
      rw [hself]
    · rw [hother j hj]
  -- a quarantine is not taken back
  have hquarantine (f : File) (habandoned : (c.shared.files f).abandonedTransaction ≠ 0) :
      ((c.shared.setFile (P.file i) w).files f).abandonedTransaction ≠ 0 := by
    by_cases hf : f = P.file i
    · subst hf
      rw [setFile_self]
      exact hwords.2 habandoned
    · rw [setFile_ne _ hf]
      exact habandoned
  -- and the dead have other marks
  have hmono := h.recoveries_mono (c.put i (c.shared.setFile (P.file i) w)
      { c.threads i with record := l }) dead (fun _ hd => hd) fun ownerId f hterm hsettled => by
    refine hsettled.mono (hquarantine f) fun j hj => ?_
    have hne : j ≠ i := by
      intro hji
      subst hji
      exact absurd ((hterm j hj).symm.trans halive) (by simp)
    unfold Parties.mark
    rw [hother j hne]
  refine ⟨fun j => ?_, fun j => ?_, fun f hlock => ?_, fun j hdead => ?_, fun j => ?_, hmono.2⟩
  · by_cases hj : j = i
    · subst hj
      rw [hself]
      show RecordInv (P.ids j) ((c.shared.setFile (P.file j) w).files (P.file j)) l
      rw [setFile_self]
      exact hinv
    · rw [hother j hj]
      show RecordInv (P.ids j) ((c.shared.setFile (P.file i) w).files (P.file j))
        (c.threads j).record
      by_cases hf : P.file j = P.file i
      · rw [hf, setFile_self]
        have hj' := h.record j
        rw [Parties.words, hf] at hj'
        exact RecordInv.frame (R := P.records) hj hstep hj'
      · rw [setFile_ne _ hf]
        exact h.record j
  · by_cases hj : j = i
    · subst hj
      rw [hself]
      show OwnerInv (P.ids j) ((c.shared.setFile (P.file j) w).files (P.file j)) l
      rw [setFile_self]
      exact choose_owner (h.record j) (h.owner j) hstep
    · rw [hother j hj]
      show OwnerInv (P.ids j) ((c.shared.setFile (P.file i) w).files (P.file j))
        (c.threads j).record
      by_cases hf : P.file j = P.file i
      · intro hmark hnamed
        -- `j` holds the file, so `i` has no mark there and stores no owner word
        have hfree : P.mark c i = 0 := by
          by_contra hmarki
          exact hj (h.mark_unique hf hmarki hmark)
        have hown := h.owner j hmark hnamed
        rw [hf, setFile_self, hwords.1 hfree]
        rw [Parties.words, hf] at hown
        exact hown
      · rw [setFile_ne _ hf]
        exact h.owner j
  · by_cases hf : f = P.file i
    · subst hf
      have hfile : (c.put i (c.shared.setFile (P.file i) w)
          { c.threads i with record := l }).shared.files (P.file i) = w := setFile_self _ _ _
      rw [hfile] at hlock ⊢
      by_cases hkept : IsMark (P.ids i) w.transactionLock
      · refine ⟨i, rfl, ?_⟩
        unfold Parties.mark
        rw [hself]
        exact hinv.mark_eq hkept hlock
      · -- somebody else's word, which `i` leaves alone
        have hsame : w.transactionLock = (P.words c i).transactionLock := by
          rcases choose_lock hstep with hsame | ⟨_, hnew⟩
          · exact hsame
          · exact absurd hnew hkept
        obtain ⟨j, hj, hmark⟩ := h.marked (P.file i) (hsame ▸ hlock)
        refine ⟨j, hj, ?_⟩
        have hne : j ≠ i := by
          intro hji
          subst hji
          apply hkept
          rw [hsame, ← hmark]
          exact mark_isMark _ _
        unfold Parties.mark
        rw [hother j hne, hsame]
        exact hmark
    · have hfile : (c.put i (c.shared.setFile (P.file i) w)
          { c.threads i with record := l }).shared.files f = c.shared.files f := setFile_ne _ hf _
      rw [hfile] at hlock ⊢
      obtain ⟨j, hj, hmark⟩ := h.marked f hlock
      have hne : j ≠ i := by
        intro hji
        subst hji
        exact hf hj.symm
      refine ⟨j, hj, ?_⟩
      unfold Parties.mark
      rw [hother j hne]
      exact hmark
  · have hne : j ≠ i := by
      intro hji
      subst hji
      exact absurd (hdead.symm.trans halive) (by simp)
    rw [hother j hne]
    exact (h.stopped j hdead).imp_right fun hq => hquarantine (P.file j) hq
  · rw [hrecovery j]
    exact hmono.1 j

/-- What a recovery may do: it changes no lock and takes no quarantine back. -/
structure SameLocks (s s' : Shared File) : Prop where
  lock : ∀ f, (s'.files f).transactionLock = (s.files f).transactionLock
  owner : ∀ f, (s'.files f).transactionLockRuntimeOwner = (s.files f).transactionLockRuntimeOwner
  abandoned : ∀ f, (s.files f).abandonedTransaction ≠ 0 → (s'.files f).abandonedTransaction ≠ 0

omit [DecidableEq File] in
theorem SameLocks.of_files {s s' : Shared File} (h : s'.files = s.files) : SameLocks s s' :=
  ⟨fun f => by rw [h], fun f => by rw [h], fun f hf => by rw [h]; exact hf⟩

theorem sameLocks_setFile (s : Shared File) (f : File) :
    SameLocks s (s.setFile f { s.files f with abandonedTransaction := 1 }) := by
  refine ⟨fun g => ?_, fun g => ?_, fun g hg => ?_⟩ <;> by_cases hf : g = f
  · subst hf
    rw [setFile_self]
  · rw [setFile_ne _ hf]
  · subst hf
    rw [setFile_self]
  · rw [setFile_ne _ hf]
  · subst hf
    rw [setFile_self]
    simp
  · rw [setFile_ne _ hf]
    exact hg

omit [DecidableEq File] in
/-- A step of a recovery, up to what the recovery knows after it. -/
theorem Parties.Inv.recovery_change {s' : Shared File} {pc : RecoverPc File}
    {recovered' : Int → Bool} (h : P.Inv c dead recovered) (hsame : SameLocks c.shared s')
    (hpc : P.RecoveryInv (c.put i s' { c.threads i with recovery := pc }) dead pc)
    (hrecovered : ∀ ownerId, recovered' ownerId = true → recovered ownerId = true
      ∨ P.Terminated dead ownerId
        ∧ ∀ f, P.Settled (c.put i s' { c.threads i with recovery := pc }) ownerId f) :
    P.Inv (c.put i s' { c.threads i with recovery := pc }) dead recovered' := by
  have hrecord (j : Party) : ((c.put i s' { c.threads i with recovery := pc }).threads j).record
      = (c.threads j).record := by
    by_cases hj : j = i
    · subst hj
      rw [Config.put_threads_self]
    · rw [Config.put_threads_ne c hj]
  have hmark (j : Party) :
      P.mark (c.put i s' { c.threads i with recovery := pc }) j = P.mark c j := by
    unfold Parties.mark
    rw [hrecord j]
  have hmono := h.recoveries_mono (c.put i s' { c.threads i with recovery := pc }) dead (fun _ hd => hd)
    fun ownerId f _ hsettled => hsettled.mono (hsame.abandoned f) fun j _ => hmark j
  refine ⟨fun j => ?_, fun j => ?_, fun f hlock => ?_, fun j hdead => ?_, fun j => ?_,
    fun ownerId hrec => ?_⟩
  · rw [hrecord j]
    obtain ⟨htrying, hreleasing, hthere, habsent⟩ := h.record j
    refine ⟨htrying, hreleasing, fun hm => ?_, fun hm => ?_⟩
    · exact (hsame.lock (P.file j)).trans (hthere hm)
    · rw [show (P.words (c.put i s' { c.threads i with recovery := pc }) j).transactionLock
          = (P.words c j).transactionLock from hsame.lock (P.file j)]
      exact habsent hm
  · rw [hrecord j]
    exact fun hm hnamed => (hsame.owner (P.file j)).trans (h.owner j hm hnamed)
  · have hold := hsame.lock f
    obtain ⟨j, hj, hm⟩ := h.marked f (by
      intro hzero
      exact hlock (hold.trans hzero))
    exact ⟨j, hj, (hmark j).trans (hm.trans hold.symm)⟩
  · rw [hrecord j]
    exact (h.stopped j hdead).imp_right fun hq => hsame.abandoned (P.file j) hq
  · by_cases hj : j = i
    · subst hj
      rw [Config.put_threads_self]
      exact hpc
    · rw [Config.put_threads_ne c hj]
      exact hmono.1 j
  · rcases hrecovered ownerId hrec with hold | hnew
    · exact hmono.2 ownerId hold
    · exact hnew

omit [DecidableEq File] [DecidableEq Party] in
theorem nextFile_inv {ownerId : Int} {k : SlotIndex} {rest : List File}
    (hterm : P.Terminated dead ownerId) (hall : ∀ f, f ∉ rest → P.Settled c ownerId f) :
    P.RecoveryInv c dead (nextFile ownerId k rest) := by
  cases rest with
  | nil => exact ⟨hterm, fun f => hall f (by simp)⟩
  | cons file rest => exact ⟨hterm, hall⟩

/-- **A step of the recovery**: after it, the files it has passed are settled. -/
theorem Parties.Inv.recover_step {s' : Shared File} {pc : RecoverPc File} {returned : Option Int}
    (h : P.Inv c dead recovered) (hfinds : P.Finds c (c.threads i).recovery)
    (hstep : recoverStep P.files c.shared (c.threads i).recovery = (s', pc, returned)) :
    P.Inv (c.put i s' { c.threads i with recovery := pc }) dead
      (withRecovered recovered returned) := by
  have hinv := h.recovery i
  have hmarks (s₁ : Shared File) (pc₁ : RecoverPc File) (j : Party) :
      P.mark (c.put i s₁ { c.threads i with recovery := pc₁ }) j = P.mark c j := by
    unfold Parties.mark
    by_cases hj : j = i
    · subst hj
      rw [Config.put_threads_self]
    · rw [Config.put_threads_ne c hj]
  -- the files that were settled stay so
  have hkeep {s₁ : Shared File} {pc₁ : RecoverPc File} (hsame : SameLocks c.shared s₁)
      {ownerId : Int} {f : File} (hf : P.Settled c ownerId f) :
      P.Settled (c.put i s₁ { c.threads i with recovery := pc₁ }) ownerId f :=
    hf.mono (hsame.abandoned f) fun j _ => hmarks s₁ pc₁ j
  -- a recovery that returns where every file is settled
  have hreturns {s₁ : Shared File} (hsame : SameLocks c.shared s₁) {ownerId : Int}
      (hterm : P.Terminated dead ownerId) (hall : ∀ f, P.Settled c ownerId f) :
      P.Inv (c.put i s₁ { c.threads i with recovery := .idle }) dead
        (withRecovered recovered (some ownerId)) := by
    refine h.recovery_change hsame trivial fun o hr => ?_
    by_cases ho : o = ownerId
    · subst ho
      exact .inr ⟨hterm, fun f => hkeep hsame (hall f)⟩
    · exact .inl (by simpa [withRecovered, ho] using hr)
  cases hpc : (c.threads i).recovery with
  | idle =>
      rw [hpc] at hstep
      cases hstep
      exact h.recovery_change (.of_files rfl) trivial fun _ hr => .inl hr
  | findSlot ownerId k =>
      rw [hpc] at hstep hfinds hinv
      simp only [recoverStep] at hstep
      split at hstep
      next =>
        cases hstep
        exact h.recovery_change (.of_files rfl) hinv fun _ hr => .inl hr
      next hother =>
        split at hstep
        next j hnext =>
          cases hstep
          exact h.recovery_change (.of_files rfl) hinv fun _ hr => .inl hr
        next hlast =>
          cases hstep
          rcases hfinds with hfound | hmore | hall
          · exact absurd hfound hother
          · exact absurd hlast hmore
          · exact hreturns (.of_files rfl) hinv hall
  | claimSlot ownerId k =>
      rw [hpc] at hstep hfinds hinv
      simp only [recoverStep] at hstep
      split at hstep
      next =>
        cases hstep
        refine h.recovery_change (.of_files rfl) (nextFile_inv hinv fun f hf => ?_) fun _ hr => .inl hr
        exact absurd (P.registered f) hf
      next hother =>
        cases hstep
        exact hreturns (.of_files rfl) hinv (hfinds.resolve_left hother)
  | loadRuntimeOwner ownerId k file rest =>
      rw [hpc] at hstep hinv
      obtain ⟨hterm, hall⟩ := hinv
      simp only [recoverStep] at hstep
      split at hstep
      next hother =>
        cases hstep
        refine h.recovery_change (.of_files rfl) (nextFile_inv hterm fun f hf => ?_)
          fun _ hr => .inl hr
        apply hkeep (.of_files rfl)
        by_cases hfile : f = file
        · -- a dead owner's lock here would carry its id
          subst hfile
          by_cases hquarantined : (c.shared.files f).abandonedTransaction = 0
          · refine .inr fun j hj hown => ?_
            by_contra hmark
            apply hother
            subst hj
            rw [← hown]
            have hnamed := (h.stopped j (hterm j hown)).resolve_right fun hq => hq hquarantined
            exact h.owner j hmark hnamed
          · exact .inl hquarantined
        · exact hall f (by simp [hfile, hf])
      next =>
        cases hstep
        exact h.recovery_change (.of_files rfl)
          ⟨hterm, fun f hf => hkeep (.of_files rfl) (hall f hf)⟩ fun _ hr => .inl hr
  | loadTransactionLock ownerId k file rest =>
      rw [hpc] at hstep hinv
      obtain ⟨hterm, hall⟩ := hinv
      simp only [recoverStep] at hstep
      split at hstep
      next =>
        cases hstep
        exact h.recovery_change (.of_files rfl)
          ⟨hterm, fun f hf => hkeep (.of_files rfl) (hall f hf)⟩ fun _ hr => .inl hr
      next hfree =>
        cases hstep
        refine h.recovery_change (.of_files rfl) (nextFile_inv hterm fun f hf => ?_)
          fun _ hr => .inl hr
        apply hkeep (.of_files rfl)
        by_cases hfile : f = file
        · -- an unlocked file has no holder
          subst hfile
          refine .inr fun j hj _ => ?_
          by_contra hmark
          apply hfree
          intro hzero
          apply hmark
          have hthere := (h.record j).mark_there hmark
          rw [Parties.words, hj] at hthere
          exact hthere.symm.trans hzero
        · exact hall f (by simp [hfile, hf])
  | storeAbandoned ownerId k file rest =>
      rw [hpc] at hstep hinv
      obtain ⟨hterm, hall⟩ := hinv
      simp only [recoverStep] at hstep
      cases hstep
      refine h.recovery_change (sameLocks_setFile _ _) (nextFile_inv hterm fun f hf => ?_)
        fun _ hr => .inl hr
      by_cases hfile : f = file
      · subst hfile
        refine .inl ?_
        show ((c.shared.setFile f _).files f).abandonedTransaction ≠ 0
        rw [setFile_self]
        simp
      · exact hkeep (sameLocks_setFile _ _) (hall f (by simp [hfile, hf]))
  | clearSlot ownerId k =>
      rw [hpc] at hstep hinv
      obtain ⟨hterm, hall⟩ := hinv
      simp only [recoverStep] at hstep
      cases hstep
      have hsame : SameLocks c.shared (c.shared.setLeaseOwnerId k 0) := .of_files rfl
      exact hreturns hsame hterm hall

/-- **A step of a living party.** -/
theorem Parties.Inv.thread_step {a : PartyAct} {s' : Shared File} {l' : PartyLocal File}
    (h : P.Inv c dead recovered) (halive : dead i = false)
    (hcalled : CalledForDead P ((c, dead), recovered) (.lives (.thread i a)))
    (hok : a.choice = .recoverStep → P.Finds c (c.threads i).recovery)
    (hact : P.machine.act i a c.shared (c.threads i) s' l') :
    P.Inv (c.put i s' l') dead (withRecovered recovered a.recovered) := by
  obtain ⟨choice, returned⟩ := a
  have hstep : P.choose i choice c.shared (c.threads i) = some (s', l', returned) := hact
  cases choice with
  | record choice =>
      simp only [Parties.choose] at hstep
      split at hstep
      next hidle =>
        obtain ⟨⟨w, l, o⟩, hrec, heq⟩ := Option.map_eq_some_iff.mp hstep
        cases heq
        exact h.record_step halive hrec
      next => cases hstep
  | recoverTerminated ownerId =>
      simp only [Parties.choose] at hstep
      split at hstep
      next hidle =>
        split at hstep
        next =>
          cases hstep
          have hsame : c.threads i = { c.threads i with recovery := .idle } := by
            rw [← hidle.2]
          rw [hsame]
          exact h.recovery_change (.of_files rfl) trivial fun _ hr => .inl hr
        next =>
          cases hstep
          exact h.recovery_change (.of_files rfl) hcalled fun _ hr => .inl hr
      next => cases hstep
  | recoverStep =>
      simp only [Parties.choose] at hstep
      split at hstep
      next => cases hstep
      next =>
        cases hstep
        exact h.recover_step (hok rfl) rfl

end Steps

/-! ## §5. No lock is left with a recovered owner. -/

/-- **The invariant of all runs that meet the condition.** -/
theorem Parties.reach_inv
    {x : (PartyConfig Party File × (Party → Bool)) × (Int → Bool)}
    (h : Reach P.system (Named P) x) : P.Inv x.1.1 x.1.2 x.2 := by
  refine h.record_invariant (fun _ => True) (fun x => P.Inv x.1.1 x.1.2 x.2)
    (fun _ _ => trivial) ?_ ?_
  · rintro ⟨c, dead⟩ ⟨⟨hlocks, hidle⟩, halive⟩
    simp only at hlocks hidle halive
    have hmark (j : Party) : P.mark c j = 0 := by
      simp [Parties.mark, Local.mark, hidle j]
    refine ⟨fun j => ?_, fun j hm => absurd (hmark j) hm, fun f hf => absurd (hlocks f) hf,
      fun j hdead => ?_, fun j => ?_, fun _ hr => by cases hr⟩
    · have hpos := P.owner_pos j
      refine ⟨fun ht => ?_, fun hr => ?_, fun hm => absurd (hmark j) hm, fun _ => ?_⟩
      · exact (hidle j).1
      · exact absurd hr (by simp [(hidle j).2.1, Pc.releasing])
      · rw [hlocks (P.file j)]
        omega
    · exact absurd (hdead.symm.trans (halive j)) (by simp)
    · show P.RecoveryInv c dead (c.threads j).recovery
      rw [(hidle j).2.2]
      trivial
  · rintro ⟨c, dead⟩ recovered label ⟨c', dead'⟩ _ _ hinv ⟨hcalled, hok⟩ hn
    cases hn with
    | @lives _ _ l _ halive hn =>
        cases hn with
        | @thread i a s' l' hact => exact hinv.thread_step halive hcalled hok hact
        | env hmoves =>
            obtain ⟨leaseOwnerId, rfl⟩ := hmoves
            exact ⟨hinv.record, hinv.owner, hinv.marked, hinv.stopped, hinv.recovery,
              hinv.recovered⟩
    | @dies _ _ i =>
        have hmono := hinv.recoveries_mono c (Function.update dead i true)
          (fun j hj => by
            rw [Function.update_apply]
            split
            · rfl
            · exact hj) fun _ _ _ hs => hs
        refine ⟨hinv.record, hinv.owner, hinv.marked, fun j hj => ?_, hmono.1, hmono.2⟩
        by_cases hji : j = i
        · subst hji
          exact hok
        · exact hinv.stopped j (by simpa [hji] using hj)

/-- The file is unlocked, quarantined, or locked or claimed by a record with `Q`. -/
def Parties.LockedBy (P : Parties Party File) (c : PartyConfig Party File) (f : File)
    (Q : Party → Prop) : Prop :=
  (c.shared.files f).transactionLock = 0 ∨ (c.shared.files f).abandonedTransaction ≠ 0
    ∨ ∃ i, P.file i = f ∧ Q i
        ∧ ((c.shared.files f).transactionLock = (P.ids i).attachedTransactionLockOwnerId
          ∨ (c.shared.files f).transactionLock = -(P.ids i).attachedTransactionLockOwnerId)

/-- **After the recovery of a terminated owner no attached lock is left with it**,
where nobody dies with a lock that has no owner word and is not quarantined, and the
recovery finds the lease slot of an owner that has locks: every attached file is
unlocked, quarantined, or locked by a record of another owner.  When the recovery has
run for every dead record, that record is alive. -/
theorem attached_lock_not_orphaned
    {x : (PartyConfig Party File × (Party → Bool)) × (Int → Bool)}
    (h : Reach P.system (Named P) x) :
    (∀ ownerId, x.2 ownerId = true → ∀ f,
        P.LockedBy x.1.1 f fun i => P.runtimeOwnerId i ≠ ownerId)
      ∧ ((∀ i, x.1.2 i = true → x.2 (P.runtimeOwnerId i) = true) → ∀ f,
        P.LockedBy x.1.1 f fun i => x.1.2 i = false) := by
  have hinv := P.reach_inv h
  -- whoever holds a lock that is not quarantined has not been recovered
  have hholder (f : File) : P.LockedBy x.1.1 f fun i => x.2 (P.runtimeOwnerId i) = false := by
    by_cases hfree : (x.1.1.shared.files f).transactionLock = 0
    · exact .inl hfree
    · by_cases hquarantined : (x.1.1.shared.files f).abandonedTransaction = 0
      · obtain ⟨i, hi, hmark⟩ := hinv.marked f hfree
        refine .inr (.inr ⟨i, hi, ?_, ?_⟩)
        · by_contra hrec
          obtain ⟨_, hall⟩ := hinv.recovered (P.runtimeOwnerId i) (by simpa using hrec)
          rcases hall f with hyes | hnone
          · exact hyes hquarantined
          · exact hfree (hmark.symm.trans (hnone i hi rfl))
        · have hshape := mark_isMark (P.ids i) (x.1.1.threads i).record
          rw [← hmark]
          rcases hshape with hzero | hid
          · exact absurd (hmark.symm.trans hzero) hfree
          · exact hid
      · exact .inr (.inl hquarantined)
  have hweaken {f : File} {Q : Party → Prop}
      (himp : ∀ i, x.2 (P.runtimeOwnerId i) = false → Q i) : P.LockedBy x.1.1 f Q := by
    rcases hholder f with hfree | hquarantined | ⟨i, hi, hrec, hlock⟩
    · exact .inl hfree
    · exact .inr (.inl hquarantined)
    · exact .inr (.inr ⟨i, hi, himp i hrec, hlock⟩)
  refine ⟨fun ownerId hrec f => hweaken fun i hi howner => ?_, fun hall f => hweaken fun i hi => ?_⟩
  · rw [howner, hrec] at hi
    cases hi
  · by_contra hdead
    rw [hall i (by simpa using hdead)] at hi
    cases hi

/-! ## §6. An owner that dies before its lock is named. -/

/-- What a run does next. -/
inductive PartyCmd (Party : Type) where
  | act (i : Party) (choice : PartyChoice)
  | dies (i : Party)

/-- The command's step, if it is open. -/
def Parties.exec (P : Parties Party File) (x : PartyConfig Party File × (Party → Bool)) :
    PartyCmd Party → Option (MortalLabel Party PartyAct × (PartyConfig Party File × (Party → Bool)))
  | .act i choice =>
      if x.2 i = true then none
      else (P.choose i choice x.1.shared (x.1.threads i)).map fun r =>
        (.lives (.thread i ⟨choice, r.2.2⟩), (x.1.put i r.1 r.2.1, x.2))
  | .dies i => some (.dies i, (x.1, Function.update x.2 i true))

theorem Parties.exec_next (P : Parties Party File) (x : PartyConfig Party File × (Party → Bool))
    (k : PartyCmd Party) (label : MortalLabel Party PartyAct)
    (y : PartyConfig Party File × (Party → Bool)) (h : P.exec x k = some (label, y)) :
    P.machine.mortal.next x label y := by
  cases k with
  | act i choice =>
      simp only [Parties.exec] at h
      split at h
      next => cases h
      next halive =>
        obtain ⟨⟨s, l, o⟩, hstep, heq⟩ := Option.map_eq_some_iff.mp h
        cases heq
        have halive' : x.2 i = false := by simpa using halive
        exact .lives halive' (.thread hstep)
  | dies i =>
      cases h
      exact .dies

instance decidableSettled [Fintype Party] (P : Parties Party File) (c : PartyConfig Party File)
    (ownerId : Int) (f : File) : Decidable (P.Settled c ownerId f) := by
  unfold Parties.Settled
  infer_instance

instance decidableFinds [Fintype Party] [Fintype File] (P : Parties Party File)
    (c : PartyConfig Party File) (pc : RecoverPc File) : Decidable (P.Finds c pc) := by
  unfold Parties.Finds
  split <;> infer_instance

instance decidableCalledForDead [Fintype Party] (P : Parties Party File)
    (x : (PartyConfig Party File × (Party → Bool)) × (Int → Bool))
    (label : MortalLabel Party PartyAct) : Decidable (CalledForDead P x label) := by
  unfold CalledForDead Parties.Terminated
  split <;> infer_instance

instance decidableNamed [Fintype Party] [Fintype File] (P : Parties Party File)
    (x : (PartyConfig Party File × (Party → Bool)) × (Int → Bool))
    (label : MortalLabel Party PartyAct) : Decidable (Named P x label) := by
  unfold Named
  cases label with
  | lives l => cases l <;> infer_instance
  | dies i => infer_instance

/-- The record with lock owner id 1 of the runtime owner 11, and that with 2 of 12,
on one attached file. -/
def twoParties : Parties Bool Unit where
  file _ := ()
  ids := twoRecords.ids
  owner_pos := twoRecords.owner_pos
  owner_inj := twoRecords.owner_inj
  files := [()]
  registered _ := by simp

/-- Owner 11 has lease slot 0, owner 12 slot 1. -/
def twoPartiesStart : PartyConfig Bool Unit × (Bool → Bool) :=
  (⟨⟨fun i => if i = 0 then 11 else if i = 1 then 12 else 0, fun _ => ⟨0, 0, 0⟩⟩,
      fun _ => ⟨⟨false, 0, .idle⟩, .idle⟩⟩, fun _ => false)

theorem twoPartiesStart_reach (ok) :
    Reach twoParties.system ok (twoPartiesStart, fun _ => false) :=
  .init ⟨⟨⟨fun _ => rfl, fun _ => ⟨rfl, rfl, rfl⟩⟩, fun _ => rfl⟩, rfl⟩

/-- Record `true` tries for the lock for `n` steps and dies; `false` recovers owner
11 in `m` steps. -/
def dieAndRecover (n m : Nat) : List (PartyCmd Bool) :=
  .act true (.record .tryLock) :: List.replicate n (.act true (.record .step))
    ++ .dies true :: .act false (.recoverTerminated 11) :: List.replicate m (.act false .recoverStep)

/-- The owner dies with the lock: its file is quarantined. -/
theorem attached_lock_not_orphaned_quarantine :
    ∃ x, Reach twoParties.system (Named twoParties) x ∧ x.2 11 = true
      ∧ (x.1.1.shared.files ()).transactionLock = 1
      ∧ twoParties.LockedBy x.1.1 () fun i => twoParties.runtimeOwnerId i ≠ 11 := by
  obtain ⟨x, hx, h⟩ := (twoPartiesStart_reach (Named twoParties)).exists_of_commands
    (recorded_next (Named twoParties) twoParties.exec_next) (dieAndRecover 4 6)
    (fun x => decide (x.2 11 = true ∧ (x.1.1.shared.files ()).transactionLock = 1)) (by decide)
  obtain ⟨hrec, hlock⟩ := of_decide_eq_true h
  exact ⟨x, hx, hrec, hlock, (attached_lock_not_orphaned hx).1 11 hrec ()⟩

/-- **An owner that dies before its lock is named stays its owner.**  Record `true`
claims the free lock word with -1 and dies before it stores its runtime owner id;
the recovery of that owner reads another owner word and passes the file over.  The
lock is neither free nor quarantined, and nobody alive holds it. -/
theorem dead_claim_not_quarantined :
    ∃ x, Reach twoParties.system (CalledForDead twoParties) x
      ∧ (∀ i, x.1.2 i = true → x.2 (twoParties.runtimeOwnerId i) = true)
      ∧ ¬twoParties.LockedBy x.1.1 () fun i => x.1.2 i = false := by
  obtain ⟨x, hx, h⟩ := (twoPartiesStart_reach (CalledForDead twoParties)).exists_of_commands
    (recorded_next (CalledForDead twoParties) twoParties.exec_next) (dieAndRecover 2 4)
    (fun x => decide (x.2 11 = true ∧ (x.1.1.shared.files ()) = ⟨-1, 0, 0⟩
      ∧ x.1.2 true = true ∧ x.1.2 false = false)) (by decide)
  obtain ⟨hrec, hfile, hdead, halive⟩ := of_decide_eq_true h
  refine ⟨x, hx, fun i hi => ?_, ?_⟩
  · cases i with
    | true => exact hrec
    | false => exact absurd (halive.symm.trans hi) (by simp)
  · unfold Parties.LockedBy
    rw [hfile]
    rintro (hfree | hquarantined | ⟨i, _, hi, hlock⟩)
    · cases hfree
    · exact hquarantined rfl
    · cases i with
      | true => exact absurd (hdead.symm.trans hi) (by simp)
      | false => revert hlock; decide

end MemoryWriteAhead.AttachedLock
