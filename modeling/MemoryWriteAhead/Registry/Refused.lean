/-
  MemoryWriteAhead.Registry.Refused
  ─────────────────────────────────
  **WHAT A REFUSED RESET OR REGISTRATION HAS ALREADY DONE.**

  Both loops check each element just before they change it.

    • `resetRuntimes_contents` — a reset of all runtimes has wiped those before
      the one that refuses,
    • `putSharedFiles_eq` — a registration has put the files before the refused
      one,
    • `refused_call_loses_nothing_iff` — when nothing is lost all the same.
-/
import MemoryWriteAhead.Registry.Model

namespace MemoryWriteAhead.Registry

open OrderedMap

/-! ## §1. What is kept. -/

/-- The size of a file, and what every read of it returns. -/
def contents (file : Storage.SharedFile) : Int × (Nat → Nat → List UInt8) :=
  (Storage.getFileSizeBytes file, Storage.readMemoryWriteAheadFile file)

def Runtime.contents (runtime : Runtime) : OrderedMap String (Int × (Nat → Nat → List UInt8)) :=
  runtime.files.mapValues fun file => Registry.contents file.storage

/-- No file of any runtime has lost its size or its contents. -/
def KeepsContents (before after : Context) : Prop :=
  after.registry.mapValues Runtime.contents = before.registry.mapValues Runtime.contents

/-- The reset of the runtime is refused. -/
def refusesReset (clockMs : Nat → Int) (runtime : Runtime) : Bool :=
  decide ((recoverAbandonedRuntimeOwnerLeases clockMs runtime).openHandleCount > 0)

/-- The runtimes that a reset of all of them comes to before one refuses have no file
with anything in it. -/
def EmptyBeforeRefusal (clockMs : String → Nat → Int) (runtimes : List (String × Runtime)) : Prop :=
  ∀ entry ∈ runtimes.takeWhile fun entry => !refusesReset (clockMs entry.1) entry.2,
    ∀ file ∈ entry.2.files.values, Storage.getFileSizeBytes file.storage = 0

/-- What is put into `runtime.files` before a file is refused. -/
def putBeforeRefusal (normalize : String → Option String) (normalizedDbFilename : String) :
    List SharedFile → List (String × SharedFile)
  | [] => []
  | file :: files =>
      match checkSharedFile normalize normalizedDbFilename file with
      | .error _ => []
      | .ok pathname => (pathname, file) :: putBeforeRefusal normalize normalizedDbFilename files

/-- For every path, the last file put there is the one that is registered there. -/
def PutsRegisteredFiles (normalize : String → Option String) (context : Context)
    (runtimeDbFilename : String) (files : List SharedFile) : Prop :=
  ∀ name runtime, normalize runtimeDbFilename = some name →
    context.registry.get? name = some runtime →
    ∀ pathname file, lastAssigned pathname (putBeforeRefusal normalize name files) = some file →
      runtime.files.get? pathname = some file

/-! ## §2. The reset. -/

theorem reduceOpenHandleCount_files (runtime : Runtime) (n : Int) :
    (reduceOpenHandleCount runtime n).1.files = runtime.files := by
  unfold reduceOpenHandleCount
  split
  next => rfl
  next =>
    split
    next => rfl
    next => rfl

theorem quarantineTransactionLock_storage (ownerId : Int) (file : SharedFile) :
    (quarantineTransactionLock ownerId file).storage = file.storage := by
  unfold quarantineTransactionLock
  split
  next => rfl
  next =>
    split
    next => rfl
    next => rfl

theorem recoverOwnerLease_contents (nowMs : Int) (runtime : Runtime) (slotIndex : Nat) :
    (recoverOwnerLease nowMs runtime slotIndex).contents = runtime.contents := by
  unfold recoverOwnerLease
  split
  next => rfl
  next slot _ =>
    split
    next => rfl
    next =>
      split
      next =>
        show (((reduceOpenHandleCount runtime slot.handleCount).1.files.mapValues
          (quarantineTransactionLock slot.ownerId)).mapValues _) = _
        rw [reduceOpenHandleCount_files, mapValues_mapValues]
        refine (mapValues_eq_iff _ _ _).mpr fun file _ => ?_
        show contents (quarantineTransactionLock slot.ownerId file).storage = contents file.storage
        rw [quarantineTransactionLock_storage]
      next => rfl

theorem recoverAbandonedRuntimeOwnerLeases_contents (clockMs : Nat → Int) (runtime : Runtime) :
    (recoverAbandonedRuntimeOwnerLeases clockMs runtime).contents = runtime.contents := by
  unfold recoverAbandonedRuntimeOwnerLeases
  generalize List.range runtime.slots.length = slotIndices
  induction slotIndices generalizing runtime with
  | nil => rfl
  | cons slotIndex slotIndices ih =>
      rw [List.foldl_cons, ih, recoverOwnerLease_contents]

/-- Wiping a file keeps its contents just when there are none. -/
theorem contents_resetFile_iff (file : SharedFile) :
    contents (resetFile file).storage = contents file.storage
      ↔ Storage.getFileSizeBytes file.storage = 0 := by
  have hsize : Storage.getFileSizeBytes (resetFile file).storage = 0 := rfl
  constructor
  · intro h
    rw [← (Prod.mk.inj h).1, hsize]
  · intro hzero
    refine Prod.ext (hsize.trans hzero.symm) ?_
    funext byteLength offset
    show Storage.readMemoryWriteAheadFile (resetFile file).storage byteLength offset
      = Storage.readMemoryWriteAheadFile file.storage byteLength offset
    unfold Storage.readMemoryWriteAheadFile
    simp only [hsize, hzero]
    rw [if_pos (Int.natCast_nonneg offset), if_pos (Int.natCast_nonneg offset)]

theorem empty_iff_contents (runtime : Runtime) :
    (∀ file ∈ runtime.files.values, Storage.getFileSizeBytes file.storage = 0)
      ↔ ∀ c ∈ runtime.contents.values, c.1 = 0 := by
  unfold Runtime.contents
  rw [values_mapValues, List.forall_mem_map]
  rfl

theorem reset_refused {clockMs : Nat → Int} (leases : OrderedMap String Lease.LocalRuntimeLease)
    {runtime : Runtime} (h : refusesReset clockMs runtime = true) :
    resetMemoryWriteAheadRuntimeState clockMs leases runtime
      = (recoverAbandonedRuntimeOwnerLeases clockMs runtime, leases, .error (.openHandles
          (recoverAbandonedRuntimeOwnerLeases clockMs runtime).openHandleCount)) :=
  if_pos (of_decide_eq_true h)

/-- A reset that is not refused keeps what the files hold just when they hold nothing. -/
theorem reset_done {clockMs : Nat → Int} (leases : OrderedMap String Lease.LocalRuntimeLease)
    {runtime : Runtime} (h : refusesReset clockMs runtime = false) :
    ∃ runtime', resetMemoryWriteAheadRuntimeState clockMs leases runtime
        = (runtime', leases.erase (recoverAbandonedRuntimeOwnerLeases clockMs runtime).dbFilename,
          .ok ())
      ∧ (runtime'.contents = runtime.contents
        ↔ ∀ file ∈ runtime.files.values, Storage.getFileSizeBytes file.storage = 0) := by
  refine ⟨_, if_neg (of_decide_eq_false h), ?_⟩
  rw [empty_iff_contents, ← recoverAbandonedRuntimeOwnerLeases_contents clockMs runtime,
    ← empty_iff_contents]
  generalize recoverAbandonedRuntimeOwnerLeases clockMs runtime = recovered
  show (recovered.files.mapValues resetFile).mapValues _ = recovered.files.mapValues _ ↔ _
  rw [mapValues_mapValues, mapValues_eq_iff]
  exact forall₂_congr fun file _ => contents_resetFile_iff file

/-- The loop, with the contents before and after it. -/
theorem resetRuntimes_contents {clockMs : String → Nat → Int}
    {leases : OrderedMap String Lease.LocalRuntimeLease} {runtimes : List (String × Runtime)}
    {e : RegistryError} (h : (resetRuntimes clockMs leases runtimes).2.2 = .error e) :
    (resetRuntimes clockMs leases runtimes).1.map (fun entry => (entry.1, entry.2.contents))
        = runtimes.map (fun entry => (entry.1, entry.2.contents))
      ↔ EmptyBeforeRefusal clockMs runtimes := by
  induction runtimes generalizing leases with
  | nil => cases h
  | cons entry runtimes ih =>
      obtain ⟨name, runtime⟩ := entry
      unfold EmptyBeforeRefusal
      cases hrefuses : refusesReset (clockMs name) runtime with
      | true =>
          -- the runtime that refuses keeps its files, and the loop ends here
          unfold resetRuntimes
          simp only [reset_refused leases hrefuses]
          rw [List.takeWhile_cons_of_neg (by simp [hrefuses])]
          simp [recoverAbandonedRuntimeOwnerLeases_contents]
      | false =>
          obtain ⟨runtime', hreset, hcontents⟩ := reset_done leases hrefuses
          unfold resetRuntimes at h ⊢
          simp only [hreset] at h ⊢
          rw [List.takeWhile_cons_of_pos (by simp [hrefuses]), List.forall_mem_cons, ← hcontents,
            List.map_cons, List.map_cons, List.cons.injEq, Prod.mk.injEq, ih h]
          unfold EmptyBeforeRefusal
          simp

/-- With a name, the one runtime is checked before it is wiped. -/
theorem named_reset_keeps {normalize : String → Option String} {clockMs : String → Nat → Int}
    {context context' : Context} {dbFilename : String} {n : Int}
    (h : resetMemoryWriteAheadSharedRuntime normalize clockMs context (some dbFilename)
      = (context', .error (.openHandles n))) : KeepsContents context context' := by
  simp only [resetMemoryWriteAheadSharedRuntime] at h
  split at h
  next => cases (Prod.mk.inj h).2
  next name _ =>
    split at h
    next => cases (Prod.mk.inj h).2
    next runtime hruntime =>
      cases hrefuses : refusesReset (clockMs name) runtime with
      | true =>
          simp only [reset_refused _ hrefuses] at h
          obtain rfl := (Prod.mk.inj h).1
          show (context.registry.set name _).mapValues _ = _
          rw [mapValues_set, set_eq_self_iff, get?_mapValues, hruntime, Option.map_some,
            recoverAbandonedRuntimeOwnerLeases_contents]
      | false =>
          obtain ⟨runtime', hreset, -⟩ := reset_done context.localRuntimeLeases hrefuses
          simp only [hreset] at h
          cases (Prod.mk.inj h).2

theorem unnamed_reset_keeps_iff {normalize : String → Option String}
    {clockMs : String → Nat → Int} {context context' : Context} {e : RegistryError}
    (h : resetMemoryWriteAheadSharedRuntime normalize clockMs context none
      = (context', .error e)) :
    KeepsContents context context' ↔ EmptyBeforeRefusal clockMs context.registry.entries := by
  simp only [resetMemoryWriteAheadSharedRuntime] at h
  split at h
  next e' hresult =>
    obtain rfl := (Prod.mk.inj h).1
    exact (mapValues_congr_iff _ _ _).trans (resetRuntimes_contents hresult)
  next => cases (Prod.mk.inj h).2

/-! ## §3. The registration. -/

theorem putSharedFiles_eq (normalize : String → Option String) (normalizedDbFilename : String)
    (runtimeFiles : OrderedMap String SharedFile) (files : List SharedFile) :
    (putSharedFiles normalize normalizedDbFilename runtimeFiles files).1
      = runtimeFiles.setAll (putBeforeRefusal normalize normalizedDbFilename files) := by
  induction files generalizing runtimeFiles with
  | nil => rfl
  | cons file files ih =>
      unfold putSharedFiles putBeforeRefusal
      cases checkSharedFile normalize normalizedDbFilename file with
      | error e => rfl
      | ok pathname =>
          show (putSharedFiles normalize normalizedDbFilename _ files).1 = _
          rw [ih]
          rfl

theorem register_registry_iff (normalize : String → Option String) (runtimeDbFilename : String)
    (files : List SharedFile) (context : Context) :
    (registerMemoryWriteAheadSharedFiles normalize runtimeDbFilename files context).1.registry
        = context.registry
      ↔ PutsRegisteredFiles normalize context runtimeDbFilename files := by
  unfold registerMemoryWriteAheadSharedFiles PutsRegisteredFiles
  cases hname : normalize runtimeDbFilename with
  | none => exact iff_of_true rfl fun name runtime h => by cases h
  | some name =>
      cases hruntime : context.registry.get? name with
      | none =>
          simp only [hruntime]
          refine iff_of_true trivial fun name' runtime h hget => ?_
          rw [← Option.some.inj h, hruntime] at hget
          cases hget
      | some runtime =>
          simp only [hruntime]
          -- the registry is as before when the files of the one runtime are
          have hone : (∀ name' runtime', some name = some name' →
                context.registry.get? name' = some runtime' →
                ∀ pathname file, lastAssigned pathname (putBeforeRefusal normalize name' files)
                  = some file → runtime'.files.get? pathname = some file)
              ↔ ∀ pathname file, lastAssigned pathname (putBeforeRefusal normalize name files)
                  = some file → runtime.files.get? pathname = some file := by
            constructor
            · intro h
              exact h name runtime rfl hruntime
            · rintro h name' runtime' hname' hget
              rw [← Option.some.inj hname'] at hget ⊢
              rw [hruntime] at hget
              rw [← Option.some.inj hget]
              exact h
          rw [hone, ← setAll_eq_self_iff, ← putSharedFiles_eq]
          show context.registry.set name _ = _ ↔ _
          rw [set_eq_self_iff, hruntime, Option.some.injEq]
          constructor
          · intro h
            exact (congrArg Runtime.files h).symm
          · intro h
            show runtime = { runtime with files := _ }
            rw [h]

/-! ## §4. When a refused call loses nothing. -/

/-- **A refused call loses nothing** in these cases only.  A reset that is refused for
open handles keeps the size and the contents of every file of every runtime just when
it has a name, or finds nothing but empty files in the runtimes before the one that
refuses.  A registration that throws leaves the files of the runtime just when, for
every path, the last file that it has put there is the one that was there. -/
theorem refused_call_loses_nothing_iff (normalize : String → Option String)
    (clockMs : String → Nat → Int) (context : Context) :
    (∀ dbFilename context' n,
        resetMemoryWriteAheadSharedRuntime normalize clockMs context dbFilename
          = (context', .error (.openHandles n)) →
        (KeepsContents context context'
          ↔ dbFilename ≠ none ∨ EmptyBeforeRefusal clockMs context.registry.entries))
      ∧ ∀ runtimeDbFilename files context' e,
        registerMemoryWriteAheadSharedFiles normalize runtimeDbFilename files context
          = (context', .error e) →
        (context'.registry = context.registry
          ↔ PutsRegisteredFiles normalize context runtimeDbFilename files) := by
  refine ⟨fun dbFilename context' n h => ?_, fun runtimeDbFilename files context' e h => ?_⟩
  · cases dbFilename with
    | some dbFilename => exact iff_of_true (named_reset_keeps h) (.inl (Option.some_ne_none _))
    | none =>
        rw [unnamed_reset_keeps_iff h]
        exact (or_iff_right fun hnone => hnone rfl).symm
  · rw [← register_registry_iff, h]

def oneByteOptions : Storage.ResolvedRuntimeOptions := ⟨false, 1, 1, 1, 1, 1⟩

/-- The runtimes `/a`, with one byte in its database, and `/b`, with one open handle. -/
def twoRuntimes : Option Context := do
  let a ← newRuntime (fun _ => true) oneByteOptions 0 "/a"
  let b ← newRuntime (fun _ => true) oneByteOptions 3 "/b"
  let database ← a.files.get? "/a"
  let (storage, _) := Storage.writeMemoryWriteAheadFile (fun _ => true) database.storage [7] 0
  let a := { a with files := a.files.set "/a" { database with storage } }
  let b := { b with openHandleCount := 1, slots := b.slots.set 0 ⟨5, 1, 1⟩ }
  pure { registry := (OrderedMap.empty.set "/a" a).set "/b" b, localRuntimeLeases := .empty }

/-- The database of `/b`. -/
def foreignFile (context : Context) : Option SharedFile :=
  (context.registry.get? "/b").bind fun runtime => runtime.files.get? "/b"

/-- `/b` alone is refused, and its database is refused as the only file for `/a`. -/
theorem refused_call_loses_nothing_iff_first :
    ∃ context file context' context'' e, twoRuntimes = some context
      ∧ foreignFile context = some file
      ∧ resetMemoryWriteAheadSharedRuntime some (fun _ _ => 1) context (some "/b")
        = (context', .error (.openHandles 1))
      ∧ KeepsContents context context'
      ∧ registerMemoryWriteAheadSharedFiles some "/a" [file] context = (context'', .error e)
      ∧ context''.registry = context.registry := by
  obtain ⟨context, hcontext⟩ : ∃ context, twoRuntimes = some context := ⟨_, rfl⟩
  obtain ⟨file, hfile⟩ : ∃ file, foreignFile context = some file := by
    obtain rfl := Option.some.inj hcontext
    exact ⟨_, rfl⟩
  obtain ⟨context', hreset⟩ : ∃ context', resetMemoryWriteAheadSharedRuntime some (fun _ _ => 1)
      context (some "/b") = (context', .error (.openHandles 1)) := by
    obtain rfl := Option.some.inj hcontext
    exact ⟨_, rfl⟩
  obtain ⟨context'', hregister, hputs⟩ : ∃ context'', registerMemoryWriteAheadSharedFiles some "/a"
      [file] context = (context'', .error (.belongsTo "/b" "/b" "/a"))
      ∧ putBeforeRefusal some "/a" [file] = [] := by
    obtain rfl := Option.some.inj hcontext
    obtain rfl := Option.some.inj hfile
    exact ⟨_, rfl, rfl⟩
  obtain ⟨hresets, hregisters⟩ := refused_call_loses_nothing_iff some (fun _ _ => 1) context
  refine ⟨context, file, context', context'', _, hcontext, hfile, hreset,
    (hresets _ _ _ hreset).mpr (.inl (Option.some_ne_none _)), hregister,
    (hregisters _ _ _ _ hregister).mpr fun name runtime hname _ pathname other hlast => ?_⟩
  rw [← Option.some.inj hname, hputs] at hlast
  cases hlast

/-- A reset of both runtimes is refused at `/b` and has wiped the byte in `/a`; and
`/a-x`, a file of `/a`, stays registered when the file after it is refused. -/
theorem refused_calls_lose_files :
    ∃ context file added context' context'' e, twoRuntimes = some context
      ∧ foreignFile context = some file
      ∧ newSharedFile (fun _ => true) oneByteOptions .database 6 "/a" "/a-x" = some added
      ∧ resetMemoryWriteAheadSharedRuntime some (fun _ _ => 1) context none
        = (context', .error (.openHandles 1))
      ∧ ¬KeepsContents context context'
      ∧ registerMemoryWriteAheadSharedFiles some "/a" [added, file] context = (context'', .error e)
      ∧ context''.registry ≠ context.registry := by
  obtain ⟨context, hcontext⟩ : ∃ context, twoRuntimes = some context := ⟨_, rfl⟩
  obtain ⟨file, hfile⟩ : ∃ file, foreignFile context = some file := by
    obtain rfl := Option.some.inj hcontext
    exact ⟨_, rfl⟩
  obtain ⟨added, hadded⟩ : ∃ added, newSharedFile (fun _ => true) oneByteOptions .database 6 "/a"
      "/a-x" = some added := ⟨_, rfl⟩
  obtain ⟨context', hreset, hlost⟩ : ∃ context', resetMemoryWriteAheadSharedRuntime some
      (fun _ _ => 1) context none = (context', .error (.openHandles 1))
      ∧ ¬EmptyBeforeRefusal (fun _ _ => 1) context.registry.entries := by
    obtain rfl := Option.some.inj hcontext
    refine ⟨_, rfl, ?_⟩
    unfold EmptyBeforeRefusal
    decide
  obtain ⟨context'', hregister, hput⟩ : ∃ context'', registerMemoryWriteAheadSharedFiles some "/a"
      [added, file] context = (context'', .error (.belongsTo "/b" "/b" "/a"))
      ∧ context''.registry ≠ context.registry := by
    obtain rfl := Option.some.inj hcontext
    obtain rfl := Option.some.inj hfile
    obtain rfl := Option.some.inj hadded
    exact ⟨_, rfl, by decide⟩
  exact ⟨context, file, added, context', context'', _, hcontext, hfile, hadded, hreset,
    fun hkeeps => hlost ((unnamed_reset_keeps_iff hreset).mp hkeeps), hregister, hput⟩

end MemoryWriteAhead.Registry
