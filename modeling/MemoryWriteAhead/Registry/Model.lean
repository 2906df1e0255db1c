/-
  MemoryWriteAhead.Registry.Model
  ───────────────────────────────
  **THE RUNTIMES OF A CONTEXT, AND HOW THEY ARE RESET.**

  `memoryWriteAheadSharedRuntime.ts`: `resetMemoryWriteAheadRuntimeState`,
  `resetMemoryWriteAheadSharedRuntime`, `registerMemoryWriteAheadSharedFiles` and
  the `recoverAbandonedRuntimeOwnerLeases` that a reset begins with, each as one
  call during which no other context takes a step.  So the heartbeat that the
  recovery reads again is the one it has read.

  `runtime.files` and the registry are maps in the order of insertion.  What
  `new URL(filename, 'file://').pathname` is belongs to the platform: it is the
  parameter `normalize`, with `none` where the constructor throws.  The wait
  statistics and the checkpoint words of a file are left out, as is the logger.
-/
import MemoryWriteAhead.Library.OrderedMap
import MemoryWriteAhead.Storage.Options
import MemoryWriteAhead.Storage.Layout
import MemoryWriteAhead.Lease.Model
import MemoryWriteAhead.AttachedLock.Model
import MemoryWriteAhead.FileLock.Model

namespace MemoryWriteAhead.Registry

/-! ## §1. Runtimes. -/

/-- `MemoryWriteAheadSharedFile`; `object` says which object it is. -/
structure SharedFile where
  object : Nat
  dbFilename : String
  storage : Storage.SharedFile
  lock : FileLock.Words
  transaction : AttachedLock.Words
  deriving DecidableEq

/-- `MemoryWriteAheadSharedRuntime`; the first three fields are its
`registryMeta`. -/
structure Runtime where
  openHandleCount : Int
  recoveredAbandonedHandleCount : Int
  slots : List Lease.Slot
  capacities : Storage.ResolvedRuntimeOptions
  dbFilename : String
  files : OrderedMap String SharedFile
  deriving DecidableEq

/-- What one context knows: the registered runtimes, and its own leases. -/
structure Context where
  registry : OrderedMap String Runtime
  localRuntimeLeases : OrderedMap String Lease.LocalRuntimeLease
  deriving DecidableEq

inductive RegistryError where
  | openHandles (openHandleCount : Int)
  | notRegistered (normalizedDbFilename : String)
  | belongsTo (pathname dbFilename normalizedDbFilename : String)
  /-- the URL constructor throws -/
  | invalidUrl
  deriving DecidableEq, Repr

/-- The text of an error of this repository; an engine's own error has none. -/
def RegistryError.message : RegistryError → Option String
  | .openHandles openHandleCount =>
      some s!"Cannot reset MemoryWriteAheadVFS while {openHandleCount} open handles remain"
  | .notRegistered normalizedDbFilename =>
      some s!"MemoryWriteAheadVFS runtime is not registered for {normalizedDbFilename}"
  | .belongsTo pathname dbFilename normalizedDbFilename =>
      some s!"MemoryWriteAheadVFS file {pathname} belongs to {dbFilename}, not {normalizedDbFilename}"
  | .invalidUrl => none

/-- `createSharedFile`, with the words that are no storage. -/
def newSharedFile (growable : Nat → Bool) (capacities : Storage.ResolvedRuntimeOptions)
    (kind : Storage.FileKind) (object : Nat) (dbFilename pathname : String) : Option SharedFile :=
  (Storage.createSharedFile growable pathname (capacities.initialCapacityBytes kind)
    (capacities.maxCapacityBytes kind) capacities.allowFixedCapacityFallback).map fun storage =>
      { object, dbFilename, storage, lock := ⟨0, 0, 0, 0⟩, transaction := ⟨0, 0, 0⟩ }

/-- The runtime that `createMemoryWriteAheadSharedRuntime` makes; its three files are
the objects from `object` on. -/
def newRuntime (growable : Nat → Bool) (capacities : Storage.ResolvedRuntimeOptions)
    (object : Nat) (normalizedDbFilename : String) : Option Runtime := do
  let database ← newSharedFile growable capacities .database object normalizedDbFilename
    normalizedDbFilename
  let wa0 ← newSharedFile growable capacities .writeAhead (object + 1) normalizedDbFilename
    (normalizedDbFilename ++ "-wa0")
  let wa1 ← newSharedFile growable capacities .writeAhead (object + 2) normalizedDbFilename
    (normalizedDbFilename ++ "-wa1")
  pure {
    openHandleCount := 0
    recoveredAbandonedHandleCount := 0
    slots := List.replicate Lease.memoryWriteAheadOwnerLeaseSlotCount ⟨0, 0, 0⟩
    capacities
    dbFilename := normalizedDbFilename
    files := ((OrderedMap.empty.set database.storage.pathname database).set
      wa0.storage.pathname wa0).set wa1.storage.pathname wa1 }

/-! ## §2. The recovery. -/

/-- `reduceOpenHandleCount`, and the number that it has taken off. -/
def reduceOpenHandleCount (runtime : Runtime) (releasedHandleCount : Int) : Runtime × Int :=
  if releasedHandleCount ≤ 0 then (runtime, 0)
  else if runtime.openHandleCount > 0 then
    let next := max 0 (runtime.openHandleCount - releasedHandleCount)
    ({ runtime with openHandleCount := next }, runtime.openHandleCount - next)
  else (runtime, 0)

def quarantineTransactionLock (ownerId : Int) (file : SharedFile) : SharedFile :=
  if file.transaction.transactionLockRuntimeOwner ≠ ownerId then file
  else if file.transaction.transactionLock ≠ 0 then
    { file with transaction := { file.transaction with abandonedTransaction := 1 } }
  else file

def quarantineTransactionLocksForRuntimeOwner (runtime : Runtime) (ownerId : Int) : Runtime :=
  { runtime with files := runtime.files.mapValues (quarantineTransactionLock ownerId) }

/-- One round of `recoverAbandonedRuntimeOwnerLeases`, at the clock reading `nowMs`. -/
def recoverOwnerLease (nowMs : Int) (runtime : Runtime) (slotIndex : Nat) : Runtime :=
  match runtime.slots[slotIndex]? with
  | none => runtime
  | some slot =>
      if slot.ownerId ≤ 0 then runtime
      else if Lease.isStale runtime.capacities.fileLockStaleMs slot.heartbeatMs nowMs then
        let (reduced, releasedHandleCount) := reduceOpenHandleCount runtime slot.handleCount
        let quarantined := quarantineTransactionLocksForRuntimeOwner reduced slot.ownerId
        { quarantined with
          slots := quarantined.slots.set slotIndex ⟨0, 0, 0⟩
          recoveredAbandonedHandleCount :=
            quarantined.recoveredAbandonedHandleCount + releasedHandleCount }
      else runtime

/-- `recoverAbandonedRuntimeOwnerLeases`; `clockMs` is the reading at each slot. -/
def recoverAbandonedRuntimeOwnerLeases (clockMs : Nat → Int) (runtime : Runtime) : Runtime :=
  (List.range runtime.slots.length).foldl
    (fun runtime slotIndex => recoverOwnerLease (clockMs slotIndex) runtime slotIndex) runtime

/-! ## §3. The reset. -/

/-- Every word is 0, one segment is active, and its capacity is recorded. -/
def resetFile (file : SharedFile) : SharedFile :=
  { file with
    storage := Storage.recordMemoryWriteAheadFileHighWater
      { file.storage with
        words := ⟨0, BitVec.ofNat 32 Storage.minSegmentCount, 0, 0, 0, 0, 0, 0, 0, 0⟩ }
    lock := ⟨0, 0, 0, 0⟩
    transaction := ⟨0, 0, 0⟩ }

/-- `resetMemoryWriteAheadRuntimeState`: the runtime and the local leases after it. -/
def resetMemoryWriteAheadRuntimeState (clockMs : Nat → Int)
    (leases : OrderedMap String Lease.LocalRuntimeLease) (runtime : Runtime) :
    Runtime × OrderedMap String Lease.LocalRuntimeLease × Except RegistryError Unit :=
  let runtime := recoverAbandonedRuntimeOwnerLeases clockMs runtime
  if runtime.openHandleCount > 0 then
    (runtime, leases, .error (.openHandles runtime.openHandleCount))
  else
    ({ runtime with
        openHandleCount := 0
        recoveredAbandonedHandleCount := 0
        slots := runtime.slots.map fun _ => ⟨0, 0, 0⟩
        files := runtime.files.mapValues resetFile },
      leases.erase runtime.dbFilename, .ok ())

/-- The loop of `resetMemoryWriteAheadSharedRuntime` over the registered runtimes. -/
def resetRuntimes (clockMs : String → Nat → Int)
    (leases : OrderedMap String Lease.LocalRuntimeLease) :
    List (String × Runtime) →
      List (String × Runtime) × OrderedMap String Lease.LocalRuntimeLease × Except RegistryError Unit
  | [] => ([], leases, .ok ())
  | (name, runtime) :: runtimes =>
      match resetMemoryWriteAheadRuntimeState (clockMs name) leases runtime with
      | (runtime, leases, .error e) => ((name, runtime) :: runtimes, leases, .error e)
      | (runtime, leases, .ok ()) =>
          let rest := resetRuntimes clockMs leases runtimes
          ((name, runtime) :: rest.1, rest.2)

theorem resetRuntimes_keys (clockMs : String → Nat → Int)
    (leases : OrderedMap String Lease.LocalRuntimeLease) (runtimes : List (String × Runtime)) :
    (resetRuntimes clockMs leases runtimes).1.map Prod.fst = runtimes.map Prod.fst := by
  induction runtimes generalizing leases with
  | nil => rfl
  | cons entry runtimes ih =>
      obtain ⟨name, runtime⟩ := entry
      unfold resetRuntimes
      split
      next => rfl
      next =>
        rw [List.map_cons, List.map_cons, ih]

/-- `resetMemoryWriteAheadSharedRuntime`, with a name or without. -/
def resetMemoryWriteAheadSharedRuntime (normalize : String → Option String)
    (clockMs : String → Nat → Int) (context : Context) :
    Option String → Context × Except RegistryError Unit
  | some dbFilename =>
      match normalize dbFilename with
      | none => (context, .error .invalidUrl)
      | some normalizedDbFilename =>
          match context.registry.get? normalizedDbFilename with
          | none => (context, .ok ())
          | some runtime =>
              match resetMemoryWriteAheadRuntimeState (clockMs normalizedDbFilename)
                  context.localRuntimeLeases runtime with
              | (runtime, leases, .error e) =>
                  ({ registry := context.registry.set normalizedDbFilename runtime
                     localRuntimeLeases := leases }, .error e)
              | (_, leases, .ok ()) =>
                  ({ registry := context.registry.erase normalizedDbFilename
                     localRuntimeLeases := leases }, .ok ())
  | none =>
      let result := resetRuntimes clockMs context.localRuntimeLeases context.registry.entries
      match result.2.2 with
      | .error e =>
          ({ registry := ⟨result.1, by rw [resetRuntimes_keys]; exact context.registry.nodup⟩
             localRuntimeLeases := result.2.1 }, .error e)
      | .ok () => ({ registry := .empty, localRuntimeLeases := result.2.1 }, .ok ())

/-! ## §4. Registering files. -/

/-- One round of the `forEach`: the key that the file is put under. -/
def checkSharedFile (normalize : String → Option String) (normalizedDbFilename : String)
    (file : SharedFile) : Except RegistryError String :=
  match normalize file.dbFilename with
  | none => .error .invalidUrl
  | some fileDbFilename =>
      if fileDbFilename ≠ normalizedDbFilename then
        .error (.belongsTo file.storage.pathname file.dbFilename normalizedDbFilename)
      else
        match normalize file.storage.pathname with
        | none => .error .invalidUrl
        | some pathname => .ok pathname

/-- The `forEach`: each file is checked and then put into `runtime.files`. -/
def putSharedFiles (normalize : String → Option String) (normalizedDbFilename : String) :
    OrderedMap String SharedFile → List SharedFile →
      OrderedMap String SharedFile × Except RegistryError Unit
  | runtimeFiles, [] => (runtimeFiles, .ok ())
  | runtimeFiles, file :: files =>
      match checkSharedFile normalize normalizedDbFilename file with
      | .error e => (runtimeFiles, .error e)
      | .ok pathname =>
          putSharedFiles normalize normalizedDbFilename (runtimeFiles.set pathname file) files

def registerMemoryWriteAheadSharedFiles (normalize : String → Option String)
    (runtimeDbFilename : String) (files : List SharedFile) (context : Context) :
    Context × Except RegistryError Unit :=
  match normalize runtimeDbFilename with
  | none => (context, .error .invalidUrl)
  | some normalizedDbFilename =>
      match context.registry.get? normalizedDbFilename with
      | none => (context, .error (.notRegistered normalizedDbFilename))
      | some runtime =>
          let (runtimeFiles, result) :=
            putSharedFiles normalize normalizedDbFilename runtime.files files
          ({ context with
              registry := context.registry.set normalizedDbFilename
                { runtime with files := runtimeFiles } }, result)

end MemoryWriteAhead.Registry
