/-
  MemoryWriteAhead.OpenFiles.Opening
  ──────────────────────────────────
  **THE HANDLES THAT AN OPEN RETAINS, AND WHO GIVES THEM BACK.**

  `MemoryWriteAheadVFS.ts`: `#retryOpen` with its `catch`, `#openSharedHandle`, and
  the constructor and `close` of `SABMemoryAccessHandle`; `vendor/WriteAhead.js`:
  `close` on an instance whose initialization has rejected.

  `#retryOpen` runs up to its first `await` inside `jOpen`, and ends at any later
  time.  The counts are those of `Lease.Model` for a lease that no other context
  has recovered: the slot's count is the lease's.
-/
import MemoryWriteAhead.OpenFiles.Model

namespace MemoryWriteAhead.OpenFiles

open Connection (VfsError)

/-! ## §1. Handles. -/

/-- `openHandleCount` of the runtime, and `handleCount` of this context's lease, which is
0 without one. -/
@[ext] structure HandleCounts where
  openHandleCount : Nat
  leaseHandleCount : Nat
  deriving DecidableEq, Repr

/-- `none`: `owner lease capacity exhausted`.  Only the first handle needs a slot. -/
def retainMemoryWriteAheadRuntimeHandle (slotFree : Bool) (c : HandleCounts) :
    Option HandleCounts :=
  if c.leaseHandleCount = 0 ∧ slotFree = false then none
  else some ⟨c.openHandleCount + 1, c.leaseHandleCount + 1⟩

def releaseMemoryWriteAheadRuntimeHandle (c : HandleCounts) : HandleCounts :=
  if c.leaseHandleCount = 0 then c else ⟨c.openHandleCount - 1, c.leaseHandleCount - 1⟩

/-- What an open finds: the files of the runtime, whether a lease slot is free, and
the owner id that a lease has. -/
structure RuntimeView (Name : Type) where
  /-- `getMemoryWriteAheadFile` finds the file -/
  files : Name → Bool
  slotFree : Bool
  runtimeOwnerId : Nat
  owner_pos : 0 < runtimeOwnerId
  /-- `createFileLockOwnerId()` -/
  lockOwnerId : Nat

/-- `#openSharedHandle` -/
def openSharedHandle (found slotFree : Bool) (c : HandleCounts) : Except VfsError HandleCounts :=
  if found = false then .error .other
  else
    match retainMemoryWriteAheadRuntimeHandle slotFree c with
    | none => .error .other
    | some c => .ok c

/-! ## §2. `#retryOpen`. -/

structure State (Name : Type) where
  vfs : Vfs Name
  counts : HandleCounts

/-- How `writeAhead.ready()` ends. -/
inductive Initialization where
  | ready
  /-- `channel`: the `BroadcastChannel` has been made before -/
  | rejects (channel : Bool) (e : VfsError)
  deriving DecidableEq, Repr

variable {Name : Type} [DecidableEq Name]

/-- `#retryOpen` of this record has ended. -/
def State.endRetryOpen (x : State Name) (r : Nat) (f : OpenFile Name) (counts : HandleCounts) :
    State Name :=
  ⟨{ x.vfs.setFile r f with opening := x.vfs.opening.erase r }, counts⟩

/-- `#retryOpen` up to its first `await`; `writeAheadName` is
`#getWriteAheadNameFromDbName`. -/
def startRetryOpen (R : RuntimeView Name) (writeAheadName : Name → Nat → Name) (name : Name)
    (r : Nat) (x : State Name) : State Name :=
  let f := x.vfs.files r
  match openSharedHandle (R.files name) R.slotFree x.counts with
  | .error e => x.endRetryOpen r (f.retryOpen (some e)) x.counts
  | .ok c =>
      match openSharedHandle (R.files (writeAheadName name 0)) R.slotFree c with
      | .error e =>
          x.endRetryOpen r (f.retryOpen (some e)) (releaseMemoryWriteAheadRuntimeHandle c)
      | .ok c =>
          match openSharedHandle (R.files (writeAheadName name 1)) R.slotFree c with
          | .error e =>
              -- `waHandles` is not assigned yet: the `catch` closes `accessHandle` only
              x.endRetryOpen r (f.retryOpen (some e)) (releaseMemoryWriteAheadRuntimeHandle c)
          | .ok c => { x with counts := c }

/-- `#retryOpen` from the `await` on. -/
def settleRetryOpen (init : Initialization) (r : Nat) (x : State Name) : State Name :=
  let f := x.vfs.files r
  match init with
  | .ready => x.endRetryOpen r (f.retryOpen none) x.counts
  | .rejects true e =>
      x.endRetryOpen r (f.retryOpen (some e))
        (releaseMemoryWriteAheadRuntimeHandle (releaseMemoryWriteAheadRuntimeHandle
          (releaseMemoryWriteAheadRuntimeHandle x.counts)))
  | .rejects false _ =>
      -- `writeAhead.close()` throws at `this.#broadcastChannel.onmessage = null`
      x.endRetryOpen r f x.counts

/-! ## §3. `jOpen` of a main database. -/

section

variable {Raw : Type} (normalize : Raw → Option Name) (dbFilename : Name)
  (writeAheadName : Name → Nat → Name)

/-- `jOpen` makes a handle for an attached database. -/
def MakesHandle (R : RuntimeView Name) (name : Name) (x : State Name) : Prop :=
  R.files name = true
    ∧ (x.vfs.mapPathToFile name).bind (fun r => (x.vfs.files r).accessHandle) = none

instance decidableMakesHandle (R : RuntimeView Name) (name : Name) (x : State Name) :
    Decidable (MakesHandle R name x) :=
  inferInstanceAs (Decidable (_ ∧ _))

/-- The counts after the handle of an attached database, if it can be retained. -/
def attachedCounts (R : RuntimeView Name) (name : Name) (x : State Name) : Option HandleCounts :=
  if MakesHandle R name x then retainMemoryWriteAheadRuntimeHandle R.slotFree x.counts
  else some x.counts

/-- The answers of the environment to this `jOpen`; a name that is given is never
random. -/
def openEnv (R : RuntimeView Name) (name : Name) (x : State Name) : OpenEnv Name where
  random := name
  randomAgain := name
  sharedFile := R.files name
  handle := if attachedCounts R name x = none then some .other else none
  lockOwnerId := R.lockOwnerId
  runtimeOwnerId :=
    if ((attachedCounts R name x).getD x.counts).leaseHandleCount = 0 then 0 else R.runtimeOwnerId

/-- `jOpen` of a main database that has the normalized name `name`. -/
def jOpenMain (R : RuntimeView Name) (raw : Raw) (name : Name) (fileId : Nat) (flags : Flags)
    (x : State Name) : OpenResult × State Name :=
  let (result, vfs) := jOpen normalize dbFilename (openEnv R name x) (some raw) fileId flags x.vfs
  if name = dbFilename then
    match result, vfs.mapPathToFile name with
    | .busy, some r => (result, startRetryOpen R writeAheadName name r ⟨vfs, x.counts⟩)
    | _, _ => (result, ⟨vfs, x.counts⟩)
  else (result, ⟨vfs, (attachedCounts R name x).getD x.counts⟩)

end

end MemoryWriteAhead.OpenFiles
