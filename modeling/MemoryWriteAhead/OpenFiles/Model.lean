/-
  MemoryWriteAhead.OpenFiles.Model
  ────────────────────────────────
  **THE OPEN-FILE RECORDS OF ONE VFS INSTANCE.**

  `MemoryWriteAheadVFS.ts`: `jOpen`, `jClose`, `jDelete`, `#retryOpen` and
  `#openTemporaryHandle`, with the maps `mapPathToFile` and `mapIdToFile` and
  the records they point to.

  A record is an object of the heap `files`; a map holds its number.  A call
  runs to its end without interruption and `#retryOpen` ends at any later time,
  so every one of them is one step.  Of `jLock`, `jUnlock` and the queued lock
  retries only this is modelled: which record they write to, and which fields.
  What they write there is left open (`Connection.Model` and
  `AttachedLock.Model` say it).
-/
import MemoryWriteAhead.Connection.Model

namespace MemoryWriteAhead.OpenFiles

open Transition
open Connection (LockType RetryResult WriteHint LockingMode LazyLockMode VfsError)

/-! ## §1. A record. -/

/-- The `SQLITE_OPEN_` flags that the VFS looks at. -/
structure Flags where
  mainDb : Bool
  wal : Bool
  superJournal : Bool
  create : Bool
  deleteOnClose : Bool
  deriving DecidableEq, Repr

/-- An access handle, a `WriteAhead` or a `LazyLock`. -/
inductive Resource where
  | live
  | closed
  deriving DecidableEq, Repr

/-- What every successful open of a main database sets again. -/
structure Settings where
  lockingMode : LockingMode
  useLazyLock : LazyLockMode
  timeout : Int
  synchronous : Nat
  writeHint : Option WriteHint
  pageSize : Option Nat
  overwrite : Bool
  deriving DecidableEq, Repr

def Settings.initial : Settings where
  lockingMode := .normal
  useLazyLock := .readwrite
  timeout := -1
  synchronous := 1
  writeHint := none
  pageSize := none
  overwrite := false

/-- `MemoryWriteAheadOpenFile`. -/
structure OpenFile (Name : Type) where
  zName : Name
  flags : Flags
  retryResult : RetryResult
  opened : Bool
  /-- `sharedFile` is set -/
  sharedFile : Bool
  accessHandle : Option Resource
  waHandles : Option (Resource × Resource)
  writeAhead : Option Resource
  readLock : Option Resource
  writeLock : Option Resource
  lockState : Option LockType
  attachedTransactionLockHeld : Bool
  attachedTransactionLockOwnerId : Option Nat
  attachedTransactionLockRuntimeOwnerId : Option Nat
  settings : Option Settings
  deriving DecidableEq, Repr

variable {Name : Type} [DecidableEq Name]

/-- The record of a path that has none. -/
def OpenFile.create (zName : Name) (flags : Flags) : OpenFile Name where
  zName := zName
  flags := flags
  retryResult := .null
  opened := false
  sharedFile := false
  accessHandle := none
  waHandles := none
  writeAhead := none
  readLock := none
  writeLock := none
  lockState := none
  attachedTransactionLockHeld := false
  attachedTransactionLockOwnerId := none
  attachedTransactionLockRuntimeOwnerId := none
  settings := none

/-- The fields that both branches of `jOpen` set for a main database. -/
def OpenFile.reset (f : OpenFile Name) : OpenFile Name :=
  { f with
    lockState := some .none
    readLock := f.readLock <|> some .live
    writeLock := f.writeLock <|> some .live
    settings := some .initial }

/-- The record belongs to an open handle, or the first one's `#retryOpen` has
not ended. -/
def OpenFile.isOpenedOrOpening (f : OpenFile Name) : Bool :=
  f.opened || decide (f.retryResult = .null)

/-- `#releaseAttachedDatabaseLock`, as far as the record goes. -/
def OpenFile.releaseAttachedDatabaseLock (f : OpenFile Name) : OpenFile Name :=
  if f.attachedTransactionLockHeld = false ∨ f.sharedFile = false
      ∨ f.attachedTransactionLockOwnerId.getD 0 = 0 then f
  else { f with attachedTransactionLockHeld := false }

/-- The fields that `jLock`, `jUnlock` and the queued lock retries write. -/
structure LockFields where
  retryResult : RetryResult
  lockState : Option LockType
  attachedTransactionLockHeld : Bool
  settings : Option Settings
  deriving DecidableEq, Repr

def OpenFile.setLocks (f : OpenFile Name) (locks : LockFields) : OpenFile Name :=
  { f with
    retryResult := locks.retryResult
    lockState := locks.lockState
    attachedTransactionLockHeld := locks.attachedTransactionLockHeld
    settings := locks.settings }

/-! ## §2. The instance. -/

/-- What `jOpen` throws. -/
inductive OpenError where
  /-- `new URL` refuses the path -/
  | invalidPathname
  | separateInstance
  | missingSharedFile
  | missingRuntimeOwner
  | walManaged
  | fileNotFound
  /-- what `new SABMemoryAccessHandle` throws -/
  | handle (e : VfsError)
  /-- what the last `#retryOpen` left behind -/
  | retried (e : VfsError)
  deriving DecidableEq, Repr

/-- The text of an error that `jOpen` makes itself. -/
def OpenError.message (name : String) : OpenError → Option String
  | .separateInstance =>
      some s!"Open a separate MemoryWriteAheadVFS instance for each SQLite connection to {name}"
  | .missingSharedFile =>
      some s!"Missing shared runtime file for {name}; register attached database files before opening it"
  | .missingRuntimeOwner => some s!"Missing runtime owner for attached database {name}"
  | .walManaged => some "WAL files are managed internally"
  | .fileNotFound => some s!"file not found: {name}"
  | .invalidPathname | .handle _ | .retried _ => none

/-- `MemoryWriteAheadVFS`. -/
structure Vfs (Name : Type) where
  files : Nat → OpenFile Name
  /-- no record has this number or a larger one yet -/
  fresh : Nat
  mapPathToFile : Name → Option Nat
  mapIdToFile : Nat → Option Nat
  localFiles : Name → Bool
  /-- the records whose `#retryOpen` is in flight -/
  opening : List Nat
  lastError : Option OpenError

namespace Vfs

def setFile (v : Vfs Name) (r : Nat) (f : OpenFile Name) : Vfs Name :=
  { v with files := Function.update v.files r f }

def setId (v : Vfs Name) (fileId : Nat) (r : Nat) : Vfs Name :=
  { v with mapIdToFile := Function.update v.mapIdToFile fileId (some r) }

def deleteId (v : Vfs Name) (fileId : Nat) : Vfs Name :=
  { v with mapIdToFile := Function.update v.mapIdToFile fileId none }

def deletePath (v : Vfs Name) (name : Name) : Vfs Name :=
  { v with mapPathToFile := Function.update v.mapPathToFile name none }

/-- `this.mapPathToFile.get(name) ?? { … }`, and the map with the answer in it. -/
def fileOf (v : Vfs Name) (name : Name) (flags : Flags) : Nat × Vfs Name :=
  match v.mapPathToFile name with
  | some r => (r, v)
  | none =>
      (v.fresh,
        { v with
          files := Function.update v.files v.fresh (.create name flags)
          fresh := v.fresh + 1
          mapPathToFile := Function.update v.mapPathToFile name (some v.fresh) })

end Vfs

/-! ## §3. `jOpen`. -/

/-- The answers of the environment to one `jOpen`. -/
structure OpenEnv (Name : Type) where
  /-- the random names that a `null` path gets, in the `try` and in the `catch` -/
  random : Name
  randomAgain : Name
  /-- `getMemoryWriteAheadFile` finds the file -/
  sharedFile : Bool
  /-- what `new SABMemoryAccessHandle` throws -/
  handle : Option VfsError
  /-- `createFileLockOwnerId()` -/
  lockOwnerId : Nat
  /-- `getMemoryWriteAheadRuntimeOwnerId`, 0 for none -/
  runtimeOwnerId : Nat

inductive OpenResult where
  | ok (outFlags : Flags)
  | busy
  | cantopen
  deriving DecidableEq, Repr

def OpenResult.isOk : OpenResult → Bool
  | .ok _ => true
  | .busy | .cantopen => false

/-- `normalizeMemoryWriteAheadPathname`; `none`: it throws. -/
def normalizeMemoryWriteAheadPathname {Raw : Type} (normalize : Raw → Option Name) (random : Name) :
    Option Raw → Option Name
  | none => some random
  | some raw => normalize raw

/-- The `catch` of `jOpen`; `path`: the path to delete. -/
def failOpen (fileId : Nat) (path : Option Name) (e : OpenError) (v : Vfs Name) :
    OpenResult × Vfs Name :=
  let v' := { v with lastError := some e }.deleteId fileId
  match path with
  | none => (.cantopen, v')
  | some name => (.cantopen, v'.deletePath name)

/-- `jOpen` of the runtime's primary database. -/
def jOpenPrimary (name : Name) (again : Option Name) (fileId : Nat) (flags : Flags)
    (v : Vfs Name) : OpenResult × Vfs Name :=
  if (v.mapPathToFile name).any (fun r => (v.files r).isOpenedOrOpening)
      ∧ v.mapIdToFile fileId ≠ v.mapPathToFile name then
    failOpen fileId none .separateInstance v
  else
    let (r, v) := v.fileOf name flags
    let f := v.files r
    let path := if f.opened then none else again
    match f.retryResult with
    | .null => (.busy, { v with opening := v.opening ++ [r] })
    | .error e =>
        failOpen fileId path (.retried e) (v.setFile r { f with retryResult := .null })
    | .done =>
        (.ok flags,
          (v.setFile r { f.reset with retryResult := .null, opened := true }).setId fileId r)

/-- `file.accessHandle` of an attached database. -/
def OpenFile.openShared (env : OpenEnv Name) (f : OpenFile Name) :
    OpenFile Name × Option OpenError :=
  if f.accessHandle ≠ none then (f, none)
  else if env.sharedFile = false then (f, some .missingSharedFile)
  else match env.handle with
    | some e => ({ f with sharedFile := true }, some (.handle e))
    | none =>
        ({ f with sharedFile := true, accessHandle := some .live, retryResult := .null }, none)

/-- What `jOpen` does to the record of an attached database. -/
def OpenFile.openAttached (env : OpenEnv Name) (f : OpenFile Name) :
    OpenFile Name × Option OpenError :=
  match f.openShared env with
  | (f, some e) => (f, some e)
  | (f, none) =>
      let f := { f.reset with
        attachedTransactionLockOwnerId :=
          f.attachedTransactionLockOwnerId <|> some env.lockOwnerId }
      if env.runtimeOwnerId = 0 then (f, some .missingRuntimeOwner)
      else
        ({ f with
            attachedTransactionLockRuntimeOwnerId :=
              f.attachedTransactionLockRuntimeOwnerId <|> some env.runtimeOwnerId }, none)

/-- `#openTemporaryHandle`, into the record. -/
def openTemporaryHandle (name : Name) (create : Bool) (r : Nat) (v : Vfs Name) :
    Option OpenError × Vfs Name :=
  let opened := v.setFile r { v.files r with accessHandle := some .live }
  if v.localFiles name then (none, opened)
  else if create then
    (none, { opened with localFiles := Function.update v.localFiles name true })
  else (some .fileNotFound, v)

/-- The part of `jOpen` between the two maps, for every other file. -/
def openHandle (env : OpenEnv Name) (name : Name) (flags : Flags) (r : Nat) (v : Vfs Name) :
    Option OpenError × Vfs Name :=
  if flags.mainDb then
    let (f, e) := (v.files r).openAttached env
    (e, v.setFile r f)
  else if flags.wal then (some .walManaged, v)
  else if flags.superJournal then openTemporaryHandle name true r v
  else if (v.files r).accessHandle = none then openTemporaryHandle name flags.create r v
  else (none, v)

/-- `jOpen` of every other file. -/
def jOpenOther (env : OpenEnv Name) (name : Name) (again : Option Name) (fileId : Nat)
    (flags : Flags) (v : Vfs Name) : OpenResult × Vfs Name :=
  let (r, v) := v.fileOf name flags
  match openHandle env name flags r v with
  | (some e, v) => failOpen fileId again e v
  | (none, v) => (.ok flags, v.setId fileId r)

section

variable {Raw : Type} (normalize : Raw → Option Name) (dbFilename : Name)

/-- The request goes to the branch of the primary database. -/
def IsPrimary (flags : Flags) (name : Name) : Prop :=
  flags.mainDb = true ∧ name = dbFilename

instance decidableIsPrimary (flags : Flags) (name : Name) :
    Decidable (IsPrimary dbFilename flags name) :=
  inferInstanceAs (Decidable (_ ∧ _))

def jOpen (env : OpenEnv Name) (zName : Option Raw) (fileId : Nat) (flags : Flags)
    (v : Vfs Name) : OpenResult × Vfs Name :=
  match normalizeMemoryWriteAheadPathname normalize env.random zName with
  | none => failOpen fileId none .invalidPathname v
  | some name =>
      -- a `null` path has another name in the `catch`
      let again := normalizeMemoryWriteAheadPathname normalize env.randomAgain zName
      if IsPrimary dbFilename flags name then jOpenPrimary name again fileId flags v
      else jOpenOther env name again fileId flags v

/-! ## §4. `#retryOpen`, `jClose` and `jDelete`. -/

/-- The end of `#retryOpen`; `threw`: its `catch` ran. -/
def OpenFile.retryOpen (threw : Option VfsError) (f : OpenFile Name) : OpenFile Name :=
  match threw with
  | some e => { f with retryResult := .error e }
  | none =>
      { f with
        accessHandle := some .live
        waHandles := some (.live, .live)
        writeAhead := some .live
        retryResult := .done }

def close (x : Option Resource) : Option Resource := x.map fun _ => .closed

/-- What `jClose` releases of a main database, in order. -/
def mainDbClosers : List (OpenFile Name → OpenFile Name) :=
  [OpenFile.releaseAttachedDatabaseLock,
    fun f => { f with writeAhead := close f.writeAhead },
    fun f => { f with accessHandle := close f.accessHandle },
    fun f => { f with waHandles := f.waHandles.map fun w => (.closed, w.2) },
    fun f => { f with waHandles := f.waHandles.map fun w => (w.1, .closed) },
    fun f => { f with readLock := close f.readLock },
    fun f => { f with writeLock := close f.writeLock }]

/-- The record after those that went through; `threw`: the one that throws, by
its place in the order. -/
def OpenFile.closeMain (threw : Option Nat) (f : OpenFile Name) : OpenFile Name :=
  let closers := match threw with
    | some n => mainDbClosers.take n
    | none => mainDbClosers
  closers.foldl (fun g closer => closer g) f

/-- `jClose`; `threw`: one of the closers of a main database throws. -/
def jClose (fileId : Nat) (threw : Option Nat) (v : Vfs Name) : Vfs Name :=
  match v.mapIdToFile fileId with
  | none => v
  | some r =>
      let f := v.files r
      if f.flags.mainDb then
        if threw.isSome then v.setFile r (f.closeMain threw)
        else
          let v' := v.setFile r { f.closeMain threw with opened := false }
          let v' := if v.mapPathToFile f.zName = some r then v'.deletePath f.zName else v'
          v'.deleteId fileId
      else
        let v' := v.setFile r { f with accessHandle := close f.accessHandle }
        let v' :=
          if f.flags.deleteOnClose then
            { v' with localFiles := Function.update v'.localFiles f.zName false }.deletePath f.zName
          else v'
        v'.deleteId fileId

/-- `jDelete`, as far as the maps go. -/
def jDelete (zName : Raw) (sharedFile : Bool) (v : Vfs Name) : Vfs Name :=
  match normalize zName with
  | none => { v with lastError := some .invalidPathname }
  | some name =>
      let localFiles :=
        if sharedFile then v.localFiles else Function.update v.localFiles name false
      { v with localFiles := localFiles }.deletePath name

/-- The record of an open file with new lock fields. -/
def setLocksOf (fileId : Nat) (locks : LockFields) (v : Vfs Name) : Vfs Name :=
  match v.mapIdToFile fileId with
  | none => v
  | some r => v.setFile r ((v.files r).setLocks locks)

/-! ## §5. The runs of one instance. -/

inductive LockCall where
  | jLock
  | jUnlock
  deriving DecidableEq, Repr

inductive Call (Raw Name : Type) where
  | jOpen (zName : Option Raw) (fileId : Nat) (flags : Flags) (env : OpenEnv Name)
  /-- a `#retryOpen` of this record ends -/
  | retryOpen (r : Nat) (threw : Option VfsError)
  | jClose (fileId : Nat) (threw : Option Nat)
  | jDelete (zName : Raw) (sharedFile : Bool)
  | lock (call : LockCall) (fileId : Nat) (locks : LockFields)
  /-- a queued lock retry of this record writes to it -/
  | retryLock (r : Nat) (locks : LockFields)

/-- The call's step; `none`: there is no such operation in flight. -/
def step (v : Vfs Name) : Call Raw Name → Option (Vfs Name)
  | .jOpen zName fileId flags env => some (jOpen normalize dbFilename env zName fileId flags v).2
  | .retryOpen r threw =>
      if r ∈ v.opening then
        some { v.setFile r ((v.files r).retryOpen threw) with opening := v.opening.erase r }
      else none
  | .jClose fileId threw => some (jClose fileId threw v)
  | .jDelete zName sharedFile => some (jDelete normalize zName sharedFile v)
  | .lock _ fileId locks => some (setLocksOf fileId locks v)
  | .retryLock r locks => some (v.setFile r ((v.files r).setLocks locks))

/-- A lock call or a close of this file. -/
def Call.IsBy (fileId : Nat) : Call Raw Name → Prop
  | .lock _ f _ => f = fileId
  | .jClose f _ => f = fileId
  | .jOpen .. | .retryOpen .. | .jDelete .. | .retryLock .. => False

/-- A new instance. -/
def Vfs.IsNew (v : Vfs Name) : Prop :=
  (∀ name, v.mapPathToFile name = none) ∧ (∀ fileId, v.mapIdToFile fileId = none) ∧
    v.opening = []

def machine : System (Vfs Name) (Call Raw Name) where
  init := Vfs.IsNew
  next v call v' := step normalize dbFilename v call = some v'

/-- The flag `SQLITE_OPEN_MAIN_DB` of each file's last open that returned
`SQLITE_OK`. -/
def noteMainDb (mainDb : Nat → Bool) (v : Vfs Name) : Call Raw Name → Nat → Bool
  | .jOpen zName fileId flags env =>
      if (jOpen normalize dbFilename env zName fileId flags v).1.isOk then
        Function.update mainDb fileId flags.mainDb
      else mainDb
  | _ => mainDb

/-- The runs, with the flag of each open file. -/
def recordedMachine : System (Vfs Name × (Nat → Bool)) (Call Raw Name) :=
  (machine normalize dbFilename).record (fun _ => false) (noteMainDb normalize dbFilename)

end

end MemoryWriteAhead.OpenFiles
