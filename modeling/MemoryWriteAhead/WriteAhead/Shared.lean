/-
  MemoryWriteAhead.WriteAhead.Shared
  ──────────────────────────────────
  **MANY CONNECTIONS ON ONE WRITE-AHEAD LOG.**

  The connections of one database in all contexts, with what they share: the
  files, the write lock, the lock `#ckpt` and the broadcast channel.  A step is a
  call of one connection, run as the class runs it; `Allowed` says when the VFS,
  the lock manager and the channel let it happen, and `Settled` which steps keep the
  log: the code checks none of what it asks for.

    • a message may come late, more than once, in any order or never,
    • a connection may die between any two of its calls,
    • `ready` finds the headers in one step and goes on from them in another,
    • `checkpoint` copies, sees its last wait end, and empties the older file in three
      steps; what it waits for is read off the views that the lock names publish,
      which the names themselves may only lag behind,
    • the name of a connection that is being opened is left out; it only makes
      checkpoints wait longer.
-/
import MemoryWriteAhead.WriteAhead.Author
import MemoryWriteAhead.Library.Transition

namespace MemoryWriteAhead.WriteAhead

open Outcome Transition

/-! ## §1. The state. -/

/-- A checkpoint that waits for the other connections. -/
structure Waiting (Id : Type) where
  conn : Id
  ckptId : Nat
  isPassive : Bool
  /-- the connection, if it has been closed meanwhile -/
  closed : Option Conn
  /-- the last wait is over -/
  released : Bool

structure Shared (Id : Type) where
  store : Store
  conns : Id → Option Conn
  /-- the header that a connection has found that is being opened, if it has found one -/
  opening : Id → Option (Option FileHeader)
  /-- who has the write lock -/
  writer : Option Id
  /-- what has been posted -/
  posted : List Message
  /-- who has the lock `#ckpt` and has copied its pages -/
  waiting : Option (Waiting Id)

inductive Call where
  /-- the initialization up to its look at the headers -/
  | readFileHeaders
  /-- the rest of it -/
  | ready (randomSalt1 salt2 : BitVec 32)
  | close
  | dies
  | acquireWriteLock
  | releaseWriteLock
  | isolateForRead
  | isolateForWrite
  | tryUpgradeReadIsolationToWrite
  | rejoin (backstopDue : Bool)
  /-- the timer, when it is due -/
  | backstop
  | write (salt2 : BitVec 32) (offset : Nat) (data : List UInt8) (dstPageSize : Option Nat)
  | truncate (newSize : Nat)
  | rollback
  | commit
  | journalSizeLimit (limit : Int)
  | handleMessage (message : Message)
  /-- `checkpoint` up to its last wait -/
  | checkpoint (isPassive : Bool)
  /-- the end of the wait -/
  | waitForTxIdLocks
  /-- the rest of `checkpoint` -/
  | truncateInactiveFile

/-! ## §2. The steps. -/

/-- What a run of code leaves. -/
def endOf {α : Type} : EStateM.Result WaError World α → World
  | .ok _ w => w
  | .error _ w => w

/-- How far a checkpoint goes. -/
def Conn.ckptId (c : Conn) (isPassive : Bool) : Nat :=
  if isPassive then c.activeHeader.nextTxId - 1 else c.txId

namespace Shared

variable {Id : Type}

/-- The connection whose checkpoint waits. -/
def checkpointer (s : Shared Id) (k : Waiting Id) : Option Conn :=
  match k.closed with
  | some c => some c
  | none => s.conns k.conn

/-- A checkpoint that is not passive is one call for its connection. -/
def Free (s : Shared Id) (i : Id) : Prop :=
  ∀ k, s.waiting = some k → k.conn = i → k.isPassive = true

variable [DecidableEq Id]

def put (s : Shared Id) (i : Id) (w : World) : Shared Id :=
  { s with store := w.store, conns := Function.update s.conns i (some w.conn) }

/-- The connection runs code. -/
def runs {α : Type} (s : Shared Id) (i : Id) (code : WA α) : Shared Id :=
  match s.conns i with
  | none => s
  | some c => s.put i (endOf (code ⟨s.store, c⟩))

/-- The connection is gone, and its locks with it. -/
def without (s : Shared Id) (i : Id) (waiting : Option (Waiting Id)) : Shared Id :=
  { s with
    conns := Function.update s.conns i none
    writer := if s.writer = some i then none else s.writer
    waiting := waiting }

/-- The connection is open, or it is not and has left the files so. -/
def opens (s : Shared Id) (i : Id) (randomSalt1 salt2 : BitVec 32) : Shared Id :=
  match s.opening i with
  | none => s
  | some found =>
      match readyWith found randomSalt1 salt2 ⟨s.store, .initial⟩ with
      | .ok _ w => { s.put i w with opening := Function.update s.opening i none }
      | .error _ w => { s with store := w.store, opening := Function.update s.opening i none }

/-- A checkpoint goes on without the connection. -/
def closes (s : Shared Id) (i : Id) : Shared Id :=
  s.without i (s.waiting.map fun k =>
    if k.conn = i ∧ k.closed.isNone = true then { k with closed := s.conns i } else k)

def dies (s : Shared Id) (i : Id) : Shared Id :=
  s.without i (s.waiting.filter fun k => ¬(k.conn = i ∧ k.closed.isNone = true))

def commits (s : Shared Id) (i : Id) : Shared Id :=
  match s.conns i with
  | none => s
  | some c =>
      match commit ⟨s.store, c⟩ with
      | .ok (some tx) w => { s.put i w with posted := .tx tx :: s.posted }
      | .ok none w => s.put i w
      | .error _ w => s.put i w

def copies (s : Shared Id) (i : Id) (isPassive : Bool) : Shared Id :=
  match s.conns i with
  | none => s
  | some c =>
      match checkpointCopy (c.ckptId isPassive) ⟨s.store, c⟩ with
      | .ok _ w =>
          { s.put i w with
            posted := .ckpt (c.ckptId isPassive) :: s.posted
            waiting := some ⟨i, c.ckptId isPassive, isPassive, none, false⟩ }
      | .error _ w => s.put i w

def truncates (s : Shared Id) : Shared Id :=
  match s.waiting.bind s.checkpointer with
  | none => s
  | some c => { s with store := (endOf (truncateInactiveFile ⟨s.store, c⟩)).store, waiting := none }

def after (s : Shared Id) (i : Id) : Call → Shared Id
  | .readFileHeaders =>
      { s with opening := Function.update s.opening i (some s.store.firstHeader) }
  | .ready randomSalt1 salt2 => s.opens i randomSalt1 salt2
  | .close => s.closes i
  | .dies => s.dies i
  | .acquireWriteLock => { s with writer := some i }
  | .releaseWriteLock => { s with writer := none }
  | .isolateForRead => s.runs i WriteAhead.isolateForRead
  | .isolateForWrite => s.runs i WriteAhead.isolateForWrite
  | .tryUpgradeReadIsolationToWrite => s.runs i WriteAhead.tryUpgradeReadIsolationToWrite
  | .rejoin backstopDue => s.runs i (WriteAhead.rejoin backstopDue)
  | .backstop => s.runs i (advanceTxId true)
  | .write salt2 offset data dstPageSize => s.runs i (WriteAhead.write salt2 offset data dstPageSize)
  | .truncate newSize => s.runs i (WriteAhead.truncate newSize)
  | .rollback => s.runs i WriteAhead.rollback
  | .commit => s.commits i
  | .journalSizeLimit limit => s.runs i do
      let w ← get
      setConn { w.conn with journalSizeLimit := limit }
  | .handleMessage message => s.runs i (WriteAhead.handleMessage message)
  | .checkpoint isPassive => s.copies i isPassive
  | .waitForTxIdLocks => { s with waiting := s.waiting.map fun k => { k with released := true } }
  | .truncateInactiveFile => s.truncates

end Shared

/-! ## §3. When a step may happen. -/

namespace Shared

variable {Id : Type}

/-- An open connection may make the call. -/
def Allows (s : Shared Id) (i : Id) (c : Conn) : Call → Prop
  | .readFileHeaders | .ready _ _ => False
  | .close => s.Free i
  | .dies => True
  | .acquireWriteLock => s.writer = none
  | .releaseWriteLock => s.writer = some i
  | .isolateForRead => True
  | .isolateForWrite => s.writer = some i
  | .tryUpgradeReadIsolationToWrite => s.writer = some i
  | .rejoin _ => s.Free i
  | .backstop => c.isolationState = none
  | .write _ _ _ _ | .truncate _ | .rollback | .commit => s.Free i
  | .journalSizeLimit _ => True
  | .handleMessage message => message ∈ s.posted
  | .checkpoint isPassive =>
      s.waiting = none
        ∧ (∀ j c', s.conns j = some c' → c.ckptId isPassive ≤ c'.txId)
        ∧ if isPassive then (c.mapIdToTx.lookup (c.ckptId true)).isSome = true
          else s.writer = some i ∧ c.isolationState = some .write ∧ c.txInProgress = none
  | .waitForTxIdLocks | .truncateInactiveFile => False

def Allowed (s : Shared Id) (i : Id) : Call → Prop
  | .readFileHeaders => s.conns i = none
  | .ready _ _ => s.conns i = none ∧ (s.opening i).isSome = true
  | .waitForTxIdLocks =>
      ∃ k, s.waiting = some k ∧ k.conn = i ∧ ∀ j c, s.conns j = some c → k.ckptId < c.minTxId
  | .truncateInactiveFile => ∃ k, s.waiting = some k ∧ k.conn = i ∧ k.released = true
  | call => ∃ c, s.conns i = some c ∧ s.Allows i c call

/-- Nobody is in the older file any more, or still has a transaction of it. -/
def Left (s : Shared Id) : Prop :=
  ∀ k, s.waiting = some k → ∀ c, s.checkpointer k = some c →
    ∀ j c', s.conns j = some c' → k.ckptId < c'.minTxId ∧ c'.activeHandle = c.activeHandle

/-- Nobody has opened the database, and nothing has been written to its log files. -/
def Blank (s : Shared Id) : Prop :=
  (∀ handle, (s.store.wa handle).cells = []) ∧ (∀ i, s.conns i = none)
    ∧ s.writer = none ∧ s.posted = [] ∧ s.waiting = none

end Shared

/-- Any number of connections over files to which nothing has been written. -/
def sharing (Id : Type) [DecidableEq Id] : System (Shared Id) (Id × Call) where
  init s := s.Blank ∧ ∀ i, s.opening i = none
  next s l s' := s.Allowed l.1 l.2 ∧ s' = s.after l.1 l.2

/-- **The steps that keep the log.**  The code goes on with what it has seen before, and
relies on the order of SQLite's calls. -/
def Settled {Id : Type} (s : Shared Id) (l : Id × Call) : Prop :=
  match l.2 with
  -- two connections that find no header both write one
  | .ready _ _ => s.opening l.1 = some s.store.firstHeader
  -- a checkpoint that cannot isolate itself gives up the lock of the writer
  | .releaseWriteLock => ∀ c, s.conns l.1 = some c → c.isolationState ≠ some .write
  -- SQLite ends its transaction before it gives up its lock
  | .rejoin _ => ∀ c, s.conns l.1 = some c → c.txInProgress = none
  | .write _ _ data dstPageSize =>
      ∀ c, s.conns l.1 = some c → WriteFits ⟨s.store, c⟩ data dstPageSize
  -- it makes these calls with its write lock
  | .truncate _ | .rollback | .commit =>
      ∀ c, s.conns l.1 = some c → c.isolationState = some .write
  -- a connection may have been opened behind the wait, and one that stands behind the
  -- end frame of a file that is emptied does not get to the other file
  | .truncateInactiveFile => s.Left
  | _ => True

end MemoryWriteAhead.WriteAhead
