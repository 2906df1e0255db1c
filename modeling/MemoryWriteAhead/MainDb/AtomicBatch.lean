/-
  MemoryWriteAhead.MainDb.AtomicBatch
  ───────────────────────────────────
  **THE ROLLBACK OF A BATCH OF ATOMIC WRITES.**

  `jDeviceCharacteristics` offers `SQLITE_IOCAP_BATCH_ATOMIC` for every file, and
  `jFileControl` answers the three file controls of a batch with `SQLITE_OK`.  A
  primary file takes its batch back: the frames lie behind the committed ones and are
  dropped.  An attached file has written its bytes in place, and its rollback does
  nothing.

    • `batch_rolls_back` — a primary file, in every state of its connections and after
      any calls, failed ones too,
    • `attached_batch_rolls_back_iff` — an attached file, after any calls on it: exactly
      when the calls that did not fail have left the size and every byte below it as
      they were,
    • `rolls_back_iff` — the two together, for any handle.
-/
import MemoryWriteAhead.MainDb.Model
import MemoryWriteAhead.WriteAhead.Snapshot
import MemoryWriteAhead.Storage.Handle

namespace MemoryWriteAhead.MainDb

open Outcome Transition
open Storage (SharedFile HandleCall Leaves readMemoryWriteAheadFile writeMemoryWriteAheadFile
  truncateMemoryWriteAheadFile getFileSizeBytes byteAt logicalSize)
open WriteAhead (World Placed Beside Aside Shared Conn sharing Settled)

/-! ## §1. Batches. -/

/-- A call between the begin and the end of a batch. -/
inductive BatchCall where
  | write (env : CallEnv) (pData : List UInt8) (iOffset : Nat)
  | truncate (env : CallEnv) (iSize : Nat)

def BatchCall.run (file : MainFile) : BatchCall → MainFile
  | .write env pData iOffset => (jWrite env file pData iOffset).2
  | .truncate env iSize => (jTruncate env file iSize).2

/-- The call that an attached file makes on its shared file. -/
def BatchCall.handleCall : BatchCall → HandleCall
  | .write env pData iOffset => .write env.granted pData iOffset
  | .truncate env iSize => .truncate env.granted iSize

/-- The file after the batch has been begun and its calls made. -/
def MainFile.afterBatch (file : MainFile) (batch : List BatchCall) : MainFile :=
  batch.foldl BatchCall.run (jFileControl .beginAtomicWrite file).2

/-- The size and every read are the same. -/
structure SameView (file file' : MainFile) : Prop where
  size : jFileSize file' = jFileSize file
  reads : ∀ pData iOffset, jRead file' pData iOffset = jRead file pData iOffset

/-- A batch that is begun and rolled back leaves the size and the reads. -/
def RollsBack (file : MainFile) (batch : List BatchCall) : Prop :=
  (jFileControl .beginAtomicWrite file).1 = .ok →
    (jFileControl .rollbackAtomicWrite (file.afterBatch batch)).1 = .ok →
      SameView file (jFileControl .rollbackAtomicWrite (file.afterBatch batch)).2

/-- The accepted calls of the batch, taken as a whole, leave the size and, of every
position below it, the last byte that was written there. -/
def Restores (x : SharedFile × FileHistory UInt8) (batch : List BatchCall) : Prop :=
  let after := ((batch.map BatchCall.handleCall).foldl SharedFile.handleCall x).2
  after.flat.size = x.2.flat.size ∧ ∀ p, p < x.2.flat.size → after.last p = x.2.last p

/-! ## §2. A primary file. -/

section

variable {file : MainFile} {w w' : World}

/-- **One call of a batch** keeps the view and the places. -/
theorem run_aside (hfile : file.backing = .writeAhead w) (hplaced : Placed w) (call : BatchCall) :
    ∃ w', call.run file = file.withWorld w' ∧ Aside w w' := by
  cases call with
  | write env pData iOffset =>
      have hyields := WriteAhead.write_aside hplaced env.salt2 iOffset pData
        (file.dstPageSize pData.length)
      unfold BatchCall.run jWrite
      rw [hfile]
      dsimp only
      split
      next hrun => exact ⟨_, rfl, hyields.of_ok hrun⟩
      next hrun => exact ⟨_, rfl, hyields.of_error hrun⟩
  | truncate env iSize =>
      have hyields := WriteAhead.truncate_aside hplaced iSize
      unfold BatchCall.run jTruncate
      rw [hfile]
      dsimp only
      split
      next hrun => exact ⟨_, rfl, hyields.of_ok hrun⟩
      next hrun => exact ⟨_, rfl, hyields.of_error hrun⟩

/-- **Any calls of a batch** keep them. -/
theorem batch_aside (hfile : file.backing = .writeAhead w) (hplaced : Placed w)
    (batch : List BatchCall) :
    ∃ w', batch.foldl BatchCall.run file = file.withWorld w' ∧ Aside w w' := by
  induction batch generalizing file w with
  | nil =>
      refine ⟨w, ?_, hplaced, .refl w⟩
      unfold MainFile.withWorld
      rw [← hfile]
      rfl
  | cons call batch ih =>
      obtain ⟨w₁, hrun, hcall⟩ := run_aside hfile hplaced call
      have hnext : (file.withWorld w₁).backing = .writeAhead w₁ := rfl
      obtain ⟨w₂, hrest, hbatch⟩ := ih hnext hcall.placed
      refine ⟨w₂, ?_, hcall.trans hbatch⟩
      rw [List.foldl_cons, hrun, hrest]
      rfl

/-- What lies beside a transaction that is gone is read as before. -/
theorem Beside.sameView (hfile : file.backing = .writeAhead w) (h : Beside w w')
    (hnone : w.conn.txInProgress = none) (hnone' : w'.conn.txInProgress = none) :
    SameView file (file.withWorld w') := by
  have hread (offset : Nat) : w'.read offset = w.read offset := by
    unfold WriteAhead.World.read WriteAhead.Conn.entryAt
    rw [hnone, hnone', h.overlay]
    cases hentry : w.conn.waOverlay.lookup offset with
    | none => rfl
    | some e =>
        show (e.data w'.store).map some = (e.data w.store).map some
        unfold WriteAhead.PageEntry.data
        cases e.pageData with
        | some pageData => rfl
        | none => rw [h.pages offset e hentry]
  refine ⟨?_, fun pData iOffset => ?_⟩
  · unfold jFileSize WriteAhead.Conn.getFileSize MainFile.withWorld
    rw [hfile]
    dsimp only
    rw [hnone, hnone', h.dbFileSize]
  · unfold jRead MainFile.withWorld
    rw [hfile]
    dsimp only
    rw [hread, h.db]

/-- **A primary file rolls a batch back.** -/
theorem primary_rolls_back (hfile : file.backing = .writeAhead w) (hplaced : Placed w)
    (hnone : w.conn.txInProgress = none) (batch : List BatchCall) : RollsBack file batch := by
  intro _ _
  obtain ⟨w₁, hrun, hbatch⟩ := batch_aside hfile hplaced batch
  -- what the batch has written lies behind the committed frames, where the rollback cuts
  obtain ⟨w₂, hrollback, hback, hnone₂⟩ := WriteAhead.rollback_aside hbatch.placed
  have hend : (jFileControl .rollbackAtomicWrite (file.afterBatch batch)).2
      = file.withWorld w₂ := by
    show (jFileControl .rollbackAtomicWrite (batch.foldl BatchCall.run file)).2 = _
    rw [hrun]
    unfold jFileControl MainFile.withWorld
    dsimp only
    rw [hrollback]
  rw [hend]
  exact Beside.sameView hfile (hbatch.beside.trans hback.beside) hnone hnone₂

end

section

variable {file : MainFile} {shared : SharedFile} {history : FileHistory UInt8}

/-- One call of a batch is a call on the shared file. -/
theorem run_attached (hfile : file.backing = .accessHandle shared) (hleaves : Leaves shared history)
    (call : BatchCall) :
    call.run file = file.withFile (SharedFile.handleCall (shared, history) call.handleCall).1 := by
  cases call with
  | write env pData iOffset =>
      unfold BatchCall.run BatchCall.handleCall jWrite SharedFile.handleCall
      rw [hfile]
      rcases Storage.write_left env.granted hleaves pData iOffset with
        ⟨e, shared', hwrite, _⟩ | ⟨shared', hwrite, _⟩
      · simp only [hwrite]
      · simp only [hwrite]
  | truncate env iSize =>
      unfold BatchCall.run BatchCall.handleCall jTruncate SharedFile.handleCall
      rw [hfile]
      rcases Storage.truncate_left env.granted hleaves iSize with
        ⟨e, shared', htruncate, _⟩ | ⟨shared', htruncate, _⟩
      · simp only [htruncate]
      · simp only [htruncate]

theorem batch_attached (hfile : file.backing = .accessHandle shared)
    (hleaves : Leaves shared history) (batch : List BatchCall) :
    batch.foldl BatchCall.run file = file.withFile
      ((batch.map BatchCall.handleCall).foldl SharedFile.handleCall (shared, history)).1 := by
  induction batch generalizing file shared history with
  | nil =>
      unfold MainFile.withFile
      rw [List.map_nil, List.foldl_nil, List.foldl_nil, ← hfile]
  | cons call batch ih =>
      have hrun := run_attached hfile hleaves call
      have hnext := hleaves.call (x := (shared, history)) call.handleCall
      rw [List.foldl_cons, List.map_cons, List.foldl_cons, hrun]
      have hfile' (shared' : SharedFile) : (file.withFile shared').backing = .accessHandle shared' :=
        rfl
      exact ih (hfile' _) hnext

/-- **An attached file is read as its history says**: its view stays as it was exactly
when the size did, and every last byte below it. -/
theorem sameView_iff {shared' : SharedFile} {history' : FileHistory UInt8}
    (hfile : file.backing = .accessHandle shared) (hleaves : Leaves shared history)
    (hleaves' : Leaves shared' history') :
    SameView file (file.withFile shared')
      ↔ history'.flat.size = history.flat.size
        ∧ ∀ p, p < history.flat.size → history'.last p = history.last p := by
  have hsize : logicalSize shared = history.flat.size := hleaves.left.shows.size_eq
  have hsize' : logicalSize shared' = history'.flat.size := hleaves'.left.shows.size_eq
  constructor
  · rintro ⟨hsizes, hreads⟩
    have hsame : history'.flat.size = history.flat.size := by
      unfold jFileSize MainFile.withFile at hsizes
      rw [hfile] at hsizes
      have hnat : logicalSize shared' = logicalSize shared := by
        unfold logicalSize
        rw [show getFileSizeBytes shared' = getFileSizeBytes shared from hsizes]
      omega
    refine ⟨hsame, fun p hp => ?_⟩
    -- one byte is read at `p`
    have hread := hreads [0] p
    unfold jRead MainFile.withFile readInto at hread
    rw [hfile] at hread
    have hone := (Prod.mk.inj hread).2
    obtain ⟨hlength, hbytes⟩ := Storage.read_correct hleaves.wf 1 p
    obtain ⟨hlength', hbytes'⟩ := Storage.read_correct hleaves'.wf 1 p
    have hbyte := hbytes 0 (by omega)
    have hbyte' := hbytes' 0 (by omega)
    rw [hleaves.byte (by omega)] at hbyte
    rw [hleaves'.byte (by omega)] at hbyte'
    have hhead := congrArg (fun xs : List UInt8 => xs[0]?) hone
    dsimp only [List.length_singleton] at hhead
    rw [List.getElem?_append_left (by omega), List.getElem?_append_left (by omega), hbyte,
      hbyte'] at hhead
    exact Option.some.inj hhead
  · rintro ⟨hsame, hlast⟩
    refine ⟨?_, fun pData iOffset => ?_⟩
    · unfold jFileSize MainFile.withFile
      rw [hfile]
      dsimp only
      rw [hleaves.wf.size_eq, hleaves'.wf.size_eq, hsize, hsize', hsame]
    · unfold jRead MainFile.withFile
      rw [hfile]
      dsimp only
      rw [hleaves.read_congr hleaves' hsame hlast]

/-- **An attached file rolls a batch back exactly when there is nothing to roll back.** -/
theorem attached_rolls_back_iff (hfile : file.backing = .accessHandle shared)
    (hleaves : Leaves shared history) (batch : List BatchCall) :
    RollsBack file batch ↔ Restores (shared, history) batch := by
  have hafter := Leaves.calls (x := (shared, history)) hleaves (batch.map BatchCall.handleCall)
  have hend : jFileControl .rollbackAtomicWrite (file.afterBatch batch)
      = (.ok, file.withFile
        ((batch.map BatchCall.handleCall).foldl SharedFile.handleCall (shared, history)).1) := by
    show jFileControl .rollbackAtomicWrite (batch.foldl BatchCall.run file) = _
    rw [batch_attached hfile hleaves batch]
    rfl
  unfold RollsBack
  rw [hend]
  exact ⟨fun h => (sameView_iff hfile hleaves hafter).mp (h rfl rfl),
    fun h _ _ => (sameView_iff hfile hleaves hafter).mpr h⟩

/-- The same for every file that has been created and then used in any way. -/
theorem attached_batch_rolls_back_iff {growable : Nat → Bool} {pathname : String}
    {caps : Storage.Capacities} {allowFixedCapacityFallback : Bool}
    (hcreate : Storage.createSharedFile growable pathname caps.initialCapacityBytes
      caps.maxCapacityBytes allowFixedCapacityFallback = some shared) (calls : List HandleCall)
    (hfile : file.backing
      = .accessHandle (calls.foldl SharedFile.handleCall (shared, .empty 0)).1)
    (batch : List BatchCall) :
    RollsBack file batch
      ↔ Restores (calls.foldl SharedFile.handleCall (shared, .empty 0)) batch :=
  attached_rolls_back_iff hfile
    (Leaves.calls (x := (shared, .empty 0)) (Storage.createSharedFile_left hcreate) calls) batch

end

/-- Two bytes that are written to an empty file stay. -/
theorem attached_batch_rolls_back_iff_five :
    ∃ shared, Storage.createSharedFile (fun _ => true) "/db" Storage.fiveBytes.initialCapacityBytes
        Storage.fiveBytes.maxCapacityBytes false = some shared
      ∧ ¬RollsBack (.opened (.accessHandle shared)) [.write ⟨0, fun _ => true⟩ [1, 2] 0] := by
  obtain ⟨shared, hcreate⟩ : ∃ shared, Storage.createSharedFile (fun _ => true) "/db"
      Storage.fiveBytes.initialCapacityBytes Storage.fiveBytes.maxCapacityBytes false
        = some shared := ⟨_, rfl⟩
  have hfile : (MainFile.opened (.accessHandle shared)).backing = .accessHandle shared := rfl
  have hiff := attached_batch_rolls_back_iff hcreate [] hfile [.write ⟨0, fun _ => true⟩ [1, 2] 0]
  refine ⟨shared, hcreate, fun hback => ?_⟩
  obtain ⟨hsize, -⟩ := hiff.mp hback
  obtain rfl := Option.some.inj hcreate
  exact absurd hsize (by decide)

/-! ## §4. Any file. -/

/-- A handle of a main database when its batch begins. -/
inductive AtBegin (file : MainFile) : Option (SharedFile × FileHistory UInt8) → Prop where
  /-- Primary: no transaction is in progress, and the view finds its pages in place. -/
  | primary {w : World} (backing : file.backing = .writeAhead w) (placed : Placed w)
      (free : w.conn.txInProgress = none) : AtBegin file none
  /-- Attached: the shared file has been created and then used in any way. -/
  | attached {growable : Nat → Bool} {pathname : String} {caps : Storage.Capacities}
      {allowFixedCapacityFallback : Bool} {shared : SharedFile}
      (created : Storage.createSharedFile growable pathname caps.initialCapacityBytes
        caps.maxCapacityBytes allowFixedCapacityFallback = some shared)
      (calls : List HandleCall)
      (backing : file.backing
        = .accessHandle (calls.foldl SharedFile.handleCall (shared, .empty 0)).1) :
      AtBegin file (some (calls.foldl SharedFile.handleCall (shared, .empty 0)))

/-- The connections of a database have their pages in place, isolated or not. -/
theorem AtBegin.of_reach {file : MainFile} {Id : Type} [DecidableEq Id] {s : Shared Id} {i : Id}
    {c : Conn} (h : Reach (sharing Id) Settled s) (hc : s.conns i = some c)
    (hnone : c.txInProgress = none) (hfile : file.backing = .writeAhead ⟨s.store, c⟩) :
    AtBegin file none := by
  obtain ⟨J, hconsistent⟩ := WriteAhead.reach_consistent_of_open h hc
  exact .primary hfile (hconsistent.placed hc) hnone

/-- **The same capability is offered for every file, and kept by the primary ones only**: a
batch on an attached file is taken back exactly when there is nothing to take back. -/
theorem rolls_back_iff {file : MainFile} {x : Option (SharedFile × FileHistory UInt8)}
    (h : AtBegin file x) (batch : List BatchCall) :
    RollsBack file batch ↔ ∀ y, x = some y → Restores y batch := by
  cases h with
  | primary backing placed free =>
      have hback := primary_rolls_back backing placed free batch
      refine ⟨?_, fun _ => hback⟩
      rintro _ y ⟨⟩
  | attached created calls backing =>
      have hleaves := Leaves.calls (x := (_, .empty 0)) (Storage.createSharedFile_left created) calls
      have hiff := attached_rolls_back_iff backing hleaves batch
      constructor
      · rintro hback y hy
        obtain rfl := Option.some.inj hy
        exact hiff.mp hback
      · intro hrestores
        exact hiff.mpr (hrestores _ rfl)

/-- A byte that is written over with itself is taken back, whatever the file is. -/
theorem rolls_back_iff_five :
    ∃ shared, Storage.createSharedFile (fun _ => true) "/b.sqlite"
        Storage.fiveBytes.initialCapacityBytes Storage.fiveBytes.maxCapacityBytes false
          = some shared
      ∧ RollsBack
          (.opened (.accessHandle
            (SharedFile.handleCall (shared, .empty 0) (.write (fun _ => true) [7] 0)).1))
          [.write ⟨0, fun _ => true⟩ [7] 0] := by
  obtain ⟨shared, hcreate⟩ : ∃ shared, Storage.createSharedFile (fun _ => true) "/b.sqlite"
      Storage.fiveBytes.initialCapacityBytes Storage.fiveBytes.maxCapacityBytes false
        = some shared := ⟨_, rfl⟩
  refine ⟨shared, hcreate, ?_⟩
  refine (rolls_back_iff (.attached hcreate [.write (fun _ => true) [7] 0] rfl) _).mpr ?_
  rintro y hy
  obtain rfl := Option.some.inj hy
  obtain rfl := Option.some.inj hcreate
  refine ⟨by decide, fun p hp => ?_⟩
  obtain rfl : p = 0 := by
    have hone : p < 1 := hp
    omega
  decide

/-- **Two bytes stay**: the batch is begun and rolled back, each with `SQLITE_OK`, and the
attached file is two bytes longer. -/
theorem attached_batch_stays :
    ∃ shared, Storage.createSharedFile (fun _ => true) "/b.sqlite"
        Storage.fiveBytes.initialCapacityBytes Storage.fiveBytes.maxCapacityBytes false
          = some shared
      ∧ let file := MainFile.opened (.accessHandle shared)
        let batch := [BatchCall.write ⟨0, fun _ => true⟩ [1, 2] 0]
        let rolledBack := jFileControl .rollbackAtomicWrite (file.afterBatch batch)
        (jFileControl .beginAtomicWrite file).1 = .ok ∧ rolledBack.1 = .ok
        ∧ jFileSize file = 0 ∧ jFileSize rolledBack.2 = 2 ∧ ¬RollsBack file batch := by
  obtain ⟨shared, hcreate⟩ : ∃ shared, Storage.createSharedFile (fun _ => true) "/b.sqlite"
      Storage.fiveBytes.initialCapacityBytes Storage.fiveBytes.maxCapacityBytes false
        = some shared := ⟨_, rfl⟩
  refine ⟨shared, hcreate, ?_⟩
  obtain rfl := Option.some.inj hcreate
  refine ⟨by decide, by decide, by decide, by decide, fun hback => ?_⟩
  have hsize := (hback (by decide) (by decide)).size
  exact absurd hsize (by decide)

end MemoryWriteAhead.MainDb
