/-
  MemoryWriteAhead.WriteAhead.Pending
  ───────────────────────────────────
  **WHAT THE CODE OF THE LOG KEEPS OF ITS CONNECTION, RETURNING OR NOT.**

  Taking up transactions moves the place in the log and fills the maps; whatever
  does not depend on these is kept (`TakenUp`), and the code that only touches files
  keeps everything.

  Only `#handleMessage` puts a transaction into `#mapIdToPendingTx`, and under
  its id.  So `Filed` holds of every connection from the start on, whatever its
  code does and whether it throws.
-/
import MemoryWriteAhead.WriteAhead.TakeUp

namespace MemoryWriteAhead.WriteAhead

open Outcome

/-- The code leaves `P` true of the connection. -/
abbrev KeepsConn {α : Type} (P : Conn → Prop) (code : WA α) : Prop :=
  Keeps (fun w : World => P w.conn) code

/-- The code leaves the pending transactions filed. -/
abbrev KeepsFiled {α : Type} (code : WA α) : Prop := KeepsConn Filed code

section

variable {P : Conn → Prop}

/-! ## §1. The files. -/

/-- Fields are replaced by ones of which `P` is true. -/
theorem keepsConn_setConn {conn : Conn} (h : P conn) : KeepsConn P (setConn conn) :=
  .get fun _ _ => .set h

/-- A write touches a file only, and one that does not fit touches nothing. -/
theorem keepsConn_writeWa (handle : Bool) (offset : Nat) (cells : List Cell) :
    KeepsConn P (writeWa handle offset cells) := by
  refine .get fun w hw => ?_
  dsimp only
  split
  · exact .throw _
  · exact .set hw

theorem keepsConn_truncateWa (handle : Bool) (size : Nat) : KeepsConn P (truncateWa handle size) :=
  .get fun _ hw => .set hw

/-- The same for the database file, which has a capacity of its own. -/
theorem keepsConn_writeDb (offset : Nat) (data : List UInt8) :
    KeepsConn P (writeDb offset data) := by
  refine .get fun w hw => ?_
  dsimp only
  split
  · exact .throw _
  · exact .set hw

theorem keepsConn_truncateDb (size : Nat) : KeepsConn P (truncateDb size) := by
  refine .get fun w hw => ?_
  dsimp only
  split
  · exact .throw _
  · exact .set hw

/-! ## §2. Taking up. -/

/-- What taking up transactions does not change. -/
structure TakenUp (P : Conn → Prop) : Prop where
  moved : ∀ c activeHandle activeHeader activeOffset txId, P c →
    P { c with
      activeHandle := activeHandle
      activeHeader := activeHeader
      activeOffset := activeOffset
      txId := txId }
  activated : ∀ c tx, P c → P (c.activateTx tx)
  erased : ∀ c id, P c → P { c with mapIdToPendingTx := c.mapIdToPendingTx.erase id }

variable (hP : TakenUp P)

include hP

/-- Reading a transaction moves the place in the log; by induction on the frames. -/
theorem TakenUp.readTxFrom (fuel : Nat) (pages : JsMap PageEntry) (offset : Nat) :
    KeepsConn P (readTxFrom fuel pages offset) := by
  induction fuel generalizing pages offset with
  | zero => exact .throw _
  | succ fuel ih =>
      unfold WriteAhead.readTxFrom
      refine .get fun w hw => ?_
      split
      · exact .pure _
      · exact ih _ _
      · refine .bind (keepsConn_setConn (hP.moved w.conn _ _ _ _ hw)) fun _ => ?_
        split
        · split
          · exact .throw _
          · exact .pure _
        · exact .pure _
      · split
        · exact .throw _
        next conn hfollow =>
          obtain rfl := Option.some.inj hfollow
          exact .bind (keepsConn_setConn (hP.moved w.conn _ _ _ _ hw)) fun _ => ih _ _

theorem TakenUp.readTx : KeepsConn P readTx := .get fun _ _ => hP.readTxFrom _ _ _

/-- The view gets the transaction and the code goes on. -/
theorem TakenUp.activate (tx : Transaction) {β : Type} {code : WA β} (h : KeepsConn P code) :
    KeepsConn P (do let w ← get; setConn (w.conn.activateTx tx); code) :=
  .get fun _ hw => .bind (keepsConn_setConn (hP.activated _ tx hw)) fun _ => h

/-- The transactions of the log are taken up one after the other. -/
theorem TakenUp.readAllTx (fuel : Nat) : KeepsConn P (readAllTx fuel) := by
  induction fuel with
  | zero => exact .throw _
  | succ fuel ih =>
      unfold WriteAhead.readAllTx
      refine .bind hP.readTx fun found => ?_
      cases found with
      | none => exact .pure _
      | some tx => exact hP.activate tx ih

/-- A transaction that arrived via a message is passed over in the log. -/
theorem TakenUp.skipTx (tx : Transaction) : KeepsConn P (skipTx tx) := by
  unfold WriteAhead.skipTx
  refine .get fun w hw => ?_
  split
  · split
    · exact .throw _
    next conn hfollow =>
      obtain ⟨header, _, rfl⟩ := Option.map_eq_some_iff.mp hfollow
      exact keepsConn_setConn (hP.moved w.conn _ _ _ _ hw)
  · exact keepsConn_setConn (hP.moved w.conn _ _ _ _ hw)

/-- **Every round** takes a transaction out under its id, or none. -/
theorem TakenUp.drainPending (fuel : Nat) : KeepsConn P (drainPending fuel) := by
  induction fuel with
  | zero => exact .throw _
  | succ fuel ih =>
      unfold WriteAhead.drainPending
      refine .get fun w hw => ?_
      split
      · exact .pure _
      · split
        next tx _ =>
          exact .bind (keepsConn_setConn (hP.erased _ tx.id hw)) fun _ =>
            .bind (hP.skipTx tx) fun _ => hP.activate tx ih
        · refine .bind hP.readTx fun found => ?_
          cases found with
          | none => exact .throw _
          | some tx => exact hP.activate tx ih

/-- Catching up, with or without a look at the log. -/
theorem TakenUp.advanceTxId (readToCurrent : Bool) : KeepsConn P (advanceTxId readToCurrent) := by
  unfold WriteAhead.advanceTxId
  refine .get fun w _ => .bind (hP.drainPending _) fun _ => ?_
  split
  · exact .get fun _ _ => hP.readAllTx _
  · exact .pure _

end

/-- The isolation and the transaction in progress have no part in it. -/
theorem takenUp_own (isolation : Option Isolation) (inProgress : Option Transaction) :
    TakenUp fun c => c.isolationState = isolation ∧ c.txInProgress = inProgress where
  moved _ _ _ _ _ h := h
  activated _ _ h := h
  erased _ _ h := h

theorem takenUp_filed : TakenUp Filed where
  moved _ _ _ _ _ h := h
  activated _ _ h := h
  erased _ id h := h.erase id

/-- **A message files what it brings.** -/
theorem keepsFiled_handleMessage (m : Message) : KeepsFiled (handleMessage m) := by
  cases m with
  | tx tx =>
      rw [handleMessage]
      refine .get fun w hw => ?_
      split
      · refine .bind (keepsConn_setConn (hw.arrive tx)) fun _ => ?_
        split
        · exact takenUp_filed.advanceTxId false
        · exact .pure _
      · exact .pure _
  | ckpt ckptId =>
      rw [handleMessage]
      exact .get fun w hw =>
        keepsConn_setConn (hw.congr (handleCheckpoint_frozen ckptId w.conn).2)

/-! ## §3. Isolation. -/

theorem keepsFiled_isolateForRead : KeepsFiled isolateForRead := by
  unfold isolateForRead
  refine .get fun w hw => ?_
  split
  · exact .throw _
  · exact keepsConn_setConn hw

/-- A writer catches up behind its isolation, and may throw there. -/
theorem keepsFiled_isolateForWrite : KeepsFiled isolateForWrite := by
  unfold isolateForWrite
  refine .get fun w hw => ?_
  split
  · exact .throw _
  · exact .bind (keepsConn_setConn hw) fun _ => takenUp_filed.advanceTxId true

theorem keepsFiled_tryUpgrade : KeepsFiled tryUpgradeReadIsolationToWrite := by
  unfold tryUpgradeReadIsolationToWrite
  refine .get fun w hw => ?_
  split
  · exact .throw _
  · split
    · exact .pure _
    · split
      · exact .pure _
      · exact .bind (keepsConn_setConn hw) fun _ => .pure _

/-- A reader catches up before its isolation ends, and the backstop may follow. -/
theorem keepsFiled_rejoin (backstopDue : Bool) : KeepsFiled (rejoin backstopDue) := by
  unfold rejoin
  have hend : KeepsFiled (do
      let w ← get
      setConn { w.conn with isolationState := none }
      if backstopDue then advanceTxId true else pure ⟨⟩) := by
    refine .get fun w hw => .bind (keepsConn_setConn hw) fun _ => ?_
    split
    · exact takenUp_filed.advanceTxId true
    · exact .pure _
  refine .get fun w _ => ?_
  dsimp only
  by_cases hread : w.conn.isolationState = some .read
  · rw [if_pos hread]
    exact .bind (takenUp_filed.advanceTxId false) fun _ => hend
  · rw [if_neg hread]
    exact hend

/-! ## §4. Writing and committing. -/

/-- A frame is a header and a payload; the second write may throw behind the first. -/
theorem keepsFiled_writePage (tx : Transaction) (pageOffset : Nat) (pageData : List UInt8) :
    KeepsFiled (writePage tx pageOffset pageData) := by
  unfold writePage
  refine .get fun w hw => ?_
  dsimp only
  split
  · exact .throw _
  · exact .bind (keepsConn_writeWa _ _ _) fun _ => .bind (keepsConn_writeWa _ _ _) fun _ =>
      .bind (keepsConn_setConn hw) fun _ => .pure _

/-- A larger page is written in slices of the new size; by induction on their number. -/
theorem keepsFiled_writeSlices (newPageSize fuel : Nat) (tx : Transaction) (offset : Nat)
    (data : List UInt8) : KeepsFiled (writeSlices newPageSize fuel tx offset data) := by
  induction fuel generalizing tx offset data with
  | zero => exact .pure _
  | succ fuel ih =>
      unfold writeSlices
      split
      · exact .pure _
      · exact .bind (keepsFiled_writePage _ _ _) fun _ => ih _ _ _

theorem keepsFiled_writeFileHeader (prevSalt1 salt2 : BitVec 32) :
    KeepsFiled (writeFileHeader prevSalt1 salt2) := by
  unfold writeFileHeader
  exact .get fun _ _ => .bind (keepsConn_writeWa _ _ _) fun _ => .pure _

/-- The end frame, the header of the other file, and then the fields. -/
theorem keepsFiled_swapActiveFile (salt2 : BitVec 32) : KeepsFiled (swapActiveFile salt2) := by
  unfold swapActiveFile
  exact .get fun _ hw => .bind (keepsConn_writeWa _ _ _) fun _ =>
    .bind (keepsFiled_writeFileHeader _ _) fun _ => keepsConn_setConn hw

/-- A transaction is begun, behind a swap if one is due. -/
theorem keepsFiled_ensureTx (salt2 : BitVec 32) (data : List UInt8) (dstPageSize : Option Nat) :
    KeepsFiled (ensureTx salt2 data dstPageSize) := by
  unfold ensureTx
  have hbegin : KeepsFiled (do
      let w ← get
      let tx := w.conn.beginTx (if dstPageSize ≠ some data.length then dstPageSize else none)
      setConn { w.conn with txInProgress := some tx }
      pure tx) := .get fun _ hw => .bind (keepsConn_setConn hw) fun _ => .pure _
  refine .get fun w _ => ?_
  split
  · exact .pure _
  · by_cases hswap : w.conn.nPageThreshold ≤ w.conn.approxPageCount ∧ w.isInactiveFileEmpty = true
    · dsimp only
      rw [if_pos hswap]
      exact .bind (keepsFiled_swapActiveFile salt2) fun _ => hbegin
    · dsimp only
      rw [if_neg hswap]
      exact hbegin

/-- **A write**, in each of its three layouts. -/
theorem keepsFiled_write (salt2 : BitVec 32) (offset : Nat) (data : List UInt8)
    (dstPageSize : Option Nat) : KeepsFiled (write salt2 offset data dstPageSize) := by
  unfold write
  refine .get fun w _ => ?_
  split
  · exact .throw _
  · refine .bind (keepsFiled_ensureTx _ _ _) fun tx => ?_
    split
    · split
      · exact .bind (keepsFiled_writeSlices _ _ _ _ _) fun _ => .pure _
      · exact .get fun _ _ => keepsConn_writeWa _ _ _
    · exact .bind (keepsFiled_writePage _ _ _) fun _ => .pure _

theorem keepsFiled_truncate (newSize : Nat) : KeepsFiled (truncate newSize) := by
  unfold truncate
  refine .get fun w hw => ?_
  split
  · exact .pure _
  · exact keepsConn_setConn hw

theorem keepsFiled_rollback : KeepsFiled rollback := by
  unfold rollback
  exact .get fun _ hw => .bind (keepsConn_setConn hw) fun _ => keepsConn_truncateWa _ _

theorem keepsFiled_rewritePage (newPageSize : Nat) (tx : Transaction) (i : Nat) :
    KeepsFiled (rewritePage newPageSize tx i) := by
  unfold rewritePage
  exact .get fun _ _ => .bind (keepsFiled_writePage _ _ _) fun _ => .pure _

/-- The pages of a VACUUM to a larger size, one after the other. -/
theorem keepsFiled_rewritePages (newPageSize count : Nat) (tx : Transaction) (i : Nat) :
    KeepsFiled (rewritePages newPageSize count tx i) := by
  induction count generalizing tx i with
  | zero => exact .pure _
  | succ count ih =>
      unfold rewritePages
      exact .bind (keepsFiled_rewritePage _ _ _) fun _ => ih _ _

theorem keepsFiled_commitTx (tx : Transaction) : KeepsFiled (commitTx tx) := by
  unfold commitTx
  exact .get fun _ hw => .bind (keepsConn_writeWa _ _ _) fun _ =>
    .bind (keepsConn_setConn hw) fun _ => .pure _

theorem keepsFiled_gatherPages (tx : Transaction) : KeepsFiled (gatherPages tx) := by
  unfold gatherPages
  split
  · split
    · refine .bind (keepsFiled_rewritePage _ _ _) fun r => ?_
      obtain ⟨tx, first⟩ := r
      dsimp only
      split
      · exact .throw _
      · exact keepsFiled_rewritePages _ _ _ _
    · exact .pure _
  · exact .pure _

/-- **A commit**, which is a rollback if there is no page 1. -/
theorem keepsFiled_commit : KeepsFiled commit := by
  unfold commit
  refine .get fun w _ => ?_
  split
  · exact .throw _
  · refine .bind (keepsFiled_gatherPages _) fun tx => ?_
    split
    · exact .bind keepsFiled_rollback fun _ => .pure _
    · split
      · exact .throw _
      · exact .get fun _ hw => .bind (keepsConn_setConn hw) fun _ =>
          .bind (keepsFiled_commitTx _) fun tx => takenUp_filed.activate tx (.pure _)

/-! ## §5. Checkpoints and opening. -/

theorem keepsFiled_copyPages (dbFileSize : Nat) (pages : List (Sigma fun _ : Nat => PageEntry))
    (writtenOffsets : List Nat) : KeepsFiled (copyPages dbFileSize pages writtenOffsets) := by
  induction pages generalizing writtenOffsets with
  | nil => exact .pure _
  | cons page pages ih =>
      unfold copyPages
      split
      · refine .get fun w _ => ?_
        split
        · exact .throw _
        · exact .bind (keepsConn_writeDb _ _) fun _ => ih _
      · exact ih _

/-- The transactions of a checkpoint, from the last one backwards. -/
theorem keepsFiled_copyTxs (dbFileSize id : Nat) (writtenOffsets : List Nat) :
    KeepsFiled (copyTxs dbFileSize id writtenOffsets) := by
  induction id generalizing writtenOffsets with
  | zero =>
      unfold copyTxs
      refine .get fun w _ => ?_
      split
      · exact .pure _
      · refine .bind (keepsFiled_copyPages _ _ _) fun _ => ?_
        split
        · exact .pure _
        · exact .pure _
  | succ id ih =>
      unfold copyTxs
      refine .get fun w _ => ?_
      split
      · exact .pure _
      · refine .bind (keepsFiled_copyPages _ _ _) fun _ => ?_
        split
        · exact .pure _
        · exact ih _

/-- A checkpoint forgets what it has copied, but nothing that is pending. -/
theorem keepsFiled_checkpointCopy (ckptId : Nat) : KeepsFiled (checkpointCopy ckptId) := by
  unfold checkpointCopy
  have hend : KeepsFiled (do let w ← get; setConn (w.conn.handleCheckpoint ckptId)) :=
    .get fun w hw => keepsConn_setConn (hw.congr (handleCheckpoint_frozen ckptId w.conn).2)
  have hcopied (tx : Transaction) : KeepsFiled (do
      copyTxs tx.dbFileSize ckptId []
      let w ← get
      setConn (w.conn.handleCheckpoint ckptId)) := .bind (keepsFiled_copyTxs _ _ _) fun _ => hend
  refine .get fun w _ => ?_
  split
  · exact hend
  · split
    · exact .bind (keepsConn_truncateDb _) fun _ => hcopied _
    · exact hcopied _

theorem keepsFiled_truncateInactiveFile : KeepsFiled truncateInactiveFile :=
  .get fun _ _ => keepsConn_truncateWa _ _

theorem keepsFiled_readyWith (found : Option FileHeader) (randomSalt1 salt2 : BitVec 32) :
    KeepsFiled (readyWith found randomSalt1 salt2) := by
  unfold readyWith
  have hend (fileHeader : FileHeader) : KeepsFiled (do
      let w ← get
      setConn { w.conn with
        activeHeader := fileHeader
        activeHandle := handleOf fileHeader.salt1
        activeOffset := fileHeaderSize
        txId := fileHeader.nextTxId - 1 }
      readAllTx w.store.frameFuel) :=
    .get fun _ hw => .bind (keepsConn_setConn hw) fun _ => takenUp_filed.readAllTx _
  split
  · exact .bind (.pure _) fun fileHeader => hend fileHeader
  · exact .bind (keepsFiled_writeFileHeader _ _) fun fileHeader => hend fileHeader

/-- **An opening** starts with nothing pending. -/
theorem keepsFiled_ready (randomSalt1 salt2 : BitVec 32) : KeepsFiled (ready randomSalt1 salt2) :=
  .get fun _ _ => keepsFiled_readyWith _ _ _

end MemoryWriteAhead.WriteAhead
