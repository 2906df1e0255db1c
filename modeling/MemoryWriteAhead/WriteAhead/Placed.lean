/-
  MemoryWriteAhead.WriteAhead.Placed
  ──────────────────────────────────
  **PAGES STAY IN THEIR PLACE.**

  A page of the view is read back from its log file.  A transaction in progress
  writes behind everything that was committed, and moves to the other file only
  where no page of the view is left in it.

    • `Placed` — every page of the view, and of the transaction in progress, lies
      whole in its file and in front of where the next frame is written,
    • `Beside` — what a transaction in progress leaves alone: the view and the bytes
      of its pages,
    • `write_aside`, `truncate_aside`, `rollback_aside` — the calls of a
      transaction, however they end.
-/
import MemoryWriteAhead.WriteAhead.Log
import MemoryWriteAhead.WriteAhead.TakeUp

namespace MemoryWriteAhead.WriteAhead

open ZeroFile Outcome

/-! ## §1. Places. -/

/-- The cells of the entry's page are in the file. -/
def PageEntry.Whole (st : Store) (e : PageEntry) : Prop :=
  e.waOffset + e.pageSize ≤ (st.wa (handleOf e.waSalt1)).cells.length

/-- A page of a transaction in progress. -/
structure PlacedPage (w : World) (tx : Transaction) (e : PageEntry) : Prop where
  salt : e.waSalt1 = w.conn.activeHeader.salt1
  behind : w.conn.activeOffset + frameHeaderSize ≤ e.waOffset
  ends : e.waOffset + e.pageSize ≤ tx.waOffsetEnd
  whole : e.Whole w.store

/-- A transaction in progress. -/
structure PlacedTx (w : World) (tx : Transaction) : Prop where
  salt : tx.waSalt1 = w.conn.activeHeader.salt1
  behind : w.conn.activeOffset ≤ tx.waOffsetEnd
  pages : ∀ offset e, tx.pages.lookup offset = some e → PlacedPage w tx e

/-- The page is one of the active file, in front of where the next frame is written,
or one of the file that was active before, whose header still stands. -/
def InGeneration (w : World) (e : PageEntry) : Prop :=
  e.waSalt1 = w.conn.activeHeader.salt1 ∧ e.waOffset + e.pageSize ≤ w.conn.activeOffset
    ∨ e.waSalt1 + 1 = w.conn.activeHeader.salt1
      ∧ ∃ h, readFileHeader (w.store.wa (!w.conn.activeHandle)) = some h ∧ h.salt1 = e.waSalt1

/-- **Every page is in its place.** -/
structure Placed (w : World) : Prop where
  parity : handleOf w.conn.activeHeader.salt1 = w.conn.activeHandle
  header : readFileHeader (w.store.wa w.conn.activeHandle) = some w.conn.activeHeader
  start : fileHeaderSize ≤ w.conn.activeOffset
  offset : w.conn.activeOffset ≤ (w.store.wa w.conn.activeHandle).cells.length
  whole : ∀ offset e, w.conn.waOverlay.lookup offset = some e → e.Whole w.store
  place : ∀ offset e, w.conn.waOverlay.lookup offset = some e → InGeneration w e
  tx : ∀ tx, w.conn.txInProgress = some tx → PlacedTx w tx

section

variable {w : World} {e : PageEntry}

theorem InGeneration.front (h : InGeneration w e)
    (hparity : handleOf w.conn.activeHeader.salt1 = w.conn.activeHandle)
    (hhere : handleOf e.waSalt1 = w.conn.activeHandle) :
    e.waSalt1 = w.conn.activeHeader.salt1 ∧ e.waOffset + e.pageSize ≤ w.conn.activeOffset := by
  refine h.resolve_right fun ⟨hsalt, _⟩ => ?_
  -- consecutive generations are in different files
  have hflip : handleOf (e.waSalt1 + 1) = !handleOf e.waSalt1 := handleOf_succ _
  rw [hsalt, hparity, hhere] at hflip
  exact Bool.not_ne_self _ hflip.symm

theorem Placed.front (h : Placed w) {offset : Nat} (he : w.conn.waOverlay.lookup offset = some e)
    (hhere : handleOf e.waSalt1 = w.conn.activeHandle) :
    e.waOffset + e.pageSize ≤ w.conn.activeOffset :=
  ((h.place offset e he).front h.parity hhere).2

/-- The other file is not begun anew while it has a page of the view. -/
theorem Placed.here (h : Placed w) (hunused : readFileHeader (w.store.wa (!w.conn.activeHandle))
      = none) {offset : Nat} (he : w.conn.waOverlay.lookup offset = some e) :
    e.waSalt1 = w.conn.activeHeader.salt1 := by
  rcases h.place offset e he with ⟨hsalt, _⟩ | ⟨_, header, hheader, _⟩
  · exact hsalt
  · exact absurd (hunused.symm.trans hheader) (Option.some_ne_none header).symm

end

/-- `w'` differs from `w` by a transaction in progress only. -/
structure Beside (w w' : World) : Prop where
  overlay : w'.conn.waOverlay = w.conn.waOverlay
  dbFileSize : w'.conn.dbFileSize = w.conn.dbFileSize
  txId : w'.conn.txId = w.conn.txId
  isolation : w'.conn.isolationState = w.conn.isolationState
  pending : w'.conn.mapIdToPendingTx = w.conn.mapIdToPendingTx
  mapIdToTx : w'.conn.mapIdToTx = w.conn.mapIdToTx
  db : w'.store.db = w.store.db
  pages : ∀ offset e, w.conn.waOverlay.lookup offset = some e →
    fetchPage w'.store e = fetchPage w.store e

theorem Beside.refl (w : World) : Beside w w :=
  ⟨rfl, rfl, rfl, rfl, rfl, rfl, rfl, fun _ _ _ => rfl⟩

theorem Beside.trans {u v w : World} (h : Beside u v) (h' : Beside v w) : Beside u w where
  overlay := h'.overlay.trans h.overlay
  dbFileSize := h'.dbFileSize.trans h.dbFileSize
  txId := h'.txId.trans h.txId
  isolation := h'.isolation.trans h.isolation
  pending := h'.pending.trans h.pending
  mapIdToTx := h'.mapIdToTx.trans h.mapIdToTx
  db := h'.db.trans h.db
  pages offset e he := (h'.pages offset e (h.overlay ▸ he)).trans (h.pages offset e he)

/-! ## §2. The files. -/

section

variable {st : Store} {handle : Bool} {cells : List Cell} {offset : Nat}

@[simp] theorem Store.setWa_self (st : Store) (handle : Bool) (cells : List Cell) :
    ((st.setWa handle cells).wa handle).cells = cells := by
  show (Function.update st.wa handle _ handle).cells = cells
  rw [Function.update_self]

theorem Store.setWa_other (st : Store) {handle other : Bool} (h : other ≠ handle)
    (cells : List Cell) : (st.setWa handle cells).wa other = st.wa other :=
  Function.update_of_ne h _ _

/-- A valid header takes the first 32 cells. -/
theorem readFileHeader_length {file : WaFile} (h : (readFileHeader file).isSome) :
    fileHeaderSize ≤ file.cells.length := by
  obtain ⟨header, hread⟩ := Option.isSome_iff_exists.mp h
  unfold readFileHeader at hread
  split at hread
  next found i rest hcells =>
    split at hread
    next heq =>
      have hlength : (readAt file.cells 0 fileHeaderSize).length = fileHeaderSize := by
        rw [hcells, heq]
        exact length_fileHeader_cells found
      rw [length_readAt] at hlength
      omega
    next => cases hread
  next => cases hread

/-- The header depends on the first 32 cells only. -/
theorem readFileHeader_congr {file file' : WaFile}
    (h : readAt file'.cells 0 fileHeaderSize = readAt file.cells 0 fileHeaderSize) :
    readFileHeader file' = readFileHeader file := by
  unfold readFileHeader
  rw [h]

/-- The part of a file in front of `front` has been left alone. -/
structure Ahead (st st' : Store) (handle : Bool) (front : Nat) : Prop where
  db : st'.db = st.db
  other : st'.wa (!handle) = st.wa (!handle)
  length : ∀ n, n ≤ front → n ≤ (st.wa handle).cells.length → n ≤ (st'.wa handle).cells.length
  cells : ∀ offset n, offset + n ≤ front → offset + n ≤ (st.wa handle).cells.length →
    readAt (st'.wa handle).cells offset n = readAt (st.wa handle).cells offset n

theorem Ahead.refl (st : Store) (handle : Bool) (front : Nat) : Ahead st st handle front :=
  ⟨rfl, rfl, fun _ _ h => h, fun _ _ _ _ => rfl⟩

/-- A write behind the front. -/
theorem Ahead.write {front : Nat} (h : front ≤ offset) :
    Ahead st (st.setWa handle (writeAt .zero (st.wa handle).cells offset cells)) handle front where
  db := rfl
  other := Store.setWa_other st (Bool.not_ne_self handle) _
  length n _ hlength := by
    rw [Store.setWa_self, length_writeAt]
    omega
  cells start n hfront hin := by
    rw [Store.setWa_self]
    exact readAt_writeAt_of_le hin (by omega)

/-- A truncate behind the front. -/
theorem Ahead.truncate {front size : Nat} (h : front ≤ size) :
    Ahead st (st.setWa handle (resize .zero (st.wa handle).cells size)) handle front where
  db := rfl
  other := Store.setWa_other st (Bool.not_ne_self handle) _
  length n hn _ := by
    rw [Store.setWa_self, length_resize]
    exact hn.trans h
  cells start n hfront hin := by
    rw [Store.setWa_self]
    exact readAt_resize_of_le hin (by omega)

/-- A whole page in front of the front, or in the other file, is read as before. -/
theorem Ahead.fetch {st' : Store} {front : Nat} {e : PageEntry} (h : Ahead st st' handle front)
    (hwhole : e.Whole st) (hfront : handleOf e.waSalt1 = handle → e.waOffset + e.pageSize ≤ front) :
    fetchPage st' e = fetchPage st e := by
  unfold fetchPage
  by_cases hsame : handleOf e.waSalt1 = handle
  · rw [hsame, h.cells _ _ (hfront hsame) (by unfold PageEntry.Whole at hwhole; rwa [hsame] at hwhole)]
  · have hother : handleOf e.waSalt1 = !handle := Bool.eq_not.mpr hsame
    rw [hother, h.other]

theorem Ahead.whole {st' : Store} {front : Nat} {e : PageEntry} (h : Ahead st st' handle front)
    (hwhole : e.Whole st)
    (hfront : handleOf e.waSalt1 = handle → e.waOffset + e.pageSize ≤ front) : e.Whole st' := by
  unfold PageEntry.Whole at hwhole ⊢
  by_cases hsame : handleOf e.waSalt1 = handle
  · rw [hsame] at hwhole ⊢
    exact h.length _ (hfront hsame) hwhole
  · have hother : handleOf e.waSalt1 = !handle := Bool.eq_not.mpr hsame
    rw [hother] at hwhole ⊢
    rwa [h.other]

theorem Ahead.header {st' : Store} {front : Nat} (h : Ahead st st' handle front)
    (hfront : fileHeaderSize ≤ front) {header : FileHeader}
    (hheader : readFileHeader (st.wa handle) = some header) :
    readFileHeader (st'.wa handle) = readFileHeader (st.wa handle) :=
  readFileHeader_congr (h.cells 0 _ (by omega) (by
    have hlength := readFileHeader_length (Option.isSome_of_eq_some hheader)
    omega))

theorem Ahead.mono {st' : Store} {front front' : Nat} (h : Ahead st st' handle front)
    (hle : front' ≤ front) : Ahead st st' handle front' :=
  ⟨h.db, h.other, fun n hn => h.length n (hn.trans hle),
    fun start n hstart => h.cells start n (hstart.trans hle)⟩

theorem Ahead.trans {st' st'' : Store} {front : Nat} (h : Ahead st st' handle front)
    (h' : Ahead st' st'' handle front) : Ahead st st'' handle front :=
  ⟨h'.db.trans h.db, h'.other.trans h.other,
    fun n hn hlength => h'.length n hn (h.length n hn hlength),
    fun start n hstart hin =>
      (h'.cells start n hstart (h.length _ hstart hin)).trans (h.cells start n hstart hin)⟩

end

/-! ## §3. One page. -/

section

variable {w w' : World} {tx tx' : Transaction}

/-- **Nothing behind the front is touched**: a step that changes the transaction in
progress and the files behind `activeOffset`. -/
theorem Placed.behind (h : Placed w) (w' : World) {inProgress : Option Transaction}
    (hconn : w'.conn = { w.conn with txInProgress := inProgress })
    (hstore : Ahead w.store w'.store w.conn.activeHandle w.conn.activeOffset)
    (htx : ∀ tx, inProgress = some tx → PlacedTx w' tx) : Placed w' ∧ Beside w w' := by
  obtain ⟨st, conn⟩ := w'
  obtain rfl : conn = { w.conn with txInProgress := inProgress } := hconn
  refine ⟨⟨h.parity, ?_, h.start, ?_, ?_, ?_, htx⟩, ?_⟩
  · exact (hstore.header h.start h.header).trans h.header
  · exact hstore.length _ (Nat.le_refl _) h.offset
  · intro offset e he
    exact hstore.whole (h.whole offset e he) (h.front he)
  · intro offset e he
    show _ ∨ _ ∧ ∃ header, readFileHeader (st.wa (!w.conn.activeHandle)) = some header ∧ _
    rw [hstore.other]
    exact h.place offset e he
  · exact ⟨rfl, rfl, rfl, rfl, rfl, rfl, hstore.db,
      fun offset e he => hstore.fetch (h.whole offset e he) (h.front he)⟩

/-- The entry of a page that is written next. -/
def nextEntry (w : World) (tx : Transaction) (pageOffset : Nat) (pageData : List UInt8) :
    PageEntry where
  waOffset := tx.waOffsetEnd + frameHeaderSize
  waSalt1 := w.conn.activeHeader.salt1
  pageSize := pageData.length
  pageData := if pageOffset = 0 then some pageData else none

/-- The transaction with the page. -/
def Transaction.withPage (tx : Transaction) (pageOffset : Nat) (e : PageEntry) : Transaction :=
  { tx with
    pages := tx.pages.insert pageOffset e
    waOffsetEnd := e.waOffset + e.pageSize }

/-- What `#writePage` leaves when it returns. -/
structure WrotePage (w : World) (tx : Transaction) (pageOffset : Nat) (pageData : List UInt8)
    (w' : World) : Prop where
  conn : w'.conn = { w.conn with
    txInProgress := some (tx.withPage pageOffset (nextEntry w tx pageOffset pageData)) }
  store : Ahead w.store w'.store w.conn.activeHandle tx.waOffsetEnd
  data : readAt (w'.store.wa w.conn.activeHandle).cells (tx.waOffsetEnd + frameHeaderSize)
    pageData.length = payloadCells pageData
  length : tx.waOffsetEnd + frameHeaderSize + pageData.length
    ≤ (w'.store.wa w.conn.activeHandle).cells.length

/-- `write` of a file writes all or throws. -/
theorem writeWa_yields (handle : Bool) (offset : Nat) (cells : List Cell) (w : World) :
    Yields (writeWa handle offset cells) w
      (fun _ w' => w' = { w with
        store := w.store.setWa handle (writeAt .zero (w.store.wa handle).cells offset cells) })
      (fun _ w' => w' = w) := by
  unfold writeWa
  rw [yields_get_bind]
  dsimp only
  split
  · rfl
  · rfl

theorem writeDb_yields (offset : Nat) (data : List UInt8) (w : World) :
    Yields (writeDb offset data) w
      (fun _ w' => w' = { w with store := { w.store with db := writeAt 0 w.store.db offset data } })
      (fun e w' => e = .capacityExceeded ∧ w' = w
        ∧ w.store.dbMaxCapacityBytes < offset + data.length) := by
  unfold writeDb
  rw [yields_get_bind]
  split
  next hfull => exact ⟨rfl, rfl, hfull⟩
  next => rfl

theorem truncateDb_yields (size : Nat) (w : World) :
    Yields (truncateDb size) w
      (fun _ w' => w' = { w with store := { w.store with db := resize 0 w.store.db size } })
      (fun e w' => e = .capacityExceeded ∧ w' = w ∧ w.store.dbMaxCapacityBytes < size) := by
  unfold truncateDb
  rw [yields_get_bind]
  split
  next hfull => exact ⟨rfl, rfl, hfull⟩
  next => rfl

/-- **One page**: written whole behind the transaction, or not counted. -/
theorem writePage_yields (w : World) (tx : Transaction) (pageOffset : Nat)
    (pageData : List UInt8) :
    Yields (writePage tx pageOffset pageData) w
      (fun tx' w' => tx' = tx.withPage pageOffset (nextEntry w tx pageOffset pageData)
        ∧ WrotePage w tx pageOffset pageData w')
      (fun _ w' => w'.conn = w.conn
        ∧ Ahead w.store w'.store w.conn.activeHandle tx.waOffsetEnd) := by
  unfold writePage
  rw [yields_get_bind]
  dsimp only
  split
  · exact ⟨rfl, .refl _ _ _⟩
  · refine (writeWa_yields _ _ _ w).seq ?_ ?_
    · rintro _ w₁ rfl
      exact ⟨rfl, .refl _ _ _⟩
    · rintro _ w₁ rfl
      refine (writeWa_yields _ _ _ _).seq ?_ ?_
      · rintro _ w₂ rfl
        exact ⟨rfl, .write (Nat.le_refl _)⟩
      · rintro _ w₂ rfl
        rw [yields_setConn_bind, yields_pure]
        refine ⟨rfl, rfl, ?_, ?_, ?_⟩
        · exact (Ahead.write (Nat.le_refl _)).trans (Ahead.write (Nat.le_add_right _ _))
        · show readAt ((Store.setWa _ _ _).wa w.conn.activeHandle).cells _ _ = _
          rw [Store.setWa_self]
          have hlength : (payloadCells pageData).length = pageData.length :=
            length_payloadCells pageData
          rw [← hlength]
          exact readAt_writeAt_self
        · show _ ≤ ((Store.setWa _ _ _).wa w.conn.activeHandle).cells.length
          rw [Store.setWa_self, length_writeAt, length_payloadCells]
          exact Nat.le_max_right _ _

/-- A transaction in progress stays in its place while cells behind it are written. -/
theorem PlacedTx.ahead (h : PlacedTx w tx) (hheader : w'.conn.activeHeader = w.conn.activeHeader)
    (hoffset : w'.conn.activeOffset = w.conn.activeOffset)
    (hstore : Ahead w.store w'.store w.conn.activeHandle tx.waOffsetEnd) : PlacedTx w' tx where
  salt := by
    rw [hheader]
    exact h.salt
  behind := by
    rw [hoffset]
    exact h.behind
  pages offset e he := by
    obtain ⟨hsalt, hbehind, hends, hwhole⟩ := h.pages offset e he
    refine ⟨hheader ▸ hsalt, hoffset ▸ hbehind, hends, hstore.whole hwhole fun _ => hends⟩

/-- The transaction with one page more. -/
theorem PlacedTx.withPage (h : Placed w) (htx : PlacedTx w tx) {pageOffset : Nat}
    {pageData : List UInt8} (hwrote : WrotePage w tx pageOffset pageData w') :
    PlacedTx w' (tx.withPage pageOffset (nextEntry w tx pageOffset pageData)) := by
  have hheader : w'.conn.activeHeader = w.conn.activeHeader := by rw [hwrote.conn]
  have hoffset : w'.conn.activeOffset = w.conn.activeOffset := by rw [hwrote.conn]
  have hstays := htx.ahead hheader hoffset hwrote.store
  have hends : tx.waOffsetEnd ≤ tx.waOffsetEnd + frameHeaderSize + pageData.length := by omega
  refine ⟨hstays.salt, hstays.behind.trans hends, fun offset e he => ?_⟩
  by_cases hpage : offset = pageOffset
  · subst hpage
    obtain rfl : nextEntry w tx offset pageData = e :=
      Option.some.inj ((AList.lookup_insert _).symm.trans he)
    refine ⟨hheader.symm ▸ rfl, ?_, Nat.le_refl _, ?_⟩
    · rw [hoffset]
      exact Nat.add_le_add_right htx.behind _
    · show _ ≤ (w'.store.wa (handleOf w.conn.activeHeader.salt1)).cells.length
      rw [h.parity]
      exact hwrote.length
  · have hold : tx.pages.lookup offset = some e := (AList.lookup_insert_ne hpage).symm.trans he
    obtain ⟨hsalt, hbehind, hin, hwhole⟩ := hstays.pages offset e hold
    exact ⟨hsalt, hbehind, hin.trans hends, hwhole⟩

/-- The state in which pages are written. -/
structure Writing (w₀ : World) (tx : Transaction) (w : World) : Prop where
  placed : Placed w
  beside : Beside w₀ w
  tx : w.conn.txInProgress = some tx

/-- **One page of a transaction**, however it ends. -/
theorem Writing.page {w₀ : World} (h : Writing w₀ tx w) (pageOffset : Nat)
    (pageData : List UInt8) :
    Yields (writePage tx pageOffset pageData) w (fun tx' w' => Writing w₀ tx' w')
      (fun _ w' => Writing w₀ tx w') := by
  have hin := h.placed.tx tx h.tx
  refine (writePage_yields w tx pageOffset pageData).mono ?_ ?_
  · rintro tx' w' ⟨rfl, hwrote⟩
    have hconn := hwrote.conn
    obtain ⟨hplaced, hbeside⟩ := h.placed.behind _ hconn (hwrote.store.mono hin.behind)
      fun tx' htx' => Option.some.inj htx' ▸ hin.withPage h.placed hwrote
    refine ⟨hplaced, h.beside.trans hbeside, ?_⟩
    rw [hconn]
  · rintro _ w' ⟨hconn, hstore⟩
    have hsame : w'.conn = { w.conn with txInProgress := some tx } := by
      rw [hconn, ← h.tx]
    obtain ⟨hplaced, hbeside⟩ := h.placed.behind _ hsame (hstore.mono hin.behind)
      fun tx' htx' => Option.some.inj htx' ▸ hin.ahead (by rw [hconn]) (by rw [hconn]) hstore
    refine ⟨hplaced, h.beside.trans hbeside, ?_⟩
    rw [hconn]
    exact h.tx

/-- Pages of a smaller size. -/
theorem Writing.slices {w₀ : World} (newPageSize : Nat) (fuel : Nat) (h : Writing w₀ tx w)
    (offset : Nat) (data : List UInt8) :
    Yields (writeSlices newPageSize fuel tx offset data) w (fun tx' w' => Writing w₀ tx' w')
      (fun _ w' => ∃ tx', Writing w₀ tx' w') := by
  induction fuel generalizing w tx offset data with
  | zero => exact h
  | succ fuel ih =>
      unfold writeSlices
      split
      · exact h
      · exact (h.page offset _).seq (fun _ _ herror => ⟨_, herror⟩) fun tx' w' hpage => ih hpage _ _

/-- Cells written to the active file. -/
def World.written (w : World) (offset : Nat) (cells : List Cell) : World :=
  let file := writeAt .zero (w.store.wa w.conn.activeHandle).cells offset cells
  { w with store := w.store.setWa w.conn.activeHandle file }

theorem World.written_ahead {front offset : Nat} (hbehind : front ≤ offset) (cells : List Cell) :
    Ahead w.store (w.written offset cells).store w.conn.activeHandle front := .write hbehind

/-- Raw bytes of a larger page, behind the header of its frame. -/
theorem Writing.raw {w₀ : World} (h : Writing w₀ tx w) {offset : Nat}
    (hbehind : w.conn.activeOffset ≤ offset) (cells : List Cell) :
    Yields (writeWa w.conn.activeHandle offset cells) w (fun _ w' => Writing w₀ tx w')
      (fun _ w' => Writing w₀ tx w') := by
  have hin := h.placed.tx tx h.tx
  refine (writeWa_yields _ offset cells w).mono ?_ ?_
  · rintro _ w' rfl
    have hsame : (w.written offset cells).conn = { w.conn with txInProgress := some tx } := by
      show w.conn = _
      rw [← h.tx]
    have hplacedTx : PlacedTx (w.written offset cells) tx := by
      refine ⟨hin.salt, hin.behind, fun o e he => ?_⟩
      obtain ⟨hsalt, hfront, hends, hwhole⟩ := hin.pages o e he
      refine ⟨hsalt, hfront, hends, ?_⟩
      have hhandle : handleOf e.waSalt1 = w.conn.activeHandle := by rw [hsalt, h.placed.parity]
      unfold PageEntry.Whole World.written at *
      rw [hhandle] at hwhole ⊢
      rw [Store.setWa_self, length_writeAt]
      exact hwhole.trans (Nat.le_max_left _ _)
    obtain ⟨hplaced, hbeside⟩ := h.placed.behind _ hsame (w.written_ahead hbehind cells)
      fun tx' htx' => Option.some.inj htx' ▸ hplacedTx
    exact ⟨hplaced, h.beside.trans hbeside, h.tx⟩
  · rintro _ w' rfl
    exact h

theorem resizedOffset_behind (activeOffset newPageSize offset : Nat) :
    activeOffset ≤ resizedOffset activeOffset newPageSize offset := by
  unfold resizedOffset
  dsimp only
  omega

end

/-! ## §4. The other file. -/

section

variable {w : World}

/-- A file that is taken for empty has no header. -/
theorem no_header_of_empty (h : w.isInactiveFileEmpty = true) :
    readFileHeader (w.store.wa (!w.conn.activeHandle)) = none := by
  unfold World.isInactiveFileEmpty at h
  split at h
  · cases h
  · dsimp only at h
    split at h
    next hshort =>
      by_contra hsome
      have hlength := readFileHeader_length (Option.isSome_iff_ne_none.mpr hsome)
      omega
    · exact Option.isNone_iff_eq_none.mp h

/-- The other file is begun with a header. -/
def World.begun (w : World) (header : FileHeader) : World where
  store :=
    let file := writeAt .zero (w.store.wa (handleOf header.salt1)).cells 0 header.cells
    w.store.setWa (handleOf header.salt1) file
  conn := { w.conn with
    activeHeader := header
    activeHandle := !w.conn.activeHandle
    activeOffset := fileHeaderSize }

/-- All pages of the view are in the file that is left. -/
theorem begun_placed (h : Placed w) (hnone : w.conn.txInProgress = none)
    (hhere : ∀ offset e, w.conn.waOverlay.lookup offset = some e →
      e.waSalt1 = w.conn.activeHeader.salt1)
    {header : FileHeader} (hnext : header.salt1 = w.conn.activeHeader.salt1 + 1) :
    Placed (w.begun header) ∧ Beside w (w.begun header) := by
  have hother : handleOf header.salt1 = !w.conn.activeHandle := by
    rw [hnext, handleOf_succ, h.parity]
  have hthere : ∀ offset e, w.conn.waOverlay.lookup offset = some e →
      handleOf e.waSalt1 = w.conn.activeHandle := by
    intro offset e he
    rw [hhere offset e he, h.parity]
  have hleft : (w.begun header).store.wa w.conn.activeHandle = w.store.wa w.conn.activeHandle := by
    refine Store.setWa_other _ ?_ _
    rw [hother]
    exact (Bool.not_ne_self _).symm
  have hnew : ((w.begun header).store.wa (!w.conn.activeHandle)).cells
      = writeAt .zero (w.store.wa (!w.conn.activeHandle)).cells 0 header.cells := by
    rw [← hother]
    exact Store.setWa_self _ _ _
  refine ⟨⟨hother, ?_, Nat.le_refl _, ?_, ?_, ?_, ?_⟩, ?_⟩
  · show readFileHeader ((w.begun header).store.wa (!w.conn.activeHandle)) = some header
    refine readFileHeader_of_prefix ?_
    rw [hnew]
    exact append_prefix_writeAt (List.nil_prefix) rfl
  · show fileHeaderSize ≤ ((w.begun header).store.wa (!w.conn.activeHandle)).cells.length
    rw [hnew, length_writeAt, length_fileHeader_cells]
    exact (Nat.le_add_left _ _).trans (Nat.le_max_right _ _)
  · intro offset e he
    have hwhole := h.whole offset e he
    unfold PageEntry.Whole at hwhole ⊢
    rw [hthere offset e he] at hwhole ⊢
    rwa [hleft]
  · intro offset e he
    refine .inr ⟨?_, w.conn.activeHeader, ?_, (hhere offset e he).symm⟩
    · show e.waSalt1 + 1 = header.salt1
      rw [hhere offset e he, hnext]
    · show readFileHeader ((w.begun header).store.wa (!!w.conn.activeHandle)) = _
      rw [Bool.not_not, hleft]
      exact h.header
  · intro tx htx
    exact absurd (hnone.symm.trans htx) (Option.some_ne_none tx).symm
  · refine ⟨rfl, rfl, rfl, rfl, rfl, rfl, rfl, fun offset e he => ?_⟩
    unfold fetchPage
    rw [hthere offset e he, hleft]

/-- **The swap**: the view is in the file that is left. -/
theorem swapActiveFile_yields (h : Placed w) (hnone : w.conn.txInProgress = none)
    (hempty : w.isInactiveFileEmpty = true) (salt2 : BitVec 32) :
    Yields (swapActiveFile salt2) w
      (fun _ w' => Placed w' ∧ Beside w w' ∧ w'.conn.txInProgress = none)
      (fun _ w' => Placed w' ∧ Beside w w' ∧ w'.conn.txInProgress = none) := by
  have hunused := no_header_of_empty hempty
  have hhere : ∀ offset e, w.conn.waOverlay.lookup offset = some e →
      e.waSalt1 = w.conn.activeHeader.salt1 := fun offset e he => h.here hunused he
  unfold swapActiveFile
  rw [yields_get_bind]
  refine (writeWa_yields _ _ _ w).seq ?_ ?_
  · rintro _ w₁ rfl
    exact ⟨h, .refl _, hnone⟩
  · rintro _ w₁ rfl
    -- the end frame lies behind everything that is committed
    have hstore := w.written_ahead (Nat.le_refl w.conn.activeOffset)
      (frameHeader .end false 0 0 w.conn.activeHeader []).cells
    have hsame : (w.written w.conn.activeOffset
        (frameHeader .end false 0 0 w.conn.activeHeader []).cells).conn
        = { w.conn with txInProgress := none } := by
      show w.conn = _
      rw [← hnone]
    obtain ⟨hplaced, hbeside⟩ := h.behind _ hsame hstore
      fun tx htx => absurd htx (Option.some_ne_none tx).symm
    show Yields (writeFileHeader w.conn.activeHeader.salt1 salt2 >>= _) (w.written _ _) _ _
    generalize w.written _ _ = w₁ at hsame hplaced hbeside hstore ⊢
    have hconn : w₁.conn = w.conn := by
      rw [hsame]
      exact congrArg (fun inProgress => { w.conn with txInProgress := inProgress }) hnone.symm
    unfold writeFileHeader
    rw [yields_bind_assoc, yields_get_bind, yields_bind_assoc]
    refine (writeWa_yields _ _ _ w₁).seq ?_ ?_
    · rintro _ w₂ rfl
      exact ⟨hplaced, hbeside, by rw [hconn]; exact hnone⟩
    · rintro _ w₂ rfl
      rw [yields_pure_bind]
      have hnone₁ : w₁.conn.txInProgress = none := by
        rw [hconn]
        exact hnone
      have hhere₁ : ∀ offset e, w₁.conn.waOverlay.lookup offset = some e →
          e.waSalt1 = w₁.conn.activeHeader.salt1 := by
        rw [hconn]
        exact hhere
      obtain ⟨hplaced₂, hbeside₂⟩ := begun_placed hplaced hnone₁ hhere₁
        (show (⟨w₁.conn.txId + 1, w₁.conn.activeHeader.salt1 + 1, salt2⟩ : FileHeader).salt1 = _
          from rfl)
      rw [← hconn]
      exact ⟨hplaced₂, hbeside.trans hbeside₂, hnone₁⟩

end

/-! ## §5. The calls of a transaction. -/

section

variable {w w' : World}

/-- The pages are in their place and the view is that of `w`. -/
structure Aside (w w' : World) : Prop where
  placed : Placed w'
  beside : Beside w w'

theorem Aside.trans {w'' : World} (h : Aside w w') (h' : Aside w' w'') : Aside w w'' :=
  ⟨h'.placed, h.beside.trans h'.beside⟩

theorem Writing.aside {tx : Transaction} (h : Writing w tx w') : Aside w w' := ⟨h.placed, h.beside⟩

/-- The transaction is begun behind everything that is committed. -/
theorem begin_writing (h : Placed w) (newPageSize : Option Nat) :
    Writing w (w.conn.beginTx newPageSize)
      { w with conn := { w.conn with txInProgress := some (w.conn.beginTx newPageSize) } } := by
  have hempty : PlacedTx { w with conn := { w.conn with
      txInProgress := some (w.conn.beginTx newPageSize) } } (w.conn.beginTx newPageSize) := by
    refine ⟨rfl, Nat.le_refl _, fun offset e he => ?_⟩
    have hnone : (∅ : JsMap PageEntry).lookup offset = none := AList.lookup_empty offset
    exact absurd (hnone.symm.trans he) (Option.some_ne_none e).symm
  obtain ⟨hplaced, hbeside⟩ := h.behind { w with conn := { w.conn with
      txInProgress := some (w.conn.beginTx newPageSize) } } rfl (.refl _ _ _)
    fun tx htx => Option.some.inj htx ▸ hempty
  exact ⟨hplaced, hbeside, rfl⟩

/-- Which transaction a write belongs to. -/
def EnsuredTx (w : World) (data : List UInt8) (dstPageSize : Option Nat) (tx : Transaction)
    (w' : World) : Prop :=
  w.conn.txInProgress = some tx ∧ w' = w
    ∨ w.conn.txInProgress = none ∧ tx.pages = ∅
      ∧ tx.newPageSize = if dstPageSize ≠ some data.length then dstPageSize else none

/-- **The transaction of a write**: the one in progress, or one that is begun, perhaps
in the other file. -/
theorem ensureTx_yields (h : Placed w) (salt2 : BitVec 32) (data : List UInt8)
    (dstPageSize : Option Nat) :
    Yields (ensureTx salt2 data dstPageSize) w
      (fun tx w' => Writing w tx w' ∧ EnsuredTx w data dstPageSize tx w')
      (fun _ w' => Aside w w') := by
  have hbegin {w₁ : World} (hplaced : Placed w₁) (hbeside : Beside w w₁)
      (hnone : w.conn.txInProgress = none) :
      Yields (do
        let w ← get
        let tx := w.conn.beginTx (if dstPageSize ≠ some data.length then dstPageSize else none)
        setConn { w.conn with txInProgress := some tx }
        pure tx) w₁
        (fun tx w' => Writing w tx w' ∧ EnsuredTx w data dstPageSize tx w')
        (fun _ w' => Aside w w') := by
    rw [yields_get_bind]
    dsimp only
    rw [yields_setConn_bind, yields_pure]
    have hbegun := begin_writing hplaced
      (if dstPageSize ≠ some data.length then dstPageSize else none)
    exact ⟨⟨hbegun.placed, hbeside.trans hbegun.beside, hbegun.tx⟩, .inr ⟨hnone, rfl, rfl⟩⟩
  unfold ensureTx
  rw [yields_get_bind]
  cases htx : w.conn.txInProgress with
  | some tx => exact ⟨⟨h, .refl w, htx⟩, .inl ⟨htx, rfl⟩⟩
  | none =>
      dsimp only
      by_cases hswap : w.conn.nPageThreshold ≤ w.conn.approxPageCount
          ∧ w.isInactiveFileEmpty = true
      · rw [if_pos hswap]
        refine (swapActiveFile_yields h htx hswap.2 salt2).seq ?_ ?_
        · rintro _ w₁ ⟨hplaced, hbeside, _⟩
          exact ⟨hplaced, hbeside⟩
        · rintro _ w₁ ⟨hplaced, hbeside, _⟩
          exact hbegin hplaced hbeside htx
      · rw [if_neg hswap]
        exact hbegin h (.refl w) htx

/-- **A write** leaves the view and the places of its pages, however it ends. -/
theorem write_aside (h : Placed w) (salt2 : BitVec 32) (offset : Nat) (data : List UInt8)
    (dstPageSize : Option Nat) :
    Yields (write salt2 offset data dstPageSize) w (fun _ w' => Aside w w')
      (fun _ w' => Aside w w') := by
  have hsame : Aside w w := ⟨h, .refl w⟩
  unfold write
  rw [yields_get_bind]
  split
  · exact hsame
  · refine (ensureTx_yields h salt2 data dstPageSize).seq (fun _ _ herror => herror) ?_
    rintro tx w₁ ⟨hwriting, _⟩
    split
    next newPageSize _ =>
      split
      · refine (hwriting.slices newPageSize data.length offset data).seq ?_ ?_
        · rintro _ w₂ ⟨tx', hwriting'⟩
          exact hwriting'.aside
        · exact fun tx' w₂ hwriting' => hwriting'.aside
      · rw [yields_get_bind]
        exact (hwriting.raw (resizedOffset_behind _ _ _) _).mono
          (fun _ _ hwriting' => hwriting'.aside) fun _ _ hwriting' => hwriting'.aside
    · refine (hwriting.page offset data).seq ?_ ?_
      · exact fun _ w₂ hwriting' => hwriting'.aside
      · exact fun tx' w₂ hwriting' => hwriting'.aside

/-- Cutting pages off leaves the others. -/
theorem lookup_cut (newSize : Nat) (offsets : List Nat) (pages : JsMap PageEntry) {offset : Nat}
    {e : PageEntry}
    (h : (offsets.foldl (fun pages offset => if newSize ≤ offset then pages.erase offset else pages)
      pages).lookup offset = some e) : pages.lookup offset = some e := by
  induction offsets generalizing pages with
  | nil => exact h
  | cons first offsets ih =>
      have hnext := ih _ h
      simp only at hnext
      split at hnext
      · by_cases hoffset : offset = first
        · rw [hoffset, AList.lookup_erase] at hnext
          cases hnext
        · rwa [AList.lookup_erase_ne hoffset] at hnext
      · exact hnext

/-- The transaction without the pages from `newSize` on. -/
def Transaction.cut (newSize : Nat) (tx : Transaction) : Transaction :=
  let pages := tx.pages.keys.foldl
    (fun pages offset => if newSize ≤ offset then pages.erase offset else pages) tx.pages
  { tx with pages := pages }

theorem truncate_aside (h : Placed w) (newSize : Nat) :
    Yields (truncate newSize) w (fun _ w' => Aside w w') (fun _ w' => Aside w w') := by
  unfold truncate
  rw [yields_get_bind]
  cases htx : w.conn.txInProgress with
  | none => exact ⟨h, .refl w⟩
  | some tx =>
      have hin := h.tx tx htx
      have hcut : PlacedTx { w with conn := { w.conn with txInProgress := some (tx.cut newSize) } }
          (tx.cut newSize) := by
        refine ⟨hin.salt, hin.behind, fun offset e he => ?_⟩
        obtain ⟨hsalt, hbehind, hends, hwhole⟩ :=
          hin.pages offset e (lookup_cut newSize _ tx.pages he)
        exact ⟨hsalt, hbehind, hends, hwhole⟩
      obtain ⟨hplaced, hbeside⟩ := h.behind { w with conn := { w.conn with
          txInProgress := some (tx.cut newSize) } } rfl (.refl _ _ _)
        fun tx' htx' => Option.some.inj htx' ▸ hcut
      exact ⟨hplaced, hbeside⟩

/-- **A rollback** leaves the view, and no transaction. -/
theorem rollback_aside (h : Placed w) :
    ∃ w', rollback w = .ok ⟨⟩ w' ∧ Aside w w' ∧ w'.conn.txInProgress = none := by
  refine ⟨_, rfl, ?_, rfl⟩
  obtain ⟨hplaced, hbeside⟩ := h.behind {
      store := w.store.setWa w.conn.activeHandle
        (resize .zero (w.store.wa w.conn.activeHandle).cells w.conn.activeOffset)
      conn := { w.conn with txInProgress := none } } rfl (.truncate (Nat.le_refl _))
    fun tx htx => absurd htx (Option.some_ne_none tx).symm
  exact ⟨hplaced, hbeside⟩

end

end MemoryWriteAhead.WriteAhead
