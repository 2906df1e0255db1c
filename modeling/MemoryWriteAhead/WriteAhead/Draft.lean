/-
  MemoryWriteAhead.WriteAhead.Draft
  ─────────────────────────────────
  **THE TRANSACTION IN PROGRESS BEHIND THE LOG.**

  A writer stands behind the whole log, and its transaction in progress is a row of
  page frames there.  Whatever a call of the writer does before it ends or throws,
  the files hold the log; only the commit frame makes the log longer.

    • `Extends` — a log with more transactions, or cut at another place; every
      view stays a view,
    • `Writer` — a writer and its draft,
    • `writePage_spec` — a frame more in the draft, or bytes that do not count.
-/
import MemoryWriteAhead.WriteAhead.Forget
import MemoryWriteAhead.WriteAhead.Placed

namespace MemoryWriteAhead.WriteAhead

open ZeroFile Outcome

/-! ## §1. Longer logs. -/

/-- Every place and every transaction of `wal` is one of `wal'`. -/
structure Extends (wal wal' : Wal) : Prop where
  past : wal'.past = wal.past
  log : wal.log <+: wal'.log
  places : ∀ c g k, At wal c g k → ∃ g' k', At wal' c g' k'
  holds : ∀ tx, wal.Holds tx → wal'.Holds tx
  /-- the same files, or another one where there was only one -/
  files : wal'.prev = wal.prev ∧ wal'.head.header = wal.head.header
    ∨ wal.prev = none ∧ wal.log.length < wal'.head.header.nextTxId

theorem Extends.refl (wal : Wal) : Extends wal wal :=
  ⟨rfl, List.prefix_refl _, fun _ g k h => ⟨g, k, h⟩, fun _ h => h, .inl ⟨rfl, rfl⟩⟩

/-- The log stays in its file while the other one is in use. -/
theorem Extends.file {wal wal' : Wal} (h : Extends wal wal') (hprev : wal.prev ≠ none) :
    wal'.prev = wal.prev ∧ wal'.head.header = wal.head.header :=
  h.files.resolve_right fun hnext => hprev hnext.1

theorem Wal.sizeAt_prefix {wal wal' : Wal} (h : wal.log <+: wal'.log) {id : Nat}
    (hid : id ≤ wal.log.length) : wal'.sizeAt id = wal.sizeAt id := by
  cases id with
  | zero => rfl
  | succ id =>
      show (wal'.log[id]?).elim 0 _ = (wal.log[id]?).elim 0 _
      rw [isPrefix_iff_getElem?.mp h id hid]

/-- **A view stays a view of the longer log.** -/
theorem View.extend {wal wal' : Wal} {m : Nat} {c : Conn} (hwf : wal.Wf) (hext : Extends wal wal')
    (h : View wal m c) : View wal' m c := by
  obtain ⟨g, k, hat⟩ := h.place
  refine ⟨hext.places c g k hat, hext.past ▸ h.low, h.le, h.dom, fun id tx htx => ?_, h.overlay,
    ?_, h.ordered, fun id tx htx => ?_⟩
  · obtain ⟨hid, hholds⟩ := h.holds id tx htx
    exact ⟨hid, hext.holds tx hholds⟩
  · -- the size is that of the last transaction seen, where the logs agree
    rw [Wal.sizeAt_prefix hext.log (hat.txId_le hwf)]
    exact h.size
  · obtain ⟨hid, hlt, hholds⟩ := h.pending id tx htx
    exact ⟨hid, hlt, hext.holds tx hholds⟩

section Append

variable {wal : Wal} {t : TxImage}

/-- The log with one more transaction. -/
def Wal.append (wal : Wal) (t : TxImage) : Wal := { wal with head := wal.head.append t }

theorem Wal.log_append (wal : Wal) (t : TxImage) : (wal.append t).log = wal.log ++ [t] := by
  unfold Wal.log Wal.gens Wal.append Generation.append
  simp only [List.flatMap_append, List.flatMap_singleton, List.append_assoc]

theorem Described.append {j : Nat} {t' : TxImage} {tx : Transaction}
    (h : Described wal.head j t' tx) (t : TxImage) : Described (wal.head.append t) j t' tx := by
  have hlt : j < wal.head.txs.length := (List.getElem?_eq_some_iff.mp h.image).1
  refine ⟨?_, h.id, h.salt, ?_, h.size, h.flags, ?_, h.complete⟩
  · show (wal.head.txs ++ [t])[j]? = some t'
    rw [List.getElem?_append_left hlt]
    exact h.image
  · rw [Generation.offsetOf_append t hlt]
    exact h.endOffset
  · rw [Generation.offsetOf_append t (Nat.le_of_lt hlt)]
    exact h.pages

theorem Wal.Wf.append (hwf : wal.Wf) (ht : t.Wf) : (wal.append t).Wf := by
  refine ⟨fun g hg t' ht' => ?_, hwf.prev_id, hwf.prev_salt, hwf.head_id⟩
  rcases mem_gens.mp hg with hprev | rfl
  · exact hwf.txs g (mem_gens.mpr (.inl hprev)) t' ht'
  · rcases List.mem_append.mp ht' with hold | hnew
    · exact hwf.txs wal.head (head_mem_gens wal) t' hold
    · rw [List.mem_singleton.mp hnew]
      exact ht

theorem Extends.append (wal : Wal) (t : TxImage) : Extends wal (wal.append t) where
  past := rfl
  log := by
    rw [Wal.log_append]
    exact List.prefix_append _ _
  places c g k hat := by
    rcases mem_gens.mp hat.mem with hprev | rfl
    · exact ⟨g, k, mem_gens.mpr (.inl hprev), hat.le, hat.header, hat.handle, hat.offset, hat.txId⟩
    · -- a place in the head stays, though the end is further on now
      refine ⟨wal.head.append t, k, head_mem_gens (wal.append t), ?_, hat.header, hat.handle, ?_,
        hat.txId⟩
      · show k ≤ (wal.head.txs ++ [t]).length
        have hle := hat.le
        rw [List.length_append]
        omega
      · rw [Generation.offsetOf_append t hat.le]
        exact hat.offset
  holds tx := by
    rintro ⟨g, hg, j, t', htx⟩
    rcases mem_gens.mp hg with hprev | rfl
    · exact ⟨g, mem_gens.mpr (.inl hprev), j, t', htx⟩
    · exact ⟨wal.head.append t, head_mem_gens (wal.append t), j, t', htx.append t⟩
  files := .inl ⟨rfl, rfl⟩

end Append

section Swap

variable {wal : Wal} {header : FileHeader}

/-- The log continued in the other file. -/
def Wal.swapped (wal : Wal) (header : FileHeader) : Wal where
  past := wal.past
  prev := some wal.head
  head := ⟨header, []⟩

theorem Wal.log_swapped (hprev : wal.prev = none) (header : FileHeader) :
    (wal.swapped header).log = wal.log := by
  unfold Wal.log Wal.gens Wal.swapped
  rw [hprev]
  show wal.past ++ ([wal.head] ++ [(⟨header, []⟩ : Generation)]).flatMap Generation.txs
    = wal.past ++ [wal.head].flatMap Generation.txs
  rw [List.flatMap_append, List.flatMap_singleton, List.flatMap_singleton, List.append_nil]

theorem Wal.Wf.swapped (hwf : wal.Wf) (hprev : wal.prev = none)
    (hid : header.nextTxId = wal.log.length + 1)
    (hsalt : header.salt1 = wal.head.header.salt1 + 1) : (wal.swapped header).Wf := by
  have hlength := hwf.log_length
  have hfirst := hwf.head_id hprev
  refine ⟨fun g hg t ht => ?_, fun g hg => ?_, fun g hg => ?_, fun hnone => ?_⟩
  · rcases mem_gens.mp hg with hold | rfl
    · obtain rfl := Option.some.inj hold
      exact hwf.txs wal.head (head_mem_gens wal) t ht
    · exact absurd ht List.not_mem_nil
  · obtain rfl := Option.some.inj hg
    refine ⟨hfirst, ?_⟩
    show header.nextTxId = wal.past.length + wal.head.txs.length + 1
    omega
  · obtain rfl := Option.some.inj hg
    exact hsalt
  · exact absurd hnone (Option.some_ne_none _)

theorem Extends.swapped (hprev : wal.prev = none) (header : FileHeader)
    (hid : header.nextTxId = wal.log.length + 1) : Extends wal (wal.swapped header) where
  past := rfl
  log := by
    rw [Wal.log_swapped hprev]
  places c g k hat := by
    -- there is only one file to stand in
    have hhead : g = wal.head := (mem_gens.mp hat.mem).resolve_left (by
      rw [hprev]
      exact (Option.some_ne_none g).symm)
    subst hhead
    exact ⟨wal.head, k, mem_gens.mpr (.inl rfl), hat.le, hat.header, hat.handle, hat.offset,
      hat.txId⟩
  holds tx := by
    rintro ⟨g, hg, j, t, htx⟩
    have hhead : g = wal.head := (mem_gens.mp hg).resolve_left (by
      rw [hprev]
      exact (Option.some_ne_none g).symm)
    subst hhead
    exact ⟨wal.head, mem_gens.mpr (.inl rfl), j, t, htx⟩
  files := .inr ⟨hprev, by show _ < header.nextTxId; omega⟩

end Swap

/-! ## §2. Writes behind the log. -/

/-- The file of a head is written behind the log, without a commit frame. -/
theorem OnDisk.tail_write {wal : Wal} {st : Store} (hdisk : OnDisk wal st) (hwf : wal.Wf)
    {offset : Nat} {cells : List Cell} (hbehind : wal.head.cells.length ≤ offset)
    (hquiet : ∀ cell ∈ cells, ¬cell.isCommit) :
    OnDisk wal (st.setWa (handleOf wal.head.header.salt1)
      (writeAt .zero (st.wa (handleOf wal.head.header.salt1)).cells offset cells)) where
  head := by
    rw [Store.setWa_self]
    exact prefix_writeAt hdisk.head hbehind
  tail cell hcell := by
    rw [Store.setWa_self] at hcell
    rcases mem_drop_writeAt hcell with hold | hnew | rfl
    · exact hdisk.tail cell hold
    · exact hquiet cell hnew
    · exact fun h => h
  prev g hg := by
    rw [Store.setWa_other _ (by rw [hwf.prev_handle hg]; exact Bool.not_ne_self _)]
    exact hdisk.prev g hg
  gone hnone := by
    rw [Store.setWa_other _ (Bool.not_ne_self _)]
    exact hdisk.gone hnone

/-- The file of a head is cut behind the log. -/
theorem OnDisk.tail_truncate {wal : Wal} {st : Store} (hdisk : OnDisk wal st) (hwf : wal.Wf)
    {size : Nat} (hbehind : wal.head.cells.length ≤ size) :
    OnDisk wal (st.setWa (handleOf wal.head.header.salt1)
      (resize .zero (st.wa (handleOf wal.head.header.salt1)).cells size)) where
  head := by
    rw [Store.setWa_self]
    exact prefix_resize hdisk.head hbehind
  tail cell hcell := by
    rw [Store.setWa_self] at hcell
    rcases mem_drop_resize hcell with hold | rfl
    · exact hdisk.tail cell hold
    · exact fun h => h
  prev g hg := by
    rw [Store.setWa_other _ (by rw [hwf.prev_handle hg]; exact Bool.not_ne_self _)]
    exact hdisk.prev g hg
  gone hnone := by
    rw [Store.setWa_other _ (Bool.not_ne_self _)]
    exact hdisk.gone hnone

/-- The database file is not part of the log. -/
theorem OnDisk.congr {wal : Wal} {st st' : Store} (hdisk : OnDisk wal st) (hwa : st'.wa = st.wa) :
    OnDisk wal st' := by
  refine ⟨?_, ?_, ?_, ?_⟩
  · rw [hwa]
    exact hdisk.head
  · rw [hwa]
    exact hdisk.tail
  · rw [hwa]
    exact hdisk.prev
  · rw [hwa]
    exact hdisk.gone

theorem frameHeader_quiet (frameType : FrameType) (htype : frameType ≠ .commit) (flags : Bool)
    (size info : Nat) (file : FileHeader) (payload : List UInt8) :
    ∀ cell ∈ (frameHeader frameType flags size info file payload).cells, ¬cell.isCommit := by
  intro cell hcell
  obtain ⟨i, -, rfl⟩ := List.mem_map.mp hcell
  exact htype

theorem payload_quiet (data : List UInt8) : ∀ cell ∈ payloadCells data, ¬cell.isCommit := by
  intro cell hcell
  obtain ⟨b, -, rfl⟩ := List.mem_map.mp hcell
  exact fun h => h

/-! ## §3. The draft. -/

/-- The transaction in progress: its frames stand behind the log. -/
structure Drafted (wal : Wal) (w : World) (tx : Transaction) (fs : List PageFrame) : Prop where
  cells : wal.head.cells ++ framesCells wal.head.header fs
    <+: (w.store.wa (handleOf wal.head.header.salt1)).cells
  id : tx.id = w.conn.txId + 1
  salt : tx.waSalt1 = wal.head.header.salt1
  offset : tx.waOffsetEnd = wal.head.cells.length + (framesCells wal.head.header fs).length
  wf : ∀ f ∈ fs, PageFrame.Wf f
  pages : PagesOf wal.head.header wal.head.cells.length fs tx.pages
  target : ∀ n, tx.newPageSize = some n → n ≤ 65536

/-- A writer: behind the whole log, perhaps with a draft. -/
structure Writer (wal : Wal) (m : Nat) (w : World) : Prop where
  wf : wal.Wf
  disk : OnDisk wal w.store
  view : View wal m w.conn
  atEnd : AtEnd wal w.conn
  draft : ∀ tx, w.conn.txInProgress = some tx → ∃ fs, Drafted wal w tx fs

/-- What the calls of a writer leave alone. -/
structure Held (w w' : World) : Prop where
  isolation : w'.conn.isolationState = w.conn.isolationState
  limit : w'.conn.journalSizeLimit = w.conn.journalSizeLimit
  db : w'.store.db = w.store.db

theorem Held.refl (w : World) : Held w w := ⟨rfl, rfl, rfl⟩

theorem Held.trans {w₁ w₂ w₃ : World} (h : Held w₁ w₂) (h' : Held w₂ w₃) : Held w₁ w₃ :=
  ⟨h'.isolation.trans h.isolation, h'.limit.trans h.limit, h'.db.trans h.db⟩

/-- The writer `w'` has come from `w` and has the draft `tx`. -/
structure Drafting (wal : Wal) (m : Nat) (w : World) (tx : Transaction) (fs : List PageFrame)
    (w' : World) : Prop where
  writer : Writer wal m w'
  current : w'.conn.txInProgress = some tx
  drafted : Drafted wal w' tx fs
  held : Held w w'

section

variable {wal : Wal} {m : Nat} {w w' : World} {tx : Transaction} {fs : List PageFrame}

theorem Writer.handle (h : Writer wal m w) :
    w.conn.activeHandle = handleOf wal.head.header.salt1 := At.handle h.atEnd

theorem Writer.header (h : Writer wal m w) : w.conn.activeHeader = wal.head.header :=
  At.header h.atEnd

theorem Writer.offset (h : Writer wal m w) : w.conn.activeOffset = wal.head.cells.length := by
  rw [At.offset h.atEnd]
  unfold Generation.offsetOf
  rw [Generation.before_length]

theorem View.congr {c c' : Conn} (h : View wal m c) (hheader : c'.activeHeader = c.activeHeader)
    (hhandle : c'.activeHandle = c.activeHandle) (hoffset : c'.activeOffset = c.activeOffset)
    (htxId : c'.txId = c.txId) (hmap : c'.mapIdToTx = c.mapIdToTx)
    (hoverlay : c'.waOverlay = c.waOverlay) (hsize : c'.dbFileSize = c.dbFileSize)
    (hpending : c'.mapIdToPendingTx = c.mapIdToPendingTx) : View wal m c' := by
  obtain ⟨g, k, hat⟩ := h.place
  have hpage : c'.pageOf = c.pageOf := by
    unfold Conn.pageOf
    rw [hmap]
  refine ⟨⟨g, k, hat.congr hheader hhandle hoffset htxId⟩, h.low, ?_, ?_, ?_, ?_, ?_, ?_, ?_⟩
  · rw [htxId]
    exact h.le
  · rw [hmap, htxId]
    exact h.dom
  · rw [hmap]
    exact h.holds
  · rw [hoverlay, hpage, htxId]
    exact h.overlay
  · rw [hsize, htxId]
    exact h.size
  · rw [hmap]
    exact h.ordered
  · rw [hpending, htxId]
    exact h.pending

/-- The world with another draft and other bytes behind the log. -/
theorem Writer.step (h : Writer wal m w) {st : Store} {inProgress : Option Transaction}
    (hdisk : OnDisk wal st)
    (hdraft : ∀ tx, inProgress = some tx → ∃ fs,
      Drafted wal ⟨st, { w.conn with txInProgress := inProgress }⟩ tx fs) :
    Writer wal m ⟨st, { w.conn with txInProgress := inProgress }⟩ :=
  ⟨h.wf, hdisk, h.view.congr rfl rfl rfl rfl rfl rfl rfl rfl,
    At.congr h.atEnd rfl rfl rfl rfl, hdraft⟩

/-- The header of a page's frame in the active file. -/
def World.withHeader (w : World) (tx : Transaction) (o : Nat) (data : List UInt8) : Store :=
  w.store.setWa w.conn.activeHandle
    (writeAt .zero (w.store.wa w.conn.activeHandle).cells tx.waOffsetEnd
      (frameHeader .page false (encodeSize data.length) o w.conn.activeHeader data).cells)

/-- The whole frame. -/
def World.withFrame (w : World) (tx : Transaction) (o : Nat) (data : List UInt8) : Store :=
  (w.withHeader tx o data).setWa w.conn.activeHandle
    (writeAt .zero ((w.withHeader tx o data).wa w.conn.activeHandle).cells
      (tx.waOffsetEnd + frameHeaderSize) (payloadCells data))

/-- `#writePage` writes the frame, its header, or nothing. -/
theorem writePage_stores (w : World) (tx : Transaction) (o : Nat) (data : List UInt8) :
    Yields (writePage tx o data) w
      (fun tx' w' => data.length % 8 = 0 ∧ tx' = tx.withPage o (nextEntry w tx o data)
        ∧ w' = ⟨w.withFrame tx o data, { w.conn with txInProgress := some tx' }⟩)
      (fun _ w' => w' = w ∨ w' = ⟨w.withHeader tx o data, w.conn⟩) := by
  unfold writePage
  rw [yields_get_bind]
  dsimp only
  split
  · exact .inl rfl
  next haligned =>
    refine (writeWa_yields _ _ _ w).seq ?_ ?_
    · rintro _ w₁ rfl
      exact .inl rfl
    · rintro _ w₁ rfl
      refine (writeWa_yields _ _ _ _).seq ?_ ?_
      · rintro _ w₂ rfl
        exact .inr rfl
      · rintro _ w₂ rfl
        exact ⟨not_not.mp haligned, rfl, rfl⟩

/-- The frame stands behind the draft. -/
theorem Drafted.frame (hw : Writer wal m w) (hd : Drafted wal w tx fs) (o : Nat)
    (data : List UInt8) :
    OnDisk wal (w.withHeader tx o data) ∧ OnDisk wal (w.withFrame tx o data)
      ∧ wal.head.cells ++ framesCells wal.head.header fs
        <+: ((w.withHeader tx o data).wa (handleOf wal.head.header.salt1)).cells
      ∧ wal.head.cells ++ framesCells wal.head.header (fs ++ [(o, data)])
        <+: ((w.withFrame tx o data).wa (handleOf wal.head.header.salt1)).cells := by
  have hoffset := hd.offset
  have hend : wal.head.cells.length ≤ tx.waOffsetEnd := by omega
  have hlength : (wal.head.cells ++ framesCells wal.head.header fs).length = tx.waOffsetEnd := by
    rw [List.length_append, hoffset]
  have hquiet := frameHeader_quiet .page (by decide) false (encodeSize data.length) o
    wal.head.header data
  have hframe : wal.head.cells ++ framesCells wal.head.header (fs ++ [(o, data)])
      = wal.head.cells ++ framesCells wal.head.header fs
        ++ (frameHeader .page false (encodeSize data.length) o wal.head.header data).cells
        ++ payloadCells data := by
    rw [framesCells_concat]
    unfold frameCells
    simp only [List.append_assoc]
  have hdisk₁ := hw.disk.tail_write hw.wf hend hquiet
  have hend₂ : wal.head.cells.length ≤ tx.waOffsetEnd + frameHeaderSize :=
    Nat.le_add_right_of_le hend
  have hdisk₂ := hdisk₁.tail_write hw.wf hend₂ (payload_quiet data)
  unfold World.withFrame World.withHeader
  rw [hw.handle, hw.header]
  refine ⟨hdisk₁, hdisk₂, ?_, ?_⟩
  · rw [Store.setWa_self]
    exact prefix_writeAt hd.cells (le_of_eq hlength)
  · -- the payload goes behind a header that is whole
    rw [hframe, Store.setWa_self, Store.setWa_self]
    refine append_prefix_writeAt (append_prefix_writeAt hd.cells hlength) ?_
    rw [List.length_append, hlength, length_frameHeader_cells]

/-- **One page**: a frame more in the draft, or bytes that do not count. -/
theorem writePage_spec {w₀ : World} (h : Drafting wal m w₀ tx fs w) {o : Nat} {data : List UInt8}
    (hbounded : data.length ≤ 65536) :
    Yields (writePage tx o data) w
      (fun tx' w' => tx' = tx.withPage o (nextEntry w tx o data)
        ∧ Drafting wal m w₀ tx' (fs ++ [(o, data)]) w')
      (fun _ w' => Drafting wal m w₀ tx fs w') := by
  have hw := h.writer
  have hd := h.drafted
  have hoffset := hd.offset
  obtain ⟨hdisk₁, hdisk₂, hcells₁, hcells₂⟩ := hd.frame hw o data
  refine (writePage_stores w tx o data).mono ?_ ?_
  · rintro tx' w' ⟨haligned, rfl, rfl⟩
    have hpages : PagesOf wal.head.header wal.head.cells.length (fs ++ [(o, data)])
        (tx.withPage o (nextEntry w tx o data)).pages := by
      -- only page 1 is cached
      have hsome : ∀ cached, (if o = 0 then some data else none) = some cached → cached = data := by
        intro cached hcached
        split at hcached
        · exact (Option.some.inj hcached).symm
        · exact absurd hcached (Option.some_ne_none cached).symm
      have hinsert := hd.pages.insert (o, data) fun cached hcached =>
        hsome cached hcached
      rw [← hoffset] at hinsert
      unfold Transaction.withPage nextEntry
      rw [hw.header]
      exact hinsert
    have hdrafted : Drafted wal ⟨w.withFrame tx o data, { w.conn with
        txInProgress := some (tx.withPage o (nextEntry w tx o data)) }⟩
        (tx.withPage o (nextEntry w tx o data)) (fs ++ [(o, data)]) := by
      refine ⟨hcells₂, hd.id, hd.salt, ?_, fun f hf => ?_, hpages, hd.target⟩
      · show tx.waOffsetEnd + 32 + data.length = _
        rw [framesCells_concat, List.length_append, length_frameCells, hoffset]
        dsimp only
        omega
      · rcases List.mem_append.mp hf with hold | hnew
        · exact hd.wf f hold
        · rw [List.mem_singleton.mp hnew]
          exact ⟨haligned, hbounded⟩
    refine ⟨rfl, ?_, rfl, hdrafted, h.held.isolation, h.held.limit, h.held.db⟩
    refine hw.step hdisk₂ fun tx' htx' => ?_
    obtain rfl := Option.some.inj htx'
    exact ⟨_, hdrafted⟩
  · rintro _ w' (rfl | rfl)
    · exact h
    · -- the header alone does not count
      have hdrafted : Drafted wal ⟨w.withHeader tx o data, w.conn⟩ tx fs :=
        ⟨hcells₁, hd.id, hd.salt, hoffset, hd.wf, hd.pages, hd.target⟩
      refine ⟨⟨hw.wf, hdisk₁, hw.view, hw.atEnd, fun tx' htx' => ⟨fs, ?_⟩⟩, h.current, hdrafted,
        h.held.isolation, h.held.limit, h.held.db⟩
      obtain rfl := Option.some.inj (h.current.symm.trans htx')
      exact hdrafted

end

end MemoryWriteAhead.WriteAhead
