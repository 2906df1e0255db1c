/-
  MemoryWriteAhead.WriteAhead.Opening
  ───────────────────────────────────
  **THE CALLS THAT DO NOT WRITE TO THE LOG.**

  What opening, isolating, rejoining and the messages leave of a view, and what
  emptying a log file leaves of the log.

    • `ready_spec` — a new connection stands behind the whole log,
    • `tryUpgrade_spec` — a read that becomes a write stands there too,
    • `isolateForWrite_spec`, `rejoin_spec`, `handleMessage_spec`,
    • `View.catchesUp`, `View.rejoinFits`, `View.fits` — nothing is missing between what
      has been seen and what is pending,
    • `View.truncated` — the log whose older file has been emptied.
-/
import MemoryWriteAhead.WriteAhead.Author

namespace MemoryWriteAhead.WriteAhead

open ZeroFile Outcome

/-! ## §1. Opening. -/

/-- Nothing has been written to the log files. -/
def Store.Blank (st : Store) : Prop := ∀ handle, (st.wa handle).cells = []

/-- The log behind the first header. -/
def Wal.first (header : FileHeader) : Wal := ⟨[], none, ⟨header, []⟩⟩

theorem Wal.first_wf {header : FileHeader} (h : header.nextTxId = 1) : (Wal.first header).Wf where
  txs g hg t ht := by
    rcases mem_gens.mp hg with hprev | rfl
    · exact absurd hprev (Option.some_ne_none g).symm
    · exact absurd ht List.not_mem_nil
  prev_id g hg := absurd hg (Option.some_ne_none g).symm
  prev_salt g hg := absurd hg (Option.some_ne_none g).symm
  head_id _ := h

/-- The files with the first header. -/
theorem Store.Blank.begins {st : Store} (h : st.Blank) (header : FileHeader) :
    OnDisk (Wal.first header) (st.setWa (handleOf header.salt1)
      (writeAt .zero (st.wa (handleOf header.salt1)).cells 0 header.cells)) := by
  have hcells : (⟨header, []⟩ : Generation).cells = header.cells := List.append_nil _
  have hfile : (writeAt .zero (st.wa (handleOf header.salt1)).cells 0 header.cells) = header.cells := by
    rw [h]
    refine (List.IsPrefix.eq_of_length ?_ ?_).symm
    · exact append_prefix_writeAt (List.nil_prefix (l := [])) rfl
    · rw [length_writeAt, List.length_nil]
      omega
  rw [hfile]
  refine ⟨?_, fun cell hcell => ?_, fun g hg => absurd hg (Option.some_ne_none g).symm, fun _ => ?_⟩
  · show (⟨header, []⟩ : Generation).cells <+: _
    rw [hcells]
    show header.cells <+: ((Store.setWa _ _ _).wa (handleOf header.salt1)).cells
    rw [Store.setWa_self]
  · have hdrop : cell ∈ ((st.setWa (handleOf header.salt1) header.cells).wa
        (handleOf header.salt1)).cells.drop (⟨header, []⟩ : Generation).cells.length := hcell
    rw [Store.setWa_self, hcells, List.drop_length] at hdrop
    exact absurd hdrop List.not_mem_nil
  · show ((Store.setWa _ _ _).wa (!handleOf header.salt1)).cells = []
    rw [Store.setWa_other _ (Bool.not_ne_self _)]
    exact h _

section Ready

variable {wal : Wal} {st : Store}

/-- The header with the lower `nextTxId` is that of the oldest transactions in the
files. -/
theorem firstHeader_spec (hdisk : OnDisk wal st) (hwf : wal.Wf) :
    ∃ g ∈ wal.gens, st.firstHeader = some g.header ∧ g.header.nextTxId = wal.past.length + 1 := by
  have hhead := hdisk.head_header
  have hother := hdisk.other_header hwf
  unfold Store.firstHeader
  cases hprev : wal.prev with
  | none =>
      rw [hprev] at hother
      refine ⟨wal.head, head_mem_gens wal, ?_, hwf.head_id hprev⟩
      cases hb : handleOf wal.head.header.salt1 with
      | false =>
          rw [hb] at hhead hother
          rw [hhead, show readFileHeader (st.wa true) = none from hother]
      | true =>
          rw [hb] at hhead hother
          rw [hhead, show readFileHeader (st.wa false) = none from hother]
  | some g =>
      obtain ⟨hfirst, hnext⟩ := hwf.prev_id g hprev
      rw [hprev] at hother
      have hg : g ∈ wal.gens := mem_gens.mpr (.inl hprev)
      cases hb : handleOf wal.head.header.salt1 with
      | false =>
          rw [hb] at hhead hother
          rw [hhead, show readFileHeader (st.wa true) = some g.header from hother]
          dsimp only
          -- a file without transactions has the id of the next one
          by_cases hle : wal.head.header.nextTxId ≤ g.header.nextTxId
          · rw [if_pos hle]
            exact ⟨wal.head, head_mem_gens wal, rfl, by omega⟩
          · rw [if_neg hle]
            exact ⟨g, hg, rfl, hfirst⟩
      | true =>
          rw [hb] at hhead hother
          rw [hhead, show readFileHeader (st.wa false) = some g.header from hother]
          dsimp only
          rw [if_pos (by omega)]
          exact ⟨g, hg, rfl, hfirst⟩

/-- A connection that has just been opened on the files `st`. -/
structure Opened (wal : Wal) (st : Store) (w : World) : Prop where
  store : w.store = st
  view : View wal wal.past.length w.conn
  atEnd : AtEnd wal w.conn
  isolation : w.conn.isolationState = none
  inProgress : w.conn.txInProgress = none

/-- The connection behind the header of the oldest file. -/
theorem opens_behind (hdisk : OnDisk wal st) (hwf : wal.Wf) {g : Generation} (hg : g ∈ wal.gens)
    (hfirst : g.header.nextTxId = wal.past.length + 1) :
    ∃ w', readAllTx st.frameFuel ⟨st, { Conn.initial with
        activeHeader := g.header
        activeHandle := handleOf g.header.salt1
        activeOffset := fileHeaderSize
        txId := g.header.nextTxId - 1 }⟩ = .ok ⟨⟩ w' ∧ Opened wal st w' := by
  generalize hw : (⟨st, { Conn.initial with
    activeHeader := g.header
    activeHandle := handleOf g.header.salt1
    activeOffset := fileHeaderSize
    txId := g.header.nextTxId - 1 }⟩ : World) = w
  have hconn : w.conn = { Conn.initial with
      activeHeader := g.header
      activeHandle := handleOf g.header.salt1
      activeOffset := fileHeaderSize
      txId := g.header.nextTxId - 1 } := by rw [← hw]
  have hstore : w.store = st := by rw [← hw]
  have htxId : w.conn.txId = wal.past.length := by
    rw [hconn]
    show g.header.nextTxId - 1 = _
    omega
  have hnone (offset : Nat) : (∅ : JsMap PageEntry).lookup offset = none := AList.lookup_empty offset
  have hnoTx (id : Nat) : (∅ : JsMap Transaction).lookup id = none := AList.lookup_empty id
  have hmap : w.conn.mapIdToTx = ∅ := by rw [hconn]; rfl
  have hpending : w.conn.mapIdToPendingTx = ∅ := by rw [hconn]; rfl
  -- who has read nothing yet has the view of what has been emptied
  have hview : View wal wal.past.length w.conn := by
    refine ⟨⟨g, 0, hg, Nat.zero_le _, ?_, ?_, ?_, ?_⟩, Nat.le_refl _, by omega, fun id => ?_,
      fun id tx htx => ?_, fun offset => ?_, .inr ⟨htxId, ?_⟩, ?_, fun id tx htx => ?_⟩
    · rw [hconn]
    · rw [hconn]
    · rw [hconn]
      exact (Generation.offsetOf_zero g).symm
    · omega
    · rw [hmap, hnoTx]
      constructor
      · exact fun h => absurd h Bool.false_ne_true
      · exact fun h => by omega
    · rw [hmap, hnoTx] at htx
      exact absurd htx (Option.some_ne_none tx).symm
    · have hpage : ∀ id, w.conn.pageOf offset id = none := fun id => by
        unfold Conn.pageOf
        rw [hmap, hnoTx]
        rfl
      rw [Versions.latest_eq_none_iff.mpr fun id _ => hpage id, hconn]
      exact hnone offset
    · rw [hconn]
      rfl
    · rw [hmap]
      exact List.Pairwise.nil
    · rw [hpending, hnoTx] at htx
      exact absurd htx (Option.some_ne_none tx).symm
  subst hstore
  -- the fuel is enough for what is left of the log
  have hroom : wal.log.length < w.conn.txId + w.store.frameFuel := by
    have hlength := rest_lt_fuel hdisk hwf
    omega
  obtain ⟨w', hrun, hadvanced, -, hend⟩ := hview.reads_all hdisk hwf (by rw [hpending]; rfl) hroom
  refine ⟨w', hrun, hadvanced.store, hadvanced.view, hend, ?_, ?_⟩
  · rw [hadvanced.onward.isolation, hconn]
    rfl
  · rw [hadvanced.onward.inProgress, hconn]
    rfl

/-- **Opening**: the new connection has read the whole log. -/
theorem ready_spec (hdisk : OnDisk wal st) (hwf : wal.Wf) (randomSalt1 salt2 : BitVec 32) :
    ∃ w', ready randomSalt1 salt2 ⟨st, .initial⟩ = .ok ⟨⟩ w' ∧ Opened wal st w' := by
  obtain ⟨g, hg, hheader, hfirst⟩ := firstHeader_spec hdisk hwf
  obtain ⟨w', hrun, hopened⟩ := opens_behind hdisk hwf hg hfirst
  refine ⟨w', ?_, hopened⟩
  unfold ready
  rw [get_bind_run]
  dsimp only
  rw [hheader]
  exact hrun

/-- **The first connection** writes the first header, or nothing. -/
theorem ready_blank_spec (hblank : st.Blank) (randomSalt1 salt2 : BitVec 32) :
    Yields (ready randomSalt1 salt2) ⟨st, .initial⟩
      (fun _ w' => ∃ header, (Wal.first header).Wf ∧ OnDisk (Wal.first header) w'.store
        ∧ Opened (Wal.first header) w'.store w' ∧ w'.store.db = st.db)
      (fun _ w' => w'.store = st) := by
  have hnone : st.firstHeader = none := by
    unfold Store.firstHeader
    rw [readFileHeader_nil (hblank false), readFileHeader_nil (hblank true)]
  unfold ready
  rw [yields_get_bind]
  dsimp only
  rw [hnone]
  unfold readyWith
  dsimp only
  unfold writeFileHeader
  rw [yields_bind_assoc, yields_get_bind, yields_bind_assoc]
  refine (writeWa_yields _ _ _ _).seq ?_ ?_
  · rintro _ w₁ rfl
    rfl
  · rintro _ w₁ rfl
    dsimp only
    rw [yields_pure_bind, yields_get_bind, yields_setConn_bind]
    generalize hheader : (⟨Conn.initial.txId + 1, randomSalt1 + 1, salt2⟩ : FileHeader) = header
    have hnext : header.nextTxId = 1 := by rw [← hheader]; rfl
    have hsalt : randomSalt1 + 1 = header.salt1 := by rw [← hheader]
    rw [hsalt]
    have hwf := Wal.first_wf hnext
    have hdisk := hblank.begins header
    obtain ⟨w', hrun, hopened⟩ := opens_behind hdisk hwf (head_mem_gens (Wal.first header)) hnext
    unfold Yields
    rw [show (Wal.first header).head = ⟨header, []⟩ from rfl] at hrun
    dsimp only at hrun ⊢
    rw [hrun]
    have hstore := hopened.store
    refine ⟨header, hwf, by rw [hstore]; exact hdisk, ?_, by rw [hstore]; rfl⟩
    rw [hstore]
    exact hopened

end Ready

/-! ## §2. Isolation. -/

section Isolation

variable {wal : Wal} {m : Nat} {w : World}

/-- What a call that does not write leaves: the files, and a view that has perhaps
grown. -/
structure Looked (wal : Wal) (m : Nat) (w w' : World) : Prop where
  store : w'.store = w.store
  view : View wal m w'.conn
  inProgress : w'.conn.txInProgress = w.conn.txInProgress
  forward : w.conn.txId ≤ w'.conn.txId
  leading : Leading wal w.conn → Leading wal w'.conn

theorem Advanced.looked {w' : World} (h : Advanced wal m w w') : Looked wal m w w' :=
  ⟨h.store, h.view, h.onward.inProgress, h.onward.forward, h.leading⟩

/-- Only the isolation is another one. -/
theorem Looked.isolate (h : View wal m w.conn) (state : Option Isolation) :
    Looked wal m w { w with conn := { w.conn with isolationState := state } } :=
  ⟨rfl, h.congr rfl rfl rfl rfl rfl rfl rfl rfl, rfl, Nat.le_refl _, fun hleading => hleading⟩

theorem Looked.trans {w' w'' : World} {m' m'' : Nat} (h : Looked wal m' w w')
    (h' : Looked wal m'' w' w'') : Looked wal m'' w w'' :=
  ⟨h'.store.trans h.store, h'.view, h'.inProgress.trans h.inProgress, h.forward.trans h'.forward,
    fun hleading => h'.leading (h.leading hleading)⟩

theorem isolateForRead_spec (h : View wal m w.conn) :
    Yields isolateForRead w
      (fun _ w' => Looked wal m w w' ∧ w'.conn.txId = w.conn.txId
        ∧ w'.conn.isolationState = some .read ∧ w.conn.isolationState = none)
      (fun _ w' => w' = w) := by
  unfold isolateForRead
  rw [yields_get_bind]
  by_cases hfree : w.conn.isolationState ≠ none
  · rw [if_pos hfree]
    rfl
  · rw [if_neg hfree]
    exact ⟨.isolate h _, rfl, rfl, not_not.mp hfree⟩

/-- **A writer begins behind the whole log.** -/
theorem isolateForWrite_spec (hdisk : OnDisk wal w.store) (hwf : wal.Wf) (h : View wal m w.conn) :
    Yields isolateForWrite w
      (fun _ w' => Looked wal m w w' ∧ AtEnd wal w'.conn
        ∧ w'.conn.isolationState = some .write ∧ w.conn.isolationState = none)
      (fun _ w' => w' = w) := by
  unfold isolateForWrite
  rw [yields_get_bind]
  by_cases hfree : w.conn.isolationState ≠ none
  · rw [if_pos hfree]
    rfl
  · rw [if_neg hfree, yields_setConn_bind]
    have hlooked := Looked.isolate h (some .write)
    obtain ⟨w', hrun, hadvanced, -, hend⟩ := advanceTxId_spec (w := { w with conn := { w.conn with
      isolationState := some .write } }) hdisk hwf hlooked.view true
    unfold Yields
    rw [hrun]
    exact ⟨hlooked.trans hadvanced.looked, hend rfl, hadvanced.onward.isolation, not_not.mp hfree⟩

/-- Where a frame follows, the connection is not at the end; and where none does, it is. -/
theorem atEnd_of_no_frame (hdisk : OnDisk wal w.store) (hwf : wal.Wf) {g : Generation} {k : Nat}
    (hat : At wal w.conn g k) (hnone : readFrame w.store w.conn w.conn.activeOffset = none) :
    AtEnd wal w.conn := by
  rw [hat.offset] at hnone
  have hlast : k = g.txs.length := by
    refine Nat.le_antisymm hat.le (Nat.le_of_not_lt fun hlt => ?_)
    -- a transaction begins with a frame of a page
    have ht : g.txs[k]? = some g.txs[k] := List.getElem?_eq_getElem hlt
    have hprefix := hat.tx_prefix hdisk ht
    obtain ⟨data, hpage1⟩ := (hwf.tx hat.mem ht).page1
    obtain ⟨f, fs, hframes⟩ := List.exists_cons_of_ne_nil (List.ne_nil_of_mem hpage1)
    have hcells : (g.txs[k]).cells g.header = frameCells g.header f
        ++ (framesCells g.header fs ++ commitCells g.header (g.txs[k]).flags (g.txs[k]).dbFileSize) := by
      unfold TxImage.cells
      rw [hframes]
      show frameCells g.header f ++ framesCells g.header fs ++ _ = _
      rw [List.append_assoc]
    rw [hcells, ← List.append_assoc] at hprefix
    have hread : readFrame w.store w.conn (g.offsetOf k) = some (.page f.1 f.2) :=
      readFrame_page ((List.prefix_append _ _).trans hprefix) rfl hat.header
        ((hwf.tx hat.mem ht).frames f (by rw [hframes]; exact List.mem_cons_self))
    exact absurd (hread.symm.trans hnone) (Option.some_ne_none _)
  subst hlast
  rcases mem_gens.mp hat.mem with hprev | rfl
  · have hread := readFrame_end_of_prev hdisk hwf hprev hat
    exact absurd (hread.symm.trans hnone) (Option.some_ne_none _)
  · exact hat

/-- **A read becomes a write** only behind the whole log. -/
theorem tryUpgrade_spec (hdisk : OnDisk wal w.store) (hwf : wal.Wf) (h : View wal m w.conn) :
    Yields tryUpgradeReadIsolationToWrite w
      (fun upgraded w' => Looked wal m w w' ∧ w'.conn.txId = w.conn.txId
        ∧ w.conn.isolationState = some .read
        ∧ (upgraded = true → AtEnd wal w'.conn ∧ w'.conn.isolationState = some .write)
        ∧ (upgraded = false → w' = w))
      (fun _ w' => w' = w) := by
  unfold tryUpgradeReadIsolationToWrite
  rw [yields_get_bind]
  have hsame : Looked wal m w w := ⟨rfl, h, rfl, Nat.le_refl _, id⟩
  by_cases hread : w.conn.isolationState ≠ some .read
  · rw [if_pos hread]
    rfl
  · rw [if_neg hread]
    have hisolated := not_not.mp hread
    by_cases hpending : w.conn.mapIdToPendingTx.keys ≠ []
    · rw [if_pos hpending]
      exact ⟨hsame, rfl, hisolated, fun h => Bool.noConfusion h, fun _ => rfl⟩
    · rw [if_neg hpending]
      by_cases hframe : readFrame w.store w.conn w.conn.activeOffset ≠ none
      · rw [if_pos hframe]
        exact ⟨hsame, rfl, hisolated, fun h => Bool.noConfusion h, fun _ => rfl⟩
      · rw [if_neg hframe, yields_setConn_bind]
        obtain ⟨g, k, hat⟩ := h.place
        have hend := atEnd_of_no_frame hdisk hwf hat (not_not.mp hframe)
        exact ⟨.isolate h _, rfl, hisolated, fun _ => ⟨At.congr hend rfl rfl rfl rfl, rfl⟩,
          fun h => Bool.noConfusion h⟩

/-- **Rejoining** returns, and only moves the view forward. -/
theorem rejoin_spec (hdisk : OnDisk wal w.store) (hwf : wal.Wf) (h : View wal m w.conn)
    (backstopDue : Bool) :
    ∃ w', rejoin backstopDue w = .ok ⟨⟩ w' ∧ Looked wal m w w' ∧ w'.conn.isolationState = none := by
  have hfinish {w₁ : World} (hlooked₁ : Looked wal m w w₁) :
      ∃ w', (do
        let w ← get
        setConn { w.conn with isolationState := none }
        if backstopDue then advanceTxId true else pure ⟨⟩ : WA PUnit) w₁ = .ok ⟨⟩ w'
        ∧ Looked wal m w w' ∧ w'.conn.isolationState = none := by
    have hlooked₂ := Looked.isolate hlooked₁.view none
    generalize hw₂ : ({ w₁ with conn := { w₁.conn with isolationState := none } } : World) = w₂
      at hlooked₂
    have hset : setConn { w₁.conn with isolationState := none } w₁ = .ok ⟨⟩ w₂ := by
      rw [← hw₂]
      rfl
    have hnone : w₂.conn.isolationState = none := by rw [← hw₂]
    rw [get_bind_run, bind_of_ok hset]
    have hlooked := hlooked₁.trans hlooked₂
    cases backstopDue with
    | false => exact ⟨w₂, rfl, hlooked, hnone⟩
    | true =>
        have hdisk₂ : OnDisk wal w₂.store := by
          rw [hlooked.store]
          exact hdisk
        obtain ⟨w', hrun, hadvanced, -⟩ := advanceTxId_spec hdisk₂ hwf hlooked₂.view true
        exact ⟨w', hrun, hlooked.trans hadvanced.looked, hadvanced.onward.isolation.trans hnone⟩
  unfold rejoin
  rw [get_bind_run]
  by_cases hread : w.conn.isolationState = some .read
  · -- the reader takes up what has arrived
    rw [if_pos hread]
    obtain ⟨w₁, hrun, hadvanced, -⟩ := advanceTxId_spec hdisk hwf h false
    rw [bind_of_ok hrun]
    exact hfinish hadvanced.looked
  · rw [if_neg hread]
    exact hfinish ⟨rfl, h, rfl, Nat.le_refl _, id⟩

end Isolation

/-! ## §3. Messages. -/

section Messages

variable {wal : Wal} {m : Nat} {w : World}

/-- The transaction of the message is one of the log. -/
def Wal.Knows (wal : Wal) : Message → Prop
  | .tx tx => tx.id ≤ wal.past.length ∨ wal.Holds tx
  | .ckpt _ => True

/-- Where the map begins after a message. -/
def Message.low (m txId : Nat) : Message → Nat
  | .tx _ => m
  | .ckpt ckptId => ckptLow m txId ckptId

/-- The view with a transaction that has arrived. -/
theorem View.arrive (h : View wal m w.conn) {tx : Transaction} (hholds : wal.Holds tx)
    (hlt : w.conn.txId < tx.id) :
    View wal m { w.conn with mapIdToPendingTx := w.conn.mapIdToPendingTx.insert tx.id tx } := by
  obtain ⟨g, k, hat⟩ := h.place
  refine ⟨⟨g, k, hat.congr rfl rfl rfl rfl⟩, h.low, h.le, h.dom, h.holds, h.overlay, h.size,
    h.ordered, fun id tx' htx' => ?_⟩
  dsimp only at htx'
  by_cases hsame : id = tx.id
  · subst hsame
    rw [AList.lookup_insert] at htx'
    obtain rfl := Option.some.inj htx'
    exact ⟨rfl, hlt, hholds⟩
  · rw [AList.lookup_insert_ne hsame] at htx'
    exact h.pending id tx' htx'

/-- **A message** moves the view forward, or takes out of it what is checkpointed; an
isolated connection keeps its view, and a writer everything. -/
theorem handleMessage_spec (hdisk : OnDisk wal w.store) (hwf : wal.Wf) (h : View wal m w.conn)
    {message : Message} (hknown : wal.Knows message) :
    ∃ w', handleMessage message w = .ok ⟨⟩ w' ∧ Looked wal (message.low m w.conn.txId) w w'
      ∧ w'.conn.isolationState = w.conn.isolationState
      ∧ (w.conn.isolationState ≠ none → w'.conn.txId = w.conn.txId)
      ∧ (AtEnd wal w.conn → AtEnd wal w'.conn) := by
  cases message with
  | tx tx =>
      have hlow := h.low
      have hle := h.le
      rw [handleMessage, get_bind_run]
      by_cases hlt : w.conn.txId < tx.id
      · rw [if_pos hlt]
        have hholds : wal.Holds tx := hknown.resolve_left (by omega)
        have hview := h.arrive hholds hlt
        -- at the end there is no such transaction
        have hend (hend : AtEnd wal w.conn) {P : Prop} : P := by
          have hall := hend.txId hwf
          have hmax := (hholds.id_le hwf).2
          omega
        have hlooked : Looked wal m w { w with conn := { w.conn with
            mapIdToPendingTx := w.conn.mapIdToPendingTx.insert tx.id tx } } :=
          ⟨rfl, hview, rfl, Nat.le_refl _, fun hleading => hleading⟩
        by_cases hfree : w.conn.isolationState = none
        · obtain ⟨w', hrun, hadvanced, -⟩ := advanceTxId_spec (w := { w with conn := { w.conn with
            mapIdToPendingTx := w.conn.mapIdToPendingTx.insert tx.id tx } }) hdisk hwf hview false
          refine ⟨w', ?_, hlooked.trans hadvanced.looked, hadvanced.onward.isolation,
            fun hne => absurd hfree hne, fun h => hend h⟩
          rw [if_pos hfree]
          exact hrun
        · refine ⟨_, ?_, hlooked, rfl, fun _ => rfl, fun h => hend h⟩
          rw [if_neg hfree]
          rfl
      · rw [if_neg hlt]
        exact ⟨w, rfl, ⟨rfl, h, rfl, Nat.le_refl _, id⟩, rfl, fun _ => rfl, id⟩
  | ckpt ckptId =>
      obtain ⟨hview, overlay, map, count, hconn⟩ := h.handleCheckpoint hwf ckptId
      refine ⟨_, rfl, ⟨rfl, hview, ?_, ?_, ?_⟩, ?_, fun _ => ?_, ?_⟩
      · show (w.conn.handleCheckpoint ckptId).txInProgress = _
        rw [hconn]
      · show w.conn.txId ≤ (w.conn.handleCheckpoint ckptId).txId
        rw [hconn]
      · show Leading wal w.conn → Leading wal (w.conn.handleCheckpoint ckptId)
        rw [hconn]
        exact id
      · show (w.conn.handleCheckpoint ckptId).isolationState = _
        rw [hconn]
      · show (w.conn.handleCheckpoint ckptId).txId = _
        rw [hconn]
      · intro hend
        show AtEnd wal (w.conn.handleCheckpoint ckptId)
        rw [hconn]
        exact At.congr hend rfl rfl rfl rfl

end Messages

/-! ## §4. No gap. -/

section NoGap

variable {wal : Wal} {m : Nat} {w : World}

theorem View.filed {c : Conn} (h : View wal m c) : Filed c :=
  fun id tx htx => (h.pending id tx htx).1

/-- **A log that holds what is pending has no gap in front of it.** -/
theorem View.catchesUp (hdisk : OnDisk wal w.store) (hwf : wal.Wf) (h : View wal m w.conn)
    (readToCurrent : Bool) : CatchesUp readToCurrent w := by
  obtain ⟨w', hrun, -⟩ := advanceTxId_spec hdisk hwf h readToCurrent
  exact (advanceTxId_returns_iff h.filed).mp ⟨w', hrun⟩

theorem View.rejoinFits (hdisk : OnDisk wal w.store) (hwf : wal.Wf) (h : View wal m w.conn)
    (backstopDue : Bool) : RejoinFits backstopDue w where
  pending _ := h.catchesUp hdisk hwf false
  backstop _ w₁ hrun := by
    obtain ⟨w', hrun', hlooked, -⟩ := rejoin_spec hdisk hwf h false
    obtain rfl : w₁ = w' := by
      rw [hrun] at hrun'
      exact (EStateM.Result.ok.inj hrun').2
    have hdisk₁ : OnDisk wal w₁.store := by
      rw [hlooked.store]
      exact hdisk
    exact hlooked.view.catchesUp hdisk₁ hwf true

theorem View.fits (hdisk : OnDisk wal w.store) (hwf : wal.Wf) (h : View wal m w.conn)
    {message : Message} (hknown : wal.Knows message) : message.Fits w := by
  cases message with
  | tx tx =>
      intro _ hlt
      have hlow := h.low
      have hle := h.le
      have hholds : wal.Holds tx := hknown.resolve_left (by omega)
      exact (h.arrive hholds hlt).catchesUp (w := w.withPending tx) hdisk hwf false
  | ckpt ckptId => trivial

end NoGap

/-! ## §5. An emptied file. -/

section Truncated

variable {wal : Wal} {m : Nat} {w : World} {c : Conn} {st : Store}

/-- The first id in the map. -/
theorem View.minTxId (h : View wal m c) : c.minTxId = m + 1 := by
  have hle := h.le
  have hmem (id : Nat) : id ∈ c.mapIdToTx.keys ↔ m < id ∧ id ≤ c.txId := by
    rw [← h.dom id, AList.lookup_isSome]
    exact Iff.rfl
  unfold Conn.minTxId
  rcases List.eq_nil_or_concat c.mapIdToTx.keys with hnil | ⟨later, first, hkeys⟩
  · rw [hnil]
    have hnone := (hmem (m + 1)).not.mp (by rw [hnil]; exact List.not_mem_nil)
    show c.txId + 1 = m + 1
    omega
  · rw [hkeys, List.concat_eq_append, List.getLast?_concat, Option.getD_some]
    have hfirst := (hmem first).mp (by rw [hkeys, List.concat_eq_append]; simp)
    have hordered := h.ordered
    rw [hkeys, List.concat_eq_append, List.pairwise_append] at hordered
    have hin := (hmem (m + 1)).mpr ⟨Nat.lt_succ_self m, by omega⟩
    rw [hkeys, List.concat_eq_append] at hin
    rcases List.mem_append.mp hin with hlater | hlast
    · have hlt := hordered.2.2 (m + 1) hlater first List.mem_cons_self
      omega
    · exact (List.mem_singleton.mp hlast).symm

/-- The log without the older file. -/
def Wal.truncated (wal : Wal) : Wal where
  past := wal.past ++ wal.prev.elim [] Generation.txs
  prev := none
  head := wal.head

theorem Wal.log_truncated (wal : Wal) : wal.truncated.log = wal.log := by
  unfold Wal.log Wal.gens Wal.truncated
  cases wal.prev with
  | none => simp
  | some g => simp

theorem Wal.Wf.past_truncated (hwf : wal.Wf) :
    wal.head.header.nextTxId = wal.truncated.past.length + 1 := by
  unfold Wal.truncated
  cases hprev : wal.prev with
  | none =>
      rw [hwf.head_id hprev, List.length_append]
      rfl
  | some g =>
      obtain ⟨-, hnext⟩ := hwf.prev_id g hprev
      rw [hnext, List.length_append]
      rfl

theorem Wal.Wf.truncated (hwf : wal.Wf) : wal.truncated.Wf where
  txs g hg t ht := by
    rcases mem_gens.mp hg with hprev | rfl
    · exact absurd hprev (Option.some_ne_none g).symm
    · exact hwf.txs wal.head (head_mem_gens wal) t ht
  prev_id g hg := absurd hg (Option.some_ne_none g).symm
  prev_salt g hg := absurd hg (Option.some_ne_none g).symm
  head_id _ := hwf.past_truncated

/-- The older file is emptied. -/
theorem OnDisk.truncated (hdisk : OnDisk wal st) :
    OnDisk wal.truncated (st.setWa (!handleOf wal.head.header.salt1)
      (resize .zero (st.wa (!handleOf wal.head.header.salt1)).cells 0)) := by
  have hhead : (st.setWa (!handleOf wal.head.header.salt1)
      (resize .zero (st.wa (!handleOf wal.head.header.salt1)).cells 0)).wa
        (handleOf wal.head.header.salt1) = st.wa (handleOf wal.head.header.salt1) :=
    Store.setWa_other _ (Bool.not_ne_self _).symm _
  refine ⟨?_, ?_, fun g hg => absurd hg (Option.some_ne_none g).symm, fun _ => ?_⟩
  · show wal.head.cells <+: _
    rw [show wal.truncated.head = wal.head from rfl, hhead]
    exact hdisk.head
  · rw [show wal.truncated.head = wal.head from rfl, hhead]
    exact hdisk.tail
  · show ((Store.setWa _ _ _).wa (!handleOf wal.head.header.salt1)).cells = []
    rw [Store.setWa_self]
    exact List.length_eq_zero_iff.mp length_resize

/-- A transaction behind those of the older file. -/
theorem Wal.Holds.truncated (hwf : wal.Wf) {tx : Transaction} (h : wal.Holds tx)
    (hlater : wal.truncated.past.length < tx.id) : wal.truncated.Holds tx := by
  obtain ⟨g, hg, j, t, htx⟩ := h
  have hnext := hwf.past_truncated
  rcases mem_gens.mp hg with hprev | rfl
  · obtain ⟨hfirst, hhead⟩ := hwf.prev_id g hprev
    have hid := htx.id
    have hlt : j < g.txs.length := (List.getElem?_eq_some_iff.mp htx.image).1
    omega
  · exact ⟨wal.head, head_mem_gens wal.truncated, j, t, htx⟩

theorem Wal.Knows.truncated (hwf : wal.Wf) {message : Message} (h : wal.Knows message) :
    wal.truncated.Knows message := by
  cases message with
  | ckpt ckptId => trivial
  | tx tx =>
      rcases Nat.lt_or_ge wal.truncated.past.length tx.id with hlt | hge
      · refine .inr (Wal.Holds.truncated hwf (h.resolve_left fun hle => ?_) hlt)
        have hpast : wal.past.length ≤ wal.truncated.past.length := by
          unfold Wal.truncated
          rw [List.length_append]
          exact Nat.le_add_right _ _
        omega
      · exact .inl hge

/-- **A view of what is not in the older file** is a view of the log without it. -/
theorem View.truncated (hwf : wal.Wf) (h : View wal m c) (hleading : Leading wal c)
    (hlow : wal.head.header.nextTxId ≤ m + 1) : View wal.truncated m c := by
  have hnext := hwf.past_truncated
  obtain ⟨g, k, hat⟩ := h.place
  obtain rfl := hat.head_of_leading hwf hleading
  refine ⟨⟨wal.head, k, head_mem_gens wal.truncated, hat.le, hat.header, hat.handle, hat.offset,
    hat.txId⟩, by omega, h.le, h.dom, fun id tx htx => ?_, h.overlay, ?_, h.ordered,
    fun id tx htx => ?_⟩
  · obtain ⟨hid, hholds⟩ := h.holds id tx htx
    have hlt := ((h.dom id).mp (by rw [htx]; rfl)).1
    exact ⟨hid, hholds.truncated hwf (by omega)⟩
  · have hsize : wal.truncated.sizeAt c.txId = wal.sizeAt c.txId := by
      cases c.txId with
      | zero => rfl
      | succ id =>
          unfold Wal.sizeAt
          rw [wal.log_truncated]
    rw [hsize]
    exact h.size
  · obtain ⟨hid, hlt, hholds⟩ := h.pending id tx htx
    have hle := h.le
    exact ⟨hid, hlt, hholds.truncated hwf (by omega)⟩

end Truncated

end MemoryWriteAhead.WriteAhead
