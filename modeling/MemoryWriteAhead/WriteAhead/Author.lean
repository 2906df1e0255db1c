/-
  MemoryWriteAhead.WriteAhead.Author
  ──────────────────────────────────
  **THE CALLS OF A WRITER.**

  What `write`, `truncate`, `rollback` and `commit` of a writer leave, whatever fails
  on the way: the files hold the log, cut perhaps at another place, with the draft
  behind it.  A commit that returns its transaction has made the log longer by it.

    • `swapActiveFile_spec` — the same log, continued in the other file,
    • `write_spec`, `truncate_spec`, `rollback_spec`, `commit_spec` — the calls.
-/
import MemoryWriteAhead.WriteAhead.Draft

namespace MemoryWriteAhead.WriteAhead

open ZeroFile Outcome

/-! ## §1. Frames in progress. -/

/-- The frames of the transaction in progress, if there is one. -/
def Frames (wal : Wal) (w : World) (fs : List PageFrame) : Prop :=
  (w.conn.txInProgress = none → fs = [])
    ∧ ∀ tx, w.conn.txInProgress = some tx → Drafted wal w tx fs

/-- The same log, perhaps cut at another place. -/
structure Recut (wal wal' : Wal) : Prop where
  extends_ : Extends wal wal'
  log : wal'.log = wal.log

theorem Recut.refl (wal : Wal) : Recut wal wal := ⟨.refl wal, rfl⟩

/-- What a call of a writer that does not commit leaves. -/
structure Wrote (wal : Wal) (m : Nat) (w : World) (fs : List PageFrame) (w' : World) : Prop where
  writer : Writer wal m w'
  held : Held w w'
  frames : Frames wal w' fs

section

variable {wal : Wal} {m : Nat} {w w' w₀ : World} {tx : Transaction} {fs : List PageFrame}

theorem Writer.frames (h : Writer wal m w) : ∃ fs, Frames wal w fs := by
  cases htx : w.conn.txInProgress with
  | none => exact ⟨[], fun _ => rfl, fun tx h => absurd (htx.symm.trans h) (Option.some_ne_none tx).symm⟩
  | some tx =>
      obtain ⟨fs, hd⟩ := h.draft tx htx
      refine ⟨fs, fun h => absurd (htx.symm.trans h) (Option.some_ne_none tx), fun tx' h => ?_⟩
      obtain rfl := Option.some.inj (htx.symm.trans h)
      exact hd

theorem Drafting.wrote (h : Drafting wal m w tx fs w') : Wrote wal m w fs w' := by
  refine ⟨h.writer, h.held, fun hnone => ?_, fun tx' htx' => ?_⟩
  · exact absurd (h.current.symm.trans hnone) (Option.some_ne_none tx)
  · obtain rfl := Option.some.inj (h.current.symm.trans htx')
    exact h.drafted

theorem Frames.nothing (hnone : w.conn.txInProgress = none) : Frames wal w [] :=
  ⟨fun _ => rfl, fun tx h => absurd (hnone.symm.trans h) (Option.some_ne_none tx).symm⟩

/-! ## §2. Pages of another size. -/

/-- **A larger page in slices of the new size.** -/
theorem writeSlices_spec {n : Nat} (fuel : Nat) (h : Drafting wal m w₀ tx fs w) (offset : Nat)
    {data : List UInt8} (hbounded : data.length ≤ 65536) :
    Yields (writeSlices n fuel tx offset data) w
      (fun tx' w' => ∃ fs', Drafting wal m w₀ tx' fs' w')
      (fun _ w' => ∃ tx' fs', Drafting wal m w₀ tx' fs' w') := by
  induction fuel generalizing w tx fs offset data with
  | zero => exact ⟨fs, h⟩
  | succ fuel ih =>
      unfold writeSlices
      split
      · exact ⟨fs, h⟩
      · have htake : (data.take n).length ≤ 65536 := by
          rw [List.length_take]
          omega
        have hdrop : (data.drop n).length ≤ 65536 := by
          rw [List.length_drop]
          omega
        refine (writePage_spec h htake).seq (fun _ _ herror => ⟨tx, fs, herror⟩) ?_
        rintro tx' w₁ ⟨-, hpage⟩
        exact ih hpage _ hdrop

/-- **The bytes of a page whose new size is larger**: no frame is behind them yet. -/
theorem writeRaw_spec (h : Drafting wal m w₀ tx fs w) (hnone : fs = []) {offset : Nat}
    (hbehind : w.conn.activeOffset ≤ offset) (data : List UInt8) :
    Yields (writeWa w.conn.activeHandle offset (payloadCells data)) w
      (fun _ w' => Drafting wal m w₀ tx [] w') (fun _ w' => Drafting wal m w₀ tx [] w') := by
  subst hnone
  have hw := h.writer
  have hd := h.drafted
  rw [hw.offset] at hbehind
  refine (writeWa_yields _ offset _ w).mono ?_ ?_
  · rintro _ w' rfl
    rw [hw.handle]
    have hdisk := hw.disk.tail_write hw.wf hbehind (payload_quiet data)
    have hcells : wal.head.cells ++ framesCells wal.head.header []
        <+: ((w.store.setWa (handleOf wal.head.header.salt1) (writeAt .zero
          (w.store.wa (handleOf wal.head.header.salt1)).cells offset (payloadCells data))).wa
            (handleOf wal.head.header.salt1)).cells := by
      rw [Store.setWa_self]
      refine prefix_writeAt hd.cells ?_
      rw [List.length_append]
      exact hbehind
    have hdrafted : Drafted wal ⟨w.store.setWa (handleOf wal.head.header.salt1) (writeAt .zero
        (w.store.wa (handleOf wal.head.header.salt1)).cells offset (payloadCells data)), w.conn⟩ tx [] :=
      ⟨hcells, hd.id, hd.salt, hd.offset, hd.wf, hd.pages, hd.target⟩
    refine ⟨⟨hw.wf, hdisk, hw.view, hw.atEnd, fun tx' htx' => ?_⟩, h.current, hdrafted,
      h.held.isolation, h.held.limit, h.held.db⟩
    obtain rfl := Option.some.inj (h.current.symm.trans htx')
    exact ⟨[], hdrafted⟩
  · rintro _ w' rfl
    exact h

/-! ## §3. The other file. -/

/-- A file that is taken for empty is not part of the log. -/
theorem Writer.no_prev (h : Writer wal m w) (hempty : w.isInactiveFileEmpty = true) :
    wal.prev = none := by
  have hother := h.disk.other_header h.wf
  rw [← h.handle, no_header_of_empty hempty] at hother
  exact Option.map_eq_none_iff.mp hother.symm

/-- The world behind a swap. -/
def World.swapped (w : World) (st : Store) (header : FileHeader) : World where
  store := st.setWa (handleOf header.salt1)
    (writeAt .zero (st.wa (handleOf header.salt1)).cells 0 header.cells)
  conn := { w.conn with
    activeHeader := header
    activeHandle := handleOf header.salt1
    activeOffset := fileHeaderSize }

/-- The log is continued in the other file. -/
theorem Writer.swaps (h : Writer wal m w) (hnone : w.conn.txInProgress = none)
    (hprev : wal.prev = none) {st : Store} (hdisk : OnDisk wal st) (hdb : st.db = w.store.db)
    (hend : wal.head.cells ++ endCells wal.head.header
      <+: (st.wa (handleOf wal.head.header.salt1)).cells) (header : FileHeader)
    (hid : header.nextTxId = w.conn.txId + 1) (hsalt : header.salt1 = wal.head.header.salt1 + 1) :
    Wrote (wal.swapped header) m w [] (w.swapped st header) := by
  have hother : handleOf header.salt1 = !handleOf wal.head.header.salt1 := by
    rw [hsalt, handleOf_succ]
  have hall := h.atEnd.txId h.wf
  have hwf' : (wal.swapped header).Wf := h.wf.swapped hprev (by omega) hsalt
  have hext := Extends.swapped hprev header (by omega)
  have hnew : ((w.swapped st header).store.wa (handleOf header.salt1)).cells = header.cells := by
    show ((st.setWa _ _).wa _).cells = _
    rw [Store.setWa_self, hother, hdisk.gone hprev]
    refine (List.IsPrefix.eq_of_length ?_ ?_).symm
    · exact append_prefix_writeAt (List.nil_prefix (l := [])) rfl
    · rw [length_writeAt, List.length_nil]
      omega
  have hold : (w.swapped st header).store.wa (handleOf wal.head.header.salt1)
      = st.wa (handleOf wal.head.header.salt1) := by
    refine Store.setWa_other _ ?_ _
    rw [hother]
    exact (Bool.not_ne_self _).symm
  have hcells : (⟨header, []⟩ : Generation).cells = header.cells := List.append_nil _
  have hdisk' : OnDisk (wal.swapped header) (w.swapped st header).store := by
    refine ⟨?_, fun cell hcell => ?_, fun g hg => ?_, fun h => absurd h (Option.some_ne_none _)⟩
    · show (⟨header, []⟩ : Generation).cells <+: ((w.swapped st header).store.wa _).cells
      rw [hcells]
      show header.cells <+: ((w.swapped st header).store.wa (handleOf header.salt1)).cells
      rw [hnew]
    · have hdrop : cell ∈ ((w.swapped st header).store.wa (handleOf header.salt1)).cells.drop
          (⟨header, []⟩ : Generation).cells.length := hcell
      rw [hnew, hcells, List.drop_length] at hdrop
      exact absurd hdrop List.not_mem_nil
    · obtain rfl := Option.some.inj hg
      rw [hold]
      exact hend
  have hat : At (wal.swapped header) (w.swapped st header).conn ⟨header, []⟩ 0 := by
    refine ⟨head_mem_gens (wal.swapped header), Nat.le_refl 0, rfl, rfl,
      (Generation.offsetOf_zero _).symm, ?_⟩
    show w.conn.txId + 1 = header.nextTxId + 0
    omega
  have hview := h.view.extend h.wf hext
  have hnone' : (w.swapped st header).conn.txInProgress = none := hnone
  refine ⟨⟨hwf', hdisk', ?_, hat, fun tx htx => ?_⟩, ⟨rfl, rfl, hdb⟩, .nothing hnone'⟩
  · exact ⟨⟨_, _, hat⟩, hview.low, hview.le, hview.dom, hview.holds, hview.overlay, hview.size,
      hview.ordered, hview.pending⟩
  · exact absurd (hnone'.symm.trans htx) (Option.some_ne_none tx).symm

/-- **The swap**: the same log, continued in the other file; where it fails the end
frame behind the log does not count. -/
theorem swapActiveFile_spec (h : Writer wal m w) (hnone : w.conn.txInProgress = none)
    (hempty : w.isInactiveFileEmpty = true) (salt2 : BitVec 32) :
    Yields (swapActiveFile salt2) w
      (fun _ w' => ∃ wal', Recut wal wal' ∧ Wrote wal' m w [] w' ∧ w'.conn.txInProgress = none)
      (fun _ w' => Wrote wal m w [] w' ∧ w'.conn.txInProgress = none) := by
  have hprev := h.no_prev hempty
  have hsame : Wrote wal m w [] w := ⟨h, .refl w, .nothing hnone⟩
  unfold swapActiveFile
  rw [yields_get_bind]
  refine (writeWa_yields _ _ _ w).seq ?_ ?_
  · rintro _ w₁ rfl
    exact ⟨hsame, hnone⟩
  · rintro _ w₁ rfl
    rw [h.handle, h.header, h.offset]
    have hdisk := h.disk.tail_write h.wf (Nat.le_refl wal.head.cells.length)
      (frameHeader_quiet .end (by decide) false 0 0 wal.head.header [])
    have hend : wal.head.cells ++ endCells wal.head.header
        <+: ((w.store.setWa (handleOf wal.head.header.salt1) (writeAt .zero
          (w.store.wa (handleOf wal.head.header.salt1)).cells wal.head.cells.length
          (endCells wal.head.header))).wa (handleOf wal.head.header.salt1)).cells := by
      rw [Store.setWa_self]
      exact append_prefix_writeAt h.disk.head rfl
    generalize hst : w.store.setWa (handleOf wal.head.header.salt1) (writeAt .zero
      (w.store.wa (handleOf wal.head.header.salt1)).cells wal.head.cells.length
      (frameHeader .end false 0 0 wal.head.header []).cells) = st at hdisk
    have hend' : wal.head.cells ++ endCells wal.head.header
        <+: (st.wa (handleOf wal.head.header.salt1)).cells := by
      rw [← hst]
      exact hend
    have hdb : st.db = w.store.db := by
      rw [← hst]
      rfl
    unfold writeFileHeader
    rw [yields_bind_assoc, yields_get_bind, yields_bind_assoc]
    refine (writeWa_yields _ _ _ _).seq ?_ ?_
    · rintro _ w₂ rfl
      have hnone₁ : (⟨st, w.conn⟩ : World).conn.txInProgress = none := hnone
      refine ⟨⟨⟨h.wf, hdisk, h.view, h.atEnd, fun tx htx => ?_⟩, ⟨rfl, rfl, hdb⟩,
        .nothing hnone₁⟩, hnone⟩
      exact absurd (hnone.symm.trans htx) (Option.some_ne_none tx).symm
    · rintro _ w₂ rfl
      rw [yields_pure_bind, ← handleOf_succ]
      have hall := h.atEnd.txId h.wf
      exact ⟨_, ⟨.swapped hprev _ (by rw [← hall]), Wal.log_swapped hprev _⟩,
        h.swaps hnone hprev hdisk hdb hend' ⟨w.conn.txId + 1, _, salt2⟩ rfl rfl, hnone⟩

end

/-! ## §4. Writes. -/

/-- What SQLite keeps to in its writes: pages of one size in a transaction, and none
larger than 65536.  So no frame is behind the log when the first bytes of a larger page
are written there. -/
structure WriteFits (w : World) (data : List UInt8) (dstPageSize : Option Nat) : Prop where
  bounded : data.length ≤ 65536
  target : ∀ n, dstPageSize = some n → n ≤ 65536
  uniform : ∀ tx n, w.conn.txInProgress = some tx → tx.newPageSize = some n → data.length ≤ n →
    tx.waOffsetEnd = w.conn.activeOffset

/-- The transaction in progress does not change the page size. -/
def Conn.Plain (c : Conn) : Prop := ∀ tx, c.txInProgress = some tx → tx.newPageSize = none

/-- The write is of a page of the database's own size. -/
def PlainWrite (w : World) (data : List UInt8) (dstPageSize : Option Nat) : Prop :=
  w.conn.Plain
    ∧ (w.conn.txInProgress = none → dstPageSize = none ∨ dstPageSize = some data.length)

/-- The pages of the transaction in progress. -/
def Conn.draft (c : Conn) : JsMap PageEntry := c.txInProgress.elim ∅ Transaction.pages

/-- The cached page 1 of the transaction in progress. -/
def Conn.page1 (c : Conn) : Option (List UInt8) := (c.draft.lookup 0).bind PageEntry.pageData

/-- The draft has these pages, and they are of the database's own size. -/
structure PlainDraft (c : Conn) (pages : JsMap PageEntry) : Prop where
  pages : c.draft = pages
  size : c.Plain

section

variable {wal : Wal} {m : Nat} {w w' w₀ : World} {tx : Transaction} {fs : List PageFrame}

theorem PlainDraft.of_some {c : Conn} (htx : c.txInProgress = some tx)
    (hsize : tx.newPageSize = none) : PlainDraft c tx.pages := by
  refine ⟨?_, fun tx' htx' => ?_⟩
  · unfold Conn.draft
    rw [htx]
    rfl
  · obtain rfl := Option.some.inj (htx.symm.trans htx')
    exact hsize

theorem PlainDraft.of_none {c : Conn} (htx : c.txInProgress = none) : PlainDraft c ∅ := by
  refine ⟨?_, fun tx htx' => absurd (htx.symm.trans htx') (Option.some_ne_none tx).symm⟩
  unfold Conn.draft
  rw [htx]
  rfl

/-- The draft of a transaction that is begun. -/
theorem Wrote.begin (h : Wrote wal m w [] w') {newPageSize : Option Nat}
    (htarget : ∀ n, newPageSize = some n → n ≤ 65536) :
    Drafting wal m w (w'.conn.beginTx newPageSize) []
      { w' with conn := { w'.conn with txInProgress := some (w'.conn.beginTx newPageSize) } } := by
  have hw := h.writer
  have hdrafted : Drafted wal { w' with conn := { w'.conn with
      txInProgress := some (w'.conn.beginTx newPageSize) } } (w'.conn.beginTx newPageSize) [] := by
    refine ⟨?_, rfl, ?_, ?_, fun f hf => absurd hf List.not_mem_nil, fun o e he => ?_, htarget⟩
    · show wal.head.cells ++ [] <+: _
      rw [List.append_nil]
      exact hw.disk.head
    · show w'.conn.activeHeader.salt1 = _
      rw [hw.header]
    · show w'.conn.activeOffset = _ + 0
      rw [hw.offset, Nat.add_zero]
    · have hempty : (∅ : JsMap PageEntry).lookup o = none := AList.lookup_empty o
      exact absurd (hempty.symm.trans he) (Option.some_ne_none e).symm
  refine ⟨hw.step hw.disk fun tx htx => ?_, rfl, hdrafted, h.held.isolation, h.held.limit,
    h.held.db⟩
  obtain rfl := Option.some.inj htx
  exact ⟨[], hdrafted⟩

/-- What a write leaves: the frames, and perhaps one more. -/
structure WroteAt (wal : Wal) (m : Nat) (w : World) (w' : World) (fs : List PageFrame) : Prop where
  recut : ∃ wal', Recut wal wal' ∧ Wrote wal' m w fs w'

/-- **The transaction of a write.** -/
theorem ensureTx_spec (h : Writer wal m w) (hframes : Frames wal w fs) (salt2 : BitVec 32)
    {data : List UInt8} {dstPageSize : Option Nat} (hfits : WriteFits w data dstPageSize) :
    Yields (ensureTx salt2 data dstPageSize) w
      (fun tx w' => ∃ wal', Recut wal wal' ∧ Drafting wal' m w tx fs w'
        ∧ (∀ n, tx.newPageSize = some n → data.length ≤ n → fs = [])
        ∧ (PlainWrite w data dstPageSize → tx.newPageSize = none)
        ∧ tx.pages = w.conn.draft)
      (fun _ w' => WroteAt wal m w w' fs ∧ w.conn.txInProgress = none
        ∧ w'.conn.txInProgress = none) := by
  have hsize : ∀ n, (if dstPageSize ≠ some data.length then dstPageSize else none) = some n →
      n ≤ 65536 := by
    intro n hn
    split at hn
    · exact hfits.target n hn
    · exact absurd hn (Option.some_ne_none n).symm
  have hbegin {wal' : Wal} {w₁ : World} (hrecut : Recut wal wal') (hwrote : Wrote wal' m w [] w₁)
      (hnone : w.conn.txInProgress = none) (hnone₁ : w₁.conn.txInProgress = none) :
      Yields (do
        let w ← get
        let tx := w.conn.beginTx (if dstPageSize ≠ some data.length then dstPageSize else none)
        setConn { w.conn with txInProgress := some tx }
        pure tx) w₁
        (fun tx w' => ∃ wal', Recut wal wal' ∧ Drafting wal' m w tx fs w'
          ∧ (∀ n, tx.newPageSize = some n → data.length ≤ n → fs = [])
          ∧ (PlainWrite w data dstPageSize → tx.newPageSize = none)
          ∧ tx.pages = w.conn.draft)
        (fun _ w' => WroteAt wal m w w' fs ∧ w.conn.txInProgress = none
          ∧ w'.conn.txInProgress = none) := by
    obtain rfl := hframes.1 hnone
    rw [yields_get_bind]
    dsimp only
    rw [yields_setConn_bind, yields_pure]
    refine ⟨wal', hrecut, hwrote.begin hsize, fun _ _ _ => rfl, fun hplain => ?_,
      (PlainDraft.of_none hnone).pages.symm⟩
    show (if dstPageSize ≠ some data.length then dstPageSize else none) = none
    rcases hplain.2 hnone with hdst | hdst
    · rw [hdst]
      exact ite_self none
    · rw [if_neg fun hne => hne hdst]
  unfold ensureTx
  rw [yields_get_bind]
  cases htx : w.conn.txInProgress with
  | some tx =>
      have hd := hframes.2 tx htx
      refine ⟨wal, .refl wal, ⟨h, htx, hd, .refl w⟩, fun n hn hle => ?_, fun hplain => hplain.1 tx htx,
        by unfold Conn.draft; rw [htx]; rfl⟩
      have hend := hfits.uniform tx n htx hn hle
      have hoffset := hd.offset
      rw [h.offset] at hend
      have hlength := length_le_framesCells wal.head.header fs
      exact List.length_eq_zero_iff.mp (by omega)
  | none =>
      obtain rfl := hframes.1 htx
      have hsame : Wrote wal m w [] w := ⟨h, .refl w, hframes⟩
      dsimp only
      by_cases hswap : w.conn.nPageThreshold ≤ w.conn.approxPageCount
          ∧ w.isInactiveFileEmpty = true
      · rw [if_pos hswap]
        refine (swapActiveFile_spec h htx hswap.2 salt2).seq ?_ ?_
        · rintro _ w₁ ⟨hwrote, hnone₁⟩
          exact ⟨⟨wal, .refl wal, hwrote⟩, rfl, hnone₁⟩
        · rintro _ w₁ ⟨wal', hrecut, hwrote, hnone₁⟩
          exact hbegin hrecut hwrote htx hnone₁
      · rw [if_neg hswap]
        exact hbegin (.refl wal) hsame htx htx

/-- **A write** leaves the log, however it ends; a page of the database's own size is
one frame more. -/
theorem write_spec (h : Writer wal m w) (hframes : Frames wal w fs) (salt2 : BitVec 32)
    (offset : Nat) {data : List UInt8} {dstPageSize : Option Nat}
    (hfits : WriteFits w data dstPageSize) :
    Yields (write salt2 offset data dstPageSize) w
      (fun _ w' => ∃ fs', WroteAt wal m w w' fs'
        ∧ (w.conn.isolationState = some .write → PlainWrite w data dstPageSize →
          fs' = fs ++ [(offset, data)] ∧ ∃ e, (offset = 0 → e.pageData = some data)
            ∧ PlainDraft w'.conn (w.conn.draft.insert offset e)))
      (fun _ w' => ∃ fs', WroteAt wal m w w' fs'
        ∧ (PlainWrite w data dstPageSize → fs' = fs ∧ PlainDraft w'.conn w.conn.draft)) := by
  unfold write
  rw [yields_get_bind]
  split
  · exact ⟨fs, ⟨wal, .refl wal, h, .refl w, hframes⟩, fun hplain => ⟨rfl, rfl, hplain.1⟩⟩
  · refine (ensureTx_spec h hframes salt2 hfits).seq ?_ ?_
    · rintro _ w₁ ⟨herror, hnone, hnone₁⟩
      refine ⟨fs, herror, fun _ => ⟨rfl, ?_⟩⟩
      rw [(PlainDraft.of_none hnone).pages]
      exact .of_none hnone₁
    rintro tx w₁ ⟨wal', hrecut, hdrafting, hraw, hplain, hpages⟩
    have hnot {newPageSize : Nat} (hn : tx.newPageSize = some newPageSize) {P : Prop}
        (hp : PlainWrite w data dstPageSize) : P :=
      absurd (hn.symm.trans (hplain hp)) (Option.some_ne_none _)
    split
    next newPageSize hn =>
      split
      · refine (writeSlices_spec data.length hdrafting offset hfits.bounded).seq ?_ ?_
        · rintro _ w₂ ⟨tx', fs', hdrafting'⟩
          exact ⟨fs', ⟨wal', hrecut, hdrafting'.wrote⟩, hnot hn⟩
        · rintro _ w₂ ⟨fs', hdrafting'⟩
          exact ⟨fs', ⟨wal', hrecut, hdrafting'.wrote⟩, fun _ => hnot hn⟩
      next hlarger =>
        rw [yields_get_bind]
        refine (writeRaw_spec hdrafting (hraw newPageSize hn (Nat.le_of_not_lt hlarger))
          (resizedOffset_behind _ _ _) data).mono ?_ ?_
        · exact fun _ w₂ hdrafting' => ⟨[], ⟨wal', hrecut, hdrafting'.wrote⟩, fun _ => hnot hn⟩
        · exact fun _ w₂ hdrafting' => ⟨[], ⟨wal', hrecut, hdrafting'.wrote⟩, hnot hn⟩
    next hn =>
      refine (writePage_spec hdrafting hfits.bounded).seq ?_ ?_
      · intro _ w₂ hdrafting'
        refine ⟨fs, ⟨wal', hrecut, hdrafting'.wrote⟩, fun _ => ⟨rfl, ?_⟩⟩
        rw [← hpages]
        exact .of_some hdrafting'.current hn
      · rintro tx' w₂ ⟨rfl, hdrafting'⟩
        refine ⟨_, ⟨wal', hrecut, hdrafting'.wrote⟩, fun _ _ => ⟨rfl, nextEntry w₁ tx offset data,
          fun hfirst => if_pos hfirst, ?_⟩⟩
        rw [← hpages]
        exact .of_some hdrafting'.current hn

/-- **A truncate** takes pages out of the transaction; their frames stay. -/
theorem truncate_spec (h : Writer wal m w) (hframes : Frames wal w fs) (newSize : Nat) :
    ∃ w', truncate newSize w = .ok ⟨⟩ w' ∧ Wrote wal m w fs w'
      ∧ w'.conn.txInProgress = w.conn.txInProgress.map (Transaction.cut newSize) := by
  unfold truncate
  rw [get_bind_run]
  cases htx : w.conn.txInProgress with
  | none => exact ⟨w, rfl, ⟨h, .refl w, hframes⟩, htx⟩
  | some tx =>
      have hd := hframes.2 tx htx
      have hdrafted : Drafted wal { w with conn := { w.conn with
          txInProgress := some (tx.cut newSize) } } (tx.cut newSize) fs :=
        ⟨hd.cells, hd.id, hd.salt, hd.offset, hd.wf,
          hd.pages.mono fun o e he => lookup_cut newSize _ tx.pages he, hd.target⟩
      have hdrafting : Drafting wal m w (tx.cut newSize) fs { w with conn := { w.conn with
          txInProgress := some (tx.cut newSize) } } := by
        refine ⟨h.step h.disk fun tx' htx' => ?_, rfl, hdrafted, rfl, rfl, rfl⟩
        obtain rfl := Option.some.inj htx'
        exact ⟨fs, hdrafted⟩
      exact ⟨_, rfl, hdrafting.wrote, rfl⟩

/-- **A rollback** leaves the log, and no draft. -/
theorem rollback_spec (h : Writer wal m w) :
    ∃ w', rollback w = .ok ⟨⟩ w' ∧ Wrote wal m w [] w' ∧ w'.conn.txInProgress = none := by
  have hdisk := h.disk.tail_truncate h.wf (Nat.le_refl wal.head.cells.length)
  rw [← h.handle, ← h.offset] at hdisk
  refine ⟨_, rfl, ⟨h.step hdisk fun tx htx => ?_, ⟨rfl, rfl, rfl⟩, .nothing rfl⟩, rfl⟩
  exact absurd htx (Option.some_ne_none tx).symm

end

/-! ## §5. Commits. -/

section

variable {wal : Wal} {m : Nat} {w w' w₀ : World} {tx : Transaction} {fs : List PageFrame}

theorem rewritePage_spec {n : Nat} (hn : n ≤ 65536) (h : Drafting wal m w₀ tx fs w) (i : Nat) :
    Yields (rewritePage n tx i) w
      (fun r w' => (∃ fs', Drafting wal m w₀ r.1 fs' w') ∧ r.1.newPageSize = tx.newPageSize)
      (fun _ w' => Drafting wal m w₀ tx fs w') := by
  unfold rewritePage
  rw [yields_get_bind]
  dsimp only
  generalize hbytes : (readAt (w.store.wa w.conn.activeHandle).cells
    (w.conn.activeOffset + i * (frameHeaderSize + n) + frameHeaderSize) n).map Cell.toByte = bytes
  have hlength : bytes.length ≤ n := by
    rw [← hbytes, List.length_map, length_readAt]
    exact Nat.min_le_left _ _
  have hpage : (bytes ++ List.replicate (n - bytes.length) 0).length ≤ 65536 := by
    rw [List.length_append, List.length_replicate]
    omega
  refine (writePage_spec h hpage).seq (fun _ _ herror => herror) ?_
  rintro tx' w₁ ⟨htx', hdrafting⟩
  exact ⟨⟨_, hdrafting⟩, by rw [htx']; rfl⟩

theorem rewritePages_spec {n : Nat} (hn : n ≤ 65536) (count : Nat) (h : Drafting wal m w₀ tx fs w)
    (i : Nat) :
    Yields (rewritePages n count tx i) w
      (fun tx' w' => (∃ fs', Drafting wal m w₀ tx' fs' w') ∧ tx'.newPageSize = tx.newPageSize)
      (fun _ w' => ∃ tx' fs', Drafting wal m w₀ tx' fs' w') := by
  induction count generalizing w tx fs i with
  | zero => exact ⟨⟨fs, h⟩, rfl⟩
  | succ count ih =>
      unfold rewritePages
      refine (rewritePage_spec hn h i).seq (fun _ _ herror => ⟨tx, fs, herror⟩) ?_
      rintro ⟨tx', _⟩ w₁ ⟨⟨fs', hdrafting⟩, hsize⟩
      refine (ih hdrafting (i + 1)).mono ?_ fun _ _ herror => herror
      rintro tx'' w₂ ⟨hdrafting', hsize'⟩
      exact ⟨hdrafting', hsize'.trans hsize⟩

/-- **The frames of the commit**: a VACUUM to a larger page size is written again. -/
theorem gatherPages_spec (h : Drafting wal m w₀ tx fs w) :
    Yields (gatherPages tx) w
      (fun tx' w' => (∃ fs', Drafting wal m w₀ tx' fs' w' ∧ (tx.newPageSize = none → fs' = fs))
        ∧ (tx.newPageSize = none → tx' = tx ∧ w' = w))
      (fun _ w' => (∃ tx' fs', Drafting wal m w₀ tx' fs' w') ∧ tx.newPageSize ≠ none) := by
  have hsame : (∃ fs', Drafting wal m w₀ tx fs' w ∧ (tx.newPageSize = none → fs' = fs))
      ∧ (tx.newPageSize = none → tx = tx ∧ w = w) :=
    ⟨⟨fs, h, fun _ => rfl⟩, fun _ => ⟨rfl, rfl⟩⟩
  unfold gatherPages
  split
  next n hn =>
    have hnot {P : Prop} (hnone : tx.newPageSize = none) : P :=
      absurd (hn.symm.trans hnone) (Option.some_ne_none n)
    have hle := h.drafted.target n hn
    have hsome : tx.newPageSize ≠ none := fun hnone => hnot hnone
    split
    · refine (rewritePage_spec hle h 0).seq (fun _ _ herror => ⟨⟨tx, fs, herror⟩, hsome⟩) ?_
      rintro ⟨tx', first⟩ w₁ ⟨⟨fs', hdrafting⟩, -⟩
      dsimp only
      split
      · exact ⟨⟨tx', fs', hdrafting⟩, hsome⟩
      · refine (rewritePages_spec hle _ hdrafting 1).mono ?_ fun _ _ herror => ⟨herror, hsome⟩
        rintro tx'' w₂ ⟨⟨fs'', hdrafting'⟩, -⟩
        exact ⟨⟨fs'', hdrafting', hnot⟩, hnot⟩
    · exact hsame
  · exact hsame

/-- The transaction as it stands in the file. -/
def Transaction.image (tx : Transaction) (fs : List PageFrame) : TxImage where
  frames := fs
  flags := tx.newPageSize.isSome
  dbFileSize := tx.dbFileSize
  dropped := (fs.map Prod.fst).filter fun o => (tx.pages.lookup o).isNone

/-- The world behind a commit frame. -/
def World.committed (w : World) (tx : Transaction) : World where
  store := w.store.setWa w.conn.activeHandle
    (writeAt .zero (w.store.wa w.conn.activeHandle).cells tx.waOffsetEnd
      (commitCells w.conn.activeHeader tx.newPageSize.isSome tx.dbFileSize))
  conn := { w.conn with
    txInProgress := none, activeOffset := tx.waOffsetEnd + frameHeaderSize, txId := tx.id }

/-- **The commit frame** makes the log longer by the draft. -/
theorem Drafting.commits (h : Drafting wal m w₀ tx fs w) (hpage1 : (tx.pages.lookup 0).isSome) :
    Writer (wal.append (tx.image fs)) m ((w.committed tx).activate
        { tx with waOffsetEnd := tx.waOffsetEnd + frameHeaderSize })
      ∧ (wal.append (tx.image fs)).Holds { tx with waOffsetEnd := tx.waOffsetEnd + frameHeaderSize }
      ∧ Held w₀ (w.committed tx) := by
  have hw := h.writer
  have hd := h.drafted
  have hoffset := hd.offset
  have hend : wal.head.cells.length ≤ tx.waOffsetEnd := by omega
  have hlen : wal.head.offsetOf wal.head.txs.length = wal.head.cells.length := by
    unfold Generation.offsetOf
    rw [Generation.before_length]
  -- the image is well-formed
  have hwfImage : (tx.image fs).Wf := by
    refine ⟨hd.wf, ?_⟩
    obtain ⟨e, he⟩ := Option.isSome_iff_exists.mp hpage1
    obtain ⟨fs₁, data, fs₂, hfs, -⟩ := hd.pages 0 e he
    exact ⟨data, by show _ ∈ fs; rw [hfs]; exact List.mem_append_right _ List.mem_cons_self⟩
  have hwf' := hw.wf.append hwfImage
  have hext := Extends.append wal (tx.image fs)
  have hcells : (wal.append (tx.image fs)).head.cells
      = wal.head.cells ++ framesCells wal.head.header fs
        ++ commitCells wal.head.header tx.newPageSize.isSome tx.dbFileSize := by
    show (wal.head.append _).cells = _
    rw [Generation.cells_append]
    unfold TxImage.cells
    rw [List.append_assoc]
    rfl
  have hlength : (wal.head.cells ++ framesCells wal.head.header fs).length = tx.waOffsetEnd := by
    rw [List.length_append, hoffset]
  have hstore : (w.committed tx).store = w.store.setWa (handleOf wal.head.header.salt1)
      (writeAt .zero (w.store.wa (handleOf wal.head.header.salt1)).cells tx.waOffsetEnd
        (commitCells wal.head.header tx.newPageSize.isSome tx.dbFileSize)) := by
    unfold World.committed
    rw [hw.handle, hw.header]
  have hdisk' : OnDisk (wal.append (tx.image fs)) (w.committed tx).store := by
    rw [hstore]
    refine ⟨?_, fun cell hcell => ?_, fun g hg => ?_, fun hnone => ?_⟩
    · show (wal.append (tx.image fs)).head.cells
        <+: ((Store.setWa _ (handleOf wal.head.header.salt1) _).wa (handleOf wal.head.header.salt1)).cells
      rw [Store.setWa_self, hcells]
      exact append_prefix_writeAt hd.cells hlength
    · have hdrop : cell ∈ ((w.store.setWa (handleOf wal.head.header.salt1) (writeAt .zero
          (w.store.wa (handleOf wal.head.header.salt1)).cells tx.waOffsetEnd
          (commitCells wal.head.header tx.newPageSize.isSome tx.dbFileSize))).wa
            (handleOf wal.head.header.salt1)).cells.drop
              (wal.append (tx.image fs)).head.cells.length := hcell
      rw [Store.setWa_self, hcells, List.length_append, hlength, length_commitCells] at hdrop
      -- the commit frame ends where the tail begins
      obtain ⟨p, hp, hx⟩ := mem_drop_iff.mp hdrop
      rw [getElem?_writeAt, if_neg (by rw [length_commitCells]; omega)] at hx
      split at hx
      · exact hw.disk.tail cell (mem_drop_iff.mpr ⟨p, by omega, hx⟩)
      · split at hx
        · obtain rfl := Option.some.inj hx
          exact fun h => h
        · exact absurd hx (Option.some_ne_none cell).symm
    · rw [Store.setWa_other _ (by rw [hw.wf.prev_handle hg]; exact Bool.not_ne_self _)]
      exact hw.disk.prev g hg
    · show ((Store.setWa _ _ _).wa (!handleOf wal.head.header.salt1)).cells = []
      rw [Store.setWa_other _ (Bool.not_ne_self _)]
      exact hw.disk.gone hnone
  -- the transaction is the last one of the head
  have hid := At.txId hw.atEnd
  have himage : (wal.head.append (tx.image fs)).txs[wal.head.txs.length]? = some (tx.image fs) := by
    show (wal.head.txs ++ [tx.image fs])[wal.head.txs.length]? = _
    rw [List.getElem?_append_right (Nat.le_refl _), Nat.sub_self]
    rfl
  have hnext : (wal.head.append (tx.image fs)).offsetOf (wal.head.txs.length + 1)
      = tx.waOffsetEnd + frameHeaderSize := by
    rw [Generation.offsetOf_succ himage, Generation.offsetOf_append _ (Nat.le_refl _), hlen, hoffset]
    rfl
  have hdescribed : Described (wal.head.append (tx.image fs)) wal.head.txs.length (tx.image fs)
      { tx with waOffsetEnd := tx.waOffsetEnd + frameHeaderSize } := by
    refine ⟨himage, ?_, hd.salt, hnext.symm, rfl, rfl, ?_, fun f hf hkept => ?_⟩
    · show tx.id = wal.head.header.nextTxId + wal.head.txs.length
      rw [hd.id, hid]
    · rw [Generation.offsetOf_append _ (Nat.le_refl _), hlen]
      exact hd.pages
    · by_contra hnone
      refine hkept (List.mem_filter.mpr ⟨List.mem_map.mpr ⟨f, hf, rfl⟩, ?_⟩)
      exact Option.isNone_iff_eq_none.mpr (Option.not_isSome_iff_eq_none.mp hnone)
  have hholds : (wal.append (tx.image fs)).Holds
      { tx with waOffsetEnd := tx.waOffsetEnd + frameHeaderSize } :=
    ⟨_, head_mem_gens (wal.append (tx.image fs)), _, _, hdescribed⟩
  have hat : At (wal.append (tx.image fs)) (w.committed tx).conn (wal.head.append (tx.image fs))
      (wal.head.txs.length + 1) := by
    refine ⟨head_mem_gens (wal.append (tx.image fs)), ?_, hw.header, hw.handle, hnext.symm, ?_⟩
    · show wal.head.txs.length + 1 ≤ (wal.head.txs ++ [tx.image fs]).length
      rw [List.length_append]
      exact Nat.le_refl _
    · show tx.id + 1 = wal.head.header.nextTxId + (wal.head.txs.length + 1)
      have := hd.id
      omega
  have hview : View (wal.append (tx.image fs)) m ((w.committed tx).conn.activateTx
      { tx with waOffsetEnd := tx.waOffsetEnd + frameHeaderSize }) :=
    (hw.view.extend hw.wf hext).activate hwf' rfl rfl ⟨_, _, hat⟩
    hd.id hd.id hholds (by
      intro id tx' htx'
      -- nothing is pending: the writer has the whole log
      obtain ⟨-, hlt, hlater⟩ := hw.view.pending id tx' htx'
      have hle := (hlater.id_le hw.wf).2
      have hid' := (hw.view.pending id tx' htx').1
      have hall := hw.atEnd.txId hw.wf
      omega)
  refine ⟨⟨hwf', hdisk', hview, ?_, fun tx' htx' => ?_⟩, hholds, h.held.isolation, h.held.limit,
    h.held.db⟩
  · have hlast : (wal.append (tx.image fs)).head.txs.length = wal.head.txs.length + 1 := by
      show (wal.head.txs ++ [tx.image fs]).length = _
      rw [List.length_append]
      rfl
    unfold AtEnd
    rw [hlast]
    exact hat.congr rfl rfl rfl rfl
  · exact absurd htx' (Option.some_ne_none tx').symm

/-- What a commit that returns leaves: the log with the transaction, or, without page 1,
the log alone. -/
structure Committed (wal : Wal) (m : Nat) (w : World) (result : Option Transaction) (w' : World) :
    Prop where
  none_ : w'.conn.txInProgress = none
  held : Held w w'
  rolledBack : result = none → Writer wal m w'
  appended : ∀ tx, result = some tx → ∃ t, Writer (wal.append t) m w' ∧ (wal.append t).Holds tx
    ∧ tx.id = wal.log.length + 1 ∧ t.dbFileSize = tx.dbFileSize
    ∧ t.dropped = (t.frames.map Prod.fst).filter fun o => (tx.pages.lookup o).isNone

/-- The same of a transaction that does not change the page size: it has the frames and
the pages of the draft, and its size is what page 1 says. -/
structure PlainCommit (wal : Wal) (m : Nat) (w : World) (fs : List PageFrame)
    (result : Option Transaction) (w' : World) : Prop where
  rolledBack : result = none → w.conn.page1 = none
  appended : ∀ tx, result = some tx → Writer (wal.append (tx.image fs)) m w'
    ∧ (wal.append (tx.image fs)).Holds tx ∧ tx.pages = w.conn.draft ∧ tx.newPageSize = none
  size : ∀ tx, result = some tx → ∃ page1, w.conn.page1 = some page1
    ∧ tx.dbFileSize = getUint32 page1 28 * page1.length

/-- **A commit** makes the log longer by its transaction, or leaves it. -/
theorem commit_spec (h : Writer wal m w) (hframes : Frames wal w fs) :
    Yields commit w
      (fun result w' => Committed wal m w result w'
        ∧ (w.conn.Plain → PlainCommit wal m w fs result w'))
      (fun _ w' => ∃ fs', Wrote wal m w fs' w'
        ∧ (w.conn.Plain → fs' = fs ∧ PlainDraft w'.conn w.conn.draft)) := by
  unfold commit
  rw [yields_get_bind]
  cases htx : w.conn.txInProgress with
  | none => exact ⟨fs, ⟨h, .refl w, hframes⟩, fun hsize => ⟨rfl, rfl, hsize⟩⟩
  | some tx =>
      have hdrafting : Drafting wal m w tx fs w := ⟨h, htx, hframes.2 tx htx, .refl w⟩
      have hdraft : w.conn.draft = tx.pages := by
        unfold Conn.draft
        rw [htx]
        rfl
      refine (gatherPages_spec hdrafting).seq ?_ ?_
      · rintro _ w₁ ⟨⟨tx', fs', hdrafting'⟩, hsome⟩
        exact ⟨fs', hdrafting'.wrote, fun hsize => absurd (hsize tx htx) hsome⟩
      · rintro tx₁ w₁ ⟨⟨fs₁, hdrafting₁, hfs₁⟩, hplain⟩
        have hall := hdrafting₁.writer.atEnd.txId hdrafting₁.writer.wf
        have hpage {found : Option (List UInt8)} (hsize : w.conn.Plain)
            (hfound : (tx₁.pages.lookup 0).bind PageEntry.pageData = found) :
            w.conn.page1 = found := by
          obtain ⟨rfl, -⟩ := hplain (hsize tx htx)
          unfold Conn.page1
          rw [hdraft]
          exact hfound
        split
        next hpage1 =>
          -- without page 1
          obtain ⟨w₂, hrun, hwrote, hnone⟩ := rollback_spec hdrafting₁.writer
          have hyields : Yields rollback w₁ (fun _ w' => w' = w₂) (fun _ _ => False) := by
            unfold Yields
            rw [hrun]
          refine hyields.seq (fun _ _ hfalse => hfalse.elim) ?_
          rintro _ w' rfl
          refine ⟨⟨hnone, hdrafting₁.held.trans hwrote.held, fun _ => hwrote.writer,
            fun tx' htx' => absurd htx' (Option.some_ne_none tx').symm⟩, fun hsize => ?_⟩
          exact ⟨fun _ => hpage hsize hpage1, fun tx' hr => absurd hr (Option.some_ne_none tx').symm,
            fun tx' hr => absurd hr (Option.some_ne_none tx').symm⟩
        next page1 hpage1 =>
          -- a commit that throws keeps the draft
          have hkept {w' : World} {tx' : Transaction} (hdrafting' : Drafting wal m w tx' fs₁ w')
              (hpages : tx'.pages = tx₁.pages) (hsame : tx'.newPageSize = tx₁.newPageSize) :
              ∃ fs', Wrote wal m w fs' w'
                ∧ (w.conn.Plain → fs' = fs ∧ PlainDraft w'.conn w.conn.draft) := by
            refine ⟨fs₁, hdrafting'.wrote, fun hsize => ⟨hfs₁ (hsize tx htx), ?_⟩⟩
            obtain ⟨rfl, -⟩ := hplain (hsize tx htx)
            rw [hdraft, ← hpages]
            exact .of_some hdrafting'.current (hsame.trans (hsize _ htx))
          split
          · exact hkept hdrafting₁ rfl rfl
          · dsimp only
            rw [yields_get_bind, yields_setConn_bind]
            generalize htx₂ : ({ tx₁ with dbFileSize := getUint32 page1 28 * page1.length }
              : Transaction) = tx₂
            have hd := hdrafting₁.drafted
            -- the size goes into the transaction
            have hdrafted₂ : Drafted wal { w₁ with conn := { w₁.conn with
                txInProgress := some tx₂ } } tx₂ fs₁ := by
              rw [← htx₂]
              exact ⟨hd.cells, hd.id, hd.salt, hd.offset, hd.wf, hd.pages, hd.target⟩
            have hdrafting₂ : Drafting wal m w tx₂ fs₁ { w₁ with conn := { w₁.conn with
                txInProgress := some tx₂ } } := by
              refine ⟨hdrafting₁.writer.step hdrafting₁.writer.disk fun tx' htx' => ?_, rfl,
                hdrafted₂, hdrafting₁.held.isolation, hdrafting₁.held.limit, hdrafting₁.held.db⟩
              obtain rfl := Option.some.inj htx'
              exact ⟨fs₁, hdrafted₂⟩
            have hsome : (tx₂.pages.lookup 0).isSome := by
              rw [← htx₂]
              obtain ⟨e, he, -⟩ := Option.bind_eq_some_iff.mp hpage1
              show (tx₁.pages.lookup 0).isSome
              rw [he]
              rfl
            have hpages₂ : tx₂.pages = tx₁.pages := by rw [← htx₂]
            have hsize₂ : tx₂.newPageSize = tx₁.newPageSize := by rw [← htx₂]
            obtain ⟨hwriter, hholds, hheld⟩ := hdrafting₂.commits hsome
            generalize hw₂ : ({ w₁ with conn := { w₁.conn with txInProgress := some tx₂ } } : World)
              = w₂ at hdrafting₂ hwriter hheld
            unfold commitTx
            rw [yields_bind_assoc, yields_get_bind, yields_bind_assoc]
            refine (writeWa_yields _ _ _ w₂).seq ?_ ?_
            · rintro _ w₃ rfl
              exact hkept hdrafting₂ hpages₂ hsize₂
            · rintro _ w₃ rfl
              dsimp only
              rw [yields_bind_assoc, yields_setConn_bind, yields_pure_bind, yields_get_bind,
                yields_setConn_bind, yields_pure]
              have hid : tx₂.id = wal.log.length + 1 := by
                rw [← htx₂, ← hall]
                exact hd.id
              refine ⟨⟨rfl, ⟨hheld.isolation, hheld.limit, hheld.db⟩,
                  fun hr => absurd hr (Option.some_ne_none _), fun tx' htx' => ?_⟩,
                fun hsize => ⟨fun hr => absurd hr (Option.some_ne_none _), fun tx' hr => ?_,
                  fun tx' hr => ?_⟩⟩
              · obtain rfl := Option.some.inj htx'
                exact ⟨_, hwriter, hholds, hid, rfl, rfl⟩
              · obtain rfl := Option.some.inj hr
                obtain ⟨rfl, -⟩ := hplain (hsize tx htx)
                obtain rfl := hfs₁ (hsize _ htx)
                exact ⟨hwriter, hholds, hpages₂.trans hdraft.symm, hsize₂.trans (hsize _ htx)⟩
              · obtain rfl := Option.some.inj hr
                refine ⟨page1, hpage hsize hpage1, ?_⟩
                show tx₂.dbFileSize = _
                rw [← htx₂]

end

end MemoryWriteAhead.WriteAhead
