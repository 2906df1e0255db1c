/-
  MemoryWriteAhead.WriteAhead.View
  ────────────────────────────────
  **A CONNECTION'S VIEW OF THE LOG.**

  `View wal base c` says what a connection that was opened when the files began
  behind transaction `base` knows of the log: it stands between two
  transactions, its map holds the transactions up to there, and its overlay is
  what the map makes of them.  `Behind D c` adds how far the map reaches back.

    • `readTx_spec` — `#readTx` returns the next transaction or is at the end,
    • `View.activate` — the next transaction is added to the view,
    • `advanceTxId_spec` — the view after `#advanceTxId`; with `readToCurrent`
      it is the whole log.
-/
import MemoryWriteAhead.WriteAhead.Log
import MemoryWriteAhead.WriteAhead.TakeUp
import MemoryWriteAhead.Library.Versions

namespace MemoryWriteAhead.WriteAhead

open ZeroFile Outcome

/-! ## §1. Places in the log. -/

/-- The connection stands in front of the `k`-th transaction of `g`. -/
structure At (wal : Wal) (c : Conn) (g : Generation) (k : Nat) : Prop where
  mem : g ∈ wal.gens
  le : k ≤ g.txs.length
  header : c.activeHeader = g.header
  handle : c.activeHandle = handleOf g.header.salt1
  offset : c.activeOffset = g.offsetOf k
  txId : c.txId + 1 = g.header.nextTxId + k

/-- The connection stands behind the last transaction. -/
def AtEnd (wal : Wal) (c : Conn) : Prop := At wal c wal.head wal.head.txs.length

theorem At.congr {wal : Wal} {c c' : Conn} {g : Generation} {k : Nat} (h : At wal c g k)
    (hheader : c'.activeHeader = c.activeHeader) (hhandle : c'.activeHandle = c.activeHandle)
    (hoffset : c'.activeOffset = c.activeOffset) (htxId : c'.txId = c.txId) : At wal c' g k :=
  ⟨h.mem, h.le, hheader.trans h.header, hhandle.trans h.handle, hoffset.trans h.offset,
    by rw [htxId, h.txId]⟩

/-- The transaction `tx` is the `j`-th one of `g`, which is `t`. -/
structure Described (g : Generation) (j : Nat) (t : TxImage) (tx : Transaction) : Prop where
  image : g.txs[j]? = some t
  id : tx.id = g.header.nextTxId + j
  salt : tx.waSalt1 = g.header.salt1
  endOffset : tx.waOffsetEnd = g.offsetOf (j + 1)
  size : tx.dbFileSize = t.dbFileSize
  flags : tx.newPageSize.isSome = t.flags
  pages : PagesOf g.header (g.offsetOf j) t.frames tx.pages
  complete : ∀ f ∈ t.frames, f.1 ∉ t.dropped → (tx.pages.lookup f.1).isSome

/-- The transaction is one of those in the files. -/
def Wal.Holds (wal : Wal) (tx : Transaction) : Prop :=
  ∃ g ∈ wal.gens, ∃ j t, Described g j t tx

theorem asRead_described {g : Generation} {j : Nat} {t : TxImage} (ht : g.txs[j]? = some t)
    (hwf : t.Wf) {id : Nat} (hid : id = g.header.nextTxId + j) :
    Described g j t (t.asRead id g.header (g.offsetOf j)) where
  image := ht
  id := hid
  salt := rfl
  endOffset := by rw [Generation.offsetOf_succ ht]; rfl
  size := rfl
  flags := by
    obtain ⟨data, hpage1⟩ := hwf.page1
    have hsome : ((collect g.header ∅ (g.offsetOf j) t.frames).lookup 0).isSome :=
      collect_complete t.frames (.inr ⟨(0, data), hpage1, rfl⟩)
    show (if t.flags then _ else none : Option Nat).isSome = t.flags
    cases hflags : t.flags with
    | false => rfl
    | true => simpa using hsome
  pages := collect_pagesOf t.frames (PagesOf.empty g.header (g.offsetOf j) [])
  complete f hf _ := collect_complete t.frames (.inr ⟨f, hf, rfl⟩)

section Reading

variable {wal : Wal} {w : World} {g : Generation} {k : Nat}

theorem Wal.Wf.tx {wal : Wal} (hwf : wal.Wf) {g : Generation} (hg : g ∈ wal.gens) {j : Nat}
    {t : TxImage} (ht : g.txs[j]? = some t) : t.Wf :=
  hwf.txs g hg t (List.mem_of_getElem? ht)

/-- The cells of a transaction are where the connection looks for it. -/
theorem At.tx_prefix (hdisk : OnDisk wal w.store) (hat : At wal w.conn g k) {t : TxImage}
    (ht : g.txs[k]? = some t) :
    g.before k ++ t.cells g.header <+: (w.store.wa w.conn.activeHandle).cells := by
  rw [← Generation.before_succ ht, hat.handle]
  exact (g.before_prefix (k + 1)).trans (hdisk.gen hat.mem)

theorem frames_lt_fuel {st : Store} {handle : Bool} {pre : List Cell} {h : FileHeader}
    {t : TxImage} (hpre : pre ++ t.cells h <+: (st.wa handle).cells) :
    t.frames.length + 2 < st.frameFuel := by
  have hle := hpre.length_le
  have hframes := length_le_framesCells h t.frames
  rw [List.length_append, TxImage.cells, List.length_append, length_commitCells] at hle
  unfold Store.frameFuel
  cases handle <;> omega

theorem At.next {g : Generation} {k : Nat} {c : Conn} (hat : At wal c g k) (hlt : k < g.txs.length) :
    At wal { c with txId := c.txId + 1, activeOffset := g.offsetOf (k + 1) } g (k + 1) :=
  ⟨hat.mem, hlt, hat.header, hat.handle, rfl, by
    show c.txId + 1 + 1 = _
    rw [hat.txId]
    omega⟩

/-- The next transaction of the same file. -/
theorem readTxFrom_committed (hdisk : OnDisk wal w.store) (hwf : wal.Wf)
    (hat : At wal w.conn g k) {t : TxImage} (ht : g.txs[k]? = some t) {fuel : Nat}
    (hfuel : w.store.frameFuel ≤ fuel + 2) :
    readTxFrom fuel ∅ (g.offsetOf k) w
      = .ok (some (t.asRead (w.conn.txId + 1) g.header (g.offsetOf k)))
        { w with conn := { w.conn with
          txId := w.conn.txId + 1, activeOffset := g.offsetOf (k + 1) } } := by
  have hpre := hat.tx_prefix hdisk ht
  have hlt := frames_lt_fuel hpre
  have hoffset : (g.before k).length = g.offsetOf k := rfl
  have hrun := readTxFrom_tx hat.header (hwf.tx hat.mem ht) hpre hoffset
    (show t.frames.length < fuel by omega)
  rw [Generation.offsetOf_succ ht]
  exact hrun

theorem salt_ne_succ (salt : BitVec 32) : salt + 1 ≠ salt := by
  intro h
  have hhandle := handleOf_succ salt
  rw [h] at hhandle
  exact Bool.not_ne_self _ hhandle.symm

theorem salt_ne_add_two (salt : BitVec 32) : salt ≠ salt + 1 + 1 := by
  intro h
  have hnat := congrArg BitVec.toNat h
  have hlt := salt.isLt
  rw [BitVec.toNat_add, BitVec.toNat_add] at hnat
  have hone : (1 : BitVec 32).toNat = 1 := rfl
  rw [hone] at hnat
  omega

/-- Behind the last transaction there is nothing to read. -/
theorem readTxFrom_end_of_log (hdisk : OnDisk wal w.store) (hwf : wal.Wf)
    (hat : AtEnd wal w.conn) {fuel : Nat} (hfuel : w.store.frameFuel ≤ fuel + 2) :
    readTxFrom fuel ∅ (wal.head.offsetOf wal.head.txs.length) w = .ok none w := by
  have hhandle := hat.handle
  have hlen : wal.head.offsetOf wal.head.txs.length = wal.head.cells.length := by
    unfold Generation.offsetOf
    rw [Generation.before_length]
  have hbound : (w.store.wa w.conn.activeHandle).cells.length + 3 ≤ w.store.frameFuel := by
    unfold Store.frameFuel
    cases w.conn.activeHandle <;> omega
  refine readTxFrom_tail ?_ ?_ (by omega) (by omega)
  · -- what lies behind the log has no commit frame
    intro p hp fh i hcell hcommit
    rw [hhandle] at hcell
    refine hdisk.tail _ (mem_drop_iff.mpr ⟨p, ?_, hcell⟩) hcommit
    rw [← hlen]
    exact hp
  · -- an end frame that lies there does not lead to the older file
    intro fileHeader hread
    rw [hhandle, hdisk.other_header hwf] at hread
    obtain ⟨g', hprev, rfl⟩ := Option.map_eq_some_iff.mp hread
    rw [hat.header, hwf.prev_salt g' hprev]
    exact salt_ne_add_two _

/-- Behind the last transaction of the file that writers have left, the end
frame leads to the other file. -/
theorem readFrame_end_of_prev (hdisk : OnDisk wal w.store) (hwf : wal.Wf)
    (hprev : wal.prev = some g) (hat : At wal w.conn g g.txs.length) :
    readFrame w.store w.conn (g.offsetOf g.txs.length) = some (.end wal.head.header) := by
  have hpre := hdisk.prev g hprev
  rw [← hat.handle] at hpre
  unfold endCells at hpre
  have hother : readFileHeader (w.store.wa (!w.conn.activeHandle)) = some wal.head.header := by
    rw [hat.handle, hwf.prev_handle hprev, Bool.not_not]
    exact hdisk.head_header
  have hlen : g.cells.length = g.offsetOf g.txs.length := by
    unfold Generation.offsetOf
    rw [Generation.before_length]
  rw [readFrame_bare hpre hlen hat.header]
  unfold frameOf
  have htype : (frameHeader .end false 0 0 g.header []).frameType = .end := rfl
  simp only [htype, hother]
  rw [if_neg (by rw [hat.header, hwf.prev_salt g hprev]; simp)]

/-- The connection at the beginning of the head. -/
theorem At.follow {c : Conn} (hwf : wal.Wf) (hprev : wal.prev = some g)
    (hat : At wal c g g.txs.length) :
    At wal { c with
      activeHandle := !c.activeHandle
      activeHeader := wal.head.header
      activeOffset := fileHeaderSize } wal.head 0 where
  mem := head_mem_gens wal
  le := Nat.zero_le _
  header := rfl
  handle := by
    show (!c.activeHandle) = _
    rw [hat.handle, hwf.prev_handle hprev, Bool.not_not]
  offset := (Generation.offsetOf_zero _).symm
  txId := by
    have hid := hwf.prev_id g hprev
    have htx := hat.txId
    show c.txId + 1 = wal.head.header.nextTxId + 0
    omega

/-- The connection stands in the file that is written. -/
def Leading (wal : Wal) (c : Conn) : Prop := c.activeHeader = wal.head.header

theorem At.leading {c : Conn} (hat : At wal c wal.head k) : Leading wal c := hat.header

/-- Two generations with one header are the same. -/
theorem At.head_of_leading {c : Conn} (hwf : wal.Wf) (hat : At wal c g k) (h : Leading wal c) :
    g = wal.head := by
  refine (mem_gens.mp hat.mem).resolve_left fun hprev => ?_
  have hsalt := hwf.prev_salt g hprev
  rw [← hat.header, h] at hsalt
  exact salt_ne_succ _ hsalt.symm

/-- What `#readTx` does at any place: it returns the next transaction and moves
behind it, or it is at the end. -/
inductive ReadTx (wal : Wal) (w : World) : Prop where
  | next {w' : World} (tx : Transaction) (hrun : readTx w = .ok (some tx) w')
      (hholds : wal.Holds tx) (hplace : ∃ g k, At wal w'.conn g k)
      (hleading : Leading wal w.conn → Leading wal w'.conn)
  | atEnd {w' : World} (hrun : readTx w = .ok none w') (hend : AtEnd wal w'.conn)

/-- `#readTx` in front of the `k`-th transaction of a file. -/
theorem readTxFrom_at (hdisk : OnDisk wal w.store) (hwf : wal.Wf) (hat : At wal w.conn g k)
    (hg : g = wal.head ∨ k < g.txs.length) {fuel : Nat} (hfuel : w.store.frameFuel ≤ fuel + 2) :
    (∃ tx w', readTxFrom fuel ∅ (g.offsetOf k) w = .ok (some tx) w' ∧ wal.Holds tx
        ∧ At wal w'.conn g (k + 1))
      ∨ readTxFrom fuel ∅ (g.offsetOf k) w = .ok none w ∧ AtEnd wal w.conn := by
  rcases Nat.lt_or_ge k g.txs.length with hlt | hge
  · have ht : g.txs[k]? = some g.txs[k] := List.getElem?_eq_getElem hlt
    exact .inl ⟨_, _, readTxFrom_committed hdisk hwf hat ht hfuel,
      ⟨g, hat.mem, k, _, asRead_described ht (hwf.tx hat.mem ht) hat.txId⟩, hat.next hlt⟩
  · obtain rfl : g = wal.head := hg.resolve_right (by omega)
    obtain rfl : k = wal.head.txs.length := Nat.le_antisymm hat.le hge
    exact .inr ⟨readTxFrom_end_of_log hdisk hwf hat hfuel, hat⟩

/-- **Where `#readTx` gets to.** -/
theorem readTx_spec (hdisk : OnDisk wal w.store) (hwf : wal.Wf) (hat : At wal w.conn g k) :
    ReadTx wal w := by
  have hrun : readTx w = readTxFrom w.store.frameFuel ∅ (g.offsetOf k) w := by
    rw [← hat.offset]
    rfl
  by_cases hg : g = wal.head ∨ k < g.txs.length
  · rcases readTxFrom_at hdisk hwf hat hg (Nat.le_add_right _ 2) with
      ⟨tx, w', htx, hholds, hnext⟩ | ⟨hnone, hend⟩
    · refine .next tx (hrun.trans htx) hholds ⟨g, k + 1, hnext⟩ fun hleading => ?_
      rw [hat.head_of_leading hwf hleading] at hnext
      exact hnext.leading
    · exact .atEnd (hrun.trans hnone) hend
  · -- over the end frame into the other file
    obtain ⟨hne, hge⟩ := not_or.mp hg
    have hprev : wal.prev = some g := (mem_gens.mp hat.mem).resolve_right hne
    obtain rfl : k = g.txs.length := Nat.le_antisymm hat.le (Nat.le_of_not_lt hge)
    obtain ⟨fuel, hfuel⟩ : ∃ fuel, w.store.frameFuel = fuel + 1 :=
      ⟨w.store.frameFuel - 1, by unfold Store.frameFuel; omega⟩
    rw [hfuel, readTxFrom_end (readFrame_end_of_prev hdisk hwf hprev hat)] at hrun
    have hfollow := hat.follow hwf hprev
    have hstart : fileHeaderSize = wal.head.offsetOf 0 := (Generation.offsetOf_zero _).symm
    have hroom : w.store.frameFuel ≤ fuel + 2 := by omega
    have hnext := readTxFrom_at (w := { w with conn := { w.conn with
      activeHandle := !w.conn.activeHandle
      activeHeader := wal.head.header
      activeOffset := fileHeaderSize } }) hdisk hwf hfollow (.inl rfl) hroom
    rw [← hstart] at hnext
    rcases hnext with ⟨tx, w', htx, hholds, hnext⟩ | ⟨hnone, hend⟩
    · exact .next tx (hrun.trans htx) hholds ⟨_, _, hnext⟩ fun _ => hnext.leading
    · exact .atEnd (hrun.trans hnone) hend

end Reading

/-! ## §2. Ids. -/

section Ids

variable {wal : Wal} {g g' : Generation} {j k : Nat} {t : TxImage} {tx : Transaction} {c : Conn}

/-- The transactions of a generation in the whole log. -/
theorem Wal.Wf.log_tx (hwf : wal.Wf) (hg : g ∈ wal.gens) (ht : g.txs[j]? = some t) {i : Nat}
    (hi : i + 1 = g.header.nextTxId + j) : wal.log[i]? = some t := by
  have hlt : j < g.txs.length := (List.getElem?_eq_some_iff.mp ht).1
  unfold Wal.log Wal.gens
  rcases mem_gens.mp hg with hprev | rfl
  · obtain ⟨hid, _⟩ := hwf.prev_id g hprev
    rw [hprev, List.getElem?_append_right (by omega)]
    show ([g] ++ [wal.head] |>.flatMap Generation.txs)[i - wal.past.length]? = some t
    rw [List.flatMap_append, List.flatMap_singleton, List.getElem?_append_left (by omega), ← ht]
    congr 1
    omega
  · cases hprev : wal.prev with
    | none =>
        have hid := hwf.head_id hprev
        rw [List.getElem?_append_right (by omega)]
        show ([wal.head].flatMap Generation.txs)[i - wal.past.length]? = some t
        rw [List.flatMap_singleton, ← ht]
        congr 1
        omega
    | some g =>
        obtain ⟨_, hid⟩ := hwf.prev_id g hprev
        rw [List.getElem?_append_right (by omega)]
        show ([g] ++ [wal.head] |>.flatMap Generation.txs)[i - wal.past.length]? = some t
        rw [List.flatMap_append, List.flatMap_singleton, List.flatMap_singleton,
          List.getElem?_append_right (by omega), ← ht]
        congr 1
        omega

theorem Wal.Wf.log_length (hwf : wal.Wf) :
    wal.log.length + 1 = wal.head.header.nextTxId + wal.head.txs.length := by
  unfold Wal.log Wal.gens
  cases hprev : wal.prev with
  | none =>
      have hid := hwf.head_id hprev
      rw [List.length_append]
      show wal.past.length + ([wal.head].flatMap Generation.txs).length + 1 = _
      rw [List.flatMap_singleton]
      omega
  | some g =>
      obtain ⟨_, hid⟩ := hwf.prev_id g hprev
      rw [List.length_append]
      show wal.past.length + ([g] ++ [wal.head] |>.flatMap Generation.txs).length + 1 = _
      rw [List.flatMap_append, List.flatMap_singleton, List.flatMap_singleton, List.length_append]
      omega

/-- Behind everything means with all transactions. -/
theorem AtEnd.txId (hwf : wal.Wf) (h : AtEnd wal c) : c.txId = wal.log.length := by
  have hlength := hwf.log_length
  have hid := At.txId h
  omega

/-- A place is not behind the log. -/
theorem At.txId_le (hwf : wal.Wf) (h : At wal c g k) : c.txId ≤ wal.log.length := by
  have hlength := hwf.log_length
  have hid := h.txId
  have hle := h.le
  rcases mem_gens.mp h.mem with hprev | rfl
  · obtain ⟨_, hnext⟩ := hwf.prev_id g hprev
    obtain ⟨hfirst, _⟩ := hwf.prev_id g hprev
    omega
  · omega

/-- Where the next transaction is: at the connection's place, or it is the first one
of the other file. -/
theorem At.meets (hwf : wal.Wf) (hat : At wal c g k) (hg' : g' ∈ wal.gens)
    (htx : Described g' j t tx) (hid : tx.id = c.txId + 1) :
    g' = g ∧ j = k ∨ wal.prev = some g ∧ k = g.txs.length ∧ g' = wal.head ∧ j = 0 := by
  have htxId := hat.txId
  have hle := hat.le
  have hj : j < g'.txs.length := (List.getElem?_eq_some_iff.mp htx.image).1
  have hid' := htx.id
  rcases mem_gens.mp hat.mem with hprev | rfl
  · obtain ⟨hfirst, hnext⟩ := hwf.prev_id g hprev
    rcases mem_gens.mp hg' with hprev' | rfl
    · obtain rfl := Option.some.inj (hprev.symm.trans hprev')
      exact .inl ⟨rfl, by omega⟩
    · exact .inr ⟨hprev, by omega, rfl, by omega⟩
  · rcases mem_gens.mp hg' with hprev' | rfl
    · obtain ⟨hfirst, hnext⟩ := hwf.prev_id g' hprev'
      omega
    · exact .inl ⟨rfl, by omega⟩

end Ids

/-! ## §3. The view. -/

/-- What transaction `id` has of a page. -/
def Conn.pageOf (c : Conn) (offset id : Nat) : Option PageEntry :=
  (c.mapIdToTx.lookup id).bind fun tx => tx.pages.lookup offset

/-- The size of the database behind transaction `id`. -/
def Wal.sizeAt (wal : Wal) : Nat → Nat
  | 0 => 0
  | id + 1 => (wal.log[id]?).elim 0 TxImage.dbFileSize

/-- **What a connection knows of the log**: it stands between two transactions, its
map holds the ones behind `m` up to there, and the overlay is what the map makes of
them. -/
structure View (wal : Wal) (m : Nat) (c : Conn) : Prop where
  place : ∃ g k, At wal c g k
  low : wal.past.length ≤ m
  le : m ≤ c.txId
  dom : ∀ id, (c.mapIdToTx.lookup id).isSome ↔ m < id ∧ id ≤ c.txId
  holds : ∀ id tx, c.mapIdToTx.lookup id = some tx → tx.id = id ∧ wal.Holds tx
  overlay : ∀ offset, c.waOverlay.lookup offset = Versions.latest (c.pageOf offset) c.txId
  /-- a connection that has taken up nothing has no size -/
  size : c.dbFileSize = wal.sizeAt c.txId ∨ c.txId = m ∧ c.dbFileSize = 0
  /-- the keys are in the order in which they were set, the last one first -/
  ordered : c.mapIdToTx.keys.Pairwise fun id id' => id' < id
  pending : ∀ id tx, c.mapIdToPendingTx.lookup id = some tx →
    tx.id = id ∧ c.txId < id ∧ wal.Holds tx

/-- What `#advanceTxId` leaves alone. -/
structure Onward (c c' : Conn) : Prop where
  isolation : c'.isolationState = c.isolationState
  inProgress : c'.txInProgress = c.txInProgress
  limit : c'.journalSizeLimit = c.journalSizeLimit
  forward : c.txId ≤ c'.txId

theorem Onward.refl (c : Conn) : Onward c c := ⟨rfl, rfl, rfl, Nat.le_refl _⟩

theorem Onward.trans {c₁ c₂ c₃ : Conn} (h : Onward c₁ c₂) (h' : Onward c₂ c₃) : Onward c₁ c₃ :=
  ⟨h'.isolation.trans h.isolation, h'.inProgress.trans h.inProgress, h'.limit.trans h.limit,
    h.forward.trans h'.forward⟩

section Views

variable {wal : Wal} {m : Nat} {c c' : Conn} {g : Generation} {k : Nat} {w : World}
  {tx : Transaction}

theorem Described.size_eq (hwf : wal.Wf) (hg : g ∈ wal.gens) {t : TxImage} {j : Nat}
    (h : Described g j t tx) : wal.sizeAt tx.id = tx.dbFileSize := by
  have hfirst : 0 < g.header.nextTxId := by
    rcases mem_gens.mp hg with hprev | rfl
    · have hid := (hwf.prev_id g hprev).1
      omega
    · cases hprev : wal.prev with
      | none =>
          have hid := hwf.head_id hprev
          omega
      | some g =>
          have hid := (hwf.prev_id g hprev).2
          omega
  have hid := h.id
  obtain ⟨i, hi⟩ : ∃ i, tx.id = i + 1 := ⟨tx.id - 1, by omega⟩
  rw [hi]
  show (wal.log[i]?).elim 0 TxImage.dbFileSize = _
  rw [hwf.log_tx hg h.image (by omega), h.size]
  rfl

/-- **The next transaction is added to the view.** -/
theorem View.activate (h : View wal m c) (hwf : wal.Wf) (hmap : c'.mapIdToTx = c.mapIdToTx)
    (hoverlay : c'.waOverlay = c.waOverlay) (hplace : ∃ g k, At wal c' g k)
    (htxId : c'.txId = c.txId + 1) (hid : tx.id = c.txId + 1) (hholds : wal.Holds tx)
    (hpending : ∀ id tx, c'.mapIdToPendingTx.lookup id = some tx →
      c.mapIdToPendingTx.lookup id = some tx ∧ id ≠ c.txId + 1) :
    View wal m (c'.activateTx tx) := by
  have hbehind := h.le
  have hlookup (id : Nat) : (c'.activateTx tx).mapIdToTx.lookup id
      = if id = tx.id then some tx else c.mapIdToTx.lookup id := by
    show (c'.mapIdToTx.insert tx.id tx).lookup id = _
    by_cases hsame : id = tx.id
    · rw [hsame, AList.lookup_insert, if_pos rfl]
    · rw [AList.lookup_insert_ne hsame, if_neg hsame, hmap]
  obtain ⟨g, k, hat⟩ := hplace
  refine ⟨⟨g, k, hat.congr rfl rfl rfl rfl⟩, h.low, ?_, fun id => ?_, fun id tx' htx' => ?_,
    fun offset => ?_, .inl ?_, ?_, fun id tx' htx' => ?_⟩
  · show m ≤ c'.txId
    omega
  · rw [hlookup]
    show _ ↔ m < id ∧ id ≤ c'.txId
    by_cases hsame : id = tx.id
    · rw [if_pos hsame]
      exact ⟨fun _ => by omega, fun _ => rfl⟩
    · rw [if_neg hsame, h.dom]
      constructor
      · rintro ⟨hlow, hle⟩
        exact ⟨hlow, by omega⟩
      · rintro ⟨hlow, hle⟩
        exact ⟨hlow, by omega⟩
  · rw [hlookup] at htx'
    by_cases hsame : id = tx.id
    · rw [if_pos hsame] at htx'
      obtain rfl := Option.some.inj htx'
      exact ⟨hsame.symm, hholds⟩
    · rw [if_neg hsame] at htx'
      exact h.holds id tx' htx'
  · have hold : ∀ id, id ≤ c.txId → (c'.activateTx tx).pageOf offset id = c.pageOf offset id := by
      intro id hle
      unfold Conn.pageOf
      rw [hlookup, if_neg (by omega)]
    have hnew : (c'.activateTx tx).pageOf offset (c.txId + 1) = tx.pages.lookup offset := by
      unfold Conn.pageOf
      rw [hlookup, if_pos hid.symm]
      rfl
    show (tx.pages ∪ c'.waOverlay).lookup offset = Versions.latest _ c'.txId
    rw [hoverlay, htxId]
    cases hpage : tx.pages.lookup offset with
    | some e =>
        rw [Versions.latest_succ_of_some (hnew.trans hpage)]
        exact (AList.lookup_union_left (AList.lookup_isSome.mp (by rw [hpage]; rfl))).trans hpage
    | none =>
        rw [Versions.latest_succ_of_none (hnew.trans hpage), Versions.latest_congr hold, ← h.overlay]
        exact AList.lookup_union_right (AList.lookup_eq_none.mp hpage)
  · show tx.dbFileSize = wal.sizeAt c'.txId
    obtain ⟨g, hg, j, t, htx⟩ := hholds
    rw [htxId, ← hid, htx.size_eq hwf hg]
  · show (c'.mapIdToTx.insert tx.id tx).keys.Pairwise _
    rw [AList.keys_insert, hmap]
    refine List.pairwise_cons.mpr ⟨fun id hmem => ?_, h.ordered.sublist List.erase_sublist⟩
    have hin : id ∈ c.mapIdToTx := List.mem_of_mem_erase hmem
    have hle := ((h.dom id).mp (AList.lookup_isSome.mpr hin)).2
    omega
  · obtain ⟨hlater, hne⟩ := hpending id tx' htx'
    obtain ⟨hid', hlt, hholds'⟩ := h.pending id tx' hlater
    refine ⟨hid', ?_, hholds'⟩
    show c'.txId < id
    omega

/-- **`#skipTx`** moves behind the next transaction, in the other file too. -/
theorem skipTx_spec (hdisk : OnDisk wal w.store) (hwf : wal.Wf) (hat : At wal w.conn g k)
    (hholds : wal.Holds tx) (hid : tx.id = w.conn.txId + 1) :
    ∃ w', skipTx tx w = .ok ⟨⟩ w' ∧ (∃ g k, At wal w'.conn g k)
      ∧ (Leading wal w.conn → Leading wal w'.conn) := by
  obtain ⟨g', hg', j, t, htx⟩ := hholds
  have hlt : j < g'.txs.length := (List.getElem?_eq_some_iff.mp htx.image).1
  have htxId := hat.txId
  have hid' := htx.id
  unfold skipTx
  rw [get_bind_run]
  rcases hat.meets hwf hg' htx hid with ⟨rfl, rfl⟩ | ⟨hprev, rfl, rfl, rfl⟩
  · rw [if_neg (by rw [htx.salt, hat.header]; exact fun h => h rfl)]
    refine ⟨_, rfl, ⟨g', j + 1, hat.mem, hlt, hat.header, hat.handle, htx.endOffset, ?_⟩,
      fun hleading => hleading⟩
    show tx.id + 1 = _
    omega
  · have hsalt := hwf.prev_salt g hprev
    have hother : readFileHeader (w.store.wa (!w.conn.activeHandle)) = some wal.head.header := by
      rw [hat.handle, hwf.prev_handle hprev, Bool.not_not]
      exact hdisk.head_header
    have hfollow : followFileChange w.store w.conn none = some { w.conn with
        activeHandle := !w.conn.activeHandle
        activeHeader := wal.head.header
        activeOffset := fileHeaderSize } := by
      unfold followFileChange
      rw [hother, hat.header, Option.filter_some, if_pos (decide_eq_true hsalt)]
      rfl
    rw [if_pos (by rw [htx.salt, hat.header, hsalt]; exact salt_ne_succ _), hfollow]
    refine ⟨_, rfl, ⟨wal.head, 1, head_mem_gens wal, hlt, rfl, ?_, htx.endOffset, ?_⟩,
      fun _ => rfl⟩
    · show (!w.conn.activeHandle) = _
      rw [hat.handle, hwf.prev_handle hprev, Bool.not_not]
    · show tx.id + 1 = _
      omega

theorem Wal.Holds.id_le (hwf : wal.Wf) (h : wal.Holds tx) : 0 < tx.id ∧ tx.id ≤ wal.log.length := by
  obtain ⟨g, hg, j, t, htx⟩ := h
  have hid := htx.id
  have hlt : j < g.txs.length := (List.getElem?_eq_some_iff.mp htx.image).1
  have hlength := hwf.log_length
  rcases mem_gens.mp hg with hprev | rfl
  · obtain ⟨hfirst, hnext⟩ := hwf.prev_id g hprev
    omega
  · cases hprev : wal.prev with
    | none =>
        have hfirst := hwf.head_id hprev
        omega
    | some g =>
        have hfirst := (hwf.prev_id g hprev).2
        omega

/-- A step of `#advanceTxId`: the view has grown. -/
structure Advanced (wal : Wal) (m : Nat) (w w' : World) : Prop where
  store : w'.store = w.store
  view : View wal m w'.conn
  onward : Onward w.conn w'.conn
  leading : Leading wal w.conn → Leading wal w'.conn

theorem Advanced.refl (h : View wal m w.conn) : Advanced wal m w w := ⟨rfl, h, .refl _, id⟩

theorem Advanced.trans {w₁ w₂ w₃ : World} (h : Advanced wal m w₁ w₂) (h' : Advanced wal m w₂ w₃) :
    Advanced wal m w₁ w₃ :=
  ⟨h'.store.trans h.store, h'.view, h.onward.trans h'.onward,
    fun hleading => h'.leading (h.leading hleading)⟩

/-- The next transaction has arrived. -/
theorem View.arrived (h : View wal m w.conn) (hdisk : OnDisk wal w.store) (hwf : wal.Wf)
    (hlookup : w.conn.mapIdToPendingTx.lookup (w.conn.txId + 1) = some tx) :
    ∃ w', skipTx tx (w.withoutPending tx) = .ok ⟨⟩ w' ∧ Advanced wal m w (w'.activate tx) := by
  obtain ⟨hid, hlt, hholds⟩ := h.pending _ _ hlookup
  obtain ⟨g, k, hat⟩ := h.place
  have hat' : At wal (w.withoutPending tx).conn g k := hat.congr rfl rfl rfl rfl
  obtain ⟨w', hskip, hplace, hleading⟩ := skipTx_spec (w := w.withoutPending tx) hdisk hwf hat'
    hholds hid
  obtain ⟨hstore, handle, header, offset, hconn⟩ := skipTx_moved hskip
  refine ⟨w', hskip, hstore, ?_, ?_, hleading⟩
  · refine h.activate hwf (by rw [hconn]; rfl) (by rw [hconn]; rfl) hplace
      (by rw [hconn]; exact hid) hid hholds fun id tx' htx' => ?_
    rw [hconn] at htx'
    have hne : id ≠ tx.id := by
      rintro rfl
      have hnone : (w.conn.mapIdToPendingTx.erase tx.id).lookup tx.id = none := AList.lookup_erase _ _
      exact absurd (hnone.symm.trans htx') (Option.some_ne_none tx').symm
    exact ⟨(AList.lookup_erase_ne hne).symm.trans htx', hid ▸ hne⟩
  · show Onward w.conn (w'.conn.activateTx tx)
    rw [hconn]
    refine ⟨rfl, rfl, rfl, ?_⟩
    show w.conn.txId ≤ tx.id
    omega

/-- The next transaction is in the log. -/
theorem View.written (h : View wal m w.conn) (hwf : wal.Wf)
    (hlookup : w.conn.mapIdToPendingTx.lookup (w.conn.txId + 1) = none) {w' : World}
    (hread : readTx w = .ok (some tx) w') (hholds : wal.Holds tx)
    (hplace : ∃ g k, At wal w'.conn g k) (hleading : Leading wal w.conn → Leading wal w'.conn) :
    Advanced wal m w (w'.activate tx) := by
  obtain ⟨hstore, ⟨handle, header, offset, hconn⟩, hid⟩ := readTx_some hread
  refine ⟨hstore, ?_, ?_, hleading⟩
  · refine h.activate hwf (by rw [hconn]) (by rw [hconn]) hplace (by rw [hconn]) hid hholds
      fun id tx' htx' => ?_
    rw [hconn] at htx'
    refine ⟨htx', ?_⟩
    rintro rfl
    exact absurd (hlookup.symm.trans htx') (Option.some_ne_none tx').symm
  · show Onward w.conn (w'.conn.activateTx tx)
    rw [hconn]
    exact ⟨rfl, rfl, rfl, Nat.le_succ _⟩

/-- **What is pending is taken up**, from the messages and from the log. -/
theorem View.drains (hdisk : OnDisk wal w.store) (hwf : wal.Wf) (h : View wal m w.conn)
    {limit fuel : Nat} (hlimit : ∀ id ∈ w.conn.mapIdToPendingTx, id ≤ limit) (hpos : 0 < fuel)
    (hfuel : limit < fuel + w.conn.txId) :
    ∃ w', drainPending fuel w = .ok ⟨⟩ w' ∧ Advanced wal m w w'
      ∧ w'.conn.mapIdToPendingTx.keys = [] := by
  induction fuel generalizing w with
  | zero => exact absurd hpos (Nat.lt_irrefl 0)
  | succ fuel ih =>
      by_cases hnone : w.conn.mapIdToPendingTx.keys = []
      · exact ⟨w, drainPending_current hnone, .refl h, hnone⟩
      obtain ⟨last, hlast⟩ := List.exists_mem_of_ne_nil _ hnone
      obtain ⟨later, hlater⟩ := Option.isSome_iff_exists.mp (AList.lookup_isSome.mpr hlast)
      obtain ⟨hlaterId, hahead, hholds⟩ := h.pending _ _ hlater
      have hle := hlimit last hlast
      -- every round takes up the next transaction
      have hround {w₁ : World} (hadvanced : Advanced wal m w w₁) (htxId : w₁.conn.txId = w.conn.txId + 1)
          (hfewer : ∀ id ∈ w₁.conn.mapIdToPendingTx, id ∈ w.conn.mapIdToPendingTx)
          (hgoes : drainPending (fuel + 1) w = drainPending fuel w₁) :
          ∃ w', drainPending (fuel + 1) w = .ok ⟨⟩ w' ∧ Advanced wal m w w'
            ∧ w'.conn.mapIdToPendingTx.keys = [] := by
        obtain ⟨w', hrun, hrest, hdone⟩ := ih (w := w₁) (by rw [hadvanced.store]; exact hdisk)
          hadvanced.view (fun id hid => hlimit id (hfewer id hid)) (by omega) (by omega)
        exact ⟨w', hgoes.trans hrun, hadvanced.trans hrest, hdone⟩
      have hfiled : Filed w.conn := fun id tx htx => (h.pending id tx htx).1
      cases hlookup : w.conn.mapIdToPendingTx.lookup (w.conn.txId + 1) with
      | some tx =>
          obtain ⟨w', hskip, hadvanced⟩ := h.arrived hdisk hwf hlookup
          have hr := Round.arrived hfiled hlookup hskip
          exact hround hadvanced hr.txId hr.fewer (drainPending_arrived hlookup hskip)
      | none =>
          obtain ⟨g, k, hat⟩ := h.place
          cases readTx_spec hdisk hwf hat with
          | @next w' tx hrun hholds' hplace hleading =>
              have hr := Round.written hfiled hrun
              exact hround (h.written hwf hlookup hrun hholds' hplace hleading) hr.txId hr.fewer
                (drainPending_written hnone hlookup hrun)
          | @atEnd w' hrun hend =>
              -- a pending transaction is one of the log
              have hall := hend.txId hwf
              rw [(readTx_none hrun).2.txId_eq] at hall
              have hlen := (hholds.id_le hwf).2
              omega

/-- The files have room for the transactions that are not in the view. -/
theorem rest_lt_fuel {st : Store} (hdisk : OnDisk wal st) (hwf : wal.Wf) :
    wal.log.length < wal.past.length + st.frameFuel := by
  have hgen {g : Generation} (hg : g ∈ wal.gens) :
      g.txs.length ≤ (st.wa (handleOf g.header.salt1)).cells.length := by
    have hprefix := (hdisk.gen hg).length_le
    have hle : g.txs.length ≤ g.cells.length := by
      unfold Generation.cells
      rw [List.length_append]
      have hflat : g.txs.length ≤ (g.txs.flatMap (TxImage.cells g.header)).length := by
        induction g.txs with
        | nil => exact Nat.le_refl _
        | cons t txs ih =>
            rw [List.flatMap_cons, List.length_append, List.length_cons]
            unfold TxImage.cells at ih ⊢
            rw [List.length_append, length_commitCells]
            omega
      omega
    omega
  have hhead := hgen (head_mem_gens wal)
  have hlength := hwf.log_length
  have hsum : (st.wa (handleOf wal.head.header.salt1)).cells.length
      + (st.wa (!handleOf wal.head.header.salt1)).cells.length + 3 = st.frameFuel := by
    unfold Store.frameFuel
    cases handleOf wal.head.header.salt1
    · rfl
    · rw [Bool.not_true]
      omega
  cases hprev : wal.prev with
  | none =>
      have hfirst := hwf.head_id hprev
      omega
  | some g =>
      obtain ⟨hfirst, hnext⟩ := hwf.prev_id g hprev
      have hg := hgen (mem_gens.mpr (.inl hprev))
      rw [hwf.prev_handle hprev] at hg
      omega

/-- **The log is read to its end.** -/
theorem View.reads_all (hdisk : OnDisk wal w.store) (hwf : wal.Wf) (h : View wal m w.conn)
    (hnone : w.conn.mapIdToPendingTx.keys = []) {fuel : Nat}
    (hfuel : wal.log.length < w.conn.txId + fuel) :
    ∃ w', readAllTx fuel w = .ok ⟨⟩ w' ∧ Advanced wal m w w'
      ∧ w'.conn.mapIdToPendingTx.keys = [] ∧ AtEnd wal w'.conn := by
  obtain ⟨g, k, hat⟩ := h.place
  induction fuel generalizing w g k with
  | zero =>
      have hle := hat.txId_le hwf
      omega
  | succ fuel ih =>
      have hlookup : w.conn.mapIdToPendingTx.lookup (w.conn.txId + 1) = none := by
        refine AList.lookup_eq_none.mpr fun hmem => ?_
        have hkey : w.conn.txId + 1 ∈ w.conn.mapIdToPendingTx.keys := hmem
        rw [hnone] at hkey
        exact absurd hkey List.not_mem_nil
      cases readTx_spec hdisk hwf hat with
      | @next w₁ tx hrun hholds hplace hleading =>
          have hadvanced := h.written hwf hlookup hrun hholds hplace hleading
          obtain ⟨_, hmoved, _⟩ := readTx_some hrun
          have htxId : (w₁.activate tx).conn.txId = w.conn.txId + 1 := hmoved.txId_eq
          obtain ⟨g', k', hat'⟩ := hadvanced.view.place
          obtain ⟨w', hrest, hadvanced', hnone', hend⟩ := ih (w := w₁.activate tx)
            (by rw [hadvanced.store]; exact hdisk) hadvanced.view
            (show (w₁.conn.mapIdToPendingTx).keys = [] by rw [hmoved.pending]; exact hnone)
            (by omega) g' k' hat'
          refine ⟨w', ?_, hadvanced.trans hadvanced', hnone', hend⟩
          rw [readAllTx, bind_of_ok hrun]
          exact hrest
      | @atEnd w₁ hrun hend =>
          obtain ⟨hstore, handle, header, offset, hconn⟩ := readTx_none hrun
          obtain ⟨w₁st, w₁conn⟩ := w₁
          obtain rfl : w₁conn = _ := hconn
          refine ⟨_, ?_, ⟨hstore, ?_, ⟨rfl, rfl, rfl, Nat.le_refl _⟩, fun _ => At.leading hend⟩,
            hnone, hend⟩
          · rw [readAllTx, bind_of_ok hrun]
            rfl
          · exact ⟨⟨_, _, hend⟩, h.low, h.le, h.dom, h.holds, h.overlay, h.size, h.ordered,
              h.pending⟩

/-- **`#advanceTxId`** returns, with every transaction that was pending in the view;
with `readToCurrent` the view is the whole log. -/
theorem advanceTxId_spec (hdisk : OnDisk wal w.store) (hwf : wal.Wf) (h : View wal m w.conn)
    (readToCurrent : Bool) :
    ∃ w', advanceTxId readToCurrent w = .ok ⟨⟩ w' ∧ Advanced wal m w w'
      ∧ w'.conn.mapIdToPendingTx.keys = [] ∧ (readToCurrent = true → AtEnd wal w'.conn) := by
  have hlimit : ∀ id ∈ w.conn.mapIdToPendingTx,
      id ≤ w.conn.mapIdToPendingTx.keys.foldl max 0 := fun id hid => le_foldl_max (.inr hid)
  have hpos : 0 < w.pendingFuel := by
    unfold World.pendingFuel
    omega
  obtain ⟨w₁, hdrained, hadvanced, hnone⟩ := h.drains hdisk hwf hlimit hpos
    (by unfold World.pendingFuel; omega)
  unfold advanceTxId
  rw [get_bind_run, bind_of_ok hdrained]
  cases readToCurrent with
  | false => exact ⟨w₁, rfl, hadvanced, hnone, fun h => Bool.noConfusion h⟩
  | true =>
      have hdisk₁ : OnDisk wal w₁.store := by
        rw [hadvanced.store]
        exact hdisk
      have hroom : wal.log.length < w₁.conn.txId + w₁.store.frameFuel := by
        have hlength := rest_lt_fuel hdisk₁ hwf
        have hlow := hadvanced.view.low
        have hle := hadvanced.view.le
        omega
      obtain ⟨w', hrun, hadvanced', hnone', hend⟩ := hadvanced.view.reads_all hdisk₁ hwf hnone hroom
      exact ⟨w', hrun, hadvanced.trans hadvanced', hnone', fun _ => hend⟩

end Views

end MemoryWriteAhead.WriteAhead
