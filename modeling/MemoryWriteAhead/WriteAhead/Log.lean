/-
  MemoryWriteAhead.WriteAhead.Log
  ───────────────────────────────
  **THE COMMITTED LOG AND ITS PLACE IN THE TWO FILES.**

  A `Wal` is the log seen as what it is for: the list of all transactions that
  were committed, cut into the part that is gone from the files (`past`), the
  generation in the file that writers have left (`prev`) and the generation in
  the file that they append to (`head`).

    • `OnDisk` — the files hold these generations frame by frame, and behind
      the head there is no commit frame,
    • `readTx_committed`, `readTx_end`, `readTx_follow` — what `#readTx`
      returns at each place of the log.
-/
import MemoryWriteAhead.WriteAhead.Model

namespace MemoryWriteAhead.WriteAhead

open ZeroFile

/-! ## §1. Transactions and generations. -/

/-- A page frame: the page's offset and its data. -/
abbrev PageFrame : Type := Nat × List UInt8

/-- A committed transaction as it stands in a file. -/
structure TxImage where
  frames : List PageFrame
  flags : Bool
  dbFileSize : Nat
  /-- pages that the committing connection had cut off again -/
  dropped : List Nat

/-- A file header and the transactions behind it. -/
structure Generation where
  header : FileHeader
  txs : List TxImage

/-- The log and where its parts are. -/
structure Wal where
  past : List TxImage
  prev : Option Generation
  head : Generation

def frameCells (h : FileHeader) (f : PageFrame) : List Cell :=
  (frameHeader .page false (encodeSize f.2.length) f.1 h f.2).cells ++ payloadCells f.2

def framesCells (h : FileHeader) (fs : List PageFrame) : List Cell := fs.flatMap (frameCells h)

def commitCells (h : FileHeader) (flags : Bool) (dbFileSize : Nat) : List Cell :=
  (frameHeader .commit flags 0 dbFileSize h []).cells

def endCells (h : FileHeader) : List Cell := (frameHeader .end false 0 0 h []).cells

def TxImage.cells (h : FileHeader) (t : TxImage) : List Cell :=
  framesCells h t.frames ++ commitCells h t.flags t.dbFileSize

def Generation.cells (g : Generation) : List Cell :=
  g.header.cells ++ g.txs.flatMap (TxImage.cells g.header)

/-- The cells in front of the `k`-th transaction. -/
def Generation.before (g : Generation) (k : Nat) : List Cell :=
  g.header.cells ++ (g.txs.take k).flatMap (TxImage.cells g.header)

/-- The offset of the `k`-th transaction. -/
def Generation.offsetOf (g : Generation) (k : Nat) : Nat := (g.before k).length

def Wal.gens (wal : Wal) : List Generation := wal.prev.toList ++ [wal.head]

/-- Every committed transaction, in order; the first one has the id 1. -/
def Wal.log (wal : Wal) : List TxImage := wal.past ++ wal.gens.flatMap Generation.txs

/-! ## §2. Lengths. -/

@[simp] theorem length_fileHeader_cells (h : FileHeader) : h.cells.length = 32 := by
  simp [FileHeader.cells]

@[simp] theorem length_frameHeader_cells (h : FrameHeader) : h.cells.length = 32 := by
  simp [FrameHeader.cells]

@[simp] theorem length_payloadCells (data : List UInt8) :
    (payloadCells data).length = data.length := by
  simp [payloadCells]

theorem length_frameCells (h : FileHeader) (f : PageFrame) :
    (frameCells h f).length = 32 + f.2.length := by
  simp [frameCells]

@[simp] theorem length_commitCells (h : FileHeader) (flags : Bool) (n : Nat) :
    (commitCells h flags n).length = 32 := by
  simp [commitCells]

@[simp] theorem length_endCells (h : FileHeader) : (endCells h).length = 32 := by
  simp [endCells]

theorem framesCells_append (h : FileHeader) (fs gs : List PageFrame) :
    framesCells h (fs ++ gs) = framesCells h fs ++ framesCells h gs := by
  simp [framesCells]

theorem framesCells_concat (h : FileHeader) (fs : List PageFrame) (f : PageFrame) :
    framesCells h (fs ++ [f]) = framesCells h fs ++ frameCells h f := by
  simp [framesCells]

@[simp] theorem Generation.offsetOf_zero (g : Generation) : g.offsetOf 0 = 32 := by
  simp [Generation.offsetOf, Generation.before]

theorem Generation.before_length (g : Generation) : g.before g.txs.length = g.cells := by
  simp [Generation.before, Generation.cells]

theorem Generation.before_succ {g : Generation} {k : Nat} {t : TxImage}
    (ht : g.txs[k]? = some t) : g.before (k + 1) = g.before k ++ t.cells g.header := by
  unfold Generation.before
  rw [List.take_add_one, ht, List.flatMap_append, List.append_assoc]
  simp

theorem Generation.before_prefix (g : Generation) (k : Nat) : g.before k <+: g.cells := by
  have hcat : g.cells = g.before k ++ (g.txs.drop k).flatMap (TxImage.cells g.header) := by
    unfold Generation.before Generation.cells
    rw [List.append_assoc, ← List.flatMap_append, List.take_append_drop]
  rw [hcat]
  exact List.prefix_append _ _

theorem Generation.before_le {g : Generation} {j k : Nat} (h : j ≤ k) : g.before j <+: g.before k := by
  have htake : g.txs.take j = (g.txs.take k).take j := by
    rw [List.take_take, Nat.min_eq_left h]
  have hcat : g.before k
      = g.before j ++ ((g.txs.take k).drop j).flatMap (TxImage.cells g.header) := by
    unfold Generation.before
    rw [htake, List.append_assoc, ← List.flatMap_append, List.take_append_drop]
  rw [hcat]
  exact List.prefix_append _ _

theorem Generation.offsetOf_succ {g : Generation} {k : Nat} {t : TxImage}
    (ht : g.txs[k]? = some t) :
    g.offsetOf (k + 1) = g.offsetOf k + (framesCells g.header t.frames).length + 32 := by
  unfold Generation.offsetOf
  rw [g.before_succ ht]
  simp [TxImage.cells, Nat.add_assoc]

/-- The generation with one more transaction. -/
def Generation.append (g : Generation) (t : TxImage) : Generation :=
  { g with txs := g.txs ++ [t] }

theorem Generation.cells_append (g : Generation) (t : TxImage) :
    (g.append t).cells = g.cells ++ t.cells g.header := by
  simp [Generation.append, Generation.cells]

theorem Generation.before_append {g : Generation} {k : Nat} (t : TxImage)
    (hk : k ≤ g.txs.length) : (g.append t).before k = g.before k := by
  simp [Generation.append, Generation.before, List.take_append_of_le_length hk]

theorem Generation.offsetOf_append {g : Generation} {k : Nat} (t : TxImage)
    (hk : k ≤ g.txs.length) : (g.append t).offsetOf k = g.offsetOf k := by
  unfold Generation.offsetOf
  rw [Generation.before_append t hk]

/-! ## §3. Well-formed logs. -/

/-- A frame whose size a header can state. -/
structure PageFrame.Wf (f : PageFrame) : Prop where
  aligned : f.2.length % 8 = 0
  bounded : f.2.length ≤ 65536

/-- A transaction has page 1, in frames of a size that a header can state. -/
structure TxImage.Wf (t : TxImage) : Prop where
  frames : ∀ f ∈ t.frames, PageFrame.Wf f
  page1 : ∃ data, (0, data) ∈ t.frames

/-- The ids and the salts of the generations follow each other. -/
structure Wal.Wf (wal : Wal) : Prop where
  txs : ∀ g ∈ wal.gens, ∀ t ∈ g.txs, t.Wf
  prev_id : ∀ g, wal.prev = some g →
    g.header.nextTxId = wal.past.length + 1 ∧ wal.head.header.nextTxId
      = wal.past.length + g.txs.length + 1
  prev_salt : ∀ g, wal.prev = some g → wal.head.header.salt1 = g.header.salt1 + 1
  head_id : wal.prev = none → wal.head.header.nextTxId = wal.past.length + 1

def Cell.isCommit : Cell → Prop
  | .frameHeader h _ => h.frameType = .commit
  | _ => False

/-- The files hold the generations of the log. -/
structure OnDisk (wal : Wal) (st : Store) : Prop where
  head : wal.head.cells <+: (st.wa (handleOf wal.head.header.salt1)).cells
  tail : ∀ cell ∈ (st.wa (handleOf wal.head.header.salt1)).cells.drop wal.head.cells.length,
    ¬cell.isCommit
  prev : ∀ g, wal.prev = some g →
    g.cells ++ endCells g.header <+: (st.wa (handleOf g.header.salt1)).cells
  gone : wal.prev = none → (st.wa (!handleOf wal.head.header.salt1)).cells = []

theorem mem_gens {wal : Wal} {g : Generation} :
    g ∈ wal.gens ↔ wal.prev = some g ∨ g = wal.head := by
  simp [Wal.gens, Option.mem_toList]

theorem head_mem_gens (wal : Wal) : wal.head ∈ wal.gens := mem_gens.mpr (.inr rfl)

theorem handleOf_succ (salt : BitVec 32) : handleOf (salt + 1) = !handleOf salt := by
  have hlt := salt.isLt
  have hnat : (salt + 1).toNat % 2 = (salt.toNat + 1) % 2 := by
    rw [BitVec.toNat_add]
    show (salt.toNat + 1) % 2 ^ 32 % 2 = (salt.toNat + 1) % 2
    omega
  unfold handleOf
  rw [hnat]
  rcases Nat.mod_two_eq_zero_or_one salt.toNat with h | h
  · have h' : (salt.toNat + 1) % 2 = 1 := by omega
    rw [h, h']
    rfl
  · have h' : (salt.toNat + 1) % 2 = 0 := by omega
    rw [h, h']
    rfl

/-- The other file than that of the head is the one of the previous
generation. -/
theorem Wal.Wf.prev_handle {wal : Wal} (hwf : wal.Wf) {g : Generation}
    (hg : wal.prev = some g) :
    handleOf g.header.salt1 = !handleOf wal.head.header.salt1 := by
  rw [hwf.prev_salt g hg, handleOf_succ, Bool.not_not]

/-- A generation's cells are a prefix of its file. -/
theorem OnDisk.gen {wal : Wal} {st : Store} (hdisk : OnDisk wal st) {g : Generation}
    (hg : g ∈ wal.gens) : g.cells <+: (st.wa (handleOf g.header.salt1)).cells := by
  rcases mem_gens.mp hg with hprev | rfl
  · exact (List.prefix_append _ _).trans (hdisk.prev g hprev)
  · exact hdisk.head

/-! ## §4. Reading headers. -/

theorem fileHeader_cells_cons (h : FileHeader) :
    ∃ rest, h.cells = .fileHeader h 0 :: rest := by
  refine ⟨(List.range' 1 31).map (.fileHeader h), ?_⟩
  unfold FileHeader.cells
  rw [List.range_eq_range', show List.range' 0 32 = 0 :: List.range' 1 31 from rfl]
  rfl

theorem frameHeader_cells_cons (h : FrameHeader) :
    ∃ rest, h.cells = .frameHeader h 0 :: rest := by
  refine ⟨(List.range' 1 31).map (.frameHeader h), ?_⟩
  unfold FrameHeader.cells
  rw [List.range_eq_range', show List.range' 0 32 = 0 :: List.range' 1 31 from rfl]
  rfl

theorem readFrameHeader_cells (h : FrameHeader) : readFrameHeader h.cells = some h := by
  obtain ⟨rest, hcells⟩ := frameHeader_cells_cons h
  unfold readFrameHeader
  rw [hcells]
  simp [hcells]

/-- A header that is read back is there. -/
theorem readFrameHeader_eq_some {cells : List Cell} {h : FrameHeader}
    (hread : readFrameHeader cells = some h) : cells = h.cells := by
  unfold readFrameHeader at hread
  split at hread
  next h' i rest =>
    split at hread
    next heq =>
      obtain rfl := Option.some.inj hread
      exact heq
    next => exact absurd hread (by simp)
  next => exact absurd hread (by simp)

theorem readFileHeader_of_prefix {file : WaFile} {h : FileHeader} (hpre : h.cells <+: file.cells) :
    readFileHeader file = some h := by
  have hread : readAt file.cells 0 fileHeaderSize = h.cells :=
    readAt_of_prefix (a := []) hpre rfl (length_fileHeader_cells h)
  obtain ⟨rest, hcells⟩ := fileHeader_cells_cons h
  unfold readFileHeader
  rw [hread, hcells]
  simp [hcells]

theorem readFileHeader_nil {file : WaFile} (h : file.cells = []) : readFileHeader file = none := by
  unfold readFileHeader
  rw [h]
  rfl

theorem Generation.header_prefix (g : Generation) : g.header.cells <+: g.cells :=
  List.prefix_append _ _

/-- What the other file than a generation's holds. -/
theorem OnDisk.other_header {wal : Wal} {st : Store} (hdisk : OnDisk wal st) (hwf : wal.Wf) :
    readFileHeader (st.wa (!handleOf wal.head.header.salt1))
      = wal.prev.map Generation.header := by
  cases hprev : wal.prev with
  | none => exact readFileHeader_nil (hdisk.gone hprev)
  | some g =>
      rw [← hwf.prev_handle hprev]
      exact readFileHeader_of_prefix
        (g.header_prefix.trans (hdisk.gen (mem_gens.mpr (.inl hprev))))

theorem OnDisk.head_header {wal : Wal} {st : Store} (hdisk : OnDisk wal st) :
    readFileHeader (st.wa (handleOf wal.head.header.salt1)) = some wal.head.header :=
  readFileHeader_of_prefix (wal.head.header_prefix.trans hdisk.head)

/-! ## §5. Reading one frame. -/

theorem decodeSize_encodeSize {n : Nat} (haligned : n % 8 = 0) (hbounded : n ≤ 65536) :
    decodeSize (encodeSize n) = n := by
  unfold encodeSize decodeSize
  by_cases hmax : n = 65536
  · rw [if_pos hmax, if_pos rfl, hmax]
  · rw [if_neg hmax, Nat.mod_eq_of_lt (by omega), if_neg (by omega)]

theorem toByte_payloadCells (data : List UInt8) : (payloadCells data).map Cell.toByte = data := by
  unfold payloadCells
  rw [List.map_map]
  exact List.map_id data

section ReadFrame

variable {st : Store} {c : Conn} {h : FileHeader} {pre : List Cell} {offset : Nat}

theorem readFrame_page {f : PageFrame}
    (hpre : pre ++ frameCells h f <+: (st.wa c.activeHandle).cells) (hoffset : pre.length = offset)
    (hheader : c.activeHeader = h) (hwf : PageFrame.Wf f) :
    readFrame st c offset = some (.page f.1 f.2) := by
  obtain ⟨o, data⟩ := f
  obtain ⟨haligned, hbounded⟩ := hwf
  have hsize := decodeSize_encodeSize haligned hbounded
  have hhead : readAt (st.wa c.activeHandle).cells offset frameHeaderSize
      = (frameHeader .page false (encodeSize data.length) o h data).cells := by
    refine readAt_of_prefix (List.IsPrefix.trans ?_ hpre) hoffset (length_frameHeader_cells _)
    exact (List.prefix_append_right_inj _).mpr (List.prefix_append _ _)
  have hpayload : readAt (st.wa c.activeHandle).cells (offset + frameHeaderSize) data.length
      = payloadCells data := by
    refine readAt_of_prefix (a := pre ++ (frameHeader .page false (encodeSize data.length) o h
      data).cells) ?_ (by simp [hoffset]) (length_payloadCells data)
    rw [List.append_assoc]
    exact hpre
  unfold readFrame
  simp only [hhead, readFrameHeader_cells]
  rw [if_neg (by simp [frameHeader, hheader])]
  have hpayload' : readAt (st.wa c.activeHandle).cells (offset + frameHeaderSize)
      (decodeSize (frameHeader .page false (encodeSize data.length) o h data).size)
        = payloadCells data := by
    show readAt _ _ (decodeSize (encodeSize data.length)) = _
    rw [hsize, hpayload]
  have hlen : decodeSize (frameHeader .page false (encodeSize data.length) o h data).size
      = data.length := hsize
  rw [hpayload', if_neg (by rw [hlen]; simp), toByte_payloadCells, hheader, if_neg (by
    intro hne
    exact hne rfl)]
  rfl

/-- A frame without a payload. -/
theorem readFrame_bare {frameType : FrameType} {flags : Bool} {info : Nat}
    (hpre : pre ++ (frameHeader frameType flags 0 info h []).cells
      <+: (st.wa c.activeHandle).cells)
    (hoffset : pre.length = offset) (hheader : c.activeHeader = h) :
    readFrame st c offset = frameOf st c (frameHeader frameType flags 0 info h []) [] := by
  have hhead : readAt (st.wa c.activeHandle).cells offset frameHeaderSize
      = (frameHeader frameType flags 0 info h []).cells :=
    readAt_of_prefix hpre hoffset (length_frameHeader_cells _)
  have hpayload : readAt (st.wa c.activeHandle).cells (offset + frameHeaderSize)
      (decodeSize (frameHeader frameType flags 0 info h []).size) = [] := by
    show readAt _ _ 0 = []
    simp [readAt]
  unfold readFrame
  simp only [hhead, readFrameHeader_cells]
  rw [if_neg (by simp [frameHeader, hheader]), hpayload, if_neg (by
    show ¬([] : List Cell).length ≠ 0
    simp), hheader, if_neg (by
    intro hne
    exact hne rfl)]
  rfl

theorem readFrame_commit {flags : Bool} {dbFileSize : Nat}
    (hpre : pre ++ commitCells h flags dbFileSize <+: (st.wa c.activeHandle).cells)
    (hoffset : pre.length = offset) (hheader : c.activeHeader = h) :
    readFrame st c offset = some (.commit flags dbFileSize) :=
  readFrame_bare hpre hoffset hheader

theorem frameOf_commit {fh : FrameHeader} {payloadData : List UInt8} {flags : Bool} {n : Nat}
    (hread : frameOf st c fh payloadData = some (.commit flags n)) : fh.frameType = .commit := by
  unfold frameOf at hread
  cases htype : fh.frameType with
  | page => simp [htype] at hread
  | commit => rfl
  | «end» =>
      simp only [htype] at hread
      split at hread
      next => exact absurd hread (by simp)
      next => split at hread <;> exact absurd hread (by simp)

/-- An end frame counts only with the next file's header. -/
theorem frameOf_end {fh : FrameHeader} {payloadData : List UInt8} {fileHeader : FileHeader}
    (hread : frameOf st c fh payloadData = some (.end fileHeader)) :
    readFileHeader (st.wa (!c.activeHandle)) = some fileHeader ∧
      fileHeader.salt1 = c.activeHeader.salt1 + 1 := by
  unfold frameOf at hread
  cases htype : fh.frameType with
  | page => simp [htype] at hread
  | commit => simp [htype] at hread
  | «end» =>
      simp only [htype] at hread
      split at hread
      next => exact absurd hread (by simp)
      next next' hnext =>
        split at hread
        next => exact absurd hread (by simp)
        next hsalt =>
          obtain rfl : next' = fileHeader := by simpa using hread
          exact ⟨hnext, by simpa using hsalt⟩

/-- A frame that is read begins with a cell of its header. -/
theorem readFrame_cell {frame : Frame} (hread : readFrame st c offset = some frame) :
    ∃ fh : FrameHeader, (st.wa c.activeHandle).cells[offset]? = some (.frameHeader fh 0) ∧
      ∃ payloadData, frameOf st c fh payloadData = some frame := by
  unfold readFrame at hread
  simp only [] at hread
  split at hread
  next => exact absurd hread (by simp)
  next fh hfh =>
    have hcells := readFrameHeader_eq_some hfh
    obtain ⟨rest, hcons⟩ := frameHeader_cells_cons fh
    refine ⟨fh, ?_, ?_⟩
    · have hfirst : (readAt (st.wa c.activeHandle).cells offset frameHeaderSize)[0]? = _ :=
        getElem?_readAt 0
      rw [hcells, hcons] at hfirst
      simpa using hfirst.symm
    · split at hread
      next => exact absurd hread (by simp)
      next =>
        split at hread
        next => exact absurd hread (by simp)
        next =>
          split at hread
          next => exact absurd hread (by simp)
          next => exact ⟨_, hread⟩

end ReadFrame

/-! ## §6. The pages of a transaction. -/

/-- The entry is that of the last frame of page `o` among the frames from
`start` on. -/
def IsEntry (h : FileHeader) (start : Nat) (fs : List PageFrame) (o : Nat) (e : PageEntry) : Prop :=
  ∃ fs1 data fs2, fs = fs1 ++ (o, data) :: fs2 ∧ (∀ f ∈ fs2, f.1 ≠ o) ∧
    e.waOffset = start + (framesCells h fs1).length + 32 ∧ e.waSalt1 = h.salt1 ∧
    e.pageSize = data.length ∧ ∀ cached, e.pageData = some cached → cached = data

/-- Every page of the map is that of a frame. -/
def PagesOf (h : FileHeader) (start : Nat) (fs : List PageFrame) (pages : JsMap PageEntry) : Prop :=
  ∀ o e, pages.lookup o = some e → IsEntry h start fs o e

theorem PagesOf.empty (h : FileHeader) (start : Nat) (fs : List PageFrame) :
    PagesOf h start fs ∅ := by
  intro o e he
  rw [AList.lookup_empty] at he
  exact absurd he (by simp)

/-- One more frame, and its entry in the map. -/
theorem PagesOf.insert {h : FileHeader} {start : Nat} {fs : List PageFrame}
    {pages : JsMap PageEntry} (hpages : PagesOf h start fs pages) (f : PageFrame)
    {cached : Option (List UInt8)} (hcached : ∀ data, cached = some data → data = f.2) :
    PagesOf h start (fs ++ [f]) (pages.insert f.1
      ⟨start + (framesCells h fs).length + 32, h.salt1, f.2.length, cached⟩) := by
  intro o e he
  by_cases ho : o = f.1
  · subst ho
    rw [AList.lookup_insert] at he
    obtain rfl := Option.some.inj he
    exact ⟨fs, f.2, [], rfl, by simp, rfl, rfl, rfl, hcached⟩
  · rw [AList.lookup_insert_ne ho] at he
    obtain ⟨fs1, data, fs2, hfs, hlast, hrest⟩ := hpages o e he
    refine ⟨fs1, data, fs2 ++ [f], by rw [hfs]; simp, ?_, hrest⟩
    intro f' hf'
    rcases List.mem_append.mp hf' with hmem | hmem
    · exact hlast f' hmem
    · rw [List.mem_singleton.mp hmem]
      exact fun h' => ho h'.symm

/-- Fewer pages. -/
theorem PagesOf.mono {h : FileHeader} {start : Nat} {fs : List PageFrame}
    {pages pages' : JsMap PageEntry} (hpages : PagesOf h start fs pages)
    (hsub : ∀ o e, pages'.lookup o = some e → pages.lookup o = some e) :
    PagesOf h start fs pages' :=
  fun o e he => hpages o e (hsub o e he)

/-- The map that `#readTx` collects from frames. -/
def collect (h : FileHeader) : JsMap PageEntry → Nat → List PageFrame → JsMap PageEntry
  | pages, _, [] => pages
  | pages, offset, f :: fs =>
      collect h (pages.insert f.1 ⟨offset + frameHeaderSize, h.salt1, f.2.length, none⟩)
        (offset + frameHeaderSize + f.2.length) fs

theorem collect_pagesOf {h : FileHeader} {start : Nat} (fs : List PageFrame)
    {fs0 : List PageFrame} {pages : JsMap PageEntry} (hpages : PagesOf h start fs0 pages) :
    PagesOf h start (fs0 ++ fs) (collect h pages (start + (framesCells h fs0).length) fs) := by
  induction fs generalizing fs0 pages with
  | nil =>
      rw [List.append_nil]
      exact hpages
  | cons f fs ih =>
      have hinsert : PagesOf h start (fs0 ++ [f]) (pages.insert f.1
          ⟨start + (framesCells h fs0).length + 32, h.salt1, f.2.length, none⟩) :=
        hpages.insert f fun _ h' => absurd h' (by simp)
      have hnext := ih hinsert
      rw [framesCells_concat, List.length_append, length_frameCells] at hnext
      rw [show fs0 ++ f :: fs = (fs0 ++ [f]) ++ fs by simp]
      unfold collect
      have hoffset : start + (framesCells h fs0).length + frameHeaderSize + f.2.length
          = start + ((framesCells h fs0).length + (32 + f.2.length)) := by
        show start + (framesCells h fs0).length + 32 + f.2.length = _
        omega
      rw [hoffset]
      exact hnext

theorem collect_complete {h : FileHeader} (fs : List PageFrame) {pages : JsMap PageEntry}
    {offset o : Nat} (hin : (pages.lookup o).isSome ∨ ∃ f ∈ fs, f.1 = o) :
    ((collect h pages offset fs).lookup o).isSome := by
  induction fs generalizing pages offset with
  | nil =>
      rcases hin with hin | ⟨f, hf, -⟩
      · exact hin
      · exact absurd hf (by simp)
  | cons f fs ih =>
      unfold collect
      apply ih
      by_cases ho : o = f.1
      · subst ho
        exact .inl (by rw [AList.lookup_insert]; rfl)
      · rcases hin with hin | ⟨f', hf', hf'o⟩
        · exact .inl (by rw [AList.lookup_insert_ne ho]; exact hin)
        · rcases List.mem_cons.mp hf' with rfl | hmem
          · exact absurd hf'o.symm ho
          · exact .inr ⟨f', hmem, hf'o⟩

/-- The transaction that `#readTx` makes of a committed one. -/
def TxImage.asRead (t : TxImage) (id : Nat) (h : FileHeader) (start : Nat) : Transaction where
  id := id
  pages := collect h ∅ start t.frames
  dbFileSize := t.dbFileSize
  newPageSize :=
    if t.flags then ((collect h ∅ start t.frames).lookup 0).map PageEntry.pageSize else none
  waSalt1 := h.salt1
  waOffsetEnd := start + (framesCells h t.frames).length + frameHeaderSize

/-! ## §7. Reading a transaction. -/

section ReadTx

variable {w : World} {pages : JsMap PageEntry} {offset fuel : Nat}

theorem readTxFrom_none (hread : readFrame w.store w.conn offset = none) :
    readTxFrom (fuel + 1) pages offset w = .ok none w := by
  simp only [readTxFrom, bind, EStateM.bind, get, getThe, MonadStateOf.get, EStateM.get, hread]
  rfl

theorem readTxFrom_page {o : Nat} {data : List UInt8}
    (hread : readFrame w.store w.conn offset = some (.page o data)) :
    readTxFrom (fuel + 1) pages offset w
      = readTxFrom fuel (pages.insert o ⟨offset + frameHeaderSize, w.conn.activeHeader.salt1,
          data.length, none⟩) (offset + frameHeaderSize + data.length) w := by
  simp only [readTxFrom, bind, EStateM.bind, get, getThe, MonadStateOf.get, EStateM.get, hread]

theorem readTxFrom_commit {flags : Bool} {dbFileSize : Nat}
    (hread : readFrame w.store w.conn offset = some (.commit flags dbFileSize))
    (hflags : flags = true → (pages.lookup 0).isSome) :
    readTxFrom (fuel + 1) pages offset w
      = .ok (some ⟨w.conn.txId + 1, pages, dbFileSize,
          if flags then (pages.lookup 0).map PageEntry.pageSize else none,
          w.conn.activeHeader.salt1, offset + frameHeaderSize⟩)
        { w with conn := { w.conn with
          txId := w.conn.txId + 1, activeOffset := offset + frameHeaderSize } } := by
  simp only [readTxFrom, bind, EStateM.bind, get, getThe, MonadStateOf.get, EStateM.get, hread,
    setConn, set, EStateM.set]
  cases flags with
  | false => rfl
  | true =>
      obtain ⟨e, he⟩ := Option.isSome_iff_exists.mp (hflags rfl)
      simp only [if_true, he]
      rfl

theorem readTxFrom_end {fileHeader : FileHeader}
    (hread : readFrame w.store w.conn offset = some (.end fileHeader)) :
    readTxFrom (fuel + 1) pages offset w
      = readTxFrom fuel pages fileHeaderSize { w with conn := { w.conn with
          activeHandle := !w.conn.activeHandle
          activeHeader := fileHeader
          activeOffset := fileHeaderSize } } := by
  simp only [readTxFrom, bind, EStateM.bind, get, getThe, MonadStateOf.get, EStateM.get, hread,
    followFileChange, Option.map_some, setConn, set, EStateM.set]

/-- Reading over the page frames of a transaction. -/
theorem readTxFrom_frames {h : FileHeader} (hheader : w.conn.activeHeader = h)
    (fs : List PageFrame) (hwf : ∀ f ∈ fs, PageFrame.Wf f) {pre : List Cell}
    (hpre : pre ++ framesCells h fs <+: (w.store.wa w.conn.activeHandle).cells)
    (hoffset : pre.length = offset) :
    readTxFrom (fs.length + fuel) pages offset w
      = readTxFrom fuel (collect h pages offset fs) (offset + (framesCells h fs).length) w := by
  induction fs generalizing pages offset pre with
  | nil => simp [collect, framesCells]
  | cons f fs ih =>
      have hcons : framesCells h (f :: fs) = frameCells h f ++ framesCells h fs := by
        simp [framesCells]
      rw [hcons, ← List.append_assoc] at hpre
      have hread : readFrame w.store w.conn offset = some (.page f.1 f.2) :=
        readFrame_page ((List.prefix_append _ _).trans hpre) hoffset hheader
          (hwf f List.mem_cons_self)
      have hstart : (pre ++ frameCells h f).length = offset + frameHeaderSize + f.2.length := by
        rw [List.length_append, length_frameCells, hoffset]
        show _ = offset + 32 + _
        omega
      have hrest : ∀ f' ∈ fs, PageFrame.Wf f' :=
        fun f' hf' => hwf f' (List.mem_cons_of_mem f hf')
      have hnext := @ih (pages.insert f.1 ⟨offset + frameHeaderSize, h.salt1, f.2.length, none⟩)
        _ hrest _ hpre hstart
      rw [List.length_cons, show fs.length + 1 + fuel = (fs.length + fuel) + 1 by omega,
        readTxFrom_page hread, hheader, hnext, hcons, List.length_append, length_frameCells]
      have hcollect : collect h pages offset (f :: fs) = collect h (pages.insert f.1
          ⟨offset + frameHeaderSize, h.salt1, f.2.length, none⟩)
          (offset + frameHeaderSize + f.2.length) fs := rfl
      have hend : offset + frameHeaderSize + f.2.length + (framesCells h fs).length
          = offset + (32 + f.2.length + (framesCells h fs).length) := by
        show offset + 32 + f.2.length + _ = _
        omega
      rw [hcollect, hend]

theorem length_le_framesCells (h : FileHeader) (fs : List PageFrame) :
    fs.length ≤ (framesCells h fs).length := by
  induction fs with
  | nil => simp
  | cons f fs ih =>
      have hcons : framesCells h (f :: fs) = frameCells h f ++ framesCells h fs := by
        simp [framesCells]
      rw [hcons, List.length_append, length_frameCells, List.length_cons]
      omega

/-- Reading a whole transaction. -/
theorem readTxFrom_tx {h : FileHeader} (hheader : w.conn.activeHeader = h) {t : TxImage}
    (hwf : t.Wf) {pre : List Cell}
    (hpre : pre ++ t.cells h <+: (w.store.wa w.conn.activeHandle).cells)
    (hoffset : pre.length = offset) (hfuel : t.frames.length < fuel) :
    readTxFrom fuel ∅ offset w
      = .ok (some (t.asRead (w.conn.txId + 1) h offset))
        { w with conn := { w.conn with
          txId := w.conn.txId + 1
          activeOffset := offset + (framesCells h t.frames).length + frameHeaderSize } } := by
  have hsplit : pre ++ framesCells h t.frames ++ commitCells h t.flags t.dbFileSize
      <+: (w.store.wa w.conn.activeHandle).cells := by
    rw [List.append_assoc]
    exact hpre
  obtain ⟨rest, rfl⟩ : ∃ rest, fuel = t.frames.length + (rest + 1) :=
    ⟨fuel - t.frames.length - 1, by omega⟩
  rw [readTxFrom_frames hheader t.frames hwf.frames ((List.prefix_append _ _).trans hsplit) hoffset]
  have hcommit : readFrame w.store w.conn (offset + (framesCells h t.frames).length)
      = some (.commit t.flags t.dbFileSize) :=
    readFrame_commit hsplit (by rw [List.length_append, hoffset]) hheader
  obtain ⟨data, hpage1⟩ := hwf.page1
  rw [readTxFrom_commit hcommit
    (fun _ => collect_complete t.frames (.inr ⟨(0, data), hpage1, rfl⟩)), hheader]
  rfl

/-- Where no commit frame follows and no end frame counts, nothing is read. -/
theorem readTxFrom_tail
    (hcommit : ∀ p, offset ≤ p → ∀ fh i,
      (w.store.wa w.conn.activeHandle).cells[p]? = some (.frameHeader fh i) →
      fh.frameType ≠ .commit)
    (hend : ∀ fileHeader, readFileHeader (w.store.wa (!w.conn.activeHandle)) = some fileHeader →
      fileHeader.salt1 ≠ w.conn.activeHeader.salt1 + 1)
    (hpos : 0 < fuel)
    (hfuel : (w.store.wa w.conn.activeHandle).cells.length < offset + fuel) :
    readTxFrom fuel pages offset w = .ok none w := by
  induction fuel generalizing pages offset with
  | zero => exact absurd hpos (by simp)
  | succ fuel ih =>
      cases hread : readFrame w.store w.conn offset with
      | none => exact readTxFrom_none hread
      | some frame =>
          obtain ⟨fh, hcell, payloadData, hframe⟩ := readFrame_cell hread
          have hlt : offset < (w.store.wa w.conn.activeHandle).cells.length :=
            (List.getElem?_eq_some_iff.mp hcell).1
          match frame with
          | .page o data =>
              rw [readTxFrom_page hread]
              refine ih (fun p hp => hcommit p ?_) (by omega) ?_
              · have : offset ≤ offset + frameHeaderSize + data.length := by
                  rw [Nat.add_assoc]
                  exact Nat.le_add_right _ _
                omega
              · have : offset + 32 ≤ offset + frameHeaderSize + data.length :=
                  Nat.le_add_right _ _
                omega
          | .commit flags n =>
              exact absurd (frameOf_commit hframe) (hcommit offset (Nat.le_refl _) fh 0 hcell)
          | .end fileHeader =>
              obtain ⟨hother, hsalt⟩ := frameOf_end hframe
              exact absurd hsalt (hend fileHeader hother)

end ReadTx

end MemoryWriteAhead.WriteAhead
