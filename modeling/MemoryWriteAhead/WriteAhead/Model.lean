/-
  MemoryWriteAhead.WriteAhead.Model
  ─────────────────────────────────
  **THE WRITE-AHEAD LOG OF ONE CONNECTION.**

  `vendor/WriteAhead.js`: the class `WriteAhead` over its two log files and the
  database file.  Code that changes the instance or a file is an `EStateM`
  program over `World`: what it has done before it throws stays done.

  The files are zero-filled and a write beyond a file's capacity throws.  The cells
  of the log files are bytes that remember which header they belong to: a header is read
  back only where one has been written whole and not been overwritten since.
  That is the part of the checksums and salts that the code relies on; salts
  are compared, and the checksum over a payload is computed, as in the source.

  Left to the caller: random salts, whether the backstop is due, the order of
  messages, and when the parts of `checkpoint` between two `await`s run.  The
  log output, the flushes and the published lock names are left out.
-/
import MemoryWriteAhead.Library.ZeroFile
import MemoryWriteAhead.Library.Outcome

namespace MemoryWriteAhead.WriteAhead

open ZeroFile

/-! ## §1. Headers, checksums and cells. -/

abbrev fileHeaderSize : Nat := 32
abbrev frameHeaderSize : Nat := 32

def magic : Nat := 0x377f0684
def defaultJournalSizeLimit : Int := 1000

/-- A number in `len` bytes, the most significant first. -/
def bigEndian (len n : Nat) : List UInt8 :=
  (List.range len).map fun i => UInt8.ofNat (n / 256 ^ (len - 1 - i))

/-- `getUint32` at `offset`. -/
def getUint32 (bytes : List UInt8) (offset : Nat) : Nat :=
  ((bytes.drop offset).take 4).foldl (fun n b => 256 * n + b.toNat) 0

structure Checksum where
  s0 : BitVec 32
  s1 : BitVec 32
  deriving DecidableEq, Repr

/-- One element of a `Uint32Array` over the bytes. -/
def word (a b c d : UInt8) : BitVec 32 :=
  BitVec.ofNat 32 (a.toNat + 256 * b.toNat + 65536 * c.toNat + 16777216 * d.toNat)

def Checksum.update (sum : Checksum) : List UInt8 → Checksum
  | a :: b :: c :: d :: e :: f :: g :: h :: rest =>
      let s0 := sum.s0 + word a b c d + sum.s1
      let s1 := sum.s1 + word e f g h + s0
      Checksum.update ⟨s0, s1⟩ rest
  | _ => sum

def Checksum.bytes (sum : Checksum) : List UInt8 :=
  bigEndian 4 sum.s0.toNat ++ bigEndian 4 sum.s1.toNat

/-- What `#readFileHeader` returns. -/
structure FileHeader where
  nextTxId : Nat
  salt1 : BitVec 32
  salt2 : BitVec 32
  deriving DecidableEq, Repr

def FileHeader.bytes (h : FileHeader) : List UInt8 :=
  let fields := bigEndian 4 magic ++ bigEndian 4 0 ++ bigEndian 8 h.nextTxId
    ++ bigEndian 4 h.salt1.toNat ++ bigEndian 4 h.salt2.toNat
  fields ++ (Checksum.update ⟨0, 0⟩ fields).bytes

inductive FrameType where
  | page
  | commit
  | end
  deriving DecidableEq, Repr

def FrameType.code : FrameType → Nat
  | .page => 0
  | .commit => 1
  | .end => 2

/-- The fields of a frame header. -/
structure FrameHeader where
  frameType : FrameType
  /-- the transaction changes the page size -/
  flags : Bool
  /-- the `Uint16` of the payload size -/
  size : Nat
  /-- the page offset or the database size -/
  info : Nat
  salt1 : BitVec 32
  salt2 : BitVec 32
  checksum : Checksum
  deriving DecidableEq, Repr

/-- The bytes of a frame header in front of its checksum. -/
def frameFields (frameType : FrameType) (flags : Bool) (size info : Nat) (file : FileHeader) :
    List UInt8 :=
  bigEndian 1 frameType.code ++ bigEndian 1 (if flags then 1 else 0) ++ bigEndian 2 size
    ++ bigEndian 4 0 ++ bigEndian 8 info ++ bigEndian 4 file.salt1.toNat
    ++ bigEndian 4 file.salt2.toNat

/-- The header of a frame in a file, with its checksum over the payload. -/
def frameHeader (frameType : FrameType) (flags : Bool) (size info : Nat) (file : FileHeader)
    (payload : List UInt8) : FrameHeader where
  frameType := frameType
  flags := flags
  size := size
  info := info
  salt1 := file.salt1
  salt2 := file.salt2
  checksum := (Checksum.update ⟨0, 0⟩ (frameFields frameType flags size info file)).update payload

def FrameHeader.bytes (h : FrameHeader) : List UInt8 :=
  frameFields h.frameType h.flags h.size h.info ⟨0, h.salt1, h.salt2⟩ ++ h.checksum.bytes

/-- The `Uint16` of a payload size, and back. -/
def encodeSize (size : Nat) : Nat := if size = 65536 then 1 else size % 65536

def decodeSize (field : Nat) : Nat := if field = 1 then 65536 else field

/-- One byte of a log file: plain, or a byte of a header. -/
inductive Cell where
  | byte (b : UInt8)
  | fileHeader (h : FileHeader) (i : Nat)
  | frameHeader (h : FrameHeader) (i : Nat)
  deriving DecidableEq, Repr

def Cell.zero : Cell := .byte 0

def Cell.toByte : Cell → UInt8
  | .byte b => b
  | .fileHeader h i => h.bytes.getD i 0
  | .frameHeader h i => h.bytes.getD i 0

def FileHeader.cells (h : FileHeader) : List Cell := (List.range fileHeaderSize).map (.fileHeader h)

def FrameHeader.cells (h : FrameHeader) : List Cell :=
  (List.range frameHeaderSize).map (.frameHeader h)

def payloadCells (data : List UInt8) : List Cell := data.map .byte

/-! ## §2. The files. -/

/-- A log file. -/
structure WaFile where
  cells : List Cell
  maxCapacityBytes : Nat
  deriving DecidableEq, Repr

/-- The two log files and the database file. -/
structure Store where
  wa : Bool → WaFile
  db : List UInt8
  /-- `maxCapacityBytes` of the database file -/
  dbMaxCapacityBytes : Nat

/-- The handle that the parity of `salt1` selects. -/
def handleOf (salt1 : BitVec 32) : Bool := salt1.toNat % 2 == 1

def Store.setWa (st : Store) (handle : Bool) (cells : List Cell) : Store :=
  { st with wa := Function.update st.wa handle { st.wa handle with cells := cells } }

/-- `#readFileHeader`. -/
def readFileHeader (file : WaFile) : Option FileHeader :=
  match readAt file.cells 0 fileHeaderSize with
  | .fileHeader h i :: rest => if .fileHeader h i :: rest = h.cells then some h else none
  | _ => none

/-- The header that the cells of a frame header spell. -/
def readFrameHeader (cells : List Cell) : Option FrameHeader :=
  match cells with
  | .frameHeader h i :: rest => if .frameHeader h i :: rest = h.cells then some h else none
  | _ => none

/-! ## §3. The instance. -/

inductive WaError where
  | alreadyIsolated
  | notReadIsolated
  | notWriteIsolated
  | invalidWalFile
  | shortWalRead (expected got : Nat)
  | unalignedData
  /-- the file's `write` throws -/
  | capacityExceeded
  /-- a property of `null` or `undefined` is read -/
  | typeError
  /-- a `DataView` is read beyond its end -/
  | rangeError
  /-- a loop takes more rounds than there are frames -/
  | outOfFuel
  deriving DecidableEq, Repr

/-- The text of an error of the class; an engine's own error has none. -/
def WaError.message : WaError → Option String
  | .alreadyIsolated => some "Already in isolated state"
  | .notReadIsolated => some "Not in read isolated state"
  | .notWriteIsolated => some "Not in write isolated state"
  | .invalidWalFile => some "invalid WAL file"
  | .shortWalRead expected got => some s!"Short WAL read: expected {expected} bytes, got {got}"
  | .unalignedData => some "Data must be a multiple of 8 bytes"
  | .capacityExceeded => none
  | .typeError => none
  | .rangeError => none
  | .outOfFuel => none

/-- `PageEntry`. -/
structure PageEntry where
  waOffset : Nat
  waSalt1 : BitVec 32
  pageSize : Nat
  pageData : Option (List UInt8)
  deriving DecidableEq, Repr

/-- A `Map` with numbers as keys. -/
abbrev JsMap (α : Type) : Type := AList fun _ : Nat => α

/-- `Transaction`. -/
structure Transaction where
  id : Nat
  pages : JsMap PageEntry
  dbFileSize : Nat
  newPageSize : Option Nat
  waSalt1 : BitVec 32
  waOffsetEnd : Nat

inductive Isolation where
  | read
  | write
  deriving DecidableEq, Repr

/-- The fields of a `WriteAhead`. -/
structure Conn where
  /-- which of the two handles is `#activeHandle` -/
  activeHandle : Bool
  activeHeader : FileHeader
  activeOffset : Nat
  txId : Nat
  txInProgress : Option Transaction
  dbFileSize : Nat
  isolationState : Option Isolation
  waOverlay : JsMap PageEntry
  mapIdToTx : JsMap Transaction
  mapIdToPendingTx : JsMap Transaction
  approxPageCount : Int
  journalSizeLimit : Int

/-- The fields before the asynchronous initialization. -/
def Conn.initial : Conn where
  activeHandle := false
  activeHeader := ⟨0, 0, 0⟩
  activeOffset := 0
  txId := 0
  txInProgress := none
  dbFileSize := 0
  isolationState := none
  waOverlay := ∅
  mapIdToTx := ∅
  mapIdToPendingTx := ∅
  approxPageCount := 0
  journalSizeLimit := defaultJournalSizeLimit

structure World where
  store : Store
  conn : Conn

/-- Code of the class. -/
abbrev WA (α : Type) : Type := EStateM WaError World α

def setConn (conn : Conn) : WA PUnit := do
  let w ← get
  set { w with conn := conn }

/-- `write` of a log file's handle. -/
def writeWa (handle : Bool) (offset : Nat) (cells : List Cell) : WA PUnit := do
  let w ← get
  let file := w.store.wa handle
  if file.maxCapacityBytes < offset + cells.length then throw .capacityExceeded
  else set { w with store := w.store.setWa handle (writeAt .zero file.cells offset cells) }

/-- `truncate` of a log file's handle to no more than its size. -/
def truncateWa (handle : Bool) (size : Nat) : WA PUnit := do
  let w ← get
  set { w with store := w.store.setWa handle (resize .zero (w.store.wa handle).cells size) }

/-- `write` of the database file's handle. -/
def writeDb (offset : Nat) (data : List UInt8) : WA PUnit := do
  let w ← get
  if w.store.dbMaxCapacityBytes < offset + data.length then throw .capacityExceeded
  else set { w with store := { w.store with db := writeAt 0 w.store.db offset data } }

/-- `truncate` of the database file's handle. -/
def truncateDb (size : Nat) : WA PUnit := do
  let w ← get
  if w.store.dbMaxCapacityBytes < size then throw .capacityExceeded
  else set { w with store := { w.store with db := resize 0 w.store.db size } }

/-! ## §4. Reading frames and transactions. -/

/-- What `#readFrame` returns. -/
inductive Frame where
  | page (pageOffset : Nat) (pageData : List UInt8)
  | commit (flags : Bool) (dbFileSize : Nat)
  | end (fileHeader : FileHeader)
  deriving DecidableEq, Repr

/-- The end of `#readFrame`, for a header and a payload that are valid. -/
def frameOf (st : Store) (c : Conn) (h : FrameHeader) (payloadData : List UInt8) : Option Frame :=
  match h.frameType with
  | .page => some (.page h.info payloadData)
  | .commit => some (.commit h.flags h.info)
  | .end =>
      -- the end frame does not exist without the next file's header
      match readFileHeader (st.wa (!c.activeHandle)) with
      | none => none
      | some fileHeader =>
          if fileHeader.salt1 ≠ c.activeHeader.salt1 + 1 then none else some (.end fileHeader)

/-- `#readFrame`. -/
def readFrame (st : Store) (c : Conn) (offset : Nat) : Option Frame :=
  let cells := (st.wa c.activeHandle).cells
  match readFrameHeader (readAt cells offset frameHeaderSize) with
  | none => none
  | some h =>
      if h.salt1 ≠ c.activeHeader.salt1 ∨ h.salt2 ≠ c.activeHeader.salt2 then none
      else
        let payload := readAt cells (offset + frameHeaderSize) (decodeSize h.size)
        let payloadData := payload.map Cell.toByte
        if payload.length ≠ decodeSize h.size then none
        else if frameHeader h.frameType h.flags h.size h.info c.activeHeader payloadData ≠ h then
          none
        else frameOf st c h payloadData

/-- `#followFileChange`; the header is read and checked where it is not given. -/
def followFileChange (st : Store) (c : Conn) (fileHeader : Option FileHeader) : Option Conn :=
  let found := match fileHeader with
    | some h => some h
    | none => (readFileHeader (st.wa (!c.activeHandle))).filter
        (fun h => h.salt1 = c.activeHeader.salt1 + 1)
  found.map fun h =>
    { c with activeHandle := !c.activeHandle, activeHeader := h, activeOffset := fileHeaderSize }

/-- More rounds than the log files have frames. -/
def Store.frameFuel (st : Store) : Nat :=
  (st.wa false).cells.length + (st.wa true).cells.length + 3

/-- The loop of `#readTx`, with the pages collected so far. -/
def readTxFrom : Nat → JsMap PageEntry → Nat → WA (Option Transaction)
  | 0, _, _ => throw .outOfFuel
  | fuel + 1, pages, offset => do
      let w ← get
      match readFrame w.store w.conn offset with
      | none => pure none
      | some (.page pageOffset pageData) =>
          readTxFrom fuel
            (pages.insert pageOffset
              ⟨offset + frameHeaderSize, w.conn.activeHeader.salt1, pageData.length, none⟩)
            (offset + frameHeaderSize + pageData.length)
      | some (.commit flags dbFileSize) =>
          let conn := { w.conn with
            txId := w.conn.txId + 1
            activeOffset := offset + frameHeaderSize }
          setConn conn
          if flags then
            match pages.lookup 0 with
            | none => throw .typeError
            | some entry =>
                pure (some ⟨conn.txId, pages, dbFileSize, some entry.pageSize,
                  conn.activeHeader.salt1, conn.activeOffset⟩)
          else
            pure (some ⟨conn.txId, pages, dbFileSize, none, conn.activeHeader.salt1,
              conn.activeOffset⟩)
      | some (.end fileHeader) =>
          match followFileChange w.store w.conn (some fileHeader) with
          | none => throw .typeError
          | some conn => do
              setConn conn
              readTxFrom fuel pages conn.activeOffset

/-- `#readTx`. -/
def readTx : WA (Option Transaction) := do
  let w ← get
  readTxFrom w.store.frameFuel ∅ w.conn.activeOffset

/-- `#activateTx`. -/
def Conn.activateTx (c : Conn) (tx : Transaction) : Conn :=
  { c with
    mapIdToTx := c.mapIdToTx.insert tx.id tx
    approxPageCount := c.approxPageCount + tx.pages.entries.length
    waOverlay := tx.pages ∪ c.waOverlay
    dbFileSize := tx.dbFileSize }

/-- `for (const tx of this.#readAllTx()) this.#activateTx(tx)`. -/
def readAllTx : Nat → WA PUnit
  | 0 => throw .outOfFuel
  | fuel + 1 => do
      match ← readTx with
      | none => pure ⟨⟩
      | some tx =>
          let w ← get
          setConn (w.conn.activateTx tx)
          readAllTx fuel

/-- `#skipTx`. -/
def skipTx (tx : Transaction) : WA PUnit := do
  let w ← get
  if tx.waSalt1 ≠ w.conn.activeHeader.salt1 then
    match followFileChange w.store w.conn none with
    | none => throw .invalidWalFile
    | some conn => setConn { conn with txId := tx.id, activeOffset := tx.waOffsetEnd }
  else setConn { w.conn with txId := tx.id, activeOffset := tx.waOffsetEnd }

/-- `while (this.#mapIdToPendingTx.size)`. -/
def drainPending : Nat → WA PUnit
  | 0 => throw .outOfFuel
  | fuel + 1 => do
      let w ← get
      if w.conn.mapIdToPendingTx.keys = [] then pure ⟨⟩
      else match w.conn.mapIdToPendingTx.lookup (w.conn.txId + 1) with
        | some tx => do
            -- it arrived via message
            setConn { w.conn with mapIdToPendingTx := w.conn.mapIdToPendingTx.erase tx.id }
            skipTx tx
            let w ← get
            setConn (w.conn.activateTx tx)
            drainPending fuel
        | none => do
            match ← readTx with
            | none => throw .typeError
            | some tx =>
                let w ← get
                setConn (w.conn.activateTx tx)
                drainPending fuel

/-- More rounds than there are pending transactions and transactions in the
files. -/
def World.pendingFuel (w : World) : Nat :=
  w.conn.mapIdToPendingTx.keys.foldl max 0 + w.store.frameFuel + 1

/-- `#advanceTxId`. -/
def advanceTxId (readToCurrent : Bool) : WA PUnit := do
  let w ← get
  drainPending w.pendingFuel
  if readToCurrent then
    let w ← get
    readAllTx w.store.frameFuel
  else pure ⟨⟩

/-! ## §5. Isolation. -/

def isolateForRead : WA PUnit := do
  let w ← get
  if w.conn.isolationState ≠ none then throw .alreadyIsolated
  else setConn { w.conn with isolationState := some .read }

def isolateForWrite : WA PUnit := do
  let w ← get
  if w.conn.isolationState ≠ none then throw .alreadyIsolated
  else do
    setConn { w.conn with isolationState := some .write }
    -- a writer needs all previous transactions assimilated
    advanceTxId true

def tryUpgradeReadIsolationToWrite : WA Bool := do
  let w ← get
  if w.conn.isolationState ≠ some .read then throw .notReadIsolated
  else if w.conn.mapIdToPendingTx.keys ≠ [] then pure false
  else if readFrame w.store w.conn w.conn.activeOffset ≠ none then pure false
  else do
    setConn { w.conn with isolationState := some .write }
    pure true

/-- `rejoin`, and the backstop if it is due. -/
def rejoin (backstopDue : Bool) : WA PUnit := do
  let w ← get
  if w.conn.isolationState = some .read then advanceTxId false else pure ⟨⟩
  let w ← get
  setConn { w.conn with isolationState := none }
  if backstopDue then advanceTxId true else pure ⟨⟩

inductive Message where
  | tx (tx : Transaction)
  | ckpt (ckptId : Nat)

/-- One transaction of the loop of `#handleCheckpoint`. -/
def Conn.forget (c : Conn) (tx : Transaction) : Conn :=
  { c with
    -- not a newer version of the page
    waOverlay := tx.pages.entries.foldl
      (fun overlay page =>
        if overlay.lookup page.1 = some page.2 then overlay.erase page.1 else overlay) c.waOverlay
    mapIdToTx := c.mapIdToTx.erase tx.id
    approxPageCount := c.approxPageCount - tx.pages.entries.length }

/-- `#handleCheckpoint`: backwards from `ckptId` as far as there are
transactions. -/
def Conn.handleCheckpoint : Nat → Conn → Conn
  | 0, c =>
      match c.mapIdToTx.lookup 0 with
      | none => c
      | some tx => c.forget tx
  | ckptId + 1, c =>
      match c.mapIdToTx.lookup (ckptId + 1) with
      | none => c
      | some tx => (c.forget tx).handleCheckpoint ckptId

/-- `#handleMessage`. -/
def handleMessage : Message → WA PUnit
  | .tx tx => do
      let w ← get
      if w.conn.txId < tx.id then do
        setConn { w.conn with mapIdToPendingTx := w.conn.mapIdToPendingTx.insert tx.id tx }
        if w.conn.isolationState = none then advanceTxId false else pure ⟨⟩
      else pure ⟨⟩
  | .ckpt ckptId => do
      let w ← get
      setConn (w.conn.handleCheckpoint ckptId)

/-! ## §6. Reading pages. -/

/-- `#fetchPage`. -/
def fetchPage (st : Store) (entry : PageEntry) : Except WaError (List UInt8) :=
  let pageData := readAt (st.wa (handleOf entry.waSalt1)).cells entry.waOffset entry.pageSize
  if pageData.length ≠ entry.pageSize then .error (.shortWalRead entry.pageSize pageData.length)
  else .ok (pageData.map Cell.toByte)

/-- The page's data, cached or fetched. -/
def PageEntry.data (st : Store) (entry : PageEntry) : Except WaError (List UInt8) :=
  match entry.pageData with
  | some pageData => .ok pageData
  | none => fetchPage st entry

/-- Where `read` finds the page. -/
def Conn.entryAt (c : Conn) (offset : Nat) : Option PageEntry :=
  ((c.txInProgress.bind fun tx => tx.pages.lookup offset)).orElse
    fun _ => c.waOverlay.lookup offset

def World.read (w : World) (offset : Nat) : Except WaError (Option (List UInt8)) :=
  match w.conn.entryAt offset with
  | none => .ok none
  | some entry => (entry.data w.store).map some

def Conn.getFileSize (c : Conn) : Nat :=
  match c.txInProgress with
  | some tx => tx.dbFileSize
  | none => c.dbFileSize

def Conn.isTransactionPending (c : Conn) : Bool := c.txInProgress.isSome

/-! ## §7. Writing. -/

/-- `#writePage`. -/
def writePage (tx : Transaction) (pageOffset : Nat) (pageData : List UInt8) : WA Transaction := do
  let w ← get
  let header := frameHeader .page false (encodeSize pageData.length) pageOffset
    w.conn.activeHeader pageData
  if pageData.length % 8 ≠ 0 then throw .unalignedData
  else do
    writeWa w.conn.activeHandle tx.waOffsetEnd header.cells
    writeWa w.conn.activeHandle (tx.waOffsetEnd + frameHeaderSize) (payloadCells pageData)
    let entry : PageEntry := {
      waOffset := tx.waOffsetEnd + frameHeaderSize
      waSalt1 := w.conn.activeHeader.salt1
      pageSize := pageData.length
      pageData := if pageOffset = 0 then some pageData else none }
    let tx := { tx with
      pages := tx.pages.insert pageOffset entry
      waOffsetEnd := tx.waOffsetEnd + frameHeaderSize + pageData.length }
    setConn { w.conn with txInProgress := some tx }
    pure tx

/-- `#writeFileHeader`. -/
def writeFileHeader (prevSalt1 salt2 : BitVec 32) : WA FileHeader := do
  let w ← get
  let header : FileHeader := ⟨w.conn.txId + 1, prevSalt1 + 1, salt2⟩
  writeWa (handleOf header.salt1) 0 header.cells
  pure header

/-- `#isInactiveFileEmpty`. -/
def World.isInactiveFileEmpty (w : World) : Bool :=
  if (w.conn.mapIdToTx.lookup (w.conn.activeHeader.nextTxId - 1)).isSome then false
  else
    let inactive := w.store.wa (!w.conn.activeHandle)
    if inactive.cells.length < fileHeaderSize then true
    else (readFileHeader inactive).isNone

/-- `#swapActiveFile`. -/
def swapActiveFile (salt2 : BitVec 32) : WA PUnit := do
  let w ← get
  -- the end frame is written first; it counts once the new header is there
  writeWa w.conn.activeHandle w.conn.activeOffset
    (frameHeader .end false 0 0 w.conn.activeHeader []).cells
  let header ← writeFileHeader w.conn.activeHeader.salt1 salt2
  setConn { w.conn with
    activeHeader := header
    activeHandle := !w.conn.activeHandle
    activeOffset := fileHeaderSize }

/-- `#beginTx`. -/
def Conn.beginTx (c : Conn) (newPageSize : Option Nat) : Transaction where
  id := c.txId + 1
  pages := ∅
  dbFileSize := c.dbFileSize
  newPageSize := newPageSize
  waSalt1 := c.activeHeader.salt1
  waOffsetEnd := c.activeOffset

/-- The pages of the new size that a larger incoming page consists of. -/
def writeSlices (newPageSize : Nat) : Nat → Transaction → Nat → List UInt8 → WA Transaction
  | 0, tx, _, _ => pure tx
  | fuel + 1, tx, offset, data =>
      if data = [] then pure tx
      else do
        let tx ← writePage tx offset (data.take newPageSize)
        writeSlices newPageSize fuel tx (offset + newPageSize) (data.drop newPageSize)

/-- Where the bytes of a page go whose new size is larger. -/
def resizedOffset (activeOffset newPageSize offset : Nat) : Nat :=
  let pageOffset := offset % newPageSize
  activeOffset + (offset - pageOffset) / newPageSize * (frameHeaderSize + newPageSize)
    + frameHeaderSize + pageOffset

def Conn.nPageThreshold (c : Conn) : Int :=
  if 0 < c.journalSizeLimit then c.journalSizeLimit else defaultJournalSizeLimit

/-- `write`: the transaction in progress, begun if there is none. -/
def ensureTx (salt2 : BitVec 32) (data : List UInt8) (dstPageSize : Option Nat) :
    WA Transaction := do
  let w ← get
  match w.conn.txInProgress with
  | some tx => pure tx
  | none => do
      if w.conn.nPageThreshold ≤ w.conn.approxPageCount ∧ w.isInactiveFileEmpty = true then
        swapActiveFile salt2
      else pure ⟨⟩
      let w ← get
      -- a VACUUM to a new page size
      let tx := w.conn.beginTx (if dstPageSize ≠ some data.length then dstPageSize else none)
      setConn { w.conn with txInProgress := some tx }
      pure tx

def write (salt2 : BitVec 32) (offset : Nat) (data : List UInt8) (dstPageSize : Option Nat) :
    WA PUnit := do
  let w ← get
  if w.conn.isolationState ≠ some .write then throw .notWriteIsolated
  else do
    let tx ← ensureTx salt2 data dstPageSize
    match tx.newPageSize with
    | some newPageSize =>
        if newPageSize < data.length then do
          let _ ← writeSlices newPageSize data.length tx offset data
          pure ⟨⟩
        else do
          let w ← get
          writeWa w.conn.activeHandle (resizedOffset w.conn.activeOffset newPageSize offset)
            (payloadCells data)
    | none => do
        let _ ← writePage tx offset data
        pure ⟨⟩

/-- `truncate`: outside a transaction it is ignored. -/
def truncate (newSize : Nat) : WA PUnit := do
  let w ← get
  match w.conn.txInProgress with
  | none => pure ⟨⟩
  | some tx =>
      let pages := tx.pages.keys.foldl
        (fun pages offset => if newSize ≤ offset then pages.erase offset else pages) tx.pages
      setConn { w.conn with txInProgress := some { tx with pages := pages } }

/-- `rollback` and `#abortTx`. -/
def rollback : WA PUnit := do
  let w ← get
  setConn { w.conn with txInProgress := none }
  truncateWa w.conn.activeHandle w.conn.activeOffset

/-- One page of a VACUUM to a larger page size, read back and written as a
frame. -/
def rewritePage (newPageSize : Nat) (tx : Transaction) (i : Nat) :
    WA (Transaction × List UInt8) := do
  let w ← get
  let waOffset := w.conn.activeOffset + i * (frameHeaderSize + newPageSize) + frameHeaderSize
  let bytes := (readAt (w.store.wa w.conn.activeHandle).cells waOffset newPageSize).map Cell.toByte
  let pageData := bytes ++ List.replicate (newPageSize - bytes.length) 0
  let tx ← writePage tx (i * newPageSize) pageData
  pure (tx, pageData)

/-- The pages from `i` on. -/
def rewritePages (newPageSize : Nat) : Nat → Transaction → Nat → WA Transaction
  | 0, tx, _ => pure tx
  | count + 1, tx, i => do
      let (tx, _) ← rewritePage newPageSize tx i
      rewritePages newPageSize count tx (i + 1)

/-- `#commitTx`. -/
def commitTx (tx : Transaction) : WA Transaction := do
  let w ← get
  let header := frameHeader .commit tx.newPageSize.isSome 0 tx.dbFileSize w.conn.activeHeader []
  writeWa w.conn.activeHandle tx.waOffsetEnd header.cells
  let tx := { tx with waOffsetEnd := tx.waOffsetEnd + frameHeaderSize }
  setConn { w.conn with txInProgress := none, activeOffset := tx.waOffsetEnd, txId := tx.id }
  pure tx

/-- The first half of `commit`: a VACUUM to a larger page size is rewritten as
frames. -/
def gatherPages (tx : Transaction) : WA Transaction :=
  match tx.newPageSize with
  | some newPageSize =>
      if tx.pages.keys = [] then do
        let (tx, first) ← rewritePage newPageSize tx 0
        if first.length < 32 then throw .rangeError
        else rewritePages newPageSize (getUint32 first 28 - 1) tx 1
      else pure tx
  | none => pure tx

/-- `commit`; it returns the transaction that is sent to the others. -/
def commit : WA (Option Transaction) := do
  let w ← get
  match w.conn.txInProgress with
  | none => throw .typeError
  | some tx => do
      let tx ← gatherPages tx
      match (tx.pages.lookup 0).bind PageEntry.pageData with
      | none => do
          -- without page 1 it is a rollback that is not batch-atomic
          rollback
          pure none
      | some page1 =>
          if page1.length < 32 then throw .rangeError
          else do
            let tx := { tx with dbFileSize := getUint32 page1 28 * page1.length }
            let w ← get
            setConn { w.conn with txInProgress := some tx }
            let tx ← commitTx tx
            let w ← get
            setConn (w.conn.activateTx tx)
            pure (some tx)

/-! ## §8. Checkpoints and opening. -/

/-- The pages of one transaction that no later one has written. -/
def copyPages (dbFileSize : Nat) :
    List (Sigma fun _ : Nat => PageEntry) → List Nat → WA (List Nat)
  | [], writtenOffsets => pure writtenOffsets
  | ⟨offset, entry⟩ :: pages, writtenOffsets => do
      if offset < dbFileSize ∧ offset ∉ writtenOffsets then do
        let w ← get
        match entry.data w.store with
        | .error e => throw e
        | .ok pageData => do
            writeDb offset pageData
            copyPages dbFileSize pages (offset :: writtenOffsets)
      else copyPages dbFileSize pages writtenOffsets

/-- The transactions from `id` backwards, up to one with a new page size. -/
def copyTxs (dbFileSize : Nat) : Nat → List Nat → WA PUnit
  | id, writtenOffsets => do
      let w ← get
      match w.conn.mapIdToTx.lookup id with
      | none => pure ⟨⟩
      | some tx => do
          let writtenOffsets ← copyPages dbFileSize tx.pages.entries writtenOffsets
          if tx.newPageSize.isSome then pure ⟨⟩
          else match id with
            | 0 => pure ⟨⟩
            | id + 1 => copyTxs dbFileSize id writtenOffsets

/-- The synchronous middle of `checkpoint`: pages move to the database file. -/
def checkpointCopy (ckptId : Nat) : WA PUnit := do
  let w ← get
  match w.conn.mapIdToTx.lookup ckptId with
  | none => pure ⟨⟩
  | some tx => do
      if w.store.db.length ≠ tx.dbFileSize then truncateDb tx.dbFileSize else pure ⟨⟩
      copyTxs tx.dbFileSize ckptId []
  let w ← get
  setConn (w.conn.handleCheckpoint ckptId)

/-- `#truncateInactiveFile`. -/
def truncateInactiveFile : WA PUnit := do
  let w ← get
  truncateWa (!w.conn.activeHandle) 0

/-- The first key of `#mapIdToTx`, as the published lock names it. -/
def Conn.minTxId (c : Conn) : Nat := c.mapIdToTx.keys.getLast?.getD (c.txId + 1)

/-- The valid header with the lower `nextTxId`; the first file's if they are
equal. -/
def Store.firstHeader (st : Store) : Option FileHeader :=
  match readFileHeader (st.wa false), readFileHeader (st.wa true) with
  | some h0, some h1 => some (if h0.nextTxId ≤ h1.nextTxId then h0 else h1)
  | some h0, none => some h0
  | none, some h1 => some h1
  | none, none => none

/-- The asynchronous initialization of the constructor, behind the headers that it has
found. -/
def readyWith (found : Option FileHeader) (randomSalt1 salt2 : BitVec 32) : WA PUnit := do
  let fileHeader ← match found with
    | some h => pure h
    | none => writeFileHeader randomSalt1 salt2
  let w ← get
  setConn { w.conn with
    activeHeader := fileHeader
    activeHandle := handleOf fileHeader.salt1
    activeOffset := fileHeaderSize
    txId := fileHeader.nextTxId - 1 }
  readAllTx w.store.frameFuel

/-- The initialization as a whole. -/
def ready (randomSalt1 salt2 : BitVec 32) : WA PUnit := do
  let w ← get
  readyWith w.store.firstHeader randomSalt1 salt2

end MemoryWriteAhead.WriteAhead
