/-
  MemoryWriteAhead.WriteAhead.Format
  ──────────────────────────────────
  **THE BYTES OF A LOG FILE.**

  `#readFileHeader` and `#readFrame` see bytes, where the model has cells.  What the
  cells say is what the bytes say, and a frame in which one block of eight bytes has
  been overwritten is not read any more.

    • `readFileHeaderBytes`, `readFrameBytes` — the two methods on bytes,
    • `readFrame_bytes` — a frame of the cells is the frame of their bytes,
    • `update_detects` — the checksum of two contents that differ in one block,
    • `overwritten_block_detected` — a damaged frame does not exist.
-/
import MemoryWriteAhead.Library.Encoding
import MemoryWriteAhead.WriteAhead.Interleaving

namespace MemoryWriteAhead.WriteAhead

open ZeroFile Encoding

/-! ## §1. Reading bytes. -/

/-- A number of a `DataView`.  As a JavaScript number one of eight bytes is exact up to
`2 ^ 53`. -/
def getUint (bytes : List UInt8) (offset len : Nat) : Nat :=
  value 256 UInt8.toNat (readAt bytes offset len)

/-- The checksum that is stored behind the first 24 bytes of a header. -/
def storedChecksum (header : List UInt8) : Checksum :=
  ⟨BitVec.ofNat 32 (getUint header 24 4), BitVec.ofNat 32 (getUint header 28 4)⟩

/-- `#readFileHeader` -/
def readFileHeaderBytes (file : List UInt8) : Option FileHeader :=
  let headerView := readAt file 0 fileHeaderSize
  if headerView.length ≠ fileHeaderSize then none
  else if getUint headerView 0 4 ≠ magic then none
  else if Checksum.update ⟨0, 0⟩ (headerView.take 24) ≠ storedChecksum headerView then none
  else some ⟨getUint headerView 8 8, BitVec.ofNat 32 (getUint headerView 16 4),
    BitVec.ofNat 32 (getUint headerView 20 4)⟩

/-- What `#readFrame` throws. -/
inductive ReadError where
  | unalignedData
  | invalidFrameType (frameType : Nat)
  deriving DecidableEq, Repr

def ReadError.message : ReadError → String
  | .unalignedData => "Data must be a multiple of 8 bytes"
  | .invalidFrameType frameType => s!"Invalid frame type: {frameType}"

/-- The end of `#readFrame`, for a header and a payload whose checksum matches. -/
def frameOfBytes (inactive : List UInt8) (activeHeader : FileHeader) (headerView : List UInt8)
    (payloadData : List UInt8) : Except ReadError (Option Frame) :=
  match getUint headerView 0 1 with
  | 0 => .ok (some (.page (getUint headerView 8 8) payloadData))
  -- `#readTx` asks for the first bit of the flags only
  | 1 => .ok (some (.commit (decide (getUint headerView 1 1 % 2 = 1)) (getUint headerView 8 8)))
  | 2 =>
      match readFileHeaderBytes inactive with
      | none => .ok none
      | some fileHeader =>
          if fileHeader.salt1 ≠ activeHeader.salt1 + 1 then .ok none
          else .ok (some (.end fileHeader))
  | frameType => .error (.invalidFrameType frameType)

/-- `#readFrame` -/
def readFrameBytes (active inactive : List UInt8) (activeHeader : FileHeader) (offset : Nat) :
    Except ReadError (Option Frame) :=
  let headerView := readAt active offset frameHeaderSize
  if headerView.length ≠ frameHeaderSize then .ok none
  else if BitVec.ofNat 32 (getUint headerView 16 4) ≠ activeHeader.salt1
      ∨ BitVec.ofNat 32 (getUint headerView 20 4) ≠ activeHeader.salt2 then .ok none
  else
    let payloadSize := decodeSize (getUint headerView 2 2)
    let payloadData := readAt active (offset + frameHeaderSize) payloadSize
    if payloadData.length ≠ payloadSize then .ok none
    else if payloadData.length % 8 ≠ 0 then .error .unalignedData
    else if (Checksum.update ⟨0, 0⟩ (headerView.take 24)).update payloadData
        ≠ storedChecksum headerView then .ok none
    else frameOfBytes inactive activeHeader headerView payloadData

/-! ## §2. Headers. -/

section

variable {bytes front rest xs ys : List UInt8} {offset len n : Nat} {h : FrameHeader}
  {header : FileHeader} {sum : Checksum}

@[simp] theorem length_bigEndian (len n : Nat) : (bigEndian len n).length = len := by
  unfold bigEndian
  rw [List.length_map, List.length_range]

/-- **A field is read back.** -/
theorem getUint_of_prefix (front : List UInt8) (h : front ++ bigEndian len n <+: bytes)
    (hoffset : front.length = offset) (hn : n < 256 ^ len) : getUint bytes offset len = n := by
  have hpart := readAt_of_prefix h hoffset (length_bigEndian len n)
  unfold getUint
  rw [hpart]
  unfold bigEndian
  rw [value_places fun k => UInt8.toNat_ofNat', Nat.mod_eq_of_lt hn]

theorem getUint_of_begin (h : bigEndian len n <+: bytes) (hn : n < 256 ^ len) :
    getUint bytes 0 len = n := by
  refine getUint_of_prefix [] ?_ rfl hn
  rw [List.nil_append]
  exact h

theorem prefix_more (h : xs <+: ys) (rest : List UInt8) : xs <+: ys ++ rest :=
  h.trans (List.prefix_append ys rest)

theorem ofNat_toNat_lt (b : BitVec 32) : b.toNat < 256 ^ 4 := b.isLt

/-- The checksum of a header is read back. -/
theorem storedChecksum_bytes (hfields : xs.length = 24) :
    storedChecksum (xs ++ sum.bytes) = sum := by
  unfold storedChecksum Checksum.bytes
  rw [← List.append_assoc, getUint_of_prefix _ (prefix_more (List.prefix_refl _) _) hfields
    (ofNat_toNat_lt sum.s0), getUint_of_prefix _ (List.prefix_refl _)
    (by rw [List.length_append, hfields, length_bigEndian]) (ofNat_toNat_lt sum.s1),
    BitVec.ofNat_toNat, BitVec.ofNat_toNat, BitVec.setWidth_eq, BitVec.setWidth_eq]

/-- The header can be written in its places. -/
def FileHeader.Fits (header : FileHeader) : Prop := header.nextTxId < 2 ^ 53

theorem FileHeader.Fits.lt (h : header.Fits) : header.nextTxId < 256 ^ 8 :=
  lt_of_lt_of_le h (by norm_num)

/-- The bytes in front of the checksum. -/
def FileHeader.fields (header : FileHeader) : List UInt8 :=
  bigEndian 4 magic ++ bigEndian 4 0 ++ bigEndian 8 header.nextTxId
    ++ bigEndian 4 header.salt1.toNat ++ bigEndian 4 header.salt2.toNat

theorem length_fields (header : FileHeader) : header.fields.length = 24 := by
  unfold FileHeader.fields
  simp only [List.length_append, length_bigEndian]

theorem length_checksum_bytes (sum : Checksum) : sum.bytes.length = 8 := by
  unfold Checksum.bytes
  rw [List.length_append, length_bigEndian, length_bigEndian]

theorem length_fileHeader_bytes (header : FileHeader) : header.bytes.length = fileHeaderSize := by
  show (header.fields ++ _).length = _
  rw [List.length_append, length_fields, length_checksum_bytes]

/-- **A file header is read back.** -/
theorem readFileHeaderBytes_bytes (hfits : header.Fits)
    (hread : readAt bytes 0 fileHeaderSize = header.bytes) :
    readFileHeaderBytes bytes = some header := by
  have hfields : header.bytes.take 24 = header.fields := List.take_left' (length_fields header)
  have hfront {xs : List UInt8} (h : xs <+: header.fields) : xs <+: header.bytes :=
    prefix_more h _
  have hmagic : getUint header.bytes 0 4 = magic := by
    refine getUint_of_begin (hfront ?_) (by unfold magic; norm_num)
    exact prefix_more (prefix_more (prefix_more (prefix_more (List.prefix_refl _) _) _) _) _
  have hnextTxId : getUint header.bytes 8 8 = header.nextTxId := by
    refine getUint_of_prefix (bigEndian 4 magic ++ bigEndian 4 0) (hfront ?_) ?_ hfits.lt
    · exact prefix_more (prefix_more (List.prefix_refl _) _) _
    · simp only [List.length_append, length_bigEndian]
  have hsalt1 : getUint header.bytes 16 4 = header.salt1.toNat := by
    refine getUint_of_prefix (bigEndian 4 magic ++ bigEndian 4 0
      ++ bigEndian 8 header.nextTxId) (hfront ?_) ?_ (ofNat_toNat_lt _)
    · exact prefix_more (List.prefix_refl _) _
    · simp only [List.length_append, length_bigEndian]
  have hsalt2 : getUint header.bytes 20 4 = header.salt2.toNat := by
    refine getUint_of_prefix (bigEndian 4 magic ++ bigEndian 4 0
      ++ bigEndian 8 header.nextTxId ++ bigEndian 4 header.salt1.toNat) (hfront ?_) ?_
      (ofNat_toNat_lt _)
    · exact List.prefix_refl _
    · simp only [List.length_append, length_bigEndian]
  have hchecksum : storedChecksum header.bytes = Checksum.update ⟨0, 0⟩ header.fields :=
    storedChecksum_bytes (length_fields header)
  unfold readFileHeaderBytes
  rw [hread]
  dsimp only
  rw [if_neg fun hne => hne (length_fileHeader_bytes header), if_neg fun hne => hne hmagic, hfields,
    hchecksum, if_neg fun hne => hne rfl, hnextTxId, hsalt1, hsalt2, BitVec.ofNat_toNat,
    BitVec.ofNat_toNat, BitVec.setWidth_eq, BitVec.setWidth_eq]

/-- The header of a frame can be written in its places, and its payload is aligned. -/
structure FrameHeader.Fits (h : FrameHeader) : Prop where
  size : h.size < 2 ^ 16
  aligned : decodeSize h.size % 8 = 0
  info : h.info < 2 ^ 53

/-- The bytes in front of the checksum. -/
def FrameHeader.fields (h : FrameHeader) : List UInt8 :=
  frameFields h.frameType h.flags h.size h.info ⟨0, h.salt1, h.salt2⟩

theorem length_frameHeader_fields (h : FrameHeader) : h.fields.length = 24 := by
  unfold FrameHeader.fields frameFields
  simp only [List.length_append, length_bigEndian]

theorem length_frameHeader_bytes (h : FrameHeader) : h.bytes.length = frameHeaderSize := by
  show (h.fields ++ _).length = _
  rw [List.length_append, length_frameHeader_fields, length_checksum_bytes]

/-- What is read of the bytes of a frame header. -/
structure Spells (bytes : List UInt8) (h : FrameHeader) : Prop where
  frameType : getUint bytes 0 1 = h.frameType.code
  flags : getUint bytes 1 1 = if h.flags then 1 else 0
  size : getUint bytes 2 2 = h.size
  info : getUint bytes 8 8 = h.info
  salt1 : BitVec.ofNat 32 (getUint bytes 16 4) = h.salt1
  salt2 : BitVec.ofNat 32 (getUint bytes 20 4) = h.salt2
  fields : bytes.take 24 = h.fields
  checksum : storedChecksum bytes = h.checksum

/-- **A frame header is read back.** -/
theorem FrameHeader.spells (hfits : h.Fits) : Spells h.bytes h := by
  have hfront {xs : List UInt8} (hxs : xs <+: h.fields) : xs <+: h.bytes := prefix_more hxs _
  have hparts : h.fields = bigEndian 1 h.frameType.code ++ bigEndian 1 (if h.flags then 1 else 0)
      ++ bigEndian 2 h.size ++ bigEndian 4 0 ++ bigEndian 8 h.info ++ bigEndian 4 h.salt1.toNat
      ++ bigEndian 4 h.salt2.toNat := rfl
  have hinfo : h.info < 256 ^ 8 := lt_of_lt_of_le hfits.info (by norm_num)
  refine ⟨?_, ?_, ?_, ?_, ?_, ?_, List.take_left' (length_frameHeader_fields h),
    storedChecksum_bytes (length_frameHeader_fields h)⟩
  · refine getUint_of_begin (hfront ?_) ?_
    · rw [hparts]
      exact prefix_more (prefix_more (prefix_more (prefix_more (prefix_more (prefix_more
        (List.prefix_refl _) _) _) _) _) _) _
    · cases h.frameType with
      | page => decide
      | commit => decide
      | «end» => decide
  · refine getUint_of_prefix (bigEndian 1 h.frameType.code) (hfront ?_) ?_ ?_
    · rw [hparts]
      exact prefix_more (prefix_more (prefix_more (prefix_more (prefix_more
        (List.prefix_refl _) _) _) _) _) _
    · exact length_bigEndian _ _
    · split <;> decide
  · refine getUint_of_prefix (bigEndian 1 h.frameType.code
      ++ bigEndian 1 (if h.flags then 1 else 0)) (hfront ?_) ?_ hfits.size
    · rw [hparts]
      exact prefix_more (prefix_more (prefix_more (prefix_more (List.prefix_refl _) _) _) _) _
    · simp only [List.length_append, length_bigEndian]
  · refine getUint_of_prefix (bigEndian 1 h.frameType.code
      ++ bigEndian 1 (if h.flags then 1 else 0) ++ bigEndian 2 h.size ++ bigEndian 4 0)
      (hfront ?_) ?_ hinfo
    · rw [hparts]
      exact prefix_more (prefix_more (List.prefix_refl _) _) _
    · simp only [List.length_append, length_bigEndian]
  · have hsalt1 : getUint h.bytes 16 4 = h.salt1.toNat := by
      refine getUint_of_prefix (bigEndian 1 h.frameType.code
        ++ bigEndian 1 (if h.flags then 1 else 0) ++ bigEndian 2 h.size ++ bigEndian 4 0
        ++ bigEndian 8 h.info) (hfront ?_) ?_ (ofNat_toNat_lt _)
      · rw [hparts]
        exact prefix_more (List.prefix_refl _) _
      · simp only [List.length_append, length_bigEndian]
    rw [hsalt1, BitVec.ofNat_toNat, BitVec.setWidth_eq]
  · have hsalt2 : getUint h.bytes 20 4 = h.salt2.toNat := by
      refine getUint_of_prefix (bigEndian 1 h.frameType.code
        ++ bigEndian 1 (if h.flags then 1 else 0) ++ bigEndian 2 h.size ++ bigEndian 4 0
        ++ bigEndian 8 h.info ++ bigEndian 4 h.salt1.toNat) (hfront ?_) ?_ (ofNat_toNat_lt _)
      · rw [hparts]
      · simp only [List.length_append, length_bigEndian]
    rw [hsalt2, BitVec.ofNat_toNat, BitVec.setWidth_eq]

end

/-! ## §3. Cells. -/

def WaFile.bytes (file : WaFile) : List UInt8 := file.cells.map Cell.toByte

/-- The header that the cell is of can be written in its places. -/
def Cell.Fits : Cell → Prop
  | .byte _ => True
  | .fileHeader header _ => header.Fits
  | .frameHeader h _ => h.Fits

instance instDecidableCellFits : (cell : Cell) → Decidable cell.Fits
  | .byte _ => inferInstanceAs (Decidable True)
  | .fileHeader header _ => inferInstanceAs (Decidable (header.nextTxId < 2 ^ 53))
  | .frameHeader h _ => decidable_of_iff
      (h.size < 2 ^ 16 ∧ decodeSize h.size % 8 = 0 ∧ h.info < 2 ^ 53)
      ⟨fun hfits => ⟨hfits.1, hfits.2.1, hfits.2.2⟩, fun hfits => ⟨hfits.1, hfits.2, hfits.3⟩⟩

def WaFile.Fits (file : WaFile) : Prop := ∀ cell ∈ file.cells, cell.Fits

section

variable {st : Store} {c : Conn} {file : WaFile} {header : FileHeader} {h : FrameHeader}
  {cells : List Cell} {offset n : Nat} {frame : Frame}

theorem map_getD_range {xs : List UInt8} : (List.range xs.length).map (fun i => xs.getD i 0) = xs := by
  apply List.ext_getElem?
  intro i
  rw [List.getElem?_map]
  by_cases hi : i < xs.length
  · rw [List.getElem?_range hi, List.getElem?_eq_getElem hi]
    exact congrArg some (List.getD_eq_getElem _ _ hi)
  · rw [List.getElem?_eq_none (by rw [List.length_range]; omega), List.getElem?_eq_none (by omega)]
    rfl

theorem toByte_fileHeader (header : FileHeader) : header.cells.map Cell.toByte = header.bytes := by
  unfold FileHeader.cells
  rw [List.map_map, ← length_fileHeader_bytes header]
  exact map_getD_range

theorem toByte_frameHeader (h : FrameHeader) : h.cells.map Cell.toByte = h.bytes := by
  unfold FrameHeader.cells
  rw [List.map_map, ← length_frameHeader_bytes h]
  exact map_getD_range

theorem readAt_bytes (file : WaFile) (offset n : Nat) :
    readAt file.bytes offset n = (readAt file.cells offset n).map Cell.toByte := by
  unfold WaFile.bytes readAt
  rw [List.map_take, List.map_drop]

/-- The cells of a file header that is read. -/
theorem cells_of_readFileHeader (hread : readFileHeader file = some header) :
    readAt file.cells 0 fileHeaderSize = header.cells := by
  unfold readFileHeader at hread
  split at hread
  next found i rest hcells =>
    split at hread
    next heq =>
      obtain rfl := Option.some.inj hread
      exact hcells.trans heq
    next => cases hread
  next => cases hread

theorem mem_readAt {cell : Cell} (hmem : cell ∈ readAt cells offset n) : cell ∈ cells :=
  List.mem_of_mem_drop (List.mem_of_mem_take hmem)

/-- **A file header of the cells** is that of their bytes. -/
theorem readFileHeader_bytes (hfits : file.Fits) (hread : readFileHeader file = some header) :
    readFileHeaderBytes file.bytes = some header := by
  have hcells := cells_of_readFileHeader hread
  have hfirst : Cell.fileHeader header 0 ∈ readAt file.cells 0 fileHeaderSize := by
    rw [hcells]
    exact List.mem_map.mpr ⟨0, List.mem_range.mpr (by decide), rfl⟩
  refine readFileHeaderBytes_bytes (hfits _ (mem_readAt hfirst)) ?_
  rw [readAt_bytes, hcells, toByte_fileHeader]

/-- The frame that a valid header and payload are. -/
theorem frameOf_bytes {bytes payloadData : List UInt8} (hspells : Spells bytes h)
    (hinactive : (st.wa (!c.activeHandle)).Fits) (hread : frameOf st c h payloadData = some frame) :
    frameOfBytes (st.wa (!c.activeHandle)).bytes c.activeHeader bytes payloadData
      = .ok (some frame) := by
  unfold frameOf at hread
  unfold frameOfBytes
  rw [hspells.frameType, hspells.flags, hspells.info]
  cases htype : h.frameType with
  | page =>
      rw [htype] at hread
      obtain rfl := Option.some.inj hread
      rfl
  | commit =>
      rw [htype] at hread
      obtain rfl := Option.some.inj hread
      show Except.ok (some (Frame.commit (decide ((if h.flags then 1 else 0) % 2 = 1)) h.info)) = _
      cases h.flags with
      | true => rfl
      | false => rfl
  | «end» =>
      rw [htype] at hread
      dsimp only at hread
      cases hother : readFileHeader (st.wa (!c.activeHandle)) with
      | none =>
          rw [hother] at hread
          exact absurd hread (Option.some_ne_none frame).symm
      | some fileHeader =>
          rw [hother] at hread
          show (match readFileHeaderBytes (st.wa (!c.activeHandle)).bytes with
            | none => Except.ok none
            | some fileHeader =>
                if fileHeader.salt1 ≠ c.activeHeader.salt1 + 1 then .ok none
                else .ok (some (Frame.end fileHeader))) = _
          rw [readFileHeader_bytes hinactive hother]
          dsimp only at hread ⊢
          split at hread
          next => exact absurd hread (Option.some_ne_none frame).symm
          next hsalt =>
            obtain rfl := Option.some.inj hread
            rw [if_neg hsalt]

/-- **A frame of the cells is the frame of their bytes**, wherever the connection reads. -/
theorem readFrame_bytes (hactive : (st.wa c.activeHandle).Fits)
    (hinactive : (st.wa (!c.activeHandle)).Fits) (hread : readFrame st c offset = some frame) :
    readFrameBytes (st.wa c.activeHandle).bytes (st.wa (!c.activeHandle)).bytes c.activeHeader offset
      = .ok (some frame) := by
  unfold readFrame at hread
  dsimp only at hread
  split at hread
  next => exact absurd hread (Option.some_ne_none frame).symm
  next h hheader =>
    have hcells := readFrameHeader_eq_some hheader
    have hfirst : Cell.frameHeader h 0
        ∈ readAt (st.wa c.activeHandle).cells offset frameHeaderSize := by
      rw [hcells]
      exact List.mem_map.mpr ⟨0, List.mem_range.mpr (by decide), rfl⟩
    have hfits : h.Fits := hactive _ (mem_readAt hfirst)
    have hspells := h.spells hfits
    have hview : readAt (st.wa c.activeHandle).bytes offset frameHeaderSize = h.bytes := by
      rw [readAt_bytes, hcells, toByte_frameHeader]
    split at hread
    next => exact absurd hread (Option.some_ne_none frame).symm
    next hsalts =>
      split at hread
      next => exact absurd hread (Option.some_ne_none frame).symm
      next hlength =>
        split at hread
        next => exact absurd hread (Option.some_ne_none frame).symm
        next hchecksum =>
          obtain ⟨hsalt1, hsalt2⟩ := not_or.mp hsalts
          have hsize := not_not.mp hlength
          have hheader' := not_not.mp hchecksum
          have hsum : (Checksum.update ⟨0, 0⟩ h.fields).update
              ((readAt (st.wa c.activeHandle).cells (offset + frameHeaderSize) (decodeSize h.size)).map
                Cell.toByte) = h.checksum := by
            have hfields : h.fields = frameFields h.frameType h.flags h.size h.info c.activeHeader := by
              unfold FrameHeader.fields frameFields
              rw [not_not.mp hsalt1, not_not.mp hsalt2]
            rw [hfields]
            exact congrArg FrameHeader.checksum hheader'
          unfold readFrameBytes
          rw [hview]
          dsimp only
          rw [hspells.size, hspells.salt1, hspells.salt2, hspells.fields, hspells.checksum,
            readAt_bytes, if_neg fun hne => hne (length_frameHeader_bytes h), if_neg hsalts,
            List.length_map, hsize, if_neg fun hne => hne rfl, if_neg fun hne => hne hfits.aligned,
            hsum, if_neg fun hne => hne rfl]
          exact frameOf_bytes hspells hinactive hread

end

/-- The first frame of the commit of page 1. -/
theorem readFrame_bytes_two : ∃ c, committed.conns true = some c
    ∧ readFrameBytes (committed.store.wa c.activeHandle).bytes
      (committed.store.wa (!c.activeHandle)).bytes c.activeHeader 32
        = .ok (some (.page 0 twoPages)) := by
  have hopen : (committed.conns true).isSome = true := by decide +kernel
  obtain ⟨c, hc⟩ := Option.isSome_iff_exists.mp hopen
  have hfits : ∀ handle, ∀ cell ∈ (committed.store.wa handle).cells, cell.Fits := by decide +kernel
  have hframe : (committed.conns true).bind (fun c => readFrame committed.store c 32)
      = some (.page 0 twoPages) := by
    decide +kernel
  rw [hc] at hframe
  exact ⟨c, hc, readFrame_bytes (hfits _) (hfits _) hframe⟩

/-! ## §4. Checksums. -/

section

variable {sum : Checksum} {xs ys x y front behind : List UInt8}

/-- The first block of a list that has one. -/
theorem exists_block (h : 8 ≤ xs.length) : ∃ b₀ b₁ b₂ b₃ b₄ b₅ b₆ b₇ rest,
    xs = b₀ :: b₁ :: b₂ :: b₃ :: b₄ :: b₅ :: b₆ :: b₇ :: rest := by
  have hcons {ys : List UInt8} {n : Nat} (hlength : n + 1 ≤ ys.length) :
      ∃ b rest, ys = b :: rest ∧ n ≤ rest.length := by
    cases ys with
    | nil => exact absurd hlength (by simp)
    | cons b rest => exact ⟨b, rest, rfl, Nat.le_of_succ_le_succ hlength⟩
  obtain ⟨b₀, r₀, rfl, h₀⟩ := hcons h
  obtain ⟨b₁, r₁, rfl, h₁⟩ := hcons h₀
  obtain ⟨b₂, r₂, rfl, h₂⟩ := hcons h₁
  obtain ⟨b₃, r₃, rfl, h₃⟩ := hcons h₂
  obtain ⟨b₄, r₄, rfl, h₄⟩ := hcons h₃
  obtain ⟨b₅, r₅, rfl, h₅⟩ := hcons h₄
  obtain ⟨b₆, r₆, rfl, h₆⟩ := hcons h₅
  obtain ⟨b₇, rest, rfl, -⟩ := hcons h₆
  exact ⟨b₀, b₁, b₂, b₃, b₄, b₅, b₆, b₇, rest, rfl⟩

/-- What is shorter than a block is passed over. -/
theorem update_short (h : xs.length < 8) (sum : Checksum) : sum.update xs = sum := by
  induction sum, xs using Checksum.update.induct with
  | case1 sum a b c d e f g h' rest s0 s1 ih =>
      simp only [List.length_cons] at h
      omega
  | case2 xs sum hshort =>
      unfold Checksum.update
      split
      · exact absurd rfl (hshort _ _ _ _ _ _ _ _ _)
      · rfl

theorem update_append (hxs : xs.length % 8 = 0) (ys : List UInt8) :
    sum.update (xs ++ ys) = (sum.update xs).update ys := by
  induction sum, xs using Checksum.update.induct with
  | case1 sum a b c d e f g h rest s0 s1 ih =>
      have hrest : rest.length % 8 = 0 := by
        simp only [List.length_cons] at hxs
        omega
      exact ih hrest
  | case2 xs sum hshort =>
      have hlt : xs.length < 8 := by
        by_contra hlong
        obtain ⟨b₀, b₁, b₂, b₃, b₄, b₅, b₆, b₇, rest, rfl⟩ := exists_block (not_lt.mp hlong)
        exact hshort _ _ _ _ _ _ _ _ _ rfl
      obtain rfl := List.eq_nil_of_length_eq_zero (show xs.length = 0 by omega)
      rfl

/-- Both sums of a step give back both sums in front of it. -/
theorem step_injective {a b s₀ s₁ t₀ t₁ : BitVec 32} (h₀ : s₀ + a + s₁ = t₀ + a + t₁)
    (h₁ : s₁ + b + (s₀ + a + s₁) = t₁ + b + (t₀ + a + t₁)) : s₀ = t₀ ∧ s₁ = t₁ := by
  rw [h₀] at h₁
  have hsecond : s₁ = t₁ := add_right_cancel (add_right_cancel h₁)
  rw [hsecond] at h₀
  exact ⟨add_right_cancel (add_right_cancel h₀), hsecond⟩

/-- Different sums stay different. -/
theorem update_injective (ys : List UInt8) :
    Function.Injective fun sum : Checksum => sum.update ys := by
  intro sum sum' hsame
  have hsame : sum.update ys = sum'.update ys := hsame
  by_cases hlong : 8 ≤ ys.length
  · obtain ⟨b₀, b₁, b₂, b₃, b₄, b₅, b₆, b₇, rest, rfl⟩ := exists_block hlong
    -- the rest gives back the sums behind the first block, and that one the sums in front
    obtain ⟨h₀, h₁⟩ := Checksum.mk.inj (update_injective rest hsame)
    obtain ⟨hs₀, hs₁⟩ := step_injective h₀ h₁
    obtain ⟨s₀, s₁⟩ := sum
    obtain ⟨t₀, t₁⟩ := sum'
    obtain rfl : s₀ = t₀ := hs₀
    obtain rfl : s₁ = t₁ := hs₁
    rfl
  · rw [update_short (not_le.mp hlong), update_short (not_le.mp hlong)] at hsame
    exact hsame
  termination_by ys.length

theorem word_injective {a b c d a' b' c' d' : UInt8} (h : word a b c d = word a' b' c' d') :
    a = a' ∧ b = b' ∧ c = c' ∧ d = d' := by
  have ha := a.toNat_lt
  have hb := b.toNat_lt
  have hc := c.toNat_lt
  have hd := d.toNat_lt
  have ha' := a'.toNat_lt
  have hb' := b'.toNat_lt
  have hc' := c'.toNat_lt
  have hd' := d'.toNat_lt
  have hnat := congrArg BitVec.toNat h
  unfold word at hnat
  rw [BitVec.toNat_ofNat, BitVec.toNat_ofNat, Nat.mod_eq_of_lt (by omega),
    Nat.mod_eq_of_lt (by omega)] at hnat
  refine ⟨?_, ?_, ?_, ?_⟩
  · exact UInt8.toNat_inj.mp (by omega)
  · exact UInt8.toNat_inj.mp (by omega)
  · exact UInt8.toNat_inj.mp (by omega)
  · exact UInt8.toNat_inj.mp (by omega)

/-- A block gives back its bytes. -/
theorem update_block_injective (hx : x.length = 8) (hy : y.length = 8)
    (h : sum.update x = sum.update y) : x = y := by
  obtain ⟨a₀, a₁, a₂, a₃, a₄, a₅, a₆, a₇, rest, rfl⟩ := exists_block hx.ge
  obtain ⟨b₀, b₁, b₂, b₃, b₄, b₅, b₆, b₇, rest', rfl⟩ := exists_block hy.ge
  obtain rfl : rest = [] := List.eq_nil_of_length_eq_zero (by simpa using hx)
  obtain rfl : rest' = [] := List.eq_nil_of_length_eq_zero (by simpa using hy)
  obtain ⟨h₀, h₁⟩ := Checksum.mk.inj h
  -- the first sum gives back the first word, then the second sum the second word
  have hfirst : word a₀ a₁ a₂ a₃ = word b₀ b₁ b₂ b₃ := add_left_cancel (add_right_cancel h₀)
  rw [hfirst] at h₁
  have hsecond : word a₄ a₅ a₆ a₇ = word b₄ b₅ b₆ b₇ := add_left_cancel (add_right_cancel h₁)
  obtain ⟨rfl, rfl, rfl, rfl⟩ := word_injective hfirst
  obtain ⟨rfl, rfl, rfl, rfl⟩ := word_injective hsecond
  rfl

/-- **The checksum detects** that one block is another one. -/
theorem update_detects (front behind : List UInt8) (hfront : front.length % 8 = 0)
    (hx : x.length = 8) (hy : y.length = 8)
    (h : sum.update (front ++ x ++ behind) = sum.update (front ++ y ++ behind)) : x = y := by
  have hblocks {z : List UInt8} (hz : z.length = 8) :
      sum.update (front ++ z ++ behind) = [front, z, behind].foldl Checksum.update sum := by
    have hboth : (front ++ z).length % 8 = 0 := by
      rw [List.length_append, hz]
      omega
    rw [update_append hboth, update_append hfront]
    rfl
  rw [hblocks hx, hblocks hy] at h
  exact foldl_detects update_injective [front] [behind]
    (fun _ hsame => update_block_injective hx hy hsame) h

end

/-! ## §5. Damage. -/

/-- The payload size that the header of a frame says. -/
def payloadSizeAt (file : List UInt8) (offset : Nat) : Nat :=
  decodeSize (getUint (readAt file offset frameHeaderSize) 2 2)

/-- The bytes that the checksum of a frame is over. -/
def summed (file : List UInt8) (offset : Nat) : List UInt8 :=
  readAt file offset 24 ++ readAt file (offset + frameHeaderSize) (payloadSizeAt file offset)

/-- The checksum that is stored in a frame. -/
def storedAt (file : List UInt8) (offset : Nat) : Checksum :=
  storedChecksum (readAt file offset frameHeaderSize)

/-- A frame that passes the checks of `#readFrame`. -/
structure ValidFrame (file : List UInt8) (offset : Nat) : Prop where
  header : (readAt file offset frameHeaderSize).length = frameHeaderSize
  payload : (readAt file (offset + frameHeaderSize) (payloadSizeAt file offset)).length
    = payloadSizeAt file offset
  aligned : payloadSizeAt file offset % 8 = 0
  checksum : Checksum.update ⟨0, 0⟩ (summed file offset) = storedAt file offset

section

variable {active inactive block : List UInt8} {activeHeader : FileHeader} {offset k : Nat}
  {frame : Frame}

theorem take_header (file : List UInt8) (offset : Nat) :
    (readAt file offset frameHeaderSize).take 24 = readAt file offset 24 := by
  unfold readAt
  rw [List.take_take]
  rfl

theorem summed_eq (hheader : (readAt active offset frameHeaderSize).length = frameHeaderSize) :
    Checksum.update ⟨0, 0⟩ (summed active offset)
      = (Checksum.update ⟨0, 0⟩ ((readAt active offset frameHeaderSize).take 24)).update
        (readAt active (offset + frameHeaderSize) (payloadSizeAt active offset)) := by
  unfold summed
  rw [take_header, update_append]
  rw [← take_header, List.length_take, hheader]
  rfl

theorem validFrame_of_read
    (h : readFrameBytes active inactive activeHeader offset = .ok (some frame)) :
    ValidFrame active offset := by
  unfold readFrameBytes at h
  dsimp only at h
  have hno {a : Except ReadError (Option Frame)} (ha : a = .ok none ∨ ∃ e, a = .error e)
      (hsome : a = .ok (some frame)) {Q : Prop} : Q := by
    rcases ha with rfl | ⟨e, rfl⟩
    · cases hsome
    · cases hsome
  split at h
  next => exact hno (.inl rfl) h
  next hheader =>
    split at h
    next => exact hno (.inl rfl) h
    next =>
      split at h
      next => exact hno (.inl rfl) h
      next hlength =>
        split at h
        next => exact hno (.inr ⟨_, rfl⟩) h
        next haligned =>
          split at h
          next => exact hno (.inl rfl) h
          next hchecksum =>
            have hpayload := not_not.mp hlength
            refine ⟨not_not.mp hheader, hpayload, ?_, ?_⟩
            · exact (congrArg (· % 8) hpayload.symm).trans (not_not.mp haligned)
            · rw [summed_eq (not_not.mp hheader)]
              exact not_not.mp hchecksum

/-- A frame whose checksum does not match does not exist. -/
theorem read_of_mismatch
    (hheader : (readAt active offset frameHeaderSize).length = frameHeaderSize)
    (hpayload : (readAt active (offset + frameHeaderSize) (payloadSizeAt active offset)).length
      = payloadSizeAt active offset) (haligned : payloadSizeAt active offset % 8 = 0)
    (hchecksum : Checksum.update ⟨0, 0⟩ (summed active offset) ≠ storedAt active offset) :
    readFrameBytes active inactive activeHeader offset = .ok none := by
  rw [summed_eq hheader] at hchecksum
  unfold readFrameBytes
  dsimp only
  split
  next => rfl
  next =>
    split
    next => rfl
    next =>
      split
      next => rfl
      next =>
        split
        next hunaligned =>
          exact absurd ((congrArg (· % 8) hpayload).trans haligned) hunaligned
        next => exact if_pos hchecksum

/-- The stored checksum is two numbers of the file. -/
theorem storedAt_eq (file : List UInt8) (offset : Nat) :
    storedAt file offset = ⟨BitVec.ofNat 32 (getUint file (offset + 24) 4),
      BitVec.ofNat 32 (getUint file (offset + 28) 4)⟩ := by
  unfold storedAt storedChecksum getUint
  rw [readAt_readAt (by decide), readAt_readAt (by decide)]

/-- Four bytes are given back by their number. -/
theorem value_four_injective {x y : List UInt8} (hx : x.length = 4) (hy : y.length = 4)
    (h : BitVec.ofNat 32 (value 256 UInt8.toNat x) = BitVec.ofNat 32 (value 256 UInt8.toNat y)) :
    x = y := by
  have hlt {z : List UInt8} (hz : z.length = 4) : value 256 UInt8.toNat z < 2 ^ 32 := by
    have hvalue := value_lt UInt8.toNat_lt z
    rw [hz] at hvalue
    exact hvalue
  have hnat := congrArg BitVec.toNat h
  rw [BitVec.toNat_ofNat, BitVec.toNat_ofNat, Nat.mod_eq_of_lt (hlt hx), Nat.mod_eq_of_lt (hlt hy)]
    at hnat
  exact value_injective UInt8.toNat_lt (fun _ _ => UInt8.toNat_inj.mp) (hx.trans hy.symm) hnat

/-- The checksum of a content in which one block has been overwritten. -/
theorem update_overwritten {sum : Checksum} {xs : List UInt8} {p : Nat} (front behind : List UInt8)
    (hfront : front.length % 8 = 0) (hp : p % 8 = 0) (hblock : block.length = 8)
    (hin : p + 8 ≤ xs.length)
    (h : sum.update (front ++ (writeAt 0 xs p block ++ behind))
      = sum.update (front ++ (xs ++ behind))) : readAt xs p 8 = block := by
  have hold : (readAt xs p 8).length = 8 := by
    rw [length_readAt]
    omega
  have haligned : (front ++ xs.take p).length % 8 = 0 := by
    rw [List.length_append, List.length_take]
    omega
  have hxs := take_readAt_drop xs p 8
  rw [← hblock] at hin
  rw [writeAt_inside hin, hblock] at h
  have hsame : sum.update (front ++ xs.take p ++ block ++ (xs.drop (p + 8) ++ behind))
      = sum.update (front ++ xs.take p ++ readAt xs p 8 ++ (xs.drop (p + 8) ++ behind)) := by
    calc sum.update (front ++ xs.take p ++ block ++ (xs.drop (p + 8) ++ behind))
        = sum.update (front ++ (xs.take p ++ block ++ xs.drop (p + 8) ++ behind)) := by
          simp only [List.append_assoc]
      _ = sum.update (front ++ (xs.take p ++ readAt xs p 8 ++ xs.drop (p + 8) ++ behind)) := by
          rw [h, hxs]
      _ = sum.update (front ++ xs.take p ++ readAt xs p 8 ++ (xs.drop (p + 8) ++ behind)) := by
          simp only [List.append_assoc]
  exact (update_detects _ _ haligned hblock hold hsame).symm

/-- **A damaged frame does not exist.**  Overwriting one block of a frame with anything else
makes `#readFrame` return nothing, as long as the payload size stays. -/
theorem overwritten_block_detected
    (hread : readFrameBytes active inactive activeHeader offset = .ok (some frame))
    (hblock : block.length = 8) (hk : 8 * k + 8 ≤ frameHeaderSize + payloadSizeAt active offset)
    (hsize : payloadSizeAt (writeAt 0 active (offset + 8 * k) block) offset
      = payloadSizeAt active offset)
    (hdamaged : readAt active (offset + 8 * k) 8 ≠ block) :
    readFrameBytes (writeAt 0 active (offset + 8 * k) block) inactive activeHeader offset
      = .ok none := by
  have hvalid := validFrame_of_read hread
  have hheader := hvalid.header
  have hpayload := hvalid.payload
  have hsum := hvalid.checksum
  have haligned := hvalid.aligned
  have hframe : frameHeaderSize = 32 := rfl
  unfold summed at hsum
  rw [length_readAt, hframe] at hheader hpayload
  rw [hframe] at hk hsum
  generalize hn : payloadSizeAt active offset = n at hk hsize hpayload hsum haligned
  generalize hactive' : writeAt 0 active (offset + 8 * k) block = active' at hsize ⊢
  have hwhole : offset + 32 + n ≤ active.length := by omega
  have hlength : active'.length = active.length := by
    rw [← hactive', length_writeAt, hblock]
    omega
  -- what does not meet the block is read as before
  have hbeside {o len : Nat} (hfits : o + len ≤ offset + 32 + n)
      (hapart : o + len ≤ offset + 8 * k ∨ offset + 8 * k + 8 ≤ o) :
      readAt active' o len = readAt active o len := by
    rw [← hactive']
    refine readAt_writeAt_beside (by omega) ?_
    rw [hblock]
    exact hapart
  -- what contains the block is read with the block in it
  have hinside {o len : Nat} (hfits : o + len ≤ offset + 32 + n) (hstart : o ≤ offset + 8 * k)
      (hend : offset + 8 * k + 8 ≤ o + len) :
      readAt active' o len = writeAt 0 (readAt active o len) (offset + 8 * k - o) block := by
    rw [← hactive']
    refine readAt_writeAt_inside hstart ?_ (by omega)
    rw [hblock]
    exact hend
  have hfields : (readAt active offset 24).length = 24 := by
    rw [length_readAt]
    omega
  refine read_of_mismatch ?_ ?_ (by rw [hsize]; exact haligned) fun hmatch => hdamaged ?_
  · rw [length_readAt, hlength, hframe]
    omega
  · rw [hsize, length_readAt, hlength, hframe]
    omega
  · unfold summed at hmatch
    rw [hsize, hframe] at hmatch
    rcases Nat.lt_trichotomy k 3 with hlt | rfl | hgt
    · -- a block of the header, in front of its checksum
      have hstored : storedAt active' offset = storedAt active offset := by
        rw [storedAt_eq, storedAt_eq]
        unfold getUint
        rw [hbeside (by omega) (by omega), hbeside (by omega) (by omega)]
      rw [hstored, ← hsum, hinside (by omega) (by omega) (by omega),
        hbeside (o := offset + 32) (by omega) (by omega),
        show offset + 8 * k - offset = 8 * k by omega] at hmatch
      have hpart : readAt active (offset + 8 * k) 8 = readAt (readAt active offset 24) (8 * k) 8 :=
        (readAt_readAt (by omega)).symm
      rw [hpart]
      exact update_overwritten [] _ (by decide) (by omega) hblock (by omega) hmatch
    · -- the checksum itself
      rw [hbeside (o := offset) (by omega) (by omega), hbeside (o := offset + 32) (by omega) (by omega),
        hsum, storedAt_eq, storedAt_eq] at hmatch
      obtain ⟨hs₀, hs₁⟩ := Checksum.mk.inj hmatch
      have hfour {file : List UInt8} (o : Nat) (hfits : o + 4 ≤ file.length) :
          (readAt file o 4).length = 4 := by
        rw [length_readAt]
        omega
      have hfirst : readAt active (offset + 24) 4 = readAt active' (offset + 24) 4 :=
        value_four_injective (hfour _ (by omega)) (hfour _ (by omega)) hs₀
      have hsecond : readAt active (offset + 28) 4 = readAt active' (offset + 28) 4 :=
        value_four_injective (hfour _ (by omega)) (hfour _ (by omega)) hs₁
      calc readAt active (offset + 24) 8
          = readAt active (offset + 24) 4 ++ readAt active (offset + 28) 4 := readAt_add _ _ 4 4
        _ = readAt active' (offset + 24) 4 ++ readAt active' (offset + 28) 4 := by
          rw [hfirst, hsecond]
        _ = readAt active' (offset + 24) 8 := (readAt_add _ _ 4 4).symm
        _ = block := by
          have hself : readAt (writeAt 0 active (offset + 8 * 3) block) (offset + 8 * 3) block.length
            = block := readAt_writeAt_self
          rw [hblock] at hself
          rw [← hactive']
          exact hself
    · -- a block of the payload
      have hstored : storedAt active' offset = storedAt active offset := by
        rw [storedAt_eq, storedAt_eq]
        unfold getUint
        rw [hbeside (by omega) (by omega), hbeside (by omega) (by omega)]
      rw [hstored, ← hsum, hbeside (o := offset) (by omega) (by omega),
        hinside (o := offset + 32) (by omega) (by omega) (by omega),
        show offset + 8 * k - (offset + 32) = 8 * k - 32 by omega] at hmatch
      have hpart : readAt active (offset + 8 * k) 8
          = readAt (readAt active (offset + 32) n) (8 * k - 32) 8 := by
        rw [readAt_readAt (by omega), show offset + 32 + (8 * k - 32) = offset + 8 * k by omega]
      rw [hpart]
      refine update_overwritten _ [] (by rw [hfields]) (by omega) hblock ?_
        (by simpa only [List.append_nil] using hmatch)
      rw [length_readAt]
      omega

end

/-- The third block of page 1 is lost. -/
theorem overwritten_block_detected_two : ∃ block : List UInt8,
    readAt (committed.store.wa true).bytes (32 + 8 * 6) 8 ≠ block
      ∧ readFrameBytes (writeAt 0 (committed.store.wa true).bytes (32 + 8 * 6) block) [] ⟨1, 1, 0⟩ 32
        = .ok none := by
  have hread : readFrameBytes (committed.store.wa true).bytes [] ⟨1, 1, 0⟩ 32
      = .ok (some (.page 0 twoPages)) := by
    decide +kernel
  have hpayload : payloadSizeAt (committed.store.wa true).bytes 32 = 104 := by decide +kernel
  have hsize : payloadSizeAt (writeAt 0 (committed.store.wa true).bytes (32 + 8 * 6)
      (List.replicate 8 255)) 32 = payloadSizeAt (committed.store.wa true).bytes 32 := by
    decide +kernel
  have hdamaged : readAt (committed.store.wa true).bytes (32 + 8 * 6) 8 ≠ List.replicate 8 255 := by
    decide +kernel
  have hk : 8 * 6 + 8 ≤ frameHeaderSize + payloadSizeAt (committed.store.wa true).bytes 32 := by
    rw [hpayload]
    decide
  exact ⟨List.replicate 8 255, hdamaged,
    overwritten_block_detected hread (List.length_replicate ..) hk hsize hdamaged⟩

end MemoryWriteAhead.WriteAhead
