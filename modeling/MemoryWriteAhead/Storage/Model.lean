/-
  MemoryWriteAhead.Storage.Model
  ──────────────────────────────
  **THE SEGMENTED STORAGE OF ONE SHARED FILE.**

  `memoryWriteAheadSharedRuntime.ts`: `createSharedFile` with its segments,
  `getActiveSegmentCount` … `ensureFileCapacity`, and the three operations
  `readMemoryWriteAheadFile`, `writeMemoryWriteAheadFile` and
  `truncateMemoryWriteAheadFile`.

  A mutating call runs under the file lock, so it is one step here; the words it
  updates with `addSaturatingAtomicCounter` and `updateAtomicMaxCounter` have no
  other writer then, and the two loops are their results.  What the platform
  decides is a parameter: whether it makes a buffer growable (`growable`), and
  whether it grants the growth of a segment (`granted`).  The `onProgress`
  callbacks, the logger and the `dbFilename` are left out.
-/
import MemoryWriteAhead.Library.FlatFile
import MemoryWriteAhead.Clock

namespace MemoryWriteAhead.Storage

/-! ## §1. Segments, words and files. -/

inductive CapacityMode where
  | growable
  | fixed
  deriving DecidableEq, Repr

/-- `MemoryWriteAheadSharedSegment` with the bytes of its buffer. -/
structure Segment where
  capacityMode : CapacityMode
  data : List UInt8
  maxCapacityBytes : Nat
  deriving DecidableEq, Repr

/-- The `MEMORY_WRITE_AHEAD_FILE_META` words of the storage. -/
structure Words where
  size : BitVec 32
  activeSegmentCount : BitVec 32
  reclaimedSegmentCount : BitVec 32
  reclaimedBytes : BitVec 32
  peakLogicalSizeBytes : BitVec 32
  peakCapacityBytes : BitVec 32
  peakAllocatedCapacityBytes : BitVec 32
  writeOperationCount : BitVec 32
  writtenBytes : BitVec 32
  truncateOperationCount : BitVec 32
  deriving DecidableEq, Repr

/-- `MemoryWriteAheadSharedFile`. -/
structure SharedFile where
  pathname : String
  maxCapacityBytes : Nat
  segmentCapacityBytes : Nat
  segments : List Segment
  words : Words
  deriving DecidableEq, Repr

inductive StorageError where
  | capacityExceeded (pathname : String) (requiredCapacityBytes maxCapacityBytes : Nat)
  | segmentCapacityExceeded (requiredBytes : Nat)
  | fixedSegmentCannotGrow
  | segmentCatalogExhausted (pathname : String)
  | unableToLocate (pathname : String) (logicalOffset : Nat)
  /-- `SharedArrayBuffer.prototype.grow` throws -/
  | growRefused
  /-- `Uint8Array.prototype.set` throws: the offset is beyond the buffer -/
  | offsetOutOfBounds
  deriving DecidableEq, Repr

/-- The text of an error of this repository; an engine's own error has none. -/
def StorageError.message : StorageError → Option String
  | .capacityExceeded pathname requiredCapacityBytes maxCapacityBytes =>
      some (s!"MemoryWriteAheadVFS capacity exceeded for {pathname}; "
        ++ s!"required {requiredCapacityBytes} bytes, max {maxCapacityBytes} bytes")
  | .segmentCapacityExceeded requiredBytes =>
      some s!"MemoryWriteAheadVFS segment capacity exceeded; required {requiredBytes} bytes"
  | .fixedSegmentCannotGrow =>
      some "MemoryWriteAheadVFS fixed SharedArrayBuffer segment cannot grow"
  | .segmentCatalogExhausted pathname =>
      some s!"MemoryWriteAheadVFS segment catalog exhausted for {pathname}"
  | .unableToLocate pathname logicalOffset =>
      some s!"Unable to locate segmented storage for {pathname} at {logicalOffset}"
  | .growRefused => none
  | .offsetOutOfBounds => none

/-- How a call ends; `loops` is a loop that makes no progress any more. -/
inductive Result (β : Type) where
  | returned (value : β)
  | threw (error : StorageError)
  | loops
  deriving DecidableEq, Repr

/-! ## §2. The words. -/

def minSegmentCount : Nat := 1

/-- What `addSaturatingAtomicCounter` leaves in a word nobody else updates. -/
def addSaturatingAtomicCounter (current : BitVec 32) (delta : Int) : BitVec 32 :=
  if current.toInt < maxInt32AtomicCounter then
    if current.toInt < 0 then BitVec.ofInt 32 maxInt32AtomicCounter
    else BitVec.ofInt 32 (min maxInt32AtomicCounter (current.toInt + delta))
  else current

/-- What `updateAtomicMaxCounter` leaves in a word nobody else updates. -/
def updateAtomicMaxCounter (current : BitVec 32) (value : Int) : BitVec 32 :=
  let nextValue := max 0 (min (maxInt32AtomicCounter : Int) value)
  if current.toInt < nextValue then BitVec.ofInt 32 nextValue else current

def getActiveSegmentCount (file : SharedFile) : Nat :=
  (max (minSegmentCount : Int) file.words.activeSegmentCount.toInt).toNat

def getAllocatedCapacityBytes (file : SharedFile) : Nat :=
  file.segments.foldl (fun total segment => total + segment.data.length) 0

def getFileCapacityBytes (file : SharedFile) : Nat :=
  (file.segments.take (getActiveSegmentCount file)).foldl
    (fun total segment => total + segment.data.length) 0

def getActiveFileCapacityBytes (file : SharedFile) (activeSegmentCount : Nat) : Nat :=
  match file.segments[activeSegmentCount - 1]? with
  | none => 0
  | some activeSegment =>
      (activeSegmentCount - 1) * file.segmentCapacityBytes + activeSegment.data.length

def getFileSizeBytes (file : SharedFile) : Int := file.words.size.toInt

/-- The two capacity peaks, as `setActiveSegmentCount` and `ensureFileCapacity`
record them. -/
def updateCapacityPeaks (file : SharedFile) : SharedFile :=
  { file with words :=
    { file.words with
      peakCapacityBytes :=
        updateAtomicMaxCounter file.words.peakCapacityBytes (getFileCapacityBytes file)
      peakAllocatedCapacityBytes :=
        updateAtomicMaxCounter file.words.peakAllocatedCapacityBytes
          (getAllocatedCapacityBytes file) } }

def recordMemoryWriteAheadFileHighWater (file : SharedFile) : SharedFile :=
  updateCapacityPeaks
    { file with words :=
      { file.words with
        peakLogicalSizeBytes :=
          updateAtomicMaxCounter file.words.peakLogicalSizeBytes (getFileSizeBytes file) } }

def setFileSizeBytes (file : SharedFile) (sizeBytes : Int) : SharedFile :=
  { file with words :=
    { file.words with
      size := BitVec.ofInt 32 sizeBytes
      peakLogicalSizeBytes := updateAtomicMaxCounter file.words.peakLogicalSizeBytes sizeBytes } }

/-- The counters of the segments a shrink drops. -/
def countReclaimed (file : SharedFile) (next previous : Nat) : SharedFile :=
  { file with words :=
    { file.words with
      reclaimedSegmentCount :=
        addSaturatingAtomicCounter file.words.reclaimedSegmentCount
          ((previous : Int) - (next : Int))
      reclaimedBytes :=
        addSaturatingAtomicCounter file.words.reclaimedBytes
          (((file.segments.drop next).take (previous - next)).foldl
            (fun sum segment => sum + segment.data.length) 0 : Nat) } }

def setActiveSegmentCount (file : SharedFile) (segmentCount : Nat) : SharedFile :=
  let previous := getActiveSegmentCount file
  let next := max minSegmentCount (min segmentCount file.segments.length)
  let counted := if next < previous then countReclaimed file next previous else file
  updateCapacityPeaks
    { counted with words := { counted.words with activeSegmentCount := BitVec.ofInt 32 next } }

/-! ## §3. Creating a file. -/

/-- `createSharedSegmentData`: `none` is the growable-support error. -/
def createSharedSegmentData (growable allowFixedCapacityFallback : Bool)
    (initialBytes maxBytes : Nat) : Option (CapacityMode × List UInt8) :=
  if growable then some (.growable, List.replicate initialBytes 0)
  else if allowFixedCapacityFallback then some (.fixed, List.replicate maxBytes 0)
  else none

def createSharedSegment (growable allowFixedCapacityFallback : Bool)
    (initialBytes maxBytes : Nat) : Option Segment :=
  (createSharedSegmentData growable allowFixedCapacityFallback initialBytes maxBytes).map
    fun (capacityMode, data) => { capacityMode, data, maxCapacityBytes := maxBytes }

/-- `Math.max(MIN_SEGMENT_COUNT, Math.ceil(bytes / segmentCapacityBytes))` -/
def segmentCountFor (bytes segmentCapacityBytes : Nat) : Nat :=
  max minSegmentCount ((bytes + segmentCapacityBytes - 1) / segmentCapacityBytes)

def createSharedFile (growable : Nat → Bool) (pathname : String)
    (initialCapacityBytes maxCapacityBytes : Nat) (allowFixedCapacityFallback : Bool) :
    Option SharedFile :=
  let segmentCapacityBytes := initialCapacityBytes
  let segmentCount := segmentCountFor maxCapacityBytes segmentCapacityBytes
  let segments := (List.range segmentCount).mapM fun index =>
    let segmentMaxBytes := min segmentCapacityBytes (maxCapacityBytes - index * segmentCapacityBytes)
    let initialBytes := if index = 0 then min initialCapacityBytes segmentMaxBytes else 0
    createSharedSegment (growable index) allowFixedCapacityFallback initialBytes segmentMaxBytes
  segments.map fun segments =>
    { pathname, maxCapacityBytes, segmentCapacityBytes, segments
      words := ⟨0, BitVec.ofNat 32 minSegmentCount, 0, 0, 0, 0, 0, 0, 0, 0⟩ }

/-! ## §4. Growing. -/

/-- `growSegment`: the segment afterwards and whether it grew.  New bytes of a
grown buffer are 0. -/
def growSegment (granted : Bool) (segment : Segment) (requiredBytes : Nat) :
    Except StorageError (Segment × Bool) :=
  if requiredBytes ≤ segment.data.length then .ok (segment, false)
  else if requiredBytes > segment.maxCapacityBytes then
    .error (.segmentCapacityExceeded requiredBytes)
  else
    match segment.capacityMode with
    | .growable =>
        if granted then
          .ok ({ segment with
            data := segment.data ++ List.replicate (requiredBytes - segment.data.length) 0 }, true)
        else .error .growRefused
    | .fixed => .error .fixedSegmentCannotGrow

/-- The growth loop of `ensureFileCapacity` over `count` segments from `index`
on.  What grew before a segment fails stays grown. -/
def growSegments (granted : Nat → Bool) (requiredCapacityBytes : Nat) :
    Nat → Nat → SharedFile → SharedFile × Except StorageError Bool
  | _, 0, file => (file, .ok false)
  | index, count + 1, file =>
      match file.segments[index]? with
      | none => (file, .error (.segmentCatalogExhausted file.pathname))
      | some segment =>
          match growSegment (granted index) segment (min segment.maxCapacityBytes
              (requiredCapacityBytes - index * file.segmentCapacityBytes)) with
          | .error e => (file, .error e)
          | .ok (grown, didGrow) =>
              let rest := growSegments granted requiredCapacityBytes (index + 1) count
                { file with segments := file.segments.set index grown }
              (rest.1, rest.2.map (didGrow || ·))

def ensureFileCapacity (granted : Nat → Bool) (file : SharedFile) (requiredCapacityBytes : Nat) :
    SharedFile × Except StorageError Unit :=
  if requiredCapacityBytes > file.maxCapacityBytes then
    (file, .error (.capacityExceeded file.pathname requiredCapacityBytes file.maxCapacityBytes))
  else
    let activeSegmentCount := getActiveSegmentCount file
    if requiredCapacityBytes ≤ getActiveFileCapacityBytes file activeSegmentCount then (file, .ok ())
    else
      let desiredSegmentCount :=
        if requiredCapacityBytes = 0 then minSegmentCount
        else segmentCountFor requiredCapacityBytes file.segmentCapacityBytes
      match growSegments granted requiredCapacityBytes (activeSegmentCount - 1)
          (desiredSegmentCount - (activeSegmentCount - 1)) file with
      | (file, .error e) => (file, .error e)
      | (file, .ok didGrowSegment) =>
          if desiredSegmentCount > activeSegmentCount then
            (setActiveSegmentCount file desiredSegmentCount, .ok ())
          else if didGrowSegment then (updateCapacityPeaks file, .ok ())
          else (file, .ok ())

/-! ## §5. Read, write and truncate. -/

/-- What `findSegmentAtOffset` returns. -/
structure SegmentEntry where
  segment : Segment
  segmentIndex : Nat
  segmentOffset : Nat
  segmentStartOffset : Nat
  deriving DecidableEq, Repr

def findSegmentAtOffset (file : SharedFile) (logicalOffset : Nat) : Option SegmentEntry :=
  let segmentIndex := logicalOffset / file.segmentCapacityBytes
  (file.segments[segmentIndex]?).map fun segment =>
    { segment, segmentIndex
      segmentOffset := logicalOffset - segmentIndex * file.segmentCapacityBytes
      segmentStartOffset := segmentIndex * file.segmentCapacityBytes }

/-- The read loop: the bytes copied to the target.  Every round copies at least
one byte, so `remaining` rounds are enough. -/
def readSegments (file : SharedFile) (size : Nat) : Nat → Nat → Nat → List UInt8
  | 0, _, _ => []
  | fuel + 1, logicalOffset, remaining =>
      if remaining = 0 ∨ size ≤ logicalOffset then []
      else
        match findSegmentAtOffset file logicalOffset with
        | none => []
        | some entry =>
            if entry.segment.data.length ≤ entry.segmentOffset then []
            else
              let bytesToCopy :=
                min (min (entry.segment.data.length - entry.segmentOffset) (size - logicalOffset))
                  remaining
              (entry.segment.data.drop entry.segmentOffset).take bytesToCopy ++
                readSegments file size fuel (logicalOffset + bytesToCopy) (remaining - bytesToCopy)

/-- `readMemoryWriteAheadFile` into a target of `byteLength` bytes: what it
copies to the front of the target.  The length of that is the value it returns. -/
def readMemoryWriteAheadFile (file : SharedFile) (byteLength offset : Nat) : List UInt8 :=
  let size := getFileSizeBytes file
  if (offset : Int) ≥ size then []
  else readSegments file size.toNat byteLength offset byteLength

/-- `getSegmentBytes(segment).set(bytes, segmentOffset)` in one of the file's
segments. -/
def setSegmentBytes (file : SharedFile) (entry : SegmentEntry) (bytes : List UInt8) : SharedFile :=
  let data := overwrite entry.segment.data entry.segmentOffset bytes
  { file with segments := file.segments.set entry.segmentIndex { entry.segment with data } }

/-- The write loop.  A round that copies no byte leaves everything as it was,
so a loop that is not done after one round a byte never ends. -/
def writeSegments : Nat → SharedFile → List UInt8 → Nat → SharedFile × Result Unit
  | 0, file, input, _ => (file, if input = [] then .returned () else .loops)
  | fuel + 1, file, input, logicalOffset =>
      if input = [] then (file, .returned ())
      else
        match findSegmentAtOffset file logicalOffset with
        | none => (file, .threw (.unableToLocate file.pathname logicalOffset))
        | some entry =>
            if entry.segment.data.length < entry.segmentOffset then (file, .threw .offsetOutOfBounds)
            else
              let bytesToCopy :=
                min (entry.segment.data.length - entry.segmentOffset) input.length
              writeSegments fuel (setSegmentBytes file entry (input.take bytesToCopy))
                (input.drop bytesToCopy) (logicalOffset + bytesToCopy)

/-- The bytes of a write that is not empty: the first segment, and the loop over
the segments after it. -/
def writeBytes (file : SharedFile) (input : List UInt8) (offset : Nat) : SharedFile × Result Unit :=
  match findSegmentAtOffset file offset with
  | none => (file, .threw (.unableToLocate file.pathname offset))
  | some firstSegmentEntry =>
      if firstSegmentEntry.segment.data.length < firstSegmentEntry.segmentOffset then
        (file, .threw .offsetOutOfBounds)
      else
        let firstSegmentBytes :=
          min (firstSegmentEntry.segment.data.length - firstSegmentEntry.segmentOffset) input.length
        if firstSegmentBytes = input.length then
          (setSegmentBytes file firstSegmentEntry input, .returned ())
        else
          writeSegments input.length
            (setSegmentBytes file firstSegmentEntry (input.take firstSegmentBytes))
            (input.drop firstSegmentBytes) (offset + firstSegmentBytes)

def countWriteOperation (file : SharedFile) : SharedFile :=
  { file with words :=
    { file.words with
      writeOperationCount := addSaturatingAtomicCounter file.words.writeOperationCount 1 } }

def countWrittenBytes (file : SharedFile) (bytesWritten : Nat) : SharedFile :=
  { file with words :=
    { file.words with
      writtenBytes := addSaturatingAtomicCounter file.words.writtenBytes bytesWritten } }

/-- `writeMemoryWriteAheadFile`: the number of bytes written. -/
def writeMemoryWriteAheadFile (granted : Nat → Bool) (file : SharedFile) (input : List UInt8)
    (offset : Nat) : SharedFile × Result Nat :=
  let requiredCapacityBytes := offset + input.length
  match ensureFileCapacity granted file requiredCapacityBytes with
  | (file, .error e) => (file, .threw e)
  | (file, .ok ()) =>
      if input.length = 0 then
        (countWriteOperation
          (setFileSizeBytes file (max (getFileSizeBytes file) requiredCapacityBytes)), .returned 0)
      else
        match writeBytes file input offset with
        | (file, .threw e) => (file, .threw e)
        | (file, .loops) => (file, .loops)
        | (file, .returned ()) =>
            (countWrittenBytes (countWriteOperation
              (setFileSizeBytes file (max (getFileSizeBytes file) requiredCapacityBytes)))
              input.length, .returned input.length)

def countTruncateOperation (file : SharedFile) : SharedFile :=
  { file with words :=
    { file.words with
      truncateOperationCount := addSaturatingAtomicCounter file.words.truncateOperationCount 1 } }

def truncateMemoryWriteAheadFile (granted : Nat → Bool) (file : SharedFile) (sizeBytes : Nat) :
    SharedFile × Result Unit :=
  match ensureFileCapacity granted file sizeBytes with
  | (file, .error e) => (file, .threw e)
  | (file, .ok ()) =>
      let desiredSegmentCount :=
        if sizeBytes = 0 then minSegmentCount
        else segmentCountFor sizeBytes file.segmentCapacityBytes
      (recordMemoryWriteAheadFileHighWater (countTruncateOperation
        (setActiveSegmentCount (setFileSizeBytes file sizeBytes) desiredSegmentCount)),
        .returned ())

/-- `clearMemoryWriteAheadFile`, as `jDelete` calls it: every word is 0, the size is
0 and one segment is active. -/
def clearMemoryWriteAheadFile (file : SharedFile) : SharedFile :=
  setActiveSegmentCount
    (setFileSizeBytes { file with words := ⟨0, 0, 0, 0, 0, 0, 0, 0, 0, 0⟩ } 0) minSegmentCount

end MemoryWriteAhead.Storage
