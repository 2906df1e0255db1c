/-
  MemoryWriteAhead.Storage.HighWater
  ──────────────────────────────────
  **WHAT THE DIAGNOSTICS OF A SHARED FILE REPORT OF ITS PAST.**

  `getMemoryWriteAheadRuntimeDiagnostics`, its part about one file, over every
  sequence of writes and truncates that return.  The `Tally` is the true history;
  it counts in natural numbers.

    • `ensureFileCapacity_marks` — a call records the capacities that it leaves,
    • `Recorded.call` — what one call preserves,
    • `peaks_and_counters_exact` — the peaks are the maxima over all states, and
      the counters the totals, up to 2^31 - 1.
-/
import MemoryWriteAhead.Storage.Bounds
import MemoryWriteAhead.Storage.Handle
import MemoryWriteAhead.Counters

namespace MemoryWriteAhead.Storage

/-! ## §1. The diagnostics. -/

/-- `MemoryWriteAheadFileDiagnostics`, without the locks and the checkpoints. -/
structure FileDiagnostics where
  allocatedCapacityBytes : Nat
  capacityBytes : Nat
  currentCapacityBytes : Nat
  logicalSizeBytes : Int
  maxCapacityBytes : Nat
  pathname : String
  reclaimedBytes : Int
  reclaimedSegmentCount : Int
  segmentCapacityBytes : Nat
  segmentCount : Nat
  totalSegmentCount : Nat
  peakLogicalSizeBytes : Int
  peakCapacityBytes : Int
  peakAllocatedCapacityBytes : Int
  writeOperationCount : Int
  writtenBytes : Int
  truncateOperationCount : Int
  deriving DecidableEq, Repr

/-- The entry of a file in `getMemoryWriteAheadRuntimeDiagnostics`. -/
def fileDiagnostics (file : SharedFile) : FileDiagnostics :=
  let allocatedCapacityBytes := getAllocatedCapacityBytes file
  let capacityBytes := getFileCapacityBytes file
  let logicalSizeBytes := getFileSizeBytes file
  { allocatedCapacityBytes
    capacityBytes
    currentCapacityBytes := capacityBytes
    logicalSizeBytes
    maxCapacityBytes := file.maxCapacityBytes
    pathname := file.pathname
    reclaimedBytes := file.words.reclaimedBytes.toInt
    reclaimedSegmentCount := file.words.reclaimedSegmentCount.toInt
    segmentCapacityBytes := file.segmentCapacityBytes
    segmentCount := getActiveSegmentCount file
    totalSegmentCount := file.segments.length
    peakLogicalSizeBytes := max logicalSizeBytes file.words.peakLogicalSizeBytes.toInt
    peakCapacityBytes := max (capacityBytes : Int) file.words.peakCapacityBytes.toInt
    peakAllocatedCapacityBytes :=
      max (allocatedCapacityBytes : Int) file.words.peakAllocatedCapacityBytes.toInt
    writeOperationCount := file.words.writeOperationCount.toInt
    writtenBytes := file.words.writtenBytes.toInt
    truncateOperationCount := file.words.truncateOperationCount.toInt }

/-- The high-water marks and the counters. -/
def FileDiagnostics.marks (d : FileDiagnostics) : List Int :=
  [d.peakLogicalSizeBytes, d.peakCapacityBytes, d.peakAllocatedCapacityBytes,
    d.writeOperationCount, d.truncateOperationCount, d.writtenBytes, d.reclaimedSegmentCount,
    d.reclaimedBytes]

/-! ## §2. The true history. -/

/-- A write or a truncate, with the growth that the platform grants during it. -/
inductive Mutation where
  | write (granted : Nat → Bool) (bytes : List UInt8) (offset : Nat)
  | truncate (granted : Nat → Bool) (sizeBytes : Nat)

/-- The file after a call that returns. -/
def Mutation.after (file : SharedFile) : Mutation → Option SharedFile
  | .write granted bytes offset =>
      match writeMemoryWriteAheadFile granted file bytes offset with
      | (file, .returned _) => some file
      | _ => none
  | .truncate granted sizeBytes =>
      match truncateMemoryWriteAheadFile granted file sizeBytes with
      | (file, .returned ()) => some file
      | _ => none

def totalLength (segments : List Segment) : Nat :=
  segments.foldl (fun total segment => total + segment.data.length) 0

/-- The active segments that are dropped when `n` are left. -/
def droppedSegments (file : SharedFile) (n : Nat) : List Segment :=
  (file.segments.take (getActiveSegmentCount file)).drop n

/-- The maxima over all states, and the totals over all calls. -/
structure Tally where
  largestSize : Nat
  largestCapacity : Nat
  largestAllocated : Nat
  writes : Nat
  truncates : Nat
  bytesWritten : Nat
  segmentsDropped : Nat
  bytesDropped : Nat
  deriving DecidableEq, Repr

def Tally.start (file : SharedFile) : Tally :=
  ⟨logicalSize file, getFileCapacityBytes file, getAllocatedCapacityBytes file, 0, 0, 0, 0, 0⟩

/-- The tally after a call that has led from `before` to `after`. -/
def Tally.count (tally : Tally) (before after : SharedFile) (call : Mutation) : Tally where
  largestSize := max tally.largestSize (logicalSize after)
  largestCapacity := max tally.largestCapacity (getFileCapacityBytes after)
  largestAllocated := max tally.largestAllocated (getAllocatedCapacityBytes after)
  writes := match call with
    | .write _ _ _ => tally.writes + 1
    | .truncate _ _ => tally.writes
  truncates := match call with
    | .write _ _ _ => tally.truncates
    | .truncate _ _ => tally.truncates + 1
  bytesWritten := match call with
    | .write _ bytes _ => tally.bytesWritten + bytes.length
    | .truncate _ _ => tally.bytesWritten
  segmentsDropped := tally.segmentsDropped
    + (droppedSegments before (getActiveSegmentCount after)).length
  bytesDropped := tally.bytesDropped
    + totalLength (droppedSegments before (getActiveSegmentCount after))

/-- The file and its tally after one more call that returns. -/
def record (x : SharedFile × Tally) (call : Mutation) : Option (SharedFile × Tally) :=
  (call.after x.1).map fun after => (after, x.2.count x.1 after call)

/-- A file that has just been created, or cleared after any calls. -/
inductive Started : SharedFile → Prop where
  | created {growable : Nat → Bool} {pathname : String} {caps : Capacities}
      {allowFixedCapacityFallback : Bool} {file : SharedFile}
      (hcreate : createSharedFile growable pathname caps.initialCapacityBytes
        caps.maxCapacityBytes allowFixedCapacityFallback = some file) : Started file
  | cleared {growable : Nat → Bool} {pathname : String} {caps : Capacities}
      {allowFixedCapacityFallback : Bool} {file : SharedFile}
      (hcreate : createSharedFile growable pathname caps.initialCapacityBytes
        caps.maxCapacityBytes allowFixedCapacityFallback = some file)
      (calls : List HandleCall) :
      Started (clearMemoryWriteAheadFile (calls.foldl SharedFile.handleCall (file, .empty 0)).1)

/-- What the diagnostics say, against the true history. -/
structure ReportsExactly (d : FileDiagnostics) (tally : Tally) : Prop where
  peakLogicalSizeBytes : d.peakLogicalSizeBytes = tally.largestSize
  peakCapacityBytes : d.peakCapacityBytes = tally.largestCapacity
  peakAllocatedCapacityBytes : d.peakAllocatedCapacityBytes = tally.largestAllocated
  writeOperationCount : d.writeOperationCount = min (2 ^ 31 - 1) (tally.writes : Int)
  truncateOperationCount : d.truncateOperationCount = min (2 ^ 31 - 1) (tally.truncates : Int)
  writtenBytes : d.writtenBytes = min (2 ^ 31 - 1) (tally.bytesWritten : Int)
  reclaimedSegmentCount :
    d.reclaimedSegmentCount = min (2 ^ 31 - 1) (tally.segmentsDropped : Int)
  reclaimedBytes : d.reclaimedBytes = min (2 ^ 31 - 1) (tally.bytesDropped : Int)

/-! ## §3. The lengths of segments. -/

theorem foldl_length (segments : List Segment) (n : Nat) :
    segments.foldl (fun total segment => total + segment.data.length) n
      = n + totalLength segments := by
  unfold totalLength
  induction segments generalizing n with
  | nil => rfl
  | cons s segments ih =>
      show segments.foldl _ (n + s.data.length) = n + segments.foldl _ (0 + s.data.length)
      rw [ih, ih (0 + _)]
      omega

theorem totalLength_append (xs ys : List Segment) :
    totalLength (xs ++ ys) = totalLength xs + totalLength ys := by
  show (xs ++ ys).foldl _ 0 = _
  rw [List.foldl_append, foldl_length]
  rfl

/-- Files with segments of the same lengths. -/
def SameLengths (file file' : SharedFile) : Prop :=
  file'.segments.map (·.data.length) = file.segments.map (·.data.length)

theorem totalLength_eq (segments : List Segment) :
    totalLength segments = (segments.map (·.data.length)).foldl (· + ·) 0 := by
  unfold totalLength
  rw [List.foldl_map]

section

variable {file file' : SharedFile}

theorem SameLengths.lengthOf (h : SameLengths file file') (n : Nat) :
    Storage.lengthOf file'.segments n = Storage.lengthOf file.segments n := by
  show totalLength (file'.segments.take n) = totalLength (file.segments.take n)
  rw [totalLength_eq, totalLength_eq, List.map_take, List.map_take, h]

theorem SameLengths.length (h : SameLengths file file') :
    file'.segments.length = file.segments.length := by
  have hlength := congrArg List.length h
  simpa using hlength

theorem SameShape.sameLengths (h : SameShape file file') : SameLengths file file' := by
  have hlengths := congrArg (List.map fun shape => shape.2.1) h.shapes
  rw [List.map_map, List.map_map] at hlengths
  exact hlengths

theorem allocated_eq (file : SharedFile) :
    getAllocatedCapacityBytes file = lengthOf file.segments file.segments.length := by
  show totalLength file.segments = totalLength (file.segments.take file.segments.length)
  rw [List.take_length]

theorem capacity_eq (file : SharedFile) :
    getFileCapacityBytes file = lengthOf file.segments (getActiveSegmentCount file) := rfl

/-- More segments are not shorter. -/
theorem lengthOf_le_lengthOf (segments : List Segment) {m n : Nat} (h : m ≤ n) :
    lengthOf segments m ≤ lengthOf segments n := by
  have hsplit := List.take_append_drop m (segments.take n)
  rw [List.take_take, Nat.min_eq_left h] at hsplit
  show totalLength (segments.take m) ≤ totalLength (segments.take n)
  rw [← hsplit, totalLength_append]
  omega

theorem Grew.lengthOf_le (h : Grew file file') (n : Nat) :
    lengthOf file.segments n ≤ lengthOf file'.segments n := by
  induction n with
  | zero => exact Nat.le_refl _
  | succ n ih =>
      by_cases hn : n < file.segments.length
      · have hget' := List.getElem?_eq_getElem (l := file'.segments) (i := n)
          (by rw [h.length]; exact hn)
        obtain ⟨s, m, hs, -, hgrown⟩ := h.segments n _ hget'
        rw [lengthOf_succ hs, lengthOf_succ hget', hgrown, Segment.length_grownTo]
        omega
      · -- there is no segment left
        have hstop (segments : List Segment) (hlength : segments.length = file.segments.length) :
            lengthOf segments (n + 1) = lengthOf segments n := by
          show totalLength (segments.take (n + 1)) = totalLength (segments.take n)
          rw [List.take_of_length_le (by omega), List.take_of_length_le (by omega)]
        rw [hstop _ rfl, hstop _ h.length]
        exact ih

/-- What is dropped is what the active capacity loses. -/
theorem droppedSegments_eq (file : SharedFile) (n : Nat) :
    (file.segments.drop n).take (getActiveSegmentCount file - n) = droppedSegments file n := by
  unfold droppedSegments
  rw [List.drop_take]

theorem droppedSegments_of_le (file : SharedFile) {n : Nat} (h : getActiveSegmentCount file ≤ n) :
    droppedSegments file n = [] := by
  unfold droppedSegments
  exact List.drop_eq_nil_of_le (by rw [List.length_take]; omega)

end

/-! ## §4. The words against the tally. -/

theorem updateMax_toInt (x : BitVec 32) (value : Int) :
    (updateAtomicMaxCounter x value).toInt
      = max x.toInt (max 0 (min maxInt32AtomicCounter value)) := by
  rw [← Counters.updateAtomicMaxCounter_effect]
  exact (Counters.updateMax_takesEffect _ _).1

/-- Saturation composes: a sum that is capped stays capped. -/
theorem addSaturating_capped {x : BitVec 32} {total : Nat}
    (h : x.toInt = min (2 ^ 31 - 1) (total : Int)) (delta : Nat) :
    (addSaturatingAtomicCounter x delta).toInt = min (2 ^ 31 - 1) ((total + delta : Nat) : Int) := by
  have heffect := (Counters.addSaturating_takesEffect delta (x := x) (by omega)).1
  rw [Counters.addSaturatingAtomicCounter_effect] at heffect
  rw [heffect]
  unfold maxInt32AtomicCounter
  omega

/-- The words say what the tally does, but for the capacity `c₀` that the file has
begun with, and for the allocated capacity, whose largest value is the last. -/
structure WordsMatch (c₀ : Nat) (words : Words) (tally : Tally) : Prop where
  size : words.peakLogicalSizeBytes.toInt = tally.largestSize
  capacity : max (c₀ : Int) words.peakCapacityBytes.toInt = tally.largestCapacity
  allocated : words.peakAllocatedCapacityBytes.toInt ≤ tally.largestAllocated
  writes : words.writeOperationCount.toInt = min (2 ^ 31 - 1) (tally.writes : Int)
  truncates : words.truncateOperationCount.toInt = min (2 ^ 31 - 1) (tally.truncates : Int)
  written : words.writtenBytes.toInt = min (2 ^ 31 - 1) (tally.bytesWritten : Int)
  segmentsDropped :
    words.reclaimedSegmentCount.toInt = min (2 ^ 31 - 1) (tally.segmentsDropped : Int)
  bytesDropped : words.reclaimedBytes.toInt = min (2 ^ 31 - 1) (tally.bytesDropped : Int)

section

variable {c₀ : Nat} {words : Words} {tally : Tally}

theorem WordsMatch.setSize (h : WordsMatch c₀ words tally) (size : BitVec 32) {n : Nat}
    (hn : n ≤ maxInt32AtomicCounter) :
    WordsMatch c₀ { words with
        size := size
        peakLogicalSizeBytes := updateAtomicMaxCounter words.peakLogicalSizeBytes n }
      { tally with largestSize := max tally.largestSize n } := by
  refine { h with size := ?_ }
  have hsize := h.size
  rw [updateMax_toInt]
  show _ = ((max tally.largestSize n : Nat) : Int)
  omega

theorem WordsMatch.setCapacities (h : WordsMatch c₀ words tally) {capacity : Nat}
    (hcapacity : capacity ≤ maxInt32AtomicCounter) (allocated : Nat) :
    WordsMatch c₀ { words with
        peakCapacityBytes := updateAtomicMaxCounter words.peakCapacityBytes capacity
        peakAllocatedCapacityBytes :=
          updateAtomicMaxCounter words.peakAllocatedCapacityBytes allocated }
      { tally with
        largestCapacity := max tally.largestCapacity capacity
        largestAllocated := max tally.largestAllocated allocated } := by
  refine { h with capacity := ?_, allocated := ?_ }
  · have hold := h.capacity
    rw [updateMax_toInt]
    show _ = ((max tally.largestCapacity capacity : Nat) : Int)
    omega
  · have hold := h.allocated
    rw [updateMax_toInt]
    show _ ≤ ((max tally.largestAllocated allocated : Nat) : Int)
    omega

theorem WordsMatch.countWrite (h : WordsMatch c₀ words tally) :
    WordsMatch c₀ { words with
        writeOperationCount := addSaturatingAtomicCounter words.writeOperationCount 1 }
      { tally with writes := tally.writes + 1 } :=
  { h with writes := addSaturating_capped h.writes 1 }

theorem WordsMatch.countWritten (h : WordsMatch c₀ words tally) (n : Nat) :
    WordsMatch c₀ { words with
        writtenBytes := addSaturatingAtomicCounter words.writtenBytes n }
      { tally with bytesWritten := tally.bytesWritten + n } :=
  { h with written := addSaturating_capped h.written n }

theorem WordsMatch.countTruncate (h : WordsMatch c₀ words tally) :
    WordsMatch c₀ { words with
        truncateOperationCount := addSaturatingAtomicCounter words.truncateOperationCount 1 }
      { tally with truncates := tally.truncates + 1 } :=
  { h with truncates := addSaturating_capped h.truncates 1 }

theorem WordsMatch.countDropped (h : WordsMatch c₀ words tally) (n bytes : Nat) :
    WordsMatch c₀ { words with
        reclaimedSegmentCount := addSaturatingAtomicCounter words.reclaimedSegmentCount n
        reclaimedBytes := addSaturatingAtomicCounter words.reclaimedBytes bytes }
      { tally with
        segmentsDropped := tally.segmentsDropped + n
        bytesDropped := tally.bytesDropped + bytes } :=
  { h with
    segmentsDropped := addSaturating_capped h.segmentsDropped n
    bytesDropped := addSaturating_capped h.bytesDropped bytes }

/-- How many segments are active is not counted. -/
theorem WordsMatch.setActive (h : WordsMatch c₀ words tally) (n : BitVec 32) :
    WordsMatch c₀ { words with activeSegmentCount := n } tally :=
  { h with }

end

/-! ## §5. One call. -/

section

variable {granted : Nat → Bool} {file file' : SharedFile}

theorem growSegments_false {required count index : Nat}
    (h : growSegments granted required index count file = (file', .ok false)) : file' = file := by
  induction count generalizing index file file' with
  | zero => exact (Prod.mk.inj h).1.symm
  | succ count ih =>
      unfold growSegments at h
      split at h
      next => cases h
      next segment hsegment =>
        split at h
        next => cases h
        next grown didGrow hgrow =>
          simp only [Prod.mk.injEq] at h
          obtain ⟨hfile, hresult⟩ := h
          generalize hrest : growSegments granted required (index + 1) count
            { file with segments := file.segments.set index grown } = rest at hfile hresult
          obtain ⟨restFile, restResult⟩ := rest
          cases restResult with
          | error e => cases hresult
          | ok didRest =>
              have hneither : (didGrow || didRest) = false := Except.ok.inj hresult
              obtain ⟨rfl, rfl⟩ := Bool.or_eq_false_iff.mp hneither
              -- a segment that has not grown is put back
              have hsame : grown = segment := by
                unfold growSegment at hgrow
                split at hgrow
                next => exact (Prod.mk.inj (Except.ok.inj hgrow)).1.symm
                next =>
                  split at hgrow
                  next => cases hgrow
                  next =>
                    split at hgrow
                    next =>
                      split at hgrow
                      next => cases (Prod.mk.inj (Except.ok.inj hgrow)).2
                      next => cases hgrow
                    next => cases hgrow
              have hput : file.segments.set index grown = file.segments := by
                obtain ⟨hlt, hget⟩ := List.getElem?_eq_some_iff.mp hsegment
                rw [hsame, ← hget]
                exact List.set_getElem_self hlt
              rw [hput] at hrest
              have hrestFile : restFile = file := ih hrest
              exact hfile.symm.trans hrestFile

/-- What `ensureFileCapacity` leaves when it has changed anything. -/
structure Marked (required : Nat) (file file' : SharedFile) : Prop where
  peaks : ∃ grown word, Grew file grown ∧ file' = updateCapacityPeaks
    { grown with words := { grown.words with activeSegmentCount := word } }
  active_le : getActiveSegmentCount file ≤ getActiveSegmentCount file'
  active : getActiveSegmentCount file' = segmentCountFor required file.segmentCapacityBytes

theorem setActiveSegmentCount_grow {n : Nat} (hpos : 1 ≤ n) (hlength : n ≤ file.segments.length)
    (h : getActiveSegmentCount file ≤ n) :
    setActiveSegmentCount file n = updateCapacityPeaks
      { file with words := { file.words with activeSegmentCount := BitVec.ofInt 32 n } } := by
  have hnext : max minSegmentCount (min n file.segments.length) = n := by
    unfold minSegmentCount
    omega
  unfold setActiveSegmentCount
  simp only [hnext]
  rw [if_neg (by omega)]

/-- **Whatever `ensureFileCapacity` changes, it records.** -/
theorem ensureFileCapacity_marks (hw : Wf file) {required : Nat}
    (h : ensureFileCapacity granted file required = (file', .ok ())) :
    file' = file ∨ Marked required file file' := by
  unfold ensureFileCapacity at h
  split at h
  next => cases h
  next hfit =>
    simp only at h
    split at h
    next => exact .inl (Prod.mk.inj h).1.symm
    next hsmall =>
      have hle : getActiveSegmentCount file
          ≤ segmentCountFor required file.segmentCapacityBytes :=
        hw.active_le_segmentCountFor (by omega)
      have hpos := segmentCountFor_pos required file.segmentCapacityBytes
      have hlength : segmentCountFor required file.segmentCapacityBytes
          ≤ file.segments.length := by
        rw [hw.count]
        exact segmentCountFor_mono hw.cap_pos (by omega)
      rw [if_neg (show ¬required = 0 by omega)] at h
      have hgrew := growSegments_grew granted required
        (segmentCountFor required file.segmentCapacityBytes - (getActiveSegmentCount file - 1))
        (getActiveSegmentCount file - 1) file
      split at h
      next => cases h
      next grown didGrow hgrow =>
        rw [hgrow] at hgrew
        change Grew file grown at hgrew
        have hgrownActive : getActiveSegmentCount grown = getActiveSegmentCount file := by
          unfold getActiveSegmentCount
          rw [hgrew.words]
        split at h
        next hmore =>
          have hgrownLength := hgrew.length
          obtain ⟨-, hactive⟩ := setActiveSegmentCount_spec (hgrew.wf hw).toLayout hpos (by omega)
          rw [setActiveSegmentCount_grow hpos (by omega) (by omega)] at h hactive
          obtain rfl := (Prod.mk.inj h).1
          exact .inr ⟨⟨grown, _, hgrew, rfl⟩, by omega, hactive⟩
        next hsame =>
          cases didGrow with
          | true =>
              obtain rfl : updateCapacityPeaks grown = file' := (Prod.mk.inj h).1
              have hactive : getActiveSegmentCount (updateCapacityPeaks grown)
                = getActiveSegmentCount grown := (updateCapacityPeaks_same grown).activeSegmentCount
              exact .inr ⟨⟨grown, _, hgrew, rfl⟩, by omega, by omega⟩
          | false =>
              obtain rfl : grown = file' := (Prod.mk.inj h).1
              exact .inl (growSegments_false hgrow)

/-- The state between two calls. -/
structure Recorded (c₀ : Nat) (file : SharedFile) (tally : Tally) : Prop where
  wf : Wf file
  /-- the first segment is never dropped -/
  first : c₀ ≤ lengthOf file.segments 1
  size_le : logicalSize file ≤ tally.largestSize
  capacity_le : getFileCapacityBytes file ≤ tally.largestCapacity
  /-- no segment ever shrinks -/
  allocated : tally.largestAllocated = getAllocatedCapacityBytes file
  words : WordsMatch c₀ file.words tally

/-- The tally with the capacities that the file has now. -/
def Tally.withCapacities (tally : Tally) (file : SharedFile) : Tally :=
  { tally with
    largestCapacity := max tally.largestCapacity (getFileCapacityBytes file)
    largestAllocated := max tally.largestAllocated (getAllocatedCapacityBytes file) }

/-- Segments that are not shorter, with at least as many of them active. -/
structure NotSmaller (file file' : SharedFile) : Prop where
  lengths : ∀ n, lengthOf file.segments n ≤ lengthOf file'.segments n
  length : file'.segments.length = file.segments.length

theorem NotSmaller.refl (file : SharedFile) : NotSmaller file file :=
  ⟨fun _ => Nat.le_refl _, rfl⟩

theorem NotSmaller.allocated_le (h : NotSmaller file file') :
    getAllocatedCapacityBytes file ≤ getAllocatedCapacityBytes file' := by
  rw [allocated_eq, allocated_eq, h.length]
  exact h.lengths _

theorem NotSmaller.of_same {file'' : SharedFile} (h : NotSmaller file file')
    (hsame : SameLengths file' file'') : NotSmaller file file'' :=
  ⟨fun n => by rw [hsame.lengthOf]; exact h.lengths n, hsame.length.trans h.length⟩

variable {c₀ : Nat} {tally : Tally}

theorem Recorded.ensure (h : Recorded c₀ file tally) {required : Nat} (hw : Wf file')
    (hensure : ensureFileCapacity granted file required = (file', .ok ())) :
    WordsMatch c₀ file'.words (tally.withCapacities file') ∧ NotSmaller file file'
      ∧ (file' = file ∨ Marked required file file') := by
  have hmarks := ensureFileCapacity_marks h.wf hensure
  rcases hmarks with rfl | hmarked
  · refine ⟨?_, .refl _, .inl rfl⟩
    have hsame : tally.withCapacities file' = tally := by
      have hcapacity := h.capacity_le
      have hallocated := h.allocated
      unfold Tally.withCapacities
      rw [Nat.max_eq_left hcapacity, Nat.max_eq_left (by omega)]
    rw [hsame]
    exact h.words
  · obtain ⟨grown, word, hgrew, hpeaks⟩ := hmarked.peaks
    have hsegments : file'.segments = grown.segments := by rw [hpeaks]; rfl
    refine ⟨?_, ⟨fun n => by rw [hsegments]; exact hgrew.lengthOf_le n,
      by rw [hsegments]; exact hgrew.length⟩, .inr hmarked⟩
    have hbounded := hw.bounded
    have hcapacity : getFileCapacityBytes file' ≤ maxInt32AtomicCounter :=
      Nat.le_trans hbounded.capacity_le hbounded.max_le
    have hwords : grown.words = file.words := hgrew.words
    have hmatch := (h.words.setActive word).setCapacities hcapacity
      (getAllocatedCapacityBytes file')
    rw [← hwords] at hmatch
    rw [hpeaks] at hmatch ⊢
    exact hmatch

/-- What is left to show of a call are the words. -/
theorem Recorded.after (h : Recorded c₀ file tally) {call : Mutation} (hw : Wf file')
    (hn : NotSmaller file file') (hwords : WordsMatch c₀ file'.words (tally.count file file' call)) :
    Recorded c₀ file' (tally.count file file' call) where
  wf := hw
  first := Nat.le_trans h.first (hn.lengths 1)
  size_le := Nat.le_max_right _ _
  capacity_le := Nat.le_max_right _ _
  allocated := by
    have hold := h.allocated
    exact Nat.max_eq_right (by rw [hold]; exact hn.allocated_le)
  words := hwords

/-- A write that returns, in its stages. -/
theorem write_stages (hw : Wf file) {bytes : List UInt8} {offset n : Nat}
    (h : writeMemoryWriteAheadFile granted file bytes offset = (file', .returned n)) :
    ∃ ensured placed, ensureFileCapacity granted file (offset + bytes.length) = (ensured, .ok ())
      ∧ Ensured (offset + bytes.length) file ensured ∧ SameShape ensured placed
      ∧ (bytes.length = 0 ∧ file' = countWriteOperation (setFileSizeBytes placed
            (max (getFileSizeBytes placed) (offset + bytes.length : Nat)))
        ∨ file' = countWrittenBytes (countWriteOperation (setFileSizeBytes placed
            (max (getFileSizeBytes placed) (offset + bytes.length : Nat)))) bytes.length) := by
  rcases ensureFileCapacity_cases granted hw (offset + bytes.length) with
    ⟨e, ensured, hensure, -⟩ | ⟨ensured, grown, hensure, he, -, -⟩
  · unfold writeMemoryWriteAheadFile at h
    simp only [hensure] at h
    cases (Prod.mk.inj h).2
  · unfold writeMemoryWriteAheadFile at h
    simp only [hensure] at h
    by_cases hempty : bytes.length = 0
    · rw [if_pos hempty] at h
      exact ⟨ensured, ensured, hensure, he, .rfl, .inl ⟨hempty, (Prod.mk.inj h).1.symm⟩⟩
    · obtain ⟨placed, hwrite, hp⟩ := writeBytes_spec offset he.wf (Nat.pos_of_ne_zero hempty)
        (fun p _ hhi => he.wf.located (by have := he.enough; omega))
      rw [if_neg hempty, hwrite] at h
      exact ⟨ensured, placed, hensure, he, hp.toSameShape, .inr (Prod.mk.inj h).1.symm⟩

/-- Writing into the segments and counting leave the capacities. -/
theorem SameLengths.capacities (h : SameLengths file file')
    (hactive : getActiveSegmentCount file' = getActiveSegmentCount file) :
    getFileCapacityBytes file' = getFileCapacityBytes file
      ∧ getAllocatedCapacityBytes file' = getAllocatedCapacityBytes file := by
  constructor
  · rw [capacity_eq, capacity_eq, hactive, h.lengthOf]
  · rw [allocated_eq, allocated_eq, h.length, h.lengthOf]

theorem Recorded.write (h : Recorded c₀ file tally) {bytes : List UInt8} {offset n : Nat}
    (hwrite : writeMemoryWriteAheadFile granted file bytes offset = (file', .returned n)) :
    Recorded c₀ file' (tally.count file file' (.write granted bytes offset)) := by
  obtain ⟨ensured, placed, hensure, he, hshape, hstages⟩ := write_stages h.wf hwrite
  obtain ⟨hmatch, hn, hmarked⟩ := h.ensure he.wf hensure
  obtain ⟨written, hgranted, hw, -, hwritten⟩ := write_correct h.wf bytes offset he.required_le
  rw [write_granted hensure, hgranted] at hwrite
  obtain rfl : written = file' := (Prod.mk.inj hwrite).1
  have hstored : getFileSizeBytes placed = logicalSize file := by
    rw [hshape.fileSize, he.size, h.wf.size_eq]
  have hsize : max (getFileSizeBytes placed) ((offset + bytes.length : Nat) : Int)
      = (logicalSize written : Nat) := by
    rw [hstored, hwritten.size]
    omega
  have hsizeLe : logicalSize written ≤ maxInt32AtomicCounter := by
    have hstoredSize := hw.size_eq
    have hbounded := hw.bounded
    have hle := hbounded.size_le
    have hcapacity := hbounded.capacity_le
    have hmax := hbounded.max_le
    unfold maxInt32AtomicCounter
    omega
  have hlengths : SameLengths ensured written := by
    rcases hstages with ⟨-, rfl⟩ | rfl
    · exact hshape.sameLengths
    · exact hshape.sameLengths
  have hactive : getActiveSegmentCount written = getActiveSegmentCount ensured := by
    rw [← hshape.activeSegmentCount]
    rcases hstages with ⟨-, rfl⟩ | rfl
    · rfl
    · rfl
  obtain ⟨hcapacity, hallocated⟩ := hlengths.capacities hactive
  have hdropped : droppedSegments file (getActiveSegmentCount written) = [] := by
    refine droppedSegments_of_le file ?_
    rw [hactive]
    rcases hmarked with rfl | hmarked
    · exact Nat.le_refl _
    · exact hmarked.active_le
  refine h.after hw (hn.of_same hlengths) ?_
  rw [← hshape.words] at hmatch
  have hcounted := (hmatch.setSize (BitVec.ofInt 32 (logicalSize written)) hsizeLe).countWrite
  have htally : tally.count file written (.write granted bytes offset)
      = { tally.withCapacities ensured with
          largestSize := max tally.largestSize (logicalSize written)
          writes := tally.writes + 1
          bytesWritten := tally.bytesWritten + bytes.length } := by
    unfold Tally.count Tally.withCapacities
    rw [hcapacity, hallocated, hdropped]
    rfl
  rw [htally]
  rw [hsize] at hstages
  rcases hstages with ⟨hempty, hfile⟩ | hfile
  · rw [hempty, congrArg SharedFile.words hfile]
    exact hcounted
  · rw [congrArg SharedFile.words hfile]
    exact hcounted.countWritten bytes.length

theorem segmentCountFor_zero {cap : Nat} (hcap : 0 < cap) : segmentCountFor 0 cap = 1 := by
  unfold segmentCountFor minSegmentCount
  rw [Nat.zero_add, Nat.div_eq_of_lt (by omega)]
  rfl

theorem WordsMatch.updateCapacityPeaks (h : WordsMatch c₀ file.words tally)
    (hcapacity : getFileCapacityBytes file ≤ maxInt32AtomicCounter) :
    WordsMatch c₀ (Storage.updateCapacityPeaks file).words (tally.withCapacities file) :=
  h.setCapacities hcapacity _

theorem WordsMatch.countReclaimed (h : WordsMatch c₀ file.words tally) {n : Nat}
    (hlength : getActiveSegmentCount file ≤ file.segments.length)
    (hn : n ≤ getActiveSegmentCount file) :
    WordsMatch c₀ (Storage.countReclaimed file n (getActiveSegmentCount file)).words
      { tally with
        segmentsDropped := tally.segmentsDropped + (droppedSegments file n).length
        bytesDropped := tally.bytesDropped + totalLength (droppedSegments file n) } := by
  have hcount : (droppedSegments file n).length = getActiveSegmentCount file - n := by
    unfold droppedSegments
    rw [List.length_drop, List.length_take]
    omega
  have hsegments : (getActiveSegmentCount file : Int) - (n : Int)
      = ((droppedSegments file n).length : Nat) := by omega
  have hbytes : ((file.segments.drop n).take (getActiveSegmentCount file - n)).foldl
      (fun sum segment => sum + segment.data.length) 0 = totalLength (droppedSegments file n) := by
    rw [droppedSegments_eq]
    rfl
  unfold Storage.countReclaimed
  rw [hsegments, hbytes]
  exact h.countDropped _ _

/-- A shrink counts what it drops. -/
theorem WordsMatch.setActiveSegmentCount (h : WordsMatch c₀ file.words tally) {n : Nat}
    (hlength : getActiveSegmentCount file ≤ file.segments.length) (hpos : 1 ≤ n)
    (hn : n ≤ getActiveSegmentCount file)
    (hcapacity : getFileCapacityBytes (Storage.setActiveSegmentCount file n)
      ≤ maxInt32AtomicCounter) :
    WordsMatch c₀ (Storage.setActiveSegmentCount file n).words
      { tally.withCapacities (Storage.setActiveSegmentCount file n) with
        segmentsDropped := tally.segmentsDropped + (droppedSegments file n).length
        bytesDropped := tally.bytesDropped + totalLength (droppedSegments file n) } := by
  by_cases hshrink : n < getActiveSegmentCount file
  · have hnext : max minSegmentCount (min n file.segments.length) = n := by
      unfold minSegmentCount
      omega
    have hset : Storage.setActiveSegmentCount file n = Storage.updateCapacityPeaks
        { Storage.countReclaimed file n (getActiveSegmentCount file) with
          words := { (Storage.countReclaimed file n (getActiveSegmentCount file)).words with
            activeSegmentCount := BitVec.ofInt 32 n } } := by
      unfold Storage.setActiveSegmentCount
      simp only [hnext]
      rw [if_pos hshrink]
    rw [hset] at hcapacity ⊢
    exact ((h.countReclaimed hlength hn).setActive (BitVec.ofInt 32 n)).setCapacities hcapacity _
  · obtain rfl : n = getActiveSegmentCount file := by omega
    rw [droppedSegments_of_le file (Nat.le_refl _)]
    rw [setActiveSegmentCount_grow hpos hlength (Nat.le_refl _)] at hcapacity ⊢
    exact (h.setActive (BitVec.ofInt 32 (getActiveSegmentCount file))).setCapacities hcapacity _

theorem WordsMatch.recordHighWater (h : WordsMatch c₀ file.words tally) (hw : Wf file) :
    WordsMatch c₀ (recordMemoryWriteAheadFileHighWater file).words
      { tally.withCapacities file with
        largestSize := max tally.largestSize (logicalSize file) } := by
  have hbounded := hw.bounded
  have hsize := hw.size_eq
  have hsizeLe := hbounded.size_le
  have hcapacityLe := hbounded.capacity_le
  have hmaxLe := hbounded.max_le
  have hcapacity : getFileCapacityBytes file ≤ maxInt32AtomicCounter := by
    unfold maxInt32AtomicCounter
    omega
  have hmatch := (h.setSize file.words.size (n := logicalSize file)
    (by omega)).setCapacities hcapacity (getAllocatedCapacityBytes file)
  rw [← hsize] at hmatch
  exact hmatch

theorem Recorded.truncate (h : Recorded c₀ file tally) {sizeBytes : Nat}
    (htruncate : truncateMemoryWriteAheadFile granted file sizeBytes = (file', .returned ())) :
    Recorded c₀ file' (tally.count file file' (.truncate granted sizeBytes)) := by
  rcases ensureFileCapacity_cases granted h.wf sizeBytes with
    ⟨e, ensured, hensure, -⟩ | ⟨ensured, grown, hensure, he, -, -⟩
  · unfold truncateMemoryWriteAheadFile at htruncate
    simp only [hensure] at htruncate
    cases (Prod.mk.inj htruncate).2
  obtain ⟨hmatch, hn, hmarked⟩ := h.ensure he.wf hensure
  obtain ⟨truncated, hgranted, hw, -, hsize⟩ := truncate_correct h.wf sizeBytes he.required_le
  rw [truncate_granted hensure, hgranted] at htruncate
  obtain rfl : truncated = file' := (Prod.mk.inj htruncate).1
  unfold truncateMemoryWriteAheadFile at hgranted
  simp only [ensureFileCapacity_granted hensure] at hgranted
  generalize hdesired : (if sizeBytes = 0 then minSegmentCount
    else segmentCountFor sizeBytes ensured.segmentCapacityBytes) = desired at hgranted
  have hshrunk := he.wf.shrunk he.enough hdesired
  have hfinal := (Prod.mk.inj hgranted).1
  obtain ⟨hstored, hactive⟩ := setActiveSegmentCount_spec hshrunk.sized.toLayout hshrunk.pos
    (Nat.le_trans hshrunk.le hshrunk.sized.active_le)
  generalize hset : setActiveSegmentCount (setFileSizeBytes ensured sizeBytes) desired = shrunk
    at hfinal hstored hactive
  have hwShrunk : Wf shrunk := by
    rw [← hset]
    exact hshrunk.wf
  have hsegments : shrunk.segments = ensured.segments := hstored.segments
  have hmaxLe := hwShrunk.bounded.max_le
  have hcapacityLe := hwShrunk.bounded.capacity_le
  have hsizeLe := hwShrunk.bounded.size_le
  have hshrunkSize : getFileSizeBytes shrunk = sizeBytes := by
    rw [← hset]
    exact hshrunk.size
  -- the words go through the stages with the tally
  have hsized : WordsMatch c₀ (setFileSizeBytes ensured sizeBytes).words _ :=
    hmatch.setSize (BitVec.ofInt 32 sizeBytes) (n := sizeBytes)
      (by unfold maxInt32AtomicCounter; omega)
  have hdropped := hsized.setActiveSegmentCount hshrunk.sized.active_le hshrunk.pos hshrunk.le
    (by rw [hset]; unfold maxInt32AtomicCounter; omega)
  rw [hset] at hdropped
  have hcounted : WordsMatch c₀ (countTruncateOperation shrunk).words _ := hdropped.countTruncate
  have hrecorded := hcounted.recordHighWater ((countTruncateOperation_same shrunk).wf hwShrunk)
  rw [hfinal] at hrecorded
  have hcapacity : getFileCapacityBytes truncated = getFileCapacityBytes shrunk := by
    rw [← hfinal]
    rfl
  have hallocated : getAllocatedCapacityBytes truncated = getAllocatedCapacityBytes ensured := by
    rw [← hfinal]
    show totalLength shrunk.segments = totalLength ensured.segments
    rw [hsegments]
  have hactiveFinal : getActiveSegmentCount truncated = desired := by
    rw [← hfinal]
    exact hactive
  have hshorter : getFileCapacityBytes shrunk ≤ getFileCapacityBytes ensured := by
    rw [capacity_eq, capacity_eq, hactive, hsegments]
    exact lengthOf_le_lengthOf _ hshrunk.le
  -- growth that is not dropped again in the same call is the capacity that it leaves
  have hcases : droppedSegments file desired = droppedSegments ensured desired
      ∧ (getFileCapacityBytes ensured ≤ tally.largestCapacity
        ∨ getFileCapacityBytes shrunk = getFileCapacityBytes ensured) := by
    rcases hmarked with rfl | hmarked
    · exact ⟨rfl, .inl h.capacity_le⟩
    · have hsameCount : desired = getActiveSegmentCount ensured := by
        rw [hmarked.active, ← hdesired, he.cap]
        split
        next hzero => rw [hzero, segmentCountFor_zero h.wf.cap_pos]; rfl
        next => rfl
      refine ⟨?_, .inr ?_⟩
      · rw [hsameCount, droppedSegments_of_le _ (Nat.le_refl _),
          droppedSegments_of_le _ hmarked.active_le]
      · rw [capacity_eq, capacity_eq, hactive, hsegments, hsameCount]
  obtain ⟨hsameDropped, hlargest⟩ := hcases
  have hlargest : max tally.largestCapacity (getFileCapacityBytes truncated)
      = max (max (max tally.largestCapacity (getFileCapacityBytes ensured))
        (getFileCapacityBytes shrunk)) (getFileCapacityBytes shrunk) := by
    rw [hcapacity]
    omega
  have hlargestAllocated : max tally.largestAllocated (getAllocatedCapacityBytes truncated)
      = max (max (max tally.largestAllocated (getAllocatedCapacityBytes ensured))
        (getAllocatedCapacityBytes shrunk)) (getAllocatedCapacityBytes shrunk) := by
    have hshrunkAllocated : getAllocatedCapacityBytes shrunk = getAllocatedCapacityBytes ensured := by
      show totalLength shrunk.segments = totalLength ensured.segments
      rw [hsegments]
    rw [hallocated, hshrunkAllocated]
    omega
  have hlargestSize : max tally.largestSize (logicalSize truncated)
      = max (max tally.largestSize sizeBytes) (logicalSize shrunk) := by
    have hshrunkLogical : logicalSize shrunk = sizeBytes := by
      unfold logicalSize
      rw [hshrunkSize]
      rfl
    rw [hsize.size, hshrunkLogical]
    omega
  have hn' : NotSmaller file truncated := by
    refine ⟨fun n => ?_, ?_⟩
    · rw [← hfinal]
      show _ ≤ lengthOf shrunk.segments n
      rw [hsegments]
      exact hn.lengths n
    · rw [← hfinal]
      show shrunk.segments.length = _
      rw [hsegments]
      exact hn.length
  refine h.after hw hn' ?_
  unfold Tally.count
  rw [hlargest, hlargestAllocated, hlargestSize, hactiveFinal, hsameDropped]
  exact hrecorded

/-- **Step lemma**: a call that returns. -/
theorem Recorded.call (h : Recorded c₀ file tally) {call : Mutation}
    (hcall : call.after file = some file') : Recorded c₀ file' (tally.count file file' call) := by
  cases call with
  | write granted bytes offset =>
      simp only [Mutation.after] at hcall
      split at hcall
      next written n hwrite =>
        obtain rfl := Option.some.inj hcall
        exact h.write hwrite
      next => cases hcall
  | truncate granted sizeBytes =>
      simp only [Mutation.after] at hcall
      split at hcall
      next truncated htruncate =>
        obtain rfl := Option.some.inj hcall
        exact h.truncate htruncate
      next => cases hcall

end

/-! ## §6. Any history. -/

/-- Every maximum and every total is at least as large. -/
structure Tally.AtMost (tally tally' : Tally) : Prop where
  largestSize : tally.largestSize ≤ tally'.largestSize
  largestCapacity : tally.largestCapacity ≤ tally'.largestCapacity
  largestAllocated : tally.largestAllocated ≤ tally'.largestAllocated
  writes : tally.writes ≤ tally'.writes
  truncates : tally.truncates ≤ tally'.truncates
  bytesWritten : tally.bytesWritten ≤ tally'.bytesWritten
  segmentsDropped : tally.segmentsDropped ≤ tally'.segmentsDropped
  bytesDropped : tally.bytesDropped ≤ tally'.bytesDropped

theorem Tally.AtMost.refl (tally : Tally) : tally.AtMost tally := by
  constructor <;> exact Nat.le_refl _

theorem Tally.AtMost.trans {t₁ t₂ t₃ : Tally} (h : t₁.AtMost t₂) (h' : t₂.AtMost t₃) :
    t₁.AtMost t₃ where
  largestSize := Nat.le_trans h.largestSize h'.largestSize
  largestCapacity := Nat.le_trans h.largestCapacity h'.largestCapacity
  largestAllocated := Nat.le_trans h.largestAllocated h'.largestAllocated
  writes := Nat.le_trans h.writes h'.writes
  truncates := Nat.le_trans h.truncates h'.truncates
  bytesWritten := Nat.le_trans h.bytesWritten h'.bytesWritten
  segmentsDropped := Nat.le_trans h.segmentsDropped h'.segmentsDropped
  bytesDropped := Nat.le_trans h.bytesDropped h'.bytesDropped

theorem Tally.atMost_count (tally : Tally) (before after : SharedFile) (call : Mutation) :
    tally.AtMost (tally.count before after call) where
  largestSize := Nat.le_max_left _ _
  largestCapacity := Nat.le_max_left _ _
  largestAllocated := Nat.le_max_left _ _
  writes := by
    cases call with
    | write granted bytes offset => exact Nat.le_succ _
    | truncate granted sizeBytes => exact Nat.le_refl _
  truncates := by
    cases call with
    | write granted bytes offset => exact Nat.le_refl _
    | truncate granted sizeBytes => exact Nat.le_succ _
  bytesWritten := by
    cases call with
    | write granted bytes offset => exact Nat.le_add_right _ _
    | truncate granted sizeBytes => exact Nat.le_refl _
  segmentsDropped := Nat.le_add_right _ _
  bytesDropped := Nat.le_add_right _ _

/-- **Run lemma**: any calls that return. -/
theorem Recorded.calls {c₀ : Nat} {x x' : SharedFile × Tally} (h : Recorded c₀ x.1 x.2)
    {calls : List Mutation} (hrun : calls.foldlM record x = some x') :
    Recorded c₀ x'.1 x'.2 ∧ x.2.AtMost x'.2 := by
  induction calls generalizing x with
  | nil =>
      obtain rfl := Option.some.inj hrun
      exact ⟨h, .refl _⟩
  | cons call calls ih =>
      rw [List.foldlM_cons] at hrun
      obtain ⟨y, hy, hrest⟩ := Option.bind_eq_some_iff.mp hrun
      obtain ⟨after, hafter, rfl⟩ := Option.map_eq_some_iff.mp hy
      obtain ⟨hend, hmore⟩ := ih (h.call hafter) hrest
      exact ⟨hend, (x.2.atMost_count x.1 after call).trans hmore⟩

section

variable {file : SharedFile} {c₀ : Nat} {tally : Tally}

theorem WordsMatch.start (c₀ : Nat) (allocated : Nat) (active : BitVec 32) :
    WordsMatch c₀ ⟨0, active, 0, 0, 0, 0, 0, 0, 0, 0⟩ ⟨0, c₀, allocated, 0, 0, 0, 0, 0⟩ where
  size := rfl
  capacity := by
    show max (c₀ : Int) 0 = c₀
    omega
  allocated := Int.natCast_nonneg _
  writes := rfl
  truncates := rfl
  written := rfl
  segmentsDropped := rfl
  bytesDropped := rfl

theorem Recorded.reports (h : Recorded c₀ file tally) :
    ReportsExactly (fileDiagnostics file) tally := by
  have hsize := h.size_le
  have hstored := h.wf.size_eq
  have hcapacity := h.capacity_le
  have hfirst : c₀ ≤ getFileCapacityBytes file :=
    Nat.le_trans h.first (lengthOf_le_lengthOf _ (getActiveSegmentCount_pos file))
  have hallocated := h.allocated
  have hpeakSize := h.words.size
  have hpeakCapacity := h.words.capacity
  have hpeakAllocated := h.words.allocated
  refine ⟨?_, ?_, ?_, h.words.writes, h.words.truncates, h.words.written, h.words.segmentsDropped,
    h.words.bytesDropped⟩
  · show max (getFileSizeBytes file) _ = _
    omega
  · show max (getFileCapacityBytes file : Int) _ = _
    omega
  · show max (getAllocatedCapacityBytes file : Int) _ = _
    omega

/-- A start with every counter 0 and the present capacity recorded, or not yet. -/
theorem Started.recorded (h : Started file) :
    Recorded (getFileCapacityBytes file) file (.start file) := by
  induction h with
  | created hcreate =>
      have hleaves := createSharedFile_left hcreate
      obtain ⟨segments, -, rfl⟩ := Option.map_eq_some_iff.mp hcreate
      exact ⟨hleaves.wf, Nat.le_refl _, Nat.le_refl _, Nat.le_refl _, rfl, .start _ _ _⟩
  | @cleared growable pathname caps allowFixedCapacityFallback file hcreate calls =>
      have hleaves := Leaves.calls (x := (file, .empty 0)) (createSharedFile_left hcreate) calls
      generalize (calls.foldl SharedFile.handleCall (file, .empty 0)) = x at hleaves
      have hcleared := (clear_left hleaves).wf
      have hlength : 1 ≤ x.1.segments.length := by
        have hpos := getActiveSegmentCount_pos x.1
        have hle := hleaves.wf.active_le
        omega
      have hclear : clearMemoryWriteAheadFile x.1 = updateCapacityPeaks
          { x.1 with words := ⟨0, 1, 0, 0, 0, 0, 0, 0, 0, 0⟩ } :=
        setActiveSegmentCount_grow (Nat.le_refl 1) hlength (Nat.le_refl 1)
      have hcapacity := hcleared.bounded.capacity_le
      have hmax := hcleared.bounded.max_le
      rw [hclear] at hcleared hcapacity hmax ⊢
      generalize hzero : ({ x.1 with words := ⟨0, 1, 0, 0, 0, 0, 0, 0, 0, 0⟩ } : SharedFile) = zero
        at *
      have hcapacityLe : getFileCapacityBytes zero ≤ maxInt32AtomicCounter :=
        Nat.le_trans hcapacity hmax
      have hstart := WordsMatch.start (getFileCapacityBytes zero) (getAllocatedCapacityBytes zero) 1
      have hwords : zero.words = ⟨0, 1, 0, 0, 0, 0, 0, 0, 0, 0⟩ := by rw [← hzero]
      rw [← hwords] at hstart
      have hmatch := hstart.updateCapacityPeaks hcapacityLe
      have hstartTally : Tally.start (updateCapacityPeaks zero)
          = ⟨0, max (getFileCapacityBytes zero) (getFileCapacityBytes zero),
            max (getAllocatedCapacityBytes zero) (getAllocatedCapacityBytes zero), 0, 0, 0, 0, 0⟩ := by
        rw [Nat.max_self, Nat.max_self, ← hzero]
        rfl
      have hactive : getActiveSegmentCount (updateCapacityPeaks zero) = 1 := by
        rw [← hzero]
        rfl
      refine ⟨hcleared, ?_, Nat.le_refl _, Nat.le_refl _, rfl, ?_⟩
      · exact Nat.le_of_eq (by rw [capacity_eq, hactive])
      · rw [hstartTally]
        exact hmatch

end

theorem ReportsExactly.nonneg {d : FileDiagnostics} {tally : Tally} (h : ReportsExactly d tally) :
    ∀ mark ∈ d.marks, 0 ≤ mark := by
  obtain ⟨hsize, hcapacity, hallocated, hwrites, htruncates, hwritten, hsegments, hbytes⟩ := h
  intro mark hmark
  unfold FileDiagnostics.marks at hmark
  simp only [List.mem_cons, List.not_mem_nil, or_false] at hmark
  omega

theorem ReportsExactly.atMost {d d' : FileDiagnostics} {tally tally' : Tally}
    (h : ReportsExactly d tally) (h' : ReportsExactly d' tally') (hmore : tally.AtMost tally') :
    List.Forall₂ (· ≤ ·) d.marks d'.marks := by
  obtain ⟨hsize, hcapacity, hallocated, hwrites, htruncates, hwritten, hsegments, hbytes⟩ := h
  obtain ⟨hsize', hcapacity', hallocated', hwrites', htruncates', hwritten', hsegments',
    hbytes'⟩ := h'
  obtain ⟨_, _, _, _, _, _, _, _⟩ := hmore
  unfold FileDiagnostics.marks
  repeat' constructor
  all_goals omega

/-- **The peaks and the counters are exact.**  Whatever writes and truncates have
returned on a file since it was created or cleared: the peaks that the diagnostics
report are the maxima over all states since then, the counters the true totals up to
2^31 - 1, and no later call of this kind makes one of them smaller. -/
theorem peaks_and_counters_exact {file file' : SharedFile} {tally : Tally}
    (hstart : Started file) {calls : List Mutation}
    (hrun : calls.foldlM record (file, .start file) = some (file', tally)) :
    ReportsExactly (fileDiagnostics file') tally
      ∧ (∀ mark ∈ (fileDiagnostics file').marks, 0 ≤ mark)
      ∧ ∀ (later : List Mutation) file'' tally'', later.foldlM record (file', tally) = some (file'', tally'') →
          List.Forall₂ (· ≤ ·) (fileDiagnostics file').marks (fileDiagnostics file'').marks := by
  obtain ⟨hrecorded, -⟩ := Recorded.calls (x := (file, .start file)) hstart.recorded hrun
  have hreports := hrecorded.reports
  refine ⟨hreports, hreports.nonneg, fun later file'' tally'' hlater => ?_⟩
  obtain ⟨hrecorded', hmore⟩ := Recorded.calls (x := (file', tally)) hrecorded hlater
  exact hreports.atMost hrecorded'.reports hmore

/-- Segments of 2 bytes, at most 5: five bytes are written, and the size is cut to 1,
which drops segments of 2 bytes and of 1. -/
theorem peaks_and_counters_exact_five :
    ∃ file file', createSharedFile (fun _ => true) "/db-wa0" fiveBytes.initialCapacityBytes
        fiveBytes.maxCapacityBytes false = some file
      ∧ [Mutation.write (fun _ => true) [1, 2, 3, 4, 5] 0, .truncate (fun _ => true) 1].foldlM
          record (file, .start file) = some (file', ⟨5, 5, 5, 1, 1, 5, 2, 3⟩)
      ∧ ReportsExactly (fileDiagnostics file') ⟨5, 5, 5, 1, 1, 5, 2, 3⟩ := by
  obtain ⟨file, hcreate⟩ : ∃ file, createSharedFile (fun _ => true) "/db-wa0"
      fiveBytes.initialCapacityBytes fiveBytes.maxCapacityBytes false = some file := ⟨_, rfl⟩
  obtain ⟨file', hrun⟩ : ∃ file', [Mutation.write (fun _ => true) [1, 2, 3, 4, 5] 0,
      .truncate (fun _ => true) 1].foldlM record (file, .start file)
        = some (file', ⟨5, 5, 5, 1, 1, 5, 2, 3⟩) := by
    obtain rfl := Option.some.inj hcreate
    exact ⟨_, rfl⟩
  exact ⟨file, file', hcreate, hrun, (peaks_and_counters_exact (.created hcreate) hrun).1⟩

end MemoryWriteAhead.Storage
