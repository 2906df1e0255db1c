/-
  MemoryWriteAhead.Storage.Layout
  ───────────────────────────────
  **THE LAYOUT OF THE SEGMENTS, AND HOW IT GROWS.**

  `Layout` is the part of the representation invariant that speaks of the
  segments alone: their number and maximum lengths follow from the capacities,
  no buffer is longer than its maximum, and a fixed buffer has its full length.
  `Wf` adds the two words: the active segments are in the catalogue, all but the
  last of them have their full length, and the size is within their capacity.

    • `createSharedFile_wf` — a new file is well formed and empty,
    • `growSegments_ok` — with growth granted, the growth loop makes every
      segment of its range as long as it is asked to and touches no byte,
    • `ensureFileCapacity_ok` — after it the active capacity is large enough.
-/
import MemoryWriteAhead.Storage.Model
import Mathlib.Data.List.Forall2

namespace MemoryWriteAhead.Storage

/-! ## §1. The number of segments. -/

theorem segmentCountFor_pos (bytes cap : Nat) : 1 ≤ segmentCountFor bytes cap :=
  Nat.le_max_left _ _

theorem le_segmentCountFor_mul (bytes : Nat) {cap : Nat} (hcap : 0 < cap) :
    bytes ≤ segmentCountFor bytes cap * cap := by
  have hceil : bytes ≤ (bytes + cap - 1) / cap * cap := by
    have hdiv := Nat.div_add_mod (bytes + cap - 1) cap
    have hmod := Nat.mod_lt (bytes + cap - 1) hcap
    rw [Nat.mul_comm] at hdiv
    omega
  have hle : (bytes + cap - 1) / cap ≤ segmentCountFor bytes cap := Nat.le_max_right _ _
  exact Nat.le_trans hceil (Nat.mul_le_mul_right cap hle)

/-- Every segment before the last is needed in full. -/
theorem lt_segmentCountFor (bytes : Nat) {cap i : Nat} (hcap : 0 < cap)
    (hi : i + 1 < segmentCountFor bytes cap) : (i + 1) * cap < bytes := by
  have hlt : i + 1 < (bytes + cap - 1) / cap := by
    unfold segmentCountFor minSegmentCount at hi
    omega
  have hmul := (Nat.le_div_iff_mul_le hcap).mp hlt
  have hexpand : (i + 1).succ * cap = (i + 1) * cap + cap := Nat.succ_mul _ _
  omega

theorem segmentCountFor_le {bytes cap n : Nat} (hcap : 0 < cap) (hn : 1 ≤ n)
    (h : bytes ≤ n * cap) : segmentCountFor bytes cap ≤ n := by
  by_contra hlt
  have hlast : n - 1 + 1 < segmentCountFor bytes cap := by omega
  have := lt_segmentCountFor _ hcap hlast
  rw [show n - 1 + 1 = n by omega] at this
  omega

theorem segmentCountFor_mono {a b cap : Nat} (hcap : 0 < cap) (h : a ≤ b) :
    segmentCountFor a cap ≤ segmentCountFor b cap :=
  segmentCountFor_le hcap (segmentCountFor_pos b cap)
    (Nat.le_trans h (le_segmentCountFor_mul _ hcap))

/-! ## §2. The invariant. -/

/-- The segments have the lengths that the capacities `max` and `cap` ask for. -/
structure Layout (max cap : Nat) (segments : List Segment) : Prop where
  cap_pos : 0 < cap
  cap_le : cap ≤ max
  max_le : max ≤ maxInt32AtomicCounter
  count : segments.length = segmentCountFor max cap
  segment_max : ∀ (i : Nat) (s : Segment), segments[i]? = some s →
    s.maxCapacityBytes = min cap (max - i * cap)
  segment_le : ∀ (i : Nat) (s : Segment), segments[i]? = some s →
    s.data.length ≤ s.maxCapacityBytes
  segment_fixed : ∀ (i : Nat) (s : Segment), segments[i]? = some s → s.capacityMode = .fixed →
    s.data.length = s.maxCapacityBytes

/-- **The representation invariant.** -/
structure Wf (file : SharedFile) : Prop extends
    Layout file.maxCapacityBytes file.segmentCapacityBytes file.segments where
  active_le : getActiveSegmentCount file ≤ file.segments.length
  below_full : ∀ (i : Nat) (s : Segment), file.segments[i]? = some s →
    i + 1 < getActiveSegmentCount file → s.data.length = file.segmentCapacityBytes
  size_nonneg : 0 ≤ getFileSizeBytes file
  size_le : getFileSizeBytes file ≤ getActiveFileCapacityBytes file (getActiveSegmentCount file)

theorem getActiveSegmentCount_pos (file : SharedFile) : 1 ≤ getActiveSegmentCount file := by
  unfold getActiveSegmentCount minSegmentCount
  omega

section

variable {max cap : Nat} {segments : List Segment}

theorem Layout.segment_le_cap (h : Layout max cap segments) {i : Nat} {s : Segment}
    (hs : segments[i]? = some s) : s.data.length ≤ cap := by
  have hle := h.segment_le i s hs
  have hmax := h.segment_max i s hs
  omega

/-- A segment of the catalogue begins below the maximum. -/
theorem Layout.begin_lt (h : Layout max cap segments) {i : Nat} (hi : i < segments.length) :
    i * cap < max := by
  have hpos := h.cap_pos
  have hle := h.cap_le
  rw [h.count] at hi
  by_cases hfirst : i = 0
  · rw [hfirst]
    omega
  · have hbegin := lt_segmentCountFor max (i := i - 1) hpos (by omega)
    rwa [show i - 1 + 1 = i by omega] at hbegin

end

/-- The active segment exists. -/
theorem Wf.activeSegment {file : SharedFile} (h : Wf file) :
    ∃ s, file.segments[getActiveSegmentCount file - 1]? = some s
      ∧ getActiveFileCapacityBytes file (getActiveSegmentCount file)
        = (getActiveSegmentCount file - 1) * file.segmentCapacityBytes + s.data.length := by
  have hpos := getActiveSegmentCount_pos file
  have hle := h.active_le
  have hget := List.getElem?_eq_getElem (l := file.segments)
    (i := getActiveSegmentCount file - 1) (by omega)
  refine ⟨_, hget, ?_⟩
  unfold getActiveFileCapacityBytes
  rw [hget]

/-- The active capacity is within the maximum. -/
theorem Wf.activeCapacity_le {file : SharedFile} (h : Wf file) :
    getActiveFileCapacityBytes file (getActiveSegmentCount file) ≤ file.maxCapacityBytes := by
  obtain ⟨s, hs, hcap⟩ := h.activeSegment
  have hpos := getActiveSegmentCount_pos file
  have hcount := h.active_le
  have hbegin := h.begin_lt (i := getActiveSegmentCount file - 1) (by omega)
  have hle := h.segment_le _ s hs
  have hmax := h.segment_max _ s hs
  omega

/-! ## §3. The words hold what is stored in them. -/

theorem toInt_ofInt_of_le {n : Int} (h0 : 0 ≤ n) (h : n ≤ maxInt32AtomicCounter) :
    (BitVec.ofInt 32 n).toInt = n := by
  rw [BitVec.toInt_ofInt]
  unfold maxInt32AtomicCounter at h
  exact Int.bmod_eq_of_le (by omega) (by omega)

/-- Two files with the same storage: only counters differ. -/
structure SameStorage (file file' : SharedFile) : Prop where
  pathname : file'.pathname = file.pathname
  max : file'.maxCapacityBytes = file.maxCapacityBytes
  cap : file'.segmentCapacityBytes = file.segmentCapacityBytes
  segments : file'.segments = file.segments
  active : file'.words.activeSegmentCount = file.words.activeSegmentCount
  size : file'.words.size = file.words.size

theorem SameStorage.trans {f g k : SharedFile} (h : SameStorage f g) (h' : SameStorage g k) :
    SameStorage f k :=
  ⟨h'.pathname.trans h.pathname, h'.max.trans h.max, h'.cap.trans h.cap,
    h'.segments.trans h.segments, h'.active.trans h.active, h'.size.trans h.size⟩

theorem updateCapacityPeaks_same (file : SharedFile) :
    SameStorage file (updateCapacityPeaks file) := ⟨rfl, rfl, rfl, rfl, rfl, rfl⟩

theorem recordHighWater_same (file : SharedFile) :
    SameStorage file (recordMemoryWriteAheadFileHighWater file) := ⟨rfl, rfl, rfl, rfl, rfl, rfl⟩

theorem countWriteOperation_same (file : SharedFile) :
    SameStorage file (countWriteOperation file) := ⟨rfl, rfl, rfl, rfl, rfl, rfl⟩

theorem countWrittenBytes_same (file : SharedFile) (n : Nat) :
    SameStorage file (countWrittenBytes file n) := ⟨rfl, rfl, rfl, rfl, rfl, rfl⟩

theorem countTruncateOperation_same (file : SharedFile) :
    SameStorage file (countTruncateOperation file) := ⟨rfl, rfl, rfl, rfl, rfl, rfl⟩

section

variable {file file' : SharedFile} (h : SameStorage file file')
include h

theorem SameStorage.activeSegmentCount :
    getActiveSegmentCount file' = getActiveSegmentCount file := by
  unfold getActiveSegmentCount
  rw [h.active]

theorem SameStorage.fileSize : getFileSizeBytes file' = getFileSizeBytes file := by
  unfold getFileSizeBytes
  rw [h.size]

theorem SameStorage.activeCapacity (n : Nat) :
    getActiveFileCapacityBytes file' n = getActiveFileCapacityBytes file n := by
  unfold getActiveFileCapacityBytes
  rw [h.segments, h.cap]

theorem SameStorage.wf (hw : Wf file) : Wf file' := by
  refine ⟨?_, ?_, ?_, ?_, ?_⟩
  · rw [h.max, h.cap, h.segments]
    exact hw.toLayout
  · rw [h.activeSegmentCount, h.segments]
    exact hw.active_le
  · rw [h.activeSegmentCount, h.segments, h.cap]
    exact hw.below_full
  · rw [h.fileSize]
    exact hw.size_nonneg
  · rw [h.fileSize, h.activeSegmentCount, h.activeCapacity]
    exact hw.size_le

end

/-! ## §4. A new file. -/

/-- The capacities that `resolveMemoryWriteAheadRuntimeOptions` accepts for a file. -/
structure Capacities where
  initialCapacityBytes : Nat
  maxCapacityBytes : Nat
  initial_pos : 0 < initialCapacityBytes
  initial_le : initialCapacityBytes ≤ maxCapacityBytes
  max_le : maxCapacityBytes ≤ maxInt32AtomicCounter

theorem createSharedSegment_eq {growable allowFixed : Bool} {initialBytes maxBytes : Nat}
    {s : Segment} (hle : initialBytes ≤ maxBytes)
    (h : createSharedSegment growable allowFixed initialBytes maxBytes = some s) :
    s.maxCapacityBytes = maxBytes ∧ initialBytes ≤ s.data.length ∧ s.data.length ≤ maxBytes
      ∧ (s.capacityMode = .fixed → s.data.length = maxBytes) := by
  unfold createSharedSegment createSharedSegmentData at h
  split at h
  · obtain rfl := Option.some.inj h
    simp [hle]
  · split at h
    · obtain rfl := Option.some.inj h
      simp [hle]
    · cases h

/-- **A new file is well formed and empty.** -/
theorem createSharedFile_wf {growable : Nat → Bool} {pathname : String} (caps : Capacities)
    {allowFixed : Bool} {file : SharedFile}
    (h : createSharedFile growable pathname caps.initialCapacityBytes caps.maxCapacityBytes
      allowFixed = some file) :
    Wf file ∧ getFileSizeBytes file = 0 ∧ file.maxCapacityBytes = caps.maxCapacityBytes := by
  obtain ⟨segments, hsegments, rfl⟩ := Option.map_eq_some_iff.mp h
  obtain ⟨hlength, hmade⟩ := getElem?_mapM hsegments
  rw [List.length_range] at hlength
  have hinit := caps.initial_pos
  have hcapLe := caps.initial_le
  -- what is known of the segment with index `i`
  have hsegment (i : Nat) (s : Segment) (hs : segments[i]? = some s) :
      s.maxCapacityBytes = min caps.initialCapacityBytes
          (caps.maxCapacityBytes - i * caps.initialCapacityBytes)
        ∧ s.data.length ≤ s.maxCapacityBytes
        ∧ (s.capacityMode = .fixed → s.data.length = s.maxCapacityBytes) := by
    obtain ⟨j, hj, hcreate⟩ := hmade i s hs
    obtain rfl : i = j := by
      obtain ⟨hlt, hij⟩ := List.getElem?_eq_some_iff.mp hj
      rwa [List.getElem_range] at hij
    obtain ⟨hmax, -, hle, hfixed⟩ := createSharedSegment_eq (by split <;> omega) hcreate
    exact ⟨hmax, by rw [hmax]; exact hle, by rw [hmax]; exact hfixed⟩
  have hactive : getActiveSegmentCount ⟨pathname, caps.maxCapacityBytes,
      caps.initialCapacityBytes, segments,
      ⟨0, BitVec.ofNat 32 minSegmentCount, 0, 0, 0, 0, 0, 0, 0, 0⟩⟩ = 1 := rfl
  refine ⟨⟨⟨hinit, hcapLe, caps.max_le, hlength, fun i s hs => (hsegment i s hs).1,
    fun i s hs => (hsegment i s hs).2.1, fun i s hs => (hsegment i s hs).2.2⟩, ?_, ?_, ?_, ?_⟩,
    rfl, rfl⟩
  · rw [hactive, hlength]
    exact segmentCountFor_pos _ _
  · intro i s _ hi
    rw [hactive] at hi
    omega
  · exact Int.le_refl 0
  · exact Int.natCast_nonneg _

/-! ## §5. Growing. -/

/-- A segment whose buffer has at least `n` bytes, the new ones 0. -/
def Segment.grownTo (s : Segment) (n : Nat) : Segment :=
  { s with data := s.data ++ List.replicate (n - s.data.length) 0 }

theorem Segment.length_grownTo (s : Segment) (n : Nat) :
    (s.grownTo n).data.length = max s.data.length n := by
  simp only [Segment.grownTo, List.length_append, List.length_replicate]
  omega

theorem Segment.getElem?_grownTo {s : Segment} (n : Nat) {p : Nat} {b : UInt8}
    (h : s.data[p]? = some b) : (s.grownTo n).data[p]? = some b := by
  have hlt := (List.getElem?_eq_some_iff.mp h).1
  show (s.data ++ _)[p]? = some b
  rw [List.getElem?_append_left hlt, h]

@[simp] theorem Segment.grownTo_zero (s : Segment) : s.grownTo 0 = s := by
  simp [Segment.grownTo]

/-- Growing segments within their maximum keeps the layout. -/
theorem Layout.grow {max cap : Nat} {segments : List Segment}
    (h : Layout max cap segments) (segments' : List Segment) (hlength : segments'.length = segments.length)
    (hgrown : ∀ (i : Nat) (s' : Segment), segments'[i]? = some s' →
      ∃ s n, segments[i]? = some s ∧ n ≤ s.maxCapacityBytes ∧ s' = s.grownTo n) :
    Layout max cap segments' := by
  refine ⟨h.cap_pos, h.cap_le, h.max_le, hlength.trans h.count, ?_, ?_, ?_⟩ <;>
    intro i s' hs' <;> obtain ⟨s, n, hs, hn, rfl⟩ := hgrown i s' hs'
  · exact h.segment_max i s hs
  · rw [Segment.length_grownTo]
    exact Nat.max_le.mpr ⟨h.segment_le i s hs, hn⟩
  · intro hfixed
    rw [Segment.length_grownTo]
    have hfull := h.segment_fixed i s hs hfixed
    show Nat.max s.data.length n = s.maxCapacityBytes
    rw [hfull]
    exact Nat.max_eq_left hn

theorem growSegment_ok {s : Segment} {n : Nat} (hmax : n ≤ s.maxCapacityBytes)
    (hfixed : s.capacityMode = .fixed → s.data.length = s.maxCapacityBytes) :
    ∃ didGrow, growSegment true s n = .ok (s.grownTo n, didGrow) := by
  unfold growSegment
  by_cases hle : n ≤ s.data.length
  · rw [if_pos hle]
    refine ⟨false, ?_⟩
    have hzero : n - s.data.length = 0 := by omega
    simp [Segment.grownTo, hzero]
  · rw [if_neg hle, if_neg (by omega)]
    cases hmode : s.capacityMode with
    | growable => exact ⟨true, by simp [Segment.grownTo, hmode]⟩
    | fixed => exact absurd (hfixed hmode) (by omega)

/-- The segments after the growth loop: those from `index` up to `index + count`
have what `required` asks of them, the others are as they were. -/
structure Grown (required index count : Nat) (file file' : SharedFile) : Prop where
  pathname : file'.pathname = file.pathname
  max : file'.maxCapacityBytes = file.maxCapacityBytes
  cap : file'.segmentCapacityBytes = file.segmentCapacityBytes
  words : file'.words = file.words
  length : file'.segments.length = file.segments.length
  segments : ∀ i : Nat, file'.segments[i]? = (file.segments[i]?).map fun s =>
    if index ≤ i ∧ i < index + count then
      s.grownTo (min s.maxCapacityBytes (required - i * file.segmentCapacityBytes))
    else s

/-- **With growth granted the growth loop reaches its end.** -/
theorem growSegments_ok (required count index : Nat) (file : SharedFile)
    (hl : Layout file.maxCapacityBytes file.segmentCapacityBytes file.segments)
    (hcount : index + count ≤ file.segments.length) :
    ∃ file' didGrow, growSegments (fun _ => true) required index count file = (file', .ok didGrow)
      ∧ Grown required index count file file' := by
  induction count generalizing index file with
  | zero =>
      refine ⟨file, false, rfl, rfl, rfl, rfl, rfl, rfl, fun i => ?_⟩
      cases file.segments[i]? with
      | none => rfl
      | some s => rw [Option.map_some, if_neg (by omega)]
  | succ count ih =>
      have hget := List.getElem?_eq_getElem (l := file.segments) (i := index) (by omega)
      generalize file.segments[index] = s at hget
      obtain ⟨didGrow, hgrow⟩ := growSegment_ok (s := s)
        (n := min s.maxCapacityBytes (required - index * file.segmentCapacityBytes))
        (Nat.min_le_left _ _) (hl.segment_fixed index s hget)
      -- the head segment is grown, and the loop goes on in the file so obtained
      have hhead (i : Nat) : (file.segments.set index (s.grownTo
            (min s.maxCapacityBytes (required - index * file.segmentCapacityBytes))))[i]? =
          (file.segments[i]?).map fun s => if i = index then
            s.grownTo (min s.maxCapacityBytes (required - index * file.segmentCapacityBytes))
            else s := by
        by_cases hi : index = i
        · subst hi
          rw [List.getElem?_set_self (by omega), hget]
          simp
        · rw [List.getElem?_set_ne hi]
          simp [Ne.symm hi]
      have hlayout := hl.grow (file.segments.set index (s.grownTo
          (min s.maxCapacityBytes (required - index * file.segmentCapacityBytes))))
        (List.length_set ..) (fun i s' hs' => by
          rw [hhead] at hs'
          obtain ⟨t, ht, rfl⟩ := Option.map_eq_some_iff.mp hs'
          split
          · exact ⟨t, _, ht, Nat.min_le_left _ _, rfl⟩
          · exact ⟨t, 0, ht, Nat.zero_le _, by simp⟩)
      obtain ⟨file', didRest, hrest, hgrown⟩ := ih (index + 1)
        { file with segments := file.segments.set index (s.grownTo
          (min s.maxCapacityBytes (required - index * file.segmentCapacityBytes))) }
        hlayout (by simp; omega)
      refine ⟨file', didGrow || didRest, ?_, hgrown.pathname, hgrown.max, hgrown.cap,
        hgrown.words, hgrown.length.trans (List.length_set ..), fun i => ?_⟩
      · simp only [growSegments, hget, hgrow, hrest]
        rfl
      · rw [hgrown.segments i]
        show Option.map _ ((file.segments.set index _)[i]?) = _
        rw [hhead, Option.map_map]
        congr 1
        funext t
        simp only [Function.comp]
        by_cases hi : i = index
        · subst hi
          rw [if_pos rfl, if_neg (by omega), if_pos (by omega)]
        · have hiff : (index + 1 ≤ i ∧ i < index + 1 + count)
              ↔ (index ≤ i ∧ i < index + (count + 1)) := by omega
          simp only [if_neg hi, hiff]

/-! ## §6. The capacity after `ensureFileCapacity`. -/

/-- The byte of the buffers at a logical offset. -/
def byteAt (file : SharedFile) (p : Nat) : Option UInt8 :=
  (file.segments[p / file.segmentCapacityBytes]?).bind fun s =>
    s.data[p % file.segmentCapacityBytes]?

theorem SameStorage.byteAt_eq {file file' : SharedFile} (h : SameStorage file file') (p : Nat) :
    byteAt file' p = byteAt file p := by
  unfold byteAt
  rw [h.segments, h.cap]

section

variable {required : Nat} {file file' : SharedFile}

theorem Grown.layout {index count : Nat} (hg : Grown required index count file file')
    (hl : Layout file.maxCapacityBytes file.segmentCapacityBytes file.segments) :
    Layout file'.maxCapacityBytes file'.segmentCapacityBytes file'.segments := by
  rw [hg.max, hg.cap]
  refine hl.grow _ hg.length fun i s' hs' => ?_
  rw [hg.segments i] at hs'
  obtain ⟨s, hs, rfl⟩ := Option.map_eq_some_iff.mp hs'
  split
  · exact ⟨s, _, hs, Nat.min_le_left _ _, rfl⟩
  · exact ⟨s, 0, hs, Nat.zero_le _, by simp⟩

theorem Grown.bytes {index count : Nat} (hg : Grown required index count file file') {p : Nat}
    {b : UInt8} (hb : byteAt file p = some b) : byteAt file' p = some b := by
  unfold byteAt at hb ⊢
  obtain ⟨s, hs, hbyte⟩ := Option.bind_eq_some_iff.mp hb
  rw [hg.cap, hg.segments, hs, Option.map_some, Option.bind_some]
  split
  · exact Segment.getElem?_grownTo _ hbyte
  · exact hbyte

/-- After the loop every segment before the last desired one is full. -/
theorem Grown.full (hw : Wf file) (hreq : required ≤ file.maxCapacityBytes) {desired i : Nat}
    (hdesired : desired = segmentCountFor required file.segmentCapacityBytes)
    (hg : Grown required (getActiveSegmentCount file - 1)
      (desired - (getActiveSegmentCount file - 1)) file file')
    {s' : Segment} (hs' : file'.segments[i]? = some s') (hi : i + 1 < desired) :
    s'.data.length = file.segmentCapacityBytes := by
  rw [hg.segments i] at hs'
  obtain ⟨s, hs, rfl⟩ := Option.map_eq_some_iff.mp hs'
  by_cases hbelow : i + 1 < getActiveSegmentCount file
  · rw [if_neg (by omega)]
    exact hw.below_full i s hs hbelow
  · rw [if_pos (by omega), Segment.length_grownTo]
    have hneeded := lt_segmentCountFor required hw.cap_pos (hdesired ▸ hi)
    have hexpand : (i + 1) * file.segmentCapacityBytes
      = i * file.segmentCapacityBytes + file.segmentCapacityBytes := Nat.succ_mul _ _
    have hmax := hw.segment_max i s hs
    have hle := hw.segment_le i s hs
    omega

/-- After the loop the last desired segment reaches up to what is required. -/
theorem Grown.last (hw : Wf file) (hreq : required ≤ file.maxCapacityBytes) {desired : Nat}
    (hdesired : desired = segmentCountFor required file.segmentCapacityBytes)
    (hle : getActiveSegmentCount file ≤ desired)
    (hg : Grown required (getActiveSegmentCount file - 1)
      (desired - (getActiveSegmentCount file - 1)) file file')
    {s' : Segment} (hs' : file'.segments[desired - 1]? = some s') :
    required ≤ (desired - 1) * file.segmentCapacityBytes + s'.data.length := by
  have hactive := getActiveSegmentCount_pos file
  rw [hg.segments] at hs'
  obtain ⟨s, hs, rfl⟩ := Option.map_eq_some_iff.mp hs'
  rw [if_pos (by omega), Segment.length_grownTo]
  have hcover := le_segmentCountFor_mul required hw.cap_pos
  have hexpand : (desired - 1 + 1) * file.segmentCapacityBytes
    = (desired - 1) * file.segmentCapacityBytes + file.segmentCapacityBytes := Nat.succ_mul _ _
  rw [show desired - 1 + 1 = desired by omega, hdesired] at hexpand
  have hmax := hw.segment_max _ s hs
  rw [hdesired] at hmax ⊢
  omega

end

/-- A count word is large enough for the catalogue. -/
theorem Layout.length_le {max cap : Nat} {segments : List Segment}
    (h : Layout max cap segments) : segments.length ≤ maxInt32AtomicCounter := by
  have hpos := h.cap_pos
  have hcap := h.cap_le
  rw [h.count]
  refine Nat.le_trans (segmentCountFor_le hpos (n := max) (by omega) ?_) h.max_le
  exact Nat.le_mul_of_pos_right max hpos

/-- `setActiveSegmentCount` changes the count and counters only. -/
theorem setActiveSegmentCount_spec {file : SharedFile} {n : Nat}
    (hl : Layout file.maxCapacityBytes file.segmentCapacityBytes file.segments) (hpos : 1 ≤ n)
    (hn : n ≤ file.segments.length) :
    SameStorage { file with words :=
        { file.words with activeSegmentCount := BitVec.ofInt 32 n } } (setActiveSegmentCount file n)
      ∧ getActiveSegmentCount (setActiveSegmentCount file n) = n := by
  have hnext : max minSegmentCount (min n file.segments.length) = n := by
    unfold minSegmentCount
    omega
  have hsame : SameStorage { file with words :=
      { file.words with activeSegmentCount := BitVec.ofInt 32 n } }
      (setActiveSegmentCount file n) := by
    unfold setActiveSegmentCount
    rw [hnext]
    by_cases hshrink : n < getActiveSegmentCount file
    · simp only [if_pos hshrink]
      exact ⟨rfl, rfl, rfl, rfl, rfl, rfl⟩
    · simp only [if_neg hshrink]
      exact ⟨rfl, rfl, rfl, rfl, rfl, rfl⟩
  refine ⟨hsame, ?_⟩
  rw [hsame.activeSegmentCount]
  unfold getActiveSegmentCount
  have hword := toInt_ofInt_of_le (n := n) (by omega) (by have := hl.length_le; omega)
  show (max (minSegmentCount : Int) (BitVec.ofInt 32 n).toInt).toNat = n
  rw [hword]
  unfold minSegmentCount
  omega

/-- What `ensureFileCapacity` leaves: the same file, large enough. -/
structure Ensured (required : Nat) (file file' : SharedFile) : Prop where
  wf : Wf file'
  pathname : file'.pathname = file.pathname
  max : file'.maxCapacityBytes = file.maxCapacityBytes
  cap : file'.segmentCapacityBytes = file.segmentCapacityBytes
  size : getFileSizeBytes file' = getFileSizeBytes file
  enough : required ≤ getActiveFileCapacityBytes file' (getActiveSegmentCount file')
  bytes : ∀ p b, byteAt file p = some b → byteAt file' p = some b

/-- A file whose segments are grown and whose count is the desired one is large
enough. -/
theorem Grown.ensured {required desired : Nat} {file grown file' : SharedFile} (hw : Wf file)
    (hreq : required ≤ file.maxCapacityBytes)
    (hdesired : desired = segmentCountFor required file.segmentCapacityBytes)
    (hle : getActiveSegmentCount file ≤ desired)
    (hsmall : getActiveFileCapacityBytes file (getActiveSegmentCount file) < required)
    (hg : Grown required (getActiveSegmentCount file - 1)
      (desired - (getActiveSegmentCount file - 1)) file grown)
    (hpathname : file'.pathname = grown.pathname)
    (hmax : file'.maxCapacityBytes = grown.maxCapacityBytes)
    (hcap : file'.segmentCapacityBytes = grown.segmentCapacityBytes)
    (hsegments : file'.segments = grown.segments) (hsize : file'.words.size = grown.words.size)
    (hactive : getActiveSegmentCount file' = desired) : Ensured required file file' := by
  have hlength : desired ≤ grown.segments.length := by
    rw [hg.length, hw.count, hdesired]
    exact segmentCountFor_mono hw.cap_pos hreq
  have hpos := segmentCountFor_pos required file.segmentCapacityBytes
  have hget := List.getElem?_eq_getElem (l := grown.segments) (i := desired - 1) (by omega)
  generalize grown.segments[desired - 1] = last at hget
  have hcapacity : getActiveFileCapacityBytes file' desired
      = (desired - 1) * file.segmentCapacityBytes + last.data.length := by
    unfold getActiveFileCapacityBytes
    rw [hsegments, hget, hcap, hg.cap]
  have henough : required ≤ getActiveFileCapacityBytes file' desired := by
    rw [hcapacity]
    exact hg.last hw hreq hdesired hle hget
  have hsizeEq : getFileSizeBytes file' = getFileSizeBytes file := by
    unfold getFileSizeBytes
    rw [hsize, hg.words]
  refine ⟨⟨?_, ?_, ?_, ?_, ?_⟩, hpathname.trans hg.pathname, hmax.trans hg.max,
    hcap.trans hg.cap, hsizeEq, ?_, fun p b hb => ?_⟩
  · rw [hmax, hcap, hsegments]
    exact hg.layout hw.toLayout
  · rw [hactive, hsegments]
    exact hlength
  · intro i s hs hi
    rw [hsegments] at hs
    rw [hactive] at hi
    rw [hcap, hg.cap]
    exact hg.full hw hreq hdesired hs hi
  · rw [hsizeEq]
    exact hw.size_nonneg
  · have hold := hw.size_le
    rw [hsizeEq, hactive]
    omega
  · rw [hactive]
    exact henough
  · have hbyte := hg.bytes hb
    unfold byteAt at hbyte ⊢
    rw [hcap, hsegments]
    exact hbyte

/-- What does not fit begins in the active segment or after it. -/
theorem Wf.active_le_segmentCountFor {file : SharedFile} (hw : Wf file) {required : Nat}
    (hsmall : getActiveFileCapacityBytes file (getActiveSegmentCount file) < required) :
    getActiveSegmentCount file ≤ segmentCountFor required file.segmentCapacityBytes := by
  obtain ⟨last, -, hcapacity⟩ := hw.activeSegment
  have hcover := le_segmentCountFor_mul required hw.cap_pos
  by_contra hlt
  have hmul := Nat.mul_le_mul_right file.segmentCapacityBytes
    (show segmentCountFor required file.segmentCapacityBytes ≤ getActiveSegmentCount file - 1 by
      omega)
  omega

/-- **With growth granted, a capacity up to the maximum is provided.** -/
theorem ensureFileCapacity_ok {required : Nat} {file : SharedFile} (hw : Wf file)
    (hreq : required ≤ file.maxCapacityBytes) :
    ∃ file', ensureFileCapacity (fun _ => true) file required = (file', .ok ())
      ∧ Ensured required file file' := by
  unfold ensureFileCapacity
  rw [if_neg (by omega)]
  simp only
  by_cases hfits : required ≤ getActiveFileCapacityBytes file (getActiveSegmentCount file)
  · rw [if_pos hfits]
    exact ⟨file, rfl, hw, rfl, rfl, rfl, rfl, hfits, fun _ _ hb => hb⟩
  · rw [if_neg hfits, if_neg (by omega)]
    have hactive := getActiveSegmentCount_pos file
    have hdesired : segmentCountFor required file.segmentCapacityBytes
      ≤ file.segments.length := by
      rw [hw.count]
      exact segmentCountFor_mono hw.cap_pos hreq
    have hle : getActiveSegmentCount file ≤ segmentCountFor required file.segmentCapacityBytes :=
      hw.active_le_segmentCountFor (by omega)
    obtain ⟨grown, didGrow, hloop, hg⟩ := growSegments_ok required
      (segmentCountFor required file.segmentCapacityBytes - (getActiveSegmentCount file - 1))
      (getActiveSegmentCount file - 1) file hw.toLayout (by omega)
    have hgrownActive : getActiveSegmentCount grown = getActiveSegmentCount file := by
      unfold getActiveSegmentCount
      rw [hg.words]
    rw [hloop]
    simp only
    by_cases hmore : segmentCountFor required file.segmentCapacityBytes
      > getActiveSegmentCount file
    · rw [if_pos hmore]
      obtain ⟨hsame, hcount⟩ := setActiveSegmentCount_spec (hg.layout hw.toLayout)
        (n := segmentCountFor required file.segmentCapacityBytes) (by omega)
        (by rw [hg.length]; exact hdesired)
      exact ⟨_, rfl, hg.ensured hw hreq rfl hle (by omega) hsame.pathname hsame.max hsame.cap
        hsame.segments hsame.size hcount⟩
    · rw [if_neg hmore]
      have hcount : getActiveSegmentCount grown
        = segmentCountFor required file.segmentCapacityBytes := by omega
      cases didGrow with
      | true =>
          exact ⟨_, rfl, hg.ensured hw hreq rfl hle (by omega) rfl rfl rfl rfl rfl hcount⟩
      | false =>
          exact ⟨_, rfl, hg.ensured hw hreq rfl hle (by omega) rfl rfl rfl rfl rfl hcount⟩

theorem ensureFileCapacity_exceeded (granted : Nat → Bool) (required : Nat) (file : SharedFile)
    (h : file.maxCapacityBytes < required) :
    ensureFileCapacity granted file required =
      (file, .error (.capacityExceeded file.pathname required file.maxCapacityBytes)) := by
  unfold ensureFileCapacity
  rw [if_pos h]

end MemoryWriteAhead.Storage
