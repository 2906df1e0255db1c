/-
  MemoryWriteAhead.Storage.Refinement
  ───────────────────────────────────
  **SEGMENTED STORAGE REFINES ONE FLAT FILE.**

    • `Wf.located` — every position below the active capacity has a byte,
    • `writeBytes_spec`, `readSegments_spec` — the two loops, by induction on
      their rounds: they cross the segments and copy exactly the bytes asked for,
    • `write_correct`, `truncate_correct`, `read_correct` — the contract of each
      operation on a well-formed file,
    • `segmented_storage_refines_flat_file` — the contracts in every state that
      any calls on a new file reach, with the flat file of the same calls.
-/
import MemoryWriteAhead.Storage.Layout

namespace MemoryWriteAhead.Storage

/-! ## §1. Positions and segments. -/

theorem div_mod_of_lt {cap p i : Nat} (hcap : 0 < cap) (h : p % cap + i < cap) :
    (p + i) / cap = p / cap ∧ (p + i) % cap = p % cap + i := by
  rw [Nat.div_mod_unique hcap]
  have hdiv := Nat.div_add_mod p cap
  omega

theorem findSegmentAtOffset_eq {file : SharedFile} {p : Nat} {s : Segment}
    (hs : file.segments[p / file.segmentCapacityBytes]? = some s) :
    findSegmentAtOffset file p = some
      { segment := s
        segmentIndex := p / file.segmentCapacityBytes
        segmentOffset := p % file.segmentCapacityBytes
        segmentStartOffset := p / file.segmentCapacityBytes * file.segmentCapacityBytes } := by
  unfold findSegmentAtOffset
  simp only
  rw [hs, Option.map_some, Nat.mod_eq_sub_div_mul]

/-- The position has a byte. -/
def Located (file : SharedFile) (p : Nat) : Prop :=
  ∃ s, file.segments[p / file.segmentCapacityBytes]? = some s
    ∧ p % file.segmentCapacityBytes < s.data.length

theorem Located.byteAt_isSome {file : SharedFile} {p : Nat} (h : Located file p) :
    ∃ b, byteAt file p = some b := by
  obtain ⟨s, hs, hlt⟩ := h
  refine ⟨s.data[p % file.segmentCapacityBytes], ?_⟩
  unfold byteAt
  rw [hs, Option.bind_some, List.getElem?_eq_getElem hlt]

/-- **Every position below the active capacity has a byte.** -/
theorem Wf.located {file : SharedFile} (h : Wf file) {p : Nat}
    (hp : p < getActiveFileCapacityBytes file (getActiveSegmentCount file)) :
    Located file p := by
  obtain ⟨last, hlast, hcapacity⟩ := h.activeSegment
  have hle := h.segment_le_cap hlast
  have hdiv := Nat.div_add_mod' p file.segmentCapacityBytes
  have hmod := Nat.mod_lt p h.cap_pos
  unfold Located
  generalize p / file.segmentCapacityBytes = index at hdiv ⊢
  by_cases hbelow : index + 1 < getActiveSegmentCount file
  · have hactive := h.active_le
    have hget := List.getElem?_eq_getElem (l := file.segments) (i := index) (by omega)
    exact ⟨_, hget, by rw [h.below_full _ _ hget hbelow]; exact hmod⟩
  · -- the position is in the active segment itself
    have heq : index = getActiveSegmentCount file - 1 := by
      by_contra hne
      have hmul := Nat.mul_le_mul_right file.segmentCapacityBytes
        (show getActiveSegmentCount file - 1 + 1 ≤ index by omega)
      rw [Nat.succ_mul] at hmul
      omega
    subst heq
    exact ⟨last, hlast, by omega⟩

/-! ## §2. Writing into the segments. -/

/-- What a write into a buffer cannot change. -/
def Segment.shape (s : Segment) : CapacityMode × Nat × Nat :=
  (s.capacityMode, s.data.length, s.maxCapacityBytes)

/-- Two files that differ in the bytes of their buffers only. -/
structure SameShape (file file' : SharedFile) : Prop where
  pathname : file'.pathname = file.pathname
  max : file'.maxCapacityBytes = file.maxCapacityBytes
  cap : file'.segmentCapacityBytes = file.segmentCapacityBytes
  words : file'.words = file.words
  shapes : file'.segments.map Segment.shape = file.segments.map Segment.shape

theorem SameShape.rfl {file : SharedFile} : SameShape file file :=
  ⟨Eq.refl _, Eq.refl _, Eq.refl _, Eq.refl _, Eq.refl _⟩

theorem SameShape.trans {f g k : SharedFile} (h : SameShape f g) (h' : SameShape g k) :
    SameShape f k :=
  ⟨h'.pathname.trans h.pathname, h'.max.trans h.max, h'.cap.trans h.cap,
    h'.words.trans h.words, h'.shapes.trans h.shapes⟩

section

variable {file file' : SharedFile} (h : SameShape file file')
include h

theorem SameShape.length : file'.segments.length = file.segments.length := by
  have hlength := congrArg List.length h.shapes
  simpa using hlength

theorem SameShape.segment {i : Nat} {s' : Segment} (hs' : file'.segments[i]? = some s') :
    ∃ s, file.segments[i]? = some s ∧ s.shape = s'.shape := by
  have hget := congrArg (fun shapes => shapes[i]?) h.shapes
  simp only [List.getElem?_map, hs', Option.map_some] at hget
  exact Option.map_eq_some_iff.mp hget.symm

theorem SameShape.symm : SameShape file' file :=
  ⟨h.pathname.symm, h.max.symm, h.cap.symm, h.words.symm, h.shapes.symm⟩

theorem SameShape.fileSize : getFileSizeBytes file' = getFileSizeBytes file := by
  unfold getFileSizeBytes
  rw [h.words]

theorem SameShape.activeSegmentCount :
    getActiveSegmentCount file' = getActiveSegmentCount file := by
  unfold getActiveSegmentCount
  rw [h.words]

theorem SameShape.activeCapacity (n : Nat) :
    getActiveFileCapacityBytes file' n = getActiveFileCapacityBytes file n := by
  unfold getActiveFileCapacityBytes
  cases hs' : file'.segments[n - 1]? with
  | none =>
      have hnone : file.segments[n - 1]? = none := by
        rw [List.getElem?_eq_none_iff] at hs' ⊢
        rw [← h.length]
        exact hs'
      rw [hnone]
  | some s' =>
      obtain ⟨s, hs, hshape⟩ := h.segment hs'
      simp only [Segment.shape, Prod.mk.injEq] at hshape
      rw [hs, h.cap]
      simp only
      rw [hshape.2.1]

theorem SameShape.located {p : Nat} (hp : Located file p) : Located file' p := by
  obtain ⟨s, hs, hlt⟩ := hp
  obtain ⟨s', hs', hshape⟩ := h.symm.segment hs
  simp only [Segment.shape, Prod.mk.injEq] at hshape
  refine ⟨s', by rw [h.cap]; exact hs', ?_⟩
  rw [h.cap, hshape.2.1]
  exact hlt

theorem SameShape.wf (hw : Wf file) : Wf file' := by
  -- each segment of `file'` has the lengths of one of `file`
  have hshape {i : Nat} {s' : Segment} (hs' : file'.segments[i]? = some s') :
      ∃ s, file.segments[i]? = some s ∧ s'.capacityMode = s.capacityMode
        ∧ s'.data.length = s.data.length ∧ s'.maxCapacityBytes = s.maxCapacityBytes := by
    obtain ⟨s, hs, hshape⟩ := h.segment hs'
    simp only [Segment.shape, Prod.mk.injEq] at hshape
    exact ⟨s, hs, hshape.1.symm, hshape.2.1.symm, hshape.2.2.symm⟩
  refine ⟨⟨?_, ?_, ?_, ?_, ?_, ?_, ?_⟩, ?_, ?_, ?_, ?_⟩
  · rw [h.cap]; exact hw.cap_pos
  · rw [h.cap, h.max]; exact hw.cap_le
  · rw [h.max]; exact hw.max_le
  · rw [h.length, h.max, h.cap]; exact hw.count
  · intro i s' hs'
    obtain ⟨s, hs, -, -, hmax⟩ := hshape hs'
    rw [hmax, h.max, h.cap]
    exact hw.segment_max i s hs
  · intro i s' hs'
    obtain ⟨s, hs, -, hlen, hmax⟩ := hshape hs'
    rw [hmax, hlen]
    exact hw.segment_le i s hs
  · intro i s' hs' hfixed
    obtain ⟨s, hs, hmode, hlen, hmax⟩ := hshape hs'
    rw [hmax, hlen]
    exact hw.segment_fixed i s hs (hmode ▸ hfixed)
  · rw [h.activeSegmentCount, h.length]; exact hw.active_le
  · intro i s' hs' hi
    obtain ⟨s, hs, -, hlen, -⟩ := hshape hs'
    rw [h.activeSegmentCount] at hi
    rw [hlen, h.cap]
    exact hw.below_full i s hs hi
  · rw [h.fileSize]; exact hw.size_nonneg
  · rw [h.fileSize, h.activeSegmentCount, h.activeCapacity]; exact hw.size_le

end

/-- The file after `bytes` have been placed at `offset`. -/
structure Placed (file : SharedFile) (offset : Nat) (bytes : List UInt8) (file' : SharedFile) :
    Prop extends SameShape file file' where
  byteAt_eq : ∀ p, byteAt file' p =
    if offset ≤ p ∧ p < offset + bytes.length then bytes[p - offset]? else byteAt file p

theorem Placed.nil (file : SharedFile) (offset : Nat) : Placed file offset [] file :=
  ⟨.rfl, fun p => by rw [if_neg (by simp)]⟩

/-- Two adjacent pieces. -/
theorem Placed.append {f g k : SharedFile} {offset : Nat} {xs ys : List UInt8}
    (h : Placed f offset xs g) (h' : Placed g (offset + xs.length) ys k) :
    Placed f offset (xs ++ ys) k := by
  refine ⟨h.toSameShape.trans h'.toSameShape, fun p => ?_⟩
  rw [h'.byteAt_eq, h.byteAt_eq, List.length_append]
  by_cases hlow : offset ≤ p ∧ p < offset + xs.length
  · rw [if_neg (by omega), if_pos hlow, if_pos (by omega), List.getElem?_append_left (by omega)]
  · by_cases hhigh : offset + xs.length ≤ p ∧ p < offset + xs.length + ys.length
    · rw [if_pos hhigh, if_pos (by omega), List.getElem?_append_right (by omega)]
      congr 1
      omega
    · rw [if_neg hhigh, if_neg hlow, if_neg (by omega)]

/-- **One piece of a write**, within the segment it begins in. -/
theorem setSegmentBytes_placed {file : SharedFile} (hw : Wf file) {offset : Nat}
    (bytes : List UInt8) {entry : SegmentEntry}
    (hentry : findSegmentAtOffset file offset = some entry)
    (hfit : entry.segmentOffset + bytes.length ≤ entry.segment.data.length) :
    Placed file offset bytes (setSegmentBytes file entry bytes) := by
  obtain ⟨s, hs, rfl⟩ := Option.map_eq_some_iff.mp hentry
  simp only at hs hfit
  rw [← Nat.mod_eq_sub_div_mul] at hfit
  have hcap := hw.segment_le_cap hs
  have hlt := (List.getElem?_eq_some_iff.mp hs).1
  refine ⟨⟨rfl, rfl, rfl, rfl, ?_⟩, fun p => ?_⟩
  · -- the one segment that is replaced keeps its length
    refine List.ext_getElem? fun i => ?_
    simp only [setSegmentBytes, List.getElem?_map]
    by_cases hi : offset / file.segmentCapacityBytes = i
    · subst hi
      rw [List.getElem?_set_self hlt, hs]
      simp only [Option.map_some, Segment.shape, ← Nat.mod_eq_sub_div_mul,
        length_overwrite hfit]
    · rw [List.getElem?_set_ne hi]
  · have hdiv := Nat.div_add_mod offset file.segmentCapacityBytes
    have hdivp := Nat.div_add_mod p file.segmentCapacityBytes
    have hmodp := Nat.mod_lt p hw.cap_pos
    by_cases hsame : offset / file.segmentCapacityBytes = p / file.segmentCapacityBytes
    · rw [hsame] at hdiv
      simp only [byteAt, setSegmentBytes]
      rw [← hsame, List.getElem?_set_self hlt, Option.bind_some, hs, Option.bind_some,
        ← Nat.mod_eq_sub_div_mul, getElem?_overwrite hfit]
      by_cases hin : offset ≤ p ∧ p < offset + bytes.length
      · rw [if_pos hin, if_pos (by omega)]
        congr 1
        omega
      · rw [if_neg hin, if_neg (by omega)]
    · -- another segment begins after the piece or ends before it
      have hout : ¬(offset ≤ p ∧ p < offset + bytes.length) := by
        rintro ⟨hge, hltp⟩
        have hdivEq := div_mod_of_lt (p := offset) (i := p - offset) hw.cap_pos (by omega)
        rw [show offset + (p - offset) = p by omega] at hdivEq
        exact hsame hdivEq.1.symm
      rw [if_neg hout]
      simp only [byteAt, setSegmentBytes]
      rw [List.getElem?_set_ne hsame]

/-- **The write loop** copies all bytes when their positions exist and there is
a round for each byte. -/
theorem writeSegments_spec (fuel : Nat) {file : SharedFile} (input : List UInt8) (offset : Nat)
    (hw : Wf file) (hfuel : input.length ≤ fuel)
    (hlocated : ∀ p, offset ≤ p → p < offset + input.length → Located file p) :
    ∃ file', writeSegments fuel file input offset = (file', .returned ())
      ∧ Placed file offset input file' := by
  induction fuel generalizing file input offset with
  | zero =>
      obtain rfl : input = [] := List.length_eq_zero_iff.mp (by omega)
      exact ⟨file, rfl, .nil file offset⟩
  | succ fuel ih =>
      by_cases hempty : input = []
      · subst hempty
        exact ⟨file, by simp [writeSegments], .nil file offset⟩
      · have hpos : 0 < input.length := List.length_pos_iff.mpr hempty
        obtain ⟨s, hs, hlt⟩ := hlocated offset (Nat.le_refl _) (by omega)
        have hfind := findSegmentAtOffset_eq hs
        unfold writeSegments
        rw [if_neg hempty, hfind]
        simp only
        rw [if_neg (by omega)]
        generalize hcopy : min (s.data.length - offset % file.segmentCapacityBytes) input.length
          = bytesToCopy
        have htake : (input.take bytesToCopy).length = bytesToCopy := by
          rw [List.length_take]
          omega
        have hpiece := setSegmentBytes_placed hw (input.take bytesToCopy) hfind
          (show offset % file.segmentCapacityBytes + _ ≤ s.data.length by omega)
        have hdrop : (input.drop bytesToCopy).length = input.length - bytesToCopy :=
          List.length_drop
        obtain ⟨file', hloop, hrest⟩ := ih (input.drop bytesToCopy) (offset + bytesToCopy)
          (hpiece.toSameShape.wf hw) (by omega)
          (fun p hlo hhi => hpiece.toSameShape.located (hlocated p (by omega) (by omega)))
        refine ⟨file', hloop, ?_⟩
        have happend := hpiece.append (by rw [htake]; exact hrest)
        rwa [List.take_append_drop] at happend

/-- **The bytes of a write**: the first segment and the loop after it. -/
theorem writeBytes_spec {file : SharedFile} {input : List UInt8} (offset : Nat) (hw : Wf file)
    (hpos : 0 < input.length)
    (hlocated : ∀ p, offset ≤ p → p < offset + input.length → Located file p) :
    ∃ file', writeBytes file input offset = (file', .returned ())
      ∧ Placed file offset input file' := by
  obtain ⟨s, hs, hlt⟩ := hlocated offset (Nat.le_refl _) (by omega)
  have hfind := findSegmentAtOffset_eq hs
  unfold writeBytes
  rw [hfind]
  simp only
  rw [if_neg (by omega)]
  generalize hcopy : min (s.data.length - offset % file.segmentCapacityBytes) input.length
    = firstSegmentBytes
  by_cases hall : firstSegmentBytes = input.length
  · rw [if_pos hall]
    exact ⟨_, rfl, setSegmentBytes_placed hw _ hfind
      (show offset % file.segmentCapacityBytes + _ ≤ s.data.length by omega)⟩
  · rw [if_neg hall]
    have htake : (input.take firstSegmentBytes).length = firstSegmentBytes := by
      rw [List.length_take]
      omega
    have hpiece := setSegmentBytes_placed hw (input.take firstSegmentBytes) hfind
      (show offset % file.segmentCapacityBytes + _ ≤ s.data.length by omega)
    have hdrop : (input.drop firstSegmentBytes).length = input.length - firstSegmentBytes :=
      List.length_drop
    obtain ⟨file', hloop, hrest⟩ := writeSegments_spec input.length
      (input.drop firstSegmentBytes) (offset + firstSegmentBytes) (hpiece.toSameShape.wf hw)
      (by omega)
      (fun p hlo hhi => hpiece.toSameShape.located (hlocated p (by omega) (by omega)))
    refine ⟨file', hloop, ?_⟩
    have happend := hpiece.append (by rw [htake]; exact hrest)
    rwa [List.take_append_drop] at happend

/-! ## §3. Reading from the segments. -/

/-- **The read loop** copies the bytes from `offset` on, up to the size or the
end of the target. -/
theorem readSegments_spec (fuel : Nat) {file : SharedFile} {size : Nat} (offset remaining : Nat)
    (hw : Wf file) (hfuel : remaining ≤ fuel)
    (hlocated : ∀ p, offset ≤ p → p < size → Located file p) :
    (readSegments file size fuel offset remaining).length = min remaining (size - offset)
      ∧ ∀ i, i < min remaining (size - offset) →
          (readSegments file size fuel offset remaining)[i]? = byteAt file (offset + i) := by
  induction fuel generalizing offset remaining with
  | zero =>
      obtain rfl : remaining = 0 := by omega
      exact ⟨by simp [readSegments], fun i hi => by omega⟩
  | succ fuel ih =>
      unfold readSegments
      by_cases hdone : remaining = 0 ∨ size ≤ offset
      · rw [if_pos hdone]
        exact ⟨by simp; omega, fun i hi => by omega⟩
      · obtain ⟨s, hs, hlt⟩ := hlocated offset (Nat.le_refl _) (by omega)
        rw [if_neg hdone, findSegmentAtOffset_eq hs]
        simp only
        rw [if_neg (by omega)]
        generalize hcopy : min (min (s.data.length - offset % file.segmentCapacityBytes)
          (size - offset)) remaining = bytesToCopy
        have hcap := hw.segment_le_cap hs
        have hpiece : ((s.data.drop (offset % file.segmentCapacityBytes)).take
            bytesToCopy).length = bytesToCopy := by
          rw [List.length_take, List.length_drop]
          omega
        obtain ⟨hlength, hbytes⟩ := ih (offset + bytesToCopy) (remaining - bytesToCopy)
          (by omega)
          (fun p hlo hhi => hlocated p (by omega) hhi)
        refine ⟨?_, fun i hi => ?_⟩
        · rw [List.length_append, hpiece, hlength]
          omega
        · by_cases hin : i < bytesToCopy
          · -- within the piece, the byte is in the same segment
            obtain ⟨hdiv, hmod⟩ := div_mod_of_lt (p := offset) (i := i) hw.cap_pos (by omega)
            rw [List.getElem?_append_left (by omega), List.getElem?_take_of_lt hin,
              List.getElem?_drop]
            unfold byteAt
            rw [hdiv, hs, Option.bind_some, hmod]
          · rw [List.getElem?_append_right (by omega), hpiece, hbytes _ (by omega)]
            congr 1
            omega

/-! ## §4. The contracts. -/

/-- The logical size of a file. -/
def logicalSize (file : SharedFile) : Nat := (getFileSizeBytes file).toNat

theorem Wf.size_eq {file : SharedFile} (h : Wf file) :
    getFileSizeBytes file = (logicalSize file : Int) :=
  (Int.toNat_of_nonneg h.size_nonneg).symm

theorem Wf.size_located {file : SharedFile} (h : Wf file) {p : Nat} (hp : p < logicalSize file) :
    Located file p := by
  have hsize := h.size_eq
  have hle := h.size_le
  exact h.located (by omega)

/-- The size word takes any size within the active capacity. -/
theorem setFileSizeBytes_wf {file : SharedFile} (hw : Wf file) {n : Nat}
    (hn : n ≤ getActiveFileCapacityBytes file (getActiveSegmentCount file)) :
    Wf (setFileSizeBytes file n) ∧ getFileSizeBytes (setFileSizeBytes file n) = n := by
  have hcapacity := hw.activeCapacity_le
  have hmax := hw.max_le
  have hsize : getFileSizeBytes (setFileSizeBytes file n) = n :=
    toInt_ofInt_of_le (by omega) (by omega)
  refine ⟨⟨hw.toLayout, hw.active_le, hw.below_full, ?_, ?_⟩, hsize⟩
  · rw [hsize]
    omega
  · rw [hsize]
    exact Int.ofNat_le.mpr hn

/-- A shrink of the active segments keeps a file whose size still fits. -/
theorem setActiveSegmentCount_wf {file : SharedFile} (hw : Wf file) {n : Nat} (hpos : 1 ≤ n)
    (hle : n ≤ getActiveSegmentCount file)
    (hsize : getFileSizeBytes file ≤ (n * file.segmentCapacityBytes : Nat)) :
    Wf (setActiveSegmentCount file n)
      ∧ getFileSizeBytes (setActiveSegmentCount file n) = getFileSizeBytes file
      ∧ ∀ p, byteAt (setActiveSegmentCount file n) p = byteAt file p := by
  obtain ⟨hsame, hcount⟩ := setActiveSegmentCount_spec hw.toLayout hpos
    (Nat.le_trans hle hw.active_le)
  have hfile : getFileSizeBytes (setActiveSegmentCount file n) = getFileSizeBytes file :=
    hsame.fileSize
  have hactiveLe := hw.active_le
  refine ⟨⟨?_, ?_, ?_, ?_, ?_⟩, hfile, hsame.byteAt_eq⟩
  · rw [hsame.max, hsame.cap, hsame.segments]
    exact hw.toLayout
  · rw [hcount, hsame.segments]
    exact Nat.le_trans hle hw.active_le
  · intro i s hs hi
    rw [hsame.segments] at hs
    rw [hcount] at hi
    rw [hsame.cap]
    exact hw.below_full i s hs (by omega)
  · rw [hfile]
    exact hw.size_nonneg
  · have hget := List.getElem?_eq_getElem (l := file.segments) (i := n - 1) (by omega)
    generalize file.segments[n - 1] = last at hget
    have hcapacity : getActiveFileCapacityBytes (setActiveSegmentCount file n) n
        = (n - 1) * file.segmentCapacityBytes + last.data.length := by
      rw [hsame.activeCapacity]
      unfold getActiveFileCapacityBytes
      simp only [hget]
    rw [hfile, hcount, hcapacity]
    by_cases hshrink : n < getActiveSegmentCount file
    · -- the new last segment was not the last one, so it is full
      rw [hw.below_full _ _ hget (by omega)]
      have hexpand := Nat.succ_mul (n - 1) file.segmentCapacityBytes
      rw [show (n - 1).succ = n by omega] at hexpand
      omega
    · obtain rfl : n = getActiveSegmentCount file := by omega
      obtain ⟨last', hlast', hold⟩ := hw.activeSegment
      obtain rfl : last' = last := Option.some.inj (hlast'.symm.trans hget)
      rw [← hold]
      exact hw.size_le

/-- What a successful write of `bytes` at `offset` does. -/
structure Written (file : SharedFile) (bytes : List UInt8) (offset : Nat) (file' : SharedFile) :
    Prop where
  size : logicalSize file' = max (logicalSize file) (offset + bytes.length)
  placed : ∀ i, i < bytes.length → byteAt file' (offset + i) = bytes[i]?
  kept : ∀ p, p < logicalSize file → ¬(offset ≤ p ∧ p < offset + bytes.length) →
    byteAt file' p = byteAt file p

/-- What a successful truncate to `sizeBytes` does. -/
structure Truncated (file : SharedFile) (sizeBytes : Nat) (file' : SharedFile) : Prop where
  size : logicalSize file' = sizeBytes
  kept : ∀ p, p < logicalSize file → p < sizeBytes → byteAt file' p = byteAt file p

/-- The bytes below the size survive `ensureFileCapacity`. -/
theorem Ensured.kept {required : Nat} {file file' : SharedFile} (h : Ensured required file file')
    (hw : Wf file) {p : Nat} (hp : p < logicalSize file) : byteAt file' p = byteAt file p := by
  obtain ⟨b, hb⟩ := (hw.size_located hp).byteAt_isSome
  rw [hb]
  exact h.bytes p b hb

theorem SameStorage.logicalSize_eq {file file' : SharedFile} (h : SameStorage file file') :
    logicalSize file' = logicalSize file := by
  unfold logicalSize
  rw [h.fileSize]

/-- Storing the new size of a write whose bytes are in place. -/
theorem Placed.setSize {file ensured placed : SharedFile} {bytes : List UInt8} {offset : Nat}
    (hw : Wf file) (he : Ensured (offset + bytes.length) file ensured)
    (hp : Placed ensured offset bytes placed) :
    Wf (setFileSizeBytes placed (max (getFileSizeBytes placed) (offset + bytes.length : Nat)))
      ∧ Written file bytes offset
          (setFileSizeBytes placed (max (getFileSizeBytes placed) (offset + bytes.length : Nat))) := by
  have hwPlaced := hp.toSameShape.wf he.wf
  have hsize : getFileSizeBytes placed = (logicalSize file : Int) := by
    rw [hp.toSameShape.fileSize, he.size]
    exact hw.size_eq
  have hfits : max (logicalSize file) (offset + bytes.length)
      ≤ getActiveFileCapacityBytes placed (getActiveSegmentCount placed) := by
    have hle := hwPlaced.size_le
    have henough := he.enough
    rw [← hp.toSameShape.activeCapacity, ← hp.toSameShape.activeSegmentCount] at henough
    omega
  have hmax : max (getFileSizeBytes placed) ((offset + bytes.length : Nat) : Int)
      = ((max (logicalSize file) (offset + bytes.length) : Nat) : Int) := by
    rw [hsize]
    omega
  rw [hmax]
  obtain ⟨hwSet, hsizeSet⟩ := setFileSizeBytes_wf hwPlaced hfits
  refine ⟨hwSet, ?_, fun i hi => ?_, fun p hlt hout => ?_⟩
  · unfold logicalSize at hsizeSet ⊢
    omega
  · show byteAt placed (offset + i) = _
    rw [hp.byteAt_eq, if_pos (by omega)]
    congr 1
    omega
  · show byteAt placed p = _
    rw [hp.byteAt_eq, if_neg hout]
    exact he.kept hw hlt

/-- Counters do not matter to what a write has done. -/
theorem Written.same {file file' file'' : SharedFile} {bytes : List UInt8} {offset : Nat}
    (h : Written file bytes offset file') (hsame : SameStorage file' file'') :
    Written file bytes offset file'' := by
  refine ⟨hsame.logicalSize_eq.trans h.size, fun i hi => ?_, fun p hp hout => ?_⟩
  · rw [hsame.byteAt_eq]
    exact h.placed i hi
  · rw [hsame.byteAt_eq]
    exact h.kept p hp hout

/-- **A write that fits succeeds and writes its bytes.** -/
theorem write_correct {file : SharedFile} (hw : Wf file) (bytes : List UInt8) (offset : Nat)
    (hfit : offset + bytes.length ≤ file.maxCapacityBytes) :
    ∃ file', writeMemoryWriteAheadFile (fun _ => true) file bytes offset
        = (file', .returned bytes.length)
      ∧ Wf file' ∧ file'.maxCapacityBytes = file.maxCapacityBytes
      ∧ Written file bytes offset file' := by
  obtain ⟨ensured, hensure, he⟩ := ensureFileCapacity_ok hw hfit
  unfold writeMemoryWriteAheadFile
  simp only [hensure]
  by_cases hempty : bytes.length = 0
  · obtain rfl : bytes = [] := List.length_eq_zero_iff.mp hempty
    obtain ⟨hwSet, hwritten⟩ := (Placed.nil ensured offset).setSize hw he
    have hsame := countWriteOperation_same (setFileSizeBytes ensured
      (max (getFileSizeBytes ensured) (offset + ([] : List UInt8).length : Nat)))
    exact ⟨_, rfl, hsame.wf hwSet, he.max, hwritten.same hsame⟩
  · rw [if_neg hempty]
    obtain ⟨placed, hwrite, hp⟩ := writeBytes_spec offset he.wf
      (Nat.pos_of_ne_zero hempty)
      (fun p _ hhi => he.wf.located (by have := he.enough; omega))
    obtain ⟨hwSet, hwritten⟩ := hp.setSize hw he
    rw [hwrite]
    simp only
    have hsame := countWriteOperation_same (setFileSizeBytes placed
      (max (getFileSizeBytes placed) (offset + bytes.length : Nat)))
    have hsame' := countWrittenBytes_same (countWriteOperation (setFileSizeBytes placed
      (max (getFileSizeBytes placed) (offset + bytes.length : Nat)))) bytes.length
    exact ⟨_, rfl, hsame'.wf (hsame.wf hwSet), hp.max.trans he.max,
      (hwritten.same hsame).same hsame'⟩

/-- What a truncate does to a file that is large enough: the size is stored, and the
segments behind it are dropped. -/
structure Shrunk (ensured : SharedFile) (sizeBytes desired : Nat) : Prop where
  pos : 1 ≤ desired
  le : desired ≤ getActiveSegmentCount ensured
  sized : Wf (setFileSizeBytes ensured sizeBytes)
  wf : Wf (setActiveSegmentCount (setFileSizeBytes ensured sizeBytes) desired)
  size : getFileSizeBytes (setActiveSegmentCount (setFileSizeBytes ensured sizeBytes) desired)
    = (sizeBytes : Int)
  bytes : ∀ p, byteAt (setActiveSegmentCount (setFileSizeBytes ensured sizeBytes) desired) p
    = byteAt ensured p

theorem Wf.shrunk {ensured : SharedFile} (hw : Wf ensured) {sizeBytes desired : Nat}
    (henough : sizeBytes ≤ getActiveFileCapacityBytes ensured (getActiveSegmentCount ensured))
    (hdesired : (if sizeBytes = 0 then minSegmentCount
      else segmentCountFor sizeBytes ensured.segmentCapacityBytes) = desired) :
    Shrunk ensured sizeBytes desired := by
  obtain ⟨hwSet, hsizeSet⟩ := setFileSizeBytes_wf hw henough
  have hpos : 1 ≤ desired := by
    rw [← hdesired]
    split
    · exact Nat.le_refl 1
    · exact segmentCountFor_pos _ _
  have hcover : sizeBytes ≤ desired * ensured.segmentCapacityBytes := by
    rw [← hdesired]
    split
    next hzero => omega
    next => exact le_segmentCountFor_mul _ hw.cap_pos
  -- the size is within the active segments, so no more of them are desired
  have hle : desired ≤ getActiveSegmentCount ensured := by
    have hactive := getActiveSegmentCount_pos ensured
    rw [← hdesired]
    split
    · exact hactive
    · obtain ⟨last, hlast, hcapacity⟩ := hw.activeSegment
      have hlastLe := hw.segment_le_cap hlast
      refine segmentCountFor_le hw.cap_pos hactive ?_
      have hexpand := Nat.succ_mul (getActiveSegmentCount ensured - 1)
        ensured.segmentCapacityBytes
      rw [show (getActiveSegmentCount ensured - 1).succ = getActiveSegmentCount ensured by omega]
        at hexpand
      omega
  obtain ⟨hwActive, hsizeActive, hbytes⟩ := setActiveSegmentCount_wf hwSet hpos hle
    (by rw [hsizeSet]; exact Int.ofNat_le.mpr hcover)
  exact ⟨hpos, hle, hwSet, hwActive, hsizeActive.trans hsizeSet, hbytes⟩

/-- **A truncate that fits succeeds and keeps the bytes below both sizes.** -/
theorem truncate_correct {file : SharedFile} (hw : Wf file) (sizeBytes : Nat)
    (hfit : sizeBytes ≤ file.maxCapacityBytes) :
    ∃ file', truncateMemoryWriteAheadFile (fun _ => true) file sizeBytes = (file', .returned ())
      ∧ Wf file' ∧ file'.maxCapacityBytes = file.maxCapacityBytes
      ∧ Truncated file sizeBytes file' := by
  obtain ⟨ensured, hensure, he⟩ := ensureFileCapacity_ok hw hfit
  unfold truncateMemoryWriteAheadFile
  simp only [hensure]
  generalize hdesired : (if sizeBytes = 0 then minSegmentCount
    else segmentCountFor sizeBytes ensured.segmentCapacityBytes) = desired
  have hshrunk := he.wf.shrunk he.enough hdesired
  have hsame := countTruncateOperation_same
    (setActiveSegmentCount (setFileSizeBytes ensured sizeBytes) desired)
  have hsame' := recordHighWater_same (countTruncateOperation
    (setActiveSegmentCount (setFileSizeBytes ensured sizeBytes) desired))
  obtain ⟨hactiveSame, -⟩ := setActiveSegmentCount_spec hshrunk.sized.toLayout hshrunk.pos
    (Nat.le_trans hshrunk.le hshrunk.sized.active_le)
  refine ⟨_, rfl, hsame'.wf (hsame.wf hshrunk.wf), ?_, ?_, fun p hp hlt => ?_⟩
  · exact (hsame'.max.trans hsame.max).trans (hactiveSame.max.trans he.max)
  · rw [hsame'.logicalSize_eq, hsame.logicalSize_eq]
    unfold logicalSize
    rw [hshrunk.size]
    rfl
  · rw [hsame'.byteAt_eq, hsame.byteAt_eq, hshrunk.bytes]
    exact he.kept hw hp

/-- **A read returns the bytes below the size that its target takes.** -/
theorem read_correct {file : SharedFile} (hw : Wf file) (byteLength offset : Nat) :
    (readMemoryWriteAheadFile file byteLength offset).length
        = min byteLength (logicalSize file - offset)
      ∧ ∀ i, i < min byteLength (logicalSize file - offset) →
          (readMemoryWriteAheadFile file byteLength offset)[i]? = byteAt file (offset + i) := by
  unfold readMemoryWriteAheadFile
  rw [hw.size_eq]
  simp only
  by_cases hbeyond : (offset : Int) ≥ (logicalSize file : Int)
  · rw [if_pos hbeyond]
    exact ⟨by simp; omega, fun i hi => by omega⟩
  · rw [if_neg hbeyond]
    exact readSegments_spec _ _ _ hw (Nat.le_refl _) fun p _ hp => hw.size_located hp

/-! ## §5. Any calls on a new file. -/

/-- A call, with growth granted. -/
inductive Call where
  | write (bytes : List UInt8) (offset : Nat)
  | truncate (sizeBytes : Nat)
  | read (byteLength offset : Nat)
  deriving DecidableEq

/-- The file after a call. -/
def SharedFile.call (file : SharedFile) : Call → SharedFile
  | .write bytes offset => (writeMemoryWriteAheadFile (fun _ => true) file bytes offset).1
  | .truncate sizeBytes => (truncateMemoryWriteAheadFile (fun _ => true) file sizeBytes).1
  | .read _ _ => file

/-- The abstract flat file after a call: a call beyond the capacity is refused
and changes nothing. -/
def flatCall (maxCapacityBytes : Nat) (flat : FlatFile UInt8) : Call → FlatFile UInt8
  | .write bytes offset =>
      if offset + bytes.length ≤ maxCapacityBytes then flat.write offset bytes else flat
  | .truncate sizeBytes => if sizeBytes ≤ maxCapacityBytes then flat.truncate sizeBytes else flat
  | .read _ _ => flat

/-- The contract of the three operations on a file that stands for `flat`. -/
structure Contract (maxCapacityBytes : Nat) (file : SharedFile) (flat : FlatFile UInt8) :
    Prop where
  size : logicalSize file = flat.size
  write_fits : ∀ bytes offset, offset + bytes.length ≤ maxCapacityBytes →
    ∃ file', writeMemoryWriteAheadFile (fun _ => true) file bytes offset
        = (file', .returned bytes.length)
      ∧ Written file bytes offset file'
  write_exceeds : ∀ bytes offset, maxCapacityBytes < offset + bytes.length →
    writeMemoryWriteAheadFile (fun _ => true) file bytes offset
      = (file, .threw (.capacityExceeded file.pathname (offset + bytes.length) maxCapacityBytes))
  truncate_fits : ∀ sizeBytes, sizeBytes ≤ maxCapacityBytes →
    ∃ file', truncateMemoryWriteAheadFile (fun _ => true) file sizeBytes
        = (file', .returned ())
      ∧ Truncated file sizeBytes file'
  truncate_exceeds : ∀ sizeBytes, maxCapacityBytes < sizeBytes →
    truncateMemoryWriteAheadFile (fun _ => true) file sizeBytes
      = (file, .threw (.capacityExceeded file.pathname sizeBytes maxCapacityBytes))
  read_length : ∀ byteLength offset,
    (readMemoryWriteAheadFile file byteLength offset).length
      = min byteLength (logicalSize file - offset)
  read_bytes : ∀ byteLength offset i, i < min byteLength (logicalSize file - offset) →
    (readMemoryWriteAheadFile file byteLength offset)[i]? = byteAt file (offset + i)
  read_latest : ∀ byteLength offset i b, i < byteLength → flat.byte (offset + i) = some b →
    (readMemoryWriteAheadFile file byteLength offset)[i]? = some b

/-- The file is well formed and shows what its calls have left to be read. -/
structure Represents (maxCapacityBytes : Nat) (file : SharedFile) (flat : FlatFile UInt8) :
    Prop where
  wf : Wf file
  max : file.maxCapacityBytes = maxCapacityBytes
  shows : flat.Shows (logicalSize file) (byteAt file)

/-- **Step lemma**: every call keeps the representation. -/
theorem Represents.call {maxCapacityBytes : Nat} {file : SharedFile} {flat : FlatFile UInt8}
    (h : Represents maxCapacityBytes file flat) (call : Call) :
    Represents maxCapacityBytes (file.call call) (flatCall maxCapacityBytes flat call) := by
  cases call with
  | write bytes offset =>
      simp only [SharedFile.call, flatCall]
      by_cases hfit : offset + bytes.length ≤ maxCapacityBytes
      · obtain ⟨file', hwrite, hw, hmax, hwritten⟩ :=
          write_correct h.wf bytes offset (by rw [h.max]; exact hfit)
        rw [if_pos hfit, hwrite]
        exact ⟨hw, hmax.trans h.max, h.shows.write hwritten.size hwritten.placed hwritten.kept⟩
      · have hexceeded := ensureFileCapacity_exceeded (fun _ => true)
          (offset + bytes.length) file (by rw [h.max]; omega)
        rw [if_neg hfit]
        unfold writeMemoryWriteAheadFile
        simp only [hexceeded]
        exact h
  | truncate sizeBytes =>
      simp only [SharedFile.call, flatCall]
      by_cases hfit : sizeBytes ≤ maxCapacityBytes
      · obtain ⟨file', htruncate, hw, hmax, htruncated⟩ :=
          truncate_correct h.wf sizeBytes (by rw [h.max]; exact hfit)
        rw [if_pos hfit, htruncate]
        have hshows := h.shows.truncate sizeBytes htruncated.kept
        exact ⟨hw, hmax.trans h.max, by rw [htruncated.size]; exact hshows⟩
      · have hexceeded := ensureFileCapacity_exceeded (fun _ => true) sizeBytes file (by rw [h.max]; omega)
        rw [if_neg hfit]
        unfold truncateMemoryWriteAheadFile
        simp only [hexceeded]
        exact h
  | read byteLength offset => exact h

/-- **Run lemma.** -/
theorem Represents.calls {maxCapacityBytes : Nat} {file : SharedFile} {flat : FlatFile UInt8}
    (h : Represents maxCapacityBytes file flat) (calls : List Call) :
    Represents maxCapacityBytes (calls.foldl SharedFile.call file)
      (calls.foldl (flatCall maxCapacityBytes) flat) := by
  induction calls generalizing file flat with
  | nil => exact h
  | cons call calls ih => exact ih (h.call call)

theorem Represents.contract {maxCapacityBytes : Nat} {file : SharedFile} {flat : FlatFile UInt8}
    (h : Represents maxCapacityBytes file flat) : Contract maxCapacityBytes file flat := by
  refine ⟨h.shows.size_eq, ?_, ?_, ?_, ?_, ?_, ?_, ?_⟩
  · intro bytes offset hfit
    obtain ⟨file', hwrite, -, -, hwritten⟩ :=
      write_correct h.wf bytes offset (by rw [h.max]; exact hfit)
    exact ⟨file', hwrite, hwritten⟩
  · intro bytes offset hexceeds
    unfold writeMemoryWriteAheadFile
    simp only [ensureFileCapacity_exceeded (fun _ => true)
      (offset + bytes.length) file (by rw [h.max]; exact hexceeds), h.max]
  · intro sizeBytes hfit
    obtain ⟨file', htruncate, -, -, htruncated⟩ :=
      truncate_correct h.wf sizeBytes (by rw [h.max]; exact hfit)
    exact ⟨file', htruncate, htruncated⟩
  · intro sizeBytes hexceeds
    unfold truncateMemoryWriteAheadFile
    simp only [ensureFileCapacity_exceeded (fun _ => true) sizeBytes file (by rw [h.max]; exact hexceeds), h.max]
  · exact fun byteLength offset => (read_correct h.wf byteLength offset).1
  · exact fun byteLength offset => (read_correct h.wf byteLength offset).2
  · intro byteLength offset i b hi hb
    have hbelow := h.shows.below _ b hb
    rw [← h.shows.size_eq] at hbelow
    rw [(read_correct h.wf byteLength offset).2 i (by omega)]
    exact h.shows.shown _ b hb

/-- **Segmented storage refines one flat file.**  After any calls on a file made
by `createSharedFile`, the file has the size of the flat file of these calls, and
the next write, truncate or read does what the flat file says. -/
theorem segmented_storage_refines_flat_file {growable : Nat → Bool} {pathname : String}
    {caps : Capacities} {allowFixedCapacityFallback : Bool} {file : SharedFile}
    (hcreate : createSharedFile growable pathname caps.initialCapacityBytes
      caps.maxCapacityBytes allowFixedCapacityFallback = some file) (calls : List Call) :
    Contract caps.maxCapacityBytes (calls.foldl SharedFile.call file)
      (calls.foldl (flatCall caps.maxCapacityBytes) FlatFile.empty) := by
  obtain ⟨hw, hsize, hmax⟩ := createSharedFile_wf _ hcreate
  have hstart : Represents caps.maxCapacityBytes file FlatFile.empty := by
    refine ⟨hw, hmax, ?_⟩
    have hzero : logicalSize file = 0 := by
      unfold logicalSize
      rw [hsize]
      rfl
    rw [hzero]
    exact FlatFile.Shows.empty
  exact (hstart.calls calls).contract

/-- Segments of 2 bytes, at most 5 bytes in all. -/
def fiveBytes : Capacities := ⟨2, 5, by decide, by decide, by decide⟩

/-- A write of four bytes at 1, a truncate to 3, and a read of the rest. -/
theorem segmented_storage_refines_flat_file_five :
    ∃ file, createSharedFile (fun _ => true) "/db-wa0" fiveBytes.initialCapacityBytes
        fiveBytes.maxCapacityBytes false = some file
      ∧ readMemoryWriteAheadFile
          ([Call.write [10, 11, 12, 13] 1, .truncate 3].foldl SharedFile.call file) 8 1
        = [10, 11] := by
  obtain ⟨file, hcreate⟩ : ∃ file, createSharedFile (fun _ => true) "/db-wa0"
      fiveBytes.initialCapacityBytes fiveBytes.maxCapacityBytes false = some file := ⟨_, rfl⟩
  have hcontract := segmented_storage_refines_flat_file hcreate
    [.write [10, 11, 12, 13] 1, .truncate 3]
  refine ⟨file, hcreate, List.ext_getElem? fun i => ?_⟩
  have hlength := hcontract.read_length 8 1
  rw [hcontract.size] at hlength
  match i with
  | 0 => exact hcontract.read_latest 8 1 0 10 (by decide) rfl
  | 1 => exact hcontract.read_latest 8 1 1 11 (by decide) rfl
  | i + 2 =>
      rw [List.getElem?_eq_none (by rw [hlength]; exact Nat.le_add_left 2 i)]
      rfl

end MemoryWriteAhead.Storage
