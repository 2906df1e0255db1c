/-
  MemoryWriteAhead.Storage.Gaps
  ─────────────────────────────
  **WHAT A READ SHOWS WHERE THE FILE HAS GROWN BACK.**

  The two storages of `MemoryWriteAheadVFS.ts` behind one interface: the segments
  of a `SABMemoryAccessHandle`, with `clearMemoryWriteAheadFile` by `jDelete` in
  between, and the one buffer of a `LocalMemoryAccessHandle` with its `growBuffer`.
  A truncate and a clear change counters and no byte, so a position that comes back
  into the file shows what was last written there.

    • `Grew`, `write_left`, `truncate_left`, `clear_left` — each call of the shared
      file leaves in the buffers what the writes have put there, whether or not the
      platform grants the growth it asks for,
    • `LocalFile.write_left`, `LocalFile.truncate_left` — the same of the local file,
    • `gaps_show_zero_iff` — the gaps of a file read as 0 exactly when the last write
      of each of their positions, if any, was a 0.
-/
import MemoryWriteAhead.Storage.Refinement

namespace MemoryWriteAhead.Storage

/-! ## §1. Growth that may be refused. -/

/-- The segments have grown by zeros, or not at all. -/
structure Grew (file file' : SharedFile) : Prop where
  max : file'.maxCapacityBytes = file.maxCapacityBytes
  cap : file'.segmentCapacityBytes = file.segmentCapacityBytes
  words : file'.words = file.words
  length : file'.segments.length = file.segments.length
  segments : ∀ (i : Nat) (s' : Segment), file'.segments[i]? = some s' →
    ∃ s n, file.segments[i]? = some s ∧ n ≤ s.maxCapacityBytes ∧ s' = s.grownTo n

theorem Grew.refl (file : SharedFile) : Grew file file :=
  ⟨rfl, rfl, rfl, rfl, fun _ s' hs' => ⟨s', 0, hs', Nat.zero_le _, by simp⟩⟩

theorem Segment.grownTo_grownTo (s : Segment) (m n : Nat) :
    (s.grownTo m).grownTo n = s.grownTo (max m n) := by
  have hlength := s.length_grownTo m
  unfold Segment.grownTo at hlength ⊢
  simp only [List.append_assoc, Segment.mk.injEq, true_and, and_true]
  rw [hlength, List.replicate_append_replicate]
  congr 2
  omega

theorem Grew.trans {f g k : SharedFile} (h : Grew f g) (h' : Grew g k) : Grew f k := by
  refine ⟨h'.max.trans h.max, h'.cap.trans h.cap, h'.words.trans h.words,
    h'.length.trans h.length, fun i s' hs' => ?_⟩
  obtain ⟨t, n, ht, hn, rfl⟩ := h'.segments i s' hs'
  obtain ⟨s, m, hs, hm, rfl⟩ := h.segments i t ht
  refine ⟨s, Nat.max m n, hs, ?_, Segment.grownTo_grownTo s m n⟩
  exact Nat.max_le.mpr ⟨hm, hn⟩

/-- One segment is replaced by what has grown from it. -/
theorem Grew.set {file : SharedFile} {i : Nat} {s : Segment} {n : Nat}
    (hs : file.segments[i]? = some s) (hn : n ≤ s.maxCapacityBytes) :
    Grew file { file with segments := file.segments.set i (s.grownTo n) } := by
  have hlt := (List.getElem?_eq_some_iff.mp hs).1
  refine ⟨rfl, rfl, rfl, List.length_set .., fun j s' hs' => ?_⟩
  by_cases hj : i = j
  · subst hj
    rw [List.getElem?_set_self hlt] at hs'
    exact ⟨s, n, hs, hn, (Option.some.inj hs').symm⟩
  · rw [List.getElem?_set_ne hj] at hs'
    exact ⟨s', 0, hs', Nat.zero_le _, by simp⟩

/-- **Whatever the platform grants, the growth loop only grows segments.** -/
theorem growSegments_grew (granted : Nat → Bool) (required count index : Nat) (file : SharedFile) :
    Grew file (growSegments granted required index count file).1 := by
  induction count generalizing index file with
  | zero => exact .refl file
  | succ count ih =>
      unfold growSegments
      cases hs : file.segments[index]? with
      | none => exact .refl file
      | some s =>
          simp only
          cases hgrow : growSegment (granted index) s
              (min s.maxCapacityBytes (required - index * file.segmentCapacityBytes)) with
          | error e => exact .refl file
          | ok r =>
              obtain ⟨grown, didGrow⟩ := r
              -- a segment that did not have to grow is its own growth
              have hgrown : grown = s.grownTo
                  (min s.maxCapacityBytes (required - index * file.segmentCapacityBytes)) := by
                unfold growSegment at hgrow
                split at hgrow
                next hle =>
                  cases hgrow
                  unfold Segment.grownTo
                  rw [show min s.maxCapacityBytes (required - index * file.segmentCapacityBytes)
                    - s.data.length = 0 by omega]
                  simp
                next =>
                  split at hgrow
                  next => cases hgrow
                  next =>
                    split at hgrow
                    next =>
                      split at hgrow
                      next => cases hgrow; rfl
                      next => cases hgrow
                    next => cases hgrow
              rw [hgrown]
              exact (Grew.set hs (Nat.min_le_left _ _)).trans (ih (index + 1) _)

/-- A growth loop that succeeds does so with every growth granted. -/
theorem growSegments_granted {granted : Nat → Bool} {required count index : Nat}
    {file file' : SharedFile} {didGrow : Bool}
    (h : growSegments granted required index count file = (file', .ok didGrow)) :
    growSegments (fun _ => true) required index count file = (file', .ok didGrow) := by
  induction count generalizing index file file' didGrow with
  | zero => exact h
  | succ count ih =>
      unfold growSegments at h ⊢
      cases hs : file.segments[index]? with
      | none => rw [hs] at h; cases h
      | some s =>
          rw [hs] at h
          simp only at h ⊢
          cases hgrow : growSegment (granted index) s
              (min s.maxCapacityBytes (required - index * file.segmentCapacityBytes)) with
          | error e => rw [hgrow] at h; cases h
          | ok r =>
              have hall : growSegment true s
                  (min s.maxCapacityBytes (required - index * file.segmentCapacityBytes))
                  = .ok r := by
                rw [← hgrow]
                unfold growSegment at hgrow ⊢
                cases hg : granted index with
                | true => rfl
                | false =>
                    rw [hg] at hgrow
                    split at hgrow
                    next hle => rw [if_pos hle, if_pos hle]
                    next =>
                      split at hgrow
                      next => cases hgrow
                      next => split at hgrow <;> simp at hgrow
              rw [hgrow] at h
              rw [hall]
              obtain ⟨grown, grew⟩ := r
              simp only [Prod.mk.injEq] at h ⊢
              obtain ⟨hfile, hok⟩ := h
              obtain ⟨rest, hrest⟩ : ∃ rest, (growSegments granted required (index + 1) count
                  { file with segments := file.segments.set index grown }).2 = .ok rest := by
                revert hok
                cases (growSegments granted required (index + 1) count
                  { file with segments := file.segments.set index grown }).2 with
                | ok rest => exact fun _ => ⟨rest, rfl⟩
                | error e => intro hok; cases hok
              rw [ih (Prod.ext hfile hrest)]
              refine ⟨rfl, ?_⟩
              rw [← hok, hrest]

section

variable {file file' : SharedFile}

theorem Grew.bytes (h : Grew file file') {p : Nat} {b : UInt8} (hb : byteAt file p = some b) :
    byteAt file' p = some b := by
  unfold byteAt at hb ⊢
  obtain ⟨s, hs, hbyte⟩ := Option.bind_eq_some_iff.mp hb
  have hlt := (List.getElem?_eq_some_iff.mp hs).1
  have hs' := List.getElem?_eq_getElem (l := file'.segments)
    (i := p / file.segmentCapacityBytes) (by rw [h.length]; exact hlt)
  obtain ⟨t, n, ht, _, heq⟩ := h.segments _ _ hs'
  obtain rfl : t = s := Option.some.inj (ht.symm.trans hs)
  rw [h.cap, hs', Option.bind_some, heq]
  exact Segment.getElem?_grownTo n hbyte

/-- The new bytes are 0. -/
theorem Grew.byte_or_zero (h : Grew file file') {p : Nat} {b : UInt8}
    (hb : byteAt file' p = some b) :
    byteAt file p = some b ∨ byteAt file p = none ∧ b = 0 := by
  unfold byteAt at hb ⊢
  rw [h.cap] at hb
  obtain ⟨s', hs', hbyte⟩ := Option.bind_eq_some_iff.mp hb
  obtain ⟨s, n, hs, _, rfl⟩ := h.segments _ _ hs'
  rw [hs, Option.bind_some]
  by_cases hold : p % file.segmentCapacityBytes < s.data.length
  · have hsame : (s.grownTo n).data[p % file.segmentCapacityBytes]?
        = s.data[p % file.segmentCapacityBytes]? := List.getElem?_append_left hold
    exact .inl (hsame ▸ hbyte)
  · refine .inr ⟨List.getElem?_eq_none (by omega), ?_⟩
    have hnew : (s.data ++ List.replicate (n - s.data.length) (0 : UInt8))[p % file.segmentCapacityBytes]?
        = some b := hbyte
    rw [List.getElem?_append_right (by omega), List.getElem?_replicate] at hnew
    split at hnew
    next => exact (Option.some.inj hnew).symm
    next => cases hnew

/-- A file some of whose segments have grown is well formed. -/
theorem Grew.wf (h : Grew file file') (hw : Wf file) : Wf file' := by
  have hactive : getActiveSegmentCount file' = getActiveSegmentCount file := by
    unfold getActiveSegmentCount
    rw [h.words]
  have hsize : getFileSizeBytes file' = getFileSizeBytes file := by
    unfold getFileSizeBytes
    rw [h.words]
  refine ⟨?_, ?_, fun i s' hs' hi => ?_, ?_, ?_⟩
  · rw [h.max, h.cap]
    exact hw.toLayout.grow _ h.length h.segments
  · rw [hactive, h.length]
    exact hw.active_le
  · obtain ⟨s, n, hs, hn, rfl⟩ := h.segments i s' hs'
    have hfull := hw.below_full i s hs (hactive ▸ hi)
    have hmax := hw.segment_max i s hs
    rw [Segment.length_grownTo, h.cap]
    omega
  · rw [hsize]
    exact hw.size_nonneg
  · rw [hsize, hactive]
    refine Int.le_trans hw.size_le (Int.ofNat_le.mpr ?_)
    obtain ⟨s, hs, hcapacity⟩ := hw.activeSegment
    have hlt := (List.getElem?_eq_some_iff.mp hs).1
    have hs' := List.getElem?_eq_getElem (l := file'.segments)
      (i := getActiveSegmentCount file - 1) (by rw [h.length]; exact hlt)
    obtain ⟨t, n, ht, _, heq⟩ := h.segments _ _ hs'
    obtain rfl : t = s := Option.some.inj (ht.symm.trans hs)
    rw [hcapacity]
    unfold getActiveFileCapacityBytes
    rw [hs', heq, h.cap]
    simp only [Segment.length_grownTo]
    omega

end

/-- What `ensureFileCapacity` does with the growth that is granted, it does with every
growth granted. -/
theorem ensureFileCapacity_granted {granted : Nat → Bool} {file file' : SharedFile}
    {required : Nat} (h : ensureFileCapacity granted file required = (file', .ok ())) :
    ensureFileCapacity (fun _ => true) file required = (file', .ok ()) := by
  unfold ensureFileCapacity at h ⊢
  split at h
  next => cases h
  next hfit =>
    rw [if_neg hfit]
    simp only at h ⊢
    split at h
    next hle => rw [if_pos hle]; exact h
    next hsmall =>
      rw [if_neg hsmall]
      split at h
      next => cases h
      next grown didGrow hgrow =>
        rw [growSegments_granted hgrow]
        exact h

/-- **`ensureFileCapacity`, whatever the platform grants**: it throws and has only
grown segments, or the file is large enough and the new bytes are 0. -/
theorem ensureFileCapacity_cases (granted : Nat → Bool) {file : SharedFile} (hw : Wf file)
    (required : Nat) :
    (∃ e file', ensureFileCapacity granted file required = (file', .error e) ∧ Grew file file')
      ∨ ∃ file' grown, ensureFileCapacity granted file required = (file', .ok ())
        ∧ Ensured required file file' ∧ Grew file grown
        ∧ ∀ p, byteAt file' p = byteAt grown p := by
  by_cases hexceeds : required > file.maxCapacityBytes
  · exact .inl ⟨_, file, ensureFileCapacity_exceeded granted required file hexceeds, .refl file⟩
  · -- the segments are those of the growth loop, or those of the file itself
    have hresult : (∃ e file', ensureFileCapacity granted file required = (file', .error e)
          ∧ Grew file file')
        ∨ ∃ file' grown, ensureFileCapacity granted file required = (file', .ok ())
          ∧ Grew file grown ∧ file'.segments = grown.segments
          ∧ file'.segmentCapacityBytes = grown.segmentCapacityBytes := by
      unfold ensureFileCapacity
      rw [if_neg hexceeds]
      simp only
      split
      next => exact .inr ⟨file, file, rfl, .refl file, rfl, rfl⟩
      next =>
        generalize (if required = 0 then minSegmentCount
          else segmentCountFor required file.segmentCapacityBytes) = desired
        have hgrew := growSegments_grew granted required
          (desired - (getActiveSegmentCount file - 1)) (getActiveSegmentCount file - 1) file
        split
        next grown e hgrow =>
          rw [hgrow] at hgrew
          exact .inl ⟨e, grown, rfl, hgrew⟩
        next grown didGrow hgrow =>
          rw [hgrow] at hgrew
          refine .inr ?_
          split
          next =>
            refine ⟨_, grown, rfl, hgrew, ?_, ?_⟩
            · unfold setActiveSegmentCount
              simp only
              split <;> rfl
            · unfold setActiveSegmentCount
              simp only
              split <;> rfl
          next =>
            split
            next => exact ⟨_, grown, rfl, hgrew, rfl, rfl⟩
            next => exact ⟨_, grown, rfl, hgrew, rfl, rfl⟩
    rcases hresult with herror | ⟨file', grown, hok, hgrew, hsegments, hcap⟩
    · exact .inl herror
    · refine .inr ⟨file', grown, hok, ?_, hgrew, fun p => ?_⟩
      · obtain ⟨ensured, hensure, he⟩ := ensureFileCapacity_ok hw (by omega : required ≤ _)
        rw [ensureFileCapacity_granted hok] at hensure
        obtain rfl := (Prod.mk.inj hensure).1
        exact he
      · unfold byteAt
        rw [hsegments, hcap]

/-! ## §2. The calls of a shared file. -/

/-- The file holds in its buffers what the writes have left there. -/
structure Leaves (file : SharedFile) (history : FileHistory UInt8) : Prop where
  wf : Wf file
  left : history.Left 0 (logicalSize file) (byteAt file)

section

variable {file file' grown : SharedFile} {history : FileHistory UInt8}

theorem Grew.leaves (h : Grew file file') (hl : Leaves file history) : Leaves file' history := by
  have hsize : logicalSize file' = logicalSize file := by
    unfold logicalSize getFileSizeBytes
    rw [h.words]
  refine ⟨h.wf hl.wf, ?_⟩
  rw [hsize]
  exact hl.left.grow (fun p b hb => h.bytes hb) fun p b hb => h.byte_or_zero hb

/-- **A write** throws and writes nothing, or it writes its bytes. -/
theorem write_left (granted : Nat → Bool) (hl : Leaves file history) (bytes : List UInt8)
    (offset : Nat) :
    (∃ e file', writeMemoryWriteAheadFile granted file bytes offset = (file', .threw e)
        ∧ Leaves file' history)
      ∨ ∃ file', writeMemoryWriteAheadFile granted file bytes offset
          = (file', .returned bytes.length) ∧ Leaves file' (history.write offset bytes) := by
  rcases ensureFileCapacity_cases granted hl.wf (offset + bytes.length) with
    ⟨e, file', hensure, hgrew⟩ | ⟨ensured, grown, hensure, he, hgrew, hbytes⟩
  · refine .inl ⟨e, file', ?_, hgrew.leaves hl⟩
    unfold writeMemoryWriteAheadFile
    simp only [hensure]
  · refine .inr ?_
    have hgrown := (hgrew.leaves hl).left
    have hsizeGrown : logicalSize grown = logicalSize file := by
      unfold logicalSize getFileSizeBytes
      rw [hgrew.words]
    -- the bytes are placed in the buffers as they have grown
    have hplaced (placed : SharedFile) (hp : Placed ensured offset bytes placed)
        (written : SharedFile)
        (hsame : SameStorage (setFileSizeBytes placed
          (max (getFileSizeBytes placed) (offset + bytes.length : Nat))) written) :
        Leaves written (history.write offset bytes) := by
      obtain ⟨hwSet, hwritten⟩ := hp.setSize hl.wf he
      refine ⟨hsame.wf hwSet, ?_⟩
      rw [hsame.logicalSize_eq, hwritten.size]
      refine hgrown.write (by rw [hsizeGrown]) fun p => ?_
      rw [hsame.byteAt_eq]
      show byteAt placed p = _
      rw [hp.byteAt_eq, hbytes]
    unfold writeMemoryWriteAheadFile
    simp only [hensure]
    by_cases hempty : bytes.length = 0
    · obtain rfl : bytes = [] := List.length_eq_zero_iff.mp hempty
      exact ⟨_, rfl, hplaced ensured (.nil ensured offset) _ (countWriteOperation_same _)⟩
    · rw [if_neg hempty]
      obtain ⟨placed, hwrite, hp⟩ := writeBytes_spec offset he.wf (Nat.pos_of_ne_zero hempty)
        (fun p _ hhi => he.wf.located (by have := he.enough; omega))
      rw [hwrite]
      refine ⟨_, rfl, hplaced placed hp _ ?_⟩
      have hcount := countWriteOperation_same (setFileSizeBytes placed
        (max (getFileSizeBytes placed) (offset + bytes.length : Nat)))
      have hbytesCount := countWrittenBytes_same (countWriteOperation (setFileSizeBytes placed
        (max (getFileSizeBytes placed) (offset + bytes.length : Nat)))) bytes.length
      exact hcount.trans hbytesCount

theorem setActiveSegmentCount_byteAt (file : SharedFile) (n p : Nat) :
    byteAt (setActiveSegmentCount file n) p = byteAt file p := by
  unfold setActiveSegmentCount
  simp only
  split <;> rfl

/-- **A truncate** throws and keeps the size, or it sets the size and no byte. -/
theorem truncate_left (granted : Nat → Bool) (hl : Leaves file history) (sizeBytes : Nat) :
    (∃ e file', truncateMemoryWriteAheadFile granted file sizeBytes = (file', .threw e)
        ∧ Leaves file' history)
      ∨ ∃ file', truncateMemoryWriteAheadFile granted file sizeBytes = (file', .returned ())
          ∧ Leaves file' (history.truncate sizeBytes) := by
  rcases ensureFileCapacity_cases granted hl.wf sizeBytes with
    ⟨e, file', hensure, hgrew⟩ | ⟨ensured, grown, hensure, he, hgrew, hbytes⟩
  · refine .inl ⟨e, file', ?_, hgrew.leaves hl⟩
    unfold truncateMemoryWriteAheadFile
    simp only [hensure]
  · -- it does what it does with every growth granted
    have hfit : sizeBytes ≤ file.maxCapacityBytes := by
      have henough := he.enough
      have hcapacity := he.wf.activeCapacity_le
      have hmax := he.max
      omega
    have hsame : truncateMemoryWriteAheadFile granted file sizeBytes
        = truncateMemoryWriteAheadFile (fun _ => true) file sizeBytes := by
      unfold truncateMemoryWriteAheadFile
      rw [hensure, ensureFileCapacity_granted hensure]
    obtain ⟨file', htruncate, hw, -, htruncated⟩ := truncate_correct hl.wf sizeBytes hfit
    refine .inr ⟨file', hsame.trans htruncate, hw, ?_⟩
    rw [htruncated.size]
    refine (hgrew.leaves hl).left.truncate sizeBytes fun p => ?_
    -- behind the growth there are counters only
    unfold truncateMemoryWriteAheadFile at htruncate
    rw [ensureFileCapacity_granted hensure] at htruncate
    obtain rfl := (Prod.mk.inj htruncate).1
    rw [(recordHighWater_same _).byteAt_eq, (countTruncateOperation_same _).byteAt_eq,
      setActiveSegmentCount_byteAt]
    exact hbytes p

/-- **A clear** sets the size to 0 and no byte. -/
theorem clear_left (hl : Leaves file history) :
    Leaves (clearMemoryWriteAheadFile file) (history.truncate 0) := by
  have hlength : 1 ≤ file.segments.length := by
    have hactive := getActiveSegmentCount_pos file
    have hle := hl.wf.active_le
    omega
  obtain ⟨hsame, hactive⟩ : SameStorage _ (clearMemoryWriteAheadFile file)
      ∧ getActiveSegmentCount (clearMemoryWriteAheadFile file) = 1 :=
    setActiveSegmentCount_spec hl.wf.toLayout (Nat.le_refl 1) hlength
  have hsize : getFileSizeBytes (clearMemoryWriteAheadFile file) = 0 := hsame.fileSize
  have hmax : (clearMemoryWriteAheadFile file).maxCapacityBytes = file.maxCapacityBytes := hsame.max
  have hcap : (clearMemoryWriteAheadFile file).segmentCapacityBytes = file.segmentCapacityBytes :=
    hsame.cap
  have hsegments : (clearMemoryWriteAheadFile file).segments = file.segments := hsame.segments
  have hlogical : logicalSize (clearMemoryWriteAheadFile file) = 0 := by
    unfold logicalSize
    rw [hsize]
    rfl
  refine ⟨⟨?_, ?_, fun i s _ hi => ?_, ?_, ?_⟩, ?_⟩
  · rw [hmax, hcap, hsegments]
    exact hl.wf.toLayout
  · rw [hactive, hsegments]
    exact hlength
  · rw [hactive] at hi
    omega
  · exact Int.le_of_eq hsize.symm
  · rw [hsize]
    exact Int.natCast_nonneg _
  · rw [hlogical]
    exact hl.left.truncate 0 fun p => setActiveSegmentCount_byteAt _ _ p

theorem createSharedSegment_zero {growable allowFixed : Bool} {initialBytes maxBytes : Nat}
    {s : Segment} (h : createSharedSegment growable allowFixed initialBytes maxBytes = some s)
    (b : UInt8) (hb : b ∈ s.data) : b = 0 := by
  unfold createSharedSegment createSharedSegmentData at h
  split at h
  next =>
    obtain rfl := Option.some.inj h
    exact List.eq_of_mem_replicate hb
  next =>
    split at h
    next =>
      obtain rfl := Option.some.inj h
      exact List.eq_of_mem_replicate hb
    next => cases h

/-- A new file has nothing but zeros in its buffers. -/
theorem createSharedFile_left {growable : Nat → Bool} {pathname : String} {caps : Capacities}
    {allowFixed : Bool}
    (h : createSharedFile growable pathname caps.initialCapacityBytes caps.maxCapacityBytes
      allowFixed = some file) : Leaves file (.empty 0) := by
  obtain ⟨hw, hsize, -⟩ := createSharedFile_wf _ h
  have hlogical : logicalSize file = 0 := by
    unfold logicalSize
    rw [hsize]
    rfl
  refine ⟨hw, ?_⟩
  rw [hlogical]
  refine FileHistory.Left.empty fun p b hb => ?_
  obtain ⟨segments, hsegments, rfl⟩ := Option.map_eq_some_iff.mp h
  obtain ⟨-, hmade⟩ := getElem?_mapM hsegments
  unfold byteAt at hb
  obtain ⟨s, hs, hbyte⟩ := Option.bind_eq_some_iff.mp hb
  obtain ⟨index, -, hcreate⟩ := hmade _ s hs
  exact createSharedSegment_zero hcreate b (List.mem_of_getElem? hbyte)

end

/-- A call on a shared file, with the growth the platform grants during it. -/
inductive HandleCall where
  | write (granted : Nat → Bool) (bytes : List UInt8) (offset : Nat)
  | truncate (granted : Nat → Bool) (sizeBytes : Nat)
  | read (byteLength offset : Nat)
  /-- `jDelete` of the file -/
  | delete

/-- The file and its history after a call; a call that throws is not part of it. -/
def SharedFile.handleCall (x : SharedFile × FileHistory UInt8) :
    HandleCall → SharedFile × FileHistory UInt8
  | .write granted bytes offset =>
      match writeMemoryWriteAheadFile granted x.1 bytes offset with
      | (file, .returned _) => (file, x.2.write offset bytes)
      | (file, _) => (file, x.2)
  | .truncate granted sizeBytes =>
      match truncateMemoryWriteAheadFile granted x.1 sizeBytes with
      | (file, .returned _) => (file, x.2.truncate sizeBytes)
      | (file, _) => (file, x.2)
  | .read _ _ => x
  | .delete => (clearMemoryWriteAheadFile x.1, x.2.truncate 0)

/-- **What one call preserves.** -/
theorem Leaves.call {x : SharedFile × FileHistory UInt8} (h : Leaves x.1 x.2)
    (call : HandleCall) : Leaves (SharedFile.handleCall x call).1 (SharedFile.handleCall x call).2 := by
  cases call with
  | write granted bytes offset =>
      rcases write_left granted h bytes offset with
        ⟨e, file', hwrite, hleft⟩ | ⟨file', hwrite, hleft⟩
      · simp only [SharedFile.handleCall, hwrite]
        exact hleft
      · simp only [SharedFile.handleCall, hwrite]
        exact hleft
  | truncate granted sizeBytes =>
      rcases truncate_left granted h sizeBytes with
        ⟨e, file', htruncate, hleft⟩ | ⟨file', htruncate, hleft⟩
      · simp only [SharedFile.handleCall, htruncate]
        exact hleft
      · simp only [SharedFile.handleCall, htruncate]
        exact hleft
  | read byteLength offset => exact h
  | delete => exact clear_left h

/-- **What any calls preserve.** -/
theorem Leaves.calls {x : SharedFile × FileHistory UInt8} (h : Leaves x.1 x.2)
    (calls : List HandleCall) :
    Leaves (calls.foldl SharedFile.handleCall x).1 (calls.foldl SharedFile.handleCall x).2 := by
  induction calls generalizing x with
  | nil => exact h
  | cons call calls ih => exact ih (h.call call)

/-! ## §3. The local file. -/

/-- `MemoryWriteAheadLocalFile` -/
structure LocalFile where
  data : List UInt8
  size : Nat
  deriving DecidableEq, Repr

/-- `growBuffer`; `none` where the platform refuses the new buffer. -/
def growBuffer (granted : Bool) (buffer : List UInt8) (requiredSize : Nat) : Option (List UInt8) :=
  if buffer.length ≥ requiredSize then some buffer
  else if granted then
    let nextSize := max requiredSize (max (buffer.length * 2) 1)
    some (buffer ++ List.replicate (nextSize - buffer.length) 0)
  else none

namespace LocalFile

/-- `LocalMemoryAccessHandle.read` into a target of `byteLength` bytes. -/
def read (file : LocalFile) (byteLength offset : Nat) : List UInt8 :=
  let begin := min offset file.size
  let bytesToRead := min (offset + byteLength) file.size - begin
  (file.data.drop begin).take bytesToRead

/-- `LocalMemoryAccessHandle.truncate` -/
def truncate (granted : Bool) (file : LocalFile) (size : Nat) : Option LocalFile :=
  (growBuffer granted file.data size).map fun data => { data, size }

/-- `LocalMemoryAccessHandle.write` -/
def write (granted : Bool) (file : LocalFile) (source : List UInt8) (offset : Nat) :
    Option LocalFile :=
  (growBuffer granted file.data (offset + source.length)).map fun data =>
    { data := overwrite data offset source, size := max file.size (offset + source.length) }

end LocalFile

/-- The local file holds in its buffer what the writes have left there. -/
structure LocalLeaves (file : LocalFile) (history : FileHistory UInt8) : Prop where
  size_le : file.size ≤ file.data.length
  left : history.Left 0 file.size fun p => file.data[p]?

section

variable {file file' : LocalFile} {history : FileHistory UInt8}

/-- The grown buffer is large enough, and its new bytes are 0. -/
theorem growBuffer_spec {granted : Bool} {buffer data : List UInt8} {requiredSize : Nat}
    (h : growBuffer granted buffer requiredSize = some data) :
    requiredSize ≤ data.length ∧ ∃ n, data = buffer ++ List.replicate n 0 := by
  unfold growBuffer at h
  split at h
  next hle =>
    obtain rfl := Option.some.inj h
    exact ⟨hle, 0, by simp⟩
  next =>
    split at h
    next =>
      obtain rfl := Option.some.inj h
      refine ⟨?_, _, rfl⟩
      rw [List.length_append, List.length_replicate]
      omega
    next => cases h

theorem LocalLeaves.grow (hl : LocalLeaves file history) (n : Nat) :
    LocalLeaves { file with data := file.data ++ List.replicate n 0 } history := by
  refine ⟨?_, hl.left.grow (fun p b hb => ?_) fun p b hb => ?_⟩
  · have hle := hl.size_le
    show file.size ≤ (file.data ++ List.replicate n 0).length
    rw [List.length_append]
    omega
  · rw [List.getElem?_append_left (List.getElem?_eq_some_iff.mp hb).1]
    exact hb
  · by_cases hp : p < file.data.length
    · rw [List.getElem?_append_left hp] at hb
      exact .inl hb
    · refine .inr ⟨List.getElem?_eq_none (by omega), ?_⟩
      rw [List.getElem?_append_right (by omega)] at hb
      exact List.eq_of_mem_replicate (List.mem_of_getElem? hb)

theorem LocalFile.write_left {granted : Bool} (hl : LocalLeaves file history)
    {bytes : List UInt8} {offset : Nat} (h : file.write granted bytes offset = some file') :
    LocalLeaves file' (history.write offset bytes) := by
  obtain ⟨data, hgrow, rfl⟩ := Option.map_eq_some_iff.mp h
  obtain ⟨hle, n, rfl⟩ := growBuffer_spec hgrow
  have hgrown := hl.grow n
  refine ⟨?_, hgrown.left.write rfl fun p => getElem?_overwrite hle p⟩
  have hsize : file.size ≤ (file.data ++ List.replicate n 0).length := hgrown.size_le
  show max file.size (offset + bytes.length) ≤ (overwrite _ offset bytes).length
  rw [length_overwrite hle]
  omega

theorem LocalFile.truncate_left {granted : Bool} (hl : LocalLeaves file history) {size : Nat}
    (h : file.truncate granted size = some file') :
    LocalLeaves file' (history.truncate size) := by
  obtain ⟨data, hgrow, rfl⟩ := Option.map_eq_some_iff.mp h
  obtain ⟨hle, n, rfl⟩ := growBuffer_spec hgrow
  exact ⟨hle, (hl.grow n).left.truncate size fun _ => rfl⟩

end

inductive LocalCall where
  | write (granted : Bool) (bytes : List UInt8) (offset : Nat)
  | truncate (granted : Bool) (size : Nat)
  | read (byteLength offset : Nat)

/-- The local file and its history after a call; a call that throws changes nothing. -/
def LocalFile.call (x : LocalFile × FileHistory UInt8) : LocalCall → LocalFile × FileHistory UInt8
  | .write granted bytes offset =>
      match x.1.write granted bytes offset with
      | some file => (file, x.2.write offset bytes)
      | none => x
  | .truncate granted size =>
      match x.1.truncate granted size with
      | some file => (file, x.2.truncate size)
      | none => x
  | .read _ _ => x

theorem LocalLeaves.call {x : LocalFile × FileHistory UInt8} (h : LocalLeaves x.1 x.2)
    (call : LocalCall) : LocalLeaves (LocalFile.call x call).1 (LocalFile.call x call).2 := by
  cases call with
  | write granted bytes offset =>
      simp only [LocalFile.call]
      split
      next file' hwrite => exact LocalFile.write_left h hwrite
      next => exact h
  | truncate granted size =>
      simp only [LocalFile.call]
      split
      next file' htruncate => exact LocalFile.truncate_left h htruncate
      next => exact h
  | read byteLength offset => exact h

theorem LocalLeaves.calls {x : LocalFile × FileHistory UInt8} (h : LocalLeaves x.1 x.2)
    (calls : List LocalCall) :
    LocalLeaves (calls.foldl LocalFile.call x).1 (calls.foldl LocalFile.call x).2 := by
  induction calls generalizing x with
  | nil => exact h
  | cons call calls ih => exact ih (h.call call)

/-- `{ data: new ArrayBuffer(0), size: 0 }` -/
def newLocalFile : LocalFile := ⟨[], 0⟩

theorem newLocalFile_left : LocalLeaves newLocalFile (.empty 0) :=
  ⟨Nat.le_refl 0, FileHistory.Left.empty fun p b hb => by simp [newLocalFile] at hb⟩

/-- A local read returns the bytes below the size that its target takes. -/
theorem LocalFile.read_spec (file : LocalFile) (byteLength offset i : Nat) :
    (file.read byteLength offset)[i]?
      = if i < min byteLength (file.size - offset) then file.data[offset + i]? else none := by
  unfold LocalFile.read
  simp only
  by_cases hi : i < min byteLength (file.size - offset)
  · rw [if_pos hi, List.getElem?_take_of_lt (by omega), List.getElem?_drop]
    congr 1
    omega
  · rw [if_neg hi, List.getElem?_take_eq_none (by omega)]

/-! ## §4. The gaps. -/

/-- Every byte that a read returns from a gap is 0. -/
def GapsReadZero (read : Nat → Nat → List UInt8) (history : FileHistory UInt8) : Prop :=
  ∀ byteLength offset i b, (read byteLength offset)[i]? = some b → history.Gap (offset + i) → b = 0

/-- The last write of every gap, if any, has written a 0. -/
def GapsLeftZero (history : FileHistory UInt8) : Prop :=
  ∀ p, history.Gap p → history.last p = 0

/-- A read that returns the bytes of the buffers shows the gaps as they were left. -/
theorem gapsReadZero_iff {read : Nat → Nat → List UInt8} {history : FileHistory UInt8}
    {size : Nat} {byteAt : Nat → Option UInt8} (hl : history.Left 0 size byteAt)
    (hall : ∀ p, p < size → ∃ b, byteAt p = some b)
    (hread : ∀ byteLength offset i, (read byteLength offset)[i]?
      = if i < min byteLength (size - offset) then byteAt (offset + i) else none) :
    GapsReadZero read history ↔ GapsLeftZero history := by
  rw [GapsLeftZero, ← hl.gaps_iff hall]
  constructor
  · intro hzero p hp
    obtain ⟨b, hb⟩ := hall p (hl.shows.size_eq ▸ hp.1)
    have hone : (read 1 p)[0]? = some b := by
      have hlt : p < size := hl.shows.size_eq ▸ hp.1
      rw [hread, if_pos (by omega)]
      exact hb
    rw [hb, hzero 1 p 0 b hone hp]
  · intro hzero byteLength offset i b hb hp
    rw [hread] at hb
    split at hb
    next => exact Option.some.inj (hb.symm.trans (hzero _ hp))
    next => cases hb

/-- **The gaps of a file read as 0 exactly when the last write of each of their
positions, if any, was a 0**: after any calls on a new shared file, and after any
calls on a new local file. -/
theorem gaps_show_zero_iff {growable : Nat → Bool} {pathname : String} {caps : Capacities}
    {allowFixedCapacityFallback : Bool} {file : SharedFile}
    (hcreate : createSharedFile growable pathname caps.initialCapacityBytes
      caps.maxCapacityBytes allowFixedCapacityFallback = some file)
    (calls : List HandleCall) (localCalls : List LocalCall) :
    (GapsReadZero
        (readMemoryWriteAheadFile (calls.foldl SharedFile.handleCall (file, .empty 0)).1)
        (calls.foldl SharedFile.handleCall (file, .empty 0)).2
      ↔ GapsLeftZero (calls.foldl SharedFile.handleCall (file, .empty 0)).2)
    ∧ (GapsReadZero (localCalls.foldl LocalFile.call (newLocalFile, .empty 0)).1.read
        (localCalls.foldl LocalFile.call (newLocalFile, .empty 0)).2
      ↔ GapsLeftZero (localCalls.foldl LocalFile.call (newLocalFile, .empty 0)).2) := by
  constructor
  · have hleaves : Leaves (calls.foldl SharedFile.handleCall (file, .empty 0)).1
        (calls.foldl SharedFile.handleCall (file, .empty 0)).2 :=
      Leaves.calls (x := (file, .empty 0)) (createSharedFile_left hcreate) calls
    refine gapsReadZero_iff hleaves.left
      (fun p hp => (hleaves.wf.size_located hp).byteAt_isSome) fun byteLength offset i => ?_
    obtain ⟨hlength, hbytes⟩ := read_correct hleaves.wf byteLength offset
    split
    next hi => exact hbytes i hi
    next hi => exact List.getElem?_eq_none (by omega)
  · have hleaves : LocalLeaves (localCalls.foldl LocalFile.call (newLocalFile, .empty 0)).1
        (localCalls.foldl LocalFile.call (newLocalFile, .empty 0)).2 :=
      LocalLeaves.calls (x := (newLocalFile, .empty 0)) newLocalFile_left localCalls
    refine gapsReadZero_iff hleaves.left (fun p hp => ?_) (LocalFile.read_spec _)
    have hle := hleaves.size_le
    exact ⟨_, List.getElem?_eq_getElem (by omega)⟩

/-- The platform grants every growth. -/
def always : Nat → Bool := fun _ => true

/-- A 7 is overwritten by a 0 before it leaves the file, so its position comes back
as 0. -/
theorem gaps_show_zero_five :
    ∃ file, createSharedFile always "/db-wa0" fiveBytes.initialCapacityBytes
        fiveBytes.maxCapacityBytes false = some file
      ∧ GapsReadZero
          (readMemoryWriteAheadFile ([HandleCall.write always [7] 0, .write always [0] 0,
            .truncate always 0, .truncate always 1].foldl SharedFile.handleCall (file, .empty 0)).1)
          ([HandleCall.write always [7] 0, .write always [0] 0, .truncate always 0,
            .truncate always 1].foldl SharedFile.handleCall (file, .empty 0)).2 := by
  obtain ⟨file, hcreate⟩ : ∃ file, createSharedFile always "/db-wa0"
      fiveBytes.initialCapacityBytes fiveBytes.maxCapacityBytes false = some file := ⟨_, rfl⟩
  refine ⟨file, hcreate, (gaps_show_zero_iff hcreate _ []).1.mpr fun p hp => ?_⟩
  obtain rfl := Option.some.inj hcreate
  have hzero : p = 0 := by
    have hlt : p < 1 := hp.1
    omega
  subst hzero
  decide

/-- **A 7 that was truncated away comes back.**  A byte 7 is written at 0 and leaves
the file, by a truncate to 0 or by a delete; a truncate to 1, or a write at 1, takes
position 0 into the file again, and a read shows the 7.  So it is with a local file. -/
theorem old_bytes_show_through_gap :
    (∃ file, createSharedFile always "/db-wa0" fiveBytes.initialCapacityBytes
        fiveBytes.maxCapacityBytes false = some file
      ∧ ∀ calls ∈ [[HandleCall.write always [7] 0, .truncate always 0, .truncate always 1],
            [.write always [7] 0, .delete, .truncate always 1],
            [.write always [7] 0, .truncate always 0, .write always [8] 1]],
          ¬GapsReadZero
            (readMemoryWriteAheadFile (calls.foldl SharedFile.handleCall (file, .empty 0)).1)
            (calls.foldl SharedFile.handleCall (file, .empty 0)).2)
    ∧ ¬GapsReadZero
        ([LocalCall.write true [7] 0, .truncate true 0, .truncate true 1].foldl
          LocalFile.call (newLocalFile, .empty 0)).1.read
        ([LocalCall.write true [7] 0, .truncate true 0, .truncate true 1].foldl
          LocalFile.call (newLocalFile, .empty 0)).2 := by
  obtain ⟨file, hcreate⟩ : ∃ file, createSharedFile always "/db-wa0"
      fiveBytes.initialCapacityBytes fiveBytes.maxCapacityBytes false = some file := ⟨_, rfl⟩
  -- position 0 is a gap, and a read of one byte there is not 0
  have hshown {read : Nat → Nat → List UInt8} {history : FileHistory UInt8}
      (hread : (read 1 0)[0]? = some 7) (hgap : history.Gap 0) : ¬GapsReadZero read history :=
    fun hzero => absurd (hzero 1 0 0 7 hread hgap) (by decide)
  refine ⟨⟨file, hcreate, fun calls hcalls => ?_⟩, hshown (by decide) ⟨by decide, by decide⟩⟩
  obtain rfl := Option.some.inj hcreate
  simp only [List.mem_cons, List.not_mem_nil, or_false] at hcalls
  rcases hcalls with rfl | rfl | rfl
  · exact hshown (by decide) ⟨by decide, by decide⟩
  · exact hshown (by decide) ⟨by decide, by decide⟩
  · exact hshown (by decide) ⟨by decide, by decide⟩

end MemoryWriteAhead.Storage
