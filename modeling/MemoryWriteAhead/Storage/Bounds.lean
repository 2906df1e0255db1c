/-
  MemoryWriteAhead.Storage.Bounds
  ───────────────────────────────
  **THE CAPACITY IS THE ONLY BOUND OF A SHARED FILE.**

  With growth granted, or with fixed segments that have their full length, a
  write and a truncate fail for one reason only.  The rest follows from the
  representation invariant of the layout.

    • `Wf.fileCapacity` — the sum over the active segments is the capacity that
      the last of them ends at,
    • `capacity_exceeded_only_error` — every call on every file of an accepted
      runtime.
-/
import Mathlib
import MemoryWriteAhead.Storage.Refinement
import MemoryWriteAhead.Storage.Options

namespace MemoryWriteAhead.Storage

/-! ## §1. The two capacities. -/

/-- The length that `reduce` adds up over the first `n` segments. -/
def lengthOf (segments : List Segment) (n : Nat) : Nat :=
  (segments.take n).foldl (fun total segment => total + segment.data.length) 0

theorem lengthOf_succ {segments : List Segment} {n : Nat} {s : Segment}
    (hs : segments[n]? = some s) : lengthOf segments (n + 1) = lengthOf segments n + s.data.length := by
  unfold lengthOf
  rw [List.take_add_one, hs, List.foldl_append]
  rfl

/-- Full segments add up to a multiple of the segment capacity. -/
theorem Wf.lengthOf_full {file : SharedFile} (h : Wf file) {n : Nat}
    (hn : n < getActiveSegmentCount file) :
    lengthOf file.segments n = n * file.segmentCapacityBytes := by
  induction n with
  | zero =>
      rw [Nat.zero_mul]
      rfl
  | succ n ih =>
      have hactive := h.active_le
      have hget := List.getElem?_eq_getElem (l := file.segments) (i := n) (by omega)
      have hfull := h.below_full n _ hget (by omega)
      rw [lengthOf_succ hget, ih (by omega), hfull, Nat.succ_mul]

/-- **The two capacity computations agree.** -/
theorem Wf.fileCapacity {file : SharedFile} (h : Wf file) :
    getFileCapacityBytes file = getActiveFileCapacityBytes file (getActiveSegmentCount file) := by
  have hpos := getActiveSegmentCount_pos file
  obtain ⟨s, hs, hcapacity⟩ := h.activeSegment
  show lengthOf file.segments (getActiveSegmentCount file) = _
  rw [hcapacity, ← h.lengthOf_full (n := getActiveSegmentCount file - 1) (by omega),
    ← lengthOf_succ hs, show getActiveSegmentCount file - 1 + 1 = getActiveSegmentCount file by omega]

/-! ## §2. The bounds and the one error. -/

/-- The bounds that hold between two calls. -/
structure Bounded (file : SharedFile) : Prop where
  size_nonneg : 0 ≤ getFileSizeBytes file
  size_le : getFileSizeBytes file ≤ getFileCapacityBytes file
  capacity_le : getFileCapacityBytes file ≤ file.maxCapacityBytes
  max_le : file.maxCapacityBytes ≤ 2 ^ 31 - 1
  active_pos : 1 ≤ getActiveSegmentCount file
  active_le : getActiveSegmentCount file ≤ file.segments.length
  capacities_agree :
    getFileCapacityBytes file = getActiveFileCapacityBytes file (getActiveSegmentCount file)

theorem Wf.bounded {file : SharedFile} (h : Wf file) : Bounded file where
  size_nonneg := h.size_nonneg
  size_le := by
    rw [h.fileCapacity]
    exact h.size_le
  capacity_le := by
    rw [h.fileCapacity]
    exact h.activeCapacity_le
  max_le := h.max_le
  active_pos := getActiveSegmentCount_pos file
  active_le := h.active_le
  capacities_agree := h.fileCapacity

/-- How the next write or truncate up to `requestedEnd` ends: it throws exactly beyond
the capacity, with the error that says so, and it ends. -/
structure EndsWell {β : Type} (pathname : String) (maxCapacityBytes requestedEnd : Nat)
    (result : Result β) : Prop where
  throws_iff : (∃ e, result = .threw e) ↔ maxCapacityBytes < requestedEnd
  error : ∀ e, result = .threw e →
    e = .capacityExceeded pathname requestedEnd maxCapacityBytes
  ends : result ≠ .loops

theorem EndsWell.returned {β : Type} {pathname : String} {maxCapacityBytes requestedEnd : Nat}
    (value : β) (hfit : requestedEnd ≤ maxCapacityBytes) :
    EndsWell pathname maxCapacityBytes requestedEnd (.returned value) where
  throws_iff := by
    constructor
    · rintro ⟨e, he⟩
      cases he
    · intro hexceeds
      omega
  error e he := by cases he
  ends h := by cases h

theorem EndsWell.threw {β : Type} {pathname : String} {maxCapacityBytes requestedEnd : Nat}
    (hexceeds : maxCapacityBytes < requestedEnd) :
    EndsWell pathname maxCapacityBytes requestedEnd
      (.threw (.capacityExceeded pathname requestedEnd maxCapacityBytes) : Result β) where
  throws_iff := ⟨fun _ => hexceeds, fun _ => ⟨_, rfl⟩⟩
  error e he := by
    cases he
    rfl
  ends h := by cases h

/-- A file between two calls: its bounds, and how the next call ends. -/
structure OnlyCapacityErrors (maxCapacityBytes : Nat) (file : SharedFile) : Prop where
  max : file.maxCapacityBytes = maxCapacityBytes
  bounded : Bounded file
  write : ∀ bytes offset, EndsWell file.pathname maxCapacityBytes (offset + bytes.length)
    (writeMemoryWriteAheadFile (fun _ => true) file bytes offset).2
  truncate : ∀ sizeBytes, EndsWell file.pathname maxCapacityBytes sizeBytes
    (truncateMemoryWriteAheadFile (fun _ => true) file sizeBytes).2

theorem Wf.onlyCapacityErrors {file : SharedFile} (h : Wf file) :
    OnlyCapacityErrors file.maxCapacityBytes file where
  max := rfl
  bounded := h.bounded
  write bytes offset := by
    by_cases hfit : offset + bytes.length ≤ file.maxCapacityBytes
    · obtain ⟨file', hwrite, -⟩ := write_correct h bytes offset hfit
      rw [hwrite]
      exact .returned _ hfit
    · have hexceeds : file.maxCapacityBytes < offset + bytes.length := by omega
      unfold writeMemoryWriteAheadFile
      simp only [ensureFileCapacity_exceeded (fun _ => true) _ file hexceeds]
      exact .threw hexceeds
  truncate sizeBytes := by
    by_cases hfit : sizeBytes ≤ file.maxCapacityBytes
    · obtain ⟨file', htruncate, -⟩ := truncate_correct h sizeBytes hfit
      rw [htruncate]
      exact .returned _ hfit
    · have hexceeds : file.maxCapacityBytes < sizeBytes := by omega
      unfold truncateMemoryWriteAheadFile
      simp only [ensureFileCapacity_exceeded (fun _ => true) _ file hexceeds]
      exact .threw hexceeds

/-- **The capacity is the only bound.**  After any calls on a file that
`createSharedFile` has made with accepted capacities, growable with growth granted or
fixed, a call throws exactly when its end is beyond the maximum, and the bounds hold. -/
theorem capacity_exceeded_only_error {options : RuntimeOptions}
    {resolved : ResolvedRuntimeOptions}
    (haccepted : resolveMemoryWriteAheadRuntimeOptions options = .ok resolved) (kind : FileKind)
    {growable : Nat → Bool} {pathname : String} {file : SharedFile}
    (hcreate : createSharedFile growable pathname (resolved.initialCapacityBytes kind)
      (resolved.maxCapacityBytes kind) resolved.allowFixedCapacityFallback = some file)
    (calls : List Call) :
    OnlyCapacityErrors (resolved.maxCapacityBytes kind) (calls.foldl SharedFile.call file) := by
  obtain ⟨hw, hsize, hmax⟩ := createSharedFile_wf
    (resolved.capacities (.of_resolve haccepted) kind) hcreate
  have hstart : Represents (resolved.maxCapacityBytes kind) file FlatFile.empty := by
    refine ⟨hw, hmax, ?_⟩
    have hzero : logicalSize file = 0 := by
      unfold logicalSize
      rw [hsize]
      rfl
    rw [hzero]
    exact FlatFile.Shows.empty
  have hrun := hstart.calls calls
  rw [← hrun.max]
  exact hrun.wf.onlyCapacityErrors

/-- Segments of 2 bytes, at most 5 bytes: the last segment is short.  A write of six
bytes throws, one of five does not, and a truncate leaves segments behind. -/
theorem capacity_exceeded_only_error_five :
    ∃ resolved file, resolveMemoryWriteAheadRuntimeOptions
        ⟨none, some (.safeInteger 2), some (.safeInteger 5), none, none, none⟩ = .ok resolved
      ∧ createSharedFile (fun _ => true) "/db" (resolved.initialCapacityBytes .database)
          (resolved.maxCapacityBytes .database) resolved.allowFixedCapacityFallback = some file
      ∧ OnlyCapacityErrors 5 ([Call.write [1, 2, 3, 4, 5, 6] 0, .write [1, 2, 3, 4, 5] 0,
          .truncate 1].foldl SharedFile.call file) := by
  obtain ⟨resolved, haccepted⟩ : ∃ resolved, resolveMemoryWriteAheadRuntimeOptions
      ⟨none, some (.safeInteger 2), some (.safeInteger 5), none, none, none⟩ = .ok resolved :=
    ⟨_, rfl⟩
  have hmax : resolved.maxCapacityBytes .database = 5 := by
    cases haccepted
    rfl
  obtain ⟨file, hcreate⟩ : ∃ file, createSharedFile (fun _ => true) "/db"
      (resolved.initialCapacityBytes .database) (resolved.maxCapacityBytes .database)
      resolved.allowFixedCapacityFallback = some file := by
    cases haccepted
    exact ⟨_, rfl⟩
  refine ⟨resolved, file, haccepted, hcreate, ?_⟩
  rw [← hmax]
  exact capacity_exceeded_only_error haccepted .database hcreate _

end MemoryWriteAhead.Storage
