/-
  MemoryWriteAhead.Storage.Handle
  ───────────────────────────────
  **A CALL OF A `SABMemoryAccessHandle` THAT THROWS.**

  `MemoryWriteAheadVFS.ts`: `#withFileLock`, `write` and `truncate` of the class
  `SABMemoryAccessHandle`.  Between the acquisition and the release the operation
  runs on the file; the heartbeat is refreshed as often as `onProgress` is called,
  and other contexts may work on the lock words too.  The wait statistics are left
  out.

    • `acquired_eq`, `refreshed_eq`, `released_eq` — the three helpers are solo runs
      of the file lock's steps,
    • `write_threw`, `truncate_threw` — what throws has only grown segments,
    • `Twins` — two files with one history: the same calls return the same from
      both, with growth granted,
    • `failed_call_changes_nothing` — a throw leaves a twin of the file behind.
-/
import MemoryWriteAhead.Storage.Gaps
import MemoryWriteAhead.FileLock.Model

namespace MemoryWriteAhead.Storage

open FileLock (Words Params Pc runStep)

/-! ## §1. The handle. -/

/-- A file with the words of its lock. -/
structure LockedFile where
  file : SharedFile
  lock : FileLock.Words

/-- What an acquisition of the free lock leaves in the words. -/
def acquired (ownerId nowMs : Int) (w : FileLock.Words) : FileLock.Words :=
  { w with lock := ownerId, lockOwner := ownerId, lockHeartbeatMs := nowMs }

/-- `refreshMemoryWriteAheadFileLockHeartbeat` -/
def refreshed (ownerId nowMs : Int) (w : FileLock.Words) : FileLock.Words :=
  if w.lock = ownerId ∧ w.lockOwner = ownerId then { w with lockHeartbeatMs := nowMs } else w

/-- `releaseMemoryWriteAheadFileLock` -/
def released (ownerId : Int) (w : FileLock.Words) : FileLock.Words :=
  { w with lock := if w.lock = ownerId then 0 else w.lock }

/-- The answers of the environment to one call. -/
structure HandleEnv where
  /-- which growths the platform grants -/
  granted : Nat → Bool
  /-- the clock at the acquisition, and at every `onProgress` -/
  acquireMs : Int
  refreshMs : List Int
  /-- what the other contexts do to the words while the operation runs -/
  others : FileLock.Words → FileLock.Words

/-- `#withFileLock`, once the lock is free. -/
def withFileLock {β : Type} (ownerId : Int) (env : HandleEnv)
    (operation : SharedFile → SharedFile × Result β) (s : LockedFile) : LockedFile × Result β :=
  let w := env.refreshMs.foldl (fun w nowMs => refreshed ownerId nowMs w)
    (acquired ownerId env.acquireMs s.lock)
  let (file, result) := operation s.file
  -- the `finally`
  (⟨file, released ownerId (env.others w)⟩, result)

/-- A mutating call of a handle. -/
inductive Request where
  | write (bytes : List UInt8) (offset : Nat)
  | truncate (size : Nat)
  deriving DecidableEq, Repr

/-- What a call returns: `write` the number of bytes, `truncate` and a read what the
functions of the shared file return. -/
inductive Answer where
  | wrote (result : Result Nat)
  | truncated (result : Result Unit)
  | bytesRead (bytes : List UInt8)
  deriving DecidableEq, Repr

def Request.run (ownerId : Int) (env : HandleEnv) (s : LockedFile) :
    Request → LockedFile × Answer
  | .write bytes offset =>
      let (s, result) := withFileLock ownerId env
        (fun file => writeMemoryWriteAheadFile env.granted file bytes offset) s
      (s, .wrote result)
  | .truncate size =>
      let (s, result) := withFileLock ownerId env
        (fun file => truncateMemoryWriteAheadFile env.granted file size) s
      (s, .truncated result)

/-- The call has thrown. -/
def Answer.Threw : Answer → Prop
  | .wrote result => ∃ e, result = .threw e
  | .truncated result => ∃ e, result = .threw e
  | .bytesRead _ => False

/-- What the calls answer one after the other, with growth granted. -/
def answers (file : SharedFile) : List Call → List Answer
  | [] => []
  | call :: calls =>
      let answer := match call with
        | .write bytes offset =>
            .wrote (writeMemoryWriteAheadFile (fun _ => true) file bytes offset).2
        | .truncate size => .truncated (truncateMemoryWriteAheadFile (fun _ => true) file size).2
        | .read byteLength offset => .bytesRead (readMemoryWriteAheadFile file byteLength offset)
      answer :: answers (file.call call) calls

/-! ## §2. The helpers are runs of the file lock. -/

section

variable (p : FileLock.Params) (s : FileLock.Shared) (l : FileLock.Local)

/-- The machine's state after `n` steps of one context, alone. -/
def alone : Nat → FileLock.Shared × FileLock.Local
  | 0 => (s, l)
  | n + 1 =>
      let x := alone n
      ((runStep p x.1 x.2).1, (runStep p x.1 x.2).2.1)

theorem acquired_eq (hfree : s.words.lock = 0) (hpc : l.pc = .acquireLoadLock) :
    (alone p s l 5).1.words = acquired p.ownerId s.clockMs s.words
      ∧ (alone p s l 5).2.holding = true := by
  obtain ⟨words, clockMs⟩ := s
  obtain ⟨pc, holding, beatMs, prompt⟩ := l
  obtain rfl : pc = .acquireLoadLock := hpc
  have hlock : words.lock = 0 := hfree
  simp only [alone, runStep, FileLock.Local.goto, hlock, if_true, acquired, and_self]

theorem refreshed_eq (hpc : l.pc = .refreshLoadLock) :
    ∃ n, (alone p s l n).1.words = refreshed p.ownerId s.clockMs s.words
      ∧ (alone p s l n).2.pc = .idle := by
  obtain ⟨words, clockMs⟩ := s
  obtain ⟨pc, holding, beatMs, prompt⟩ := l
  obtain rfl : pc = .refreshLoadLock := hpc
  unfold refreshed
  by_cases hlock : words.lock = p.ownerId
  · by_cases howner : words.lockOwner = p.ownerId
    · refine ⟨4, ?_⟩
      simp only [alone, runStep, FileLock.Local.goto, FileLock.Local.endRefresh, hlock, howner,
        if_true, and_self]
    · refine ⟨2, ?_⟩
      simp only [alone, runStep, FileLock.Local.goto, FileLock.Local.endRefresh, hlock, howner,
        if_true, if_false, and_false, and_self]
  · refine ⟨1, ?_⟩
    simp only [alone, runStep, FileLock.Local.endRefresh, hlock, if_false, false_and, and_self]

theorem released_eq (hpc : l.pc = .releaseLock) :
    (alone p s l 1).1.words = released p.ownerId s.words ∧ (alone p s l 1).2.pc = .idle := by
  obtain ⟨words, clockMs⟩ := s
  obtain ⟨pc, holding, beatMs, prompt⟩ := l
  obtain rfl : pc = .releaseLock := hpc
  exact ⟨rfl, rfl⟩

end

/-- While nobody else works on the words, the lock stays with its holder. -/
theorem lock_refreshed (ownerId : Int) (refreshMs : List Int) {w : FileLock.Words}
    (h : w.lock = ownerId) :
    (refreshMs.foldl (fun w nowMs => refreshed ownerId nowMs w) w).lock = ownerId := by
  induction refreshMs generalizing w with
  | nil => exact h
  | cons nowMs refreshMs ih =>
      refine ih ?_
      show (refreshed ownerId nowMs w).lock = ownerId
      unfold refreshed
      split
      next => exact h
      next => exact h

theorem released_ne {ownerId : Int} (hne : ownerId ≠ 0) (w : FileLock.Words) :
    (released ownerId w).lock ≠ ownerId := by
  unfold released
  by_cases h : w.lock = ownerId
  · simp only [if_pos h]
    exact hne.symm
  · simp only [if_neg h]
    exact h

/-! ## §3. What throws has only grown segments. -/

section

variable {granted : Nat → Bool} {file file' : SharedFile}

/-- A write does nothing but `ensureFileCapacity` that depends on the growth. -/
theorem write_granted {bytes : List UInt8} {offset : Nat} {ensured : SharedFile}
    (h : ensureFileCapacity granted file (offset + bytes.length) = (ensured, .ok ())) :
    writeMemoryWriteAheadFile granted file bytes offset
      = writeMemoryWriteAheadFile (fun _ => true) file bytes offset := by
  unfold writeMemoryWriteAheadFile
  simp only [h, ensureFileCapacity_granted h]

theorem truncate_granted {size : Nat} {ensured : SharedFile}
    (h : ensureFileCapacity granted file size = (ensured, .ok ())) :
    truncateMemoryWriteAheadFile granted file size
      = truncateMemoryWriteAheadFile (fun _ => true) file size := by
  unfold truncateMemoryWriteAheadFile
  simp only [h, ensureFileCapacity_granted h]

theorem growSegments_pathname (granted : Nat → Bool) (required count index : Nat)
    (file : SharedFile) :
    (growSegments granted required index count file).1.pathname = file.pathname := by
  induction count generalizing index file with
  | zero => rfl
  | succ count ih =>
      unfold growSegments
      split
      next => rfl
      next =>
        split
        next => rfl
        next => exact ih (index + 1) _

theorem setActiveSegmentCount_pathname (file : SharedFile) (n : Nat) :
    (setActiveSegmentCount file n).pathname = file.pathname := by
  unfold setActiveSegmentCount
  simp only
  split
  · rfl
  · rfl

/-- Whether it throws or not, `ensureFileCapacity` keeps the name. -/
theorem ensureFileCapacity_pathname (granted : Nat → Bool) (file : SharedFile) (required : Nat) :
    (ensureFileCapacity granted file required).1.pathname = file.pathname := by
  unfold ensureFileCapacity
  split
  next => rfl
  next =>
    simp only
    split
    next => rfl
    next =>
      generalize (if required = 0 then minSegmentCount
        else segmentCountFor required file.segmentCapacityBytes) = desired
      have hgrown := growSegments_pathname granted required
        (desired - (getActiveSegmentCount file - 1)) (getActiveSegmentCount file - 1) file
      split
      next hgrow => rw [hgrow] at hgrown; exact hgrown
      next hgrow =>
        rw [hgrow] at hgrown
        split
        next => exact (setActiveSegmentCount_pathname _ _).trans hgrown
        next =>
          split
          next => exact hgrown
          next => exact hgrown

/-- What is ensured is within the maximum. -/
theorem Ensured.required_le {required : Nat} (h : Ensured required file file') :
    required ≤ file.maxCapacityBytes := by
  have henough := h.enough
  have hcapacity := h.wf.activeCapacity_le
  have hmax := h.max
  omega

theorem write_threw (hw : Wf file) {bytes : List UInt8} {offset : Nat} {e : StorageError}
    (h : writeMemoryWriteAheadFile granted file bytes offset = (file', .threw e)) :
    Grew file file' ∧ file'.pathname = file.pathname := by
  have hname := ensureFileCapacity_pathname granted file (offset + bytes.length)
  rcases ensureFileCapacity_cases granted hw (offset + bytes.length) with
    ⟨e', grown, hensure, hgrew⟩ | ⟨ensured, grown, hensure, he, -, -⟩
  · unfold writeMemoryWriteAheadFile at h
    simp only [hensure] at h hname
    obtain rfl := (Prod.mk.inj h).1
    exact ⟨hgrew, hname⟩
  · -- what is ensured is written
    obtain ⟨written, hwrite, -⟩ := write_correct hw bytes offset he.required_le
    rw [write_granted hensure, hwrite] at h
    cases (Prod.mk.inj h).2

theorem truncate_threw (hw : Wf file) {size : Nat} {e : StorageError}
    (h : truncateMemoryWriteAheadFile granted file size = (file', .threw e)) :
    Grew file file' ∧ file'.pathname = file.pathname := by
  have hname := ensureFileCapacity_pathname granted file size
  rcases ensureFileCapacity_cases granted hw size with
    ⟨e', grown, hensure, hgrew⟩ | ⟨ensured, grown, hensure, he, -, -⟩
  · unfold truncateMemoryWriteAheadFile at h
    simp only [hensure] at h hname
    obtain rfl := (Prod.mk.inj h).1
    exact ⟨hgrew, hname⟩
  · obtain ⟨truncated, htruncate, -⟩ := truncate_correct hw size he.required_le
    rw [truncate_granted hensure, htruncate] at h
    cases (Prod.mk.inj h).2

end

/-! ## §4. Two files with one history. -/

/-- The files cannot be told apart by what is read, written and truncated. -/
structure Twins (file file' : SharedFile) : Prop where
  pathname : file'.pathname = file.pathname
  max : file'.maxCapacityBytes = file.maxCapacityBytes
  history : ∃ history, Leaves file history ∧ Leaves file' history

section

variable {file file' : SharedFile}

/-- The byte of a position below the size is what was last written there. -/
theorem Leaves.byte {history : FileHistory UInt8} (h : Leaves file history) {p : Nat}
    (hp : p < logicalSize file) : byteAt file p = some (history.last p) := by
  obtain ⟨b, hb⟩ := (h.wf.size_located hp).byteAt_isSome
  rw [hb, h.left.left p b hb]

/-- Files whose histories agree below one size are read alike. -/
theorem Leaves.read_congr {history history' : FileHistory UInt8} (hl : Leaves file history)
    (hl' : Leaves file' history') (hsize : history'.flat.size = history.flat.size)
    (hlast : ∀ p, p < history.flat.size → history'.last p = history.last p)
    (byteLength offset : Nat) :
    readMemoryWriteAheadFile file' byteLength offset
      = readMemoryWriteAheadFile file byteLength offset := by
  have hfile := hl.left.shows.size_eq
  have hfile' := hl'.left.shows.size_eq
  obtain ⟨hlength, hbytes⟩ := read_correct hl.wf byteLength offset
  obtain ⟨hlength', hbytes'⟩ := read_correct hl'.wf byteLength offset
  refine List.ext_getElem? fun i => ?_
  by_cases hi : i < min byteLength (logicalSize file - offset)
  · rw [hbytes i hi, hbytes' i (by omega), hl.byte (by omega), hl'.byte (by omega),
      hlast _ (by omega)]
  · rw [List.getElem?_eq_none (by omega), List.getElem?_eq_none (by omega)]

theorem Twins.read (h : Twins file file') (byteLength offset : Nat) :
    readMemoryWriteAheadFile file' byteLength offset
      = readMemoryWriteAheadFile file byteLength offset := by
  obtain ⟨history, hl, hl'⟩ := h.history
  exact hl.read_congr hl' rfl (fun _ _ => rfl) byteLength offset

theorem write_frame (hw : Wf file) (bytes : List UInt8) (offset : Nat)
    (hfit : offset + bytes.length ≤ file.maxCapacityBytes) :
    (writeMemoryWriteAheadFile (fun _ => true) file bytes offset).1.pathname = file.pathname := by
  obtain ⟨ensured, hensure, he⟩ := ensureFileCapacity_ok hw hfit
  unfold writeMemoryWriteAheadFile
  simp only [hensure]
  by_cases hempty : bytes.length = 0
  · rw [if_pos hempty]
    exact he.pathname
  · rw [if_neg hempty]
    obtain ⟨placed, hwrite, hp⟩ := writeBytes_spec offset he.wf (Nat.pos_of_ne_zero hempty)
      (fun p _ hhi => he.wf.located (by have := he.enough; omega))
    rw [hwrite]
    exact hp.pathname.trans he.pathname

theorem truncate_frame (hw : Wf file) (size : Nat) (hfit : size ≤ file.maxCapacityBytes) :
    (truncateMemoryWriteAheadFile (fun _ => true) file size).1.pathname = file.pathname := by
  obtain ⟨ensured, hensure, he⟩ := ensureFileCapacity_ok hw hfit
  unfold truncateMemoryWriteAheadFile
  simp only [hensure]
  rw [(recordHighWater_same _).pathname, (countTruncateOperation_same _).pathname,
    setActiveSegmentCount_pathname]
  exact he.pathname

/-- **Step lemma**: twins answer a write alike, and stay twins. -/
theorem Twins.write (h : Twins file file') (bytes : List UInt8) (offset : Nat) :
    (writeMemoryWriteAheadFile (fun _ => true) file' bytes offset).2
        = (writeMemoryWriteAheadFile (fun _ => true) file bytes offset).2
      ∧ Twins (writeMemoryWriteAheadFile (fun _ => true) file bytes offset).1
          (writeMemoryWriteAheadFile (fun _ => true) file' bytes offset).1 := by
  obtain ⟨history, hl, hl'⟩ := h.history
  by_cases hfit : offset + bytes.length ≤ file.maxCapacityBytes
  · have hfit' : offset + bytes.length ≤ file'.maxCapacityBytes := by rw [h.max]; exact hfit
    have hname := write_frame hl.wf bytes offset hfit
    have hname' := write_frame hl'.wf bytes offset hfit'
    obtain ⟨g, hwrite, -, hmax, -⟩ := write_correct hl.wf bytes offset hfit
    obtain ⟨g', hwrite', -, hmax', -⟩ := write_correct hl'.wf bytes offset hfit'
    have hleft := Leaves.call (x := (file, history)) hl (.write (fun _ => true) bytes offset)
    have hleft' := Leaves.call (x := (file', history)) hl'
      (.write (fun _ => true) bytes offset)
    rw [hwrite] at hname
    rw [hwrite'] at hname'
    simp only [SharedFile.handleCall, hwrite] at hleft
    simp only [SharedFile.handleCall, hwrite'] at hleft'
    rw [hwrite, hwrite']
    exact ⟨rfl, hname'.trans (h.pathname.trans hname.symm), hmax'.trans (h.max.trans hmax.symm),
      _, hleft, hleft'⟩
  · have hexceeded := ensureFileCapacity_exceeded (fun _ => true) (offset + bytes.length) file
      (by omega)
    have hexceeded' := ensureFileCapacity_exceeded (fun _ => true) (offset + bytes.length) file'
      (by rw [h.max]; omega)
    unfold writeMemoryWriteAheadFile
    simp only [hexceeded, hexceeded', h.pathname, h.max]
    exact ⟨trivial, h⟩

theorem Twins.truncate (h : Twins file file') (size : Nat) :
    (truncateMemoryWriteAheadFile (fun _ => true) file' size).2
        = (truncateMemoryWriteAheadFile (fun _ => true) file size).2
      ∧ Twins (truncateMemoryWriteAheadFile (fun _ => true) file size).1
          (truncateMemoryWriteAheadFile (fun _ => true) file' size).1 := by
  obtain ⟨history, hl, hl'⟩ := h.history
  by_cases hfit : size ≤ file.maxCapacityBytes
  · have hfit' : size ≤ file'.maxCapacityBytes := by rw [h.max]; exact hfit
    have hname := truncate_frame hl.wf size hfit
    have hname' := truncate_frame hl'.wf size hfit'
    obtain ⟨g, htruncate, -, hmax, -⟩ := truncate_correct hl.wf size hfit
    obtain ⟨g', htruncate', -, hmax', -⟩ := truncate_correct hl'.wf size hfit'
    have hleft := Leaves.call (x := (file, history)) hl (.truncate (fun _ => true) size)
    have hleft' := Leaves.call (x := (file', history)) hl'
      (.truncate (fun _ => true) size)
    rw [htruncate] at hname
    rw [htruncate'] at hname'
    simp only [SharedFile.handleCall, htruncate] at hleft
    simp only [SharedFile.handleCall, htruncate'] at hleft'
    rw [htruncate, htruncate']
    exact ⟨rfl, hname'.trans (h.pathname.trans hname.symm), hmax'.trans (h.max.trans hmax.symm),
      _, hleft, hleft'⟩
  · have hexceeded := ensureFileCapacity_exceeded (fun _ => true) size file (by omega)
    have hexceeded' := ensureFileCapacity_exceeded (fun _ => true) size file'
      (by rw [h.max]; omega)
    unfold truncateMemoryWriteAheadFile
    simp only [hexceeded, hexceeded', h.pathname, h.max]
    exact ⟨trivial, h⟩

/-- **Run lemma**: twins answer every sequence of calls alike. -/
theorem Twins.answers (h : Twins file file') (calls : List Call) :
    Storage.answers file' calls = Storage.answers file calls := by
  induction calls generalizing file file' with
  | nil => rfl
  | cons call calls ih =>
      cases call with
      | write bytes offset =>
          obtain ⟨hanswer, hnext⟩ := h.write bytes offset
          unfold Storage.answers
          simp only [hanswer]
          exact congrArg _ (ih hnext)
      | truncate size =>
          obtain ⟨hanswer, hnext⟩ := h.truncate size
          unfold Storage.answers
          simp only [hanswer]
          exact congrArg _ (ih hnext)
      | read byteLength offset =>
          unfold Storage.answers
          simp only [h.read byteLength offset]
          exact congrArg _ (ih h)

theorem Grew.twins (h : Grew file file') {history : FileHistory UInt8}
    (hpathname : file'.pathname = file.pathname) (hl : Leaves file history) : Twins file file' :=
  ⟨hpathname, h.max, history, hl, h.leaves hl⟩

end

/-! ## §5. A call that throws. -/

/-- What a call that throws leaves as it was. -/
structure Unchanged (ownerId : Int) (env : HandleEnv) (s s' : LockedFile) : Prop where
  size : getFileSizeBytes s'.file = getFileSizeBytes s.file
  active : getActiveSegmentCount s'.file = getActiveSegmentCount s.file
  /-- every counter too -/
  words : s'.file.words = s.file.words
  reads : ∀ byteLength offset, readMemoryWriteAheadFile s'.file byteLength offset
    = readMemoryWriteAheadFile s.file byteLength offset
  /-- the handle does not have the lock, whatever the others have done meanwhile -/
  released : s'.lock.lock ≠ ownerId
  /-- and it is free if they have left it alone -/
  free : (∀ w, (env.others w).lock = w.lock) → s'.lock.lock = 0
  later : ∀ calls, answers s'.file calls = answers s.file calls

/-- What the request has thrown comes from the operation, with the lock held. -/
theorem Request.run_threw {ownerId : Int} {env : HandleEnv} {s s' : LockedFile}
    {request : Request} {answer : Answer} (hw : Wf s.file)
    (h : request.run ownerId env s = (s', answer)) (hthrew : answer.Threw) :
    (Grew s.file s'.file ∧ s'.file.pathname = s.file.pathname)
      ∧ s'.lock = Storage.released ownerId (env.others
          (env.refreshMs.foldl (fun w nowMs => refreshed ownerId nowMs w)
            (acquired ownerId env.acquireMs s.lock))) := by
  cases request with
  | write bytes offset =>
      obtain ⟨rfl, rfl⟩ := Prod.mk.inj h
      obtain ⟨e, hresult⟩ := hthrew
      exact ⟨write_threw hw (Prod.ext rfl hresult), rfl⟩
  | truncate size =>
      obtain ⟨rfl, rfl⟩ := Prod.mk.inj h
      obtain ⟨e, hresult⟩ := hthrew
      exact ⟨truncate_threw hw (Prod.ext rfl hresult), rfl⟩

/-- **A failed write or truncate changes nothing.**  On every file that
`createSharedFile` and any calls have made, whatever growth the platform refuses: a
call of the handle that throws leaves the size, the active segments, the counters and
every byte that can be read, gives the lock back, and is not noticed by any later
calls. -/
theorem failed_call_changes_nothing {growable : Nat → Bool} {pathname : String}
    {caps : Capacities} {allowFixedCapacityFallback : Bool} {file : SharedFile}
    (hcreate : createSharedFile growable pathname caps.initialCapacityBytes
      caps.maxCapacityBytes allowFixedCapacityFallback = some file) (calls : List HandleCall)
    {ownerId : Int} (howner : ownerId ≠ 0) (env : HandleEnv) {s s' : LockedFile}
    (hs : s.file = (calls.foldl SharedFile.handleCall (file, .empty 0)).1) {request : Request}
    {answer : Answer} (h : request.run ownerId env s = (s', answer)) (hthrew : answer.Threw) :
    Unchanged ownerId env s s' := by
  have hleaves : Leaves s.file (calls.foldl SharedFile.handleCall (file, .empty 0)).2 := by
    rw [hs]
    exact Leaves.calls (x := (file, .empty 0)) (createSharedFile_left hcreate) calls
  obtain ⟨⟨hgrew, hname⟩, hlock⟩ := Request.run_threw hleaves.wf h hthrew
  have htwins := hgrew.twins hname hleaves
  refine ⟨?_, ?_, hgrew.words, htwins.read, ?_, fun halone => ?_, htwins.answers⟩
  · unfold getFileSizeBytes
    rw [hgrew.words]
  · unfold getActiveSegmentCount
    rw [hgrew.words]
  · rw [hlock]
    exact released_ne howner _
  · have hheld := lock_refreshed ownerId env.refreshMs
      (w := acquired ownerId env.acquireMs s.lock) rfl
    rw [hlock]
    unfold Storage.released
    rw [halone, hheld]
    exact if_pos rfl

/-- Segments of 2 bytes, at most 5: a write of 5 bytes at 0 whose third segment may not
grow throws with the second segment grown. -/
theorem failed_call_changes_nothing_five :
    ∃ file s', createSharedFile (fun _ => true) "/db-wa0" fiveBytes.initialCapacityBytes
        fiveBytes.maxCapacityBytes false = some file
      ∧ (Request.write [1, 2, 3, 4, 5] 0).run 9 ⟨(· ≠ 2), 1, [1], id⟩ ⟨file, ⟨0, 0, 0, 0⟩⟩
        = (s', .wrote (.threw .growRefused))
      ∧ s'.file ≠ file
      ∧ Unchanged 9 ⟨(· ≠ 2), 1, [1], id⟩ ⟨file, ⟨0, 0, 0, 0⟩⟩ s' := by
  obtain ⟨file, hcreate⟩ : ∃ file, createSharedFile (fun _ => true) "/db-wa0"
      fiveBytes.initialCapacityBytes fiveBytes.maxCapacityBytes false = some file := ⟨_, rfl⟩
  obtain ⟨s', hrun, hgrown⟩ : ∃ s', (Request.write [1, 2, 3, 4, 5] 0).run 9
      ⟨(· ≠ 2), 1, [1], id⟩ ⟨file, ⟨0, 0, 0, 0⟩⟩ = (s', .wrote (.threw .growRefused))
      ∧ s'.file ≠ file := by
    obtain rfl := Option.some.inj hcreate
    exact ⟨_, rfl, by decide⟩
  exact ⟨file, s', hcreate, hrun, hgrown,
    failed_call_changes_nothing hcreate [] (by decide) _ rfl hrun ⟨_, rfl⟩⟩

end MemoryWriteAhead.Storage
