/-
  MemoryWriteAhead.OpenFiles.FailedOpen
  ─────────────────────────────────────
  **WHAT A FAILED OPEN LEAVES BEHIND.**

  An open of a main database, from its first `jOpen` call to the one that returns
  `SQLITE_CANTOPEN`, with anything else between the calls that leaves the open
  itself alone.

    • `startRetryOpen_cases`, `settleRetryOpen_cases` — where the open can fail, and
      what the `catch` gives back there,
    • `failed_open_leaks_nothing_iff` — for the primary: nothing is left except in
      two places; for an attached database: never anything.
-/
import MemoryWriteAhead.OpenFiles.Opening
import MemoryWriteAhead.OpenFiles.Sharing

namespace MemoryWriteAhead.OpenFiles

open Connection (VfsError)

variable {Name Raw : Type} [DecidableEq Name]

/-! ## §1. The course of an open. -/

/-- Nothing is known of the name, and the file id is not in use. -/
structure NotOpen (name : Name) (fileId : Nat) (x : State Name) : Prop where
  path : x.vfs.mapPathToFile name = none
  id : x.vfs.mapIdToFile fileId = none

/-- What happens meanwhile leaves the open with record `r` alone: its record, its
entries in the maps, and the `held` handles that it has retained. -/
structure Meanwhile (name : Name) (fileId r held : Nat) (x x' : State Name) : Prop where
  file : x'.vfs.files r = x.vfs.files r
  path : x'.vfs.mapPathToFile name = x.vfs.mapPathToFile name
  id : x'.vfs.mapIdToFile fileId = x.vfs.mapIdToFile fileId
  openHandleCount : held ≤ x'.counts.openHandleCount
  leaseHandleCount : held ≤ x'.counts.leaseHandleCount

/-- The rest of `#retryOpen`, if it has not ended before its first `await`. -/
def finishRetryOpen (init : Initialization) (r : Nat) (x : State Name) : State Name :=
  if (x.vfs.files r).retryResult = .null then settleRetryOpen init r x else x

/-- Another open's record and its entries in the maps are as they were. -/
structure OthersKept (name : Name) (fileId r : Nat) (v v' : Vfs Name) : Prop where
  files : ∀ s, s ≠ r → v'.files s = v.files s
  path : ∀ other, other ≠ name → v'.mapPathToFile other = v.mapPathToFile other
  id : ∀ other, other ≠ fileId → v'.mapIdToFile other = v.mapIdToFile other

/-- The states between the steps of an open of the primary. -/
structure Course (Name : Type) where
  /-- before the first `jOpen` call -/
  before : State Name
  /-- behind it -/
  begun : State Name
  /-- before `#retryOpen` goes on, and behind its end -/
  waited : State Name
  ended : State Name
  /-- before the last `jOpen` call, and behind it -/
  again : State Name
  after : State Name

/-- What the open itself does. -/
def Course.ownSteps (C : Course Name) : List (State Name × State Name) :=
  [(C.before, C.begun), (C.waited, C.ended), (C.again, C.after)]

/-- An open of the primary that ends with `SQLITE_CANTOPEN`. -/
structure FailsPrimary (normalize : Raw → Option Name) (dbFilename : Name)
    (writeAheadName : Name → Nat → Name) (R R' : RuntimeView Name) (init : Initialization)
    (raw : Raw) (fileId : Nat) (flags : Flags) (C : Course Name) : Prop where
  mainDb : flags.mainDb = true
  name : normalize raw = some dbFilename
  notOpen : NotOpen dbFilename fileId C.before
  first : (jOpenMain normalize dbFilename writeAheadName R raw dbFilename fileId flags C.before).2
    = C.begun
  meanwhile : Meanwhile dbFilename fileId C.before.vfs.fresh
    (C.begun.counts.openHandleCount - C.before.counts.openHandleCount) C.begun C.waited
  settled : finishRetryOpen init C.before.vfs.fresh C.waited = C.ended
  meanwhile' : Meanwhile dbFilename fileId C.before.vfs.fresh 0 C.ended C.again
  last : jOpenMain normalize dbFilename writeAheadName R' raw dbFilename fileId flags C.again
    = (.cantopen, C.after)

/-- What the steps together add to a count. -/
def net (count : HandleCounts → Nat) (steps : List (State Name × State Name)) : Int :=
  steps.foldl (fun n step => n + ((count step.2.counts : Int) - count step.1.counts)) 0

/-- After its own `steps` nothing is left of an open. -/
structure LeaksNothing (name : Name) (fileId r : Nat) (steps : List (State Name × State Name))
    (after : State Name) : Prop where
  openHandleCount : net HandleCounts.openHandleCount steps = 0
  leaseHandleCount : net HandleCounts.leaseHandleCount steps = 0
  path : after.vfs.mapPathToFile name = none
  id : after.vfs.mapIdToFile fileId = none
  others : ∀ step ∈ steps, OthersKept name fileId r step.1.vfs step.2.vfs
  /-- the next open of the name gets a new record -/
  afresh : ∀ flags, (after.vfs.fileOf name flags).1 = after.vfs.fresh
    ∧ (after.vfs.fileOf name flags).2.files after.vfs.fresh = .create name flags

/-- A lease is there or can be had. -/
def CanRetain (R : RuntimeView Name) (c : HandleCounts) : Prop :=
  c.leaseHandleCount = 0 → R.slotFree = true

/-- All handles up to that of `-wa0` are retained, and then the file `-wa1` is missing or
the initialization rejects before it has made its channel. -/
def FailsUncaught (R : RuntimeView Name) (writeAheadName : Name → Nat → Name)
    (init : Initialization) (name : Name) (c : HandleCounts) : Prop :=
  R.files name = true ∧ CanRetain R c ∧ R.files (writeAheadName name 0) = true
    ∧ (R.files (writeAheadName name 1) = true → ∃ e, init = .rejects false e)

/-! ## §2. `#retryOpen`. -/

section

variable {R : RuntimeView Name} {writeAheadName : Name → Nat → Name} {name : Name}

omit [DecidableEq Name] in
theorem openSharedHandle_ok {found : Bool} {c : HandleCounts} (hfound : found = true)
    (hretain : CanRetain R c) :
    openSharedHandle found R.slotFree c = .ok ⟨c.openHandleCount + 1, c.leaseHandleCount + 1⟩ := by
  have hslot : ¬(c.leaseHandleCount = 0 ∧ R.slotFree = false) := by
    rintro ⟨hlease, hfree⟩
    rw [hretain hlease] at hfree
    cases hfree
  unfold openSharedHandle retainMemoryWriteAheadRuntimeHandle
  rw [hfound, if_neg (by decide), if_neg hslot]

omit [DecidableEq Name] in
theorem openSharedHandle_error {found : Bool} {c : HandleCounts}
    (h : ¬(found = true ∧ CanRetain R c)) :
    ∃ e, openSharedHandle found R.slotFree c = .error e := by
  unfold openSharedHandle retainMemoryWriteAheadRuntimeHandle
  cases found with
  | false => exact ⟨_, rfl⟩
  | true =>
      have hslot : c.leaseHandleCount = 0 ∧ R.slotFree = false := by
        by_contra hfree
        refine h ⟨rfl, fun hlease => ?_⟩
        by_contra hno
        exact hfree ⟨hlease, Bool.eq_false_iff.mpr hno⟩
      rw [if_neg (by decide), if_pos hslot]
      exact ⟨_, rfl⟩

theorem release_retained (n m : Nat) :
    releaseMemoryWriteAheadRuntimeHandle ⟨n + 1, m + 1⟩ = ⟨n, m⟩ := by
  unfold releaseMemoryWriteAheadRuntimeHandle
  rw [if_neg (Nat.succ_ne_zero m)]
  rfl

theorem release_three {c : HandleCounts} (hlease : 3 ≤ c.leaseHandleCount) :
    (releaseMemoryWriteAheadRuntimeHandle (releaseMemoryWriteAheadRuntimeHandle
        (releaseMemoryWriteAheadRuntimeHandle c))).openHandleCount = c.openHandleCount - 3
      ∧ (releaseMemoryWriteAheadRuntimeHandle (releaseMemoryWriteAheadRuntimeHandle
        (releaseMemoryWriteAheadRuntimeHandle c))).leaseHandleCount = c.leaseHandleCount - 3 := by
  have hrelease (d : HandleCounts) (hd : 1 ≤ d.leaseHandleCount) :
      releaseMemoryWriteAheadRuntimeHandle d
        = ⟨d.openHandleCount - 1, d.leaseHandleCount - 1⟩ := by
    unfold releaseMemoryWriteAheadRuntimeHandle
    rw [if_neg (by omega)]
  rw [hrelease c (by omega), hrelease ⟨_, c.leaseHandleCount - 1⟩ (show 1 ≤ _ - 1 by omega),
    hrelease ⟨_, c.leaseHandleCount - 1 - 1⟩ (show 1 ≤ _ - 1 - 1 by omega)]
  constructor
  · show c.openHandleCount - 1 - 1 - 1 = _
    omega
  · show c.leaseHandleCount - 1 - 1 - 1 = _
    omega

omit [DecidableEq Name] in
variable (R writeAheadName name) in
/-- Where `#retryOpen` is when `jOpen` returns, and the handles that are retained. -/
theorem startRetryOpen_cases (r : Nat) (x : State Name) :
    (¬(R.files name = true ∧ CanRetain R x.counts ∧ R.files (writeAheadName name 0) = true)
        ∧ ∃ e, startRetryOpen R writeAheadName name r x
          = x.endRetryOpen r ((x.vfs.files r).retryOpen (some e)) x.counts)
      ∨ (R.files name = true ∧ CanRetain R x.counts ∧ R.files (writeAheadName name 0) = true)
        ∧ (R.files (writeAheadName name 1) = false
            ∧ (∃ e, startRetryOpen R writeAheadName name r x
              = x.endRetryOpen r ((x.vfs.files r).retryOpen (some e))
                ⟨x.counts.openHandleCount + 1, x.counts.leaseHandleCount + 1⟩)
          ∨ R.files (writeAheadName name 1) = true
            ∧ startRetryOpen R writeAheadName name r x
              = { x with
                  counts := ⟨x.counts.openHandleCount + 3, x.counts.leaseHandleCount + 3⟩ }) := by
  unfold startRetryOpen
  by_cases hdb : R.files name = true ∧ CanRetain R x.counts
  · rw [openSharedHandle_ok hdb.1 hdb.2]
    simp only
    -- the first handle has brought a lease for the others
    have hlease {n m : Nat} : CanRetain R ⟨n, m + 1⟩ := fun hzero => absurd hzero (Nat.succ_ne_zero m)
    cases hwa0 : R.files (writeAheadName name 0) with
    | false =>
        refine .inl ⟨fun h => Bool.false_ne_true h.2.2, ?_⟩
        obtain ⟨e, herror⟩ : ∃ e, openSharedHandle false R.slotFree
            ⟨x.counts.openHandleCount + 1, x.counts.leaseHandleCount + 1⟩ = .error e :=
          openSharedHandle_error (by simp)
        rw [herror]
        exact ⟨e, by rw [release_retained]⟩
    | true =>
        rw [openSharedHandle_ok rfl hlease]
        simp only
        refine .inr ⟨⟨hdb.1, hdb.2, trivial⟩, ?_⟩
        cases hwa1 : R.files (writeAheadName name 1) with
        | false =>
            obtain ⟨e, herror⟩ : ∃ e, openSharedHandle false R.slotFree
                ⟨x.counts.openHandleCount + 1 + 1, x.counts.leaseHandleCount + 1 + 1⟩ = .error e :=
              openSharedHandle_error (by simp)
            rw [herror]
            exact .inl ⟨rfl, e, by rw [release_retained]⟩
        | true =>
            rw [openSharedHandle_ok rfl hlease]
            exact .inr ⟨rfl, rfl⟩
  · obtain ⟨e, herror⟩ := openSharedHandle_error hdb
    rw [herror]
    exact .inl ⟨fun h => hdb ⟨h.1, h.2.1⟩, e, rfl⟩

end

/-! ## §3. `jOpen` of the primary. -/

section

variable {normalize : Raw → Option Name} {dbFilename : Name} {writeAheadName : Name → Nat → Name}
  {R : RuntimeView Name} {raw : Raw} {fileId : Nat} {flags : Flags}

/-- The maps after the first call, with `#retryOpen` in flight. -/
def begunVfs (v : Vfs Name) (name : Name) (flags : Flags) : Vfs Name :=
  { v with
    files := Function.update v.files v.fresh (.create name flags)
    fresh := v.fresh + 1
    mapPathToFile := Function.update v.mapPathToFile name (some v.fresh)
    opening := v.opening ++ [v.fresh] }

theorem jOpen_primary (hmain : flags.mainDb = true) (hname : normalize raw = some dbFilename)
    (env : OpenEnv Name) (v : Vfs Name) :
    jOpen normalize dbFilename env (some raw) fileId flags v
      = jOpenPrimary dbFilename (some dbFilename) fileId flags v := by
  unfold jOpen
  simp only [normalizeMemoryWriteAheadPathname, hname]
  exact if_pos ⟨hmain, rfl⟩

theorem jOpenMain_first (hmain : flags.mainDb = true) (hname : normalize raw = some dbFilename)
    {x : State Name} (hnot : NotOpen dbFilename fileId x) :
    jOpenMain normalize dbFilename writeAheadName R raw dbFilename fileId flags x
      = (.busy, startRetryOpen R writeAheadName dbFilename x.vfs.fresh
          ⟨begunVfs x.vfs dbFilename flags, x.counts⟩) := by
  have hopen : jOpen normalize dbFilename (openEnv R dbFilename x) (some raw) fileId flags x.vfs
      = (.busy, begunVfs x.vfs dbFilename flags) := by
    rw [jOpen_primary hmain hname]
    unfold jOpenPrimary Vfs.fileOf
    simp only [hnot.path, Option.any_none, Bool.false_eq_true, false_and, if_false,
      Function.update_self]
    rfl
  have hpath : (begunVfs x.vfs dbFilename flags).mapPathToFile dbFilename = some x.vfs.fresh :=
    Function.update_self ..
  unfold jOpenMain
  simp only [hopen, if_true, hpath]

/-- The last call, when `#retryOpen` has left an error. -/
theorem jOpenMain_error (hmain : flags.mainDb = true) (hname : normalize raw = some dbFilename)
    {x : State Name} {r : Nat} {e : VfsError} (hpath : x.vfs.mapPathToFile dbFilename = some r)
    (hresult : (x.vfs.files r).retryResult = .error e) (hopened : (x.vfs.files r).opened = false) :
    jOpenMain normalize dbFilename writeAheadName R raw dbFilename fileId flags x
      = (.cantopen, ⟨(({ x.vfs.setFile r { x.vfs.files r with retryResult := .null } with
          lastError := some (.retried e) }.deleteId fileId).deletePath dbFilename), x.counts⟩) := by
  have hnotOpening : (x.vfs.files r).isOpenedOrOpening = false := by
    unfold OpenFile.isOpenedOrOpening
    rw [hopened, hresult]
    rfl
  have hopen : jOpen normalize dbFilename (openEnv R dbFilename x) (some raw) fileId flags x.vfs
      = (.cantopen, ({ x.vfs.setFile r { x.vfs.files r with retryResult := .null } with
          lastError := some (.retried e) }.deleteId fileId).deletePath dbFilename) := by
    rw [jOpen_primary hmain hname]
    unfold jOpenPrimary Vfs.fileOf
    simp only [hpath, Option.any_some, hnotOpening, Bool.false_eq_true, false_and, if_false, hopened,
      hresult]
    rfl
  unfold jOpenMain
  simp only [hopen, if_true]

/-- The last call, when `#retryOpen` has left nothing. -/
theorem jOpenMain_null (hmain : flags.mainDb = true) (hname : normalize raw = some dbFilename)
    {x : State Name} {r : Nat} (hpath : x.vfs.mapPathToFile dbFilename = some r)
    (hid : x.vfs.mapIdToFile fileId = none) (hresult : (x.vfs.files r).retryResult = .null) :
    jOpenMain normalize dbFilename writeAheadName R raw dbFilename fileId flags x
      = (.cantopen, ⟨{ x.vfs with lastError := some .separateInstance }.deleteId fileId,
          x.counts⟩) := by
  have hopening : (x.vfs.files r).isOpenedOrOpening = true := by
    unfold OpenFile.isOpenedOrOpening
    rw [hresult]
    simp
  have hopen : jOpen normalize dbFilename (openEnv R dbFilename x) (some raw) fileId flags x.vfs
      = (.cantopen, { x.vfs with lastError := some .separateInstance }.deleteId fileId) := by
    rw [jOpen_primary hmain hname]
    unfold jOpenPrimary
    rw [if_pos ⟨by rw [hpath]; exact hopening, by rw [hpath, hid]; exact (Option.some_ne_none r).symm⟩]
    rfl
  unfold jOpenMain
  simp only [hopen, if_true]

/-- The last call, when `#retryOpen` has gone through. -/
theorem jOpenMain_done (hmain : flags.mainDb = true) (hname : normalize raw = some dbFilename)
    {x : State Name} {r : Nat} (hpath : x.vfs.mapPathToFile dbFilename = some r)
    (hresult : (x.vfs.files r).retryResult = .done) (hopened : (x.vfs.files r).opened = false) :
    (jOpenMain normalize dbFilename writeAheadName R raw dbFilename fileId flags x).1 = .ok flags := by
  have hnotOpening : (x.vfs.files r).isOpenedOrOpening = false := by
    unfold OpenFile.isOpenedOrOpening
    rw [hopened, hresult]
    rfl
  have hopen : (jOpen normalize dbFilename (openEnv R dbFilename x) (some raw) fileId flags
      x.vfs).1 = .ok flags := by
    rw [jOpen_primary hmain hname]
    unfold jOpenPrimary Vfs.fileOf
    simp only [hpath, Option.any_some, hnotOpening, Bool.false_eq_true, false_and, if_false, hresult]
  unfold jOpenMain
  generalize jOpen normalize dbFilename (openEnv R dbFilename x) (some raw) fileId flags x.vfs
    = answer at hopen ⊢
  obtain ⟨result, vfs⟩ := answer
  obtain rfl := hopen
  simp only [if_true]

end

/-! ## §4. What the steps leave of others. -/

section

variable {name : Name} {fileId r : Nat} {v v' : Vfs Name}

omit [DecidableEq Name] in
theorem OthersKept.refl (v : Vfs Name) : OthersKept name fileId r v v :=
  ⟨fun _ _ => rfl, fun _ _ => rfl, fun _ _ => rfl⟩

omit [DecidableEq Name] in
theorem OthersKept.endRetryOpen {x x' : State Name} (h : OthersKept name fileId r x.vfs x'.vfs)
    (f : OpenFile Name) (counts : HandleCounts) :
    OthersKept name fileId r x.vfs (x'.endRetryOpen r f counts).vfs := by
  refine ⟨fun s hs => ?_, h.path, h.id⟩
  show Function.update x'.vfs.files r f s = _
  rw [Function.update_of_ne hs]
  exact h.files s hs

theorem OthersKept.begunVfs (v : Vfs Name) (flags : Flags) :
    OthersKept name fileId v.fresh v (OpenFiles.begunVfs v name flags) := by
  refine ⟨fun s hs => ?_, fun other hother => ?_, fun _ _ => rfl⟩
  · exact Function.update_of_ne hs ..
  · exact Function.update_of_ne hother ..

theorem OthersKept.failed (v : Vfs Name) (f : OpenFile Name) (lastError : Option OpenError) :
    OthersKept name fileId r v
      (({ v.setFile r f with lastError := lastError }.deleteId fileId).deletePath name) := by
  refine ⟨fun s hs => ?_, fun other hother => ?_, fun other hother => ?_⟩
  · exact Function.update_of_ne hs ..
  · exact Function.update_of_ne hother ..
  · exact Function.update_of_ne hother ..

/-- A path without a record. -/
theorem fileOf_afresh (hpath : v.mapPathToFile name = none) (flags : Flags) :
    (v.fileOf name flags).1 = v.fresh
      ∧ (v.fileOf name flags).2.files v.fresh = .create name flags := by
  unfold Vfs.fileOf
  rw [hpath]
  exact ⟨rfl, Function.update_self ..⟩

end

/-! ## §5. A failed open of the primary. -/

section

variable {normalize : Raw → Option Name} {dbFilename : Name} {writeAheadName : Name → Nat → Name}
  {R R' : RuntimeView Name} {init : Initialization} {raw : Raw} {fileId : Nat} {flags : Flags}
  {C : Course Name}

/-- The record and the maps go unchanged from the first call to the last, but for the
end of `#retryOpen`. -/
theorem FailsPrimary.maps (h : FailsPrimary normalize dbFilename writeAheadName R R' init raw fileId
    flags C) (hbegun : C.begun.vfs.mapPathToFile dbFilename = some C.before.vfs.fresh
      ∧ C.begun.vfs.mapIdToFile fileId = none) :
    C.again.vfs.mapPathToFile dbFilename = some C.before.vfs.fresh
      ∧ C.again.vfs.mapIdToFile fileId = none
      ∧ C.again.vfs.files C.before.vfs.fresh = C.ended.vfs.files C.before.vfs.fresh := by
  have hended : C.ended.vfs.mapPathToFile = C.waited.vfs.mapPathToFile
      ∧ C.ended.vfs.mapIdToFile = C.waited.vfs.mapIdToFile := by
    rw [← h.settled]
    unfold finishRetryOpen settleRetryOpen
    split
    · split <;> exact ⟨rfl, rfl⟩
    · exact ⟨rfl, rfl⟩
  refine ⟨?_, ?_, h.meanwhile'.file⟩
  · rw [h.meanwhile'.path, hended.1, h.meanwhile.path]
    exact hbegun.1
  · rw [h.meanwhile'.id, hended.2, h.meanwhile.id]
    exact hbegun.2

/-- Where the `catch` has run to its end, the last call cleans both maps. -/
theorem FailsPrimary.leaksNothing_iff_of_error
    (h : FailsPrimary normalize dbFilename writeAheadName R R' init raw fileId flags C)
    (hbegun : C.begun.vfs.mapPathToFile dbFilename = some C.before.vfs.fresh
      ∧ C.begun.vfs.mapIdToFile fileId = none)
    (hothers : OthersKept dbFilename fileId C.before.vfs.fresh C.before.vfs C.begun.vfs
      ∧ OthersKept dbFilename fileId C.before.vfs.fresh C.waited.vfs C.ended.vfs)
    {e : VfsError} (hresult : (C.ended.vfs.files C.before.vfs.fresh).retryResult = .error e)
    (hopened : (C.ended.vfs.files C.before.vfs.fresh).opened = false) :
    LeaksNothing dbFilename fileId C.before.vfs.fresh C.ownSteps C.after
      ↔ net HandleCounts.openHandleCount [(C.before, C.begun), (C.waited, C.ended)] = 0
        ∧ net HandleCounts.leaseHandleCount [(C.before, C.begun), (C.waited, C.ended)] = 0 := by
  obtain ⟨hpath, hid, hfile⟩ := h.maps hbegun
  rw [← hfile] at hresult hopened
  have hlast := h.last
  rw [jOpenMain_error h.mainDb h.name hpath hresult hopened] at hlast
  have hafter := (Prod.mk.inj hlast).2
  have hcounts : C.after.counts = C.again.counts := by rw [← hafter]
  have hnone : C.after.vfs.mapPathToFile dbFilename = none := by
    rw [← hafter]
    exact Function.update_self ..
  have hidNone : C.after.vfs.mapIdToFile fileId = none := by
    rw [← hafter]
    exact Function.update_self ..
  have hothersLast : OthersKept dbFilename fileId C.before.vfs.fresh C.again.vfs C.after.vfs := by
    rw [← hafter]
    exact OthersKept.failed _ _ _
  have hnet (count : HandleCounts → Nat) :
      net count C.ownSteps = net count [(C.before, C.begun), (C.waited, C.ended)] := by
    unfold net Course.ownSteps
    simp only [List.foldl_cons, List.foldl_nil, hcounts]
    omega
  constructor
  · intro hleaks
    exact ⟨(hnet _).symm.trans hleaks.openHandleCount, (hnet _).symm.trans hleaks.leaseHandleCount⟩
  · rintro ⟨hopen, hlease⟩
    refine ⟨(hnet _).trans hopen, (hnet _).trans hlease, hnone, hidNone, ?_,
      fileOf_afresh hnone⟩
    intro step hstep
    simp only [Course.ownSteps, List.mem_cons, List.not_mem_nil, or_false] at hstep
    rcases hstep with rfl | rfl | rfl
    · exact hothers.1
    · exact hothers.2
    · exact hothersLast

/-- `#retryOpen` has ended within the first call. -/
theorem FailsPrimary.leaksNothing_iff_of_sync
    (h : FailsPrimary normalize dbFilename writeAheadName R R' init raw fileId flags C)
    {e : VfsError} {counts : HandleCounts}
    (hbegun : C.begun = State.endRetryOpen ⟨begunVfs C.before.vfs dbFilename flags, C.before.counts⟩
      C.before.vfs.fresh ((OpenFile.create dbFilename flags).retryOpen (some e)) counts) :
    LeaksNothing dbFilename fileId C.before.vfs.fresh C.ownSteps C.after
      ↔ counts = C.before.counts := by
  have hfile : C.begun.vfs.files C.before.vfs.fresh
      = (OpenFile.create dbFilename flags).retryOpen (some e) := by
    rw [hbegun]
    exact Function.update_self ..
  have hended : C.ended = C.waited := by
    rw [← h.settled]
    unfold finishRetryOpen
    rw [h.meanwhile.file, hfile]
    exact if_neg (by simp [OpenFile.retryOpen])
  have hresult : C.ended.vfs.files C.before.vfs.fresh
      = (OpenFile.create dbFilename flags).retryOpen (some e) := by
    rw [hended, h.meanwhile.file, hfile]
  have hiff := h.leaksNothing_iff_of_error (e := e)
    ⟨by rw [hbegun]; exact Function.update_self .., by rw [hbegun]; exact h.notOpen.id⟩
    ⟨by rw [hbegun]; exact (OthersKept.begunVfs _ _).endRetryOpen _ _, by rw [hended]; exact .refl _⟩
    (by rw [hresult]; rfl) (by rw [hresult]; rfl)
  rw [hiff]
  have hcounts : C.begun.counts = counts := by rw [hbegun]; rfl
  unfold net
  simp only [List.foldl_cons, List.foldl_nil, hended, hcounts]
  constructor
  · rintro ⟨hopen, hlease⟩
    refine HandleCounts.ext ?_ ?_
    · omega
    · omega
  · rintro rfl
    omega

/-- `#retryOpen` has retained its three handles and waits for the initialization. -/
theorem FailsPrimary.leaksNothing_iff_of_waiting
    (h : FailsPrimary normalize dbFilename writeAheadName R R' init raw fileId flags C)
    (hbegun : C.begun = ⟨begunVfs C.before.vfs dbFilename flags,
      ⟨C.before.counts.openHandleCount + 3, C.before.counts.leaseHandleCount + 3⟩⟩) :
    LeaksNothing dbFilename fileId C.before.vfs.fresh C.ownSteps C.after
      ↔ ¬∃ e, init = .rejects false e := by
  have hmaps : C.begun.vfs.mapPathToFile dbFilename = some C.before.vfs.fresh
      ∧ C.begun.vfs.mapIdToFile fileId = none :=
    ⟨by rw [hbegun]; exact Function.update_self .., by rw [hbegun]; exact h.notOpen.id⟩
  have hfile : C.waited.vfs.files C.before.vfs.fresh = .create dbFilename flags := by
    rw [h.meanwhile.file, hbegun]
    exact Function.update_self ..
  have hended : settleRetryOpen init C.before.vfs.fresh C.waited = C.ended := by
    rw [← h.settled]
    unfold finishRetryOpen
    exact (if_pos (by rw [hfile]; rfl)).symm
  obtain ⟨hpath, hid, hagain⟩ := h.maps hmaps
  cases init with
  | ready =>
      -- then the last call returns `SQLITE_OK`
      have hdone : C.again.vfs.files C.before.vfs.fresh
          = (OpenFile.create dbFilename flags).retryOpen none := by
        rw [hagain, ← hended, ← hfile]
        exact Function.update_self ..
      have hok : (jOpenMain normalize dbFilename writeAheadName R' raw dbFilename fileId flags
          C.again).1 = .ok flags :=
        jOpenMain_done h.mainDb h.name hpath (by rw [hdone]; rfl) (by rw [hdone]; rfl)
      rw [h.last] at hok
      cases hok
  | rejects channel e =>
      cases channel with
      | true =>
          have herror : C.ended.vfs.files C.before.vfs.fresh
              = (OpenFile.create dbFilename flags).retryOpen (some e) := by
            rw [← hended, ← hfile]
            exact Function.update_self ..
          have hiff := h.leaksNothing_iff_of_error hmaps
            ⟨by rw [hbegun]; exact OthersKept.begunVfs _ _,
              by rw [← hended]; exact (OthersKept.refl _).endRetryOpen _ _⟩
            (by rw [herror]; rfl) (by rw [herror]; rfl)
          rw [hiff]
          refine iff_of_true ?_ (by rintro ⟨e', he⟩; cases he)
          have hopen := h.meanwhile.openHandleCount
          have hlease := h.meanwhile.leaseHandleCount
          rw [hbegun] at hopen hlease
          simp only at hopen hlease
          obtain ⟨hreleasedOpen, hreleasedLease⟩ := release_three (c := C.waited.counts) (by omega)
          have hcounts : C.ended.counts = releaseMemoryWriteAheadRuntimeHandle
              (releaseMemoryWriteAheadRuntimeHandle
                (releaseMemoryWriteAheadRuntimeHandle C.waited.counts)) := by
            rw [← hended]
            rfl
          unfold net
          simp only [List.foldl_cons, List.foldl_nil, hcounts, hreleasedOpen, hreleasedLease, hbegun]
          omega
      | false =>
          refine iff_of_false (fun hleaks => ?_) (fun hno => hno ⟨e, rfl⟩)
          -- the record waits for an end of `#retryOpen` that never comes
          have hnull : (C.again.vfs.files C.before.vfs.fresh).retryResult = .null := by
            rw [hagain, ← hended]
            show (Function.update C.waited.vfs.files C.before.vfs.fresh
              (C.waited.vfs.files C.before.vfs.fresh) C.before.vfs.fresh).retryResult = _
            rw [Function.update_self, hfile]
            rfl
          have hlast := h.last
          rw [jOpenMain_null h.mainDb h.name hpath hid hnull] at hlast
          have hafter := (Prod.mk.inj hlast).2
          have hgone := hleaks.path
          rw [← hafter] at hgone
          have hstays : C.again.vfs.mapPathToFile dbFilename = none := hgone
          rw [hpath] at hstays
          cases hstays

theorem FailsPrimary.leaksNothing_iff
    (h : FailsPrimary normalize dbFilename writeAheadName R R' init raw fileId flags C) :
    LeaksNothing dbFilename fileId C.before.vfs.fresh C.ownSteps C.after
      ↔ ¬FailsUncaught R writeAheadName init dbFilename C.before.counts := by
  have hfirst := h.first
  rw [jOpenMain_first h.mainDb h.name h.notOpen] at hfirst
  simp only at hfirst
  have hfile : (begunVfs C.before.vfs dbFilename flags).files C.before.vfs.fresh
      = .create dbFilename flags := Function.update_self ..
  rcases startRetryOpen_cases R writeAheadName dbFilename
      C.before.vfs.fresh ⟨begunVfs C.before.vfs dbFilename flags, C.before.counts⟩ with
    ⟨hno, e, hstart⟩ | ⟨hyes, ⟨hwa1, e, hstart⟩ | ⟨hwa1, hstart⟩⟩
  · rw [hfirst, hfile] at hstart
    rw [h.leaksNothing_iff_of_sync hstart]
    exact iff_of_true rfl fun hfails => hno ⟨hfails.1, hfails.2.1, hfails.2.2.1⟩
  · rw [hfirst, hfile] at hstart
    rw [h.leaksNothing_iff_of_sync hstart]
    refine iff_of_false (fun hsame => ?_) fun hclean =>
      hclean ⟨hyes.1, hyes.2.1, hyes.2.2, fun hfound => ?_⟩
    · -- the handle of `-wa0` is retained still
      have hmore := congrArg HandleCounts.openHandleCount hsame
      simp only at hmore
      omega
    · rw [hwa1] at hfound
      cases hfound
  · rw [hfirst] at hstart
    rw [h.leaksNothing_iff_of_waiting hstart]
    refine not_congr ⟨fun hinit => ⟨hyes.1, hyes.2.1, hyes.2.2, fun _ => hinit⟩, fun hfails =>
      hfails.2.2.2 hwa1⟩

end

/-! ## §6. A failed open of an attached database. -/

section

variable {normalize : Raw → Option Name} {dbFilename name : Name}
  {writeAheadName : Name → Nat → Name} {R : RuntimeView Name} {raw : Raw} {fileId : Nat}
  {flags : Flags} {x : State Name}

omit [DecidableEq Name] in
variable (R flags) in
/-- The file is missing, no handle can be retained, or the open succeeds. -/
theorem openAttached_cases (hnone : x.vfs.mapPathToFile name = none) :
    (∃ f e, (OpenFile.create name flags).openAttached (openEnv R name x) = (f, some e)
        ∧ (attachedCounts R name x).getD x.counts = x.counts)
      ∨ ((OpenFile.create name flags).openAttached (openEnv R name x)).2 = none := by
  have hhandle : (x.vfs.mapPathToFile name).bind (fun r => (x.vfs.files r).accessHandle) = none := by
    rw [hnone]
    rfl
  cases hfile : R.files name with
  | false =>
      have hcounts : attachedCounts R name x = some x.counts :=
        if_neg fun h => Bool.false_ne_true (hfile.symm.trans h.1)
      refine .inl ⟨.create name flags, .missingSharedFile, ?_, by rw [hcounts]; rfl⟩
      unfold OpenFile.openAttached OpenFile.openShared openEnv
      simp only [hfile]
      rfl
  | true =>
      have hcounts : attachedCounts R name x
          = retainMemoryWriteAheadRuntimeHandle R.slotFree x.counts := if_pos ⟨hfile, hhandle⟩
      cases hretain : retainMemoryWriteAheadRuntimeHandle R.slotFree x.counts with
      | none =>
          rw [hretain] at hcounts
          refine .inl ⟨{ OpenFile.create name flags with sharedFile := true }, .handle .other, ?_,
            by rw [hcounts]; rfl⟩
          unfold OpenFile.openAttached OpenFile.openShared openEnv
          simp only [hfile, hcounts]
          rfl
      | some c =>
          rw [hretain] at hcounts
          -- a context that has retained a handle has a lease, and so an owner
          have hlease : c.leaseHandleCount ≠ 0 := by
            unfold retainMemoryWriteAheadRuntimeHandle at hretain
            split at hretain
            next => cases hretain
            next =>
              obtain rfl := Option.some.inj hretain
              exact Nat.succ_ne_zero _
          have howner : (openEnv R name x).runtimeOwnerId ≠ 0 := by
            show (if ((attachedCounts R name x).getD x.counts).leaseHandleCount = 0 then 0
              else R.runtimeOwnerId) ≠ 0
            rw [hcounts]
            have hpos := R.owner_pos
            rw [Option.getD_some, if_neg hlease]
            omega
          have hshared : (OpenFile.create name flags).openShared (openEnv R name x)
              = ({ OpenFile.create name flags with
                  sharedFile := true, accessHandle := some .live, retryResult := .null }, none) := by
            unfold OpenFile.openShared openEnv
            simp only [hfile, hcounts]
            rfl
          refine .inr ?_
          unfold OpenFile.openAttached
          rw [hshared]
          simp only
          rw [if_neg howner]

theorem attached_open_leaksNothing (hmain : flags.mainDb = true) (hname : normalize raw = some name)
    (hne : name ≠ dbFilename) (hnot : NotOpen name fileId x) {x' : State Name}
    (h : jOpenMain normalize dbFilename writeAheadName R raw name fileId flags x
      = (.cantopen, x')) : LeaksNothing name fileId x.vfs.fresh [(x, x')] x' := by
  have hopen : jOpen normalize dbFilename (openEnv R name x) (some raw) fileId flags x.vfs
      = jOpenOther (openEnv R name x) name (some name) fileId flags x.vfs := by
    unfold jOpen
    simp only [normalizeMemoryWriteAheadPathname, hname]
    exact if_neg fun hprimary => hne hprimary.2
  obtain ⟨hfresh, hfile⟩ := fileOf_afresh hnot.path flags
  unfold jOpenMain at h
  rw [hopen] at h
  unfold jOpenOther openHandle at h
  simp only [hmain, if_true, hfresh, hfile] at h
  rcases openAttached_cases R flags hnot.path with
    ⟨f, e, hattached, hcounts⟩ | hopened
  · rw [hattached] at h
    simp only [failOpen, if_neg hne, hcounts] at h
    have hafter := (Prod.mk.inj h).2
    have hnone : x'.vfs.mapPathToFile name = none := by
      rw [← hafter]
      exact Function.update_self ..
    refine ⟨?_, ?_, hnone, ?_, ?_, fileOf_afresh hnone⟩
    · rw [← hafter]
      show (0 : Int) + ((x.counts.openHandleCount : Int) - x.counts.openHandleCount) = 0
      omega
    · rw [← hafter]
      show (0 : Int) + ((x.counts.leaseHandleCount : Int) - x.counts.leaseHandleCount) = 0
      omega
    · rw [← hafter]
      exact Function.update_self ..
    · intro step hstep
      obtain rfl := List.mem_singleton.mp hstep
      rw [← hafter]
      unfold Vfs.fileOf
      rw [hnot.path]
      refine ⟨fun s hs => ?_, fun other hother' => ?_, fun other hother' => ?_⟩
      · exact (Function.update_of_ne hs ..).trans (Function.update_of_ne hs ..)
      · exact (Function.update_of_ne hother' ..).trans (Function.update_of_ne hother' ..)
      · exact Function.update_of_ne hother' ..
  · obtain ⟨f, hattached⟩ : ∃ f, (OpenFile.create name flags).openAttached (openEnv R name x)
        = (f, none) := ⟨_, Prod.ext rfl hopened⟩
    rw [hattached] at h
    simp only [if_neg hne] at h
    cases (Prod.mk.inj h).1

end

/-! ## §7. Every failed open. -/

/-- **A failed open leaks nothing**, but for one case.  The primary: when its last call
has returned `SQLITE_CANTOPEN`, the handles it has retained are released, both maps are
rid of it and the next open starts afresh, just when it has not failed uncaught, with
`-wa1` missing or with an initialization that rejects before it has made its channel.
An attached database: always. -/
theorem failed_open_leaks_nothing_iff (normalize : Raw → Option Name) (dbFilename : Name)
    (writeAheadName : Name → Nat → Name) (R : RuntimeView Name) :
    (∀ R' init raw fileId flags (C : Course Name),
        FailsPrimary normalize dbFilename writeAheadName R R' init raw fileId flags C →
        (LeaksNothing dbFilename fileId C.before.vfs.fresh C.ownSteps C.after
          ↔ ¬FailsUncaught R writeAheadName init dbFilename C.before.counts))
      ∧ ∀ raw name fileId flags (x x' : State Name), flags.mainDb = true →
        normalize raw = some name → name ≠ dbFilename → NotOpen name fileId x →
        jOpenMain normalize dbFilename writeAheadName R raw name fileId flags x = (.cantopen, x') →
        LeaksNothing name fileId x.vfs.fresh [(x, x')] x' :=
  ⟨fun _ _ _ _ _ _ h => h.leaksNothing_iff,
    fun _ _ _ _ _ _ hmain hname hne hnot h => attached_open_leaksNothing hmain hname hne hnot h⟩

/-- The shared files of the runtime `/a`, without `missing`. -/
def viewWithout (missing : String) : RuntimeView String where
  files name := decide (name ∈ ["/a", "/a-wa0", "/a-wa1"] ∧ name ≠ missing)
  slotFree := true
  runtimeOwnerId := 7
  owner_pos := by decide
  lockOwnerId := 3

def walName (name : String) (index : Nat) : String :=
  if index = 0 then name ++ "-wa0" else name ++ "-wa1"

/-- A context without a handle. -/
def newState : State String := ⟨newVfs, ⟨0, 0⟩⟩

/-- An open of `/a` with nothing else between its steps. -/
def undisturbed (R : RuntimeView String) (init : Initialization) : Course String :=
  let begun := (jOpenMain some "/a" walName R "/a" "/a" 1 mainDbFlags newState).2
  let ended := finishRetryOpen init newVfs.fresh begun
  { before := newState, begun, waited := begun, ended, again := ended
    after := (jOpenMain some "/a" walName R "/a" "/a" 1 mainDbFlags ended).2 }

theorem undisturbed_fails {R : RuntimeView String} {init : Initialization}
    (hheld : (undisturbed R init).begun.counts.openHandleCount
      ≤ (undisturbed R init).begun.counts.leaseHandleCount)
    (hlast : (jOpenMain some "/a" walName R "/a" "/a" 1 mainDbFlags (undisturbed R init).again).1
      = .cantopen) :
    FailsPrimary some "/a" walName R R init "/a" 1 mainDbFlags (undisturbed R init) where
  mainDb := rfl
  name := rfl
  notOpen := ⟨rfl, rfl⟩
  first := rfl
  meanwhile := ⟨rfl, rfl, rfl, Nat.sub_le _ _, Nat.le_trans (Nat.sub_le _ _) hheld⟩
  settled := rfl
  meanwhile' := ⟨rfl, rfl, rfl, Nat.zero_le _, Nat.zero_le _⟩
  last := Prod.ext hlast rfl

/-- `-wa0` is missing, and so is the attached database `/b`. -/
theorem failed_open_leaks_nothing_iff_missing :
    LeaksNothing "/a" 1 0 (undisturbed (viewWithout "/a-wa0") .ready).ownSteps
        (undisturbed (viewWithout "/a-wa0") .ready).after
      ∧ ∃ x', jOpenMain some "/a" walName (viewWithout "/a-wa0") "/b" "/b" 2 mainDbFlags newState
          = (.cantopen, x')
        ∧ LeaksNothing "/b" 2 0 [(newState, x')] x' := by
  obtain ⟨hprimary, hattached⟩ := failed_open_leaks_nothing_iff some "/a" walName
    (viewWithout "/a-wa0")
  have hfails : FailsPrimary some "/a" walName (viewWithout "/a-wa0") (viewWithout "/a-wa0") .ready
      "/a" 1 mainDbFlags (undisturbed (viewWithout "/a-wa0") .ready) :=
    undisturbed_fails (by decide) (by decide)
  have hcaught : ¬FailsUncaught (viewWithout "/a-wa0") walName .ready "/a" ⟨0, 0⟩ :=
    fun h => absurd h.2.2.1 (by decide)
  have hmissing : (jOpenMain some "/a" walName (viewWithout "/a-wa0") "/b" "/b" 2 mainDbFlags
      newState).1 = .cantopen := by decide
  exact ⟨(hprimary _ _ _ _ _ _ hfails).mpr hcaught, _, Prod.ext hmissing rfl,
    hattached _ _ _ _ _ _ rfl rfl (by decide) ⟨rfl, rfl⟩ (Prod.ext hmissing rfl)⟩

/-- `-wa1` is missing: the handle of `-wa0` stays open.  The initialization rejects
before it has made its channel: all three stay open, and the path keeps its record. -/
theorem failed_open_leaks_handles :
    (∃ C : Course String, FailsPrimary some "/a" walName (viewWithout "/a-wa1")
        (viewWithout "/a-wa1") .ready "/a" 1 mainDbFlags C
      ∧ C.before.counts = ⟨0, 0⟩ ∧ C.after.counts = ⟨1, 1⟩
      ∧ ¬LeaksNothing "/a" 1 C.before.vfs.fresh C.ownSteps C.after)
    ∧ ∃ C : Course String, FailsPrimary some "/a" walName (viewWithout "") (viewWithout "")
        (.rejects false .other) "/a" 1 mainDbFlags C
      ∧ C.before.counts = ⟨0, 0⟩ ∧ C.after.counts = ⟨3, 3⟩
      ∧ C.after.vfs.mapPathToFile "/a" = some 0
      ∧ ¬LeaksNothing "/a" 1 C.before.vfs.fresh C.ownSteps C.after := by
  refine ⟨⟨undisturbed (viewWithout "/a-wa1") .ready, undisturbed_fails (by decide) (by decide),
    by decide, by decide, fun h => absurd h.openHandleCount (by decide)⟩,
    undisturbed (viewWithout "") (.rejects false .other),
    undisturbed_fails (by decide) (by decide), by decide, by decide, by decide,
    fun h => absurd h.openHandleCount (by decide)⟩

end MemoryWriteAhead.OpenFiles
