/-
  MemoryWriteAhead.OpenFiles.Sharing
  ──────────────────────────────────
  **WHICH OPEN HANDLES SHARE A RECORD.**

  The branch of the primary database refuses a path whose record is open or
  being opened.  The branch of every other database takes the record that the
  path has, open or not, so two handles of one attached database share it.

  Main results:
    • `kept_or_opens` — what one step can do to the two maps,
    • `Inv.step` — the invariant of the runs whose opens meet `OpensApart`,
    • `ok_open_apart_iff` — an open that returns `SQLITE_OK` keeps the handles
      apart exactly when it meets `OpensApart`,
    • `main_handles_apart` — in every run that meets it no two handles of main
      databases share a record, and none touches the record of another.
-/
import Mathlib
import MemoryWriteAhead.OpenFiles.Model

namespace MemoryWriteAhead.OpenFiles

open Transition

variable {Name : Type}

/-! ## §1. What each function leaves of a record. -/

/-- The record keeps its path, and stays open if it was. -/
def OpenFile.Same (f g : OpenFile Name) : Prop :=
  g.zName = f.zName ∧ (f.opened = true → g.opened = true)

theorem OpenFile.Same.refl (f : OpenFile Name) : f.Same f := ⟨rfl, id⟩

theorem OpenFile.Same.trans {f g k : OpenFile Name} (hfg : f.Same g) (hgk : g.Same k) : f.Same k :=
  ⟨hgk.1.trans hfg.1, fun ho => hgk.2 (hfg.2 ho)⟩

theorem OpenFile.openShared_same (env : OpenEnv Name) (f : OpenFile Name) :
    f.Same (f.openShared env).1 := by
  unfold openShared
  split
  · exact ⟨rfl, id⟩
  · split
    · exact ⟨rfl, id⟩
    · split
      · exact ⟨rfl, id⟩
      · exact ⟨rfl, id⟩

theorem OpenFile.openAttached_same (env : OpenEnv Name) (f : OpenFile Name) :
    f.Same (f.openAttached env).1 := by
  have hshared := f.openShared_same env
  unfold openAttached
  split
  next g e heq =>
    rw [heq] at hshared
    exact hshared
  next g heq =>
    rw [heq] at hshared
    dsimp only
    split
    · exact hshared
    · exact hshared

theorem OpenFile.retryOpen_same (threw : Option Connection.VfsError) (f : OpenFile Name) :
    f.Same (f.retryOpen threw) := by
  cases threw <;> exact ⟨rfl, id⟩

theorem OpenFile.releaseAttachedDatabaseLock_same (f : OpenFile Name) :
    f.Same f.releaseAttachedDatabaseLock := by
  unfold releaseAttachedDatabaseLock
  split <;> exact ⟨rfl, id⟩

theorem mainDbClosers_same {closer : OpenFile Name → OpenFile Name} (h : closer ∈ mainDbClosers)
    (f : OpenFile Name) : f.Same (closer f) := by
  simp only [mainDbClosers, List.mem_cons, List.not_mem_nil, or_false] at h
  rcases h with rfl | rfl | rfl | rfl | rfl | rfl | rfl
  · exact f.releaseAttachedDatabaseLock_same
  all_goals exact ⟨rfl, id⟩

theorem foldl_same {closers : List (OpenFile Name → OpenFile Name)}
    (h : ∀ closer ∈ closers, ∀ f, OpenFile.Same f (closer f)) (f : OpenFile Name) :
    f.Same (closers.foldl (fun g closer => closer g) f) := by
  induction closers generalizing f with
  | nil => exact .refl f
  | cons closer rest ih =>
      have hfirst := h closer (by simp) f
      have hrest := ih (fun k hk => h k (by simp [hk])) (closer f)
      exact hfirst.trans hrest

theorem OpenFile.closeMain_same (threw : Option Nat) (f : OpenFile Name) :
    f.Same (f.closeMain threw) := by
  cases threw with
  | none => exact foldl_same (fun _ hk => mainDbClosers_same hk) f
  | some n => exact foldl_same (fun _ hk => mainDbClosers_same (List.mem_of_mem_take hk)) f

/-! ## §2. What one step can do. -/

/-- A step that opens nothing: records keep their path, a path gets at most a
new record of its own, no file gets a record, and what keeps its path stays
open. -/
structure Kept (v v' : Vfs Name) : Prop where
  fresh : v.fresh ≤ v'.fresh
  zName : ∀ r, r < v.fresh → (v'.files r).zName = (v.files r).zName
  path : ∀ n r, v'.mapPathToFile n = some r →
    v.mapPathToFile n = some r ∨ (r = v.fresh ∧ r < v'.fresh ∧ (v'.files r).zName = n)
  id : ∀ f r, v'.mapIdToFile f = some r → v.mapIdToFile f = some r
  opened : ∀ n r, v.mapPathToFile n = some r → v'.mapPathToFile n = some r → r < v.fresh →
    (v.files r).opened = true → (v'.files r).opened = true

theorem Kept.refl (v : Vfs Name) : Kept v v :=
  ⟨le_rfl, fun _ _ => rfl, fun _ _ h => .inl h, fun _ _ h => h, fun _ _ _ _ _ h => h⟩

section Steps

variable {v v' : Vfs Name}

/-- Writing to a record, its path and its being open left alone. -/
theorem Kept.setFile (h : Kept v v') {r : Nat} {f : OpenFile Name}
    (hsame : (v'.files r).Same f) : Kept v (v'.setFile r f) := by
  have hfile : ∀ s, (v'.files s).Same ((v'.setFile r f).files s) := by
    intro s
    by_cases hs : s = r
    · subst hs
      simpa [Vfs.setFile] using hsame
    · have hkeep : (v'.setFile r f).files s = v'.files s := by simp [Vfs.setFile, hs]
      rw [hkeep]
      exact .refl _
  refine ⟨h.fresh, fun s hs => ?_, fun n s hn => ?_, h.id, fun n s hn hn' hs ho => ?_⟩
  · rw [(hfile s).1]
    exact h.zName s hs
  · rcases h.path n s hn with hold | ⟨hfresh, hlt, hname⟩
    · exact .inl hold
    · exact .inr ⟨hfresh, hlt, by rw [(hfile s).1, hname]⟩
  · exact (hfile s).2 (h.opened n s hn hn' hs ho)

/-- Data beside the records and the maps. -/
theorem Kept.beside (h : Kept v v') {w : Vfs Name} (hfiles : w.files = v'.files)
    (hfresh : w.fresh = v'.fresh) (hpath : w.mapPathToFile = v'.mapPathToFile)
    (hid : w.mapIdToFile = v'.mapIdToFile) : Kept v w := by
  refine ⟨?_, ?_, ?_, ?_, ?_⟩
  · rw [hfresh]
    exact h.fresh
  · rw [hfiles]
    exact h.zName
  · rw [hfiles, hfresh, hpath]
    exact h.path
  · rw [hid]
    exact h.id
  · rw [hfiles, hpath]
    exact h.opened

theorem Kept.deleteId (h : Kept v v') (fileId : Nat) : Kept v (v'.deleteId fileId) := by
  refine ⟨h.fresh, h.zName, h.path, fun f r hf => h.id f r ?_, h.opened⟩
  by_cases hfile : f = fileId
  · simp [Vfs.deleteId, hfile] at hf
  · simpa [Vfs.deleteId, hfile] using hf

/-- A record that loses its path may be closed. -/
theorem Kept.setFile_gone (h : Kept v v') {r : Nat} {f : OpenFile Name}
    (hname : f.zName = (v'.files r).zName) (hgone : ∀ n, v'.mapPathToFile n ≠ some r) :
    Kept v (v'.setFile r f) := by
  refine ⟨h.fresh, fun s hs => ?_, fun n s hn => ?_, h.id, fun n s hn hn' hs ho => ?_⟩
  · by_cases hsr : s = r
    · subst hsr
      simpa [Vfs.setFile, hname] using h.zName s hs
    · simpa [Vfs.setFile, hsr] using h.zName s hs
  · have hsr : s ≠ r := fun e => hgone n (e ▸ hn)
    simpa [Vfs.setFile, hsr] using h.path n s hn
  · have hsr : s ≠ r := fun e => hgone n (e ▸ hn')
    simpa [Vfs.setFile, hsr] using h.opened n s hn hn' hs ho

variable [DecidableEq Name]

theorem Kept.deletePath (h : Kept v v') (name : Name) : Kept v (v'.deletePath name) := by
  have hback : ∀ n r, (v'.deletePath name).mapPathToFile n = some r →
      v'.mapPathToFile n = some r := by
    intro n r hn
    by_cases hname : n = name
    · simp [Vfs.deletePath, hname] at hn
    · simpa [Vfs.deletePath, hname] using hn
  exact ⟨h.fresh, h.zName, fun n r hn => h.path n r (hback n r hn), h.id,
    fun n r hn hn' => h.opened n r hn (hback n r hn')⟩

/-- The record that a path has or gets. -/
theorem fileOf_kept (v : Vfs Name) (name : Name) (flags : Flags) :
    Kept v (v.fileOf name flags).2
      ∧ (v.fileOf name flags).2.mapPathToFile name = some (v.fileOf name flags).1
      ∧ (v.mapPathToFile name = some (v.fileOf name flags).1 ∨
        (v.mapPathToFile name = none ∧ (v.fileOf name flags).1 = v.fresh)) := by
  unfold Vfs.fileOf
  split
  next r hr => exact ⟨Kept.refl v, hr, .inl hr⟩
  next hnone =>
    refine ⟨⟨Nat.le_succ _, fun r hr => ?_, fun n r hn => ?_, fun _ _ h => h,
      fun n r hn _ hr ho => ?_⟩, ?_, .inr ⟨hnone, rfl⟩⟩
    · have hne : r ≠ v.fresh := Nat.ne_of_lt hr
      simp [hne]
    · by_cases hname : n = name
      · subst hname
        obtain rfl : v.fresh = r := by simpa using hn
        exact .inr ⟨rfl, Nat.lt_succ_self _, by simp [OpenFile.create]⟩
      · exact .inl (by simpa [hname] using hn)
    · have hne : r ≠ v.fresh := Nat.ne_of_lt hr
      simpa [hne] using ho
    · simp

theorem fileOf_ids (v : Vfs Name) (name : Name) (flags : Flags) :
    (v.fileOf name flags).2.mapIdToFile = v.mapIdToFile := by
  unfold Vfs.fileOf
  split <;> rfl

theorem failOpen_kept (h : Kept v v') (fileId : Nat) (path : Option Name) (e : OpenError) :
    Kept v (failOpen fileId path e v').2 ∧ (failOpen fileId path e v').1 = .cantopen := by
  have hid : Kept v ({ v' with lastError := some e }.deleteId fileId) :=
    (h.beside rfl rfl rfl rfl : Kept v { v' with lastError := some e }).deleteId fileId
  cases path with
  | none => exact ⟨hid, rfl⟩
  | some name => exact ⟨hid.deletePath name, rfl⟩

end Steps

variable [DecidableEq Name]

/-- A file has got the record of a path. -/
structure Opens (v : Vfs Name) (name : Name) (fileId r : Nat) (v' : Vfs Name) : Prop where
  /-- the maps before the file got it -/
  kept : ∃ v₁, Kept v v₁ ∧ v₁.mapPathToFile name = some r ∧ v' = v₁.setId fileId r
  had : v.mapPathToFile name = some r ∨ (v.mapPathToFile name = none ∧ r = v.fresh)
  ids : v'.mapIdToFile = Function.update v.mapIdToFile fileId (some r)

theorem opens_of_kept {v v₁ : Vfs Name} {name : Name} {flags : Flags} (fileId : Nat)
    (hkept : Kept v v₁) (hpath : v₁.mapPathToFile = (v.fileOf name flags).2.mapPathToFile)
    (hids : v₁.mapIdToFile = (v.fileOf name flags).2.mapIdToFile) :
    Opens v name fileId (v.fileOf name flags).1 (v₁.setId fileId (v.fileOf name flags).1) := by
  obtain ⟨-, hhere, hhad⟩ := fileOf_kept v name flags
  refine ⟨⟨v₁, hkept, by rw [hpath, hhere], rfl⟩, hhad, ?_⟩
  show Function.update v₁.mapIdToFile fileId _ = _
  rw [hids, fileOf_ids]

/-- The outcome of an open that has come as far as a name: it opened nothing,
or it returned `SQLITE_OK` and the file has the record of the name. -/
def OpenOutcome (v : Vfs Name) (name : Name) (fileId : Nat) (x : OpenResult × Vfs Name) : Prop :=
  (x.1.isOk = false ∧ Kept v x.2) ∨ (x.1.isOk = true ∧ ∃ r, Opens v name fileId r x.2)

theorem failOpen_outcome {v v' : Vfs Name} (h : Kept v v') (name : Name) (fileId : Nat)
    (path : Option Name) (e : OpenError) :
    OpenOutcome v name fileId (failOpen fileId path e v') := by
  obtain ⟨hkept, hrc⟩ := failOpen_kept h fileId path e
  exact .inl ⟨by rw [hrc]; rfl, hkept⟩

theorem openTemporaryHandle_kept {v v' : Vfs Name} (h : Kept v v') (name : Name) (create : Bool)
    (r : Nat) :
    Kept v (openTemporaryHandle name create r v').2
      ∧ (openTemporaryHandle name create r v').2.mapPathToFile = v'.mapPathToFile
      ∧ (openTemporaryHandle name create r v').2.mapIdToFile = v'.mapIdToFile := by
  have hset : Kept v (v'.setFile r { v'.files r with accessHandle := some .live }) :=
    h.setFile ⟨rfl, id⟩
  unfold openTemporaryHandle
  dsimp only
  split
  · exact ⟨hset, rfl, rfl⟩
  · split
    · exact ⟨hset.beside rfl rfl rfl rfl, rfl, rfl⟩
    · exact ⟨h, rfl, rfl⟩

theorem openHandle_kept {v v' : Vfs Name} (h : Kept v v') (env : OpenEnv Name) (name : Name)
    (flags : Flags) (r : Nat) :
    Kept v (openHandle env name flags r v').2
      ∧ (openHandle env name flags r v').2.mapPathToFile = v'.mapPathToFile
      ∧ (openHandle env name flags r v').2.mapIdToFile = v'.mapIdToFile := by
  unfold openHandle
  split
  · exact ⟨h.setFile ((v'.files r).openAttached_same env), rfl, rfl⟩
  · split
    · exact ⟨h, rfl, rfl⟩
    · split
      · exact openTemporaryHandle_kept h name true r
      · split
        · exact openTemporaryHandle_kept h name flags.create r
        · exact ⟨h, rfl, rfl⟩

theorem jOpenOther_outcome (env : OpenEnv Name) (name : Name) (again : Option Name) (fileId : Nat)
    (flags : Flags) (v : Vfs Name) :
    OpenOutcome v name fileId (jOpenOther env name again fileId flags v) := by
  have hkept := (fileOf_kept v name flags).1
  simp only [jOpenOther]
  obtain ⟨hopen, hpath, hids⟩ := openHandle_kept hkept env name flags (v.fileOf name flags).1
  split
  next e v₁ heq =>
    rw [heq] at hopen
    exact failOpen_outcome hopen name fileId again e
  next v₁ heq =>
    rw [heq] at hopen hpath hids
    exact .inr ⟨rfl, _, opens_of_kept fileId hopen hpath hids⟩

/-- The primary branch, when it returns `SQLITE_OK`, has found the record
closed or its own, and leaves it open. -/
theorem jOpenPrimary_outcome (name : Name) (again : Option Name) (fileId : Nat) (flags : Flags)
    (v : Vfs Name) :
    OpenOutcome v name fileId (jOpenPrimary name again fileId flags v)
      ∧ ((jOpenPrimary name again fileId flags v).1.isOk = true →
        (∀ r, v.mapPathToFile name = some r → (v.files r).opened = true →
          v.mapIdToFile fileId = some r)
        ∧ ∀ r, (jOpenPrimary name again fileId flags v).2.mapIdToFile fileId = some r →
          ((jOpenPrimary name again fileId flags v).2.files r).opened = true) := by
  have hkept := (fileOf_kept v name flags).1
  simp only [jOpenPrimary]
  split
  next hguard =>
    refine ⟨failOpen_outcome (Kept.refl v) name fileId none _, fun hok => ?_⟩
    rw [(failOpen_kept (Kept.refl v) fileId none _).2] at hok
    cases hok
  next hguard =>
    have hmine : ∀ r, v.mapPathToFile name = some r → (v.files r).opened = true →
        v.mapIdToFile fileId = some r := by
      intro r hr hopened
      by_contra hother
      exact hguard ⟨by simp [hr, OpenFile.isOpenedOrOpening, hopened], by rw [hr]; exact hother⟩
    split
    next hnull =>
      exact ⟨.inl ⟨rfl, hkept.beside rfl rfl rfl rfl⟩, fun hok => by cases hok⟩
    next e herror =>
      have hset : Kept v ((v.fileOf name flags).2.setFile (v.fileOf name flags).1
          { (v.fileOf name flags).2.files (v.fileOf name flags).1 with retryResult := .null }) :=
        hkept.setFile ⟨rfl, id⟩
      refine ⟨failOpen_outcome hset name fileId _ _, fun hok => ?_⟩
      rw [(failOpen_kept hset fileId _ _).2] at hok
      cases hok
    next hdone =>
      have hset : Kept v ((v.fileOf name flags).2.setFile (v.fileOf name flags).1
          { ((v.fileOf name flags).2.files (v.fileOf name flags).1).reset with
            retryResult := .null, opened := true }) :=
        hkept.setFile ⟨rfl, fun _ => rfl⟩
      refine ⟨.inr ⟨rfl, (v.fileOf name flags).1, opens_of_kept fileId hset rfl rfl⟩,
        fun _ => ⟨hmine, fun r hr => ?_⟩⟩
      obtain rfl : (v.fileOf name flags).1 = r := by simpa [Vfs.setId] using hr
      simp [Vfs.setId, Vfs.setFile]

section

variable {Raw : Type} (normalize : Raw → Option Name) (dbFilename : Name)

/-- **What an open can do.** -/
theorem jOpen_outcome (env : OpenEnv Name) (zName : Option Raw) (fileId : Nat) (flags : Flags)
    (v : Vfs Name) :
    ((jOpen normalize dbFilename env zName fileId flags v).1.isOk = false
        ∧ Kept v (jOpen normalize dbFilename env zName fileId flags v).2)
      ∨ ∃ name r, normalizeMemoryWriteAheadPathname normalize env.random zName = some name
        ∧ (jOpen normalize dbFilename env zName fileId flags v).1.isOk = true
        ∧ Opens v name fileId r (jOpen normalize dbFilename env zName fileId flags v).2
        ∧ (IsPrimary dbFilename flags name →
          (∀ s, v.mapPathToFile name = some s → (v.files s).opened = true →
            v.mapIdToFile fileId = some s)
          ∧ ((jOpen normalize dbFilename env zName fileId flags v).2.files r).opened = true) := by
  unfold jOpen
  split
  next hnone =>
    obtain ⟨hkept, hrc⟩ := failOpen_kept (Kept.refl v) fileId none .invalidPathname
    exact .inl ⟨by rw [hrc]; rfl, hkept⟩
  next name hname =>
    dsimp only
    split
    next hprimary =>
      obtain ⟨hout, hok⟩ := jOpenPrimary_outcome name
        (normalizeMemoryWriteAheadPathname normalize env.randomAgain zName) fileId flags v
      rcases hout with hkept | ⟨hisok, r, hopens⟩
      · exact .inl hkept
      · refine .inr ⟨name, r, hname, hisok, hopens, fun _ => ⟨(hok hisok).1, (hok hisok).2 r ?_⟩⟩
        obtain ⟨v₁, -, -, hset⟩ := hopens.kept
        rw [hset]
        simp [Vfs.setId]
    next hother =>
      rcases jOpenOther_outcome env name
        (normalizeMemoryWriteAheadPathname normalize env.randomAgain zName) fileId flags v with
        hkept | ⟨hisok, r, hopens⟩
      · exact .inl hkept
      · exact .inr ⟨name, r, hname, hisok, hopens, fun h => absurd h hother⟩

omit [DecidableEq Name] in
theorem setLocksOf_kept (fileId : Nat) (locks : LockFields) (v : Vfs Name) :
    Kept v (setLocksOf fileId locks v) := by
  unfold setLocksOf
  split
  · exact Kept.refl v
  · exact (Kept.refl v).setFile ⟨rfl, id⟩

theorem jDelete_kept (zName : Raw) (sharedFile : Bool) (v : Vfs Name) :
    Kept v (jDelete normalize zName sharedFile v) := by
  unfold jDelete
  split
  · exact (Kept.refl v).beside rfl rfl rfl rfl
  · refine Kept.deletePath ?_ _
    exact (Kept.refl v).beside rfl rfl rfl rfl

/-- A record that is closed loses its path, which is the only one it has. -/
theorem jClose_kept {v : Vfs Name}
    (hpath : ∀ n r, v.mapPathToFile n = some r → (v.files r).zName = n)
    (fileId : Nat) (threw : Option Nat) : Kept v (jClose fileId threw v) := by
  unfold jClose
  split
  next => exact Kept.refl v
  next r hr =>
    dsimp only
    split
    · have hsame := (v.files r).closeMain_same threw
      split
      · exact (Kept.refl v).setFile hsame
      · refine Kept.deleteId ?_ fileId
        split
        next hmine =>
          -- the path goes first: the two writes are to different fields
          show Kept v ((v.deletePath (v.files r).zName).setFile r _)
          refine Kept.setFile_gone ((Kept.refl v).deletePath _) hsame.1 fun n hn => ?_
          by_cases hname : n = (v.files r).zName
          · simp [Vfs.deletePath, hname] at hn
          · exact hname (hpath n r (by simpa [Vfs.deletePath, hname] using hn)).symm
        next hother =>
          refine Kept.setFile_gone (Kept.refl v) hsame.1 fun n hn => hother ?_
          rw [hpath n r hn]
          exact hn
    · refine Kept.deleteId ?_ fileId
      have hset : Kept v (v.setFile r { v.files r with accessHandle := close (v.files r).accessHandle }) :=
        (Kept.refl v).setFile ⟨rfl, id⟩
      split
      · refine Kept.deletePath ?_ _
        exact hset.beside rfl rfl rfl rfl
      · exact hset

/-- **What one step can do**: it opens nothing, or it is an open that returned
`SQLITE_OK`. -/
theorem kept_or_opens {v v' : Vfs Name} {call : Call Raw Name}
    (hpath : ∀ n r, v.mapPathToFile n = some r → (v.files r).zName = n)
    (h : step normalize dbFilename v call = some v') (mainDb : Nat → Bool) :
    (Kept v v' ∧ noteMainDb normalize dbFilename mainDb v call = mainDb)
      ∨ ∃ zName fileId flags env name r, call = .jOpen zName fileId flags env
        ∧ normalizeMemoryWriteAheadPathname normalize env.random zName = some name
        ∧ noteMainDb normalize dbFilename mainDb v call = Function.update mainDb fileId flags.mainDb
        ∧ Opens v name fileId r v'
        ∧ (IsPrimary dbFilename flags name →
          (∀ s, v.mapPathToFile name = some s → (v.files s).opened = true →
            v.mapIdToFile fileId = some s)
          ∧ (v'.files r).opened = true) := by
  cases call with
  | jOpen zName fileId flags env =>
      obtain rfl := Option.some.inj h
      rcases jOpen_outcome normalize dbFilename env zName fileId flags v with
        ⟨hno, hkept⟩ | ⟨name, r, hname, hok, hopens, hprimary⟩
      · refine .inl ⟨hkept, ?_⟩
        simp [noteMainDb, hno]
      · refine .inr ⟨zName, fileId, flags, env, name, r, rfl, hname, ?_, hopens, hprimary⟩
        simp [noteMainDb, hok]
  | retryOpen r threw =>
      refine .inl ⟨?_, rfl⟩
      simp only [step] at h
      split at h
      · obtain rfl := Option.some.inj h
        exact ((Kept.refl v).setFile ((v.files r).retryOpen_same threw)).beside rfl rfl rfl rfl
      · cases h
  | jClose fileId threw =>
      obtain rfl := Option.some.inj h
      exact .inl ⟨jClose_kept hpath fileId threw, rfl⟩
  | jDelete zName sharedFile =>
      obtain rfl := Option.some.inj h
      exact .inl ⟨jDelete_kept normalize zName sharedFile v, rfl⟩
  | lock call fileId locks =>
      obtain rfl := Option.some.inj h
      exact .inl ⟨setLocksOf_kept fileId locks v, rfl⟩
  | retryLock r locks =>
      obtain rfl := Option.some.inj h
      exact .inl ⟨(Kept.refl v).setFile ⟨rfl, id⟩, rfl⟩

/-! ## §3. The invariant. -/

/-- The file is open with `SQLITE_OPEN_MAIN_DB` and its record is `r`. -/
def OpenAsMain (x : Vfs Name × (Nat → Bool)) (fileId r : Nat) : Prop :=
  x.1.mapIdToFile fileId = some r ∧ x.2 fileId = true

/-- No two open handles of main databases share a record. -/
def NoSharing (x : Vfs Name × (Nat → Bool)) : Prop :=
  ∀ f g r, f ≠ g → OpenAsMain x f r → ¬OpenAsMain x g r

/-- An open with `SQLITE_OPEN_MAIN_DB` finds under its path no record that
another file has open as a main database, unless it is the primary database
and the file has not got this record itself. -/
def OpensApart (x : Vfs Name × (Nat → Bool)) : Call Raw Name → Prop
  | .jOpen zName fileId flags env =>
      flags.mainDb = true →
        ∀ name, normalizeMemoryWriteAheadPathname normalize env.random zName = some name →
        ∀ r, x.1.mapPathToFile name = some r → ∀ g, g ≠ fileId → OpenAsMain x g r →
          name = dbFilename ∧ x.1.mapIdToFile fileId ≠ some r
  | _ => True

structure Inv (x : Vfs Name × (Nat → Bool)) : Prop where
  path : ∀ n r, x.1.mapPathToFile n = some r → r < x.1.fresh ∧ (x.1.files r).zName = n
  id : ∀ f r, x.1.mapIdToFile f = some r → r < x.1.fresh
  /-- the guard of the primary branch sees who has its record open -/
  opened : ∀ f r, x.1.mapPathToFile dbFilename = some r → OpenAsMain x f r →
    (x.1.files r).opened = true
  apart : NoSharing x

variable {normalize dbFilename}

omit [DecidableEq Name] in
theorem Inv.kept {v v' : Vfs Name} {mainDb : Nat → Bool} (h : Inv dbFilename (v, mainDb))
    (hkept : Kept v v') : Inv dbFilename (v', mainDb) := by
  have hopen : ∀ f r, OpenAsMain (v', mainDb) f r → OpenAsMain (v, mainDb) f r :=
    fun f r hf => ⟨hkept.id f r hf.1, hf.2⟩
  refine ⟨fun n r hn => ?_, fun f r hf => ?_, fun f r hn hf => ?_, fun f g r hne hf hg => ?_⟩
  · rcases hkept.path n r hn with hold | ⟨-, hlt, hname⟩
    · obtain ⟨hlt, hname⟩ := h.path n r hold
      exact ⟨Nat.lt_of_lt_of_le hlt hkept.fresh, (hkept.zName r hlt).trans hname⟩
    · exact ⟨hlt, hname⟩
  · exact Nat.lt_of_lt_of_le (h.id f r (hkept.id f r hf)) hkept.fresh
  · have hlt : r < v.fresh := h.id f r (hopen f r hf).1
    rcases hkept.path dbFilename r hn with hold | ⟨hfresh, -, -⟩
    · exact hkept.opened dbFilename r hold hn hlt (h.opened f r hold (hopen f r hf))
    · exact absurd hlt (by rw [hfresh]; exact Nat.lt_irrefl _)
  · exact h.apart f g r hne (hopen f r hf) (hopen g r hg)

omit [DecidableEq Name] in
/-- The record of a file that opened as a main database was nobody else's. -/
theorem Inv.alone {v v' : Vfs Name} {mainDb : Nat → Bool} (h : Inv dbFilename (v, mainDb))
    {zName : Option Raw} {fileId : Nat} {flags : Flags} {env : OpenEnv Name} {name : Name} {r : Nat}
    (hok : OpensApart normalize dbFilename (v, mainDb) (.jOpen zName fileId flags env))
    (hname : normalizeMemoryWriteAheadPathname normalize env.random zName = some name)
    (hopens : Opens v name fileId r v')
    (hguard : IsPrimary dbFilename flags name → ∀ s, v.mapPathToFile name = some s →
      (v.files s).opened = true → v.mapIdToFile fileId = some s)
    (hmain : flags.mainDb = true) {g : Nat} (hne : g ≠ fileId) :
    ¬OpenAsMain (v, mainDb) g r := by
  intro hg
  rcases hopens.had with hpath | ⟨-, hfresh⟩
  · obtain ⟨hdb, hnot⟩ := hok hmain name hname r hpath g hne hg
    have hopened := h.opened g r (hdb ▸ hpath) hg
    exact hnot (hguard ⟨hmain, hdb⟩ r hpath hopened)
  · have hlt := h.id g r hg.1
    rw [hfresh] at hlt
    exact Nat.lt_irrefl _ hlt

omit [DecidableEq Name] in
theorem Inv.opens {v v' : Vfs Name} {mainDb : Nat → Bool} (h : Inv dbFilename (v, mainDb))
    {zName : Option Raw} {fileId : Nat} {flags : Flags} {env : OpenEnv Name} {name : Name} {r : Nat}
    (hok : OpensApart normalize dbFilename (v, mainDb) (.jOpen zName fileId flags env))
    (hname : normalizeMemoryWriteAheadPathname normalize env.random zName = some name)
    (hopens : Opens v name fileId r v')
    (hprimary : IsPrimary dbFilename flags name →
      (∀ s, v.mapPathToFile name = some s → (v.files s).opened = true →
        v.mapIdToFile fileId = some s)
      ∧ (v'.files r).opened = true) :
    Inv dbFilename (v', Function.update mainDb fileId flags.mainDb) := by
  obtain ⟨v₁, hkept, hpath, rfl⟩ := hopens.kept
  have h₁ : Inv dbFilename (v₁, mainDb) := h.kept hkept
  have hother : ∀ {g s}, g ≠ fileId →
      OpenAsMain (v₁.setId fileId r, Function.update mainDb fileId flags.mainDb) g s →
      OpenAsMain (v₁, mainDb) g s := by
    intro g s hne hg
    exact ⟨by simpa [Vfs.setId, hne] using hg.1, by simpa [hne] using hg.2⟩
  have hself : ∀ {s}, OpenAsMain (v₁.setId fileId r, Function.update mainDb fileId flags.mainDb)
      fileId s → r = s ∧ flags.mainDb = true := by
    intro s hs
    exact ⟨by simpa [Vfs.setId] using hs.1, by simpa using hs.2⟩
  refine ⟨h₁.path, fun f s hf => ?_, fun f s hn hf => ?_, fun f g s hne hf hg => ?_⟩
  · by_cases hfile : f = fileId
    · subst hfile
      obtain rfl : r = s := by simpa [Vfs.setId] using hf
      exact (h₁.path name r hpath).1
    · exact h₁.id f s (by simpa [Vfs.setId, hfile] using hf)
  · by_cases hfile : f = fileId
    · subst hfile
      obtain ⟨rfl, hmain⟩ := hself hf
      -- a record has one path, so this open was of the primary database
      have hdb : name = dbFilename := (h₁.path name r hpath).2.symm.trans (h₁.path _ r hn).2
      exact (hprimary ⟨hmain, hdb⟩).2
    · exact h₁.opened f s hn (hother hfile hf)
  · have halone : ∀ {k}, k ≠ fileId → flags.mainDb = true → ¬OpenAsMain (v₁, mainDb) k r := by
      intro k hk hmain hopen
      exact h.alone hok hname hopens (fun hp => (hprimary hp).1) hmain hk
        ⟨hkept.id k r hopen.1, hopen.2⟩
    by_cases hff : f = fileId
    · subst hff
      obtain ⟨rfl, hmain⟩ := hself hf
      exact halone (Ne.symm hne) hmain (hother (Ne.symm hne) hg)
    · by_cases hgf : g = fileId
      · subst hgf
        obtain ⟨rfl, hmain⟩ := hself hg
        exact halone hff hmain (hother hff hf)
      · exact h₁.apart f g s hne (hother hff hf) (hother hgf hg)

/-- **The invariant over one step.** -/
theorem Inv.step {v v' : Vfs Name} {mainDb : Nat → Bool} {call : Call Raw Name}
    (h : Inv dbFilename (v, mainDb)) (hok : OpensApart normalize dbFilename (v, mainDb) call)
    (hn : OpenFiles.step normalize dbFilename v call = some v') :
    Inv dbFilename (v', noteMainDb normalize dbFilename mainDb v call) := by
  have hpath : ∀ n r, v.mapPathToFile n = some r → (v.files r).zName = n :=
    fun n r hr => (h.path n r hr).2
  rcases kept_or_opens normalize dbFilename hpath hn mainDb with
    ⟨hkept, hnote⟩ | ⟨zName, fileId, flags, env, name, r, rfl, hname, hnote, hopens, hprimary⟩
  · rw [hnote]
    exact h.kept hkept
  · rw [hnote]
    exact h.opens hok hname hopens hprimary

theorem inv_of_reach {x : Vfs Name × (Nat → Bool)}
    (h : Reach (recordedMachine normalize dbFilename) (OpensApart normalize dbFilename) x) :
    Inv dbFilename x := by
  refine h.record_invariant (fun _ => True) (Inv dbFilename) (fun _ _ => trivial) ?_ ?_
  · rintro v ⟨hpath, hid, -⟩
    refine ⟨fun n r hn => ?_, fun f r hf => ?_, fun f r hn => ?_, fun f g r _ hf => ?_⟩
    · exact absurd hn (by simp [hpath])
    · exact absurd hf (by simp [hid])
    · exact absurd hn (by simp [hpath])
    · exact absurd hf.2 (by simp)
  · intro v mainDb call v' _ _ hinv hok hn
    exact hinv.step hok hn

/-- **An open keeps the handles apart exactly when it meets the condition.** -/
theorem ok_open_apart_iff {v : Vfs Name} {mainDb : Nat → Bool} (h : Inv dbFilename (v, mainDb))
    {zName : Option Raw} {fileId : Nat} {flags : Flags} {env : OpenEnv Name}
    (hok : (jOpen normalize dbFilename env zName fileId flags v).1.isOk = true) :
    NoSharing ((jOpen normalize dbFilename env zName fileId flags v).2,
        noteMainDb normalize dbFilename mainDb v (.jOpen zName fileId flags env))
      ↔ OpensApart normalize dbFilename (v, mainDb) (.jOpen zName fileId flags env) := by
  constructor
  · intro hapart hmain name hname r hpath g hne hg
    exfalso
    rcases jOpen_outcome normalize dbFilename env zName fileId flags v with
      ⟨hno, -⟩ | ⟨name', s, hname', -, hopens, -⟩
    · rw [hok] at hno
      cases hno
    · obtain rfl : name' = name := Option.some.inj (hname'.symm.trans hname)
      obtain rfl : s = r := by
        rcases hopens.had with hold | ⟨hnone, -⟩
        · exact Option.some.inj (hold.symm.trans hpath)
        · exact absurd (hnone.symm.trans hpath) (by simp)
      -- both files have the record after the call
      refine hapart fileId g s (Ne.symm hne) ⟨?_, ?_⟩ ⟨?_, ?_⟩
      · simp [hopens.ids]
      · simp [noteMainDb, hok, hmain]
      · rw [hopens.ids]
        simpa [hne] using hg.1
      · simpa [noteMainDb, hok, hne] using hg.2
  · intro happly
    exact (h.step happly rfl).apart

/-- A lock call or a close writes to the record of its own file only. -/
theorem isBy_frame {v v' : Vfs Name} {call : Call Raw Name} {f g r s : Nat} (hby : call.IsBy f)
    (hn : step normalize dbFilename v call = some v') (hfg : f ≠ g)
    (hf : v.mapIdToFile f = some s) (hg : v.mapIdToFile g = some r) (hrs : r ≠ s) :
    v'.mapIdToFile g = some r ∧ v'.files r = v.files r := by
  cases call with
  | lock call fileId locks =>
      obtain rfl : fileId = f := hby
      obtain rfl := Option.some.inj hn
      simp only [setLocksOf, hf]
      exact ⟨hg, by simp [Vfs.setFile, hrs]⟩
  | jClose fileId threw =>
      obtain rfl : fileId = f := hby
      obtain rfl := Option.some.inj hn
      have hkeep : ∀ (w : Vfs Name) k, ((w.setFile s k).files r) = w.files r :=
        fun w k => by simp [Vfs.setFile, hrs]
      simp only [jClose, hf]
      split
      · split
        · exact ⟨hg, hkeep v _⟩
        · split
          · exact ⟨by simpa [Vfs.deleteId, Vfs.deletePath, Vfs.setFile, hfg.symm] using hg, hkeep v _⟩
          · exact ⟨by simpa [Vfs.deleteId, Vfs.setFile, hfg.symm] using hg, hkeep v _⟩
      · split
        · exact ⟨by simpa [Vfs.deleteId, Vfs.deletePath, Vfs.setFile, hfg.symm] using hg, hkeep v _⟩
        · exact ⟨by simpa [Vfs.deleteId, Vfs.setFile, hfg.symm] using hg, hkeep v _⟩
  | jOpen | retryOpen | jDelete | retryLock => exact False.elim hby

/-! ## §4. The handles of main databases. -/

/-- No two open handles of main databases share a record, and the lock calls
and the close of one leave the record of every other as it is. -/
def HandlesApart (normalize : Raw → Option Name) (dbFilename : Name)
    (x : Vfs Name × (Nat → Bool)) : Prop :=
  NoSharing x ∧
    ∀ f g r s v' (call : Call Raw Name), f ≠ g → OpenAsMain x f s → OpenAsMain x g r →
      call.IsBy f → (machine normalize dbFilename).next x.1 call v' →
      v'.mapIdToFile g = some r ∧ v'.files r = x.1.files r

theorem main_handles_apart (normalize : Raw → Option Name) (dbFilename : Name)
    (x : Vfs Name × (Nat → Bool))
    (h : Reach (recordedMachine normalize dbFilename) (OpensApart normalize dbFilename) x) :
    HandlesApart normalize dbFilename x := by
  have hinv := inv_of_reach h
  refine ⟨hinv.apart, fun f g r s v' call hfg hf hg hby hn => ?_⟩
  have hrs : r ≠ s := by
    intro heq
    exact hinv.apart f g r hfg (heq ▸ hf) hg
  exact isBy_frame hby hn hfg hf.1 hg.1 hrs

end

/-! ## §5. Two handles of one attached database. -/

def mainDbFlags : Flags := ⟨true, false, false, false, false⟩

/-- The runtime has the file and an owner. -/
def attachedEnv : OpenEnv String := ⟨"/r", "/s", true, none, 7, 3⟩

def openMain (zName : String) (fileId : Nat) : Call String String :=
  .jOpen (some zName) fileId mainDbFlags attachedEnv

/-- An instance that has opened nothing. -/
def newVfs : Vfs String where
  files _ := .create "" mainDbFlags
  fresh := 0
  mapPathToFile _ := none
  mapIdToFile _ := none
  localFiles _ := false
  opening := []
  lastError := none

theorem newVfs_start :
    (recordedMachine (some : String → Option String) "/app.sqlite").init
      (newVfs, fun _ => false) :=
  ⟨⟨fun _ => rfl, fun _ => rfl, rfl⟩, rfl⟩

/-- The run of two opens. -/
def afterOpens (first second : String) : Vfs String × (Nat → Bool) :=
  let v₁ := (jOpen some "/app.sqlite" attachedEnv (some first) 1 mainDbFlags newVfs).2
  let v₂ := (jOpen some "/app.sqlite" attachedEnv (some second) 2 mainDbFlags v₁).2
  (v₂, noteMainDb some "/app.sqlite"
    (noteMainDb some "/app.sqlite" (fun _ => false) newVfs (openMain first 1)) v₁
    (openMain second 2))

theorem afterOpens_reach {first second : String}
    {ok : Vfs String × (Nat → Bool) → Call String String → Prop}
    (hfirst : ok (newVfs, fun _ => false) (openMain first 1))
    (hsecond : ok ((jOpen some "/app.sqlite" attachedEnv (some first) 1 mainDbFlags newVfs).2,
      noteMainDb some "/app.sqlite" (fun _ => false) newVfs (openMain first 1))
      (openMain second 2)) :
    Reach (recordedMachine some "/app.sqlite") ok (afterOpens first second) := by
  have hopened : Reach (recordedMachine some "/app.sqlite") ok
      ((jOpen some "/app.sqlite" attachedEnv (some first) 1 mainDbFlags newVfs).2,
        noteMainDb some "/app.sqlite" (fun _ => false) newVfs (openMain first 1)) :=
    .step (.init newVfs_start) hfirst ⟨rfl, rfl⟩
  exact .step hopened hsecond ⟨rfl, rfl⟩

theorem main_handles_apart_two_names :
    ∃ x : Vfs String × (Nat → Bool), OpenAsMain x 1 0 ∧ OpenAsMain x 2 1
      ∧ HandlesApart (some : String → Option String) "/app.sqlite" x := by
  refine ⟨afterOpens "/b.sqlite" "/c.sqlite", ⟨by decide, by decide⟩, ⟨by decide, by decide⟩, ?_⟩
  refine main_handles_apart some "/app.sqlite" _ (afterOpens_reach ?_ ?_)
  · intro _ name _ r hr
    exact absurd hr (by simp [newVfs])
  · intro _ name hname r hr
    obtain rfl : "/c.sqlite" = name := Option.some.inj hname
    have hnone : (jOpen some "/app.sqlite" attachedEnv (some "/b.sqlite") 1 mainDbFlags
        newVfs).2.mapPathToFile "/c.sqlite" = none := by decide
    exact absurd (hnone.symm.trans hr) (by simp)

/-- Two handles of the attached database `/b.sqlite`: closing the first closes
the access handle of the second. -/
theorem attached_handles_share :
    ∃ (x : Vfs String × (Nat → Bool)) (v' : Vfs String),
      Reach (recordedMachine some "/app.sqlite") anyStep x
      ∧ OpenAsMain x 1 0 ∧ OpenAsMain x 2 0 ∧ (x.1.files 0).accessHandle = some .live
      ∧ (machine some "/app.sqlite").next x.1 (.jClose 1 none) v'
      ∧ v'.mapIdToFile 2 = some 0 ∧ (v'.files 0).accessHandle = some .closed := by
  refine ⟨afterOpens "/b.sqlite" "/b.sqlite", jClose 1 none (afterOpens "/b.sqlite" "/b.sqlite").1,
    afterOpens_reach trivial trivial, ⟨by decide, by decide⟩, ⟨by decide, by decide⟩, by decide,
    rfl, by decide, by decide⟩

end MemoryWriteAhead.OpenFiles
