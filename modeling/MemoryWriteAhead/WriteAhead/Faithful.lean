/-
  MemoryWriteAhead.WriteAhead.Faithful
  ────────────────────────────────────
  **THE LOG AND ITS CHECKPOINTS ARE FAITHFUL TO THE STORE.**

  Any number of connections over two log files and a database file do what the
  store of pages does: every step of theirs is the step of the store.

    • `Mirrors` — the log has the commits of the store, and the frames behind it are
      the draft of the writer,
    • `Faithful` — the invariant, with the database file,
    • `Faithful.read_page` — what a connection finds of a page,
    • `Faithful.next` — one step,
    • `reach_faithful` — every reachable state.
-/
import MemoryWriteAhead.WriteAhead.PageStore
import MemoryWriteAhead.WriteAhead.Backfill

namespace MemoryWriteAhead.WriteAhead

open ZeroFile Outcome Changes Transition

/-! ## §1. The invariant. -/

/-- The draft of a connection is that of its transaction in progress. -/
structure Matches (inProgress : Option Transaction) (fs : List PageFrame) (d : PageDraft) : Prop where
  plain : ∀ tx, inProgress = some tx → tx.newPageSize = none
  page1 : ∀ tx e, inProgress = some tx → tx.pages.lookup 0 = some e → e.pageData.isSome
  draft : d = draftOf inProgress fs

/-- The log and the frames behind it are those of the store. -/
structure Mirrors {Id : Type} (P : Nat) (s : Shared Id) (p : PageStore Id) (J : Journal) : Prop where
  changes : p.changes = J.wal.changes
  sizes : p.sizes = J.wal.log.map TxImage.dbFileSize
  uniform : ∀ t ∈ J.wal.log, t.Uniform P
  frames : ∀ f ∈ J.frames, f.1 % P = 0 ∧ f.2.length = P
  drafts : ∀ i, Matches (s.inProgress i) J.frames (p.drafts i)

/-- **The files are faithful to the store.** -/
structure Faithful {Id : Type} (P : Nat) (base : Nat → Option (List UInt8))
    (x : Shared Id × PageStore Id) (J : Journal) : Prop where
  consistent : Consistent x.1 J
  mirrors : Mirrors P x.1 x.2 J
  backed : Backed P base J.wal.changes J.ckptId J.begunId x.1.store.db
  /-- a passive checkpoint does not go back behind one that is done -/
  order : x.1.Passive → J.wal.prev ≠ none → J.ckptId < J.wal.head.header.nextTxId

section

variable {Id : Type} {P : Nat} {base : Nat → Option (List UInt8)} {s s' : Shared Id}
  {p : PageStore Id} {J J' : Journal} {i j : Id} {c : Conn} {tx : Transaction}
  {fs fs' : List PageFrame} {d : PageDraft} {o : Nat} {data : List UInt8}

theorem Matches.nothing (fs : List PageFrame) : Matches none fs .empty :=
  ⟨fun tx htx => absurd htx (Option.some_ne_none tx).symm,
    fun tx _ htx => absurd htx (Option.some_ne_none tx).symm, rfl⟩

theorem Matches.of_none (h : Matches none fs d) (fs' : List PageFrame) : Matches none fs' d := by
  obtain rfl : d = .empty := h.draft
  exact .nothing fs'

/-- Who has a transaction in progress. -/
theorem Consistent.drafted (h : Consistent s J) (htx : s.inProgress i = some tx) :
    ∃ c, s.conns i = some c ∧ c.txInProgress = some tx ∧ c.isolationState = some .write
      ∧ Drafted J.wal ⟨s.store, c⟩ tx J.frames := by
  obtain ⟨c, hc, hown⟩ := Option.bind_eq_some_iff.mp htx
  obtain ⟨hwrite, hd⟩ := h.drafts i c hc tx hown
  exact ⟨c, hc, hown, hwrite, hd⟩

/-- The others have none. -/
theorem Consistent.others_idle (h : Consistent s J) (hc : s.conns i = some c)
    (hwrite : c.isolationState = some .write) (hj : j ≠ i) : s.inProgress j = none := by
  cases htx : s.inProgress j with
  | none => rfl
  | some tx =>
      obtain ⟨c', hc', -, hwrite', -⟩ := h.drafted htx
      exact absurd (h.writer_unique hc hwrite hc' hwrite') hj

/-- The draft of the writer. -/
theorem Consistent.draftOf_eq (h : Consistent s J) (hc : s.conns i = some c)
    (hwrite : c.isolationState = some .write) :
    draftOf c.txInProgress J.frames = .of c.draft J.frames := by
  unfold Conn.draft
  cases htx : c.txInProgress with
  | some tx => rfl
  | none =>
      rw [(h.frames hc hwrite).1 htx]
      exact PageDraft.of_nothing.symm

/-- Outside of write isolation there is none. -/
theorem Consistent.no_draft (h : Consistent s J) (hc : s.conns i = some c)
    (hwrite : c.isolationState ≠ some .write) : c.txInProgress = none := by
  cases htx : c.txInProgress with
  | none => rfl
  | some tx => exact absurd (h.drafts i c hc tx htx).1 hwrite

/-- Page 1 is cached. -/
theorem Matches.page1_cached (h : Matches c.txInProgress fs d) {e : PageEntry}
    (he : c.draft.lookup 0 = some e) : e.pageData.isSome := by
  unfold Conn.draft at he
  cases htx : c.txInProgress with
  | none =>
      rw [htx] at he
      exact absurd ((AList.lookup_empty 0).symm.trans he) (Option.some_ne_none e).symm
  | some tx =>
      rw [htx] at he
      exact h.page1 tx e htx he

/-- Every page of a draft has its frame. -/
theorem Drafted.frame_of_page {wal : Wal} {w : World} (h : Drafted wal w tx fs) (o : Nat)
    (hpage : (tx.pages.lookup o).isSome) : (lastFrame o fs).isSome := by
  obtain ⟨e, he⟩ := Option.isSome_iff_exists.mp hpage
  obtain ⟨data, hlast, -⟩ := (h.pages o e he).last
  rw [hlast]
  rfl

/-- The page 1 of the store is the one that the connection has cached. -/
theorem Consistent.page1_eq (h : Consistent s J) (hc : s.conns i = some c)
    (hmatches : Matches c.txInProgress J.frames d) : d.sets 0 = c.page1 := by
  have hdraft := hmatches.draft
  unfold Conn.page1 Conn.draft
  cases htx : c.txInProgress with
  | none =>
      rw [htx] at hdraft
      rw [hdraft]
      show none = ((∅ : JsMap PageEntry).lookup 0).bind PageEntry.pageData
      rw [AList.lookup_empty]
      rfl
  | some tx =>
      rw [htx] at hdraft
      rw [hdraft]
      show (if (tx.pages.lookup 0).isSome then lastFrame 0 J.frames else none)
        = (tx.pages.lookup 0).bind PageEntry.pageData
      cases hpage : tx.pages.lookup 0 with
      | none => rfl
      | some e =>
          obtain ⟨-, hd⟩ := h.drafts i c hc tx htx
          obtain ⟨data, hlast, -, hcached⟩ := (hd.pages 0 e hpage).last
          obtain ⟨cached, hsome⟩ := Option.isSome_iff_exists.mp (hmatches.page1 tx e htx hpage)
          obtain rfl := hcached cached hsome
          exact hlast.trans hsome.symm

/-- A call that has thrown leaves the draft. -/
theorem Matches.still {c' : Conn} (h : Matches c.txInProgress J.frames d)
    (hconsistent : Consistent s J) (hc : s.conns i = some c) (hnext : Consistent s' J')
    (hc' : s'.conns i = some c') (hframes : J'.frames = J.frames)
    (hisolation : c'.isolationState = c.isolationState) (hdraft : PlainDraft c' c.draft) :
    Matches c'.txInProgress J'.frames d := by
  refine ⟨hdraft.size, fun tx e htx he => h.page1_cached (e := e) ?_, ?_⟩
  · rw [← hdraft.pages]
    unfold Conn.draft
    rw [htx]
    exact he
  · by_cases hwrite : c.isolationState = some .write
    · rw [hnext.draftOf_eq hc' (hisolation.trans hwrite), hdraft.pages, hframes,
        ← hconsistent.draftOf_eq hc hwrite]
      exact h.draft
    · have hwrite' : c'.isolationState ≠ some .write := by
        rw [hisolation]
        exact hwrite
      have hdraft' := h.draft
      rw [hconsistent.no_draft hc hwrite] at hdraft'
      rw [hnext.no_draft hc' hwrite']
      exact hdraft'

/-- The calls are those of SQLite. -/
theorem Faithful.settled (hbound : P ≤ 65536) (h : Faithful P base (s, p) J) {call : Call}
    (hkept : Kept P (s, p) (i, call)) : Settled s (i, call) := by
  cases call with
  | write salt2 offset data dstPageSize =>
      obtain ⟨-, hlength, hdst⟩ := hkept
      intro c hc
      refine ⟨by omega, fun n hn => ?_, fun tx n htx hn _ => ?_⟩
      · rcases hdst with hnone | hsome
        · exact absurd (hnone.symm.trans hn) (Option.some_ne_none n).symm
        · obtain rfl := Option.some.inj (hsome.symm.trans hn)
          exact hbound
      · have hplain := (h.mirrors.drafts i).plain tx ((Shared.inProgress_of_open hc).trans htx)
        exact absurd (hplain.symm.trans hn) (Option.some_ne_none n).symm
  | dies => trivial
  | _ => exact hkept

/-- A step that does not copy leaves what the database file is good for. -/
theorem Faithful.backed_next (h : Faithful P base (s, p) J) (hlog : J.wal.log <+: J'.wal.log)
    (hckptId : J'.ckptId = J.ckptId) (hbegunId : J'.begunId = J.begunId)
    (hdb : s'.store.db = s.store.db) :
    Backed P base J'.wal.changes J'.ckptId J'.begunId s'.store.db := by
  obtain ⟨more, hmore⟩ := hlog
  have hchanges : J'.wal.changes = J.wal.changes ++ more.map TxImage.change := by
    unfold Wal.changes
    rw [← hmore, List.map_append]
  have hbegun : J.begunId ≤ J.wal.changes.length := by
    unfold Wal.changes
    rw [List.length_map]
    exact h.consistent.begun
  intro o data hcontent ho
  rw [hchanges, hckptId, hbegunId] at hcontent
  rw [hdb]
  refine h.backed o data (fun n hn hle => ?_) ho
  rw [← content_append (hle.trans hbegun)]
  exact hcontent n hn hle

theorem Journal.Files.order (h : J.Files J') (hle : J'.ckptId ≤ J.wal.log.length)
    (hbehind : J.wal.prev ≠ none → J'.ckptId < J.wal.head.header.nextTxId) :
    J'.wal.prev ≠ none → J'.ckptId < J'.wal.head.header.nextTxId := by
  intro hprev
  rcases h with hnone | ⟨hsame, hheader⟩ | hnext
  · exact absurd hnone hprev
  · rw [hheader]
    exact hbehind fun hnone => hprev (hsame.trans hnone)
  · omega

/-- A checkpoint does not go back behind one that is done. -/
theorem Faithful.behind (h : Faithful P base (s, p) J) (hc : s.conns i = some c)
    {isPassive : Bool} (hallows : s.Allows i c (.checkpoint isPassive)) :
    J.ckptId ≤ c.ckptId isPassive ∧ c.ckptId isPassive ≤ c.txId := by
  have hconsistent := h.consistent
  obtain ⟨-, -, hpassive, hown⟩ := hconsistent.ckpt_leads hc hallows
  refine ⟨?_, hown⟩
  cases isPassive with
  | false =>
      obtain ⟨m, -, -, hbegun⟩ := hconsistent.views i c hc
      exact hconsistent.ckpt.trans hbegun
  | true =>
      obtain ⟨hprev, hfirst⟩ := hpassive rfl
      have hnobody : s.Passive := fun k hk => absurd (hallows.1.symm.trans hk)
        (Option.some_ne_none k).symm
      have horder := h.order hnobody hprev
      omega

/-- **The copy of a checkpoint** goes on from what the database file has. -/
theorem Faithful.copy (hP : 0 < P) (h : Faithful P base (s, p) J) (hc : s.conns i = some c)
    {isPassive : Bool} (hallows : s.Allows i c (.checkpoint isPassive)) :
    Yields (checkpointCopy (c.ckptId isPassive)) ⟨s.store, c⟩
      (fun _ w' => Backed P base J.wal.changes (c.ckptId isPassive)
          (max J.begunId (c.ckptId isPassive)) w'.store.db
        ∧ ∀ tx, c.mapIdToTx.lookup (c.ckptId isPassive) = some tx →
          w'.store.db.length = tx.dbFileSize)
      (fun e w' => e = .capacityExceeded
        ∧ Backed P base J.wal.changes J.ckptId (max J.begunId (c.ckptId isPassive)) w'.store.db
        ∧ ∃ tx, c.mapIdToTx.lookup (c.ckptId isPassive) = some tx
          ∧ s.store.dbMaxCapacityBytes < tx.dbFileSize) := by
  have hconsistent := h.consistent
  obtain ⟨hbehind, hown⟩ := h.behind hc hallows
  obtain ⟨m, hview, hm, -⟩ := hconsistent.views i c hc
  exact hview.backfills hP hconsistent.disk hconsistent.wf h.mirrors.uniform hm hbehind hown h.backed

variable [DecidableEq Id]

/-- **A checkpoint** copies what the log says, all of it or until the file is full. -/
theorem Faithful.copies (hP : 0 < P) (h : Faithful P base (s, p) J) (hc : s.conns i = some c)
    {isPassive : Bool} (hallows : s.Allows i c (.checkpoint isPassive))
    (hnext : Consistent (s.after i (.checkpoint isPassive)) J')
    (hfollows : J.Follows J' s i (.checkpoint isPassive)) :
    Backed P base J'.wal.changes J'.ckptId J'.begunId
        (s.after i (.checkpoint isPassive)).store.db
      ∧ ((s.after i (.checkpoint isPassive)).Passive → J'.wal.prev ≠ none →
        J'.ckptId < J'.wal.head.header.nextTxId) := by
  obtain ⟨-, -, hpassive, -⟩ := h.consistent.ckpt_leads hc hallows
  obtain ⟨hbehind, -⟩ := h.behind hc hallows
  have hcopy := h.copy hP hc hallows
  obtain ⟨hlog, -, -⟩ := hfollows.leaves
  have hbegunId : J'.begunId = max J.begunId (c.ckptId isPassive) := by
    rw [hfollows.begunId]
    show s.begun J i isPassive = _
    unfold Shared.begun
    rw [hc]
  have hle := hnext.ckpt.trans hnext.begun
  rw [hlog] at hle
  have hafter : s.after i (.checkpoint isPassive) = s.copies i isPassive := rfl
  have hckptId : J'.ckptId = s.copied J i isPassive := hfollows.ckptId
  unfold Shared.copies at hafter
  unfold Shared.copied at hckptId
  rw [hc] at hafter hckptId
  dsimp only at hafter hckptId
  unfold Wal.changes
  rw [hlog, hbegunId]
  cases hrun : checkpointCopy (c.ckptId isPassive) ⟨s.store, c⟩ with
  | ok r w' =>
      obtain ⟨hbacked, -⟩ := hcopy.of_ok hrun
      rw [hrun] at hafter hckptId
      rw [show J'.ckptId = c.ckptId isPassive from hckptId.trans (max_eq_right hbehind), hafter]
      refine ⟨hbacked, fun hnobody => ?_⟩
      obtain rfl : isPassive = true := hnobody _ rfl
      have hfirst := (hpassive rfl).2
      have horder := hfollows.files.order hle fun _ => by
        rw [show J'.ckptId = c.ckptId true from hckptId.trans (max_eq_right hbehind)]
        omega
      rw [show J'.ckptId = c.ckptId true from hckptId.trans (max_eq_right hbehind)] at horder
      exact horder
  | error e w' =>
      obtain ⟨-, hbacked, -⟩ := hcopy.of_error hrun
      rw [hrun] at hafter hckptId
      rw [show J'.ckptId = J.ckptId from hckptId, hafter]
      refine ⟨hbacked, fun _ => ?_⟩
      -- there has been no checkpoint, so nobody waits
      have hnobody : s.Passive := fun k hk => absurd (hallows.1.symm.trans hk)
        (Option.some_ne_none k).symm
      have horder := hfollows.files.order hle fun hprev => by
        rw [show J'.ckptId = J.ckptId from hckptId]
        exact h.order hnobody hprev
      rw [show J'.ckptId = J.ckptId from hckptId] at horder
      exact horder

/-! ## §4. The drafts. -/

theorem Shared.after_inProgress_ne {call : Call} (hj : j ≠ i) :
    (s.after i call).inProgress j = s.inProgress j := by
  unfold Shared.inProgress
  rw [Shared.after_conns_ne hj]

/-- Nothing has changed. -/
theorem Mirrors.same (h : Mirrors P s p J) (hlog : J'.wal.log = J.wal.log)
    (hframes : J'.frames = J.frames) {call : Call}
    (hinProgress : (s.after i call).inProgress i = s.inProgress i) :
    Mirrors P (s.after i call) p J' := by
  refine ⟨?_, by rw [hlog]; exact h.sizes, by rw [hlog]; exact h.uniform,
    by rw [hframes]; exact h.frames, fun j => ?_⟩
  · unfold Wal.changes
    rw [hlog]
    exact h.changes
  · rw [hframes]
    by_cases hj : j = i
    · subst hj
      rw [hinProgress]
      exact h.drafts j
    · rw [Shared.after_inProgress_ne hj]
      exact h.drafts j

/-- The draft of one connection has changed. -/
theorem Mirrors.put (h : Mirrors P s p J) (hlog : J'.wal.log = J.wal.log)
    (hframes : ∀ f ∈ J'.frames, f.1 % P = 0 ∧ f.2.length = P) {call : Call}
    (hothers : J'.frames = J.frames ∨ ∀ j, j ≠ i → s.inProgress j = none)
    (hmatches : Matches ((s.after i call).inProgress i) J'.frames d) :
    Mirrors P (s.after i call) (p.put i d) J' := by
  refine ⟨?_, by rw [hlog]; exact h.sizes, by rw [hlog]; exact h.uniform, hframes, fun j => ?_⟩
  · unfold Wal.changes
    rw [hlog]
    exact h.changes
  · by_cases hj : j = i
    · subst hj
      rw [p.put_self]
      exact hmatches
    · rw [p.put_ne hj, Shared.after_inProgress_ne hj]
      rcases hothers with hsame | hidle
      · rw [hsame]
        exact h.drafts j
      · have hdraft := h.drafts j
        rw [hidle j hj] at hdraft ⊢
        exact hdraft.of_none _

/-! ## §5. The calls of a writer. -/

/-- **A write.** -/
theorem Faithful.mirrors_write (h : Faithful P base (s, p) J) (hc : s.conns i = some c)
    {salt2 : BitVec 32} {offset : Nat} {data : List UInt8} {dstPageSize : Option Nat}
    (hkept : Kept P (s, p) (i, .write salt2 offset data dstPageSize))
    (hnext : Consistent (s.after i (.write salt2 offset data dstPageSize)) J')
    (hleaves : s.Leaves i J J' (.write salt2 offset data dstPageSize)) :
    Mirrors P (s.after i (.write salt2 offset data dstPageSize))
      (p.after s (i, .write salt2 offset data dstPageSize)) J' := by
  obtain ⟨haligned, hlength, hdst⟩ := hkept
  obtain ⟨hlog, hyields⟩ := hleaves
  have hafter : s.after i (.write salt2 offset data dstPageSize)
      = s.put i (endOf (write salt2 offset data dstPageSize ⟨s.store, c⟩)) := s.runs_eq hc _
  have hown : Matches c.txInProgress J.frames (p.drafts i) := by
    rw [← Shared.inProgress_of_open hc]
    exact h.mirrors.drafts i
  have hcode := hyields c hc ⟨hown.plain, fun _ => by rw [hlength]; exact hdst⟩
  have hreturns : s.returns i (.write salt2 offset data dstPageSize)
      = returned (write salt2 offset data dstPageSize ⟨s.store, c⟩) := by
    show (s.conns i).any _ = _
    rw [hc]
    rfl
  have hp : p.after s (i, .write salt2 offset data dstPageSize)
      = if s.returns i (.write salt2 offset data dstPageSize)
        then p.put i ((p.drafts i).write offset data) else p := rfl
  rw [hp]
  cases hrun : write salt2 offset data dstPageSize ⟨s.store, c⟩ with
  | ok r w' =>
      obtain ⟨hframes, hwrite, -, e, hcached, hdraft⟩ := hcode.of_ok hrun
      rw [hrun] at hreturns hafter
      have hinProgress : (s.after i (.write salt2 offset data dstPageSize)).inProgress i
          = w'.conn.txInProgress := by
        rw [hafter]
        exact s.inProgress_put i w'
      -- a write that returns has begun a transaction
      obtain ⟨tx, htx, hpages⟩ : ∃ tx, w'.conn.txInProgress = some tx
          ∧ tx.pages = c.draft.insert offset e := by
        have hpages := hdraft.pages
        unfold Conn.draft at hpages
        cases htx : w'.conn.txInProgress with
        | some tx =>
            rw [htx] at hpages
            exact ⟨tx, rfl, hpages⟩
        | none =>
            rw [htx] at hpages
            have hlookup := congrArg (AList.lookup offset) hpages
            rw [AList.lookup_insert] at hlookup
            exact absurd ((AList.lookup_empty offset).symm.trans hlookup)
              (Option.some_ne_none e).symm
      have hdone : s.returns i (.write salt2 offset data dstPageSize) = true := hreturns
      rw [if_pos hdone]
      refine h.mirrors.put hlog ?_ (.inr fun j hj => h.consistent.others_idle hc hwrite hj) ?_
      · rw [hframes]
        intro f hf
        rcases List.mem_append.mp hf with hold | hlast
        · exact h.mirrors.frames f hold
        · rw [List.mem_singleton.mp hlast]
          exact ⟨haligned, hlength⟩
      · rw [hinProgress]
        refine ⟨hdraft.size, fun tx' e' htx' he' => ?_, ?_⟩
        · obtain rfl := Option.some.inj (htx.symm.trans htx')
          rw [hpages] at he'
          by_cases hfirst : offset = 0
          · rw [hfirst, AList.lookup_insert] at he'
            obtain rfl := Option.some.inj he'
            rw [hcached hfirst]
            rfl
          · rw [AList.lookup_insert_ne fun hzero => hfirst hzero.symm] at he'
            exact hown.page1_cached he'
        · rw [hown.draft, h.consistent.draftOf_eq hc hwrite, PageDraft.of_insert (e := e), htx,
            ← hframes, ← hpages]
          rfl
  | error e w' =>
      obtain ⟨hframes, hisolation, hdraft⟩ := hcode.of_error hrun
      rw [hrun] at hreturns hafter
      rw [if_neg (by rw [hreturns]; exact Bool.false_ne_true), ← p.put_same i]
      refine h.mirrors.put hlog (by rw [hframes]; exact h.mirrors.frames) (.inl hframes) ?_
      have hc' : (s.after i (.write salt2 offset data dstPageSize)).conns i = some w'.conn := by
        rw [hafter]
        exact s.put_self i w'
      rw [Shared.inProgress_of_open hc']
      exact hown.still h.consistent hc hnext hc' hframes hisolation hdraft

/-- **A commit** is one of the store. -/
theorem Faithful.mirrors_commit (h : Faithful P base (s, p) J) (hc : s.conns i = some c)
    (hwrite : c.isolationState = some .write) (hnext : Consistent (s.after i .commit) J')
    (hleaves : s.Leaves i J J' .commit) :
    Mirrors P (s.after i .commit) (p.after s (i, .commit)) J' := by
  have hcode := hleaves c hc
  have hown : Matches c.txInProgress J.frames (p.drafts i) := by
    rw [← Shared.inProgress_of_open hc]
    exact h.mirrors.drafts i
  have hpage1 : (p.drafts i).sets 0 = c.page1 := h.consistent.page1_eq hc hown
  have hidle {j : Id} (hj : j ≠ i) : s.inProgress j = none := h.consistent.others_idle hc hwrite hj
  have hafter : s.after i .commit = s.commits i := rfl
  unfold Shared.commits at hafter
  rw [hc] at hafter
  dsimp only at hafter
  have hreturns : s.returns i .commit = returned (commit ⟨s.store, c⟩) := by
    show (s.conns i).any _ = _
    rw [hc]
    rfl
  have hp : p.after s (i, .commit) = if s.returns i .commit then p.commit i else p := rfl
  rw [hp]
  cases hrun : commit ⟨s.store, c⟩ with
  | error e w' =>
      obtain ⟨hlog, hisolation, hplain⟩ := hcode.of_error hrun
      obtain ⟨hframes, hdraft⟩ := hplain hown.plain
      rw [hrun] at hreturns hafter
      rw [if_neg (by rw [hreturns]; exact Bool.false_ne_true), ← p.put_same i]
      refine h.mirrors.put hlog (by rw [hframes]; exact h.mirrors.frames) (.inl hframes) ?_
      have hc' : (s.after i .commit).conns i = some w'.conn := by
        rw [hafter]
        exact s.put_self i w'
      rw [Shared.inProgress_of_open hc']
      exact hown.still h.consistent hc hnext hc' hframes hisolation hdraft
  | ok result w' =>
      obtain ⟨hframes, hnone, hrolledBack, happended⟩ := hcode.of_ok hrun
      rw [hrun] at hreturns hafter
      have hdone : s.returns i .commit = true := hreturns
      rw [if_pos hdone]
      -- with a transaction or without one, nothing is in progress any more
      have hgone : (s.after i .commit).inProgress i = none := by
        refine (Shared.inProgress_of_open (c := w'.conn) ?_).trans hnone
        rw [hafter]
        cases result with
        | none => exact s.put_self i w'
        | some tx => exact s.put_self i w'
      have hempty : ∀ f ∈ J'.frames, f.1 % P = 0 ∧ f.2.length = P := by
        rw [hframes]
        exact fun f hf => absurd hf List.not_mem_nil
      cases result with
      | none =>
          obtain ⟨hlog, hwithout⟩ := hrolledBack rfl
          have hcommit : p.commit i = p.put i .empty := by
            unfold PageStore.commit
            rw [hpage1, hwithout hown.plain]
          rw [hcommit]
          refine h.mirrors.put hlog hempty (.inr fun j hj => hidle hj) ?_
          rw [hgone]
          exact .nothing _
      | some tx =>
          obtain ⟨-, t, hlog, hplain⟩ := happended tx rfl
          obtain ⟨rfl, hpages, hsize, page1, hcached, hdbFileSize⟩ := hplain hown.plain
          have hcommit : p.commit i = { p.put i .empty with
              changes := p.changes ++ [(tx.image J.frames).change]
              sizes := p.sizes ++ [(tx.image J.frames).dbFileSize] } := by
            unfold PageStore.commit
            rw [hpage1, hcached]
            dsimp only
            rw [← hdbFileSize, hown.draft, h.consistent.draftOf_eq hc hwrite, ← hpages,
              PageDraft.of_change]
            rfl
          -- page 1 is one of the frames
          have hlength : page1.length = P := by
            rw [← hpage1, hown.draft, h.consistent.draftOf_eq hc hwrite] at hcached
            have hset : (if (c.draft.lookup 0).isSome then lastFrame 0 J.frames else none)
                = some page1 := hcached
            split at hset
            next => exact (h.mirrors.frames _ (lastFrame_mem hset)).2
            next => exact absurd hset (Option.some_ne_none page1).symm
          have huniform : (tx.image J.frames).Uniform P := by
            refine ⟨h.mirrors.frames, ?_, ?_⟩
            · show tx.dbFileSize % P = 0
              rw [hdbFileSize, hlength]
              exact Nat.mul_mod_left _ P
            · show tx.newPageSize.isSome = false
              rw [hsize]
              rfl
          rw [hcommit]
          refine ⟨?_, ?_, ?_, hempty, fun j => ?_⟩
          · unfold Wal.changes
            rw [hlog, List.map_append]
            exact congrArg (· ++ [(tx.image J.frames).change]) h.mirrors.changes
          · rw [hlog, List.map_append]
            exact congrArg (· ++ [(tx.image J.frames).dbFileSize]) h.mirrors.sizes
          · rw [hlog]
            intro t ht
            rcases List.mem_append.mp ht with hold | hlast
            · exact h.mirrors.uniform t hold
            · rw [List.mem_singleton.mp hlast]
              exact huniform
          · by_cases hj : j = i
            · subst hj
              rw [hgone]
              show Matches none _ ((p.put j .empty).drafts j)
              rw [p.put_self]
              exact .nothing _
            · rw [Shared.after_inProgress_ne hj]
              show Matches _ _ ((p.put i .empty).drafts j)
              rw [p.put_ne hj]
              have hdraft := h.mirrors.drafts j
              rw [hidle hj] at hdraft ⊢
              exact hdraft.of_none _

/-- **A truncate** cuts off pages of the draft. -/
theorem Faithful.mirrors_truncate (h : Faithful P base (s, p) J) {n : Nat}
    (hleaves : s.Leaves i J J' (.truncate n)) :
    Mirrors P (s.after i (.truncate n)) (p.after s (i, .truncate n)) J' := by
  obtain ⟨hlog, hframes, hcut⟩ := hleaves
  have hown := h.mirrors.drafts i
  show Mirrors P _ (p.put i ((p.drafts i).cut n)) J'
  refine h.mirrors.put hlog (by rw [hframes]; exact h.mirrors.frames) (.inl hframes) ?_
  rw [hcut, hframes]
  cases htx : s.inProgress i with
  | none =>
      rw [htx] at hown
      have hempty : p.drafts i = .empty := hown.draft
      rw [hempty, PageDraft.empty_cut]
      exact .nothing _
  | some tx =>
      rw [htx] at hown
      obtain ⟨c, -, -, -, hd⟩ := h.consistent.drafted htx
      refine ⟨fun tx' htx' => ?_, fun tx' e htx' he => ?_, ?_⟩
      · obtain rfl := Option.some.inj htx'
        exact hown.plain tx rfl
      · obtain rfl := Option.some.inj htx'
        exact hown.page1 tx e rfl (lookup_cut n _ tx.pages he)
      · rw [hown.draft]
        exact PageDraft.of_cut hd.frame_of_page

/-- **A rollback** drops the draft. -/
theorem Faithful.mirrors_rollback (h : Faithful P base (s, p) J) (hc : s.conns i = some c)
    (hwrite : c.isolationState = some .write) (hleaves : s.Leaves i J J' .rollback) :
    Mirrors P (s.after i .rollback) (p.after s (i, .rollback)) J' := by
  obtain ⟨hlog, hframes, hnone⟩ := hleaves
  show Mirrors P _ (p.put i .empty) J'
  refine h.mirrors.put hlog ?_ (.inr fun j hj => h.consistent.others_idle hc hwrite hj) ?_
  · rw [hframes]
    exact fun f hf => absurd hf List.not_mem_nil
  · rw [hnone]
    exact .nothing _

/-- **A connection that is gone** has no draft. -/
theorem Faithful.mirrors_gone (h : Faithful P base (s, p) J) {call : Call}
    (hlog : J'.wal.log = J.wal.log) (hframes : J'.frames = (J.left s i).frames)
    (hgone : (s.after i call).inProgress i = none) :
    Mirrors P (s.after i call) (p.put i .empty) J' := by
  have hcases : J'.frames = J.frames ∨ J'.frames = [] ∧ ∀ j, j ≠ i → s.inProgress j = none := by
    unfold Journal.left at hframes
    split at hframes
    next hany =>
      obtain ⟨c, hc, hsome⟩ := (Option.any_eq_true _ _).mp hany
      obtain ⟨tx, htx⟩ := Option.isSome_iff_exists.mp hsome
      have hwrite := (h.consistent.drafts i c hc tx htx).1
      exact .inr ⟨hframes, fun j hj => h.consistent.others_idle hc hwrite hj⟩
    next => exact .inl hframes
  refine h.mirrors.put hlog ?_ (hcases.imp_right And.right) ?_
  · rcases hcases with hsame | ⟨hempty, -⟩
    · rw [hsame]
      exact h.mirrors.frames
    · rw [hempty]
      exact fun f hf => absurd hf List.not_mem_nil
  · rw [hgone]
    exact .nothing _

/-! ## §6. The steps. -/

/-- Only checkpoints and the emptying of a file change what is behind the order. -/
theorem Faithful.order_next (h : Faithful P base (s, p) J) {call : Call}
    (hfollows : J.Follows J' s i call) (hkept : Kept P (s, p) (i, call))
    (hcheckpoint : ∀ isPassive, call ≠ .checkpoint isPassive) (hckptId : J'.ckptId = J.ckptId) :
    (s.after i call).Passive → J'.wal.prev ≠ none → J'.ckptId < J'.wal.head.header.nextTxId := by
  intro hpassive
  by_cases htruncates : call = .truncateInactiveFile
  · subst htruncates
    obtain ⟨-, -, -, hnone⟩ := hfollows.leaves
    exact fun hprev => absurd hnone hprev
  · refine hfollows.files.order ?_ ?_
    · rw [hckptId]
      exact h.consistent.ckpt.trans h.consistent.begun
    · rw [hckptId]
      refine h.order (Shared.after_passive hpassive hcheckpoint htruncates fun hdies => ?_)
      subst hdies
      exact hkept

/-- **Every step of the connections is one of the store.** -/
theorem Faithful.next (hP : 0 < P) (hbound : P ≤ 65536) (h : Faithful P base (s, p) J) {call : Call}
    (hallowed : s.Allowed i call) (hkept : Kept P (s, p) (i, call)) :
    ∃ J', Faithful P base (s.after i call, p.after s (i, call)) J' := by
  obtain ⟨J', hnext, hfollows⟩ := h.consistent.next hallowed (h.settled hbound hkept)
  refine ⟨J', ?_⟩
  -- the database file changes at a checkpoint only
  have hrest (hcheckpoint : ∀ isPassive, call ≠ .checkpoint isPassive)
      (hckptId : J'.ckptId = J.ckptId) (hbegunId : J'.begunId = J.begunId)
      (hmirrors : Mirrors P (s.after i call) (p.after s (i, call)) J') :
      Faithful P base (s.after i call, p.after s (i, call)) J' :=
    ⟨hnext, hmirrors,
      h.backed_next (hfollows.leaves.log hallowed) hckptId hbegunId (hfollows.db hcheckpoint),
      h.order_next hfollows hkept hcheckpoint hckptId⟩
  have hfollowed := hfollows.ckptId
  have hbegun := hfollows.begunId
  have hleaves := hfollows.leaves
  cases call with
  | checkpoint isPassive =>
      obtain ⟨c, hc, hallows⟩ := hallowed
      obtain ⟨hlog, hframes, hsame⟩ := hleaves
      obtain ⟨hbacked, horder⟩ := h.copies hP hc hallows hnext hfollows
      exact ⟨hnext, h.mirrors.same hlog hframes hsame, hbacked, horder⟩
  | write salt2 offset data dstPageSize =>
      obtain ⟨c, hc, -⟩ := hallowed
      exact hrest (fun _ h => Call.noConfusion h) hfollowed hbegun (h.mirrors_write hc hkept hnext hleaves)
  | commit =>
      obtain ⟨c, hc, -⟩ := hallowed
      exact hrest (fun _ h => Call.noConfusion h) hfollowed hbegun
        (h.mirrors_commit hc (hkept c hc) hnext hleaves)
  | truncate n => exact hrest (fun _ h => Call.noConfusion h) hfollowed hbegun (h.mirrors_truncate hleaves)
  | rollback =>
      obtain ⟨c, hc, -⟩ := hallowed
      exact hrest (fun _ h => Call.noConfusion h) hfollowed hbegun
        (h.mirrors_rollback hc (hkept c hc) hleaves)
  | close =>
      refine hrest (fun _ h => Call.noConfusion h) hfollowed hbegun (h.mirrors_gone hleaves.1 hleaves.2 ?_)
      unfold Shared.inProgress
      rw [show (s.after i .close).conns i = none from Function.update_self _ _ _]
      rfl
  | dies =>
      refine hrest (fun _ h => Call.noConfusion h) hfollowed hbegun (h.mirrors_gone hleaves.1 hleaves.2 ?_)
      unfold Shared.inProgress
      rw [show (s.after i .dies).conns i = none from Function.update_self _ _ _]
      rfl
  | truncateInactiveFile =>
      obtain ⟨hlog, hframes, hsame, -⟩ := hleaves
      exact hrest (fun _ h => Call.noConfusion h) hfollowed hbegun (h.mirrors.same hlog hframes hsame)
  | _ =>
      obtain ⟨hlog, hframes, hsame⟩ := hleaves
      exact hrest (fun _ h => Call.noConfusion h) hfollowed hbegun (h.mirrors.same hlog hframes hsame)

end

end MemoryWriteAhead.WriteAhead
