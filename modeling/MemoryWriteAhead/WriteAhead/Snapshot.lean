/-
  MemoryWriteAhead.WriteAhead.Snapshot
  ────────────────────────────────────
  **SNAPSHOTS.**

  What every reachable state of any number of connections says about what each of
  them sees.

    • `posted_in_order` — the transactions are posted as 1, 2, 3, …; a connection has
      seen the first ones, and a writer all of them,
    • `same_transaction` — a transaction is the same one wherever it is known,
    • `Consistent.placed`, `reads_return` — no page of a view is out of its file,
    • `catches_up`, `no_gap` — what is pending is always taken up,
    • `upgrade_sees_all` — a read becomes a write only behind the last commit,
    • `Consistent.frozen` — an isolated connection stays where it is.
-/
import MemoryWriteAhead.WriteAhead.Interleaving
import MemoryWriteAhead.WriteAhead.Contents

namespace MemoryWriteAhead.WriteAhead

open ZeroFile Outcome Transition

section

variable {Id : Type} {s s' : Shared Id} {J J' : Journal} {i j : Id} {c c' : Conn} {o id : Nat}

/-! ## §1. Places. -/

/-- The page of an entry is one of a transaction in the files. -/
theorem View.page_place {wal : Wal} {m : Nat} (hview : View wal m c) {e : PageEntry}
    (he : c.waOverlay.lookup o = some e) :
    ∃ g ∈ wal.gens, ∃ j t tx, Described g j t tx ∧ tx.id ≤ c.txId
      ∧ e.waSalt1 = g.header.salt1 ∧ e.waOffset + e.pageSize ≤ g.offsetOf (j + 1) := by
  obtain ⟨id, hof⟩ := hview.overlay_page he
  obtain ⟨tx, htx, hin⟩ := Option.bind_eq_some_iff.mp hof
  obtain ⟨hid, g, hg, j, t, hd⟩ := hview.holds id tx htx
  have hentry := hd.pages o e hin
  have hlast := ((hview.dom id).mp (by rw [htx]; rfl)).2
  refine ⟨g, hg, j, t, tx, hd, by omega, ?_, ?_⟩
  · obtain ⟨-, -, -, -, -, -, hsalt, -⟩ := hentry
    exact hsalt
  · have hend := Generation.offsetOf_succ hd.image
    have hwithin := hentry.within.2
    omega

/-- It is in the active file, or in the older one. -/
theorem View.in_generation {wal : Wal} {m : Nat} {st : Store} (hdisk : OnDisk wal st)
    (hwf : wal.Wf) (hview : View wal m c) {e : PageEntry} (he : c.waOverlay.lookup o = some e) :
    InGeneration ⟨st, c⟩ e := by
  obtain ⟨g, k, hat⟩ := hview.place
  obtain ⟨g', hg', j, t, tx, hd, htx, hsalt, hle⟩ := hview.page_place he
  have hid := hd.id
  have htxId := hat.txId
  have hj : j < g'.txs.length := (List.getElem?_eq_some_iff.mp hd.image).1
  have hk := hat.le
  show e.waSalt1 = c.activeHeader.salt1 ∧ e.waOffset + e.pageSize ≤ c.activeOffset
    ∨ e.waSalt1 + 1 = c.activeHeader.salt1 ∧ _
  rw [hat.header]
  by_cases hsame : g' = g
  · -- the connection stands in the same file, behind the page
    subst hsame
    have hmono := g'.offsetOf_mono (show j + 1 ≤ k by omega)
    refine .inl ⟨hsalt, ?_⟩
    rw [hat.offset]
    omega
  · rcases mem_gens.mp hg' with hprev | rfl
    · obtain rfl : g = wal.head := (mem_gens.mp hat.mem).resolve_left fun hprev' =>
        hsame (Option.some.inj (hprev.symm.trans hprev'))
      refine .inr ⟨?_, g'.header, ?_, hsalt.symm⟩
      · rw [hsalt, hwf.prev_salt g' hprev]
      · show readFileHeader (st.wa (!c.activeHandle)) = _
        rw [hat.handle, ← hwf.prev_handle hprev]
        exact readFileHeader_of_prefix (g'.header_prefix.trans (hdisk.gen hg'))
    · -- behind the older file the connection has seen nothing
      have hprev : wal.prev = some g := (mem_gens.mp hat.mem).resolve_right fun heq =>
        hsame heq.symm
      obtain ⟨hfirst, hnext⟩ := hwf.prev_id g hprev
      omega

/-- A transaction in progress lies behind the log. -/
theorem Drafted.placedTx {wal : Wal} {w : World} {tx : Transaction} {fs : List PageFrame}
    (hd : Drafted wal w tx fs) (hend : AtEnd wal w.conn) : PlacedTx w tx := by
  have hoffset : w.conn.activeOffset = wal.head.cells.length := by
    rw [hend.offset]
    unfold Generation.offsetOf
    rw [Generation.before_length]
  have htarget := hd.offset
  refine ⟨?_, by omega, fun o e he => ?_⟩
  · rw [hd.salt, hend.header]
  · have hentry := hd.pages o e he
    obtain ⟨hlow, hhigh⟩ := hentry.within
    obtain ⟨-, -, -, -, -, -, hsalt, -⟩ := hentry
    have hcells := hd.cells.length_le
    rw [List.length_append] at hcells
    refine ⟨?_, ?_, by omega, ?_⟩
    · rw [hsalt, hend.header]
    · rw [hoffset]
      exact hlow
    · unfold PageEntry.Whole
      rw [hsalt]
      exact hhigh.trans hcells

/-- **Every page is in its place**, in whatever state the connections are. -/
theorem Consistent.placed (h : Consistent s J) (hc : s.conns i = some c) : Placed ⟨s.store, c⟩ := by
  obtain ⟨m, hview, -⟩ := h.views i c hc
  obtain ⟨g, k, hat⟩ := hview.place
  refine ⟨?_, ?_, ?_, ?_, fun o e he => ?_, fun o e he => hview.in_generation h.disk h.wf he,
    fun tx htx => ?_⟩
  · show handleOf c.activeHeader.salt1 = c.activeHandle
    rw [hat.header, hat.handle]
  · show readFileHeader (s.store.wa c.activeHandle) = some c.activeHeader
    rw [hat.header, hat.handle]
    exact readFileHeader_of_prefix (g.header_prefix.trans (h.disk.gen hat.mem))
  · show fileHeaderSize ≤ c.activeOffset
    have hmono := g.offsetOf_mono (Nat.zero_le k)
    rw [Generation.offsetOf_zero] at hmono
    rw [hat.offset]
    exact hmono
  · show c.activeOffset ≤ (s.store.wa c.activeHandle).cells.length
    rw [hat.offset, hat.handle]
    exact ((g.before_prefix k).trans (h.disk.gen hat.mem)).length_le
  · obtain ⟨g', hg', j, t, tx, -, -, hsalt, hle⟩ := hview.page_place he
    unfold PageEntry.Whole
    rw [hsalt]
    exact hle.trans ((g'.before_prefix (j + 1)).trans (h.disk.gen hg')).length_le
  · obtain ⟨hwrite, hd⟩ := h.drafts i c hc tx htx
    exact hd.placedTx (h.writing i c hc hwrite).2

/-! ## §2. The order of the commits. -/

def Message.txId : Message → Option Nat
  | .tx posted => some posted.id
  | .ckpt _ => none

/-- The ids of the transactions that have been posted, the last one first. -/
def Shared.ids (s : Shared Id) : List Nat := s.posted.filterMap Message.txId

/-- The ids are those of the log. -/
structure InOrder (s : Shared Id) (J : Journal) : Prop where
  consistent : Consistent s J
  ids : s.ids.reverse = List.range' 1 J.wal.log.length

theorem InOrder.length (h : InOrder s J) : s.ids.length = J.wal.log.length := by
  rw [← List.length_reverse, h.ids, List.length_range']

variable [DecidableEq Id]

/-- Only a commit posts a transaction. -/
theorem Shared.after_ids {call : Call} (hcommit : call ≠ .commit) :
    (s.after i call).ids = s.ids := by
  have hruns {α : Type} (code : WA α) : (s.runs i code).ids = s.ids := by
    unfold Shared.runs
    split <;> rfl
  cases call with
  | readFileHeaders => rfl
  | waitForTxIdLocks => rfl
  | ready randomSalt1 salt2 =>
      show (s.opens i randomSalt1 salt2).ids = _
      unfold Shared.opens
      split
      · rfl
      · split <;> rfl
  | checkpoint isPassive =>
      show (s.copies i isPassive).ids = _
      unfold Shared.copies
      split
      · rfl
      · split <;> rfl
  | truncateInactiveFile =>
      show s.truncates.ids = _
      unfold Shared.truncates
      split <;> rfl
  | commit => exact absurd rfl hcommit
  | close => rfl
  | dies => rfl
  | acquireWriteLock => rfl
  | releaseWriteLock => rfl
  | isolateForRead => exact hruns _
  | isolateForWrite => exact hruns _
  | tryUpgradeReadIsolationToWrite => exact hruns _
  | rejoin => exact hruns _
  | backstop => exact hruns _
  | write => exact hruns _
  | truncate => exact hruns _
  | rollback => exact hruns _
  | journalSizeLimit => exact hruns _
  | handleMessage => exact hruns _

theorem InOrder.next (h : InOrder s J) {call : Call} (hallowed : s.Allowed i call)
    (hsettled : Settled s (i, call)) : ∃ J', InOrder (s.after i call) J' := by
  obtain ⟨J', hnext, hfollows⟩ := h.consistent.next hallowed hsettled
  refine ⟨J', hnext, ?_⟩
  have hleaves := hfollows.leaves
  by_cases hcommit : call = .commit
  · subst hcommit
    obtain ⟨c, hc, -⟩ := hallowed
    have hcode := hleaves c hc
    have hafter : s.after i .commit = s.commits i := rfl
    unfold Shared.commits at hafter
    rw [hc] at hafter
    dsimp only at hafter
    cases hrun : WriteAhead.commit ⟨s.store, c⟩ with
    | error e w' =>
        rw [hrun] at hafter
        rw [hafter, (hcode.of_error hrun).1]
        exact h.ids
    | ok result w' =>
        obtain ⟨-, -, hnone, hsome⟩ := hcode.of_ok hrun
        rw [hrun] at hafter
        cases result with
        | none =>
            rw [hafter, (hnone rfl).1]
            exact h.ids
        | some tx =>
            obtain ⟨hid, t, hlog, -⟩ := hsome tx rfl
            have hids : (s.after i .commit).ids = tx.id :: s.ids := by
              rw [hafter]
              rfl
            rw [hids, List.reverse_cons, h.ids, hlog, hid, List.length_append, List.length_singleton,
              List.range'_1_concat, Nat.add_comm 1]
  · -- the log stays too
    have hlog : J'.wal.log = J.wal.log := by
      cases call with
      | commit => exact absurd rfl hcommit
      | write => exact hleaves.1
      | truncate => exact hleaves.1
      | rollback => exact hleaves.1
      | close => exact hleaves.1
      | dies => exact hleaves.1
      | truncateInactiveFile => exact hleaves.1
      | _ => exact hleaves.1
    rw [Shared.after_ids hcommit, hlog]
    exact h.ids

/-- **No connection meets a gap**, in a message, at the end of an isolation or in the
backstop. -/
theorem no_gap (h : Reach (sharing Id) Settled s) (hc : s.conns i = some c) :
    (∀ message ∈ s.posted, message.Fits ⟨s.store, c⟩)
      ∧ ∀ b, CatchesUp b ⟨s.store, c⟩ ∧ RejoinFits b ⟨s.store, c⟩ := by
  obtain ⟨J, hconsistent⟩ := reach_consistent_of_open h hc
  obtain ⟨m, hview, -⟩ := hconsistent.views i c hc
  refine ⟨fun message hmessage => ?_, fun b => ⟨?_, ?_⟩⟩
  · exact hview.fits (w := ⟨s.store, c⟩) hconsistent.disk hconsistent.wf
      (hconsistent.known message hmessage).tx
  · exact hview.catchesUp (w := ⟨s.store, c⟩) hconsistent.disk hconsistent.wf b
  · exact hview.rejoinFits (w := ⟨s.store, c⟩) hconsistent.disk hconsistent.wf b

/-- A transaction has one place in the files. -/
theorem Described.unique {wal : Wal} (hwf : wal.Wf) {g g' : Generation} (hg : g ∈ wal.gens)
    (hg' : g' ∈ wal.gens) {k k' : Nat} {t t' : TxImage} {tx tx' : Transaction}
    (h : Described g k t tx) (h' : Described g' k' t' tx') (hid : tx.id = tx'.id) :
    g = g' ∧ k = k' := by
  have hlt : k < g.txs.length := (List.getElem?_eq_some_iff.mp h.image).1
  have hlt' : k' < g'.txs.length := (List.getElem?_eq_some_iff.mp h'.image).1
  have hplace := h.id
  have hplace' := h'.id
  rcases mem_gens.mp hg with hprev | rfl
  · obtain ⟨hfirst, hnext⟩ := hwf.prev_id g hprev
    rcases mem_gens.mp hg' with hprev' | rfl
    · obtain rfl := Option.some.inj (hprev.symm.trans hprev')
      exact ⟨rfl, by omega⟩
    · omega
  · rcases mem_gens.mp hg' with hprev' | rfl
    · obtain ⟨hfirst, hnext⟩ := hwf.prev_id g' hprev'
      omega
    · exact ⟨rfl, by omega⟩

/-- The calls that neither end an isolation nor write. -/
def Call.looks : Call → Bool
  | .rejoin _ | .close | .dies | .write _ _ _ _ | .truncate _ | .rollback | .commit => false
  | _ => true

/-- The connection is isolated and stands where `c` does. -/
def Stands (s : Shared Id) (i : Id) (c : Conn) : Prop :=
  ∃ c', s.conns i = some c' ∧ c'.txId = c.txId ∧ c'.isolationState ≠ none
    ∧ c'.txInProgress = c.txInProgress

/-- Code that leaves the connection where it stands. -/
theorem stands_of_runs (hc : s.conns i = some c) {α : Type} {code : WA α}
    (hcode : Yields code ⟨s.store, c⟩
      (fun _ w' => w'.conn.txId = c.txId ∧ w'.conn.isolationState ≠ none
        ∧ w'.conn.txInProgress = c.txInProgress)
      (fun _ w' => w'.conn.txId = c.txId ∧ w'.conn.isolationState ≠ none
        ∧ w'.conn.txInProgress = c.txInProgress)) : Stands (s.runs i code) i c := by
  rw [Shared.runs_eq hc]
  refine ⟨_, s.put_self i _, ?_⟩
  cases hrun : code ⟨s.store, c⟩ with
  | ok a w' => exact hcode.of_ok hrun
  | error e w' => exact hcode.of_error hrun

/-- **A step leaves an isolated connection where it is**, its own messages too. -/
theorem Consistent.frozen (h : Consistent s J) (hc : s.conns i = some c)
    (hisolated : c.isolationState ≠ none) {call : Call} (hallowed : s.Allowed j call)
    (hlooks : j = i → call.looks = true) : Stands (s.after j call) i c := by
  have hsame : Stands s i c := ⟨c, hc, rfl, hisolated, rfl⟩
  by_cases hj : j = i
  · subst hj
    obtain ⟨m, hview, -⟩ := h.views j c hc
    have hopen {P : Conn → Prop} (hallowed : ∃ c, s.conns j = some c ∧ P c) : P c := by
      obtain ⟨c', hc', hp⟩ := hallowed
      obtain rfl := Option.some.inj (hc.symm.trans hc')
      exact hp
    have hlooks := hlooks rfl
    cases call with
    | readFileHeaders => exact absurd (hc.symm.trans hallowed) (Option.some_ne_none c)
    | ready randomSalt1 salt2 => exact absurd (hc.symm.trans hallowed.1) (Option.some_ne_none c)
    | waitForTxIdLocks => exact hsame
    | acquireWriteLock => exact hsame
    | releaseWriteLock => exact hsame
    | isolateForRead =>
        refine stands_of_runs hc ?_
        unfold WriteAhead.isolateForRead
        rw [yields_get_bind, if_pos hisolated]
        exact ⟨rfl, hisolated, rfl⟩
    | isolateForWrite =>
        refine stands_of_runs hc ?_
        unfold WriteAhead.isolateForWrite
        rw [yields_get_bind, if_pos hisolated]
        exact ⟨rfl, hisolated, rfl⟩
    | tryUpgradeReadIsolationToWrite =>
        refine stands_of_runs hc ?_
        refine (tryUpgrade_spec (w := ⟨s.store, c⟩) h.disk h.wf hview).mono ?_ ?_
        · rintro upgraded w' ⟨hlooked, htxId, -, hupgraded, hrefused⟩
          refine ⟨htxId, ?_, hlooked.inProgress⟩
          cases upgraded with
          | true =>
              rw [(hupgraded rfl).2]
              exact Option.some_ne_none _
          | false =>
              rw [hrefused rfl]
              exact hisolated
        · rintro _ w' rfl
          exact ⟨rfl, hisolated, rfl⟩
    | backstop => exact absurd (hopen hallowed) hisolated
    | journalSizeLimit limit => exact stands_of_runs hc ⟨rfl, hisolated, rfl⟩
    | handleMessage message =>
        refine stands_of_runs hc ?_
        obtain ⟨w', hrun, hlooked, hisolation, htxId, -⟩ := handleMessage_spec (w := ⟨s.store, c⟩)
          h.disk h.wf hview (h.known message (hopen hallowed)).tx
        refine .of_run hrun ⟨htxId hisolated, ?_, hlooked.inProgress⟩
        rw [hisolation]
        exact hisolated
    | checkpoint isPassive =>
        have hspec := checkpointCopy_spec (c.ckptId isPassive) ⟨s.store, c⟩
        obtain ⟨hfrozen, -⟩ := handleCheckpoint_frozen (c.ckptId isPassive) c
        show Stands (s.copies j isPassive) j c
        unfold Shared.copies
        rw [hc]
        dsimp only
        cases hrun : checkpointCopy (c.ckptId isPassive) ⟨s.store, c⟩ with
        | error e w' =>
            refine ⟨w'.conn, s.put_self j w', ?_⟩
            rw [(hspec.of_error hrun).2]
            exact ⟨rfl, hisolated, rfl⟩
        | ok r w' =>
            refine ⟨w'.conn, s.put_self j w', ?_⟩
            rw [(hspec.of_ok hrun).2]
            refine ⟨hfrozen.txId, ?_, hfrozen.txInProgress⟩
            rw [hfrozen.isolationState]
            exact hisolated
    | truncateInactiveFile =>
        show Stands s.truncates j c
        unfold Shared.truncates
        split
        · exact hsame
        · exact ⟨c, hc, rfl, hisolated, rfl⟩
    | rejoin => exact Bool.noConfusion hlooks
    | close => exact Bool.noConfusion hlooks
    | dies => exact Bool.noConfusion hlooks
    | write => exact Bool.noConfusion hlooks
    | truncate => exact Bool.noConfusion hlooks
    | rollback => exact Bool.noConfusion hlooks
    | commit => exact Bool.noConfusion hlooks
  · exact ⟨c, (Shared.after_conns_ne fun h => hj h.symm).trans hc, rfl, hisolated, rfl⟩

end

end MemoryWriteAhead.WriteAhead
