/-
  MemoryWriteAhead.WriteAhead.Interleaving
  ────────────────────────────────────────
  **ALL INTERLEAVINGS KEEP THE LOG.**

  Every step of every connection keeps `Consistent`, and `Journal.Follows` says
  what it does to the log and to the draft behind it.

    • `Consistent.next` — one step,
    • `reach_consistent` — every reachable state,
    • `committed`, `reading` — a run of two connections.
-/
import MemoryWriteAhead.WriteAhead.Consistency

namespace MemoryWriteAhead.WriteAhead

open ZeroFile Outcome Transition

/-! ## §1. Checkpoints. -/

section

variable {Id : Type} {s s' : Shared Id} {J J' : Journal} {i j : Id} {c : Conn}
  {w w' : World} {m : Nat}

/-- The checkpoint that has been copied waits. -/
theorem Consistent.waits (h : Consistent s J) {k : Waiting Id} (hk : s.Waits J k) :
    Consistent { s with waiting := some k } J := by
  refine ⟨h.wf, h.disk, h.past, h.ckpt, h.begun, h.views, h.writing, h.drafts, h.idle, h.known,
    fun k' hk' => ?_⟩
  obtain rfl := Option.some.inj hk'
  exact ⟨hk.leading, hk.low, hk.copied, hk.passive, hk.full⟩

/-- Where a connection leads that has its ckptId in the map, or that writes. -/
theorem Consistent.ckpt_leads (h : Consistent s J) (hc : s.conns i = some c) {isPassive : Bool}
    (hallows : s.Allows i c (.checkpoint isPassive)) :
    Leading J.wal c ∧ J.wal.head.header.nextTxId ≤ c.ckptId isPassive + 1
      ∧ (isPassive = true → J.wal.prev ≠ none ∧ J.wal.head.header.nextTxId = c.ckptId isPassive + 1)
      ∧ c.ckptId isPassive ≤ c.txId := by
  obtain ⟨-, hall, hcase⟩ := hallows
  have hown := hall i c hc
  obtain ⟨m, hview, -⟩ := h.views i c hc
  cases isPassive with
  | true =>
      rw [if_pos rfl] at hcase
      obtain ⟨hlt, hle⟩ := (hview.dom _).mp hcase
      have hlow := hview.low
      obtain ⟨g, k, hat⟩ := hview.place
      have hckptId : c.ckptId true = g.header.nextTxId - 1 := by
        unfold Conn.ckptId
        rw [if_pos rfl, hat.header]
      -- the id in front of its own file is in the map, so the other file is an older one
      rcases mem_gens.mp hat.mem with hprev | rfl
      · have hfirst := (h.wf.prev_id g hprev).1
        omega
      · refine ⟨hat.leading, by omega, fun _ => ⟨fun hnone => ?_, by omega⟩, hown⟩
        have hfirst := h.wf.head_id hnone
        omega
  | false =>
      rw [if_neg Bool.false_ne_true] at hcase
      -- a writer stands at the end of the log
      have hend := (h.writing i c hc hcase.2.1).2
      have hid := hend.txId
      refine ⟨At.leading hend, ?_, fun hpassive => Bool.noConfusion hpassive, hown⟩
      show _ ≤ c.txId + 1
      have hplace := At.txId hend
      omega

/-- How far checkpoints have been posted behind a copy. -/
def Shared.copied (s : Shared Id) (J : Journal) (i : Id) (isPassive : Bool) : Nat :=
  match s.conns i with
  | none => J.ckptId
  | some c =>
      match checkpointCopy (c.ckptId isPassive) ⟨s.store, c⟩ with
      | .ok _ _ => max J.ckptId (c.ckptId isPassive)
      | .error _ _ => J.ckptId

/-- How far one has begun to copy. -/
def Shared.begun (s : Shared Id) (J : Journal) (i : Id) (isPassive : Bool) : Nat :=
  match s.conns i with
  | none => J.begunId
  | some c => max J.begunId (c.ckptId isPassive)

/-- **The older file is emptied.** -/
theorem Consistent.truncates (h : Consistent s J) {k : Waiting Id} (hk : s.waiting = some k)
    (hleft : s.Left) : Consistent s.truncates { J with wal := J.wal.truncated } := by
  have hwaits := h.waiting k hk
  obtain ⟨c, hc, hleading, hhandle⟩ := hwaits.leading
  have hchosen : s.waiting.bind s.checkpointer = some c := by
    rw [hk]
    exact hc
  have hpast := h.wf.past_truncated
  have hlow := hwaits.low
  have hcopied := hwaits.copied
  unfold Shared.truncates
  rw [hchosen]
  dsimp only
  rw [show (endOf (truncateInactiveFile ⟨s.store, c⟩)).store = s.store.setWa (!c.activeHandle)
    (resize .zero (s.store.wa (!c.activeHandle)).cells 0) from rfl, hhandle]
  have hhead : (s.store.setWa (!handleOf J.wal.head.header.salt1)
      (resize .zero (s.store.wa (!handleOf J.wal.head.header.salt1)).cells 0)).wa
        (handleOf J.wal.head.header.salt1) = s.store.wa (handleOf J.wal.head.header.salt1) :=
    Store.setWa_other _ (Bool.not_ne_self _).symm _
  refine ⟨h.wf.truncated, h.disk.truncated, by
    show J.wal.truncated.past.length ≤ J.ckptId
    omega, h.ckpt, by
    show J.begunId ≤ J.wal.truncated.log.length
    rw [Wal.log_truncated]
    exact h.begun, ?_, ?_, ?_, h.idle, ?_, fun k' hk' => absurd hk' (Option.some_ne_none k').symm⟩
  · intro j c' hc'
    obtain ⟨m, hview, hm, hle⟩ := h.views j c' hc'
    -- no map has a transaction of the file that is emptied
    obtain ⟨hmin, hsame⟩ := hleft k hk c hc j c' hc'
    rw [hview.minTxId] at hmin
    have hsame := hsame.trans hhandle
    exact ⟨m, hview.truncated h.wf (leading_of_handle h.wf hview hsame) (by omega), hm, hle⟩
  · intro j c' hc' hwrite
    obtain ⟨hwriter, hend⟩ := h.writing j c' hc' hwrite
    exact ⟨hwriter, head_mem_gens J.wal.truncated, At.le hend, At.header hend, At.handle hend,
      At.offset hend, At.txId hend⟩
  · intro j c' hc' tx htx
    obtain ⟨hwrite, hd⟩ := h.drafts j c' hc' tx htx
    refine ⟨hwrite, ?_, hd.id, hd.salt, hd.offset, hd.wf, hd.pages, hd.target⟩
    show J.wal.head.cells ++ _ <+: ((Store.setWa _ _ _).wa (handleOf J.wal.head.header.salt1)).cells
    rw [hhead]
    exact hd.cells
  · intro message hmessage
    have hknows := h.known message hmessage
    exact ⟨hknows.tx.truncated h.wf, hknows.ckpt⟩

/-! ## §2. Calls that read. -/

/-- Nothing has happened. -/
theorem Consistent.same (h : Consistent s J) (hc : s.conns i = some c) :
    LookedOn s J i c ⟨s.store, c⟩ := by
  obtain ⟨m, hview, hm, -⟩ := h.views i c hc
  exact ⟨⟨m, ⟨rfl, hview, rfl, Nat.le_refl _, id⟩, hm⟩, h.writing i c hc, .inl⟩

variable {isPassive backstopDue : Bool} {message : Message} {limit : Int}

theorem Consistent.isolateForRead (h : Consistent s J) (hc : s.conns i = some c) :
    Yields WriteAhead.isolateForRead ⟨s.store, c⟩ (fun _ w' => LookedOn s J i c w')
      (fun _ w' => w' = ⟨s.store, c⟩) := by
  obtain ⟨m, hview, hm, -⟩ := h.views i c hc
  refine (isolateForRead_spec (w := ⟨s.store, c⟩) hview).mono ?_ fun _ _ herror => herror
  rintro _ w' ⟨hlooked, -, hread, hfree⟩
  refine ⟨⟨m, hlooked, hm⟩, fun hwrite => ?_, fun hwrite => ?_⟩
  · exact absurd (hread.symm.trans hwrite) (by simp)
  · exact absurd (hfree.symm.trans hwrite) (Option.some_ne_none _).symm

theorem Consistent.isolateForWrite (h : Consistent s J) (hc : s.conns i = some c)
    (hlock : s.writer = some i) :
    Yields WriteAhead.isolateForWrite ⟨s.store, c⟩ (fun _ w' => LookedOn s J i c w')
      (fun _ w' => w' = ⟨s.store, c⟩) := by
  obtain ⟨m, hview, hm, -⟩ := h.views i c hc
  refine (isolateForWrite_spec (w := ⟨s.store, c⟩) h.disk h.wf hview).mono ?_ fun _ _ herror => herror
  rintro _ w' ⟨hlooked, hend, -, hfree⟩
  refine ⟨⟨m, hlooked, hm⟩, fun _ => ⟨hlock, hend⟩, fun hwrite => ?_⟩
  exact absurd (hfree.symm.trans hwrite) (Option.some_ne_none _).symm

theorem Consistent.tryUpgrade (h : Consistent s J) (hc : s.conns i = some c)
    (hlock : s.writer = some i) :
    Yields tryUpgradeReadIsolationToWrite ⟨s.store, c⟩ (fun _ w' => LookedOn s J i c w')
      (fun _ w' => w' = ⟨s.store, c⟩) := by
  obtain ⟨m, hview, hm, -⟩ := h.views i c hc
  refine (tryUpgrade_spec (w := ⟨s.store, c⟩) h.disk h.wf hview).mono ?_ fun _ _ herror => herror
  rintro upgraded w' ⟨hlooked, -, hread, hupgraded, hrefused⟩
  cases upgraded with
  | true =>
      refine ⟨⟨m, hlooked, hm⟩, fun _ => ⟨hlock, (hupgraded rfl).1⟩, fun hwrite => ?_⟩
      exact absurd (hread.symm.trans hwrite) (by simp)
  | false =>
      obtain rfl := hrefused rfl
      exact h.same hc

theorem Consistent.rejoin (h : Consistent s J) (hc : s.conns i = some c)
    (hnone : c.txInProgress = none) (hfree : s.Free i) :
    Yields (WriteAhead.rejoin backstopDue) ⟨s.store, c⟩ (fun _ w' => LookedOn s J i c w')
      (fun _ w' => w' = ⟨s.store, c⟩) := by
  obtain ⟨m, hview, hm, -⟩ := h.views i c hc
  obtain ⟨w', hrun, hlooked, hout⟩ := rejoin_spec (w := ⟨s.store, c⟩) h.disk h.wf hview backstopDue
  refine .of_run hrun ⟨⟨m, hlooked, hm⟩, fun hwrite => ?_, fun _ => .inr ⟨hnone, hfree⟩⟩
  exact absurd (hout.symm.trans hwrite) (Option.some_ne_none _).symm

theorem Consistent.backstop (h : Consistent s J) (hc : s.conns i = some c)
    (hout : c.isolationState = none) :
    Yields (advanceTxId true) ⟨s.store, c⟩ (fun _ w' => LookedOn s J i c w')
      (fun _ w' => w' = ⟨s.store, c⟩) := by
  obtain ⟨m, hview, hm, -⟩ := h.views i c hc
  obtain ⟨w', hrun, hadvanced, -⟩ := advanceTxId_spec (w := ⟨s.store, c⟩) h.disk h.wf hview true
  have hout' : w'.conn.isolationState = none := hadvanced.onward.isolation.trans hout
  refine .of_run hrun ⟨⟨m, hadvanced.looked, hm⟩, fun hwrite => ?_, fun hwrite => ?_⟩
  · exact absurd (hout'.symm.trans hwrite) (Option.some_ne_none _).symm
  · exact absurd (hout.symm.trans hwrite) (Option.some_ne_none _).symm

theorem Consistent.handleMessage (h : Consistent s J) (hc : s.conns i = some c)
    (hposted : message ∈ s.posted) :
    Yields (WriteAhead.handleMessage message) ⟨s.store, c⟩ (fun _ w' => LookedOn s J i c w')
      (fun _ w' => w' = ⟨s.store, c⟩) := by
  obtain ⟨m, hview, hm, -⟩ := h.views i c hc
  have hknown := h.known message hposted
  obtain ⟨w', hrun, hlooked, hisolation, -, hend⟩ := handleMessage_spec (w := ⟨s.store, c⟩) h.disk
    h.wf hview hknown.tx
  refine .of_run hrun ⟨⟨_, hlooked, ?_⟩, fun hwrite => ?_, fun hwrite => .inl ?_⟩
  · cases message with
    | tx tx => exact hm
    | ckpt ckptId =>
        have hle := hknown.ckpt ckptId rfl
        have hlow := ckptLow_le m c.txId ckptId
        show ckptLow m c.txId ckptId ≤ J.ckptId
        omega
  · obtain ⟨hlock, hatEnd⟩ := h.writing i c hc (hisolation.symm.trans hwrite)
    exact ⟨hlock, hend hatEnd⟩
  · exact hisolation.trans hwrite

theorem Consistent.journalSizeLimit (h : Consistent s J) (hc : s.conns i = some c) :
    Yields (do
        let w ← get
        setConn { w.conn with journalSizeLimit := limit } : WA PUnit) ⟨s.store, c⟩
      (fun _ w' => LookedOn s J i c w') (fun _ w' => w' = ⟨s.store, c⟩) := by
  obtain ⟨m, hview, hm, -⟩ := h.views i c hc
  refine ⟨⟨m, ⟨rfl, hview.congr rfl rfl rfl rfl rfl rfl rfl rfl, rfl, Nat.le_refl _, id⟩, hm⟩,
    fun hwrite => ?_, .inl⟩
  obtain ⟨hlock, hend⟩ := h.writing i c hc hwrite
  exact ⟨hlock, At.congr hend rfl rfl rfl rfl⟩

/-- A write outside of write isolation does nothing. -/
theorem write_refused (hisolation : c.isolationState ≠ some .write) {salt2 : BitVec 32}
    {offset : Nat} {data : List UInt8} {dstPageSize : Option Nat} :
    write salt2 offset data dstPageSize ⟨s.store, c⟩ = .error .notWriteIsolated ⟨s.store, c⟩ := by
  unfold write
  rw [get_bind_run, if_pos hisolation]
  rfl

/-! ## §3. What a step does. -/

/-- The transaction in progress of a connection, if it is open and has one. -/
def Shared.inProgress (s : Shared Id) (i : Id) : Option Transaction :=
  (s.conns i).bind Conn.txInProgress

theorem Shared.inProgress_of_open (hc : s.conns i = some c) : s.inProgress i = c.txInProgress := by
  unfold Shared.inProgress
  rw [hc]
  rfl

variable [DecidableEq Id]

/-- **A checkpoint up to its last wait.** -/
theorem Consistent.copies (h : Consistent s J) (hc : s.conns i = some c) {isPassive : Bool}
    (hallows : s.Allows i c (.checkpoint isPassive)) :
    Consistent (s.copies i isPassive)
      { J with ckptId := s.copied J i isPassive, begunId := s.begun J i isPassive } := by
  obtain ⟨hleading, hlow, hpassive, hown⟩ := h.ckpt_leads hc hallows
  obtain ⟨m, hview, hm, hckpt⟩ := h.views i c hc
  obtain ⟨g, k, hat⟩ := hview.place
  have hlog := hat.txId_le h.wf
  -- every view is behind the ckptId
  have hbegins := h.begins (hown.trans hlog) hallows.2.1
  have hspec := checkpointCopy_spec (c.ckptId isPassive) ⟨s.store, c⟩
  unfold Shared.copies Shared.copied Shared.begun
  rw [hc]
  dsimp only
  cases hrun : checkpointCopy (c.ckptId isPassive) ⟨s.store, c⟩ with
  | error e w' =>
      obtain ⟨hwa, hconn⟩ := hspec.of_error hrun
      -- whatever of the database file has been written, the log is as it was
      have hstore := hbegins.congr_db hwa
      refine hstore.looks hc ⟨⟨m, ⟨rfl, ?_, ?_, ?_, ?_⟩, hm⟩, ?_, ?_⟩
      · rw [hconn]
        exact hview
      · rw [hconn]
      · rw [hconn]
      · rw [hconn]
        exact id
      · rw [hconn]
        exact h.writing i c hc
      · rw [hconn]
        exact .inl
  | ok _ w' =>
      obtain ⟨hwa, hconn⟩ := hspec.of_ok hrun
      obtain ⟨hview', overlay, map, count, hframe⟩ := hview.handleCheckpoint h.wf (c.ckptId isPassive)
      have hconn' : w'.conn = { c with
          waOverlay := overlay, mapIdToTx := map, approxPageCount := count } := hconn.trans hframe
      -- its transactions may be forgotten
      have hraised := (hbegins.congr_db hwa).raises (Nat.le_max_right J.begunId (c.ckptId isPassive))
      have hlooked := hraised.looks hc (show LookedOn _ _ i c w' by
        refine ⟨⟨_, ⟨rfl, ?_, ?_, ?_, ?_⟩, Nat.le_trans (ckptLow_le m c.txId (c.ckptId isPassive)) ?_⟩,
          ?_, ?_⟩
        · rw [hconn]
          exact hview'
        · rw [hconn']
        · rw [hconn']
        · rw [hconn']
          exact id
        · show max m (c.ckptId isPassive) ≤ max J.ckptId (c.ckptId isPassive)
          omega
        · rw [hconn']
          intro hwrite
          obtain ⟨hwriter, hend⟩ := h.writing i c hc hwrite
          exact ⟨hwriter, At.congr hend rfl rfl rfl rfl⟩
        · rw [hconn']
          exact .inl)
      have hknown : Journal.Knows { J with
          ckptId := max J.ckptId (c.ckptId isPassive)
          begunId := max J.begunId (c.ckptId isPassive) } (.ckpt (c.ckptId isPassive)) := by
        refine ⟨trivial, fun k hk => ?_⟩
        obtain rfl := Message.ckpt.inj hk
        exact Nat.le_max_right _ _
      have hposted := hlooked.posts hknown
      refine hposted.waits (k := ⟨i, c.ckptId isPassive, isPassive, none, false⟩)
        ⟨⟨w'.conn, Shared.put_self _ i w', ?_, ?_⟩, hlow, Nat.le_max_right _ _,
          fun h => (hpassive h).1, fun hfull => ?_⟩
      · rw [hconn']
        exact hleading
      · have hhandle := hleading.handle h.wf hview
        rw [hconn']
        exact hhandle
      · obtain rfl : isPassive = false := hfull
        obtain ⟨-, -, hcase⟩ := hallows
        rw [if_neg Bool.false_ne_true] at hcase
        refine ⟨hcase.1, rfl, fun c' hc' => ?_⟩
        have hself : (s.put i w').conns i = some w'.conn := s.put_self i w'
        obtain rfl := Option.some.inj (hself.symm.trans hc')
        rw [hconn']
        exact hcase.2

theorem Shared.inProgress_put (s : Shared Id) (i : Id) (w : World) :
    (s.put i w).inProgress i = w.conn.txInProgress := Shared.inProgress_of_open (s.put_self i w)

theorem Shared.runs_eq {α : Type} (hc : s.conns i = some c) (code : WA α) :
    s.runs i code = s.put i (endOf (code ⟨s.store, c⟩)) := by
  unfold Shared.runs
  rw [hc]

/-- Code of one connection leaves the others and the checkpoint that waits. -/
theorem Shared.runs_frame {α : Type} (s : Shared Id) (i : Id) (code : WA α) :
    (∀ j, j ≠ i → (s.runs i code).conns j = s.conns j) ∧ (s.runs i code).waiting = s.waiting := by
  unfold Shared.runs
  split
  · exact ⟨fun _ _ => rfl, rfl⟩
  · exact ⟨fun j hj => s.put_ne hj _, rfl⟩

theorem Shared.commits_frame (s : Shared Id) (i : Id) :
    (∀ j, j ≠ i → (s.commits i).conns j = s.conns j) ∧ (s.commits i).waiting = s.waiting := by
  unfold Shared.commits
  split
  · exact ⟨fun _ _ => rfl, rfl⟩
  · split <;> exact ⟨fun j hj => s.put_ne hj _, rfl⟩

theorem Shared.opens_frame (s : Shared Id) (i : Id) (randomSalt1 salt2 : BitVec 32) :
    (∀ j, j ≠ i → (s.opens i randomSalt1 salt2).conns j = s.conns j)
      ∧ (s.opens i randomSalt1 salt2).waiting = s.waiting := by
  unfold Shared.opens
  split
  · exact ⟨fun _ _ => rfl, rfl⟩
  · split
    · exact ⟨fun j hj => s.put_ne hj _, rfl⟩
    · exact ⟨fun _ _ => rfl, rfl⟩

/-- **A step leaves the other connections as they are.** -/
theorem Shared.after_conns_ne {call : Call} (hj : j ≠ i) :
    (s.after i call).conns j = s.conns j := by
  cases call with
  | readFileHeaders => rfl
  | ready randomSalt1 salt2 => exact (s.opens_frame i randomSalt1 salt2).1 j hj
  | close => exact Function.update_of_ne hj _ _
  | dies => exact Function.update_of_ne hj _ _
  | acquireWriteLock => rfl
  | releaseWriteLock => rfl
  | isolateForRead => exact (s.runs_frame i _).1 j hj
  | isolateForWrite => exact (s.runs_frame i _).1 j hj
  | tryUpgradeReadIsolationToWrite => exact (s.runs_frame i _).1 j hj
  | rejoin => exact (s.runs_frame i _).1 j hj
  | backstop => exact (s.runs_frame i _).1 j hj
  | write => exact (s.runs_frame i _).1 j hj
  | truncate => exact (s.runs_frame i _).1 j hj
  | rollback => exact (s.runs_frame i _).1 j hj
  | commit => exact (s.commits_frame i).1 j hj
  | journalSizeLimit => exact (s.runs_frame i _).1 j hj
  | handleMessage => exact (s.runs_frame i _).1 j hj
  | checkpoint isPassive =>
      show (s.copies i isPassive).conns j = _
      unfold Shared.copies
      split
      · rfl
      · split <;> exact s.put_ne hj _
  | waitForTxIdLocks => rfl
  | truncateInactiveFile =>
      show s.truncates.conns j = _
      unfold Shared.truncates
      split <;> rfl

/-- No checkpoint waits that is not passive. -/
def Shared.Passive (s : Shared Id) : Prop := ∀ k, s.waiting = some k → k.isPassive = true

/-- One that waited does so still, except where it is given up or done. -/
theorem Shared.after_passive {call : Call} (h : (s.after i call).Passive)
    (hcheckpoint : ∀ isPassive, call ≠ .checkpoint isPassive)
    (htruncates : call ≠ .truncateInactiveFile) (hdies : call = .dies → s.Free i) : s.Passive := by
  have hsame (hwaiting : (s.after i call).waiting = s.waiting) : s.Passive := by
    unfold Shared.Passive
    rw [← hwaiting]
    exact h
  cases call with
  | readFileHeaders => exact hsame rfl
  | ready randomSalt1 salt2 => exact hsame (s.opens_frame i randomSalt1 salt2).2
  | close =>
      intro k hk
      have hgoes := h (if k.conn = i ∧ k.closed.isNone = true then { k with closed := s.conns i } else k)
        (by show s.waiting.map _ = _; rw [hk]; rfl)
      split at hgoes <;> exact hgoes
  | dies =>
      intro k hk
      by_cases hmine : k.conn = i ∧ k.closed.isNone = true
      · exact hdies rfl k hk hmine.1
      · refine h k ?_
        show s.waiting.filter _ = some k
        rw [hk, Option.filter_some, if_pos (decide_eq_true hmine)]
  | acquireWriteLock => exact hsame rfl
  | releaseWriteLock => exact hsame rfl
  | isolateForRead => exact hsame (s.runs_frame i _).2
  | isolateForWrite => exact hsame (s.runs_frame i _).2
  | tryUpgradeReadIsolationToWrite => exact hsame (s.runs_frame i _).2
  | rejoin => exact hsame (s.runs_frame i _).2
  | backstop => exact hsame (s.runs_frame i _).2
  | write => exact hsame (s.runs_frame i _).2
  | truncate => exact hsame (s.runs_frame i _).2
  | rollback => exact hsame (s.runs_frame i _).2
  | commit => exact hsame (s.commits_frame i).2
  | journalSizeLimit => exact hsame (s.runs_frame i _).2
  | handleMessage => exact hsame (s.runs_frame i _).2
  | checkpoint isPassive => exact absurd rfl (hcheckpoint isPassive)
  | waitForTxIdLocks =>
      intro k hk
      refine h { k with released := true } ?_
      show s.waiting.map _ = _
      rw [hk]
      rfl
  | truncateInactiveFile => exact absurd rfl htruncates

/-- The log stays in its files, or goes on in another one, or there is one file left. -/
def Journal.Files (J J' : Journal) : Prop :=
  J'.wal.prev = none ∨ (J'.wal.prev = J.wal.prev ∧ J'.wal.head.header = J.wal.head.header)
    ∨ J.wal.log.length < J'.wal.head.header.nextTxId

/-- What a call leaves of the log, of the frames behind it and of the connection's draft. -/
def Shared.Leaves (s : Shared Id) (i : Id) (J J' : Journal) : Call → Prop
  | .write salt2 offset data dstPageSize => J'.wal.log = J.wal.log
      ∧ ∀ c, s.conns i = some c → PlainWrite ⟨s.store, c⟩ data dstPageSize →
        Yields (WriteAhead.write salt2 offset data dstPageSize) ⟨s.store, c⟩
          (fun _ w' => J'.frames = J.frames ++ [(offset, data)]
            ∧ c.isolationState = some .write ∧ w'.conn.isolationState = some .write
            ∧ ∃ e, (offset = 0 → e.pageData = some data)
              ∧ PlainDraft w'.conn (c.draft.insert offset e))
          (fun _ w' => J'.frames = J.frames ∧ w'.conn.isolationState = c.isolationState
            ∧ PlainDraft w'.conn c.draft)
  | .truncate newSize => J'.wal.log = J.wal.log ∧ J'.frames = J.frames
      ∧ (s.after i (.truncate newSize)).inProgress i
        = (s.inProgress i).map (Transaction.cut newSize)
  | .rollback => J'.wal.log = J.wal.log ∧ J'.frames = []
      ∧ (s.after i .rollback).inProgress i = none
  | .commit => ∀ c, s.conns i = some c →
      Yields WriteAhead.commit ⟨s.store, c⟩
        (fun result w' => J'.frames = [] ∧ w'.conn.txInProgress = none
          ∧ (result = none → J'.wal.log = J.wal.log ∧ (c.Plain → c.page1 = none))
          ∧ ∀ tx, result = some tx → tx.id = J.wal.log.length + 1
            ∧ ∃ t, J'.wal.log = J.wal.log ++ [t] ∧ (c.Plain → t = tx.image J.frames ∧ tx.pages = c.draft
              ∧ tx.newPageSize = none ∧ ∃ page1, c.page1 = some page1
                ∧ tx.dbFileSize = getUint32 page1 28 * page1.length))
        (fun _ w' => J'.wal.log = J.wal.log ∧ w'.conn.isolationState = c.isolationState
          ∧ (c.Plain → J'.frames = J.frames ∧ PlainDraft w'.conn c.draft))
  | .close | .dies => J'.wal.log = J.wal.log ∧ J'.frames = (J.left s i).frames
  | .truncateInactiveFile => J'.wal.log = J.wal.log ∧ J'.frames = J.frames
      ∧ (s.after i .truncateInactiveFile).inProgress i = s.inProgress i ∧ J'.wal.prev = none
  | call => J'.wal.log = J.wal.log ∧ J'.frames = J.frames
      ∧ (s.after i call).inProgress i = s.inProgress i

/-- How far checkpoints have been posted behind a call. -/
def Shared.ckptAfter (s : Shared Id) (J : Journal) (i : Id) : Call → Nat
  | .checkpoint isPassive => s.copied J i isPassive
  | _ => J.ckptId

def Shared.begunAfter (s : Shared Id) (J : Journal) (i : Id) : Call → Nat
  | .checkpoint isPassive => s.begun J i isPassive
  | _ => J.begunId

structure Journal.Follows (J J' : Journal) (s : Shared Id) (i : Id) (call : Call) : Prop where
  files : J.Files J'
  ckptId : J'.ckptId = s.ckptAfter J i call
  begunId : J'.begunId = s.begunAfter J i call
  leaves : s.Leaves i J J' call
  db : (∀ isPassive, call ≠ .checkpoint isPassive) → (s.after i call).store.db = s.store.db

theorem Journal.Files.refl (J : Journal) : J.Files J := .inr (.inl ⟨rfl, rfl⟩)

theorem Extends.journal {wal' : Wal} {frames : List PageFrame} {ckptId begunId : Nat}
    (h : Extends J.wal wal') : J.Files ⟨wal', frames, ckptId, begunId⟩ :=
  .inr (h.files.imp id And.right)

/-! ## §4. The steps. -/

/-- **Code that reads.** -/
theorem Consistent.reads (h : Consistent s J) (hc : s.conns i = some c) {α : Type} {code : WA α}
    (hcode : Yields code ⟨s.store, c⟩ (fun _ w' => LookedOn s J i c w')
      (fun _ w' => w' = ⟨s.store, c⟩)) :
    Consistent (s.runs i code) J ∧ (s.runs i code).inProgress i = s.inProgress i
      ∧ (s.runs i code).store.db = s.store.db := by
  rw [Shared.runs_eq hc]
  have hlook : LookedOn s J i c (endOf (code ⟨s.store, c⟩)) := by
    cases hrun : code ⟨s.store, c⟩ with
    | ok _ w' => exact hcode.of_ok hrun
    | error _ w' =>
        obtain rfl := hcode.of_error hrun
        exact h.same hc
  obtain ⟨m, hlooked, -⟩ := hlook.looked
  refine ⟨h.looks hc hlook, ?_, ?_⟩
  · rw [s.inProgress_put, Shared.inProgress_of_open hc]
    exact hlooked.inProgress
  · rw [s.put_store, hlooked.store]

/-- **A write.** -/
theorem Consistent.next_write (h : Consistent s J) (hc : s.conns i = some c) (hfree : s.Free i)
    {salt2 : BitVec 32} {offset : Nat} {data : List UInt8} {dstPageSize : Option Nat}
    (hfits : WriteFits ⟨s.store, c⟩ data dstPageSize) :
    ∃ J', Consistent (s.after i (.write salt2 offset data dstPageSize)) J'
      ∧ J.Follows J' s i (.write salt2 offset data dstPageSize) := by
  have hafter : s.after i (.write salt2 offset data dstPageSize)
      = s.put i (endOf (write salt2 offset data dstPageSize ⟨s.store, c⟩)) := s.runs_eq hc _
  rw [hafter]
  by_cases hwrite : c.isolationState = some .write
  · obtain ⟨m, hwriter, hm⟩ := h.writer hc hwrite
    have hspec := write_spec hwriter (h.frames hc hwrite) salt2 offset hfits
    -- with the log that the write leaves, and its frames
    have hnext {w' : World} {wal' : Wal} {fs' : List PageFrame} (hrecut : Recut J.wal wal')
        (hwrote : Wrote wal' m ⟨s.store, c⟩ fs' w')
        (hend : endOf (write salt2 offset data dstPageSize ⟨s.store, c⟩) = w')
        (hleaves : s.Leaves i J ⟨wal', fs', J.ckptId, J.begunId⟩
          (.write salt2 offset data dstPageSize)) :
        ∃ J', Consistent (s.put i w') J' ∧ J.Follows J' s i (.write salt2 offset data dstPageSize) := by
      refine ⟨_, h.writes hc hwrite hfree hrecut.extends_ hm hwrote, hrecut.extends_.journal, rfl,
        rfl, hleaves, fun _ => ?_⟩
      rw [hafter, hend]
      exact hwrote.held.db
    cases hrun : write salt2 offset data dstPageSize ⟨s.store, c⟩ with
    | ok r w' =>
        obtain ⟨fs', ⟨wal', hrecut, hwrote⟩, hplain⟩ := hspec.of_ok hrun
        refine hnext hrecut hwrote (by rw [hrun]) ⟨hrecut.log, fun c' hc' hfit => ?_⟩
        obtain rfl := Option.some.inj (hc.symm.trans hc')
        obtain ⟨hfs, hdraft⟩ := hplain hwrite hfit
        exact .of_run hrun ⟨hfs, hwrite, hwrote.held.isolation.trans hwrite, hdraft⟩
    | error e w' =>
        obtain ⟨fs', ⟨wal', hrecut, hwrote⟩, hplain⟩ := hspec.of_error hrun
        refine hnext hrecut hwrote (by rw [hrun]) ⟨hrecut.log, fun c' hc' hfit => ?_⟩
        obtain rfl := Option.some.inj (hc.symm.trans hc')
        obtain ⟨hfs, hdraft⟩ := hplain hfit
        unfold Yields
        rw [hrun]
        exact ⟨hfs, hwrote.held.isolation, hdraft⟩
  · rw [write_refused hwrite] at hafter ⊢
    refine ⟨J, h.looks hc (h.same hc), .refl J, rfl, rfl, ⟨rfl, fun c' hc' hfit => ?_⟩, fun _ => ?_⟩
    · obtain rfl := Option.some.inj (hc.symm.trans hc')
      unfold Yields
      rw [write_refused hwrite]
      exact ⟨rfl, rfl, rfl, hfit.1⟩
    · rw [hafter]
      rfl

/-- **A truncate and a rollback.** -/
theorem Consistent.next_truncate (h : Consistent s J) (hc : s.conns i = some c)
    (hwrite : c.isolationState = some .write) (hfree : s.Free i) (newSize : Nat) :
    ∃ J', Consistent (s.after i (.truncate newSize)) J' ∧ J.Follows J' s i (.truncate newSize) := by
  obtain ⟨m, hwriter, hm⟩ := h.writer hc hwrite
  obtain ⟨w', hrun, hwrote, hcut⟩ := truncate_spec hwriter (h.frames hc hwrite) newSize
  have hafter : s.after i (.truncate newSize) = s.put i w' := by
    show s.runs i (truncate newSize) = _
    rw [Shared.runs_eq hc, hrun]
    rfl
  rw [hafter]
  refine ⟨_, h.writes hc hwrite hfree (.refl _) hm hwrote, .refl J, rfl, rfl, ⟨rfl, rfl, ?_⟩,
    fun _ => ?_⟩
  · rw [hafter, s.inProgress_put, Shared.inProgress_of_open hc]
    exact hcut
  · rw [hafter]
    exact hwrote.held.db

theorem Consistent.next_rollback (h : Consistent s J) (hc : s.conns i = some c)
    (hwrite : c.isolationState = some .write) (hfree : s.Free i) :
    ∃ J', Consistent (s.after i .rollback) J' ∧ J.Follows J' s i .rollback := by
  obtain ⟨m, hwriter, hm⟩ := h.writer hc hwrite
  obtain ⟨w', hrun, hwrote, hnone⟩ := rollback_spec hwriter
  have hafter : s.after i .rollback = s.put i w' := by
    show s.runs i rollback = _
    rw [Shared.runs_eq hc, hrun]
    rfl
  rw [hafter]
  refine ⟨_, h.writes hc hwrite hfree (.refl _) hm hwrote, .refl J, rfl, rfl, ⟨rfl, rfl, ?_⟩,
    fun _ => ?_⟩
  · rw [hafter, s.inProgress_put]
    exact hnone
  · rw [hafter]
    exact hwrote.held.db

/-- **A commit** makes the log longer, or leaves it. -/
theorem Consistent.next_commit (h : Consistent s J) (hc : s.conns i = some c)
    (hwrite : c.isolationState = some .write) (hfree : s.Free i) :
    ∃ J', Consistent (s.after i .commit) J' ∧ J.Follows J' s i .commit := by
  obtain ⟨m, hwriter, hm⟩ := h.writer hc hwrite
  have hspec := commit_spec hwriter (h.frames hc hwrite)
  have hdb (w' : World) (hheld : Held ⟨s.store, c⟩ w')
      (hend : endOf (commit ⟨s.store, c⟩) = w') : (s.commits i).store.db = s.store.db := by
    unfold Shared.commits
    rw [hc]
    dsimp only
    cases hrun : commit ⟨s.store, c⟩ with
    | error e w₁ =>
        rw [hrun] at hend
        obtain rfl : w₁ = w' := hend
        exact hheld.db
    | ok result w₁ =>
        rw [hrun] at hend
        obtain rfl : w₁ = w' := hend
        cases result with
        | none => exact hheld.db
        | some tx => exact hheld.db
  show ∃ J', Consistent (s.commits i) J' ∧ _
  cases hrun : commit ⟨s.store, c⟩ with
  | error e w' =>
      obtain ⟨fs', hwrote, hplain⟩ := hspec.of_error hrun
      have hafter : s.commits i = s.put i w' := by
        unfold Shared.commits
        rw [hc]
        dsimp only
        rw [hrun]
      rw [hafter]
      refine ⟨_, h.writes hc hwrite hfree (.refl _) hm hwrote, .refl J, rfl, rfl, fun c' hc' => ?_,
        fun _ => hdb w' hwrote.held (by rw [hrun]; rfl)⟩
      obtain rfl := Option.some.inj (hc.symm.trans hc')
      unfold Yields
      rw [hrun]
      exact ⟨rfl, hwrote.held.isolation, hplain⟩
  | ok result w' =>
      obtain ⟨hcommitted, hplain⟩ := hspec.of_ok hrun
      have hdb' := hdb w' hcommitted.held (by rw [hrun]; rfl)
      cases result with
      | none =>
          have hafter : s.commits i = s.put i w' := by
            unfold Shared.commits
            rw [hc]
            dsimp only
            rw [hrun]
          rw [hafter]
          have hwrote : Wrote J.wal m ⟨s.store, c⟩ [] w' :=
            ⟨hcommitted.rolledBack rfl, hcommitted.held, .nothing hcommitted.none_⟩
          refine ⟨_, h.writes hc hwrite hfree (.refl _) hm hwrote, .refl J, rfl, rfl, fun c' hc' => ?_,
            fun _ => hdb'⟩
          obtain rfl := Option.some.inj (hc.symm.trans hc')
          exact .of_run hrun ⟨rfl, hcommitted.none_,
            fun _ => ⟨rfl, fun hsize => (hplain hsize).rolledBack rfl⟩,
            fun tx htx => absurd htx (Option.some_ne_none tx).symm⟩
      | some tx =>
          have hafter : s.commits i = { s.put i w' with posted := .tx tx :: s.posted } := by
            unfold Shared.commits
            rw [hc]
            dsimp only
            rw [hrun]
          rw [hafter]
          -- the transaction as it stands in the file
          obtain ⟨t, hwriter', hholds, himage⟩ : ∃ t, Writer (J.wal.append t) m w'
              ∧ (J.wal.append t).Holds tx
              ∧ (c.Plain → t = tx.image J.frames ∧ tx.pages = c.draft
                ∧ tx.newPageSize = none ∧ ∃ page1, c.page1 = some page1
                  ∧ tx.dbFileSize = getUint32 page1 28 * page1.length) := by
            by_cases hsize : c.Plain
            · obtain ⟨hwriter', hholds, hpages, hsame⟩ := (hplain hsize).appended tx rfl
              exact ⟨_, hwriter', hholds,
                fun _ => ⟨rfl, hpages, hsame, (hplain hsize).size tx rfl⟩⟩
            · obtain ⟨t, hwriter', hholds, -⟩ := hcommitted.appended tx rfl
              exact ⟨t, hwriter', hholds, fun h => absurd h hsize⟩
          have hwrote : Wrote (J.wal.append t) m ⟨s.store, c⟩ [] w' :=
            ⟨hwriter', hcommitted.held, .nothing hcommitted.none_⟩
          have hext := Extends.append J.wal t
          have hnext := h.writes hc hwrite hfree hext hm hwrote
          have hnever : ∀ k, Message.tx tx = .ckpt k → k ≤ J.ckptId := fun k hk =>
            Message.noConfusion hk
          refine ⟨_, hnext.posts ⟨.inr hholds, hnever⟩, hext.journal, rfl, rfl,
            fun c' hc' => ?_, fun _ => hdb'⟩
          obtain rfl := Option.some.inj (hc.symm.trans hc')
          refine .of_run hrun ⟨rfl, hcommitted.none_, fun hr => absurd hr (Option.some_ne_none tx),
            fun tx' htx' => ?_⟩
          obtain rfl := Option.some.inj htx'
          obtain ⟨-, -, -, hid, -⟩ := hcommitted.appended tx rfl
          exact ⟨hid, t, J.wal.log_append t, himage⟩

/-- A call that reads. -/
theorem Consistent.next_reads (h : Consistent s J) (hc : s.conns i = some c) {call : Call} {α : Type}
    {code : WA α} (hafter : s.after i call = s.runs i code)
    (hcode : Yields code ⟨s.store, c⟩ (fun _ w' => LookedOn s J i c w')
      (fun _ w' => w' = ⟨s.store, c⟩))
    (hleaves : (s.after i call).inProgress i = s.inProgress i → s.Leaves i J J call)
    (hckptId : s.ckptAfter J i call = J.ckptId) (hbegunId : s.begunAfter J i call = J.begunId) :
    ∃ J', Consistent (s.after i call) J' ∧ J.Follows J' s i call := by
  obtain ⟨hconsistent, hdraft, hdb⟩ := h.reads hc hcode
  rw [← hafter] at hconsistent hdraft hdb
  exact ⟨J, hconsistent, .refl J, hckptId.symm, hbegunId.symm, hleaves hdraft, fun _ => hdb⟩

/-- The rest of the initialization, behind the headers as they are. -/
theorem Shared.opens_eq (hfound : s.opening i = some s.store.firstHeader)
    (randomSalt1 salt2 : BitVec 32) :
    s.opens i randomSalt1 salt2 = match ready randomSalt1 salt2 ⟨s.store, .initial⟩ with
      | .ok _ w => { s.put i w with opening := Function.update s.opening i none }
      | .error _ w => { s with store := w.store, opening := Function.update s.opening i none } := by
  unfold Shared.opens
  rw [hfound]
  rfl

/-- **A connection is opened** on files that are in use. -/
theorem Consistent.next_ready (h : Consistent s J) (hnew : s.conns i = none)
    (hfound : s.opening i = some s.store.firstHeader) (randomSalt1 salt2 : BitVec 32) :
    ∃ J', Consistent (s.after i (.ready randomSalt1 salt2)) J'
      ∧ J.Follows J' s i (.ready randomSalt1 salt2) := by
  obtain ⟨w', hrun, hopened⟩ := ready_spec h.disk h.wf randomSalt1 salt2
  have hafter : s.after i (.ready randomSalt1 salt2)
      = { s.put i w' with opening := Function.update s.opening i none } := by
    show s.opens i randomSalt1 salt2 = _
    rw [Shared.opens_eq hfound, hrun]
  rw [hafter]
  refine ⟨J, (h.opens hnew hopened).congr_opening _, .refl J, rfl, rfl, ⟨rfl, rfl, ?_⟩, fun _ => ?_⟩
  · rw [hafter]
    refine (s.inProgress_put i w').trans ?_
    unfold Shared.inProgress
    rw [hnew]
    exact hopened.inProgress
  · rw [hafter]
    exact congrArg Store.db hopened.store

/-- **A checkpoint.** -/
theorem Consistent.next_checkpoint (h : Consistent s J) (hc : s.conns i = some c)
    {isPassive : Bool} (hallows : s.Allows i c (.checkpoint isPassive)) :
    ∃ J', Consistent (s.after i (.checkpoint isPassive)) J'
      ∧ J.Follows J' s i (.checkpoint isPassive) := by
  refine ⟨_, h.copies hc hallows, .inr (.inl ⟨rfl, rfl⟩), rfl, rfl, ⟨rfl, rfl, ?_⟩,
    fun hother => absurd rfl (hother isPassive)⟩
  obtain ⟨m, hview, -⟩ := h.views i c hc
  have hspec := checkpointCopy_spec (c.ckptId isPassive) ⟨s.store, c⟩
  obtain ⟨-, overlay, map, count, hframe⟩ := hview.handleCheckpoint h.wf (c.ckptId isPassive)
  show (s.copies i isPassive).inProgress i = _
  unfold Shared.copies
  rw [hc, Shared.inProgress_of_open hc]
  dsimp only
  cases hrun : checkpointCopy (c.ckptId isPassive) ⟨s.store, c⟩ with
  | error e w' =>
      have hconn : w'.conn = c := (hspec.of_error hrun).2
      dsimp only
      rw [s.inProgress_put, hconn]
  | ok _ w' =>
      have hconn : w'.conn = c.handleCheckpoint (c.ckptId isPassive) := (hspec.of_ok hrun).2
      show (s.put i w').inProgress i = _
      rw [s.inProgress_put, hconn, hframe]

/-- **Every step** keeps the invariant. -/
theorem Consistent.next (h : Consistent s J) {call : Call} (hallowed : s.Allowed i call)
    (hsettled : Settled s (i, call)) :
    ∃ J', Consistent (s.after i call) J' ∧ J.Follows J' s i call := by
  cases call with
  | readFileHeaders =>
      exact ⟨J, h.congr_opening _, .refl J, rfl, rfl, ⟨rfl, rfl, rfl⟩, fun _ => rfl⟩
  | ready randomSalt1 salt2 => exact h.next_ready hallowed.1 hsettled randomSalt1 salt2
  | waitForTxIdLocks =>
      obtain ⟨k, hk, -⟩ := hallowed
      have hwaits := h.waiting k hk
      refine ⟨J, ?_, .refl J, rfl, rfl, ⟨rfl, rfl, rfl⟩, fun _ => rfl⟩
      show Consistent { s with waiting := s.waiting.map _ } J
      rw [hk]
      exact h.waits ⟨hwaits.leading, hwaits.low, hwaits.copied, hwaits.passive, hwaits.full⟩
  | truncateInactiveFile =>
      obtain ⟨k, hk, -⟩ := hallowed
      refine ⟨_, h.truncates hk hsettled, .inl rfl, rfl, rfl, ⟨J.wal.log_truncated, rfl, ?_, rfl⟩,
        fun _ => ?_⟩
      · show (s.truncates.conns i).bind Conn.txInProgress = _
        unfold Shared.truncates
        split <;> rfl
      · show s.truncates.store.db = _
        unfold Shared.truncates
        split <;> rfl
  | close =>
      obtain ⟨c, hc, hfree⟩ := hallowed
      refine ⟨_, h.closes hfree, ?_, J.left_ckptId s i, J.left_begunId s i,
        ⟨congrArg Wal.log (J.left_wal s i), rfl⟩, fun _ => rfl⟩
      unfold Journal.Files
      rw [J.left_wal]
      exact Journal.Files.refl J
  | dies =>
      refine ⟨_, h.dies i, ?_, J.left_ckptId s i, J.left_begunId s i,
        ⟨congrArg Wal.log (J.left_wal s i), rfl⟩, fun _ => rfl⟩
      unfold Journal.Files
      rw [J.left_wal]
      exact Journal.Files.refl J
  | acquireWriteLock =>
      obtain ⟨c, hc, hlock⟩ := hallowed
      exact ⟨J, h.acquires hlock i, .refl J, rfl, rfl, ⟨rfl, rfl, rfl⟩, fun _ => rfl⟩
  | releaseWriteLock =>
      obtain ⟨c, hc, hlock⟩ := hallowed
      exact ⟨J, h.releases hlock hc (hsettled c hc), .refl J, rfl, rfl, ⟨rfl, rfl, rfl⟩, fun _ => rfl⟩
  | isolateForRead =>
      obtain ⟨c, hc, -⟩ := hallowed
      exact h.next_reads hc rfl (h.isolateForRead hc) (fun hdraft => ⟨rfl, rfl, hdraft⟩) rfl rfl
  | isolateForWrite =>
      obtain ⟨c, hc, hlock⟩ := hallowed
      exact h.next_reads hc rfl (h.isolateForWrite hc hlock) (fun hdraft => ⟨rfl, rfl, hdraft⟩) rfl rfl
  | tryUpgradeReadIsolationToWrite =>
      obtain ⟨c, hc, hlock⟩ := hallowed
      exact h.next_reads hc rfl (h.tryUpgrade hc hlock) (fun hdraft => ⟨rfl, rfl, hdraft⟩) rfl rfl
  | rejoin backstopDue =>
      obtain ⟨c, hc, hfree⟩ := hallowed
      exact h.next_reads hc rfl (h.rejoin hc (hsettled c hc) hfree) (fun hdraft => ⟨rfl, rfl, hdraft⟩) rfl rfl
  | backstop =>
      obtain ⟨c, hc, hout⟩ := hallowed
      exact h.next_reads hc rfl (h.backstop hc hout) (fun hdraft => ⟨rfl, rfl, hdraft⟩) rfl rfl
  | journalSizeLimit limit =>
      obtain ⟨c, hc, -⟩ := hallowed
      exact h.next_reads hc rfl (h.journalSizeLimit hc) (fun hdraft => ⟨rfl, rfl, hdraft⟩) rfl rfl
  | handleMessage message =>
      obtain ⟨c, hc, hposted⟩ := hallowed
      exact h.next_reads hc rfl (h.handleMessage hc hposted) (fun hdraft => ⟨rfl, rfl, hdraft⟩) rfl rfl
  | write salt2 offset data dstPageSize =>
      obtain ⟨c, hc, hfree⟩ := hallowed
      exact h.next_write hc hfree (hsettled c hc)
  | truncate newSize =>
      obtain ⟨c, hc, hfree⟩ := hallowed
      exact h.next_truncate hc (hsettled c hc) hfree newSize
  | rollback =>
      obtain ⟨c, hc, hfree⟩ := hallowed
      exact h.next_rollback hc (hsettled c hc) hfree
  | commit =>
      obtain ⟨c, hc, hfree⟩ := hallowed
      exact h.next_commit hc (hsettled c hc) hfree
  | checkpoint isPassive =>
      obtain ⟨c, hc, hallows⟩ := hallowed
      exact h.next_checkpoint hc hallows

/-! ## §5. Runs. -/

/-- The log has not got shorter. -/
theorem Shared.Leaves.log {call : Call} (h : s.Leaves i J J' call) (hallowed : s.Allowed i call) :
    J.wal.log <+: J'.wal.log := by
  have hsame (heq : J'.wal.log = J.wal.log) : J.wal.log <+: J'.wal.log := by
    rw [heq]
  cases call with
  | commit =>
      obtain ⟨c, hc, -⟩ := hallowed
      have hcommit := h c hc
      cases hrun : WriteAhead.commit ⟨s.store, c⟩ with
      | error e w' => exact hsame (hcommit.of_error hrun).1
      | ok result w' =>
          obtain ⟨-, -, hnone, hsome⟩ := hcommit.of_ok hrun
          cases result with
          | none => exact hsame (hnone rfl).1
          | some tx =>
              obtain ⟨-, t, hlog, -⟩ := hsome tx rfl
              rw [hlog]
              exact List.prefix_append _ _
  | readFileHeaders => exact hsame h.1
  | ready => exact hsame h.1
  | close => exact hsame h.1
  | dies => exact hsame h.1
  | acquireWriteLock => exact hsame h.1
  | releaseWriteLock => exact hsame h.1
  | isolateForRead => exact hsame h.1
  | isolateForWrite => exact hsame h.1
  | tryUpgradeReadIsolationToWrite => exact hsame h.1
  | rejoin => exact hsame h.1
  | backstop => exact hsame h.1
  | write => exact hsame h.1
  | truncate => exact hsame h.1
  | rollback => exact hsame h.1
  | journalSizeLimit => exact hsame h.1
  | handleMessage => exact hsame h.1
  | checkpoint => exact hsame h.1
  | waitForTxIdLocks => exact hsame h.1
  | truncateInactiveFile => exact hsame h.1

/-- **Before there is a log**, the first connection that is opened writes its header. -/
theorem blank_next (h : s.Blank) {call : Call} (hallowed : s.Allowed i call)
    (hsettled : Settled s (i, call)) :
    (call = .readFileHeaders ∨ ∃ randomSalt1 salt2, call = .ready randomSalt1 salt2)
      ∧ (s.after i call).store.db = s.store.db ∧ (∀ j, (s.after i call).inProgress j = none)
      ∧ ((s.after i call).Blank
        ∨ ∃ header, Consistent (s.after i call) ⟨.first header, [], 0, 0⟩) := by
  obtain ⟨hblank, hnone, hwriter, hposted, hwaiting⟩ := h
  have hnobody (hopen : ∃ c, s.conns i = some c ∧ s.Allows i c call) {P : Prop} : P := by
    obtain ⟨c, hc, -⟩ := hopen
    exact absurd ((hnone i).symm.trans hc) (Option.some_ne_none c).symm
  have hidle {P : Waiting Id → Prop} (hwaits : ∃ k, s.waiting = some k ∧ P k) {Q : Prop} : Q := by
    obtain ⟨k, hk, -⟩ := hwaits
    exact absurd (hwaiting.symm.trans hk) (Option.some_ne_none k).symm
  have hclosed (j : Id) : s.inProgress j = none := by
    unfold Shared.inProgress
    rw [hnone j]
    rfl
  cases call with
  | readFileHeaders =>
      exact ⟨.inl rfl, rfl, hclosed, .inl ⟨hblank, hnone, hwriter, hposted, hwaiting⟩⟩
  | ready randomSalt1 salt2 =>
      have hspec := ready_blank_spec (show s.store.Blank from hblank) randomSalt1 salt2
      refine ⟨.inr ⟨randomSalt1, salt2, rfl⟩, ?_⟩
      show (s.opens i randomSalt1 salt2).store.db = s.store.db
        ∧ (∀ j, (s.opens i randomSalt1 salt2).inProgress j = none)
        ∧ ((s.opens i randomSalt1 salt2).Blank
          ∨ ∃ header, Consistent (s.opens i randomSalt1 salt2) _)
      rw [Shared.opens_eq hsettled]
      cases hrun : ready randomSalt1 salt2 ⟨s.store, .initial⟩ with
      | error e w' =>
          have hstore := hspec.of_error hrun
          refine ⟨congrArg Store.db hstore, hclosed, .inl ⟨?_, hnone, hwriter, hposted, hwaiting⟩⟩
          show ∀ handle, (w'.store.wa handle).cells = []
          rw [hstore]
          exact hblank
      | ok r w' =>
          obtain ⟨header, hwf, hdisk, hopened, hdb⟩ := hspec.of_ok hrun
          -- the log begins with this header, and nobody has it open yet
          have hempty : Consistent { s with store := w'.store } ⟨.first header, [], 0, 0⟩ := by
            refine ⟨hwf, hdisk, Nat.le_refl _, Nat.le_refl _, Nat.zero_le _, ?_, ?_, ?_,
              fun _ => rfl, ?_, ?_⟩
            · exact fun j c hc => absurd ((hnone j).symm.trans hc) (Option.some_ne_none c).symm
            · exact fun j c hc => absurd ((hnone j).symm.trans hc) (Option.some_ne_none c).symm
            · exact fun j c hc => absurd ((hnone j).symm.trans hc) (Option.some_ne_none c).symm
            · intro message hmessage
              have hin : message ∈ s.posted := hmessage
              rw [hposted] at hin
              exact absurd hin List.not_mem_nil
            · intro k hk
              exact absurd (hwaiting.symm.trans hk) (Option.some_ne_none k).symm
          have hopens := hempty.opens (i := i) (hnone i) hopened
          refine ⟨hdb, fun j => ?_, .inr ⟨header, hopens.congr_opening _⟩⟩
          by_cases hj : j = i
          · subst hj
            exact (s.inProgress_put j w').trans hopened.inProgress
          · show ((s.put i w').conns j).bind Conn.txInProgress = none
            rw [s.put_ne hj]
            exact hclosed j
  | waitForTxIdLocks => exact hidle hallowed
  | truncateInactiveFile => exact hidle hallowed
  | close => exact hnobody hallowed
  | dies => exact hnobody hallowed
  | acquireWriteLock => exact hnobody hallowed
  | releaseWriteLock => exact hnobody hallowed
  | isolateForRead => exact hnobody hallowed
  | isolateForWrite => exact hnobody hallowed
  | tryUpgradeReadIsolationToWrite => exact hnobody hallowed
  | rejoin => exact hnobody hallowed
  | backstop => exact hnobody hallowed
  | write => exact hnobody hallowed
  | truncate => exact hnobody hallowed
  | rollback => exact hnobody hallowed
  | commit => exact hnobody hallowed
  | journalSizeLimit => exact hnobody hallowed
  | handleMessage => exact hnobody hallowed
  | checkpoint => exact hnobody hallowed

/-- **Every reachable state** of any number of connections is consistent. -/
theorem reach_consistent (h : Reach (sharing Id) Settled s) : s.Blank ∨ ∃ J, Consistent s J := by
  refine @Reach.invariant _ _ _ _ (fun s => s.Blank ∨ ∃ J, Consistent s J) ?_ ?_ _ h
  · intro s hinit
    exact .inl hinit.1
  · rintro s ⟨i, call⟩ s' hinv hsettled ⟨hallowed, rfl⟩
    rcases hinv with hblank | ⟨J, hconsistent⟩
    · obtain ⟨-, -, -, hnext⟩ := blank_next hblank hallowed hsettled
      refine hnext.imp_right ?_
      rintro ⟨header, hconsistent⟩
      exact ⟨_, hconsistent⟩
    · obtain ⟨J', hnext, -⟩ := hconsistent.next hallowed hsettled
      exact .inr ⟨J', hnext⟩

/-- A state with an open connection. -/
theorem reach_consistent_of_open (h : Reach (sharing Id) Settled s) (hc : s.conns i = some c) :
    ∃ J, Consistent s J := by
  rcases reach_consistent h with ⟨-, hnone, -⟩ | hconsistent
  · exact absurd ((hnone i).symm.trans hc) (Option.some_ne_none c).symm
  · exact hconsistent

/-! ## §6. Two connections. -/

end

/-- Files to which nothing has been written, and a database file of two pages. -/
def blank : Shared Bool where
  store := ⟨fun _ => ⟨[], 4096⟩, List.replicate 208 7, 4096⟩
  conns _ := none
  opening _ := none
  writer := none
  posted := []
  waiting := none

/-- A page 1 of 104 bytes that says that the database has two pages. -/
def twoPages : List UInt8 := List.replicate 28 0 ++ [0, 0, 0, 2] ++ List.replicate 72 5

/-- The connection `true` is opened and commits page 1. -/
def committed : Shared Bool :=
  (((((blank.after true .readFileHeaders).after true (.ready 0 0)).after true
    .acquireWriteLock).after true .isolateForWrite).after true (.write 7 0 twoPages none)).after true
    .commit

/-- The connection `false` is being opened. -/
def opening : Shared Bool := committed.after false .readFileHeaders

/-- It is open, and reads. -/
def reading : Shared Bool := (opening.after false (.ready 0 0)).after false .isolateForRead

theorem reading_true : ∃ c, reading.conns true = some c :=
  Option.isSome_iff_exists.mp (by decide +kernel)

theorem reading_false : ∃ c, reading.conns false = some c :=
  Option.isSome_iff_exists.mp (by decide +kernel)

end MemoryWriteAhead.WriteAhead
