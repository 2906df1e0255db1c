/-
  MemoryWriteAhead.WriteAhead.Consistency
  ───────────────────────────────────────
  **EVERY CONNECTION SEES A PREFIX OF ONE LOG.**

  `Consistent s J` is the invariant of the connections of one database: the files
  hold one log, every connection has a view of it, only the holder of the write
  lock writes, and behind the log there is only its draft.

    • `Consistent.looks`, `Consistent.writes` — the steps of one connection that
      read, and that write,
    • `Consistent.opens`, `Consistent.closes`, `Consistent.dies` — those with which it
      comes and goes.
-/
import MemoryWriteAhead.WriteAhead.Opening
import MemoryWriteAhead.WriteAhead.Shared

namespace MemoryWriteAhead.WriteAhead

open ZeroFile Outcome Transition

/-! ## §1. The invariant. -/

/-- What the connections have written. -/
structure Journal where
  wal : Wal
  /-- the frames of the transaction in progress -/
  frames : List PageFrame
  /-- how far checkpoints have been posted -/
  ckptId : Nat
  /-- how far one has begun to copy -/
  begunId : Nat

/-- The message is about the log. -/
structure Journal.Knows (J : Journal) (message : Message) : Prop where
  tx : J.wal.Knows message
  ckpt : ∀ ckptId, message = .ckpt ckptId → ckptId ≤ J.ckptId

section

variable {Id : Type}

/-- A checkpoint waits for the others to leave the older file. -/
structure Shared.Waits (s : Shared Id) (J : Journal) (k : Waiting Id) : Prop where
  leading : ∃ c, s.checkpointer k = some c ∧ Leading J.wal c
    ∧ c.activeHandle = handleOf J.wal.head.header.salt1
  low : J.wal.head.header.nextTxId ≤ k.ckptId + 1
  copied : k.ckptId ≤ J.ckptId
  passive : k.isPassive = true → J.wal.prev ≠ none
  full : k.isPassive = false → s.writer = some k.conn ∧ k.closed = none
    ∧ ∀ c, s.conns k.conn = some c → c.isolationState = some .write ∧ c.txInProgress = none

structure Consistent (s : Shared Id) (J : Journal) : Prop where
  wf : J.wal.Wf
  disk : OnDisk J.wal s.store
  past : J.wal.past.length ≤ J.ckptId
  ckpt : J.ckptId ≤ J.begunId
  begun : J.begunId ≤ J.wal.log.length
  views : ∀ i c, s.conns i = some c → ∃ m, View J.wal m c ∧ m ≤ J.ckptId ∧ J.begunId ≤ c.txId
  writing : ∀ i c, s.conns i = some c → c.isolationState = some .write →
    s.writer = some i ∧ AtEnd J.wal c
  drafts : ∀ i c, s.conns i = some c → ∀ tx, c.txInProgress = some tx →
    c.isolationState = some .write ∧ Drafted J.wal ⟨s.store, c⟩ tx J.frames
  idle : (∀ i c, s.conns i = some c → c.txInProgress = none) → J.frames = []
  known : ∀ message ∈ s.posted, J.Knows message
  waiting : ∀ k, s.waiting = some k → s.Waits J k

variable {s s' : Shared Id} {J J' : Journal} {i j : Id} {c : Conn} {w w' : World} {m : Nat}

/-! ## §2. One connection. -/

/-- Two connections that write are the same. -/
theorem Consistent.writer_unique (h : Consistent s J) {c' : Conn} (hc : s.conns i = some c)
    (hwrite : c.isolationState = some .write) (hc' : s.conns j = some c')
    (hwrite' : c'.isolationState = some .write) : j = i := by
  have hi := (h.writing i c hc hwrite).1
  have hj := (h.writing j c' hc' hwrite').1
  exact Option.some.inj (hj.symm.trans hi)

/-- The connection in write isolation. -/
theorem Consistent.writer (h : Consistent s J) (hc : s.conns i = some c)
    (hwrite : c.isolationState = some .write) :
    ∃ m, Writer J.wal m ⟨s.store, c⟩ ∧ m ≤ J.ckptId := by
  obtain ⟨m, hview, hm, -⟩ := h.views i c hc
  refine ⟨m, ⟨h.wf, h.disk, hview, (h.writing i c hc hwrite).2, fun tx htx => ?_⟩, hm⟩
  exact ⟨J.frames, (h.drafts i c hc tx htx).2⟩

theorem Consistent.frames (h : Consistent s J) (hc : s.conns i = some c)
    (hwrite : c.isolationState = some .write) : Frames J.wal ⟨s.store, c⟩ J.frames := by
  refine ⟨fun hnone => h.idle fun j c' hc' => ?_, fun tx htx => (h.drafts i c hc tx htx).2⟩
  -- nobody else has a transaction in progress
  cases htx : c'.txInProgress with
  | none => rfl
  | some tx =>
      have hwrite' := (h.drafts j c' hc' tx htx).1
      obtain rfl := h.writer_unique hc hwrite hc' hwrite'
      obtain rfl := Option.some.inj (hc.symm.trans hc')
      exact absurd (htx.symm.trans hnone) (Option.some_ne_none tx)

/-- Where the connection stands that leads. -/
theorem Leading.handle {wal : Wal} (hwf : wal.Wf) (hview : View wal m c) (h : Leading wal c) :
    c.activeHandle = handleOf wal.head.header.salt1 := by
  obtain ⟨g, k, hat⟩ := hview.place
  obtain rfl := hat.head_of_leading hwf h
  exact hat.handle

theorem leading_of_handle {wal : Wal} (hwf : wal.Wf) (hview : View wal m c)
    (hhandle : c.activeHandle = handleOf wal.head.header.salt1) : Leading wal c := by
  obtain ⟨g, k, hat⟩ := hview.place
  rcases mem_gens.mp hat.mem with hprev | rfl
  · rw [hat.handle, hwf.prev_handle hprev] at hhandle
    exact absurd hhandle (Bool.not_ne_self _)
  · exact hat.leading

/-! ## §3. Messages and locks. -/

theorem Journal.Knows.extend {wal' : Wal} {frames : List PageFrame} {message : Message}
    (hext : Extends J.wal wal') (h : J.Knows message) :
    Journal.Knows ⟨wal', frames, J.ckptId, J.begunId⟩ message := by
  refine ⟨?_, h.ckpt⟩
  cases message with
  | ckpt ckptId => trivial
  | tx tx =>
      refine h.tx.imp (fun hle => ?_) (hext.holds tx)
      show tx.id ≤ wal'.past.length
      rw [hext.past]
      exact hle

/-- **A message that is posted** is about the log. -/
theorem Consistent.posts (h : Consistent s J) {message : Message} (hknown : J.Knows message) :
    Consistent { s with posted := message :: s.posted } J := by
  refine ⟨h.wf, h.disk, h.past, h.ckpt, h.begun, h.views, h.writing, h.drafts, h.idle, ?_, ?_⟩
  · intro message' hmessage'
    rcases List.mem_cons.mp hmessage' with rfl | hold
    · exact hknown
    · exact h.known message' hold
  · exact fun k hk => ⟨(h.waiting k hk).leading, (h.waiting k hk).low, (h.waiting k hk).copied,
      (h.waiting k hk).passive, (h.waiting k hk).full⟩

theorem Consistent.acquires (h : Consistent s J) (hfree : s.writer = none) (i : Id) :
    Consistent { s with writer := some i } J := by
  -- nobody writes and no full checkpoint waits while the lock is free
  have hnobody {j : Id} (hj : s.writer = some j) {P : Prop} : P :=
    absurd (hfree.symm.trans hj) (Option.some_ne_none j).symm
  refine ⟨h.wf, h.disk, h.past, h.ckpt, h.begun, h.views, fun j c' hc' hwrite => ?_, h.drafts, h.idle,
    h.known, fun k hk => ?_⟩
  · exact hnobody (h.writing j c' hc' hwrite).1
  · have hwaits := h.waiting k hk
    exact ⟨hwaits.leading, hwaits.low, hwaits.copied, hwaits.passive,
      fun hfull => hnobody (hwaits.full hfull).1⟩

theorem Consistent.releases (h : Consistent s J) (hwriter : s.writer = some i)
    (hc : s.conns i = some c) (hisolation : c.isolationState ≠ some .write) :
    Consistent { s with writer := none } J := by
  -- the one who holds the lock is the one who gives it up
  have hnobody {j : Id} {c' : Conn} (hj : s.writer = some j) (hc' : s.conns j = some c')
      (hwrite : c'.isolationState = some .write) {P : Prop} : P := by
    obtain rfl := Option.some.inj (hwriter.symm.trans hj)
    obtain rfl := Option.some.inj (hc.symm.trans hc')
    exact absurd hwrite hisolation
  refine ⟨h.wf, h.disk, h.past, h.ckpt, h.begun, h.views, fun j c' hc' hwrite => ?_, h.drafts, h.idle,
    h.known, fun k hk => ?_⟩
  · exact hnobody (h.writing j c' hc' hwrite).1 hc' hwrite
  · have hwaits := h.waiting k hk
    refine ⟨hwaits.leading, hwaits.low, hwaits.copied, hwaits.passive, fun hfull => ?_⟩
    obtain ⟨hk', hclosed, hisolated⟩ := hwaits.full hfull
    obtain ⟨c', hc', -⟩ := hwaits.leading
    unfold Shared.checkpointer at hc'
    rw [hclosed] at hc'
    exact hnobody hk' hc' (hisolated c' hc').1

/-- What is left of the frames in progress when a connection is gone. -/
def Journal.left (J : Journal) (s : Shared Id) (i : Id) : Journal :=
  if (s.conns i).any (fun c => c.txInProgress.isSome) then { J with frames := [] } else J

theorem Journal.left_wal (J : Journal) (s : Shared Id) (i : Id) : (J.left s i).wal = J.wal := by
  unfold Journal.left
  split <;> rfl

theorem Journal.left_ckptId (J : Journal) (s : Shared Id) (i : Id) :
    (J.left s i).ckptId = J.ckptId := by
  unfold Journal.left
  split <;> rfl

theorem Journal.left_begunId (J : Journal) (s : Shared Id) (i : Id) :
    (J.left s i).begunId = J.begunId := by
  unfold Journal.left
  split <;> rfl

/-- Only the database file is another one. -/
theorem Consistent.congr_db (h : Consistent s J) {st : Store} (hwa : st.wa = s.store.wa) :
    Consistent { s with store := st } J := by
  refine ⟨h.wf, h.disk.congr hwa, h.past, h.ckpt, h.begun, h.views, h.writing, fun j c' hc' tx htx => ?_,
    h.idle, h.known, fun k hk => ?_⟩
  · obtain ⟨hwrite, hd⟩ := h.drafts j c' hc' tx htx
    refine ⟨hwrite, ?_, hd.id, hd.salt, hd.offset, hd.wf, hd.pages, hd.target⟩
    rw [show st.wa = s.store.wa from hwa]
    exact hd.cells
  · have hwaits := h.waiting k hk
    exact ⟨hwaits.leading, hwaits.low, hwaits.copied, hwaits.passive, hwaits.full⟩

/-- Who is being opened does not matter to the log. -/
theorem Consistent.congr_opening (h : Consistent s J) (opening : Id → Option (Option FileHeader)) :
    Consistent { s with opening := opening } J :=
  ⟨h.wf, h.disk, h.past, h.ckpt, h.begun, h.views, h.writing, h.drafts, h.idle, h.known,
    fun k hk => ⟨(h.waiting k hk).leading, (h.waiting k hk).low, (h.waiting k hk).copied,
      (h.waiting k hk).passive, (h.waiting k hk).full⟩⟩

/-- A copy begins that nobody is behind. -/
theorem Consistent.begins (h : Consistent s J) {ckptId : Nat} (hlog : ckptId ≤ J.wal.log.length)
    (hall : ∀ j c', s.conns j = some c' → ckptId ≤ c'.txId) :
    Consistent s { J with begunId := max J.begunId ckptId } := by
  refine ⟨h.wf, h.disk, h.past, ?_, ?_, fun j c' hc' => ?_, h.writing, h.drafts, h.idle,
    fun message hmessage => ⟨(h.known message hmessage).tx, (h.known message hmessage).ckpt⟩,
    fun k hk => ?_⟩
  · exact h.ckpt.trans (Nat.le_max_left _ _)
  · exact max_le h.begun hlog
  · obtain ⟨m, hview, hm, hle⟩ := h.views j c' hc'
    exact ⟨m, hview, hm, max_le hle (hall j c' hc')⟩
  · have hwaits := h.waiting k hk
    exact ⟨hwaits.leading, hwaits.low, hwaits.copied, hwaits.passive, hwaits.full⟩

/-- It is done. -/
theorem Consistent.raises (h : Consistent s J) {ckptId : Nat} (hbegun : ckptId ≤ J.begunId) :
    Consistent s { J with ckptId := max J.ckptId ckptId } := by
  have hpast := h.past
  refine ⟨h.wf, h.disk, ?_, max_le h.ckpt hbegun, h.begun, fun j c' hc' => ?_, h.writing, h.drafts,
    h.idle, fun message hmessage => ?_, fun k hk => ?_⟩
  · exact hpast.trans (Nat.le_max_left _ _)
  · obtain ⟨m, hview, hm, hle⟩ := h.views j c' hc'
    exact ⟨m, hview, hm.trans (Nat.le_max_left _ _), hle⟩
  · have hknows := h.known message hmessage
    exact ⟨hknows.tx, fun k hk => Nat.le_trans (hknows.ckpt k hk) (Nat.le_max_left _ _)⟩
  · have hwaits := h.waiting k hk
    exact ⟨hwaits.leading, hwaits.low, Nat.le_trans hwaits.copied (Nat.le_max_left _ _),
      hwaits.passive, hwaits.full⟩

variable [DecidableEq Id]

@[simp] theorem Shared.put_store (s : Shared Id) (i : Id) (w : World) :
    (s.put i w).store = w.store := rfl

theorem Shared.put_self (s : Shared Id) (i : Id) (w : World) :
    (s.put i w).conns i = some w.conn := Function.update_self _ _ _

theorem Shared.put_ne (s : Shared Id) {i j : Id} (h : j ≠ i) (w : World) :
    (s.put i w).conns j = s.conns j := Function.update_of_ne h _ _

/-- The connections behind a call of one of them. -/
theorem Shared.put_cases {P : Id → Conn → Prop} (hself : P i w.conn)
    (hothers : ∀ j c, j ≠ i → s.conns j = some c → P j c) :
    ∀ j c, (s.put i w).conns j = some c → P j c := by
  intro j c hc
  by_cases hj : j = i
  · subst hj
    obtain rfl := Option.some.inj ((s.put_self j w).symm.trans hc)
    exact hself
  · rw [s.put_ne hj] at hc
    exact hothers j c hj hc

/-! ## §4. Steps that read. -/

/-- The connection has looked at the log. -/
structure LookedOn (s : Shared Id) (J : Journal) (i : Id) (c : Conn) (w' : World) : Prop where
  looked : ∃ m, Looked J.wal m ⟨s.store, c⟩ w' ∧ m ≤ J.ckptId
  writing : w'.conn.isolationState = some .write → s.writer = some i ∧ AtEnd J.wal w'.conn
  /-- a writer stays one, or has nothing in progress -/
  keeps : c.isolationState = some .write → w'.conn.isolationState = some .write
    ∨ c.txInProgress = none ∧ s.Free i

/-- **A step that reads** keeps the invariant. -/
theorem Consistent.looks (h : Consistent s J) (hc : s.conns i = some c)
    (hlook : LookedOn s J i c w') : Consistent (s.put i w') J := by
  obtain ⟨m, hlooked, hm⟩ := hlook.looked
  obtain ⟨_, -, -, hckpt⟩ := h.views i c hc
  have hforward : c.txId ≤ w'.conn.txId := hlooked.forward
  have hstore : w'.store = s.store := hlooked.store
  refine ⟨h.wf, by rw [s.put_store, hstore]; exact h.disk, h.past, h.ckpt, h.begun, ?_, ?_, ?_, ?_, h.known, ?_⟩
  · exact s.put_cases ⟨m, hlooked.view, hm, by omega⟩ fun j c' _ hc' => h.views j c' hc'
  · exact s.put_cases (P := fun j c' => c'.isolationState = some .write →
      s.writer = some j ∧ AtEnd J.wal c') hlook.writing fun j c' _ hc' => h.writing j c' hc'
  · refine s.put_cases (P := fun j c' => ∀ tx, c'.txInProgress = some tx →
      c'.isolationState = some .write ∧ Drafted J.wal ⟨w'.store, c'⟩ tx J.frames) ?_ ?_
    · intro tx htx
      rw [show w'.conn.txInProgress = c.txInProgress from hlooked.inProgress] at htx
      obtain ⟨hwrite, hd⟩ := h.drafts i c hc tx htx
      -- a writer is behind the whole log already
      have hend := (h.writing i c hc hwrite).2.txId h.wf
      obtain ⟨g, k, hat⟩ := hlooked.view.place
      have hle := hat.txId_le h.wf
      have htxId : w'.conn.txId = c.txId := by omega
      refine ⟨(hlook.keeps hwrite).resolve_right fun hfree => ?_, ?_⟩
      · exact absurd (hfree.1.symm.trans htx) (Option.some_ne_none tx).symm
      · rw [hstore]
        exact ⟨hd.cells, by rw [hd.id, htxId], hd.salt, hd.offset, hd.wf, hd.pages, hd.target⟩
    · intro j c' _ hc'
      rw [hstore]
      exact h.drafts j c' hc'
  · intro hnone
    refine h.idle fun j c' hc' => ?_
    by_cases hj : j = i
    · subst hj
      obtain rfl := Option.some.inj (hc.symm.trans hc')
      rw [← hnone j w'.conn (s.put_self j w')]
      exact hlooked.inProgress.symm
    · exact hnone j c' (by rw [s.put_ne hj]; exact hc')
  · intro k hk
    have hwaits := h.waiting k hk
    refine ⟨?_, hwaits.low, hwaits.copied, hwaits.passive, fun hfull => ?_⟩
    · obtain ⟨c', hc', hleading, hhandle⟩ := hwaits.leading
      unfold Shared.checkpointer at hc' ⊢
      cases hclosed : k.closed with
      | some closed =>
          rw [hclosed] at hc'
          exact ⟨c', hc', hleading, hhandle⟩
      | none =>
          rw [hclosed] at hc'
          by_cases hi : k.conn = i
          · rw [hi] at hc' ⊢
            obtain rfl := Option.some.inj (hc.symm.trans hc')
            have hleading' := hlooked.leading hleading
            exact ⟨w'.conn, s.put_self i w', hleading', hleading'.handle h.wf hlooked.view⟩
          · exact ⟨c', (s.put_ne hi w').trans hc', hleading, hhandle⟩
    · obtain ⟨hwriter, hclosed, hisolated⟩ := hwaits.full hfull
      refine ⟨hwriter, hclosed, ?_⟩
      refine s.put_cases (P := fun j c' => j = k.conn → c'.isolationState = some .write
        ∧ c'.txInProgress = none) ?_ ?_ k.conn |> fun hall c' hc' => hall c' hc' rfl
      · rintro rfl
        obtain ⟨hwrite, hnone⟩ := hisolated c hc
        refine ⟨(hlook.keeps hwrite).resolve_right fun hfree => ?_, hlooked.inProgress.trans hnone⟩
        rw [hfree.2 k hk rfl] at hfull
        exact Bool.noConfusion hfull
      · rintro j c' _ hc' rfl
        exact hisolated c' hc'

/-! ## §5. Steps that write. -/

/-- **A step of the writer** keeps the invariant, with the log and the frames that it
leaves. -/
theorem Consistent.writes (h : Consistent s J) (hc : s.conns i = some c)
    (hwrite : c.isolationState = some .write) (hfree : s.Free i) {wal' : Wal}
    {frames : List PageFrame} (hext : Extends J.wal wal') (hm : m ≤ J.ckptId)
    (hwrote : Wrote wal' m ⟨s.store, c⟩ frames w') :
    Consistent (s.put i w') ⟨wal', frames, J.ckptId, J.begunId⟩ := by
  have hwriter := hwrote.writer
  have hend := hwriter.atEnd.txId hwriter.wf
  have hlog := hext.log.length_le
  have hbegun := h.begun
  have hisolated : w'.conn.isolationState = some .write := hwrote.held.isolation.trans hwrite
  refine ⟨hwriter.wf, hwriter.disk, by rw [hext.past]; exact h.past, h.ckpt, by
    show J.begunId ≤ wal'.log.length
    omega, ?_, ?_, ?_, ?_, fun message hmessage => (h.known message hmessage).extend hext, ?_⟩
  · refine s.put_cases ⟨m, hwriter.view, hm, by show J.begunId ≤ _; omega⟩ fun j c' _ hc' => ?_
    obtain ⟨m', hview, hm', hle⟩ := h.views j c' hc'
    exact ⟨m', hview.extend h.wf hext, hm', hle⟩
  · refine s.put_cases (P := fun j c' => c'.isolationState = some .write →
      s.writer = some j ∧ AtEnd wal' c') ?_ ?_
    · exact fun _ => ⟨(h.writing i c hc hwrite).1, hwriter.atEnd⟩
    · exact fun j c' hj hc' hwrite' => absurd (h.writer_unique hc hwrite hc' hwrite') hj
  · refine s.put_cases (P := fun j c' => ∀ tx, c'.txInProgress = some tx →
      c'.isolationState = some .write ∧ Drafted wal' ⟨w'.store, c'⟩ tx frames) ?_ ?_
    · exact fun tx htx => ⟨hisolated, hwrote.frames.2 tx htx⟩
    · intro j c' hj hc' tx htx
      exact absurd (h.writer_unique hc hwrite hc' (h.drafts j c' hc' tx htx).1) hj
  · exact fun hnone => hwrote.frames.1 (hnone i w'.conn (s.put_self i w'))
  · intro k hk
    have hwaits := h.waiting k hk
    -- the checkpoint is passive, so the log stays in its file
    have hpassive : k.isPassive = true := by
      cases hfull : k.isPassive with
      | true => rfl
      | false =>
          have hi := (hwaits.full hfull).1.symm.trans (h.writing i c hc hwrite).1
          rw [hfree k hk (Option.some.inj hi)] at hfull
          exact Bool.noConfusion hfull
    obtain ⟨hprev, hheader⟩ := hext.file (hwaits.passive hpassive)
    have hsame : (Journal.mk wal' frames J.ckptId J.begunId).wal.head.header = J.wal.head.header := hheader
    refine ⟨?_, by rw [hsame]; exact hwaits.low, hwaits.copied, fun _ => ?_, fun hfull => ?_⟩
    · obtain ⟨c', hc', hleading, hhandle⟩ := hwaits.leading
      rw [hsame]
      unfold Shared.checkpointer at hc' ⊢
      unfold Leading
      rw [hsame]
      cases hclosed : k.closed with
      | some closed =>
          rw [hclosed] at hc'
          exact ⟨c', hc', hleading, hhandle⟩
      | none =>
          rw [hclosed] at hc'
          by_cases hi : k.conn = i
          · rw [hi] at hc' ⊢
            have hleading' : Leading wal' w'.conn := At.leading hwriter.atEnd
            have hhandle' := hleading'.handle hwriter.wf hwriter.view
            rw [hheader] at hhandle'
            exact ⟨w'.conn, s.put_self i w', hleading'.trans hheader, hhandle'⟩
          · exact ⟨c', (s.put_ne hi w').trans hc', hleading, hhandle⟩
    · show wal'.prev ≠ none
      rw [hprev]
      exact hwaits.passive hpassive
    · rw [hpassive] at hfull
      exact Bool.noConfusion hfull

/-! ## §6. Coming and going. -/

/-- **A connection is gone**; its checkpoint has perhaps been given up. -/
theorem Consistent.without (h : Consistent s J) (i : Id) {waiting : Option (Waiting Id)}
    (hwaiting : ∀ k, waiting = some k → (s.without i waiting).Waits J k) :
    Consistent (s.without i waiting) (J.left s i) := by
  have hothers {P : Id → Conn → Prop} (hP : ∀ j c', j ≠ i → s.conns j = some c' → P j c') :
      ∀ j c', (s.without i waiting).conns j = some c' → P j c' := by
    intro j c' hc'
    have hj : j ≠ i := by
      rintro rfl
      have hnone : (s.without j waiting).conns j = none := Function.update_self _ _ _
      exact absurd (hnone.symm.trans hc') (Option.some_ne_none c').symm
    have hsame : (s.without i waiting).conns j = s.conns j := Function.update_of_ne hj _ _
    exact hP j c' hj (hsame.symm.trans hc')
  -- another one's draft is there only if this one has none
  have hframes {j : Id} {c' : Conn} {tx : Transaction} (hj : j ≠ i) (hc' : s.conns j = some c')
      (htx : c'.txInProgress = some tx) : (J.left s i).frames = J.frames := by
    unfold Journal.left
    rw [if_neg]
    intro hany
    obtain ⟨c, hc, hsome⟩ := (Option.any_eq_true _ _).mp hany
    obtain ⟨tx', htx'⟩ := Option.isSome_iff_exists.mp hsome
    exact hj (h.writer_unique hc (h.drafts i c hc tx' htx').1 hc' (h.drafts j c' hc' tx htx).1)
  refine ⟨by rw [J.left_wal]; exact h.wf, by rw [J.left_wal]; exact h.disk,
    by rw [J.left_wal, J.left_ckptId]; exact h.past,
    by rw [J.left_ckptId, J.left_begunId]; exact h.ckpt,
    by rw [J.left_wal, J.left_begunId]; exact h.begun, ?_, ?_, ?_, ?_, ?_, ?_⟩
  · rw [J.left_wal, J.left_ckptId, J.left_begunId]
    exact hothers fun j c' _ hc' => h.views j c' hc'
  · rw [J.left_wal]
    refine hothers fun j c' hj hc' hwrite => ?_
    obtain ⟨hwriter, hend⟩ := h.writing j c' hc' hwrite
    refine ⟨?_, hend⟩
    show (if s.writer = some i then none else s.writer) = some j
    rw [hwriter, if_neg fun heq => hj (Option.some.inj heq)]
  · refine hothers fun j c' hj hc' tx htx => ?_
    obtain ⟨hwrite, hd⟩ := h.drafts j c' hc' tx htx
    rw [J.left_wal, hframes hj hc' htx]
    exact ⟨hwrite, hd⟩
  · intro hnone
    unfold Journal.left
    split
    · rfl
    next hfree =>
      refine h.idle fun j c' hc' => ?_
      by_cases hj : j = i
      · subst hj
        refine Option.not_isSome_iff_eq_none.mp fun hsome => hfree ?_
        rw [hc']
        exact hsome
      · exact hnone j c' ((Function.update_of_ne hj _ _).trans hc')
  · intro message hmessage
    have hknows := h.known message hmessage
    exact ⟨by rw [J.left_wal]; exact hknows.tx, by rw [J.left_ckptId]; exact hknows.ckpt⟩
  · intro k hk
    have hwaits := hwaiting k hk
    refine ⟨?_, ?_, ?_, ?_, hwaits.full⟩
    · rw [J.left_wal]
      exact hwaits.leading
    · rw [J.left_wal]
      exact hwaits.low
    · rw [J.left_ckptId]
      exact hwaits.copied
    · rw [J.left_wal]
      exact hwaits.passive

/-- A checkpoint of another connection, or of one that is closed, goes on waiting. -/
theorem Shared.Waits.without {waiting : Option (Waiting Id)} {k : Waiting Id} (h : s.Waits J k)
    (hother : k.conn = i → k.closed.isNone = false) : (s.without i waiting).Waits J k := by
  have hconn (hclosed : k.closed = none) : (s.without i waiting).conns k.conn = s.conns k.conn := by
    refine Function.update_of_ne (fun hi => ?_) _ _
    have hsome := hother hi
    rw [hclosed] at hsome
    exact Bool.noConfusion hsome
  refine ⟨?_, h.low, h.copied, h.passive, fun hfull => ?_⟩
  · obtain ⟨c', hc', hleading⟩ := h.leading
    refine ⟨c', ?_, hleading⟩
    unfold Shared.checkpointer at hc' ⊢
    cases hclosed : k.closed with
    | some closed =>
        rw [hclosed] at hc'
        exact hc'
    | none =>
        rw [hclosed] at hc'
        exact (hconn hclosed).trans hc'
  · obtain ⟨hwriter, hclosed, hisolated⟩ := h.full hfull
    refine ⟨?_, hclosed, fun c' hc' => hisolated c' ((hconn hclosed).symm.trans hc')⟩
    show (if s.writer = some i then none else s.writer) = some k.conn
    rw [hwriter, if_neg]
    intro hi
    have hsome := hother (Option.some.inj hi)
    rw [hclosed] at hsome
    exact Bool.noConfusion hsome

theorem Consistent.dies (h : Consistent s J) (i : Id) : Consistent (s.dies i) (J.left s i) := by
  refine h.without i fun k hk => ?_
  obtain ⟨hwaiting, hother⟩ := Option.filter_eq_some_iff.mp hk
  refine (h.waiting k hwaiting).without fun hi => ?_
  have hnot := of_decide_eq_true hother
  cases hnone : k.closed.isNone with
  | false => rfl
  | true => exact absurd ⟨hi, hnone⟩ hnot

theorem Consistent.closes (h : Consistent s J) (hfree : s.Free i) :
    Consistent (s.closes i) (J.left s i) := by
  refine h.without i fun k hk => ?_
  obtain ⟨k₀, hwaiting, rfl⟩ := Option.map_eq_some_iff.mp hk
  have hwaits := h.waiting k₀ hwaiting
  split
  next hmine =>
    -- it goes on with the connection as it is now
    refine ⟨?_, hwaits.low, hwaits.copied, hwaits.passive, fun hfull => ?_⟩
    · obtain ⟨c', hc', hleading⟩ := hwaits.leading
      unfold Shared.checkpointer at hc'
      rw [Option.isNone_iff_eq_none.mp hmine.2, hmine.1] at hc'
      have hc₀ : s.conns i = some c' := hc'
      refine ⟨c', ?_, hleading⟩
      unfold Shared.checkpointer
      dsimp only
      rw [hc₀]
    · have hpassive : k₀.isPassive = true := hfree k₀ hwaiting hmine.1
      have hfull' : k₀.isPassive = false := hfull
      rw [hpassive] at hfull'
      exact Bool.noConfusion hfull'
  next hother =>
    refine hwaits.without fun hi => ?_
    cases hnone : k₀.closed.isNone with
    | false => rfl
    | true => exact absurd ⟨hi, hnone⟩ hother

/-- **A connection is opened** on files that are in use. -/
theorem Consistent.opens (h : Consistent s J) (hnew : s.conns i = none) {w' : World}
    (hopened : Opened J.wal s.store w') : Consistent (s.put i w') J := by
  have hend := hopened.atEnd.txId h.wf
  have hckpt := h.begun
  refine ⟨h.wf, by rw [s.put_store, hopened.store]; exact h.disk, h.past, h.ckpt, h.begun, ?_, ?_, ?_, ?_,
    h.known, fun k hk => ?_⟩
  · exact s.put_cases ⟨_, hopened.view, h.past, by omega⟩ fun j c' _ hc' => h.views j c' hc'
  · refine s.put_cases (P := fun j c' => c'.isolationState = some .write →
      s.writer = some j ∧ AtEnd J.wal c') ?_ fun j c' _ hc' => h.writing j c' hc'
    intro hwrite
    exact absurd (hopened.isolation.symm.trans hwrite) (Option.some_ne_none _).symm
  · refine s.put_cases (P := fun j c' => ∀ tx, c'.txInProgress = some tx →
      c'.isolationState = some .write ∧ Drafted J.wal ⟨w'.store, c'⟩ tx J.frames) ?_ ?_
    · intro tx htx
      exact absurd (hopened.inProgress.symm.trans htx) (Option.some_ne_none tx).symm
    · intro j c' _ hc'
      rw [hopened.store]
      exact h.drafts j c' hc'
  · intro hnone
    refine h.idle fun j c' hc' => hnone j c' ((s.put_ne ?_ w').trans hc')
    rintro rfl
    exact absurd (hnew.symm.trans hc') (Option.some_ne_none c').symm
  · have hwaits := h.waiting k hk
    have hconn (c' : Conn) (hc' : s.conns k.conn = some c') :
        (s.put i w').conns k.conn = s.conns k.conn := by
      refine s.put_ne (fun hi => ?_) w'
      rw [hi, hnew] at hc'
      exact absurd hc' (Option.some_ne_none c').symm
    obtain ⟨c', hc', hleading⟩ := hwaits.leading
    refine ⟨⟨c', ?_, hleading⟩, hwaits.low, hwaits.copied, hwaits.passive, fun hfull => ?_⟩
    · unfold Shared.checkpointer at hc' ⊢
      cases hclosed : k.closed with
      | some closed =>
          rw [hclosed] at hc'
          exact hc'
      | none =>
          rw [hclosed] at hc'
          exact (hconn c' hc').trans hc'
    · obtain ⟨hwriter, hclosed, hisolated⟩ := hwaits.full hfull
      unfold Shared.checkpointer at hc'
      rw [hclosed] at hc'
      exact ⟨hwriter, hclosed, fun c'' hc'' => hisolated c'' ((hconn c' hc').symm.trans hc'')⟩

/-! ## §7. Checkpoints. -/

theorem ckptLow_le (m txId ckptId : Nat) : ckptLow m txId ckptId ≤ max m ckptId := by
  unfold ckptLow
  split <;> omega

/-- The copy touches the database file only. -/
theorem writeDb_keeps (c : Conn) (wa : Bool → WaFile) (offset : Nat) (data : List UInt8) :
    Keeps (fun w : World => w.conn = c ∧ w.store.wa = wa) (writeDb offset data) := by
  intro w hw
  refine (writeDb_yields offset data w).mono ?_ ?_
  · rintro _ _ rfl
    exact hw
  · rintro _ _ ⟨-, rfl, -⟩
    exact hw

theorem truncateDb_keeps (c : Conn) (wa : Bool → WaFile) (size : Nat) :
    Keeps (fun w : World => w.conn = c ∧ w.store.wa = wa) (truncateDb size) := by
  intro w hw
  refine (truncateDb_yields size w).mono ?_ ?_
  · rintro _ _ rfl
    exact hw
  · rintro _ _ ⟨-, rfl, -⟩
    exact hw

theorem copyPages_keeps (c : Conn) (wa : Bool → WaFile) (dbFileSize : Nat)
    (pages : List (Sigma fun _ : Nat => PageEntry)) (writtenOffsets : List Nat) :
    Keeps (fun w : World => w.conn = c ∧ w.store.wa = wa)
      (copyPages dbFileSize pages writtenOffsets) := by
  induction pages generalizing writtenOffsets with
  | nil => exact .pure _
  | cons page pages ih =>
      obtain ⟨offset, entry⟩ := page
      unfold copyPages
      split
      · refine .get fun w hw => ?_
        split
        · exact .throw _
        · exact .bind (writeDb_keeps c wa _ _) fun _ => ih _
      · exact ih _

theorem copyTxs_keeps (c : Conn) (wa : Bool → WaFile) (dbFileSize id : Nat)
    (writtenOffsets : List Nat) :
    Keeps (fun w : World => w.conn = c ∧ w.store.wa = wa) (copyTxs dbFileSize id writtenOffsets) := by
  induction id generalizing writtenOffsets with
  | zero =>
      unfold copyTxs
      refine .get fun w hw => ?_
      split
      · exact .pure _
      · refine .bind (copyPages_keeps c wa _ _ _) fun _ => ?_
        split
        · exact .pure _
        · exact .pure _
  | succ id ih =>
      unfold copyTxs
      refine .get fun w hw => ?_
      split
      · exact .pure _
      · refine .bind (copyPages_keeps c wa _ _ _) fun _ => ?_
        split
        · exact .pure _
        · exact ih _

/-- **The copy** leaves the log files; the pages are out of the view if it returns. -/
theorem checkpointCopy_spec (ckptId : Nat) (w : World) :
    Yields (checkpointCopy ckptId) w
      (fun _ w' => w'.store.wa = w.store.wa ∧ w'.conn = w.conn.handleCheckpoint ckptId)
      (fun _ w' => w'.store.wa = w.store.wa ∧ w'.conn = w.conn) := by
  have hcopied {w₁ : World} (hw₁ : w₁.conn = w.conn ∧ w₁.store.wa = w.store.wa) :
      Yields (do let w ← get; setConn (w.conn.handleCheckpoint ckptId) : WA PUnit) w₁
        (fun _ w' => w'.store.wa = w.store.wa ∧ w'.conn = w.conn.handleCheckpoint ckptId)
        (fun _ w' => w'.store.wa = w.store.wa ∧ w'.conn = w.conn) := by
    rw [yields_get_bind, hw₁.1]
    exact ⟨hw₁.2, rfl⟩
  unfold checkpointCopy
  rw [yields_get_bind]
  split
  · exact hcopied ⟨rfl, rfl⟩
  next tx _ =>
    have hcopies {w₁ : World} (hw₁ : w₁.conn = w.conn ∧ w₁.store.wa = w.store.wa) :
        Yields (do
            copyTxs tx.dbFileSize ckptId []
            let w ← get
            setConn (w.conn.handleCheckpoint ckptId)) w₁
          (fun _ w' => w'.store.wa = w.store.wa ∧ w'.conn = w.conn.handleCheckpoint ckptId)
          (fun _ w' => w'.store.wa = w.store.wa ∧ w'.conn = w.conn) :=
      (copyTxs_keeps _ _ _ _ _ w₁ hw₁).seq (fun _ w' herror => ⟨herror.2, herror.1⟩)
        fun _ w₂ hw₂ => hcopied hw₂
    split
    · exact (truncateDb_keeps _ _ _ w ⟨rfl, rfl⟩).seq (fun _ w' herror => ⟨herror.2, herror.1⟩)
        fun _ w₁ hw₁ => hcopies hw₁
    · exact hcopies ⟨rfl, rfl⟩

end

end MemoryWriteAhead.WriteAhead
