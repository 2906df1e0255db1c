/-
  MemoryWriteAhead.WriteAhead.Contents
  ────────────────────────────────────
  **WHAT THE LOG SAYS ABOUT THE PAGES.**

  A transaction of the log is a change of the pages: it sets those of its frames and
  clears those that it cuts off.  The overlay of a view has what the transactions
  behind its beginning set, byte for byte.

    • `IsEntry.data` — an entry is read as its frame,
    • `View.reads` — the overlay has the page, or no transaction of the view has
      touched it.
-/
import MemoryWriteAhead.WriteAhead.Opening
import MemoryWriteAhead.Library.Changes

namespace MemoryWriteAhead.WriteAhead

open ZeroFile Changes

/-! ## §1. Frames. -/

/-- The data of the last frame of a page. -/
def lastFrame (o : Nat) : List PageFrame → Option (List UInt8)
  | [] => none
  | f :: fs => (lastFrame o fs).orElse fun _ => if f.1 = o then some f.2 else none

section Frames

variable {o : Nat} {fs gs : List PageFrame} {h : FileHeader} {start : Nat} {e : PageEntry}
  {st : Store}

theorem lastFrame_cons (f : PageFrame) : lastFrame o (f :: fs)
    = (lastFrame o fs).orElse fun _ => if f.1 = o then some f.2 else none := rfl

theorem lastFrame_append :
    lastFrame o (fs ++ gs) = (lastFrame o gs).orElse fun _ => lastFrame o fs := by
  induction fs with
  | nil =>
      rw [List.nil_append]
      cases lastFrame o gs with
      | none => rfl
      | some data => rfl
  | cons f fs ih =>
      rw [List.cons_append, lastFrame_cons, lastFrame_cons, ih]
      cases lastFrame o gs with
      | none => rfl
      | some data => rfl

theorem lastFrame_concat (f : PageFrame) :
    lastFrame o (fs ++ [f]) = if f.1 = o then some f.2 else lastFrame o fs := by
  rw [lastFrame_append]
  show ((none : Option (List UInt8)).orElse fun _ => if f.1 = o then some f.2 else none).orElse _ = _
  by_cases ho : f.1 = o
  · rw [if_pos ho, if_pos ho]
    rfl
  · rw [if_neg ho, if_neg ho]
    rfl

theorem lastFrame_eq_none_iff : lastFrame o fs = none ↔ ∀ f ∈ fs, f.1 ≠ o := by
  induction fs with
  | nil => exact ⟨fun _ f hf => absurd hf List.not_mem_nil, fun _ => rfl⟩
  | cons f fs ih =>
      unfold lastFrame
      rw [List.forall_mem_cons, ← ih]
      cases lastFrame o fs with
      | some data => simp
      | none =>
          by_cases ho : f.1 = o
          · simp [ho]
          · simp [ho]

theorem lastFrame_isSome_iff : (lastFrame o fs).isSome ↔ o ∈ fs.map Prod.fst := by
  rw [Option.isSome_iff_ne_none, ne_eq, lastFrame_eq_none_iff, List.mem_map]
  constructor
  · intro h
    by_contra hnone
    exact h fun f hf hfo => hnone ⟨f, hf, hfo⟩
  · rintro ⟨f, hf, rfl⟩ h
    exact h f hf rfl

/-- The frame of an entry is the last one of its page. -/
theorem IsEntry.last (hentry : IsEntry h start fs o e) :
    ∃ data, lastFrame o fs = some data ∧ e.pageSize = data.length
      ∧ ∀ cached, e.pageData = some cached → cached = data := by
  obtain ⟨fs₁, data, fs₂, rfl, hlast, -, -, hsize, hcached⟩ := hentry
  refine ⟨data, ?_, hsize, hcached⟩
  rw [lastFrame_append]
  unfold lastFrame
  rw [lastFrame_eq_none_iff.mpr hlast]
  simp

/-- **An entry is read as its frame.** -/
theorem IsEntry.data (hentry : IsEntry h start fs o e) {pre : List Cell}
    (hpre : pre ++ framesCells h fs <+: (st.wa (handleOf h.salt1)).cells)
    (hstart : pre.length = start) :
    ∃ data, lastFrame o fs = some data ∧ e.data st = .ok data := by
  obtain ⟨data, hlast, hsize, hcached⟩ := hentry.last
  refine ⟨data, hlast, ?_⟩
  unfold PageEntry.data
  cases hpage : e.pageData with
  | some cached => rw [hcached cached hpage]
  | none =>
      -- the payload of the last frame of the page, wherever later frames stand
      obtain ⟨fs₁, data', fs₂, rfl, hnewer, hoffset, hsalt, hsize', -⟩ := hentry
      obtain rfl : data' = data := by
        rw [lastFrame_append] at hlast
        unfold lastFrame at hlast
        rw [lastFrame_eq_none_iff.mpr hnewer] at hlast
        simpa using hlast
      have hframes : framesCells h (fs₁ ++ (o, data') :: fs₂)
          = framesCells h fs₁ ++ (frameHeader .page false (encodeSize data'.length) o h data').cells
            ++ payloadCells data' ++ framesCells h fs₂ := by
        rw [framesCells_append]
        unfold framesCells
        rw [List.flatMap_cons]
        unfold frameCells
        simp only [List.append_assoc]
      rw [hframes] at hpre
      have hread : readAt (st.wa (handleOf e.waSalt1)).cells e.waOffset e.pageSize
          = payloadCells data' := by
        rw [hsalt, hsize']
        refine readAt_of_prefix (a := pre ++ (framesCells h fs₁
          ++ (frameHeader .page false (encodeSize data'.length) o h data').cells)) ?_ ?_
          (length_payloadCells data')
        · refine List.IsPrefix.trans ?_ hpre
          refine ⟨framesCells h fs₂, ?_⟩
          simp only [List.append_assoc]
        · rw [List.length_append, List.length_append, length_frameHeader_cells, hstart, hoffset]
          omega
      unfold fetchPage
      rw [hread]
      dsimp only
      rw [if_neg (by rw [length_payloadCells, hsize']; exact fun hne => hne rfl), toByte_payloadCells]

end Frames

/-! ## §2. Changes. -/

/-- What a transaction does to the pages. -/
def TxImage.change (t : TxImage) : Change Nat (List UInt8) where
  sets o := if o ∈ t.dropped then none else lastFrame o t.frames
  clears o := decide (t.dbFileSize ≤ o ∨ o ∈ t.dropped)

def Wal.changes (wal : Wal) : List (Change Nat (List UInt8)) := wal.log.map TxImage.change

section Views

variable {wal : Wal} {m : Nat} {c : Conn} {st : Store} {g : Generation} {j o id : Nat}
  {t : TxImage} {tx : Transaction} {data : List UInt8}

/-- The frames of a transaction stand in its file. -/
theorem Described.frames_prefix (hdisk : OnDisk wal st) (hg : g ∈ wal.gens)
    (h : Described g j t tx) :
    g.before j ++ framesCells g.header t.frames <+: (st.wa (handleOf g.header.salt1)).cells := by
  refine List.IsPrefix.trans ?_ ((g.before_prefix (j + 1)).trans (hdisk.gen hg))
  rw [Generation.before_succ h.image]
  unfold TxImage.cells
  rw [← List.append_assoc]
  exact List.prefix_append _ _

/-- A page that the transaction keeps. -/
theorem Described.page (hdisk : OnDisk wal st) (hg : g ∈ wal.gens) (h : Described g j t tx)
    (hkept : o ∉ t.dropped) (hlast : lastFrame o t.frames = some data) :
    ∃ e, tx.pages.lookup o = some e ∧ e.data st = .ok data := by
  obtain ⟨f, hf, hfo⟩ : ∃ f ∈ t.frames, f.1 = o := by
    by_contra hnone
    have hempty := lastFrame_eq_none_iff.mpr fun f hf hfo => hnone ⟨f, hf, hfo⟩
    exact absurd (hempty.symm.trans hlast) (Option.some_ne_none data).symm
  subst hfo
  obtain ⟨e, he⟩ := Option.isSome_iff_exists.mp (h.complete f hf hkept)
  obtain ⟨data', hlast', hdata⟩ := (h.pages f.1 e he).data (h.frames_prefix hdisk hg) rfl
  obtain rfl := Option.some.inj (hlast.symm.trans hlast')
  exact ⟨e, he, hdata⟩

/-- A page that the transaction does not have. -/
theorem Described.no_page (h : Described g j t tx) (hlast : lastFrame o t.frames = none) :
    tx.pages.lookup o = none := by
  cases he : tx.pages.lookup o with
  | none => rfl
  | some e =>
      obtain ⟨data, hdata, -⟩ := (h.pages o e he).last
      exact absurd (hlast.symm.trans hdata) (Option.some_ne_none data).symm

/-- The change that a transaction of the map is. -/
theorem View.change (hwf : wal.Wf) (h : View wal m c) (hlt : m < id) (hle : id ≤ c.txId) :
    ∃ tx g j t, c.mapIdToTx.lookup id = some tx ∧ g ∈ wal.gens ∧ Described g j t tx
      ∧ wal.log[id - 1]? = some t
      ∧ setBy wal.changes o id = t.change.sets o ∧ clearedBy wal.changes o id = t.change.clears o := by
  obtain ⟨tx, htx⟩ := Option.isSome_iff_exists.mp ((h.dom id).mpr ⟨hlt, hle⟩)
  obtain ⟨hid, g, hg, j, t, hdescribed⟩ := h.holds id tx htx
  obtain ⟨i, rfl⟩ : ∃ i, id = i + 1 := ⟨id - 1, by omega⟩
  have hlog : wal.log[i]? = some t := hwf.log_tx hg hdescribed.image (by rw [← hid, hdescribed.id])
  have hchange : wal.changes[i]? = some t.change := by
    unfold Wal.changes
    rw [List.getElem?_map, hlog]
    rfl
  refine ⟨tx, g, j, t, htx, hg, hdescribed, hlog, ?_, ?_⟩
  · show (wal.changes[i]?).bind _ = _
    rw [hchange]
    rfl
  · show (wal.changes[i]?).any _ = _
    rw [hchange]
    rfl

theorem View.page_set (hdisk : OnDisk wal st) (hwf : wal.Wf) (h : View wal m c) (hlt : m < id)
    (hle : id ≤ c.txId) (hset : setBy wal.changes o id = some data)
    (hkept : clearedBy wal.changes o id = false) :
    ∃ e, c.pageOf o id = some e ∧ e.data st = .ok data := by
  obtain ⟨tx, g, j, t, htx, hg, hdescribed, -, hsets, hclears⟩ := h.change hwf hlt hle (o := o)
  rw [hclears] at hkept
  have hdropped : o ∉ t.dropped := fun hin => of_decide_eq_false hkept (.inr hin)
  rw [hsets] at hset
  have hlast : lastFrame o t.frames = some data := (if_neg hdropped).symm.trans hset
  obtain ⟨e, he, hdata⟩ := hdescribed.page hdisk hg hdropped hlast
  refine ⟨e, ?_, hdata⟩
  unfold Conn.pageOf
  rw [htx]
  exact he

theorem View.page_untouched (hwf : wal.Wf) (h : View wal m c) (hlt : m < id) (hle : id ≤ c.txId)
    (hset : setBy wal.changes o id = none) (hkept : clearedBy wal.changes o id = false) :
    c.pageOf o id = none := by
  obtain ⟨tx, g, j, t, htx, hg, hdescribed, -, hsets, hclears⟩ := h.change hwf hlt hle (o := o)
  rw [hclears] at hkept
  have hdropped : o ∉ t.dropped := fun hin => of_decide_eq_false hkept (.inr hin)
  rw [hsets] at hset
  unfold Conn.pageOf
  rw [htx]
  exact hdescribed.no_page ((if_neg hdropped).symm.trans hset)

/-- **A page of the map** is read as the last frame that its transaction has of it. -/
theorem View.page_data (hdisk : OnDisk wal st) (hwf : wal.Wf) (h : View wal m c) {e : PageEntry}
    (he : c.pageOf o id = some e) :
    ∃ t ∈ wal.log, ∃ data, lastFrame o t.frames = some data ∧ e.data st = .ok data := by
  obtain ⟨tx, htx, he⟩ := Option.bind_eq_some_iff.mp he
  obtain ⟨hlt, hle⟩ := (h.dom id).mp (by rw [htx]; rfl)
  obtain ⟨tx', g, j, t, htx', hg, hdescribed, hlog, -⟩ := h.change hwf hlt hle (o := o)
  obtain rfl := Option.some.inj (htx.symm.trans htx')
  obtain ⟨data, hlast, hdata⟩ := (hdescribed.pages o e he).data (hdescribed.frames_prefix hdisk hg) rfl
  exact ⟨t, List.mem_of_getElem? hlog, data, hlast, hdata⟩

/-- An entry of the overlay is one of the map. -/
theorem View.overlay_page (h : View wal m c) {e : PageEntry} (he : c.waOverlay.lookup o = some e) :
    ∃ id, c.pageOf o id = some e := by
  rw [h.overlay] at he
  obtain ⟨id, -, hpage, -⟩ := Versions.latest_eq_some_iff.mp he
  exact ⟨id, hpage⟩

/-- The map has nothing of the page behind `m`. -/
theorem View.no_pages (hwf : wal.Wf) (h : View wal m c) {n : Nat} (hn : n ≤ c.txId)
    (huntouched : Untouched wal.changes o m n) {id : Nat} (hid : id ≤ n) : c.pageOf o id = none := by
  rcases Nat.lt_or_ge m id with hlt | hge
  · obtain ⟨hset, hkept⟩ := huntouched id hlt hid
    exact h.page_untouched hwf hlt (by omega) hset hkept
  · unfold Conn.pageOf
    cases hin : c.mapIdToTx.lookup id with
    | none => rfl
    | some tx =>
        have hlt := ((h.dom id).mp (by rw [hin]; rfl)).1
        omega

/-- **What the first `n` transactions have made of a page**: the map has it up to
`n`, or nothing of it and it has been there since `m`. -/
theorem View.latest_page (hdisk : OnDisk wal st) (hwf : wal.Wf) (h : View wal m c) {n : Nat}
    (hmn : m ≤ n) (hn : n ≤ c.txId) {base : Nat → Option (List UInt8)}
    (hcontent : content base wal.changes n o = some data) :
    (∃ e, Versions.latest (c.pageOf o) n = some e ∧ e.data st = .ok data)
      ∨ Versions.latest (c.pageOf o) n = none ∧ Untouched wal.changes o m n
        ∧ content base wal.changes m o = some data := by
  rcases content_cases hmn hcontent with ⟨id, hlt, hle, hset, hkept, hrest⟩ | ⟨huntouched, hm⟩
  · obtain ⟨e, he, hdata⟩ := h.page_set hdisk hwf hlt (by omega) hset hkept
    refine .inl ⟨e, Versions.latest_eq_some_iff.mpr ⟨id, hle, he, fun id' hlt' hle' => ?_⟩, hdata⟩
    obtain ⟨hset', hkept'⟩ := hrest id' hlt' hle'
    exact h.page_untouched hwf (by omega) (by omega) hset' hkept'
  · refine .inr ⟨Versions.latest_eq_none_iff.mpr fun id hid => ?_, huntouched, hm⟩
    exact h.no_pages hwf hn huntouched hid

/-- **The overlay** has the page, or no transaction of the view has touched it. -/
theorem View.reads (hdisk : OnDisk wal st) (hwf : wal.Wf) (h : View wal m c)
    {base : Nat → Option (List UInt8)} (hcontent : content base wal.changes c.txId o = some data) :
    (∃ e, c.waOverlay.lookup o = some e ∧ e.data st = .ok data)
      ∨ c.waOverlay.lookup o = none
        ∧ ∀ d, m ≤ d → d ≤ c.txId → content base wal.changes d o = some data := by
  rw [h.overlay]
  refine (h.latest_page hdisk hwf h.le (Nat.le_refl _) hcontent).imp_right ?_
  rintro ⟨hnone, huntouched, hm⟩
  exact ⟨hnone, fun d hmd hd => (content_stable hmd (huntouched.take hd)).trans hm⟩

end Views

end MemoryWriteAhead.WriteAhead
