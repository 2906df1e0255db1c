/-
  MemoryWriteAhead.WriteAhead.Forget
  ──────────────────────────────────
  **WHAT A CHECKPOINT TAKES OUT OF A VIEW.**

  `#handleCheckpoint` walks back from the checkpointed transaction and takes each
  one, with those of its pages that no later one has, out of the map and the overlay.

    • `entry_unique` — a page entry belongs to one transaction,
    • `View.handleCheckpoint` — the view holds what is behind the checkpoint, and
      the overlay still is what the map makes of it.
-/
import MemoryWriteAhead.WriteAhead.View

namespace MemoryWriteAhead.WriteAhead

open Versions

/-! ## §1. One transaction. -/

/-- Dropping pages from an overlay drops just these. -/
theorem lookup_forget_iff (pages : List (Sigma fun _ : Nat => PageEntry))
    (overlay : JsMap PageEntry) {offset : Nat} {entry : PageEntry} :
    (pages.foldl (fun overlay page =>
        if overlay.lookup page.1 = some page.2 then overlay.erase page.1 else overlay)
      overlay).lookup offset = some entry
      ↔ overlay.lookup offset = some entry ∧ ⟨offset, entry⟩ ∉ pages := by
  induction pages generalizing overlay with
  | nil => exact ⟨fun h => ⟨h, List.not_mem_nil⟩, fun h => h.1⟩
  | cons page pages ih =>
      have hone : (if overlay.lookup page.1 = some page.2 then overlay.erase page.1
          else overlay).lookup offset = some entry
          ↔ overlay.lookup offset = some entry
            ∧ (⟨offset, entry⟩ : Sigma fun _ : Nat => PageEntry) ≠ page := by
        obtain ⟨o, e⟩ := page
        split
        next hsame =>
          by_cases ho : offset = o
          · subst ho
            rw [AList.lookup_erase]
            constructor
            · exact fun h => absurd h (Option.some_ne_none entry).symm
            · rintro ⟨hentry, hne⟩
              obtain rfl := Option.some.inj (hsame.symm.trans hentry)
              exact absurd rfl hne
          · rw [AList.lookup_erase_ne ho]
            exact ⟨fun h => ⟨h, fun heq => ho (congrArg Sigma.fst heq)⟩, fun h => h.1⟩
        next hother =>
          refine ⟨fun h => ⟨h, fun heq => hother ?_⟩, fun h => h.1⟩
          cases heq
          exact h
      rw [List.foldl_cons, ih, hone, List.mem_cons, not_or, and_assoc]

theorem lookup_pages_iff {tx : Transaction} {offset : Nat} {entry : PageEntry} :
    (⟨offset, entry⟩ : Sigma fun _ : Nat => PageEntry) ∈ tx.pages.entries
      ↔ tx.pages.lookup offset = some entry := AList.mem_lookup_iff.symm

/-! ## §2. Whose page it is. -/

section

variable {wal : Wal} {m : Nat} {c : Conn} {tx tx' : Transaction} {offset : Nat} {e : PageEntry}

/-- The page of an entry lies between the ends of its transaction. -/
theorem IsEntry.within {h : FileHeader} {start : Nat} {fs : List PageFrame}
    (hentry : IsEntry h start fs offset e) :
    start + 32 ≤ e.waOffset ∧ e.waOffset + e.pageSize ≤ start + (framesCells h fs).length := by
  obtain ⟨fs₁, data, fs₂, rfl, -, hoffset, -, hsize, -⟩ := hentry
  rw [framesCells_append]
  have hframe : framesCells h ((offset, data) :: fs₂)
      = frameCells h (offset, data) ++ framesCells h fs₂ := by
    simp [framesCells]
  rw [hframe, List.length_append, List.length_append, length_frameCells, hoffset, hsize]
  dsimp only
  omega

theorem Generation.offsetOf_mono (g : Generation) {j k : Nat} (h : j ≤ k) :
    g.offsetOf j ≤ g.offsetOf k := (Generation.before_le h).length_le

/-- **A page entry belongs to one transaction of the log.** -/
theorem entry_unique (hwf : wal.Wf) (h : wal.Holds tx) (h' : wal.Holds tx')
    (he : tx.pages.lookup offset = some e) (he' : tx'.pages.lookup offset = some e) :
    tx.id = tx'.id := by
  obtain ⟨g, hg, j, t, htx⟩ := h
  obtain ⟨g', hg', j', t', htx'⟩ := h'
  have hentry := htx.pages offset e he
  have hentry' := htx'.pages offset e he'
  have hsalt : g.header.salt1 = g'.header.salt1 := by
    obtain ⟨_, _, _, _, _, _, hsalt, _⟩ := hentry
    obtain ⟨_, _, _, _, _, _, hsalt', _⟩ := hentry'
    exact hsalt.symm.trans hsalt'
  have hsame : g = g' := by
    rcases mem_gens.mp hg with hprev | rfl
    · rcases mem_gens.mp hg' with hprev' | rfl
      · exact Option.some.inj (hprev.symm.trans hprev')
      · exact absurd (hsalt.trans (hwf.prev_salt g hprev)).symm (salt_ne_succ _)
    · rcases mem_gens.mp hg' with hprev' | rfl
      · exact absurd (hsalt.symm.trans (hwf.prev_salt g' hprev')).symm (salt_ne_succ _)
      · rfl
  subst hsame
  obtain ⟨hlow, hhigh⟩ := hentry.within
  obtain ⟨hlow', hhigh'⟩ := hentry'.within
  have hend := Generation.offsetOf_succ htx.image
  have hend' := Generation.offsetOf_succ htx'.image
  have hj : j = j' := by
    rcases Nat.lt_trichotomy j j' with hlt | heq | hlt
    · have hmono := g.offsetOf_mono (show j + 1 ≤ j' from hlt)
      omega
    · exact heq
    · have hmono := g.offsetOf_mono (show j' + 1 ≤ j from hlt)
      omega
  rw [htx.id, htx'.id, hj]

/-- Two transactions of the map do not share an entry. -/
theorem View.page_unique (hwf : wal.Wf) (h : View wal m c) {id id' : Nat}
    (he : c.pageOf offset id = some e) (he' : c.pageOf offset id' = some e) : id = id' := by
  obtain ⟨tx, htx, hpage⟩ := Option.bind_eq_some_iff.mp he
  obtain ⟨tx', htx', hpage'⟩ := Option.bind_eq_some_iff.mp he'
  obtain ⟨rfl, hholds⟩ := h.holds id tx htx
  obtain ⟨rfl, hholds'⟩ := h.holds id' tx' htx'
  exact entry_unique hwf hholds hholds' hpage hpage'

end

/-! ## §3. The walk back. -/

section

variable {wal : Wal} {m : Nat} {c c' : Conn}

/-- The transactions behind `j` up to `ckptId` have been taken out. -/
structure Walked (c : Conn) (ckptId j : Nat) (c' : Conn) : Prop where
  frame : ∃ overlay map count, c' = { c with
    waOverlay := overlay, mapIdToTx := map, approxPageCount := count }
  map : ∀ id, c'.mapIdToTx.lookup id
    = if j < id ∧ id ≤ ckptId then none else c.mapIdToTx.lookup id
  overlay : ∀ offset e, c'.waOverlay.lookup offset = some e
    ↔ c.waOverlay.lookup offset = some e
      ∧ ∀ id, j < id → id ≤ ckptId → c.pageOf offset id ≠ some e
  ordered : c'.mapIdToTx.keys.Sublist c.mapIdToTx.keys

theorem Walked.start (c : Conn) (ckptId : Nat) : Walked c ckptId ckptId c where
  frame := ⟨_, _, _, rfl⟩
  map id := (if_neg (by omega)).symm
  overlay offset e := ⟨fun h => ⟨h, fun id hlt hle => by omega⟩, fun h => h.1⟩
  ordered := List.Sublist.refl _

/-- **One transaction further back.** -/
theorem Walked.forget {ckptId j : Nat} (h : Walked c ckptId (j + 1) c') (hle : j + 1 ≤ ckptId)
    {tx : Transaction} (htx : c.mapIdToTx.lookup (j + 1) = some tx) (hid : tx.id = j + 1) :
    Walked c ckptId j (c'.forget tx) := by
  obtain ⟨overlay, map, count, hframe⟩ := h.frame
  refine ⟨⟨_, _, _, by rw [hframe]; rfl⟩, fun id => ?_, fun offset e => ?_, ?_⟩
  · show (c'.mapIdToTx.erase tx.id).lookup id = _
    rw [hid]
    by_cases hsame : id = j + 1
    · rw [hsame, AList.lookup_erase, if_pos ⟨Nat.lt_succ_self j, hle⟩]
    · rw [AList.lookup_erase_ne hsame, h.map]
      by_cases hin : j + 1 < id ∧ id ≤ ckptId
      · rw [if_pos hin, if_pos ⟨by omega, hin.2⟩]
      · rw [if_neg hin, if_neg (by omega)]
  · have hpage : c.pageOf offset (j + 1) = tx.pages.lookup offset := by
      unfold Conn.pageOf
      rw [htx]
      rfl
    show (tx.pages.entries.foldl _ c'.waOverlay).lookup offset = some e ↔ _
    rw [lookup_forget_iff, lookup_pages_iff, h.overlay, ← hpage]
    constructor
    · rintro ⟨⟨hold, hnewer⟩, hnot⟩
      refine ⟨hold, fun id hlt hle' => ?_⟩
      rcases Nat.lt_or_ge (j + 1) id with hlater | hge
      · exact hnewer id hlater hle'
      · obtain rfl : id = j + 1 := by omega
        exact hnot
    · rintro ⟨hold, hall⟩
      exact ⟨⟨hold, fun id hlt hle' => hall id (by omega) hle'⟩, hall (j + 1) (by omega) hle⟩
  · show (c'.mapIdToTx.erase tx.id).keys.Sublist _
    rw [AList.keys_erase]
    exact List.erase_sublist.trans h.ordered

/-- **The walk ends behind `m`.** -/
theorem View.walks (h : View wal m c) {ckptId : Nat} (hle : ckptId ≤ c.txId) {j : Nat}
    (hj : m ≤ j) (hjle : j ≤ ckptId) (hwalked : Walked c ckptId j c') :
    Walked c ckptId m (c'.handleCheckpoint j) := by
  -- the transaction that the walk looks for
  have hlookup {j : Nat} {c' : Conn} (hwalked : Walked c ckptId j c') :
      c'.mapIdToTx.lookup j = c.mapIdToTx.lookup j := by
    rw [hwalked.map, if_neg (by omega)]
  have hends (hnone : c.mapIdToTx.lookup j = none) : j = m := by
    by_contra hne
    have hsome := (h.dom j).mpr ⟨by omega, by omega⟩
    rw [hnone] at hsome
    exact Bool.noConfusion hsome
  induction j generalizing c' with
  | zero =>
      obtain rfl : m = 0 := by omega
      unfold Conn.handleCheckpoint
      rw [hlookup hwalked]
      cases hzero : c.mapIdToTx.lookup 0 with
      | none => exact hwalked
      | some tx =>
          have hin := (h.dom 0).mp (by rw [hzero]; rfl)
          omega
  | succ j ih =>
      unfold Conn.handleCheckpoint
      rw [hlookup hwalked]
      cases htx : c.mapIdToTx.lookup (j + 1) with
      | none =>
          obtain rfl := hends htx
          exact hwalked
      | some tx =>
          have hid := (h.holds (j + 1) tx htx).1
          have hlow := ((h.dom (j + 1)).mp (by rw [htx]; rfl)).1
          refine ih (by omega) (by omega) (hwalked.forget hjle htx hid) fun hnone => ?_
          by_contra hne
          have hsome := (h.dom j).mpr ⟨by omega, by omega⟩
          rw [hnone] at hsome
          exact Bool.noConfusion hsome

/-- How far back the map reaches after a checkpoint. -/
def ckptLow (m txId ckptId : Nat) : Nat := if m < ckptId ∧ ckptId ≤ txId then ckptId else m

/-- **A checkpoint message** leaves a view, of what is behind the checkpoint. -/
theorem View.handleCheckpoint (hwf : wal.Wf) (h : View wal m c) (ckptId : Nat) :
    View wal (ckptLow m c.txId ckptId) (c.handleCheckpoint ckptId)
      ∧ ∃ overlay map count, c.handleCheckpoint ckptId = { c with
          waOverlay := overlay, mapIdToTx := map, approxPageCount := count } := by
  by_cases hin : m < ckptId ∧ ckptId ≤ c.txId
  · have hwalked := h.walks hin.2 (Nat.le_of_lt hin.1) (Nat.le_refl _) (Walked.start c ckptId)
    have hdom := h.dom
    generalize c.handleCheckpoint ckptId = c' at hwalked
    obtain ⟨overlay, map, count, hframe⟩ := hwalked.frame
    have hlow := h.low
    unfold ckptLow
    rw [if_pos hin]
    have hmap (id : Nat) : c'.mapIdToTx.lookup id
        = if id ≤ ckptId then none else c.mapIdToTx.lookup id := by
      rw [hwalked.map]
      by_cases hle : id ≤ ckptId
      · rw [if_pos hle]
        by_cases hlt : m < id
        · rw [if_pos ⟨hlt, hle⟩]
        · rw [if_neg fun h => hlt h.1]
          refine Option.not_isSome_iff_eq_none.mp fun hsome => ?_
          exact hlt ((hdom id).mp hsome).1
      · rw [if_neg hle, if_neg fun h => hle h.2]
    have hpage (offset id : Nat) : c'.pageOf offset id = above ckptId (c.pageOf offset) id := by
      unfold Conn.pageOf above
      rw [hmap]
      by_cases hle : id ≤ ckptId
      · rw [if_pos hle, if_pos hle]
        rfl
      · rw [if_neg hle, if_neg hle]
    obtain ⟨g, k, hat⟩ := h.place
    refine ⟨⟨⟨g, k, ?_⟩, by omega, ?_, fun id => ?_, fun id tx htx => ?_, fun offset => ?_, ?_,
      h.ordered.sublist hwalked.ordered, ?_⟩, overlay, map, count, hframe⟩
    · rw [hframe]
      exact hat.congr rfl rfl rfl rfl
    · rw [hframe]
      exact hin.2
    · rw [hmap, hframe]
      show _ ↔ ckptId < id ∧ id ≤ c.txId
      by_cases hle : id ≤ ckptId
      · rw [if_pos hle]
        exact ⟨fun h => Bool.noConfusion h, fun h => by omega⟩
      · rw [if_neg hle, hdom]
        constructor
        · exact fun h => ⟨by omega, h.2⟩
        · exact fun h => ⟨by omega, h.2⟩
    · rw [hmap] at htx
      split at htx
      · exact absurd htx (Option.some_ne_none tx).symm
      · exact h.holds id tx htx
    · have htxId : c'.txId = c.txId := by rw [hframe]
      rw [htxId, show c'.pageOf offset = above ckptId (c.pageOf offset) from
        funext (hpage offset)]
      refine Option.ext fun e => ?_
      rw [hwalked.overlay, h.overlay, latest_above_eq_some_iff, latest_eq_some_iff]
      constructor
      · rintro ⟨⟨id, hid, he, hnewer⟩, hnot⟩
        refine ⟨id, ?_, hid, he, hnewer⟩
        by_contra hle
        obtain ⟨tx, htx, _⟩ := Option.bind_eq_some_iff.mp he
        have hlow' := ((hdom id).mp (by rw [htx]; rfl)).1
        exact hnot id hlow' (by omega) he
      · rintro ⟨id, hlt, hid, he, hnewer⟩
        refine ⟨⟨id, hid, he, hnewer⟩, fun id' hlt' hle' he' => ?_⟩
        have hsame := h.page_unique hwf he he'
        omega
    · rw [hframe]
      refine h.size.imp_right fun hnothing => ?_
      have hle := hin.2
      omega
    · rw [hframe]
      exact h.pending
  · -- there is no such transaction in the map
    have hnone : c.mapIdToTx.lookup ckptId = none := by
      refine Option.not_isSome_iff_eq_none.mp fun hsome => ?_
      exact hin ((h.dom ckptId).mp hsome)
    have hsame : c.handleCheckpoint ckptId = c := by
      cases ckptId with
      | zero =>
          unfold Conn.handleCheckpoint
          rw [hnone]
      | succ ckptId =>
          unfold Conn.handleCheckpoint
          rw [hnone]
    unfold ckptLow
    rw [if_neg hin, hsame]
    exact ⟨h, _, _, _, rfl⟩

end

end MemoryWriteAhead.WriteAhead
