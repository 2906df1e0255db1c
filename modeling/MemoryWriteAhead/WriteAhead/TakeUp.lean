/-
  MemoryWriteAhead.WriteAhead.TakeUp
  ──────────────────────────────────
  **TAKING UP THE TRANSACTIONS THAT HAVE ARRIVED.**

  A transaction that arrives by message waits in `#mapIdToPendingTx` while the
  connection is isolated, and is taken up by `#advanceTxId` otherwise.

    • `Frozen` — what isolation keeps: the place in the log and, up to pages that a
      checkpoint has moved to the database file, the overlay,
    • `Knows` — the transactions that are in the view or pending,
    • `CatchesUp` — there is no gap in front of a pending transaction,
    • `advanceTxId_returns_iff`, `CatchesUp.advanceTxId` — `#advanceTxId` returns just
      when there is none, and then nothing is pending and all that was is in the view.
-/
import MemoryWriteAhead.WriteAhead.Model

namespace MemoryWriteAhead.WriteAhead

open ZeroFile Outcome

/-! ## §1. What is pending, and what is frozen. -/

/-- The pending transactions are filed under their ids. -/
def Filed (c : Conn) : Prop :=
  ∀ id tx, c.mapIdToPendingTx.lookup id = some tx → tx.id = id

/-- The transactions with these ids are in the view or pending. -/
def Knows (c : Conn) (ids : List Nat) : Prop :=
  ∀ id ∈ ids, id ≤ c.txId ∨ id ∈ c.mapIdToPendingTx

/-- The view of `c'` is that of `c`; a checkpoint may have taken pages out of the
overlay. -/
structure Frozen (c c' : Conn) : Prop where
  txId : c'.txId = c.txId
  dbFileSize : c'.dbFileSize = c.dbFileSize
  activeHandle : c'.activeHandle = c.activeHandle
  activeHeader : c'.activeHeader = c.activeHeader
  activeOffset : c'.activeOffset = c.activeOffset
  isolationState : c'.isolationState = c.isolationState
  txInProgress : c'.txInProgress = c.txInProgress
  overlay : ∀ offset entry, c'.waOverlay.lookup offset = some entry →
    c.waOverlay.lookup offset = some entry

theorem Frozen.refl (c : Conn) : Frozen c c :=
  ⟨rfl, rfl, rfl, rfl, rfl, rfl, rfl, fun _ _ h => h⟩

theorem Frozen.trans {a b c : Conn} (hab : Frozen a b) (hbc : Frozen b c) : Frozen a c where
  txId := hbc.txId.trans hab.txId
  dbFileSize := hbc.dbFileSize.trans hab.dbFileSize
  activeHandle := hbc.activeHandle.trans hab.activeHandle
  activeHeader := hbc.activeHeader.trans hab.activeHeader
  activeOffset := hbc.activeOffset.trans hab.activeOffset
  isolationState := hbc.isolationState.trans hab.isolationState
  txInProgress := hbc.txInProgress.trans hab.txInProgress
  overlay offset entry h := hab.overlay offset entry (hbc.overlay offset entry h)

section

variable {c c' : Conn} {ids : List Nat}

theorem Knows.append (h : Knows c ids) {more : List Nat} (hmore : Knows c more) :
    Knows c (ids ++ more) := by
  intro id hid
  rcases List.mem_append.mp hid with hid | hid
  · exact h id hid
  · exact hmore id hid

theorem Knows.nil : Knows c [] := fun _ hid => absurd hid List.not_mem_nil

/-- The pending transactions are known. -/
theorem Knows.pending : Knows c c.mapIdToPendingTx.keys := fun _ hid => .inr hid

/-- Where nothing is pending, all that is known is in the view. -/
theorem Knows.le (h : Knows c ids) (hnone : c.mapIdToPendingTx.keys = []) :
    ∀ id ∈ ids, id ≤ c.txId := by
  intro id hid
  refine (h id hid).resolve_right fun hpending => ?_
  have hkey : id ∈ c.mapIdToPendingTx.keys := hpending
  rw [hnone] at hkey
  exact absurd hkey List.not_mem_nil

/-! ## §2. Checkpoint messages. -/

/-- Dropping pages from an overlay adds none. -/
theorem lookup_forget (pages : List (Sigma fun _ : Nat => PageEntry))
    (overlay : JsMap PageEntry) {offset : Nat} {entry : PageEntry}
    (h : (pages.foldl (fun overlay page =>
        if overlay.lookup page.1 = some page.2 then overlay.erase page.1 else overlay)
      overlay).lookup offset = some entry) : overlay.lookup offset = some entry := by
  induction pages generalizing overlay with
  | nil => exact h
  | cons page pages ih =>
      have hnext := ih _ h
      simp only at hnext
      split at hnext
      · by_cases hoffset : offset = page.1
        · rw [hoffset, AList.lookup_erase] at hnext
          cases hnext
        · rwa [AList.lookup_erase_ne hoffset] at hnext
      · exact hnext

theorem forget_frozen (c : Conn) (tx : Transaction) :
    Frozen c (c.forget tx) ∧ (c.forget tx).mapIdToPendingTx = c.mapIdToPendingTx :=
  ⟨⟨rfl, rfl, rfl, rfl, rfl, rfl, rfl, fun _ _ h => lookup_forget _ _ h⟩, rfl⟩

/-- `#handleCheckpoint` leaves the view and what is pending. -/
theorem handleCheckpoint_frozen (ckptId : Nat) (c : Conn) :
    Frozen c (c.handleCheckpoint ckptId)
      ∧ (c.handleCheckpoint ckptId).mapIdToPendingTx = c.mapIdToPendingTx := by
  induction ckptId generalizing c with
  | zero =>
      unfold Conn.handleCheckpoint
      split
      · exact ⟨.refl c, rfl⟩
      · exact forget_frozen c _
  | succ ckptId ih =>
      unfold Conn.handleCheckpoint
      split
      · exact ⟨.refl c, rfl⟩
      next tx _ =>
        obtain ⟨hfrozen, hpending⟩ := forget_frozen c tx
        obtain ⟨hrest, hpendingRest⟩ := ih (c.forget tx)
        exact ⟨hfrozen.trans hrest, hpendingRest.trans hpending⟩

theorem Filed.congr (h : Filed c) (hpending : c'.mapIdToPendingTx = c.mapIdToPendingTx) :
    Filed c' := by
  unfold Filed
  rw [hpending]
  exact h

theorem Knows.congr (h : Knows c ids) (htxId : c'.txId = c.txId)
    (hpending : c'.mapIdToPendingTx = c.mapIdToPendingTx) : Knows c' ids := by
  unfold Knows
  rw [hpending, htxId]
  exact h

theorem Filed.arrive (h : Filed c) (tx : Transaction) :
    Filed { c with mapIdToPendingTx := c.mapIdToPendingTx.insert tx.id tx } := by
  intro id tx' hlookup
  by_cases hid : id = tx.id
  · subst hid
    rw [AList.lookup_insert] at hlookup
    rw [← Option.some.inj hlookup]
  · rw [AList.lookup_insert_ne hid] at hlookup
    exact h id tx' hlookup

theorem Filed.erase (h : Filed c) (id : Nat) :
    Filed { c with mapIdToPendingTx := c.mapIdToPendingTx.erase id } := by
  intro id' tx hlookup
  by_cases hid : id' = id
  · subst hid
    rw [AList.lookup_erase] at hlookup
    exact absurd hlookup (Option.some_ne_none tx).symm
  · rw [AList.lookup_erase_ne hid] at hlookup
    exact h id' tx hlookup

theorem Knows.arrive (h : Knows c ids) (tx : Transaction) :
    Knows { c with mapIdToPendingTx := c.mapIdToPendingTx.insert tx.id tx } (ids ++ [tx.id]) := by
  intro id hid
  rcases List.mem_append.mp hid with hid | hid
  · exact (h id hid).imp_right fun hpending => (AList.mem_insert _).mpr (.inr hpending)
  · exact .inr ((AList.mem_insert _).mpr (.inl (List.mem_singleton.mp hid)))

end

/-! ## §3. The next transaction of the log. -/

/-- The connection has moved on in the log up to the transaction `id`, and nothing
else. -/
def MovedTo (id : Nat) (c c' : Conn) : Prop :=
  ∃ handle header offset, c' = { c with
    activeHandle := handle, activeHeader := header, activeOffset := offset, txId := id }

theorem MovedTo.refl (c : Conn) : MovedTo c.txId c c := ⟨_, _, _, rfl⟩

theorem MovedTo.txId_eq {id : Nat} {c c' : Conn} (h : MovedTo id c c') : c'.txId = id := by
  obtain ⟨handle, header, offset, rfl⟩ := h
  rfl

theorem MovedTo.pending {id : Nat} {c c' : Conn} (h : MovedTo id c c') :
    c'.mapIdToPendingTx = c.mapIdToPendingTx := by
  obtain ⟨handle, header, offset, rfl⟩ := h
  rfl

theorem MovedTo.isolation {id : Nat} {c c' : Conn} (h : MovedTo id c c') :
    c'.isolationState = c.isolationState := by
  obtain ⟨handle, header, offset, rfl⟩ := h
  rfl

theorem yields_setConn_bind {β : Type} {conn : Conn} {f : PUnit → WA β} {w : World}
    {Q : β → World → Prop} {E : WaError → World → Prop} :
    Yields (setConn conn >>= f) w Q E ↔ Yields (f ⟨⟩) { w with conn := conn } Q E := Iff.rfl

/-- `#readTx` returns the next transaction, or leaves the view where it is. -/
theorem readTxFrom_moved (fuel : Nat) (pages : JsMap PageEntry) (offset : Nat) (w : World) :
    Yields (readTxFrom fuel pages offset) w
      (fun tx w' => w'.store = w.store ∧ (tx = none → MovedTo w.conn.txId w.conn w'.conn)
        ∧ ∀ t, tx = some t → MovedTo (w.conn.txId + 1) w.conn w'.conn ∧ t.id = w.conn.txId + 1)
      (fun _ _ => True) := by
  induction fuel generalizing pages offset w with
  | zero => trivial
  | succ fuel ih =>
      unfold readTxFrom
      rw [yields_get_bind]
      split
      · rw [yields_pure]
        exact ⟨rfl, fun _ => .refl _, fun t ht => (Option.some_ne_none t ht.symm).elim⟩
      · exact ih _ _ w
      next flags dbFileSize _ =>
        have hmoved : MovedTo (w.conn.txId + 1) w.conn { w.conn with
            txId := w.conn.txId + 1, activeOffset := offset + frameHeaderSize } := ⟨_, _, _, rfl⟩
        rw [yields_setConn_bind]
        split
        · split
          · trivial
          · rw [yields_pure]
            refine ⟨rfl, fun h => (Option.some_ne_none _ h).elim, fun t ht => ⟨hmoved, ?_⟩⟩
            obtain rfl := Option.some.inj ht
            rfl
        · rw [yields_pure]
          refine ⟨rfl, fun h => (Option.some_ne_none _ h).elim, fun t ht => ⟨hmoved, ?_⟩⟩
          obtain rfl := Option.some.inj ht
          rfl
      next fileHeader _ =>
        split
        · trivial
        next conn hfollow =>
          -- only the place changes with the file
          have hconn : conn = { w.conn with
              activeHandle := !w.conn.activeHandle
              activeHeader := fileHeader
              activeOffset := fileHeaderSize } := (Option.some.inj hfollow).symm
          rw [yields_setConn_bind]
          refine (ih pages conn.activeOffset { w with conn := conn }).mono ?_ fun _ _ h => h
          rintro tx w' ⟨hstore, hnone, hsome⟩
          have htxId : conn.txId = w.conn.txId := by rw [hconn]
          have hcompose {id : Nat} (hmoved : MovedTo id conn w'.conn) :
              MovedTo id w.conn w'.conn := by
            obtain ⟨handle, header, offset, hw'⟩ := hmoved
            exact ⟨handle, header, offset, by rw [hw', hconn]⟩
          refine ⟨hstore, fun h => hcompose (htxId ▸ hnone h), fun t ht => ?_⟩
          obtain ⟨hmoved, hid⟩ := hsome t ht
          exact ⟨hcompose (htxId ▸ hmoved), htxId ▸ hid⟩

theorem readTx_some {w w' : World} {tx : Transaction} (h : readTx w = .ok (some tx) w') :
    w'.store = w.store ∧ MovedTo (w.conn.txId + 1) w.conn w'.conn ∧ tx.id = w.conn.txId + 1 := by
  obtain ⟨hstore, _, hsome⟩ := (readTxFrom_moved w.store.frameFuel ∅ w.conn.activeOffset w).of_ok h
  exact ⟨hstore, hsome tx rfl⟩

theorem readTx_none {w w' : World} (h : readTx w = .ok none w') :
    w'.store = w.store ∧ MovedTo w.conn.txId w.conn w'.conn := by
  obtain ⟨hstore, hnone, _⟩ := (readTxFrom_moved w.store.frameFuel ∅ w.conn.activeOffset w).of_ok h
  exact ⟨hstore, hnone rfl⟩

/-- `#skipTx` moves on past a transaction that arrived. -/
theorem skipTx_moved {w w' : World} {tx : Transaction} (h : skipTx tx w = .ok ⟨⟩ w') :
    w'.store = w.store ∧ MovedTo tx.id w.conn w'.conn := by
  have hyields : Yields (skipTx tx) w (fun _ w' => w'.store = w.store ∧ MovedTo tx.id w.conn w'.conn)
      (fun _ _ => True) := by
    unfold skipTx
    rw [yields_get_bind]
    split
    · split
      · trivial
      next conn hfollow =>
        obtain ⟨header, _, rfl⟩ := Option.map_eq_some_iff.mp hfollow
        exact ⟨rfl, _, _, _, rfl⟩
    · exact ⟨rfl, _, _, _, rfl⟩
  exact hyields.of_ok h

/-- It returns when the transaction lies in the active file, or the other file goes on
from the active one. -/
theorem skipTx_returns_iff {w : World} {tx : Transaction} :
    (∃ w', skipTx tx w = .ok ⟨⟩ w')
      ↔ tx.waSalt1 = w.conn.activeHeader.salt1
        ∨ ∃ h, readFileHeader (w.store.wa (!w.conn.activeHandle)) = some h
          ∧ h.salt1 = w.conn.activeHeader.salt1 + 1 := by
  unfold skipTx
  rw [get_bind_run]
  by_cases hsalt : tx.waSalt1 = w.conn.activeHeader.salt1
  · rw [if_neg (not_not_intro hsalt)]
    exact ⟨fun _ => .inl hsalt, fun _ => ⟨_, rfl⟩⟩
  · rw [if_pos hsalt]
    unfold followFileChange
    cases hfound : (readFileHeader (w.store.wa (!w.conn.activeHandle))).filter
        (fun h => h.salt1 = w.conn.activeHeader.salt1 + 1) with
    | none =>
        refine ⟨fun ⟨_, hrun⟩ => ?_, fun hin => ?_⟩
        · cases hrun
        · obtain ⟨h, hheader, hnext⟩ := hin.resolve_left hsalt
          rw [hheader, Option.filter_some, if_pos (decide_eq_true hnext)] at hfound
          cases hfound
    | some h =>
        obtain ⟨hheader, hnext⟩ := Option.filter_eq_some_iff.mp hfound
        exact ⟨fun _ => .inr ⟨h, hheader, of_decide_eq_true hnext⟩, fun _ => ⟨_, rfl⟩⟩

/-! ## §4. `#advanceTxId`. -/

/-- A pending transaction is being taken up. -/
def World.withoutPending (w : World) (tx : Transaction) : World :=
  { w with conn := { w.conn with mapIdToPendingTx := w.conn.mapIdToPendingTx.erase tx.id } }

def World.activate (w : World) (tx : Transaction) : World :=
  { w with conn := w.conn.activateTx tx }

/-- **There is no gap**: each transaction up to the last one that is pending is
pending with its file in place, or is whole in the log; where the log is to be
read to its end, its frames can be read.  A round moves the place from which the next
transaction is looked for, so the rounds are listed one by one; `skipTx_returns_iff`
says which file must be in place, and `View.catchesUp` that a log which has lost nothing
has no gap. -/
inductive CatchesUp (readToCurrent : Bool) : World → Prop
  | current {w : World} (hnone : w.conn.mapIdToPendingTx.keys = [])
      (hread : readToCurrent = true → ∃ w', readAllTx w.store.frameFuel w = .ok ⟨⟩ w') :
      CatchesUp readToCurrent w
  | arrived {w w' : World} {tx : Transaction}
      (hlookup : w.conn.mapIdToPendingTx.lookup (w.conn.txId + 1) = some tx)
      (hskip : skipTx tx (w.withoutPending tx) = .ok ⟨⟩ w')
      (hrest : CatchesUp readToCurrent (w'.activate tx)) : CatchesUp readToCurrent w
  | written {w w' : World} {tx : Transaction} (hpending : w.conn.mapIdToPendingTx.keys ≠ [])
      (hlookup : w.conn.mapIdToPendingTx.lookup (w.conn.txId + 1) = none)
      (hread : readTx w = .ok (some tx) w')
      (hrest : CatchesUp readToCurrent (w'.activate tx)) : CatchesUp readToCurrent w

section

variable {w w' : World} {tx : Transaction} {fuel : Nat}

theorem drainPending_current (hnone : w.conn.mapIdToPendingTx.keys = []) :
    drainPending (fuel + 1) w = .ok ⟨⟩ w := by
  rw [drainPending, get_bind_run, if_pos hnone]
  rfl

theorem keys_ne_nil {c : Conn} {id : Nat} (h : c.mapIdToPendingTx.lookup id = some tx) :
    c.mapIdToPendingTx.keys ≠ [] := by
  intro hnone
  have hmem : id ∈ c.mapIdToPendingTx := AList.lookup_isSome.mp (by rw [h]; rfl)
  have hkey : id ∈ c.mapIdToPendingTx.keys := hmem
  rw [hnone] at hkey
  exact absurd hkey List.not_mem_nil

theorem drainPending_arrived
    (hlookup : w.conn.mapIdToPendingTx.lookup (w.conn.txId + 1) = some tx)
    (hskip : skipTx tx (w.withoutPending tx) = .ok ⟨⟩ w') :
    drainPending (fuel + 1) w = drainPending fuel (w'.activate tx) := by
  rw [drainPending, get_bind_run, if_neg (keys_ne_nil hlookup), hlookup]
  exact bind_of_ok hskip

theorem drainPending_written (hpending : w.conn.mapIdToPendingTx.keys ≠ [])
    (hlookup : w.conn.mapIdToPendingTx.lookup (w.conn.txId + 1) = none)
    (hread : readTx w = .ok (some tx) w') :
    drainPending (fuel + 1) w = drainPending fuel (w'.activate tx) := by
  rw [drainPending, get_bind_run, if_neg hpending, hlookup]
  exact bind_of_ok hread

/-- One round of the loop: the next transaction is in the view. -/
structure Round (w w' : World) : Prop where
  store : w'.store = w.store
  isolation : w'.conn.isolationState = w.conn.isolationState
  txId : w'.conn.txId = w.conn.txId + 1
  fewer : ∀ id ∈ w'.conn.mapIdToPendingTx, id ∈ w.conn.mapIdToPendingTx
  rest : ∀ id ∈ w.conn.mapIdToPendingTx,
    id = w.conn.txId + 1 ∨ id ∈ w'.conn.mapIdToPendingTx
  filed : Filed w'.conn

theorem Round.arrived (hfiled : Filed w.conn)
    (hlookup : w.conn.mapIdToPendingTx.lookup (w.conn.txId + 1) = some tx)
    (hskip : skipTx tx (w.withoutPending tx) = .ok ⟨⟩ w') : Round w (w'.activate tx) := by
  have hid : tx.id = w.conn.txId + 1 := hfiled _ _ hlookup
  obtain ⟨hstore, hmoved⟩ := skipTx_moved hskip
  have hpending : (w'.activate tx).conn.mapIdToPendingTx = w.conn.mapIdToPendingTx.erase tx.id :=
    hmoved.pending
  refine ⟨hstore, hmoved.isolation, hmoved.txId_eq.trans hid, ?_, ?_, ?_⟩
  · intro id hmem
    rw [hpending, AList.mem_erase] at hmem
    exact hmem.2
  · intro id hmem
    rw [hpending, AList.mem_erase, hid]
    by_cases hnext : id = w.conn.txId + 1
    · exact .inl hnext
    · exact .inr ⟨hnext, hmem⟩
  · exact (hfiled.erase tx.id).congr hpending

theorem Round.written (hfiled : Filed w.conn) (hread : readTx w = .ok (some tx) w') :
    Round w (w'.activate tx) := by
  obtain ⟨hstore, hmoved, _⟩ := readTx_some hread
  have hpending : (w'.activate tx).conn.mapIdToPendingTx = w.conn.mapIdToPendingTx :=
    hmoved.pending
  refine ⟨hstore, hmoved.isolation, hmoved.txId_eq, ?_, ?_, hfiled.congr hpending⟩
  · intro id hmem
    rwa [hpending] at hmem
  · intro id hmem
    rw [hpending]
    exact .inr hmem

/-- Without a gap no pending transaction is behind the view. -/
theorem CatchesUp.ahead {readToCurrent : Bool} (h : CatchesUp readToCurrent w)
    (hfiled : Filed w.conn) : ∀ id ∈ w.conn.mapIdToPendingTx, w.conn.txId < id := by
  -- by induction on the rounds: each takes away just the next one
  have hround {w w₁ : World} (hround : Round w w₁)
      (ih : ∀ id ∈ w₁.conn.mapIdToPendingTx, w₁.conn.txId < id) :
      ∀ id ∈ w.conn.mapIdToPendingTx, w.conn.txId < id := by
    intro id hid
    rcases hround.rest id hid with rfl | hlater
    · exact Nat.lt_succ_self _
    · have hahead := ih id hlater
      rw [hround.txId] at hahead
      omega
  induction h with
  | current hnone =>
      intro id hid
      have hkey : id ∈ _ := hid
      rw [AList.mem_keys, hnone] at hkey
      exact absurd hkey List.not_mem_nil
  | arrived hlookup hskip _ ih =>
      have h := Round.arrived hfiled hlookup hskip
      exact hround h (ih h.filed)
  | written _ _ hread _ ih =>
      have h := Round.written hfiled hread
      exact hround h (ih h.filed)

/-- What `#advanceTxId` leaves when it returns. -/
structure Caught (w w' : World) : Prop where
  store : w'.store = w.store
  isolation : w'.conn.isolationState = w.conn.isolationState
  nothing : w'.conn.mapIdToPendingTx.keys = []
  forward : w.conn.txId ≤ w'.conn.txId
  taken : ∀ id ∈ w.conn.mapIdToPendingTx, id ≤ w'.conn.txId

theorem Round.caught {w₁ : World} (hround : Round w w₁) (h : Caught w₁ w') : Caught w w' := by
  have hforward := h.forward
  rw [hround.txId] at hforward
  refine ⟨h.store.trans hround.store, h.isolation.trans hround.isolation, h.nothing, by omega, ?_⟩
  intro id hid
  rcases hround.rest id hid with rfl | hlater
  · exact hforward
  · exact h.taken id hlater

/-- **The loop returns where there is no gap**, in no more rounds than the last
pending transaction is ahead. -/
theorem CatchesUp.drains {readToCurrent : Bool} (h : CatchesUp readToCurrent w)
    (hfiled : Filed w.conn) :
    ∃ w', Caught w w'
      ∧ (readToCurrent = true → ∃ w'', readAllTx w'.store.frameFuel w' = .ok ⟨⟩ w'')
      ∧ ∀ limit fuel, (∀ id ∈ w.conn.mapIdToPendingTx, id ≤ limit) → 0 < fuel →
        limit < fuel + w.conn.txId → drainPending fuel w = .ok ⟨⟩ w' := by
  have hnext {w w₁ w' : World} (hpending : w.conn.mapIdToPendingTx.keys ≠ [])
      (hahead : ∀ id ∈ w.conn.mapIdToPendingTx, w.conn.txId < id) (hround : Round w w₁)
      (hgoes : ∀ fuel, drainPending (fuel + 1) w = drainPending fuel w₁)
      (hrun : ∀ limit fuel, (∀ id ∈ w₁.conn.mapIdToPendingTx, id ≤ limit) → 0 < fuel →
        limit < fuel + w₁.conn.txId → drainPending fuel w₁ = .ok ⟨⟩ w')
      (limit fuel : Nat) (hlimit : ∀ id ∈ w.conn.mapIdToPendingTx, id ≤ limit) (hfuel : 0 < fuel)
      (henough : limit < fuel + w.conn.txId) : drainPending fuel w = .ok ⟨⟩ w' := by
    obtain ⟨id, hid⟩ := List.exists_mem_of_ne_nil _ hpending
    have hid' : w.conn.txId < id := hahead id hid
    have hid'' : id ≤ limit := hlimit id hid
    obtain ⟨fuel, rfl⟩ : ∃ n, fuel = n + 1 := ⟨fuel - 1, by omega⟩
    rw [hgoes]
    refine hrun limit fuel (fun id hid => hlimit id (hround.fewer id hid)) (by omega) ?_
    rw [hround.txId]
    omega
  induction h with
  | @current w hnone hread =>
      refine ⟨w, ⟨rfl, rfl, hnone, Nat.le_refl _, ?_⟩, hread, ?_⟩
      · exact (Knows.pending.le hnone)
      · intro limit fuel _ hfuel _
        obtain ⟨fuel, rfl⟩ : ∃ n, fuel = n + 1 := ⟨fuel - 1, by omega⟩
        exact drainPending_current hnone
  | @arrived w w₁ tx hlookup hskip hrest ih =>
      have hround := Round.arrived hfiled hlookup hskip
      obtain ⟨w', hcaught, hread, hrun⟩ := ih hround.filed
      have hahead := (CatchesUp.arrived hlookup hskip hrest).ahead hfiled
      exact ⟨w', hround.caught hcaught, hread, hnext (keys_ne_nil hlookup) hahead hround
        (fun _ => drainPending_arrived hlookup hskip) hrun⟩
  | @written w w₁ tx hpending hlookup htx hrest ih =>
      have hround := Round.written hfiled htx
      obtain ⟨w', hcaught, hread, hrun⟩ := ih hround.filed
      have hahead := (CatchesUp.written hpending hlookup htx hrest).ahead hfiled
      exact ⟨w', hround.caught hcaught, hread, hnext hpending hahead hround
        (fun _ => drainPending_written hpending hlookup htx) hrun⟩

/-- Where the loop returns there was no gap. -/
theorem CatchesUp.of_drains {readToCurrent : Bool} (h : drainPending fuel w = .ok ⟨⟩ w')
    (hread : readToCurrent = true → ∃ w'', readAllTx w'.store.frameFuel w' = .ok ⟨⟩ w'') :
    CatchesUp readToCurrent w := by
  induction fuel generalizing w with
  | zero => cases h
  | succ fuel ih =>
      by_cases hnone : w.conn.mapIdToPendingTx.keys = []
      · rw [drainPending_current hnone] at h
        cases h
        exact .current hnone hread
      · rw [drainPending, get_bind_run, if_neg hnone] at h
        cases hlookup : w.conn.mapIdToPendingTx.lookup (w.conn.txId + 1) with
        | some tx =>
            rw [hlookup] at h
            obtain ⟨_, w₁, hskip, hrest⟩ := ok_of_bind_ok
              (show (skipTx tx >>= _) (w.withoutPending tx) = _ from h)
            exact .arrived hlookup hskip (ih hrest)
        | none =>
            rw [hlookup] at h
            obtain ⟨found, w₁, htx, hrest⟩ := ok_of_bind_ok h
            cases found with
            | none => cases hrest
            | some tx => exact .written hnone hlookup htx (ih hrest)

/-- `for (const tx of this.#readAllTx())` goes forward only. -/
theorem readAllTx_caught (h : readAllTx fuel w = .ok ⟨⟩ w') :
    w'.store = w.store ∧ w'.conn.isolationState = w.conn.isolationState
      ∧ w'.conn.mapIdToPendingTx = w.conn.mapIdToPendingTx ∧ w.conn.txId ≤ w'.conn.txId := by
  induction fuel generalizing w with
  | zero => cases h
  | succ fuel ih =>
      obtain ⟨found, w₁, htx, hrest⟩ := ok_of_bind_ok h
      cases found with
      | none =>
          obtain ⟨hstore, hmoved⟩ := readTx_none htx
          cases hrest
          exact ⟨hstore, hmoved.isolation, hmoved.pending, hmoved.txId_eq.ge⟩
      | some tx =>
          obtain ⟨hstore, hmoved, _⟩ := readTx_some htx
          obtain ⟨hstore', hisolation', hpending', hforward'⟩ :=
            ih (w := w₁.activate tx) hrest
          have hforward : w₁.conn.txId ≤ w'.conn.txId := hforward'
          rw [hmoved.txId_eq] at hforward
          exact ⟨hstore'.trans hstore, hisolation'.trans hmoved.isolation,
            hpending'.trans hmoved.pending, by omega⟩

theorem le_foldl_max {ids : List Nat} {start id : Nat} (h : id ≤ start ∨ id ∈ ids) :
    id ≤ ids.foldl max start := by
  induction ids generalizing start with
  | nil => exact h.resolve_right List.not_mem_nil
  | cons first ids ih =>
      refine ih ?_
      rcases h with hstart | hmem
      · exact .inl (hstart.trans (Nat.le_max_left _ _))
      · rcases List.mem_cons.mp hmem with rfl | hlater
        · exact .inl (Nat.le_max_right _ _)
        · exact .inr hlater

/-- **Where there is no gap `#advanceTxId` returns**, and all that was pending is
in the view. -/
theorem CatchesUp.advanceTxId {readToCurrent : Bool} (h : CatchesUp readToCurrent w)
    (hfiled : Filed w.conn) :
    ∃ w', advanceTxId readToCurrent w = .ok ⟨⟩ w' ∧ Caught w w' := by
  obtain ⟨w₁, hcaught, hread, hrun⟩ := h.drains hfiled
  have hlimit : ∀ id ∈ w.conn.mapIdToPendingTx,
      id ≤ w.conn.mapIdToPendingTx.keys.foldl max 0 := fun id hid => le_foldl_max (.inr hid)
  have hdrained : drainPending w.pendingFuel w = .ok ⟨⟩ w₁ :=
    hrun _ _ hlimit (by unfold World.pendingFuel; omega) (by unfold World.pendingFuel; omega)
  unfold WriteAhead.advanceTxId
  rw [get_bind_run, bind_of_ok hdrained]
  cases readToCurrent with
  | false => exact ⟨w₁, rfl, hcaught⟩
  | true =>
      obtain ⟨w', hw'⟩ := hread rfl
      obtain ⟨hstore, hisolation, hpending, hforward⟩ := readAllTx_caught hw'
      refine ⟨w', hw', hstore.trans hcaught.store, hisolation.trans hcaught.isolation, ?_,
        hcaught.forward.trans hforward, fun id hid => (hcaught.taken id hid).trans hforward⟩
      rw [hpending]
      exact hcaught.nothing

/-- `#advanceTxId` returns just when there is no gap. -/
theorem advanceTxId_returns_iff {readToCurrent : Bool} (hfiled : Filed w.conn) :
    (∃ w', WriteAhead.advanceTxId readToCurrent w = .ok ⟨⟩ w') ↔ CatchesUp readToCurrent w := by
  constructor
  · rintro ⟨w', h⟩
    unfold WriteAhead.advanceTxId at h
    rw [get_bind_run] at h
    obtain ⟨_, w₁, hdrained, hrest⟩ := ok_of_bind_ok h
    refine .of_drains hdrained fun hcurrent => ?_
    rw [hcurrent] at hrest
    exact ⟨w', hrest⟩
  · intro h
    obtain ⟨w', hw', _⟩ := h.advanceTxId hfiled
    exact ⟨w', hw'⟩

end

/-! ## §5. Messages. -/

/-- The transaction that a message brings. -/
def Message.ids : Message → List Nat
  | .tx received => [received.id]
  | .ckpt _ => []

/-- A checkpoint has moved pages to the database file. -/
def Message.movesPages : Message → Bool
  | .tx _ => false
  | .ckpt _ => true

def World.withPending (w : World) (tx : Transaction) : World :=
  { w with conn := { w.conn with mapIdToPendingTx := w.conn.mapIdToPendingTx.insert tx.id tx } }

/-- The message finds no gap: outside isolation the transaction that it brings can
be taken up. -/
def Message.Fits (w : World) : Message → Prop
  | .tx received => w.conn.isolationState = none → w.conn.txId < received.id →
      CatchesUp false (w.withPending received)
  | .ckpt _ => True

/-- A connection that is not isolated has nothing pending. -/
def UpToDate (c : Conn) : Prop :=
  c.isolationState = none → c.mapIdToPendingTx.keys = []

/-- What a message leaves. -/
structure Received (m : Message) (w w' : World) : Prop where
  store : w'.store = w.store
  isolation : w'.conn.isolationState = w.conn.isolationState
  filed : Filed w'.conn
  knows : ∀ ids, Knows w.conn ids → Knows w'.conn (ids ++ m.ids)
  frozen : w.conn.isolationState ≠ none → Frozen w.conn w'.conn
  overlay : w.conn.isolationState ≠ none → m.movesPages = false →
    w'.conn.waOverlay = w.conn.waOverlay
  upToDate : UpToDate w.conn → UpToDate w'.conn

variable {w w' : World}

/-- What is known stays known when the pending transactions are taken up. -/
theorem Caught.knows (h : Caught w w') {ids : List Nat} (hknows : Knows w.conn ids) :
    Knows w'.conn ids := by
  intro id hid
  rcases hknows id hid with hview | hpending
  · exact .inl (hview.trans h.forward)
  · exact .inl (h.taken id hpending)

/-- Where nothing is pending nothing can be filed wrongly. -/
theorem Filed.of_nothing {c : Conn} (hnone : c.mapIdToPendingTx.keys = []) : Filed c :=
  fun _ _ hlookup => absurd hnone (keys_ne_nil hlookup)

/-- **A message that finds no gap is handled**: what it brings is in the view or
pending, and in isolation the view stays. -/
theorem handleMessage_received (hfiled : Filed w.conn) {m : Message} (hfits : m.Fits w) :
    ∃ w', handleMessage m w = .ok ⟨⟩ w' ∧ Received m w w' := by
  cases m with
  | ckpt ckptId =>
      obtain ⟨hfrozen, hpending⟩ := handleCheckpoint_frozen ckptId w.conn
      refine ⟨{ w with conn := w.conn.handleCheckpoint ckptId }, rfl, rfl, hfrozen.isolationState,
        hfiled.congr hpending, fun ids hknows => ?_, fun _ => hfrozen,
        fun _ hpages => Bool.noConfusion hpages, fun hnone hfree => ?_⟩
      · show Knows _ (ids ++ [])
        exact (hknows.congr hfrozen.txId hpending).append Knows.nil
      · rw [hpending]
        exact hnone (hfrozen.isolationState ▸ hfree)
  | tx tx =>
      rw [handleMessage, get_bind_run]
      by_cases hnew : w.conn.txId < tx.id
      · rw [if_pos hnew]
        have harrived : Filed (w.withPending tx).conn := hfiled.arrive tx
        have hknown (ids : List Nat) (h : Knows w.conn ids) :
            Knows (w.withPending tx).conn (ids ++ [tx.id]) := h.arrive tx
        show ∃ w', (if w.conn.isolationState = none then advanceTxId false else pure ⟨⟩)
          (w.withPending tx) = .ok ⟨⟩ w' ∧ _
        by_cases hfree : w.conn.isolationState = none
        · rw [if_pos hfree]
          obtain ⟨w', hrun, hcaught⟩ := (hfits hfree hnew).advanceTxId harrived
          refine ⟨w', hrun, hcaught.store, hcaught.isolation, .of_nothing hcaught.nothing,
            fun ids h => hcaught.knows (hknown ids h), fun hisolated => absurd hfree hisolated,
            fun hisolated => absurd hfree hisolated, fun _ _ => hcaught.nothing⟩
        · rw [if_neg hfree]
          exact ⟨w.withPending tx, rfl, rfl, rfl, harrived, hknown,
            fun _ => ⟨rfl, rfl, rfl, rfl, rfl, rfl, rfl, fun _ _ h => h⟩, fun _ _ => rfl,
            fun _ hnow => absurd hnow hfree⟩
      · rw [if_neg hnew]
        refine ⟨w, rfl, rfl, rfl, hfiled, fun ids h => h.append fun id hid => ?_,
          fun _ => .refl _, fun _ _ => rfl, fun h => h⟩
        rw [List.mem_singleton.mp hid]
        exact .inl (Nat.le_of_not_lt hnew)

/-! ## §6. Entering and leaving isolation. -/

def World.isolated (w : World) (isolation : Option Isolation) : World :=
  { w with conn := { w.conn with isolationState := isolation } }

theorem isolateForRead_run (hfree : w.conn.isolationState = none) :
    isolateForRead w = .ok ⟨⟩ (w.isolated (some .read)) := by
  unfold isolateForRead
  rw [get_bind_run, if_neg (not_not_intro hfree)]
  rfl

/-- A writer's view has all that was pending. -/
theorem isolateForWrite_run (hfree : w.conn.isolationState = none) (hfiled : Filed w.conn)
    (hcatches : CatchesUp true (w.isolated (some .write))) :
    ∃ w', isolateForWrite w = .ok ⟨⟩ w' ∧ Caught (w.isolated (some .write)) w' := by
  unfold isolateForWrite
  rw [get_bind_run, if_neg (not_not_intro hfree)]
  exact hcatches.advanceTxId hfiled

/-- The upgrade changes the isolation and nothing else, and a refused one nothing
at all. -/
theorem tryUpgrade_run (hread : w.conn.isolationState = some .read) :
    tryUpgradeReadIsolationToWrite w = .ok false w
      ∨ tryUpgradeReadIsolationToWrite w = .ok true (w.isolated (some .write)) := by
  unfold tryUpgradeReadIsolationToWrite
  rw [get_bind_run, if_neg (not_not_intro hread)]
  by_cases hpending : w.conn.mapIdToPendingTx.keys = []
  · rw [if_neg (not_not_intro hpending)]
    by_cases hframe : readFrame w.store w.conn w.conn.activeOffset = none
    · rw [if_neg (not_not_intro hframe)]
      exact .inr rfl
    · rw [if_pos hframe]
      exact .inl rfl
  · rw [if_pos hpending]
    exact .inl rfl

/-- Nothing that `rejoin` takes up, and nothing that its backstop does, meets a
gap. -/
structure RejoinFits (backstopDue : Bool) (w : World) : Prop where
  pending : w.conn.isolationState = some .read → CatchesUp false w
  backstop : backstopDue = true → ∀ w₁, rejoin false w = .ok ⟨⟩ w₁ → CatchesUp true w₁

/-- What `rejoin` leaves. -/
structure Rejoined (w w' : World) : Prop where
  store : w'.store = w.store
  isolation : w'.conn.isolationState = none
  nothing : w'.conn.mapIdToPendingTx.keys = []
  knows : ∀ ids, Knows w.conn ids → Knows w'.conn ids

/-- The end of `rejoin`. -/
def leave (backstopDue : Bool) : WA PUnit := if backstopDue then advanceTxId true else pure ⟨⟩

theorem rejoin_read {backstopDue : Bool} {w₁ : World} (hread : w.conn.isolationState = some .read)
    (hrun : advanceTxId false w = .ok ⟨⟩ w₁) :
    rejoin backstopDue w = leave backstopDue (w₁.isolated none) := by
  rw [rejoin, get_bind_run, if_pos hread, bind_of_ok hrun]
  rfl

theorem rejoin_free {backstopDue : Bool} (hread : w.conn.isolationState ≠ some .read) :
    rejoin backstopDue w = leave backstopDue (w.isolated none) := by
  rw [rejoin, get_bind_run, if_neg hread]
  rfl

/-- **`rejoin` returns where nothing meets a gap**, and all that is known is in the
view. -/
theorem rejoin_run {backstopDue : Bool} (hfiled : Filed w.conn) (hfits : RejoinFits backstopDue w)
    (hfree : w.conn.isolationState ≠ some .read → w.conn.mapIdToPendingTx.keys = []) :
    ∃ w', rejoin backstopDue w = .ok ⟨⟩ w' ∧ Rejoined w w' := by
  obtain ⟨w₁, hend, hrejoined⟩ : ∃ w₁, (∀ due, rejoin due w = leave due w₁) ∧ Rejoined w w₁ := by
    by_cases hread : w.conn.isolationState = some .read
    · obtain ⟨w₁, hrun, hcaught⟩ := (hfits.pending hread).advanceTxId hfiled
      exact ⟨w₁.isolated none, fun due => rejoin_read hread hrun, hcaught.store, rfl,
        hcaught.nothing, fun ids hknows => hcaught.knows hknows⟩
    · exact ⟨w.isolated none, fun due => rejoin_free hread, rfl, rfl, hfree hread,
        fun ids hknows => hknows⟩
  rw [hend]
  cases backstopDue with
  | false => exact ⟨w₁, rfl, hrejoined⟩
  | true =>
      obtain ⟨w', hrun, hcaught⟩ :=
        (hfits.backstop rfl w₁ (hend false)).advanceTxId (.of_nothing hrejoined.nothing)
      exact ⟨w', hrun, hcaught.store.trans hrejoined.store,
        hcaught.isolation.trans hrejoined.isolation, hcaught.nothing,
        fun ids hknows => hcaught.knows (hrejoined.knows ids hknows)⟩

end MemoryWriteAhead.WriteAhead
