/-
  MemoryWriteAhead.WriteAhead.Backfill
  ────────────────────────────────────
  **A CHECKPOINT COPIES WHAT THE LOG SAYS.**

  The middle of `checkpoint` goes backwards over the transactions up to its id and
  writes each page that no later one has written.  Behind it the database file has
  the content behind that transaction, if it had the content behind one that is in
  front of it and not in front of the view.  A copy that gets stuck because the database
  file is full has changed only pages that the transactions between have written.

    • `Backed` — the database file has the pages that are the same behind each of some
      transactions,
    • `Copied`, `Stuck` — the database file in the middle of the loop,
    • `View.backfills` — the copy as a whole.
-/
import MemoryWriteAhead.WriteAhead.Contents

namespace MemoryWriteAhead.WriteAhead

open ZeroFile Outcome Changes Versions

/-! ## §1. Pages of one size. -/

/-- The frames of the transaction are pages of `P` bytes. -/
structure TxImage.Uniform (P : Nat) (t : TxImage) : Prop where
  frames : ∀ f ∈ t.frames, f.1 % P = 0 ∧ f.2.length = P
  size : t.dbFileSize % P = 0
  flags : t.flags = false

/-- The database file has what is the same behind each transaction from `d` to `e`: it
has been copied up to `d`, and perhaps in part up to `e`. -/
def Backed (P : Nat) (base : Nat → Option (List UInt8)) (changes : List (Change Nat (List UInt8)))
    (d e : Nat) (db : List UInt8) : Prop :=
  ∀ o data, (∀ n, d ≤ n → n ≤ e → content base changes n o = some data) → o % P = 0 →
    readAt db o P = data ∧ data.length = P

/-- The entry can be copied to its page. -/
def Copies (P : Nat) (st : Store) (o : Nat) (e : PageEntry) : Prop :=
  ∃ data, e.data st = .ok data ∧ o % P = 0 ∧ data.length = P

section

variable {P : Nat} {st : Store} {wal : Wal} {m : Nat} {c : Conn} {o id : Nat} {e : PageEntry}
  {fs : List PageFrame} {data : List UInt8}

theorem lastFrame_mem (h : lastFrame o fs = some data) : (o, data) ∈ fs := by
  induction fs with
  | nil => exact absurd h (Option.some_ne_none data).symm
  | cons f fs ih =>
      rw [lastFrame_cons] at h
      cases hlater : lastFrame o fs with
      | some data' =>
          rw [hlater] at h
          obtain rfl : data' = data := Option.some.inj h
          exact List.mem_cons_of_mem f (ih hlater)
      | none =>
          rw [hlater] at h
          have hfirst : (if f.1 = o then some f.2 else none) = some data := h
          split at hfirst
          next ho =>
            obtain rfl := Option.some.inj hfirst
            subst ho
            exact List.mem_cons_self
          next => exact absurd hfirst (Option.some_ne_none data).symm

/-- An entry depends on the log files only. -/
theorem PageEntry.data_congr {st' : Store} (h : st'.wa = st.wa) (e : PageEntry) :
    e.data st' = e.data st := by
  unfold PageEntry.data fetchPage
  rw [h]

/-- The pages of the map can be copied. -/
theorem View.copies (hdisk : OnDisk wal st) (hwf : wal.Wf) (h : View wal m c)
    (huniform : ∀ t ∈ wal.log, t.Uniform P) (he : c.pageOf o id = some e) : Copies P st o e := by
  obtain ⟨t, ht, data, hlast, hdata⟩ := h.page_data hdisk hwf he
  exact ⟨data, hdata, (huniform t ht).frames _ (lastFrame_mem hlast)⟩

/-! ## §2. The loop. -/

/-- The pages `f` have been copied over `db₁`. -/
structure Copied (P size : Nat) (st : Store) (db₁ : List UInt8) (f : Nat → Option PageEntry)
    (written : List Nat) (db : List UInt8) : Prop where
  length : db.length = size
  written : ∀ o, o ∈ written ↔ o < size ∧ (f o).isSome
  kept : ∀ o, f o = none → o % P = 0 → o < size → readAt db o P = readAt db₁ o P
  pages : ∀ o e data, f o = some e → o % P = 0 → o < size → e.data st = .ok data →
    readAt db o P = data

/-- The pages with one more, if they do not have it. -/
def withPage (f : Nat → Option PageEntry) (o : Nat) (e : PageEntry) (o' : Nat) : Option PageEntry :=
  (f o').orElse fun _ => if o' = o then some e else none

variable {size ckptId : Nat} {db db₁ : List UInt8} {f : Nat → Option PageEntry} {written : List Nat}

theorem withPage_of_some (h : (f o).isSome) : withPage f o e = f := by
  funext o'
  unfold withPage
  cases hf : f o' with
  | some e' => rfl
  | none =>
      rw [if_neg]
      · rfl
      · rintro rfl
        rw [hf] at h
        exact Bool.noConfusion h

theorem withPage_ne {o' : Nat} (h : o' ≠ o) : withPage f o e o' = f o' := by
  unfold withPage
  rw [if_neg h]
  cases f o' with
  | none => rfl
  | some e' => rfl

theorem withPage_self (h : f o = none) : withPage f o e o = some e := by
  unfold withPage
  rw [h, if_pos rfl]
  rfl

/-- Two pages are the same, or beside each other. -/
theorem pages_beside {o' : Nat} (ho : o % P = 0) (ho' : o' % P = 0) (hne : o' ≠ o) :
    o' + P ≤ o ∨ o + P ≤ o' := by
  rcases Nat.eq_zero_or_pos P with rfl | hP
  · omega
  obtain ⟨q, rfl⟩ := Nat.dvd_of_mod_eq_zero ho
  obtain ⟨q', rfl⟩ := Nat.dvd_of_mod_eq_zero ho'
  rcases Nat.lt_trichotomy q q' with hlt | rfl | hlt
  · right
    calc P * q + P = P * (q + 1) := (Nat.mul_succ P q).symm
      _ ≤ P * q' := Nat.mul_le_mul_left P hlt
  · exact absurd rfl hne
  · left
    calc P * q' + P = P * (q' + 1) := (Nat.mul_succ P q').symm
      _ ≤ P * q := Nat.mul_le_mul_left P hlt

/-- A page that begins in the file ends in it. -/
theorem page_fits (hsize : size % P = 0) (ho : o % P = 0) (hlt : o < size) : o + P ≤ size :=
  (pages_beside ho hsize (by omega)).resolve_left (by omega)

/-- **A page is written.** -/
theorem Copied.page (h : Copied P size st db₁ f written db) (hsize : size % P = 0)
    (ho : o % P = 0) (hlt : o < size) (hnew : o ∉ written) (hdata : e.data st = .ok data)
    (hlength : data.length = P) :
    Copied P size st db₁ (withPage f o e) (o :: written) (writeAt 0 db o data) := by
  have hnone : f o = none :=
    Option.not_isSome_iff_eq_none.mp fun hsome => hnew ((h.written o).mpr ⟨hlt, hsome⟩)
  have hfits := page_fits hsize ho hlt
  -- pages are aligned, so another page lies beside this one
  have hother {o' : Nat} (ho' : o' % P = 0) (hlt' : o' < size) (hne : o' ≠ o) :
      readAt (writeAt 0 db o data) o' P = readAt db o' P := by
    refine readAt_writeAt_beside ?_ ?_
    · rw [h.length]
      exact page_fits hsize ho' hlt'
    · rw [hlength]
      exact pages_beside ho ho' hne
  have hself : readAt (writeAt 0 db o data) o P = data := by
    rw [← hlength]
    exact readAt_writeAt_self
  refine ⟨?_, fun o' => ?_, fun o' hf ho' hlt' => ?_, fun o' e' data' hf ho' hlt' hdata' => ?_⟩
  · rw [length_writeAt, h.length, hlength]
    omega
  · rw [List.mem_cons, h.written]
    by_cases hsame : o' = o
    · subst hsame
      rw [withPage_self hnone]
      exact ⟨fun _ => ⟨hlt, rfl⟩, fun _ => .inl rfl⟩
    · rw [withPage_ne hsame]
      exact ⟨fun hor => hor.resolve_left hsame, .inr⟩
  · have hne : o' ≠ o := by
      rintro rfl
      exact absurd (hf.symm.trans (withPage_self hnone)) (Option.some_ne_none e).symm
    rw [withPage_ne hne] at hf
    exact (hother ho' hlt' hne).trans (h.kept o' hf ho' hlt')
  · by_cases hsame : o' = o
    · subst hsame
      obtain rfl := Option.some.inj ((withPage_self hnone).symm.trans hf)
      obtain rfl := Except.ok.inj (hdata.symm.trans hdata')
      exact hself
    · rw [withPage_ne hsame] at hf
      exact (hother ho' hlt' hsame).trans (h.pages o' e' data' hf ho' hlt' hdata')

/-- A page is passed over: it is behind the end of the database. -/
theorem Copied.skip (h : Copied P size st db₁ f written db) (hbehind : size ≤ o) :
    Copied P size st db₁ (withPage f o e) written db := by
  have hsame {o' : Nat} (hlt : o' < size) : withPage f o e o' = f o' := withPage_ne (by omega)
  refine ⟨h.length, fun o' => ?_, fun o' hf ho' hlt => ?_, fun o' e' data' hf ho' hlt hdata => ?_⟩
  · rw [h.written]
    constructor
    · rintro ⟨hlt, hsome⟩
      exact ⟨hlt, by rw [hsame hlt]; exact hsome⟩
    · rintro ⟨hlt, hsome⟩
      rw [hsame hlt] at hsome
      exact ⟨hlt, hsome⟩
  · exact h.kept o' ((hsame hlt).symm.trans hf) ho' hlt
  · exact h.pages o' e' data' ((hsame hlt).symm.trans hf) ho' hlt hdata

/-- The database file is full, and some of the pages `f` have been copied over `db₁`. -/
def Stuck (P size : Nat) (st : Store) (db₁ : List UInt8) (f : Nat → Option PageEntry)
    (db : List UInt8) : Prop :=
  st.dbMaxCapacityBytes < size
    ∧ ∃ f' written, (∀ o e, f' o = some e → f o = some e) ∧ Copied P size st db₁ f' written db

/-- **The pages of one transaction.** -/
theorem copyPages_spec (hsize : size % P = 0) (pages : List (Sigma fun _ : Nat => PageEntry))
    (hcopies : ∀ page ∈ pages, Copies P st page.1 page.2) {w : World}
    (hstore : w.store = { st with db := w.store.db })
    (h : Copied P size st db₁ f written w.store.db) :
    Yields (copyPages size pages written) w
      (fun written' w' => w'.conn = w.conn ∧ w'.store = { st with db := w'.store.db }
        ∧ Copied P size st db₁ (fun o => (f o).orElse fun _ => pages.dlookup o) written' w'.store.db)
      (fun e w' => e = .capacityExceeded
        ∧ Stuck P size st db₁ (fun o => (f o).orElse fun _ => pages.dlookup o) w'.store.db) := by
  induction pages generalizing f written w with
  | nil =>
      refine ⟨rfl, hstore, ?_⟩
      have hsame : (fun o => (f o).orElse fun _ => ([] : List (Sigma fun _ : Nat => PageEntry)).dlookup o)
          = f := by
        funext o
        cases hf : f o with
        | none => rfl
        | some e => rfl
      rw [hsame]
      exact h
  | cons page pages ih =>
      obtain ⟨o, e⟩ := page
      obtain ⟨hpage, hrest⟩ := List.forall_mem_cons.mp hcopies
      obtain ⟨data, hdata, ho, hlength⟩ := hpage
      have hsame : (fun o' => (f o').orElse fun _ =>
            (⟨o, e⟩ :: pages : List (Sigma fun _ : Nat => PageEntry)).dlookup o')
          = fun o' => (withPage f o e o').orElse fun _ => pages.dlookup o' := by
        funext o'
        by_cases hne : o' = o
        · subst hne
          rw [List.dlookup_cons_eq]
          unfold withPage
          rw [if_pos rfl]
          cases hf : f o' with
          | none => rfl
          | some e' => rfl
        · rw [List.dlookup_cons_ne _ _ hne, withPage_ne hne]
      rw [hsame]
      unfold copyPages
      split
      next hcond =>
        rw [yields_get_bind]
        have hdata' : e.data w.store = .ok data :=
          (e.data_congr (congrArg Store.wa hstore)).trans hdata
        rw [hdata']
        dsimp only
        refine (writeDb_yields o data w).seq ?_ ?_
        · -- what has been copied so far stays
          rintro _ _ ⟨rfl, rfl, hfull⟩
          have hfits : o + P ≤ size := page_fits hsize ho hcond.1
          rw [hstore, hlength] at hfull
          have hfull' : st.dbMaxCapacityBytes < o + P := hfull
          refine ⟨rfl, hfull'.trans_le hfits, f, written, fun o' e' hf => ?_, h⟩
          have hnone : f o = none :=
            Option.not_isSome_iff_eq_none.mp fun hsome => hcond.2 ((h.written o).mpr ⟨hcond.1, hsome⟩)
          have hne : o' ≠ o := by
            rintro rfl
            exact absurd (hnone.symm.trans hf) (Option.some_ne_none e').symm
          show (withPage f o e o').orElse _ = some e'
          rw [withPage_ne hne, hf]
          rfl
        · rintro _ _ rfl
          refine ih hrest ?_ (h.page hsize ho hcond.1 hcond.2 hdata hlength)
          dsimp only
          rw [hstore]
      next hcond =>
        refine ih hrest hstore ?_
        by_cases hlt : o < size
        · -- a later transaction has written it
          have hin : o ∈ written := by
            by_contra hout
            exact hcond ⟨hlt, hout⟩
          rw [withPage_of_some ((h.written o).mp hin).2]
          exact h
        · exact h.skip (by omega)

/-- In front of a transaction that the map does not have there is none. -/
theorem View.nothing_left (hview : View wal m c) (hid : id ≤ ckptId) (hckpt : ckptId ≤ c.txId)
    (hnone : c.mapIdToTx.lookup id = none) :
    (fun o => latest (above id (c.pageOf o)) ckptId) = fun o => latest (c.pageOf o) ckptId := by
  funext o
  refine latest_congr fun id' hid' => ?_
  unfold above
  split
  next hle =>
    cases hlookup : c.mapIdToTx.lookup id' with
    | none =>
        unfold Conn.pageOf
        rw [hlookup]
        rfl
    | some tx =>
        have hin := (hview.dom id').mp (by rw [hlookup]; rfl)
        have hsome := (hview.dom id).mpr ⟨by omega, by omega⟩
        rw [hnone] at hsome
        exact Bool.noConfusion hsome
  next => rfl

/-- **The transactions from `id` backwards.** -/
theorem copyTxs_spec (hdisk : OnDisk wal st) (hwf : wal.Wf) (hview : View wal m c)
    (huniform : ∀ t ∈ wal.log, t.Uniform P) (hsize : size % P = 0) (hckpt : ckptId ≤ c.txId)
    (hid : id ≤ ckptId) {w : World} (hconn : w.conn = c)
    (hstore : w.store = { st with db := w.store.db })
    (h : Copied P size st db₁ (fun o => latest (above id (c.pageOf o)) ckptId) written w.store.db) :
    Yields (copyTxs size id written) w
      (fun _ w' => w'.conn = c
        ∧ ∃ written', Copied P size st db₁ (fun o => latest (c.pageOf o) ckptId) written' w'.store.db)
      (fun e w' => e = .capacityExceeded
        ∧ Stuck P size st db₁ (fun o => latest (c.pageOf o) ckptId) w'.store.db) := by
  induction id generalizing written w with
  | zero =>
      -- ids begin with 1
      have hnone : c.mapIdToTx.lookup 0 = none := by
        refine Option.not_isSome_iff_eq_none.mp fun hsome => ?_
        have hin := (hview.dom 0).mp hsome
        omega
      unfold copyTxs
      rw [yields_get_bind, hconn, hnone]
      refine ⟨hconn, written, ?_⟩
      rw [← hview.nothing_left hid hckpt hnone]
      exact h
  | succ id ih =>
      unfold copyTxs
      rw [yields_get_bind, hconn]
      cases hlookup : c.mapIdToTx.lookup (id + 1) with
      | none =>
          refine ⟨hconn, written, ?_⟩
          rw [← hview.nothing_left hid hckpt hlookup]
          exact h
      | some tx =>
          have hpageOf (o : Nat) : c.pageOf o (id + 1) = tx.pages.lookup o := by
            unfold Conn.pageOf
            rw [hlookup]
            rfl
          have hin := (hview.dom (id + 1)).mp (by rw [hlookup]; rfl)
          obtain ⟨tx', g, j, t, htx', hg, hdescribed, hlog, -⟩ :=
            hview.change hwf hin.1 hin.2 (o := 0)
          obtain rfl := Option.some.inj (hlookup.symm.trans htx')
          have hcopies : ∀ page ∈ tx.pages.entries, Copies P st page.1 page.2 := by
            intro page hpage
            have hin' : c.pageOf page.1 (id + 1) = some page.2 := by
              rw [hpageOf]
              exact AList.mem_lookup_iff.mpr hpage
            exact hview.copies hdisk hwf huniform hin'
          -- another page size would end the loop here
          have hplain : tx.newPageSize.isSome = false :=
            hdescribed.flags.trans (huniform t (List.mem_of_getElem? hlog)).flags
          have hnext : (fun o => (latest (above (id + 1) (c.pageOf o)) ckptId).orElse fun _ =>
              tx.pages.entries.dlookup o) = fun o => latest (above id (c.pageOf o)) ckptId := by
            funext o
            rw [latest_above_pred hid, hpageOf]
            rfl
          have hpages := copyPages_spec hsize _ hcopies hstore h
          rw [hnext] at hpages
          refine hpages.seq ?_ ?_
          · rintro _ w' ⟨rfl, hfull, f', written', hsome, hcopied⟩
            exact ⟨rfl, hfull, f', written', fun o e hf => latest_of_above (hsome o e hf), hcopied⟩
          · rintro written' w₁ ⟨hconn₁, hstore₁, hcopied⟩
            rw [hplain, if_neg Bool.false_ne_true]
            exact ih (by omega) (hconn₁.trans hconn) hstore₁ hcopied

/-! ## §3. The copy. -/

/-- A page that can be copied is read back from the database file. -/
theorem Copied.reads (h : Copied P size st db₁ f written db)
    (hsome : ∀ o e, f o = some e → latest (c.pageOf o) ckptId = some e)
    (hdisk : OnDisk wal st) (hwf : wal.Wf) (hview : View wal m c)
    (huniform : ∀ t ∈ wal.log, t.Uniform P) (ho : o % P = 0) (hlt : o < size)
    (he : f o = some e) (hdata : e.data st = .ok data) :
    readAt db o P = data ∧ data.length = P := by
  obtain ⟨id, -, hpage, -⟩ := latest_eq_some_iff.mp (hsome o e he)
  obtain ⟨data', hdata', -, hlength⟩ := hview.copies hdisk hwf huniform hpage
  obtain rfl := Except.ok.inj (hdata.symm.trans hdata')
  exact ⟨h.pages o e data he ho hlt hdata, hlength⟩

/-- A page of the database behind a transaction lies in front of its end. -/
theorem View.content_inside (hwf : wal.Wf) (hview : View wal m c) (hlt : m < ckptId)
    (hle : ckptId ≤ c.txId) {tx : Transaction} (htx : c.mapIdToTx.lookup ckptId = some tx)
    {base : Nat → Option (List UInt8)} (hcontent : content base wal.changes ckptId o = some data) :
    o < tx.dbFileSize := by
  obtain ⟨tx', g, j, t, htx', -, hdescribed, -, -, hclears⟩ := hview.change hwf hlt hle (o := o)
  obtain rfl := Option.some.inj (htx.symm.trans htx')
  obtain ⟨n, rfl⟩ : ∃ n, ckptId = n + 1 := ⟨ckptId - 1, by omega⟩
  have hkept := kept_of_content hcontent
  rw [hclears] at hkept
  have hinside := (not_or.mp (of_decide_eq_false hkept)).1
  rw [hdescribed.size]
  omega

/-- **Some of the pages have been copied**, and the others are as they were. -/
theorem Copied.backed (hP : 0 < P) (h : Copied P size st (resize 0 st.db size) f written db)
    (hsome : ∀ o e, f o = some e → latest (c.pageOf o) ckptId = some e)
    (hsize : size % P = 0) (hdisk : OnDisk wal st) (hwf : wal.Wf) (hview : View wal m c)
    (huniform : ∀ t ∈ wal.log, t.Uniform P) (hmc : m ≤ ckptId) (hckpt : ckptId ≤ c.txId)
    {base : Nat → Option (List UInt8)} {d b d' b' : Nat} (hbacked : Backed P base wal.changes d b st.db)
    (hinside : ∀ {o data}, content base wal.changes ckptId o = some data → o < size)
    (hd' : d' ≤ ckptId) (hb' : ckptId ≤ b')
    (hkept : ∀ {o data}, (∀ n, d' ≤ n → n ≤ b' → content base wal.changes n o = some data) →
      f o = none → ∀ n, d ≤ n → n ≤ b → content base wal.changes n o = some data) :
    Backed P base wal.changes d' b' db := by
  intro o data hcontent ho
  have hlast := hcontent ckptId hd' hb'
  have hlt := hinside hlast
  cases hf : f o with
  | some e =>
      -- the newest version is the one that the content is from
      rcases hview.latest_page hdisk hwf hmc hckpt hlast with ⟨e', he', hdata⟩ | ⟨hnone, -⟩
      · obtain rfl := Option.some.inj (he'.symm.trans (hsome o e hf))
        exact h.reads hsome hdisk hwf hview huniform ho hlt hf hdata
      · exact absurd ((hsome o e hf).symm.trans hnone) (Option.some_ne_none e)
  | none =>
      obtain ⟨hread, hlength⟩ := hbacked o data (hkept hcontent hf) ho
      have hfits : o + P ≤ st.db.length := by
        have hread' := congrArg List.length hread
        rw [length_readAt, hlength] at hread'
        omega
      refine ⟨?_, hlength⟩
      rw [h.kept o hf ho hlt, readAt_resize_of_le hfits (page_fits hsize ho hlt)]
      exact hread

/-- **The copy**: if it returns, the database file has the content behind `ckptId`, in the
size that its transaction says; if the file is full, it has what it had, except for
pages that have been written since. -/
theorem View.backfills (hP : 0 < P) (hdisk : OnDisk wal st) (hwf : wal.Wf) (hview : View wal m c)
    (huniform : ∀ t ∈ wal.log, t.Uniform P) {base : Nat → Option (List UInt8)} {d b : Nat}
    (hmd : m ≤ d) (hd : d ≤ ckptId) (hckpt : ckptId ≤ c.txId)
    (hbacked : Backed P base wal.changes d b st.db) :
    Yields (checkpointCopy ckptId) ⟨st, c⟩
      (fun _ w' => Backed P base wal.changes ckptId (max b ckptId) w'.store.db
        ∧ ∀ tx, c.mapIdToTx.lookup ckptId = some tx → w'.store.db.length = tx.dbFileSize)
      (fun e w' => e = .capacityExceeded ∧ Backed P base wal.changes d (max b ckptId) w'.store.db
        ∧ ∃ tx, c.mapIdToTx.lookup ckptId = some tx ∧ st.dbMaxCapacityBytes < tx.dbFileSize) := by
  unfold checkpointCopy
  rw [yields_get_bind]
  dsimp only
  cases hlookup : c.mapIdToTx.lookup ckptId with
  | none =>
      -- the view begins here
      have hempty : ¬(m < ckptId ∧ ckptId ≤ c.txId) := fun hin => by
        have hsome := (hview.dom ckptId).mpr hin
        rw [hlookup] at hsome
        exact Bool.noConfusion hsome
      obtain rfl : d = ckptId := by omega
      refine ⟨fun o data hcontent ho => hbacked o data (fun n hn hnb => hcontent n hn ?_) ho,
        fun tx htx => absurd htx (Option.some_ne_none tx).symm⟩
      omega
  | some tx =>
      obtain ⟨hlt, hle⟩ := (hview.dom ckptId).mp (by rw [hlookup]; rfl)
      obtain ⟨tx', g, j, t, htx', hg, hdescribed, hlog, -⟩ := hview.change hwf hlt hle (o := 0)
      obtain rfl := Option.some.inj (hlookup.symm.trans htx')
      have hsize : tx.dbFileSize % P = 0 := by
        rw [hdescribed.size]
        exact (huniform t (List.mem_of_getElem? hlog)).size
      -- pages that are left alone have been the same since `d`
      have hsince {o : Nat} {data : List UInt8} {d' : Nat} (hd' : d' ≤ ckptId)
          (hcontent : ∀ n, d' ≤ n → n ≤ max b ckptId → content base wal.changes n o = some data)
          (hnone : latest (c.pageOf o) ckptId = none) (n : Nat) (hn : d ≤ n) (hnb : n ≤ b) :
          content base wal.changes n o = some data := by
        rcases hview.latest_page hdisk hwf (by omega) hckpt (hcontent ckptId hd' (by omega)) with
          ⟨e, he, -⟩ | ⟨-, huntouched, hm⟩
        · exact absurd (he.symm.trans hnone) (Option.some_ne_none e)
        · rcases Nat.le_total n ckptId with hbefore | hbehind
          · exact (content_stable (by omega) (huntouched.take hbefore)).trans hm
          · exact hcontent n (by omega) (by omega)
      have hinside {o : Nat} {data : List UInt8}
          (hcontent : content base wal.changes ckptId o = some data) : o < tx.dbFileSize :=
        hview.content_inside hwf hlt hle hlookup hcontent
      -- the loop begins with a file of the new size, and nothing written
      have hloop {w : World} (hconn : w.conn = c)
          (hstore : w.store = { st with db := resize 0 st.db tx.dbFileSize }) :
          Yields (do
              copyTxs tx.dbFileSize ckptId []
              let w ← get
              setConn (w.conn.handleCheckpoint ckptId)) w
            (fun _ w' => Backed P base wal.changes ckptId (max b ckptId) w'.store.db
              ∧ ∀ tx', some tx = some tx' → w'.store.db.length = tx'.dbFileSize)
            (fun e w' => e = .capacityExceeded
              ∧ Backed P base wal.changes d (max b ckptId) w'.store.db ∧ ∃ tx', some tx = some tx'
                ∧ st.dbMaxCapacityBytes < tx'.dbFileSize) := by
        have hstart : Copied P tx.dbFileSize st (resize 0 st.db tx.dbFileSize)
            (fun o => latest (above ckptId (c.pageOf o)) ckptId) [] w.store.db := by
          have hnone (o : Nat) : latest (above ckptId (c.pageOf o)) ckptId = none :=
            latest_eq_none_iff.mpr fun id hid => above_of_le hid
          rw [hstore]
          refine ⟨length_resize, fun o => ?_, fun _ _ _ _ => rfl, fun o e data hf _ _ _ => ?_⟩
          · rw [hnone]
            exact ⟨fun hin => absurd hin List.not_mem_nil, fun h => Bool.noConfusion h.2⟩
          · exact absurd ((hnone o).symm.trans hf) (Option.some_ne_none e).symm
        refine (copyTxs_spec hdisk hwf hview huniform hsize hckpt (Nat.le_refl _) hconn
          (by rw [hstore]) hstart).seq ?_ ?_
        · rintro _ w' ⟨rfl, hfull, f', written', hsome, hcopied⟩
          refine ⟨rfl, hcopied.backed hP hsome hsize hdisk hwf hview huniform (by omega) hckpt hbacked hinside
            hd (Nat.le_max_right _ _) (fun hcontent _ n hn hnb => hcontent n hn (by omega)),
            tx, rfl, hfull⟩
        · rintro _ w' ⟨hconn', written', hcopied⟩
          refine ⟨hcopied.backed hP (fun _ _ hf => hf) hsize hdisk hwf hview huniform (by omega) hckpt
            hbacked hinside (Nat.le_refl _) (Nat.le_max_right _ _) (hsince (Nat.le_refl _)),
            fun tx' htx' => ?_⟩
          obtain rfl := Option.some.inj htx'
          exact hcopied.length
      dsimp only
      split
      next hother =>
        refine (truncateDb_yields _ _).seq ?_ ?_
        · rintro _ _ ⟨rfl, rfl, hfull⟩
          exact ⟨rfl, fun o data hcontent ho =>
            hbacked o data (fun n hn hnb => hcontent n hn (by omega)) ho, tx, rfl, hfull⟩
        · rintro _ _ rfl
          exact hloop rfl rfl
      next hsame =>
        -- the file has this size already
        have hlength : st.db.length = tx.dbFileSize := Decidable.of_not_not hsame
        refine hloop rfl ?_
        rw [← hlength, resize_self]

end

end MemoryWriteAhead.WriteAhead
