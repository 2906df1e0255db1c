/-
  MemoryWriteAhead.WriteAhead.PageStore
  ─────────────────────────────────────
  **WHAT THE WRITE-AHEAD LOG IS FOR.**

  A store of pages with numbered commits: the content behind each commit, and for
  each connection what it has written since its last one.  There are no files here,
  no frames, no overlays and no checkpoints.

    • `PageDraft` — the writes since the last commit,
    • `PageStore.after` — what a call of a connection does to the store,
    • `PageStore.read` — what a connection reads that sees the first `n` commits,
    • `Kept` — the calls for which the log is faithful to the store,
    • `draftOf` — the draft that a transaction in progress stands for,
    • `readingStore` — a run of two connections with its store.
-/
import MemoryWriteAhead.WriteAhead.Interleaving
import MemoryWriteAhead.WriteAhead.Contents

namespace MemoryWriteAhead.WriteAhead

open ZeroFile Outcome Changes Transition

/-! ## §1. Drafts. -/

/-- What a connection has done since its last commit. -/
@[ext] structure PageDraft where
  sets : Nat → Option (List UInt8)
  /-- pages that it has written and cut off again -/
  dropped : Nat → Bool

namespace PageDraft

def empty : PageDraft := ⟨fun _ => none, fun _ => false⟩

def write (d : PageDraft) (o : Nat) (data : List UInt8) : PageDraft :=
  ⟨Function.update d.sets o (some data), Function.update d.dropped o false⟩

def cut (d : PageDraft) (newSize : Nat) : PageDraft where
  sets o := if newSize ≤ o then none else d.sets o
  dropped o := d.dropped o || (decide (newSize ≤ o) && (d.sets o).isSome)

/-- The change that it is as a commit of a database of `size` bytes. -/
def change (d : PageDraft) (size : Nat) : Change Nat (List UInt8) where
  sets := d.sets
  clears o := decide (size ≤ o) || d.dropped o

end PageDraft

/-! ## §2. The store. -/

structure PageStore (Id : Type) where
  changes : List (Change Nat (List UInt8))
  /-- the size of the database behind each commit -/
  sizes : List Nat
  drafts : Id → PageDraft

/-- Whether code has returned. -/
def returned {α : Type} : EStateM.Result WaError World α → Bool
  | .ok _ _ => true
  | .error _ _ => false

/-- Whether the call returns. -/
def Shared.returns {Id : Type} (s : Shared Id) (i : Id) : Call → Bool
  | .write salt2 offset data dstPageSize =>
      (s.conns i).any fun c => returned (WriteAhead.write salt2 offset data dstPageSize ⟨s.store, c⟩)
  | .commit => (s.conns i).any fun c => returned (WriteAhead.commit ⟨s.store, c⟩)
  | _ => true

namespace PageStore

variable {Id : Type}

def start : PageStore Id := ⟨[], [], fun _ => .empty⟩

/-- What connection `i` reads that sees the first `n` commits: its own writes first. -/
def read (p : PageStore Id) (base : Nat → Option (List UInt8)) (i : Id) (n o : Nat) :
    Option (List UInt8) :=
  ((p.drafts i).sets o).orElse fun _ => content base p.changes n o

variable [DecidableEq Id]

def put (p : PageStore Id) (i : Id) (d : PageDraft) : PageStore Id :=
  { p with drafts := Function.update p.drafts i d }

/-- A commit without page 1 is none; page 1 says how large the database is. -/
def commit (p : PageStore Id) (i : Id) : PageStore Id :=
  match (p.drafts i).sets 0 with
  | none => p.put i .empty
  | some page1 =>
      let size := getUint32 page1 28 * page1.length
      { p.put i .empty with
        changes := p.changes ++ [(p.drafts i).change size]
        sizes := p.sizes ++ [size] }

/-- A write or a commit that throws does nothing. -/
def after (p : PageStore Id) (s : Shared Id) (l : Id × Call) : PageStore Id :=
  match l.2 with
  | .write _ offset data _ =>
      if s.returns l.1 l.2 then p.put l.1 ((p.drafts l.1).write offset data) else p
  -- none of these throws
  | .truncate newSize => p.put l.1 ((p.drafts l.1).cut newSize)
  | .rollback | .close | .dies => p.put l.1 .empty
  | .commit => if s.returns l.1 l.2 then p.commit l.1 else p
  | _ => p

theorem put_self (p : PageStore Id) (i : Id) (d : PageDraft) : (p.put i d).drafts i = d :=
  Function.update_self _ _ _

theorem put_ne (p : PageStore Id) {i j : Id} (h : j ≠ i) (d : PageDraft) :
    (p.put i d).drafts j = p.drafts j := Function.update_of_ne h _ _

theorem put_same (p : PageStore Id) (i : Id) : p.put i (p.drafts i) = p := by
  unfold put
  rw [Function.update_eq_self]

end PageStore

/-- Writes are whole pages of one size, a connection does not die in the middle of a full
checkpoint, and the steps are those that keep the log. -/
def Kept {Id : Type} (P : Nat) (x : Shared Id × PageStore Id) (l : Id × Call) : Prop :=
  match l.2 with
  | .write _ offset data dstPageSize =>
      offset % P = 0 ∧ data.length = P ∧ (dstPageSize = none ∨ dstPageSize = some P)
  | .dies => x.1.Free l.1
  | _ => Settled x.1 l

/-! ## §3. Transactions in progress. -/

/-- The draft of these pages, whose frames stand behind the log. -/
def PageDraft.of (pages : JsMap PageEntry) (fs : List PageFrame) : PageDraft where
  sets o := if (pages.lookup o).isSome then lastFrame o fs else none
  dropped o := decide (o ∈ fs.map Prod.fst ∧ pages.lookup o = none)

def draftOf (inProgress : Option Transaction) (fs : List PageFrame) : PageDraft :=
  inProgress.elim .empty fun tx => .of tx.pages fs

section

variable {pages : JsMap PageEntry} {fs : List PageFrame} {o n : Nat} {data : List UInt8}
  {e : PageEntry} {tx : Transaction}

theorem PageDraft.of_nothing : PageDraft.of ∅ [] = .empty := by
  ext o : 2
  · show (if ((∅ : JsMap PageEntry).lookup o).isSome then lastFrame o [] else none) = none
    rw [AList.lookup_empty]
    rfl
  · show decide (o ∈ ([] : List PageFrame).map Prod.fst ∧ (∅ : JsMap PageEntry).lookup o = none)
      = false
    exact decide_eq_false fun hin => absurd hin.1 List.not_mem_nil

theorem PageDraft.empty_cut : PageDraft.empty.cut n = .empty := by
  ext o : 2
  · exact ite_self none
  · show (false || (decide (n ≤ o) && false)) = false
    rw [Bool.and_false, Bool.or_false]

/-- **A page is written.** -/
theorem PageDraft.of_insert :
    (PageDraft.of pages fs).write o data = .of (pages.insert o e) (fs ++ [(o, data)]) := by
  ext o' : 2
  · show Function.update (fun o => if (pages.lookup o).isSome then lastFrame o fs else none) o
      (some data) o' = if ((pages.insert o e).lookup o').isSome then _ else none
    rw [lastFrame_concat]
    by_cases ho : o' = o
    · subst ho
      rw [Function.update_self, AList.lookup_insert, if_pos rfl]
      rfl
    · rw [Function.update_of_ne ho, AList.lookup_insert_ne ho]
      dsimp only
      rw [if_neg (show ¬o = o' from fun h => ho h.symm)]
  · show Function.update (fun o => decide (o ∈ fs.map Prod.fst ∧ pages.lookup o = none)) o false o'
      = decide (o' ∈ (fs ++ [(o, data)]).map Prod.fst ∧ (pages.insert o e).lookup o' = none)
    by_cases ho : o' = o
    · subst ho
      rw [Function.update_self, AList.lookup_insert]
      simp
    · have hin : o' ∈ (fs ++ [(o, data)]).map Prod.fst ↔ o' ∈ fs.map Prod.fst := by
        rw [List.map_append, List.mem_append]
        exact or_iff_left fun h => ho (List.mem_singleton.mp h)
      rw [Function.update_of_ne ho, AList.lookup_insert_ne ho]
      exact decide_eq_decide.mpr (and_congr_left' hin.symm)

theorem lookup_erased (newSize : Nat) (offsets : List Nat) (pages : JsMap PageEntry) (o : Nat) :
    (offsets.foldl (fun pages offset => if newSize ≤ offset then pages.erase offset else pages)
        pages).lookup o
      = if o ∈ offsets ∧ newSize ≤ o then none else pages.lookup o := by
  induction offsets generalizing pages with
  | nil => rw [if_neg fun h => absurd h.1 List.not_mem_nil]; rfl
  | cons first offsets ih =>
      rw [List.foldl_cons, ih]
      by_cases hin : o ∈ offsets ∧ newSize ≤ o
      · rw [if_pos hin, if_pos ⟨List.mem_cons_of_mem first hin.1, hin.2⟩]
      · rw [if_neg hin]
        by_cases hfirst : o = first ∧ newSize ≤ o
        · obtain ⟨rfl, hcut⟩ := hfirst
          rw [if_pos hcut, AList.lookup_erase, if_pos ⟨List.mem_cons_self, hcut⟩]
        · have hkept : ¬(o ∈ first :: offsets ∧ newSize ≤ o) := fun h =>
            (List.mem_cons.mp h.1).elim (fun ho => hfirst ⟨ho, h.2⟩) fun hrest => hin ⟨hrest, h.2⟩
          have hsame : (if newSize ≤ first then pages.erase first else pages).lookup o
              = pages.lookup o := by
            split
            next hcut => exact AList.lookup_erase_ne fun ho => hfirst ⟨ho, ho ▸ hcut⟩
            next => rfl
          rw [if_neg hkept]
          exact hsame

/-- What is left of the pages. -/
theorem lookup_cut_eq (tx : Transaction) (newSize o : Nat) :
    (tx.cut newSize).pages.lookup o = if newSize ≤ o then none else tx.pages.lookup o := by
  refine (lookup_erased newSize tx.pages.keys tx.pages o).trans ?_
  by_cases hcut : newSize ≤ o
  · rw [if_pos hcut]
    split
    next => rfl
    next hnot => exact AList.lookup_eq_none.mpr fun hin => hnot ⟨hin, hcut⟩
  · rw [if_neg hcut, if_neg fun h => hcut h.2]

/-- **Pages are cut off**; each of them has a frame. -/
theorem PageDraft.of_cut (hframe : ∀ o, (tx.pages.lookup o).isSome → (lastFrame o fs).isSome) :
    (PageDraft.of tx.pages fs).cut n = .of (tx.cut n).pages fs := by
  ext o : 2
  · show (if n ≤ o then none else if (tx.pages.lookup o).isSome then lastFrame o fs else none)
      = if ((tx.cut n).pages.lookup o).isSome then lastFrame o fs else none
    rw [lookup_cut_eq]
    by_cases hcut : n ≤ o
    · rw [if_pos hcut, if_pos hcut]
      rfl
    · rw [if_neg hcut, if_neg hcut]
  · show (decide (o ∈ fs.map Prod.fst ∧ tx.pages.lookup o = none)
        || (decide (n ≤ o) && (if (tx.pages.lookup o).isSome then lastFrame o fs else none).isSome))
      = decide (o ∈ fs.map Prod.fst ∧ (tx.cut n).pages.lookup o = none)
    rw [lookup_cut_eq]
    by_cases hcut : n ≤ o
    · cases hpage : tx.pages.lookup o with
      | none => simp [hcut]
      | some e =>
          have hsome := hframe o (by rw [hpage]; rfl)
          have hin := lastFrame_isSome_iff.mp hsome
          simp only [hcut, hsome, hin, if_true, decide_true, Bool.and_true, Bool.or_true,
            Option.isSome_some, and_self]
    · simp [hcut]

/-- **The change of a commit** is the one of its transaction in the log. -/
theorem PageDraft.of_change :
    (PageDraft.of tx.pages fs).change tx.dbFileSize = (tx.image fs).change := by
  have hdropped (o : Nat) : o ∈ (tx.image fs).dropped
      ↔ o ∈ fs.map Prod.fst ∧ tx.pages.lookup o = none := by
    show o ∈ (fs.map Prod.fst).filter _ ↔ _
    rw [List.mem_filter, Option.isNone_iff_eq_none]
  have hsets : ((PageDraft.of tx.pages fs).change tx.dbFileSize).sets = (tx.image fs).change.sets := by
    funext o
    show (if (tx.pages.lookup o).isSome then lastFrame o fs else none)
      = if o ∈ (tx.image fs).dropped then none else lastFrame o fs
    cases hpage : tx.pages.lookup o with
    | some e =>
        rw [if_neg fun hin => absurd (hpage.symm.trans ((hdropped o).mp hin).2) (Option.some_ne_none e)]
        rfl
    | none =>
        by_cases hin : o ∈ fs.map Prod.fst
        · rw [if_pos ((hdropped o).mpr ⟨hin, hpage⟩)]
          rfl
        · rw [if_neg fun h => hin ((hdropped o).mp h).1]
          exact (Option.not_isSome_iff_eq_none.mp fun h => hin (lastFrame_isSome_iff.mp h)).symm
  have hclears : ((PageDraft.of tx.pages fs).change tx.dbFileSize).clears
      = (tx.image fs).change.clears := by
    funext o
    show (decide (tx.dbFileSize ≤ o) || decide (o ∈ fs.map Prod.fst ∧ tx.pages.lookup o = none))
      = decide (tx.dbFileSize ≤ o ∨ o ∈ (tx.image fs).dropped)
    rw [Bool.decide_or, decide_eq_decide.mpr (hdropped o)]
  exact congrArg₂ Change.mk hsets hclears

end

/-! ## §4. Two connections. -/

end MemoryWriteAhead.WriteAhead
