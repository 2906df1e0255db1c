/-
  MemoryWriteAhead.Library.FlatFile
  ─────────────────────────────────
  **A FLAT FILE, SEEN AS WHAT ITS WRITES HAVE LEFT TO BE READ.**

  A `FlatFile` is a size together with the bytes that are still determined by
  earlier writes: `byte p` is the most recent write of position `p` when `p`
  has stayed below the size since, and `none` where no write decides it.

    • `FlatFile.write`, `FlatFile.truncate` — the two operations,
    • `FlatFile.Shows` — a storage with `size` bytes that shows every
      determined byte,
    • `overwrite` — a list with some of its elements replaced, the operation a
      concrete storage makes of its buffers,
    • `FileHistory`, `FileHistory.Left` — a storage that never clears its buffers: a
      byte is what was last written there, whatever the size has been since.

  Nothing here names the program under verification.
-/
import Mathlib.Data.List.Basic

/-! ## §1. Lists. -/

variable {α : Type*}

/-- The elements of a list that is made one by one, each of which may fail. -/
theorem getElem?_mapM {β : Type*} {f : α → Option β} {xs : List α} {ys : List β}
    (h : xs.mapM f = some ys) : ys.length = xs.length ∧
      ∀ (i : Nat) (y : β), ys[i]? = some y → ∃ x, xs[i]? = some x ∧ f x = some y := by
  induction xs generalizing ys with
  | nil =>
      obtain rfl : [] = ys := by simpa using h
      exact ⟨rfl, by simp⟩
  | cons x xs ih =>
      simp only [List.mapM_cons, Option.bind_eq_bind, Option.pure_def,
        Option.bind_eq_some_iff, Option.some.injEq] at h
      obtain ⟨z, hz, zs, hzs, rfl⟩ := h
      obtain ⟨hlen, hall⟩ := ih hzs
      refine ⟨by simp [hlen], fun i y hy => ?_⟩
      cases i with
      | zero =>
          obtain rfl : z = y := by simpa using hy
          exact ⟨x, by simp, hz⟩
      | succ i => simpa using hall i y (by simpa using hy)

/-- `xs` with the elements from `offset` on replaced by `ys`. -/
def overwrite (xs : List α) (offset : Nat) (ys : List α) : List α :=
  xs.take offset ++ ys ++ xs.drop (offset + ys.length)

theorem length_overwrite {xs ys : List α} {offset : Nat}
    (h : offset + ys.length ≤ xs.length) : (overwrite xs offset ys).length = xs.length := by
  simp only [overwrite, List.length_append, List.length_take, List.length_drop]
  omega

theorem getElem?_overwrite {xs ys : List α} {offset : Nat}
    (h : offset + ys.length ≤ xs.length) (p : Nat) :
    (overwrite xs offset ys)[p]? =
      if offset ≤ p ∧ p < offset + ys.length then ys[p - offset]? else xs[p]? := by
  have htake : (xs.take offset).length = offset := by
    rw [List.length_take]
    omega
  unfold overwrite
  by_cases hlow : p < offset
  · rw [if_neg (by omega), List.append_assoc, List.getElem?_append_left (by omega),
      List.getElem?_take_of_lt hlow]
  · by_cases hhigh : p < offset + ys.length
    · rw [if_pos ⟨by omega, hhigh⟩, List.append_assoc, List.getElem?_append_right (by omega),
        htake, List.getElem?_append_left (by omega)]
    · rw [if_neg (by omega), List.getElem?_append_right (by rw [List.length_append]; omega),
        List.length_append, htake, List.getElem?_drop]
      congr 1
      omega

/-! ## §2. The flat file. -/

/-- A size and the bytes that earlier writes determine. -/
structure FlatFile (α : Type*) where
  size : Nat
  byte : Nat → Option α

namespace FlatFile

def empty : FlatFile α := ⟨0, fun _ => none⟩

/-- A write determines its own positions and keeps every other. -/
def write (f : FlatFile α) (offset : Nat) (ys : List α) : FlatFile α where
  size := max f.size (offset + ys.length)
  byte p := if offset ≤ p ∧ p < offset + ys.length then ys[p - offset]? else f.byte p

/-- A truncate forgets what lies beyond the new size. -/
def truncate (f : FlatFile α) (size : Nat) : FlatFile α where
  size := size
  byte p := if p < size then f.byte p else none

/-- A storage of this size shows every byte that the flat file determines. -/
structure Shows (f : FlatFile α) (size : Nat) (byteAt : Nat → Option α) : Prop where
  size_eq : size = f.size
  below : ∀ p b, f.byte p = some b → p < f.size
  shown : ∀ p b, f.byte p = some b → byteAt p = some b

theorem Shows.empty {byteAt : Nat → Option α} : (FlatFile.empty : FlatFile α).Shows 0 byteAt :=
  ⟨rfl, fun _ _ h => absurd h (by simp [FlatFile.empty]),
    fun _ _ h => absurd h (by simp [FlatFile.empty])⟩

variable {f : FlatFile α} {size size' : Nat} {byteAt byteAt' : Nat → Option α}

/-- A storage that places the bytes of a write and keeps the others below its
old size shows the flat file after the write. -/
theorem Shows.write (h : f.Shows size byteAt) {offset : Nat} {ys : List α}
    (hsize : size' = max size (offset + ys.length))
    (hplaced : ∀ i, i < ys.length → byteAt' (offset + i) = ys[i]?)
    (hkept : ∀ p, p < size → ¬(offset ≤ p ∧ p < offset + ys.length) → byteAt' p = byteAt p) :
    (f.write offset ys).Shows size' byteAt' := by
  refine ⟨?_, fun p b hb => ?_, fun p b hb => ?_⟩
  · rw [hsize, h.size_eq]
    rfl
  · show p < max f.size (offset + ys.length)
    simp only [FlatFile.write] at hb
    split at hb
    next hin => omega
    next =>
      have hlt := h.below p b hb
      omega
  · simp only [FlatFile.write] at hb
    split at hb
    next hin =>
      have hplace := hplaced (p - offset) (by omega)
      rw [show offset + (p - offset) = p by omega] at hplace
      rw [hplace, hb]
    next hout =>
      have hlt : p < size := by rw [h.size_eq]; exact h.below p b hb
      rw [hkept p hlt hout]
      exact h.shown p b hb

/-- A storage that keeps the bytes below both sizes shows the flat file after
the truncate. -/
theorem Shows.truncate (h : f.Shows size byteAt) (size' : Nat)
    (hkept : ∀ p, p < size → p < size' → byteAt' p = byteAt p) :
    (f.truncate size').Shows size' byteAt' := by
  refine ⟨rfl, fun p b hb => ?_, fun p b hb => ?_⟩ <;> simp only [FlatFile.truncate] at hb <;>
    split at hb
  case refine_1.isTrue hlt => exact hlt
  case refine_1.isFalse => cases hb
  case refine_2.isTrue hlt =>
    have hold : p < size := by rw [h.size_eq]; exact h.below p b hb
    rw [hkept p hold hlt]
    exact h.shown p b hb
  case refine_2.isFalse => cases hb

end FlatFile

/-! ## §3. Buffers that are never cleared. -/

/-- A flat file and what the last write of each position has written, `z` where
there was none. -/
structure FileHistory (α : Type*) where
  flat : FlatFile α
  last : Nat → α

namespace FileHistory

def empty (z : α) : FileHistory α := ⟨FlatFile.empty, fun _ => z⟩

def write (h : FileHistory α) (offset : Nat) (ys : List α) : FileHistory α where
  flat := h.flat.write offset ys
  last p := if offset ≤ p ∧ p < offset + ys.length then (ys[p - offset]?).getD (h.last p)
    else h.last p

/-- A truncate takes bytes out of the file, not out of the history. -/
def truncate (h : FileHistory α) (size : Nat) : FileHistory α :=
  { h with flat := h.flat.truncate size }

/-- A position that no write has determined since the size was last at or below it. -/
def Gap (h : FileHistory α) (p : Nat) : Prop := p < h.flat.size ∧ h.flat.byte p = none

/-- **A storage whose buffers hold what the writes have left there**, and `z` where
nothing was ever written. -/
structure Left (z : α) (h : FileHistory α) (size : Nat) (byteAt : Nat → Option α) : Prop where
  shows : h.flat.Shows size byteAt
  left : ∀ p b, byteAt p = some b → b = h.last p
  fresh : ∀ p, byteAt p = none → h.last p = z

variable {z : α} {h : FileHistory α} {size size' : Nat} {byteAt byteAt' : Nat → Option α}

theorem Left.empty (hz : ∀ p b, byteAt p = some b → b = z) :
    (FileHistory.empty z).Left z 0 byteAt :=
  ⟨FlatFile.Shows.empty, hz, fun _ _ => rfl⟩

/-- Growing a buffer by `z` leaves the file and its history as they were. -/
theorem Left.grow (hl : h.Left z size byteAt)
    (hkept : ∀ p b, byteAt p = some b → byteAt' p = some b)
    (hgrown : ∀ p b, byteAt' p = some b → byteAt p = some b ∨ byteAt p = none ∧ b = z) :
    h.Left z size byteAt' := by
  refine ⟨⟨hl.shows.size_eq, hl.shows.below, fun p b hb => ?_⟩, fun p b hb => ?_, fun p hp => ?_⟩
  · exact hkept p b (hl.shows.shown p b hb)
  · rcases hgrown p b hb with hold | ⟨hnone, rfl⟩
    · exact hl.left p b hold
    · exact (hl.fresh p hnone).symm
  · refine hl.fresh p ?_
    cases hold : byteAt p with
    | none => rfl
    | some b =>
        rw [hkept p b hold] at hp
        cases hp

/-- **A write** of positions that are in the buffers. -/
theorem Left.write (hl : h.Left z size byteAt) {offset : Nat} {ys : List α}
    (hsize : size' = max size (offset + ys.length))
    (hbytes : ∀ p, byteAt' p =
      if offset ≤ p ∧ p < offset + ys.length then ys[p - offset]? else byteAt p) :
    (h.write offset ys).Left z size' byteAt' := by
  have hplaced (p : Nat) (hp : offset ≤ p ∧ p < offset + ys.length) :
      ∃ b, ys[p - offset]? = some b :=
    ⟨_, List.getElem?_eq_getElem (by omega)⟩
  refine ⟨hl.shows.write hsize (fun i hi => ?_) (fun p _ hout => ?_), fun p b hb => ?_,
    fun p hp => ?_⟩
  · rw [hbytes, if_pos (by omega), show offset + i - offset = i by omega]
  · rw [hbytes, if_neg hout]
  · rw [hbytes] at hb
    simp only [FileHistory.write]
    split at hb
    next hin => rw [if_pos hin, hb]; rfl
    next hout => rw [if_neg hout]; exact hl.left p b hb
  · rw [hbytes] at hp
    simp only [FileHistory.write]
    split at hp
    next hin =>
      obtain ⟨b, hb⟩ := hplaced p hin
      rw [hb] at hp
      cases hp
    next hout => rw [if_neg hout]; exact hl.fresh p hp

/-- **A truncate** touches no byte of the buffers. -/
theorem Left.truncate (hl : h.Left z size byteAt) (size' : Nat)
    (hbytes : ∀ p, byteAt' p = byteAt p) : (h.truncate size').Left z size' byteAt' := by
  refine ⟨hl.shows.truncate size' fun p _ _ => hbytes p, fun p b hb => ?_, fun p hp => ?_⟩
  · exact hl.left p b (hbytes p ▸ hb)
  · exact hl.fresh p (hbytes p ▸ hp)

/-- **The gaps read as `z` exactly when nothing else was ever last written there.** -/
theorem Left.gaps_iff (hl : h.Left z size byteAt) (hall : ∀ p, p < size → ∃ b, byteAt p = some b) :
    (∀ p, h.Gap p → byteAt p = some z) ↔ ∀ p, h.Gap p → h.last p = z := by
  constructor
  · intro hz p hp
    exact (hl.left p z (hz p hp)).symm
  · intro hz p hp
    obtain ⟨b, hb⟩ := hall p (hl.shows.size_eq ▸ hp.1)
    rw [hb, hl.left p b hb, hz p hp]

end FileHistory
