/-
  MemoryWriteAhead.Library.ZeroFile
  ─────────────────────────────────
  **A ZERO-FILLED FILE AS A LIST.**

  The content of a file is the list of its elements.  A write beyond the end
  and a truncate to a larger size fill the gap with one element `z`.

    • `readAt`, `writeAt`, `resize` — the three operations,
    • `prefix_writeAt`, `append_prefix_writeAt` — a write behind a prefix keeps
      it, a write at its end extends it,
    • `readAt_of_prefix` — what is read inside a prefix,
    • `mem_drop_writeAt`, `mem_drop_resize` — where the elements behind a
      position come from.

  Nothing here names the program under verification.
-/
import MemoryWriteAhead.Library.FlatFile
import Mathlib.Data.List.Infix

namespace ZeroFile

variable {α : Type*} {z : α} {xs ys pre : List α} {offset n : Nat}

/-! ## §1. The operations. -/

/-- At most `n` elements from `offset` on. -/
def readAt (xs : List α) (offset n : Nat) : List α := (xs.drop offset).take n

/-- The file with `ys` written at `offset`. -/
def writeAt (z : α) (xs : List α) (offset : Nat) (ys : List α) : List α :=
  overwrite (xs ++ List.replicate (offset + ys.length - xs.length) z) offset ys

/-- The file truncated or extended to `n` elements. -/
def resize (z : α) (xs : List α) (n : Nat) : List α :=
  xs.take n ++ List.replicate (n - xs.length) z

/-! ## §2. Sizes and elements. -/

theorem length_readAt : (readAt xs offset n).length = min n (xs.length - offset) := by
  simp [readAt]

theorem length_writeAt : (writeAt z xs offset ys).length = max xs.length (offset + ys.length) := by
  have hfit : offset + ys.length
      ≤ (xs ++ List.replicate (offset + ys.length - xs.length) z).length := by
    simp only [List.length_append, List.length_replicate]
    omega
  unfold writeAt
  rw [length_overwrite hfit]
  simp only [List.length_append, List.length_replicate]
  omega

theorem length_resize : (resize z xs n).length = n := by
  simp only [resize, List.length_append, List.length_take, List.length_replicate]
  omega

/-- A file of this size already stays as it is. -/
theorem resize_self : resize z xs xs.length = xs := by
  unfold resize
  rw [List.take_length, Nat.sub_self, List.replicate_zero, List.append_nil]

theorem getElem?_readAt (p : Nat) :
    (readAt xs offset n)[p]? = if p < n then xs[offset + p]? else none := by
  unfold readAt
  by_cases hp : p < n
  · rw [if_pos hp, List.getElem?_take_of_lt hp, List.getElem?_drop]
  · rw [if_neg hp, List.getElem?_take_eq_none (by omega)]

theorem getElem?_writeAt (p : Nat) :
    (writeAt z xs offset ys)[p]? =
      if offset ≤ p ∧ p < offset + ys.length then ys[p - offset]?
      else if p < xs.length then xs[p]? else if p < offset then some z else none := by
  have hfit : offset + ys.length
      ≤ (xs ++ List.replicate (offset + ys.length - xs.length) z).length := by
    simp only [List.length_append, List.length_replicate]
    omega
  unfold writeAt
  rw [getElem?_overwrite hfit]
  by_cases hin : offset ≤ p ∧ p < offset + ys.length
  · rw [if_pos hin, if_pos hin]
  · rw [if_neg hin, if_neg hin]
    by_cases hold : p < xs.length
    · rw [if_pos hold, List.getElem?_append_left hold]
    · rw [if_neg hold, List.getElem?_append_right (by omega), List.getElem?_replicate]
      by_cases hgap : p < offset
      · rw [if_pos hgap, if_pos (by omega)]
      · rw [if_neg hgap, if_neg (by omega)]

theorem getElem?_resize (p : Nat) :
    (resize z xs n)[p]? =
      if p < n then (if p < xs.length then xs[p]? else some z) else none := by
  unfold resize
  by_cases hp : p < n
  · rw [if_pos hp]
    by_cases hold : p < xs.length
    · rw [if_pos hold, List.getElem?_append_left (by rw [List.length_take]; omega),
        List.getElem?_take_of_lt hp]
    · rw [if_neg hold, List.getElem?_append_right (by rw [List.length_take]; omega),
        List.getElem?_replicate, if_pos (by rw [List.length_take]; omega)]
  · rw [if_neg hp, List.getElem?_eq_none]
    simp only [List.length_append, List.length_take, List.length_replicate]
    omega

/-! ## §3. Prefixes. -/

theorem isPrefix_iff_getElem? : pre <+: xs ↔ ∀ p, p < pre.length → xs[p]? = pre[p]? := by
  rw [List.prefix_iff_getElem?]
  refine ⟨fun h p hp => by rw [h p hp, List.getElem?_eq_getElem hp], fun h p hp => ?_⟩
  rw [h p hp, List.getElem?_eq_getElem hp]

/-- A write behind a prefix keeps it. -/
theorem prefix_writeAt (h : pre <+: xs) (hbehind : pre.length ≤ offset) :
    pre <+: writeAt z xs offset ys := by
  have hlen := h.length_le
  rw [isPrefix_iff_getElem?] at h ⊢
  intro p hp
  rw [getElem?_writeAt, if_neg (by omega), if_pos (by omega)]
  exact h p hp

/-- A write at the end of a prefix extends it. -/
theorem append_prefix_writeAt (h : pre <+: xs) (hend : pre.length = offset) :
    pre ++ ys <+: writeAt z xs offset ys := by
  have hlen := h.length_le
  rw [isPrefix_iff_getElem?] at h ⊢
  intro p hp
  rw [List.length_append] at hp
  rw [getElem?_writeAt]
  by_cases hin : offset ≤ p
  · rw [if_pos ⟨hin, by omega⟩, List.getElem?_append_right (by omega), hend]
  · rw [if_neg (by omega), if_pos (by omega), List.getElem?_append_left (by omega)]
    exact h p (by omega)

/-- Truncating behind a prefix keeps it. -/
theorem prefix_resize (h : pre <+: xs) (hbehind : pre.length ≤ n) : pre <+: resize z xs n := by
  have hlen := h.length_le
  rw [isPrefix_iff_getElem?] at h ⊢
  intro p hp
  rw [getElem?_resize, if_pos (by omega), if_pos (by omega)]
  exact h p hp

/-- What is read inside a prefix is what the prefix has there. -/
theorem readAt_of_prefix {a b : List α} (h : a ++ b <+: xs) (hoffset : a.length = offset)
    (hn : b.length = n) : readAt xs offset n = b := by
  obtain ⟨c, rfl⟩ := h
  unfold readAt
  rw [List.append_assoc, List.drop_append_of_le_length (by omega), ← hoffset, ← hn]
  simp

/-- A part of a part. -/
theorem readAt_readAt {start k : Nat} (h : start + k ≤ n) :
    readAt (readAt xs offset n) start k = readAt xs (offset + start) k := by
  apply List.ext_getElem?
  intro p
  rw [getElem?_readAt, getElem?_readAt, getElem?_readAt]
  by_cases hp : p < k
  · rw [if_pos hp, if_pos hp, if_pos (by omega), Nat.add_assoc]
  · rw [if_neg hp, if_neg hp]

/-- Reading inside the part that a write leaves alone. -/
theorem readAt_writeAt_of_le (h : offset + n ≤ xs.length) {at' : Nat}
    (hbehind : offset + n ≤ at') :
    readAt (writeAt z xs at' ys) offset n = readAt xs offset n := by
  apply List.ext_getElem?
  intro p
  rw [getElem?_readAt, getElem?_readAt]
  by_cases hp : p < n
  · rw [if_pos hp, if_pos hp, getElem?_writeAt, if_neg (by omega), if_pos (by omega)]
  · rw [if_neg hp, if_neg hp]

/-- Reading beside what a write changes. -/
theorem readAt_writeAt_beside {start : Nat} (h : offset + n ≤ xs.length)
    (hbeside : offset + n ≤ start ∨ start + ys.length ≤ offset) :
    readAt (writeAt z xs start ys) offset n = readAt xs offset n := by
  apply List.ext_getElem?
  intro p
  rw [getElem?_readAt, getElem?_readAt]
  by_cases hp : p < n
  · rw [if_pos hp, if_pos hp, getElem?_writeAt, if_neg (by omega), if_pos (by omega)]
  · rw [if_neg hp, if_neg hp]

/-- What has been written is read back. -/
theorem readAt_writeAt_self : readAt (writeAt z xs offset ys) offset ys.length = ys := by
  apply List.ext_getElem?
  intro p
  rw [getElem?_readAt]
  by_cases hp : p < ys.length
  · rw [if_pos hp, getElem?_writeAt, if_pos (by omega), Nat.add_sub_cancel_left]
  · rw [if_neg hp, List.getElem?_eq_none (by omega)]

/-- Reading a part that has the whole of what a write changes. -/
theorem readAt_writeAt_inside {start : Nat} (hstart : offset ≤ start)
    (hend : start + ys.length ≤ offset + n) (h : offset + n ≤ xs.length) :
    readAt (writeAt z xs start ys) offset n = writeAt z (readAt xs offset n) (start - offset) ys := by
  have hlength : (readAt xs offset n).length = n := by
    rw [length_readAt]
    omega
  apply List.ext_getElem?
  intro p
  rw [getElem?_readAt]
  by_cases hp : p < n
  · rw [if_pos hp, getElem?_writeAt, getElem?_writeAt, hlength, getElem?_readAt, if_pos hp]
    by_cases hin : start ≤ offset + p ∧ offset + p < start + ys.length
    · rw [if_pos hin, if_pos (by omega), show offset + p - start = p - (start - offset) by omega]
    · rw [if_neg hin, if_pos (by omega), if_neg (by omega), if_pos hp]
  · rw [if_neg hp, List.getElem?_eq_none (by rw [length_writeAt, hlength]; omega)]

/-- A write inside the file. -/
theorem writeAt_inside (h : offset + ys.length ≤ xs.length) :
    writeAt z xs offset ys = xs.take offset ++ ys ++ xs.drop (offset + ys.length) := by
  unfold writeAt overwrite
  rw [Nat.sub_eq_zero_of_le h]
  simp

/-- Two parts behind each other. -/
theorem readAt_add (xs : List α) (offset m n : Nat) :
    readAt xs offset (m + n) = readAt xs offset m ++ readAt xs (offset + m) n := by
  unfold readAt
  rw [List.take_add, List.drop_drop]

theorem take_readAt_drop (xs : List α) (offset n : Nat) :
    xs.take offset ++ readAt xs offset n ++ xs.drop (offset + n) = xs := by
  unfold readAt
  rw [List.append_assoc, ← List.drop_drop, List.take_append_drop, List.take_append_drop]

/-- Truncating behind a part leaves the part. -/
theorem readAt_resize_of_le {k : Nat} (h : offset + n ≤ xs.length) (hbehind : offset + n ≤ k) :
    readAt (resize z xs k) offset n = readAt xs offset n := by
  apply List.ext_getElem?
  intro p
  rw [getElem?_readAt, getElem?_readAt]
  by_cases hp : p < n
  · rw [if_pos hp, if_pos hp, getElem?_resize, if_pos (by omega), if_pos (by omega)]
  · rw [if_neg hp, if_neg hp]

/-! ## §4. The elements behind a position. -/

theorem mem_drop_iff {x : α} {m : Nat} : x ∈ xs.drop m ↔ ∃ p, m ≤ p ∧ xs[p]? = some x := by
  rw [List.mem_iff_getElem?]
  constructor
  · rintro ⟨i, hi⟩
    rw [List.getElem?_drop] at hi
    exact ⟨m + i, by omega, hi⟩
  · rintro ⟨p, hp, hx⟩
    refine ⟨p - m, ?_⟩
    rw [List.getElem?_drop, show m + (p - m) = p by omega]
    exact hx

/-- Behind any position, a write leaves what was there, what it wrote and the
filling. -/
theorem mem_drop_writeAt {x : α} {m : Nat} (h : x ∈ (writeAt z xs offset ys).drop m) :
    x ∈ xs.drop m ∨ x ∈ ys ∨ x = z := by
  obtain ⟨p, hp, hx⟩ := mem_drop_iff.mp h
  rw [getElem?_writeAt] at hx
  split at hx
  · exact .inr (.inl (List.mem_of_getElem? hx))
  · split at hx
    · exact .inl (mem_drop_iff.mpr ⟨p, hp, hx⟩)
    · split at hx
      · exact .inr (.inr (Option.some.inj hx).symm)
      · exact absurd hx (by simp)

theorem mem_drop_resize {x : α} {m : Nat} (h : x ∈ (resize z xs n).drop m) :
    x ∈ xs.drop m ∨ x = z := by
  obtain ⟨p, hp, hx⟩ := mem_drop_iff.mp h
  rw [getElem?_resize] at hx
  split at hx
  · split at hx
    · exact .inl (mem_drop_iff.mpr ⟨p, hp, hx⟩)
    · exact .inr (Option.some.inj hx).symm
  · exact absurd hx (by simp)

end ZeroFile
