/-
  MemoryWriteAhead.Library.Encoding
  ─────────────────────────────────
  **NUMERALS, SEPARATORS AND RUNNING SUMS.**

  How numbers are written in symbols of any type, how what has been written is
  taken apart again, and what a running sum over it says.

    • `value_numeral`, `value_places` — a numeral, and a number in a fixed number
      of places, are read back,
    • `value_injective` — in a fixed number of places there is one way to write it,
    • `split_unique` — there is one first separator,
    • `foldl_detects` — a running sum whose steps are injective differs when one of
      its blocks does.

  Nothing here names the program under verification.
-/
import Mathlib.Data.Nat.Digits.Defs
import Mathlib.Data.List.Induction

namespace Encoding

variable {γ : Type*} {b n : Nat} {glyph : Nat → γ} {digit : γ → Nat} {x : γ}

/-! ## §1. Numerals. -/

/-- The number that the symbols spell, the most significant one first. -/
def value (b : Nat) (digit : γ → Nat) (xs : List γ) : Nat :=
  xs.foldl (fun n x => b * n + digit x) 0

theorem value_concat (xs : List γ) : value b digit (xs ++ [x]) = b * value b digit xs + digit x := by
  unfold value
  rw [List.foldl_append]
  rfl

/-- The numeral of a number: its digits without leading zeros. -/
def numeral (b : Nat) (glyph : Nat → γ) (n : Nat) : List γ :=
  if n = 0 then [glyph 0] else (b.digits n).reverse.map glyph

theorem numeral_ne_nil : numeral b glyph n ≠ [] := by
  unfold numeral
  split
  · exact List.cons_ne_nil _ _
  next hn =>
    rw [ne_eq, List.map_eq_nil_iff, List.reverse_eq_nil_iff]
    exact Nat.digits_ne_nil_iff_ne_zero.mpr hn

theorem mem_numeral (hb : 1 < b) (h : x ∈ numeral b glyph n) : ∃ d, d < b ∧ x = glyph d := by
  unfold numeral at h
  split at h
  · exact ⟨0, by omega, List.mem_singleton.mp h⟩
  · obtain ⟨d, hd, rfl⟩ := List.mem_map.mp h
    exact ⟨d, Nat.digits_lt_base hb (List.mem_reverse.mp hd), rfl⟩

/-- Digits with the least significant one first. -/
theorem value_reverse_map (hdigit : ∀ d, d < b → digit (glyph d) = d) {ds : List Nat}
    (hds : ∀ d ∈ ds, d < b) : value b digit (ds.reverse.map glyph) = Nat.ofDigits b ds := by
  induction ds with
  | nil => rfl
  | cons d ds ih =>
      obtain ⟨hd, hrest⟩ := List.forall_mem_cons.mp hds
      rw [List.reverse_cons, List.map_append, List.map_singleton, value_concat, ih hrest,
        hdigit d hd, Nat.ofDigits_cons, Nat.add_comm]

/-- **A numeral is read back.** -/
theorem value_numeral (hb : 1 < b) (hdigit : ∀ d, d < b → digit (glyph d) = d) :
    value b digit (numeral b glyph n) = n := by
  unfold numeral
  split
  next hn =>
    show b * 0 + digit (glyph 0) = n
    rw [hdigit 0 (by omega), hn]
    omega
  · rw [value_reverse_map hdigit fun d hd => Nat.digits_lt_base hb hd, Nat.ofDigits_digits]

/-- **A number in `len` places** is read back as far as it fits. -/
theorem value_places (hdigit : ∀ k, digit (glyph k) = k % b) (len n : Nat) :
    value b digit ((List.range len).map fun i => glyph (n / b ^ (len - 1 - i))) = n % b ^ len := by
  induction len generalizing n with
  | zero =>
      rw [Nat.pow_zero, Nat.mod_one]
      rfl
  | succ len ih =>
      -- the places in front of the last one are those of `n / b`
      have hfront : (List.range len).map (fun i => glyph (n / b ^ (len + 1 - 1 - i)))
          = (List.range len).map fun i => glyph (n / b / b ^ (len - 1 - i)) := by
        refine List.map_congr_left fun i hi => ?_
        have hlt := List.mem_range.mp hi
        rw [Nat.div_div_eq_div_mul, ← Nat.pow_succ',
          show len + 1 - 1 - i = (len - 1 - i) + 1 by omega]
      have hlast : len + 1 - 1 - len = 0 := by omega
      rw [List.range_succ, List.map_append, List.map_singleton, value_concat, hfront, ih, hlast,
        Nat.pow_zero, Nat.div_one, hdigit, Nat.pow_succ', Nat.mod_mul, Nat.add_comm]

theorem value_lt (hdigit : ∀ x, digit x < b) (xs : List γ) : value b digit xs < b ^ xs.length := by
  induction xs using List.reverseRecOn with
  | nil => exact Nat.zero_lt_one
  | append_singleton xs x ih =>
      have hx := hdigit x
      rw [value_concat, List.length_append, List.length_singleton, Nat.pow_succ]
      calc b * value b digit xs + digit x < b * value b digit xs + b := by omega
        _ = b * (value b digit xs + 1) := (Nat.mul_succ _ _).symm
        _ ≤ b * b ^ xs.length := Nat.mul_le_mul_left b ih
        _ = b ^ xs.length * b := Nat.mul_comm _ _

/-- **A number in a fixed number of places** gives back its symbols. -/
theorem value_injective (hdigit : ∀ x, digit x < b) (hinjective : Function.Injective digit)
    {xs ys : List γ} (hlength : xs.length = ys.length)
    (h : value b digit xs = value b digit ys) : xs = ys := by
  induction xs using List.reverseRecOn generalizing ys with
  | nil => exact (List.eq_nil_of_length_eq_zero hlength.symm).symm
  | append_singleton xs x ih =>
      induction ys using List.reverseRecOn with
      | nil => exact absurd hlength (by simp)
      | append_singleton ys y _ =>
          have hx := hdigit x
          have hy := hdigit y
          rw [value_concat, value_concat] at h
          have hlast : digit x = digit y := by
            have hmod : (b * value b digit xs + digit x) % b = (b * value b digit ys + digit y) % b :=
              congrArg (· % b) h
            rwa [Nat.mul_add_mod, Nat.mul_add_mod, Nat.mod_eq_of_lt hx, Nat.mod_eq_of_lt hy] at hmod
          have hfront : value b digit xs = value b digit ys :=
            Nat.eq_of_mul_eq_mul_left (by omega) (show b * _ = b * _ by omega)
          obtain rfl := hinjective hlast
          rw [ih (by simpa using hlength) hfront]

/-! ## §2. Separators. -/

/-- **There is one first separator.**  In front of it all symbols are of one class, and it
is not. -/
theorem split_unique {p : γ → Prop} {xs ys as bs : List γ} {a a' : γ} (hxs : ∀ x ∈ xs, p x)
    (hys : ∀ y ∈ ys, p y) (ha : ¬p a) (ha' : ¬p a') (h : xs ++ a :: as = ys ++ a' :: bs) :
    xs = ys ∧ a = a' ∧ as = bs := by
  induction xs generalizing ys with
  | nil =>
      cases ys with
      | nil =>
          obtain ⟨hhead, htail⟩ := List.cons.inj h
          exact ⟨rfl, hhead, htail⟩
      | cons y ys =>
          obtain ⟨rfl, -⟩ := List.cons.inj h
          exact absurd (hys _ List.mem_cons_self) ha
  | cons x xs ih =>
      obtain ⟨hx, hxs⟩ := List.forall_mem_cons.mp hxs
      cases ys with
      | nil =>
          obtain ⟨rfl, -⟩ := List.cons.inj h
          exact absurd hx ha'
      | cons y ys =>
          obtain ⟨rfl, htail⟩ := List.cons.inj h
          obtain ⟨rfl, hrest⟩ := ih hxs (List.forall_mem_cons.mp hys).2 htail
          exact ⟨rfl, hrest⟩

/-! ## §3. Running sums. -/

section

variable {σ β : Type*} {step : σ → β → σ}

/-- Two sums that are different stay different. -/
theorem foldl_injective (hstate : ∀ block, Function.Injective fun s => step s block)
    (blocks : List β) : Function.Injective fun s => blocks.foldl step s := by
  induction blocks with
  | nil => exact fun s s' h => h
  | cons block blocks ih => exact fun s s' h => hstate block (ih h)

/-- **A running sum detects** that one block is another one. -/
theorem foldl_detects (hstate : ∀ block, Function.Injective fun s => step s block) {s : σ}
    {block block' : β} (front behind : List β)
    (hblock : ∀ s, step s block = step s block' → block = block')
    (h : (front ++ block :: behind).foldl step s = (front ++ block' :: behind).foldl step s) :
    block = block' := by
  rw [List.foldl_append, List.foldl_append, List.foldl_cons, List.foldl_cons] at h
  exact hblock _ (foldl_injective hstate behind h)

end

end Encoding
