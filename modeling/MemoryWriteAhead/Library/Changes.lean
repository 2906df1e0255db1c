/-
  MemoryWriteAhead.Library.Changes
  ────────────────────────────────
  **A BASE AND NUMBERED CHANGES TO IT.**

  A change sets some keys and clears others.  The content behind the first `n`
  changes is what the base and these changes have made of each key; a key that has
  been cleared has no specified value until it is set again.

    • `content` — the content behind the first `n` changes,
    • `content_cases` — a value is from a change behind `m`, or it has been there
      since `m`,
    • `content_stable` — changes that do not touch a key leave its value.

  Nothing here names the program under verification.
-/
import MemoryWriteAhead.Library.Versions

namespace Changes

open Versions

/-- What one change does to the keys. -/
structure Change (Key Val : Type*) where
  sets : Key → Option Val
  clears : Key → Bool

variable {Key Val : Type*} {base : Key → Option Val} {changes more : List (Change Key Val)}
  {k : Key} {a : Val} {m n d : Nat}

/-- The content behind the first `n` changes. -/
def content (base : Key → Option Val) (changes : List (Change Key Val)) : Nat → Key → Option Val
  | 0, k => base k
  | n + 1, k =>
      match changes[n]? with
      | none => content base changes n k
      | some ch => if ch.clears k then none else (ch.sets k).orElse fun _ => content base changes n k

/-- What change `id` sets; the first one is number 1. -/
def setBy (changes : List (Change Key Val)) (k : Key) : Nat → Option Val
  | 0 => none
  | id + 1 => (changes[id]?).bind fun ch => ch.sets k

/-- Whether change `id` clears the key. -/
def clearedBy (changes : List (Change Key Val)) (k : Key) : Nat → Bool
  | 0 => false
  | id + 1 => (changes[id]?).any fun ch => ch.clears k

theorem content_succ : content base changes (n + 1) k
    = if clearedBy changes k (n + 1) then none
      else (setBy changes k (n + 1)).orElse fun _ => content base changes n k := by
  show (match changes[n]? with
    | none => content base changes n k
    | some ch => if ch.clears k then none else _) = _
  have hset : setBy changes k (n + 1) = (changes[n]?).bind fun ch => ch.sets k := rfl
  have hclear : clearedBy changes k (n + 1) = (changes[n]?).any fun ch => ch.clears k := rfl
  rw [hset, hclear]
  cases changes[n]? with
  | none => rfl
  | some ch => rfl

theorem content_succ_of_set (h : setBy changes k (n + 1) = some a)
    (hkept : clearedBy changes k (n + 1) = false) : content base changes (n + 1) k = some a := by
  rw [content_succ, hkept, h]
  rfl

theorem content_succ_of_untouched (h : setBy changes k (n + 1) = none)
    (hkept : clearedBy changes k (n + 1) = false) :
    content base changes (n + 1) k = content base changes n k := by
  rw [content_succ, hkept, h]
  rfl

/-- The changes behind `m` up to `n` do not touch the key. -/
def Untouched (changes : List (Change Key Val)) (k : Key) (m n : Nat) : Prop :=
  ∀ id, m < id → id ≤ n → setBy changes k id = none ∧ clearedBy changes k id = false

theorem Untouched.refl : Untouched changes k n n := fun id hlt hle => absurd hlt (by omega)

theorem Untouched.succ (h : Untouched changes k m n) (hset : setBy changes k (n + 1) = none)
    (hkept : clearedBy changes k (n + 1) = false) : Untouched changes k m (n + 1) := by
  intro id hlt hle
  rcases Nat.lt_or_ge id (n + 1) with hold | hnew
  · exact h id hlt (Nat.le_of_lt_succ hold)
  · obtain rfl := Nat.le_antisymm hle hnew
    exact ⟨hset, hkept⟩

theorem Untouched.mono (h : Untouched changes k m n) (hmd : m ≤ d) : Untouched changes k d n :=
  fun id hlt hle => h id (by omega) hle

theorem Untouched.take (h : Untouched changes k m n) (hdn : d ≤ n) : Untouched changes k m d :=
  fun id hlt hle => h id hlt (by omega)

/-- **What is not touched keeps its value.** -/
theorem content_stable (hmn : m ≤ n) (h : Untouched changes k m n) :
    content base changes n k = content base changes m k := by
  induction n with
  | zero =>
      obtain rfl := Nat.le_zero.mp hmn
      rfl
  | succ n ih =>
      rcases Nat.lt_or_ge m (n + 1) with hlt | hge
      · obtain ⟨hset, hkept⟩ := h (n + 1) hlt (Nat.le_refl _)
        rw [content_succ_of_untouched hset hkept]
        exact ih (by omega) (h.take (Nat.le_succ n))
      · obtain rfl := Nat.le_antisymm hmn hge
        rfl

/-- What a change clears has no value behind it. -/
theorem kept_of_content (h : content base changes (n + 1) k = some a) :
    clearedBy changes k (n + 1) = false := by
  cases hcleared : clearedBy changes k (n + 1) with
  | false => rfl
  | true =>
      rw [content_succ, hcleared] at h
      exact absurd h (Option.some_ne_none a).symm

/-- **A value is from a change behind `m`, or it has been there since `m`.** -/
theorem content_cases (hmn : m ≤ n) (h : content base changes n k = some a) :
    (∃ id, m < id ∧ id ≤ n ∧ setBy changes k id = some a ∧ clearedBy changes k id = false
        ∧ Untouched changes k id n)
      ∨ Untouched changes k m n ∧ content base changes m k = some a := by
  induction n with
  | zero =>
      obtain rfl := Nat.le_zero.mp hmn
      exact .inr ⟨.refl, h⟩
  | succ n ih =>
      rcases Nat.lt_or_ge m (n + 1) with hlt | hge
      · have hkept := kept_of_content h
        cases hset : setBy changes k (n + 1) with
        | some b =>
            rw [content_succ_of_set hset hkept] at h
            exact .inl ⟨n + 1, hlt, Nat.le_refl _, hset.trans h, hkept, .refl⟩
        | none =>
            rw [content_succ_of_untouched hset hkept] at h
            rcases ih (by omega) h with ⟨id, hid, hle, ha, hown, hrest⟩ | ⟨hrest, hm⟩
            · exact .inl ⟨id, hid, Nat.le_succ_of_le hle, ha, hown, hrest.succ hset hkept⟩
            · exact .inr ⟨hrest.succ hset hkept, hm⟩
      · obtain rfl := Nat.le_antisymm hmn hge
        exact .inr ⟨.refl, h⟩

/-- More changes do not change the past. -/
theorem content_append (hn : n ≤ changes.length) :
    content base (changes ++ more) n k = content base changes n k := by
  induction n with
  | zero => rfl
  | succ n ih =>
      have hlt : n < changes.length := hn
      show (match (changes ++ more)[n]? with
        | none => _
        | some ch => _) = (match changes[n]? with
        | none => _
        | some ch => _)
      rw [List.getElem?_append_left hlt, ih (by omega)]

end Changes
