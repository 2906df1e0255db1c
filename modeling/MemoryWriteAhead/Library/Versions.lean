/-
  MemoryWriteAhead.Library.Versions
  ─────────────────────────────────
  **THE NEWEST OF NUMBERED VERSIONS.**

  `p id` is what version `id` has of a thing, if it has it.  A reader whose last
  version is `n` sees what the newest version up to `n` has.

    • `latest` — what is seen,
    • `latest_eq_some_iff` — from which version it is,
    • `latest_above` — dropping the versions up to `m` drops what they have, and
      nothing else.

  Nothing here names the program under verification.
-/
import Mathlib.Data.Option.Basic

namespace Versions

variable {α : Type*} {p q : Nat → Option α} {n m : Nat} {a : α}

/-- What the newest version up to `n` has that has it. -/
def latest (p : Nat → Option α) : Nat → Option α
  | 0 => p 0
  | n + 1 => (p (n + 1)).orElse fun _ => latest p n

theorem latest_succ_of_some (h : p (n + 1) = some a) : latest p (n + 1) = some a := by
  unfold latest
  rw [h]
  rfl

theorem latest_succ_of_none (h : p (n + 1) = none) : latest p (n + 1) = latest p n := by
  rw [latest, h]
  rfl

theorem latest_congr (h : ∀ id, id ≤ n → p id = q id) : latest p n = latest q n := by
  induction n with
  | zero => exact h 0 (Nat.le_refl 0)
  | succ n ih =>
      unfold latest
      rw [h (n + 1) (Nat.le_refl _), ih fun id hid => h id (Nat.le_succ_of_le hid)]

/-- **It is from the last version that has it.** -/
theorem latest_eq_some_iff :
    latest p n = some a ↔ ∃ id, id ≤ n ∧ p id = some a ∧ ∀ id', id < id' → id' ≤ n → p id' = none := by
  induction n with
  | zero =>
      constructor
      · intro h
        exact ⟨0, Nat.le_refl 0, h, fun id' hlt hle => by omega⟩
      · rintro ⟨id, hid, h, -⟩
        obtain rfl := Nat.le_zero.mp hid
        exact h
  | succ n ih =>
      cases hlast : p (n + 1) with
      | some b =>
          rw [latest_succ_of_some hlast]
          constructor
          · intro h
            exact ⟨n + 1, Nat.le_refl _, by rw [hlast, h], fun id' hlt hle => by omega⟩
          · rintro ⟨id, hid, h, hnewer⟩
            rcases Nat.lt_or_ge id (n + 1) with hlt | hge
            · exact absurd (hlast.symm.trans (hnewer (n + 1) hlt (Nat.le_refl _)))
                (Option.some_ne_none b)
            · obtain rfl := Nat.le_antisymm hid hge
              exact hlast.symm.trans h
      | none =>
          rw [latest_succ_of_none hlast, ih]
          constructor
          · rintro ⟨id, hid, h, hnewer⟩
            refine ⟨id, Nat.le_succ_of_le hid, h, fun id' hlt hle => ?_⟩
            rcases Nat.lt_or_ge id' (n + 1) with hlt' | hge
            · exact hnewer id' hlt (Nat.le_of_lt_succ hlt')
            · obtain rfl := Nat.le_antisymm hle hge
              exact hlast
          · rintro ⟨id, hid, h, hnewer⟩
            have hne : id ≠ n + 1 := by
              rintro rfl
              exact absurd (h.symm.trans hlast) (Option.some_ne_none a)
            exact ⟨id, by omega, h, fun id' hlt hle => hnewer id' hlt (Nat.le_succ_of_le hle)⟩

theorem latest_eq_none_iff : latest p n = none ↔ ∀ id, id ≤ n → p id = none := by
  induction n with
  | zero =>
      constructor
      · intro h id hid
        obtain rfl := Nat.le_zero.mp hid
        exact h
      · exact fun h => h 0 (Nat.le_refl 0)
  | succ n ih =>
      constructor
      · intro h id hid
        cases hlast : p (n + 1) with
        | some b =>
            rw [latest_succ_of_some hlast] at h
            exact absurd h (Option.some_ne_none b)
        | none =>
            rw [latest_succ_of_none hlast] at h
            rcases Nat.lt_or_ge id (n + 1) with hlt | hge
            · exact ih.mp h id (Nat.le_of_lt_succ hlt)
            · obtain rfl := Nat.le_antisymm hid hge
              exact hlast
      · intro h
        rw [latest_succ_of_none (h (n + 1) (Nat.le_refl _))]
        exact ih.mpr fun id hid => h id (Nat.le_succ_of_le hid)

/-- The versions behind `m` only. -/
def above (m : Nat) (p : Nat → Option α) (id : Nat) : Option α := if id ≤ m then none else p id

theorem above_of_lt {id : Nat} (h : m < id) : above m p id = p id := if_neg (by omega)

theorem above_of_le {id : Nat} (h : id ≤ m) : above m p id = none := if_pos h

/-- **Without the versions up to `m`** the same is seen, if it is from a later one. -/
theorem latest_above_eq_some_iff :
    latest (above m p) n = some a
      ↔ ∃ id, m < id ∧ id ≤ n ∧ p id = some a ∧ ∀ id', id < id' → id' ≤ n → p id' = none := by
  rw [latest_eq_some_iff]
  constructor
  · rintro ⟨id, hid, h, hnewer⟩
    have hlt : m < id := by
      by_contra hle
      rw [above_of_le (by omega)] at h
      exact absurd h (Option.some_ne_none a).symm
    rw [above_of_lt hlt] at h
    exact ⟨id, hlt, hid, h, fun id' hlt' hle => by
      rw [← above_of_lt (p := p) (show m < id' by omega)]
      exact hnewer id' hlt' hle⟩
  · rintro ⟨id, hlt, hid, h, hnewer⟩
    exact ⟨id, hid, by rw [above_of_lt hlt]; exact h, fun id' hlt' hle => by
      rw [above_of_lt (show m < id' by omega)]
      exact hnewer id' hlt' hle⟩

/-- What is seen without the versions up to `m` is what is seen. -/
theorem latest_of_above (h : latest (above m p) n = some a) : latest p n = some a := by
  obtain ⟨id, -, hid, hp, hnewer⟩ := latest_above_eq_some_iff.mp h
  exact latest_eq_some_iff.mpr ⟨id, hid, hp, hnewer⟩

/-- What is seen comes from behind `m`, or from the versions up to `m`. -/
theorem latest_split (h : m ≤ n) :
    latest p n = (latest (above m p) n).orElse fun _ => latest p m := by
  cases habove : latest (above m p) n with
  | some a => exact latest_of_above habove
  | none =>
      have hnone := latest_eq_none_iff.mp habove
      have hbehind (id : Nat) (hlt : m < id) (hle : id ≤ n) : p id = none := by
        rw [← above_of_lt (p := p) hlt]
        exact hnone id hle
      show latest p n = latest p m
      clear habove hnone
      induction n with
      | zero =>
          obtain rfl := Nat.le_zero.mp h
          rfl
      | succ n ih =>
          rcases Nat.lt_or_ge m (n + 1) with hlt | hge
          · rw [latest_succ_of_none (hbehind (n + 1) hlt (Nat.le_refl _))]
            exact ih (by omega) fun id hlt' hle => hbehind id hlt' (Nat.le_succ_of_le hle)
          · obtain rfl := Nat.le_antisymm h hge
            rfl

/-- One version more that is not dropped. -/
theorem latest_above_pred {j : Nat} (h : j + 1 ≤ n) :
    latest (above j p) n = (latest (above (j + 1) p) n).orElse fun _ => p (j + 1) := by
  have hsplit := latest_split (p := above j p) h
  have hrest : latest (above j p) j = none := latest_eq_none_iff.mpr fun id hid => above_of_le hid
  have hlast : latest (above j p) (j + 1) = p (j + 1) := by
    cases hp : p (j + 1) with
    | some a => exact latest_succ_of_some ((above_of_lt (Nat.lt_succ_self j)).trans hp)
    | none => exact (latest_succ_of_none ((above_of_lt (Nat.lt_succ_self j)).trans hp)).trans hrest
  have habove : latest (above (j + 1) (above j p)) n = latest (above (j + 1) p) n := by
    refine latest_congr fun id _ => ?_
    unfold above
    by_cases hid : id ≤ j + 1
    · rw [if_pos hid, if_pos hid]
    · rw [if_neg hid, if_neg hid, if_neg (by omega)]
  rw [hsplit, hlast, habove]

end Versions
