/-
  MemoryWriteAhead.Counters
  ─────────────────────────
  **THE COUNTERS THAT SEVERAL CONTEXTS UPDATE AT ONCE.**

  `memoryWriteAheadSharedRuntime.ts`: `addSaturatingAtomicCounter`,
  `updateAtomicMaxCounter` and `reduceOpenHandleCount`, step by step, next to
  `Atomics.add` on the same word of an `Int32Array`.  Values are whole numbers:
  what `Math.trunc` leaves of them.

    • `effect_takesEffect` — what an undisturbed call does to a word that is not
      negative,
    • `retry_loops_lose_no_update` — any number of contexts in any interleaving:
      every completed call does just that in one step, and what the calls of one
      kind add up to.
-/
import MemoryWriteAhead.Library.RetryLoop
import MemoryWriteAhead.Storage.Layout

namespace MemoryWriteAhead.Counters

open Transition RetryLoop

/-! ## §1. The three loops. -/

def addSaturatingAtomicCounter (delta : Nat) : CasLoop (BitVec 32) Int :=
  let next (current : Int) : Int :=
    if current < 0 then maxInt32AtomicCounter else min maxInt32AtomicCounter (current + delta)
  { retry current := decide (current.toInt < maxInt32AtomicCounter)
    next current := BitVec.ofInt 32 (next current.toInt)
    swapped current := next current.toInt
    ended current := current.toInt }

def updateAtomicMaxCounter (value : Int) : CasLoop (BitVec 32) Int :=
  let nextValue : Int := max 0 (min maxInt32AtomicCounter value)
  { retry current := decide (current.toInt < nextValue)
    next _ := BitVec.ofInt 32 nextValue
    swapped _ := nextValue
    ended current := current.toInt }

/-- `reduceOpenHandleCount`, behind its first test. -/
def reduceOpenHandleCount (releasedHandleCount : Int) : CasLoop (BitVec 32) Int :=
  let next (current : Int) : Int := max 0 (current - releasedHandleCount)
  { retry current := decide (current.toInt > 0)
    next current := BitVec.ofInt 32 (next current.toInt)
    swapped current := current.toInt - next current.toInt
    ended _ := 0 }

/-- A call on the word. -/
inductive Op where
  | addSaturatingAtomicCounter (delta : Nat)
  | updateAtomicMaxCounter (value : Int)
  | reduceOpenHandleCount (releasedHandleCount : Int)
  /-- `Atomics.add` -/
  | add (value : BitVec 32)
  deriving DecidableEq, Repr

def routine : Op → Routine (BitVec 32) Int
  | .addSaturatingAtomicCounter delta => .loop (addSaturatingAtomicCounter delta)
  | .updateAtomicMaxCounter value => .loop (updateAtomicMaxCounter value)
  | .reduceOpenHandleCount releasedHandleCount =>
      if releasedHandleCount ≤ 0 then .constant 0
      else .loop (reduceOpenHandleCount releasedHandleCount)
  | .add value => .update (· + value) BitVec.toInt

/-- Undisturbed, the first two are the updates of a word that nobody else writes. -/
theorem addSaturatingAtomicCounter_effect (delta : Nat) (x : BitVec 32) :
    ((addSaturatingAtomicCounter delta).effect x).1
      = Storage.addSaturatingAtomicCounter x delta := by
  unfold CasLoop.effect addSaturatingAtomicCounter Storage.addSaturatingAtomicCounter
  simp only [decide_eq_true_eq]
  split
  · split
    · rfl
    · rfl
  · rfl

theorem updateAtomicMaxCounter_effect (value : Int) (x : BitVec 32) :
    ((updateAtomicMaxCounter value).effect x).1 = Storage.updateAtomicMaxCounter x value := by
  unfold CasLoop.effect updateAtomicMaxCounter Storage.updateAtomicMaxCounter
  simp only [decide_eq_true_eq]
  split
  · rfl
  · rfl

/-! ## §2. What a call does to a word that is not negative. -/

/-- The word goes from `x` to `x'`, and the call returns `r`. -/
def TakesEffect : Op → BitVec 32 → BitVec 32 → Int → Prop
  | .addSaturatingAtomicCounter delta, x, x', r =>
      0 ≤ x.toInt → x'.toInt = min (maxInt32AtomicCounter : Int) (x.toInt + delta) ∧ r = x'.toInt
  | .updateAtomicMaxCounter value, x, x', r =>
      x'.toInt = max x.toInt (max 0 (min maxInt32AtomicCounter value)) ∧ r = x'.toInt
  | .reduceOpenHandleCount releasedHandleCount, x, x', r =>
      0 ≤ x.toInt → x'.toInt = max 0 (x.toInt - max 0 releasedHandleCount)
        ∧ r = x.toInt - x'.toInt
  | .add value, x, x', r => x' = x + value ∧ r = x.toInt

theorem toInt_le_max (x : BitVec 32) : x.toInt ≤ maxInt32AtomicCounter := by
  have hlt := BitVec.toInt_lt (x := x)
  unfold maxInt32AtomicCounter
  omega

theorem addSaturating_takesEffect (delta : Nat) {x : BitVec 32} (hx : 0 ≤ x.toInt) :
    (((addSaturatingAtomicCounter delta).effect x).1).toInt
        = min (maxInt32AtomicCounter : Int) (x.toInt + delta)
      ∧ ((addSaturatingAtomicCounter delta).effect x).2
        = (((addSaturatingAtomicCounter delta).effect x).1).toInt := by
  have hmax := toInt_le_max x
  have hnext := Storage.toInt_ofInt_of_le (n := min (maxInt32AtomicCounter : Int) (x.toInt + delta))
    (by omega) (by omega)
  unfold CasLoop.effect addSaturatingAtomicCounter
  simp only [decide_eq_true_eq, if_neg (show ¬x.toInt < 0 by omega)]
  split
  · exact ⟨hnext, hnext.symm⟩
  · refine ⟨?_, rfl⟩
    show x.toInt = _
    omega

theorem updateMax_takesEffect (value : Int) (x : BitVec 32) :
    (((updateAtomicMaxCounter value).effect x).1).toInt
        = max x.toInt (max 0 (min maxInt32AtomicCounter value))
      ∧ ((updateAtomicMaxCounter value).effect x).2
        = (((updateAtomicMaxCounter value).effect x).1).toInt := by
  have hnext := Storage.toInt_ofInt_of_le (n := max 0 (min maxInt32AtomicCounter value))
    (by omega) (by omega)
  unfold CasLoop.effect updateAtomicMaxCounter
  simp only [decide_eq_true_eq]
  split
  · exact ⟨by rw [hnext]; omega, hnext.symm⟩
  · refine ⟨?_, rfl⟩
    show x.toInt = _
    omega

theorem reduce_takesEffect {released : Int} (hpos : 0 < released) {x : BitVec 32}
    (hx : 0 ≤ x.toInt) :
    (((reduceOpenHandleCount released).effect x).1).toInt = max 0 (x.toInt - max 0 released)
      ∧ ((reduceOpenHandleCount released).effect x).2
        = x.toInt - (((reduceOpenHandleCount released).effect x).1).toInt := by
  have hmax := toInt_le_max x
  have hnext := Storage.toInt_ofInt_of_le (n := max 0 (x.toInt - released)) (by omega) (by omega)
  unfold CasLoop.effect reduceOpenHandleCount
  simp only [decide_eq_true_eq]
  split
  · exact ⟨by rw [hnext]; omega, by rw [hnext]⟩
  · constructor
    · show x.toInt = _
      omega
    · show 0 = x.toInt - x.toInt
      omega

/-- **Undisturbed, every call takes effect as its name says.** -/
theorem effect_takesEffect {op : Op} {x x' : BitVec 32} {r : Int}
    (h : Does routine op x x' r) : TakesEffect op x x' r := by
  unfold Does at h
  cases op with
  | addSaturatingAtomicCounter delta =>
      intro hx
      obtain ⟨hword, hreturn⟩ := addSaturating_takesEffect delta hx
      obtain ⟨rfl, rfl⟩ := Prod.mk.inj h
      exact ⟨hword, hreturn⟩
  | updateAtomicMaxCounter value =>
      obtain ⟨hword, hreturn⟩ := updateMax_takesEffect value x
      obtain ⟨rfl, rfl⟩ := Prod.mk.inj h
      exact ⟨hword, hreturn⟩
  | reduceOpenHandleCount released =>
      intro hx
      simp only [routine] at h
      split at h
      next hnone =>
        -- nothing is released, and the word is not looked at
        obtain ⟨rfl, rfl⟩ := Prod.mk.inj h
        omega
      next hsome =>
        have hpos : 0 < released := by omega
        obtain ⟨hword, hreturn⟩ := reduce_takesEffect hpos hx
        obtain ⟨rfl, rfl⟩ := Prod.mk.inj h
        exact ⟨hword, hreturn⟩
  | add value =>
      obtain ⟨rfl, rfl⟩ := Prod.mk.inj h
      exact ⟨rfl, rfl⟩

/-- A sum that does not become negative has not wrapped. -/
theorem toInt_add_of_nonneg {x n : BitVec 32} (hx : 0 ≤ x.toInt) (hn : 0 ≤ n.toInt)
    (hsum : 0 ≤ (x + n).toInt) : (x + n).toInt = x.toInt + n.toInt := by
  have hxlt := BitVec.toInt_lt (x := x)
  have hnlt := BitVec.toInt_lt (x := n)
  rw [BitVec.toInt_add] at hsum ⊢
  by_cases hfits : x.toInt + n.toInt < 2 ^ 31
  · exact Int.bmod_eq_of_le (by omega) (by omega)
  · -- otherwise it would have come out 2^32 lower
    have hwrapped : (x.toInt + n.toInt).bmod (2 ^ 32) = x.toInt + n.toInt - 2 ^ 32 := by
      rw [← Int.sub_bmod_right]
      exact Int.bmod_eq_of_le (by omega) (by omega)
    omega

/-! ## §3. Any number of contexts. -/

variable {Ctx : Type} [DecidableEq Ctx]

abbrev Call (Ctx : Type) := Entry Ctx Op (BitVec 32) Int

/-- What the calls of one kind add. -/
def delta (e : Call Ctx) : Int :=
  match e.op with
  | .addSaturatingAtomicCounter delta => delta
  | _ => 0

/-- The value that a call of `updateAtomicMaxCounter` offers. -/
def offered (e : Call Ctx) : Int :=
  match e.op with
  | .updateAtomicMaxCounter value => max 0 (min maxInt32AtomicCounter value)
  | _ => 0

/-- What an `Atomics.add` adds, and what a reduction says it has removed. -/
def balance (e : Call Ctx) : Int :=
  match e.op with
  | .reduceOpenHandleCount _ => -e.returned
  | .add value => value.toInt
  | _ => 0

def total (f : Call Ctx → Int) (es : List (Call Ctx)) : Int := es.foldl (fun n e => n + f e) 0

def maximum (f : Call Ctx → Int) (n : Int) (es : List (Call Ctx)) : Int :=
  es.foldl (fun n e => max n (f e)) n

/-- What holds of the completed calls, in the order of their returns, between the
first word and the present one. -/
structure LosesNoUpdate (x₀ : BitVec 32) (es : List (Call Ctx)) (x : BitVec 32) : Prop where
  /-- each call takes effect in one step, on the word the one before has left -/
  chain : Chain TakesEffect x₀ es x
  additions : 0 ≤ x₀.toInt → (∀ e ∈ es, ∃ delta, e.op = .addSaturatingAtomicCounter delta) →
    x.toInt = min (maxInt32AtomicCounter : Int) (x₀.toInt + total delta es)
  maxima : 0 ≤ x₀.toInt → (∀ e ∈ es, ∃ value, e.op = .updateAtomicMaxCounter value) →
    x.toInt = maximum offered x₀.toInt es
  /-- among increments, on a word that is never negative -/
  reductions : (∀ e ∈ es, 0 ≤ e.before.toInt ∧ ((∃ released, e.op = .reduceOpenHandleCount released)
      ∨ ∃ value, e.op = .add value ∧ 0 ≤ value.toInt)) →
    0 ≤ x.toInt → x.toInt = x₀.toInt + total balance es

omit [DecidableEq Ctx] in
theorem LosesNoUpdate.of_chain {x₀ x : BitVec 32} {es : List (Call Ctx)}
    (h : Chain TakesEffect x₀ es x) : LosesNoUpdate x₀ es x where
  chain := h
  additions h0 hops := by
    have hmax := toInt_le_max x₀
    have hend := h.accumulate (a := 0)
      (fun n y => 0 ≤ n ∧ y.toInt = min (maxInt32AtomicCounter : Int) (x₀.toInt + n))
      (fun n e => n + delta e) ⟨Int.le_refl 0, by omega⟩ ?_
    · exact hend.2
    · rintro n y y' e he - ⟨hn, hy⟩ hdoes
      obtain ⟨d, hop⟩ := hops e he
      have hdelta : delta e = d := by
        unfold delta
        rw [hop]
      rw [hop] at hdoes
      obtain ⟨hword, -⟩ := hdoes (by omega)
      -- two saturations in a row are one
      rw [hdelta]
      omega
  maxima h0 hops := by
    have hend := h.accumulate (a := x₀.toInt) (fun n y => 0 ≤ n ∧ y.toInt = n)
      (fun n e => max n (offered e)) ⟨h0, rfl⟩ ?_
    · exact hend.2
    · rintro n y y' e he - ⟨hn, hy⟩ hdoes
      obtain ⟨value, hop⟩ := hops e he
      have hoffered : offered e = max 0 (min (maxInt32AtomicCounter : Int) value) := by
        unfold offered
        rw [hop]
      rw [hop] at hdoes
      obtain ⟨hword, -⟩ := hdoes
      rw [hoffered]
      omega
  reductions hops hx := by
    have hend := h.accumulate (a := 0) (fun n y => 0 ≤ y.toInt → y.toInt = x₀.toInt + n)
      (fun n e => n + balance e) (fun _ => by omega) ?_
    · exact hend hx
    · intro n y y' e he hbefore hy hdoes hnonneg
      obtain ⟨hpos, hkind⟩ := hops e he
      rw [hbefore] at hpos
      have hcounted := hy hpos
      rcases hkind with ⟨released, hop⟩ | ⟨value, hop, hvalue⟩
      · have hbalance : balance e = -e.returned := by
          unfold balance
          rw [hop]
        rw [hop] at hdoes
        obtain ⟨-, hreturned⟩ := hdoes hpos
        omega
      · have hbalance : balance e = value.toInt := by
          unfold balance
          rw [hop]
        rw [hop] at hdoes
        obtain ⟨rfl, -⟩ := hdoes
        have hsum := toInt_add_of_nonneg hpos hvalue hnonneg
        omega

/-- **No update is lost.**  Any number of contexts call the three loops and
`Atomics.add` on one word, in any interleaving of their atomic steps: each completed
call has taken effect in one step as its name says, and has returned the value or the
amount of that step.  So saturating additions end at the saturated sum, maxima at the
overall maximum, and what reductions return is what they have removed. -/
theorem retry_loops_lose_no_update (x₀ : BitVec 32)
    {c : Config Ctx (BitVec 32) (Pc Op (BitVec 32)) × List (Call Ctx)}
    (h : Reach (runs Ctx routine x₀) anyStep c) : LosesNoUpdate x₀ c.2 c.1.shared :=
  .of_chain ((RetryLoop.chain h).1.mono fun _ _ _ _ => effect_takesEffect)

/-- An addition of 9 loses its first exchange to an increment and saturates with its
second. -/
theorem retry_loops_lose_no_update_contended :
    ∃ c, Reach (runs Bool routine 2147483640#32) anyStep c ∧ c.1.shared = 2147483647#32
      ∧ c.2.length = 2 ∧ LosesNoUpdate 2147483640#32 c.2 c.1.shared := by
  have hstart : Reach (runs Bool routine 2147483640#32) anyStep
      (⟨2147483640#32, fun _ => .idle⟩, []) := .init ⟨⟨rfl, fun _ => rfl⟩, rfl⟩
  obtain ⟨c, hc, h⟩ := hstart.exists_of_commands (recorded_next anyStep exec_next)
    [(false, .call (.addSaturatingAtomicCounter 9)), (false, .step), (true, .call (.add 1)),
      (false, .step), (false, .step)]
    (fun c => decide (c.1.shared = 2147483647#32 ∧ c.2.length = 2)) (by decide)
  obtain ⟨hword, hlength⟩ := of_decide_eq_true h
  exact ⟨c, hc, hword, hlength, retry_loops_lose_no_update _ hc⟩

end MemoryWriteAhead.Counters
