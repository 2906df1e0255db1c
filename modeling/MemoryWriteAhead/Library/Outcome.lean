/-
  MemoryWriteAhead.Library.Outcome
  ────────────────────────────────
  **PRE- AND POSTCONDITIONS OF CODE THAT CHANGES A STATE AND MAY THROW.**

  `EStateM ε σ α` is code that returns or throws and keeps what it has done to
  the state in either case.  `Yields m s Q E` says that `m`, started in `s`,
  ends with `Q` if it returns and with `E` if it throws; the rules follow the
  constructs of the code.

  Nothing here names the program under verification.
-/
import Mathlib

namespace Outcome

universe u

variable {ε σ α β : Type u} {m : EStateM ε σ α} {f : α → EStateM ε σ β} {s : σ}

/-- The code ends with `Q` if it returns and with `E` if it throws. -/
def Yields (m : EStateM ε σ α) (s : σ) (Q : α → σ → Prop) (E : ε → σ → Prop) : Prop :=
  match m s with
  | .ok a s' => Q a s'
  | .error e s' => E e s'

variable {Q Q' : α → σ → Prop} {R : β → σ → Prop} {E E' : ε → σ → Prop}

/-- What is known of a run that has returned. -/
theorem Yields.of_ok {a : α} {s' : σ} (h : Yields m s Q E) (hrun : m s = .ok a s') : Q a s' := by
  unfold Yields at h
  rw [hrun] at h
  exact h

/-- What is known of a run that has thrown. -/
theorem Yields.of_error {e : ε} {s' : σ} (h : Yields m s Q E) (hrun : m s = .error e s') :
    E e s' := by
  unfold Yields at h
  rw [hrun] at h
  exact h

/-- A run that is known to return needs its postcondition only. -/
theorem Yields.of_run {a : α} {s' : σ} (hrun : m s = .ok a s') (h : Q a s') : Yields m s Q E := by
  unfold Yields
  rw [hrun]
  exact h

/-- Postconditions may be weakened. -/
theorem Yields.mono (h : Yields m s Q E) (hQ : ∀ a s', Q a s' → Q' a s')
    (hE : ∀ e s', E e s' → E' e s') : Yields m s Q' E' := by
  unfold Yields at h ⊢
  split
  next hrun => rw [hrun] at h; exact hQ _ _ h
  next hrun => rw [hrun] at h; exact hE _ _ h

/-- **Sequencing**: the code goes on where the first part has returned. -/
theorem Yields.bind (h : Yields m s Q E) (hf : ∀ a s', Q a s' → Yields (f a) s' R E) :
    Yields (m >>= f) s R E := by
  unfold Yields at h
  cases hrun : m s with
  | ok a s' =>
      rw [hrun] at h
      have hnext := hf a s' h
      unfold Yields at hnext ⊢
      simp only [Bind.bind, EStateM.bind, hrun]
      exact hnext
  | error e s' =>
      rw [hrun] at h
      unfold Yields
      simp only [Bind.bind, EStateM.bind, hrun]
      exact h

/-- Code that is known, then code from where it returns. -/
theorem Yields.seq (h : Yields m s Q E') (hE : ∀ e s', E' e s' → E e s')
    (hf : ∀ a s', Q a s' → Yields (f a) s' R E) : Yields (m >>= f) s R E :=
  (h.mono (fun _ _ hQ => hQ) hE).bind hf

@[simp] theorem yields_pure {a : α} : Yields (pure a : EStateM ε σ α) s Q E ↔ Q a s := Iff.rfl

/-- Code that looks at the state goes on with it. -/
theorem yields_get_bind {f : σ → EStateM ε σ β} :
    Yields ((get : EStateM ε σ σ) >>= f) s R E ↔ Yields (f s) s R E := Iff.rfl

/-- Code that sets the state goes on from there. -/
theorem yields_set_bind {t : σ} {f : PUnit → EStateM ε σ β} :
    Yields ((set t : EStateM ε σ PUnit) >>= f) s R E ↔ Yields (f ⟨⟩) t R E := Iff.rfl

theorem yields_pure_bind {a : α} :
    Yields ((pure a : EStateM ε σ α) >>= f) s R E ↔ Yields (f a) s R E := Iff.rfl

/-- Sequences may be regrouped. -/
theorem yields_bind_assoc {γ : Type u} {g : β → EStateM ε σ γ} {S : γ → σ → Prop} :
    Yields ((m >>= f) >>= g) s S E ↔ Yields (m >>= fun a => f a >>= g) s S E := by
  have hrun : ((m >>= f) >>= g) s = (m >>= fun a => f a >>= g) s := by
    simp only [Bind.bind, EStateM.bind]
    cases m s with
    | ok a s' => rfl
    | error e s' => rfl
  unfold Yields
  rw [hrun]

/-! ## Runs that are known. -/

/-- Where the first part returns, the rest runs. -/
theorem bind_of_ok {a : α} {s' : σ} (h : m s = .ok a s') : (m >>= f) s = f a s' := by
  simp only [Bind.bind, EStateM.bind, h]

/-- Where it throws, nothing else runs. -/
theorem bind_of_error {e : ε} {s' : σ} (h : m s = .error e s') : (m >>= f) s = .error e s' := by
  simp only [Bind.bind, EStateM.bind, h]

theorem get_bind_run {f : σ → EStateM ε σ β} :
    ((get : EStateM ε σ σ) >>= f) s = f s s := rfl

/-- Code that is followed by more code returns only if it does. -/
theorem ok_of_bind_ok {b : β} {t : σ} (h : (m >>= f) s = .ok b t) :
    ∃ a s', m s = .ok a s' ∧ f a s' = .ok b t := by
  cases hrun : m s with
  | ok a s' => exact ⟨a, s', rfl, (bind_of_ok hrun).symm.trans h⟩
  | error e s' =>
      have hthrows := (bind_of_error hrun).symm.trans h
      cases hthrows

/-! ## Invariants of code. -/

/-- `P` holds after the code, however it ends, if it holds before. -/
def Keeps (P : σ → Prop) (m : EStateM ε σ α) : Prop :=
  ∀ s, P s → Yields m s (fun _ => P) (fun _ => P)

variable {P : σ → Prop}

theorem Keeps.pure (a : α) : Keeps P (pure a : EStateM ε σ α) := fun _ hs => hs

theorem Keeps.throw (e : ε) : Keeps P (throw e : EStateM ε σ α) := fun _ hs => hs

/-- A state is set that satisfies the invariant. -/
theorem Keeps.set {t : σ} (ht : P t) : Keeps P (set t : EStateM ε σ PUnit) := fun _ _ => ht

/-- **An invariant of both parts** is one of the sequence. -/
theorem Keeps.bind (hm : Keeps P m) (hf : ∀ a, Keeps P (f a)) : Keeps P (m >>= f) :=
  fun s hs => (hm s hs).bind fun a s' hs' => hf a s' hs'

/-- What is read of the state satisfies the invariant. -/
theorem Keeps.get {f : σ → EStateM ε σ β} (hf : ∀ s, P s → Keeps P (f s)) :
    Keeps P ((get : EStateM ε σ σ) >>= f) := fun s hs => hf s hs s hs

end Outcome
