import Mathlib.Data.Nat.Basic

/-!
# While loops

A `While σ ρ` is a loop over states `σ` with results in `ρ`.  A round either goes on in a new state
or ends the loop, and a loop carries a variant that every round which goes on decreases, so that it
ends from every state (`exists_rounds`).  `run` is its result, `states` are the states in which its
rounds begin.

What is proved about a loop goes through two rules: an invariant that the rounds keep holds in all
states of the loop (`forall_mem_states`), and what the last round makes of it holds of the result
(`run_of_invariant`).
-/

/-- A loop whose rounds go on in a new state or end with a result. -/
structure While (σ ρ : Type*) where
  round : σ → σ ⊕ ρ
  variant : σ → ℕ
  variant_lt : ∀ {s s'}, round s = .inl s' → variant s' < variant s

namespace While

variable {σ ρ : Type*} (w : While σ ρ)

/-- The result after at most `n` rounds. -/
def rounds : ℕ → σ → Option ρ
  | 0, _ => none
  | n + 1, s =>
    match w.round s with
    | .inl s' => rounds n s'
    | .inr r => some r

variable {s : σ}

/-- The loop ends after as many rounds as the variant says. -/
theorem exists_rounds {n : ℕ} (h : w.variant s < n) :
  ∃ r, w.rounds n s = some r
  := by
  induction n generalizing s with
  | zero => omega
  | succ n ih =>
    rw [rounds]
    cases hround : w.round s with
    | inl s' =>
      have hlt := w.variant_lt hround
      apply ih (by omega)
    | inr r => exact ⟨r, rfl⟩

/-- The result of the loop from the state `s`. -/
def run (s : σ) : ρ :=
  (w.rounds (w.variant s + 1) s).get
    (Option.isSome_iff_exists.mpr (w.exists_rounds (Nat.lt_succ_self _)))

/-- The states in which the first `n` rounds begin. -/
def statesUpTo : ℕ → σ → List σ
  | 0, _ => []
  | n + 1, s =>
    s :: match w.round s with
    | .inl s' => statesUpTo n s'
    | .inr _ => []

/-- The states in which the rounds of the loop begin. -/
def states (s : σ) : List σ := w.statesUpTo (w.variant s + 1) s

variable {w}

theorem rounds_eq_run {s : σ} :
  w.rounds (w.variant s + 1) s = some (w.run s)
  := by
  rw [run, Option.some_get]

/-- More rounds do not change the result. -/
theorem rounds_add {n : ℕ} (k : ℕ) {r : ρ} (h : w.rounds n s = some r) :
  w.rounds (n + k) s = some r
  := by
  induction n generalizing s with
  | zero => cases h
  | succ n ih =>
    rw [Nat.succ_add]
    rw [rounds] at h ⊢
    cases hround : w.round s with
    | inl s' =>
      rw [hround] at h
      apply ih h
    | inr r' =>
      rw [hround] at h
      apply h

theorem run_eq_of_rounds {n : ℕ} {s : σ} {r : ρ} (h : w.rounds n s = some r) :
  w.run s = r
  := by
  have hrun := rounds_add n (@rounds_eq_run _ _ w s)
  rw [Nat.add_comm, rounds_add _ h, Option.some.injEq] at hrun
  apply hrun.symm

/-- A round that goes on. -/
theorem run_inl {s' : σ} (h : w.round s = .inl s') :
  w.run s = w.run s'
  := by
  apply @run_eq_of_rounds _ _ w (w.variant s' + 1 + 1)
  rw [rounds, h]
  apply rounds_eq_run

/-- The last round. -/
theorem run_inr {r : ρ} (h : w.round s = .inr r) :
  w.run s = r
  := by
  apply @run_eq_of_rounds _ _ w 1
  rw [rounds, h]

/-- What holds before a round if it holds after it, and before the last round, holds of every state. -/
theorem induction {motive : σ → Prop}
    (inl : ∀ {s s'}, w.round s = .inl s' → motive s' → motive s)
    (inr : ∀ {s r}, w.round s = .inr r → motive s) (s : σ) :
  motive s
  := by
  induction s using (measure w.variant).wf.induction with
  | _ s ih =>
    cases h : w.round s with
    | inl s' => apply inl h (ih s' (w.variant_lt h))
    | inr r => apply inr h

/-- What the rounds make of an invariant holds of the result. -/
theorem run_of_invariant (Inv : σ → Prop) (Post : ρ → Prop)
    (hround : ∀ s s', Inv s → w.round s = .inl s' → Inv s')
    (hend : ∀ s r, Inv s → w.round s = .inr r → Post r) (hs : Inv s) :
  Post (w.run s)
  := by
  induction s using w.induction with
  | inl h ih =>
    rw [run_inl h]
    apply ih (hround _ _ hs h)
  | inr h =>
    rw [run_inr h]
    apply hend _ _ hs h

/-- Loops whose rounds agree as long as an invariant holds have the same result. -/
theorem run_congr {w' : While σ ρ} (Inv : σ → Prop)
    (hround : ∀ s s', Inv s → w.round s = .inl s' → Inv s')
    (heq : ∀ s, Inv s → w'.round s = w.round s) (hs : Inv s) :
  w'.run s = w.run s
  := by
  induction s using w.induction with
  | inl h ih =>
    rw [run_inl h, run_inl ((heq _ hs).trans h)]
    apply ih (hround _ _ hs h)
  | inr h => rw [run_inr h, run_inr ((heq _ hs).trans h)]

/-- As many rounds as the variant says are all rounds. -/
theorem statesUpTo_eq_states {n : ℕ} (h : w.variant s < n) :
  w.statesUpTo n s = w.states s
  := by
  induction s using w.induction generalizing n with
  | inl hr ih =>
    have hlt := w.variant_lt hr
    obtain ⟨n, rfl⟩ := Nat.exists_eq_add_one_of_ne_zero (Nat.ne_zero_of_lt h)
    rw [statesUpTo, states, statesUpTo, hr]
    simp only [ih (Nat.lt_of_lt_of_le hlt (Nat.le_of_lt_succ h)), ih hlt]
  | inr hr =>
    obtain ⟨n, rfl⟩ := Nat.exists_eq_add_one_of_ne_zero (Nat.ne_zero_of_lt h)
    rw [statesUpTo, states, statesUpTo, hr]

/-- The states of a loop that goes on. -/
theorem states_inl {s' : σ} (h : w.round s = .inl s') :
  w.states s = s :: w.states s'
  := by
  have hlt := w.variant_lt h
  rw [states, statesUpTo, h]
  simp only [statesUpTo_eq_states hlt]

/-- The states of a loop that ends. -/
theorem states_inr {r : ρ} (h : w.round s = .inr r) :
  w.states s = [s]
  := by
  rw [states, statesUpTo, h]

theorem self_mem_states :
  s ∈ w.states s
  := by
  cases h : w.round s with
  | inl s' => rw [states_inl h]; apply List.mem_cons_self
  | inr r => rw [states_inr h]; apply List.mem_cons_self

/-- An invariant that the rounds keep holds whenever a round begins. -/
theorem forall_mem_states {t : σ} (Inv : σ → Prop)
    (hround : ∀ s s', Inv s → w.round s = .inl s' → Inv s') (hs : Inv s) (ht : t ∈ w.states s) :
  Inv t
  := by
  induction s using w.induction with
  | inl h ih =>
    rw [states_inl h, List.mem_cons] at ht
    rcases ht with rfl | ht
    · exact hs
    · apply ih (hround _ _ hs h) ht
  | inr h =>
    rw [states_inr h, List.mem_singleton] at ht
    rwa [ht]

end While
