import Mathlib.Data.List.Basic

/-!
# Loops that may fail

A loop over a list whose steps may fail is `l.foldlM step s` in `Option`.  `Loop.steps step l s`
is the list of the steps that it takes: each item that succeeded, with the state that it met.  The
steps before a failure are taken as well, so that a property of the single step
(`forall_mem_steps`) speaks about every step of the loop, whether it ends or not.
-/

namespace Loop

open List

variable {σ ι : Type*} {step : σ → ι → Option σ}

/-- The items that succeed before the first that fails, with the states that they meet. -/
def steps (step : σ → ι → Option σ) : List ι → σ → List (σ × ι)
  | [], _ => []
  | i :: l, s =>
    match step s i with
    | none => []
    | some s' => (s, i) :: steps step l s'

variable {l : List ι}

theorem forall_mem_steps {s : σ} {p : σ × ι} (h : p ∈ steps step l s) :
  p.2 ∈ l ∧ ∃ s', step p.1 p.2 = some s'
  := by
  induction l generalizing s with
  | nil => cases h
  | cons i l ih =>
    rw [steps] at h
    split at h
    · cases h
    · next s' hs' =>
      rcases mem_cons.mp h with rfl | h
      · exact ⟨mem_cons_self, s', hs'⟩
      · obtain ⟨hmem, hstep⟩ := ih h
        exact ⟨mem_cons_of_mem i hmem, hstep⟩

/-- When whether a step succeeds depends on the item only, the items of the steps are those before
the first that fails. -/
theorem map_snd_steps {ok : ι → Bool} (hok : ∀ s i, (step s i).isSome = ok i) (l : List ι) (s : σ) :
  (steps step l s).map Prod.snd = l.takeWhile ok
  := by
  induction l generalizing s with
  | nil => rfl
  | cons i l ih =>
    rw [steps, takeWhile_cons, ← hok s i]
    cases hi : step s i with
    | none => rfl
    | some s' =>
      rw [Option.isSome_some, if_pos rfl, map_cons, ih]

/-- Loops that fail at the same items and agree on the steps that are taken are equal. -/
theorem foldlM_congr {step' : σ → ι → Option σ} {s : σ}
    (hnone : ∀ s, ∀ i ∈ l, step s i = none → step' s i = none)
    (hsteps : ∀ p ∈ steps step l s, step p.1 p.2 = step' p.1 p.2) :
  l.foldlM step s = l.foldlM step' s
  := by
  induction l generalizing s with
  | nil => rfl
  | cons i l ih =>
    rw [foldlM_cons, foldlM_cons]
    cases hi : step s i with
    | none =>
      rw [hnone s i mem_cons_self hi]
      rfl
    | some t =>
      rw [steps, hi, forall_mem_cons] at hsteps
      rw [← hsteps.1, hi]
      apply ih (fun s j hj => hnone s j (mem_cons_of_mem i hj)) hsteps.2

theorem foldlM_congr_of_mem {step' : σ → ι → Option σ} (h : ∀ s, ∀ i ∈ l, step s i = step' s i)
    (s : σ) :
  l.foldlM step s = l.foldlM step' s
  := by
  apply foldlM_congr
  · intro s i hi hnone
    rw [← h s i hi, hnone]
  · intro p hp
    apply h p.1 p.2 (forall_mem_steps hp).1

/-- A property of states that every step of a loop keeps holds at the end. -/
theorem foldlM_of_steps {s s' : σ} {P : σ → Prop}
    (hstep : ∀ p ∈ steps step l s, ∀ t, step p.1 p.2 = some t → P p.1 → P t) (hs : P s)
    (h : l.foldlM step s = some s') :
  P s'
  := by
  induction l generalizing s with
  | nil =>
    cases h
    apply hs
  | cons i l ih =>
    rw [foldlM_cons, Option.bind_eq_bind, Option.bind_eq_some_iff] at h
    obtain ⟨t, hi, h⟩ := h
    have hsteps : steps step (i :: l) s = (s, i) :: steps step l t := by
      rw [steps, hi]
    rw [hsteps, forall_mem_cons] at hstep
    apply ih hstep.2 _ h
    apply hstep.1 t hi hs

/-- The capacity of an array that is doubled until it has room for `needed` elements.  The second
argument bounds the rounds of the loop. -/
def doubleCapacity (needed : ℕ) : ℕ → ℕ → ℕ
  | 0, capacity => capacity
  | n + 1, capacity =>
    if capacity < needed then doubleCapacity needed n (capacity * 2) else capacity

end Loop
