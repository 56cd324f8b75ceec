import Mathlib.Data.List.Basic

/-!
# Computations with a trace

A `Traced ε α` is a result in `α` together with the list of the events in `ε` that led to it, such as
the memory that was read.  `All P` says that all events satisfy `P`; it holds of a sequence of two
computations when it holds of both (`all_bind`).  `first f i n` is the loop that looks for the first of
the `n` numbers from `i` on for which `f` is true.
-/

/-- A result with the events that led to it. -/
structure Traced (ε α : Type) where
  value : α
  trace : List ε

namespace Traced

variable {ε α β : Type}

instance : Monad (Traced ε) where
  pure a := ⟨a, []⟩
  bind x f := ⟨(f x.value).value, x.trace ++ (f x.value).trace⟩

/-- Every event satisfies `P`. -/
def All (P : ε → Prop) (x : Traced ε α) : Prop := ∀ e ∈ x.trace, P e

variable {P : ε → Prop}

@[simp]
theorem value_pure (a : α) :
  (pure a : Traced ε α).value = a
  := rfl

@[simp]
theorem value_bind (x : Traced ε α) (f : α → Traced ε β) :
  (x >>= f).value = (f x.value).value
  := rfl

@[simp]
theorem all_pure (a : α) :
  (pure a : Traced ε α).All P
  := fun _ he => absurd he List.not_mem_nil

@[simp]
theorem all_mk (a : α) (e : ε) :
  (⟨a, [e]⟩ : Traced ε α).All P ↔ P e
  := by
  simp [All]

@[simp]
theorem all_bind (x : Traced ε α) (f : α → Traced ε β) :
  (x >>= f).All P ↔ x.All P ∧ (f x.value).All P
  := by
  apply List.forall_mem_append

theorem all_ite {c : Prop} [Decidable c] {x y : Traced ε α} :
  (if c then x else y).All P ↔ (c → x.All P) ∧ (¬ c → y.All P)
  := by
  split
  case isTrue hc => simp [hc]
  case isFalse hc => simp [hc]

theorem value_anyM (g : α → Traced ε Bool) (l : List α) :
  (l.anyM g).value = l.any fun a => (g a).value
  := by
  induction l with
  | nil => rfl
  | cons a l ih =>
    rw [List.anyM, value_bind, List.any_cons]
    cases (g a).value with
    | false => exact ih
    | true => rfl

theorem all_anyM_cons (g : α → Traced ε Bool) (a : α) (l : List α) :
  ((a :: l).anyM g).All P ↔ (g a).All P ∧ ((g a).value = false → (l.anyM g).All P)
  := by
  rw [List.anyM, all_bind]
  apply and_congr_right
  intro _
  cases (g a).value with
  | false => simp
  | true => simp

theorem value_findM? (g : α → Traced ε Bool) (l : List α) :
  (l.findM? g).value = l.find? fun a => (g a).value
  := by
  induction l with
  | nil => rfl
  | cons a l ih =>
    rw [List.findM?, value_bind, List.find?_cons]
    cases (g a).value with
    | false => exact ih
    | true => rfl

/-- A search with `g` finds what `q` finds, by events in `P`, if and only if this is so of each element
up to the first in `q`. -/
theorem findM?_iff {g : α → Traced ε Bool} {q : α → Bool} {l : List α} (hl : l.Nodup) :
  (l.findM? g).value = l.find? q ∧ (l.findM? g).All P ↔
    ∀ before a after, l = before ++ a :: after → (∀ x ∈ before, q x = false) →
      (g a).All P ∧ (g a).value = q a
  := by
  induction l with
  | nil => exact iff_of_true ⟨rfl, all_pure _⟩ fun before a after h => by simp at h
  | cons a l ih =>
    rw [List.nodup_cons] at hl
    have hsplit : (∀ before x after, a :: l = before ++ x :: after → (∀ y ∈ before, q y = false) →
          (g x).All P ∧ (g x).value = q x) ↔
        ((g a).All P ∧ (g a).value = q a) ∧ (q a = false → (l.findM? g).value = l.find? q ∧
          (l.findM? g).All P) := by
      rw [ih hl.2]
      simp only [List.cons_eq_append_iff]
      constructor
      · intro h
        use h [] a l (.inl ⟨rfl, rfl⟩) (List.forall_mem_nil _)
        intro hq before x after hx hbefore
        apply h (a :: before) x after (.inr ⟨before, rfl, hx⟩) (List.forall_mem_cons.mpr ⟨hq, hbefore⟩)
      · rintro ⟨ha, hl⟩ _ x after (⟨rfl, hx⟩ | ⟨before, rfl, hx⟩) hbefore
        · cases hx
          exact ha
        · rw [List.forall_mem_cons] at hbefore
          apply hl hbefore.1 before x after hx hbefore.2
    rw [hsplit, List.findM?, value_bind, all_bind, List.find?_cons, value_findM?]
    have hmem (p : α → Bool) : l.find? p ≠ some a := fun h => hl.1 (List.mem_of_find?_eq_some h)
    cases hg : (g a).value <;> cases hq : q a
    · simp [value_findM?, and_left_comm]
    · simp [value_findM?, hmem]
    · simp [(hmem _).symm]
    · simp

/-- The first of the `n` numbers from `i` on for which `f` is true. -/
def first (f : ℕ → Traced ε Bool) : ℕ → ℕ → Traced ε (Option ℕ)
  | _, 0 => pure none
  | i, n + 1 => do
    if ← f i then pure (some i) else first f (i + 1) n

variable {f : ℕ → Traced ε Bool}

theorem first_eq_findM? (i n : ℕ) :
  first f i n = (List.range' i n).findM? f
  := by
  induction n generalizing i with
  | zero => rfl
  | succ n ih =>
    rw [first, List.range'_succ, List.findM?]
    congr 1
    funext b
    cases b with
    | false => apply ih
    | true => rfl

/-- The loop evaluates `f` up to the first number for which it is true. -/
theorem all_first {i n : ℕ} :
  (first f i n).All P
    ↔ ∀ k, i ≤ k → k < i + n → (∀ j, i ≤ j → j < k → (f j).value = false) → (f k).All P
  := by
  have h := @findM?_iff _ _ P f (fun k => (f k).value) _ (List.nodup_range' (s := i) (n := n))
  simp only [value_findM?, true_and, and_true] at h
  rw [first_eq_findM?, h]
  simp only [List.range'_eq_append_iff, eq_comm (a := _ :: _), List.range'_eq_cons_iff]
  constructor
  · intro h k hle hlt hbefore
    apply h (List.range' i (k - i)) k _ ⟨k - i, by omega, rfl, by omega, by omega, rfl⟩
    intro j hj
    rw [List.mem_range'_1] at hj
    apply hbefore j hj.1 (by omega)
  · rintro h _ k _ ⟨m, hm, rfl, rfl, hpos, -⟩ hbefore
    apply h _ (by omega) (by omega)
    intro j hle hlt
    apply hbefore j (List.mem_range'_1.mpr ⟨hle, by omega⟩)

/-- The number that the loop finds. -/
theorem value_first_eq_some_iff {i n k : ℕ} :
  (first f i n).value = some k
    ↔ i ≤ k ∧ k < i + n ∧ (f k).value = true ∧ ∀ j, i ≤ j → j < k → (f j).value = false
  := by
  rw [first_eq_findM?, value_findM?, List.find?_range'_eq_some]
  simp only [List.mem_range'_1, Bool.not_eq_true']
  tauto

end Traced
