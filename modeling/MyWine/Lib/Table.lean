import Mathlib.Data.Fintype.Card
import Mathlib.Data.Fintype.Fin

/-!
# Tables of slots

A table with `n` slots is a function `t : Fin n → α`, a slot being free or occupied according to
a decidable predicate on its content.  `firstSlot p` is the first slot that satisfies `p`, the
result of a linear search.  `occupied occ t` is the set of the occupied slots, and the
lemmas below say how it changes when one slot is overwritten (`Function.update`).
-/

namespace Table

variable {n : ℕ} {α : Type*}

/-- The first slot that satisfies `p`. -/
@[irreducible]
def firstSlot (p : Fin n → Bool) : Option (Fin n) :=
  (List.finRange n).find? p

variable {i : Fin n} {t : Fin n → α}

/-- The first slot that satisfies `p` satisfies it, and no slot before it does. -/
theorem firstSlot_eq_some_iff {p : Fin n → Bool} :
  firstSlot p = some i ↔ p i = true ∧ ∀ j < i, p j = false
  := by
  rw [firstSlot, ← Fin.find?_eq_find?_finRange]
  apply Fin.find?_eq_some_iff

@[simp]
theorem firstSlot_eq_none_iff {p : Fin n → Bool} :
  firstSlot p = none ↔ ∀ i, p i = false
  := by
  rw [firstSlot, ← Fin.find?_eq_find?_finRange]
  apply Fin.find?_eq_none_iff

/-- A predicate and a stronger one have the same first slot when each slot of the first has one of the
second at or before it. -/
theorem firstSlot_eq_firstSlot_iff {p q : Fin n → Bool} (hqp : ∀ i, q i = true → p i = true) :
  firstSlot p = firstSlot q ↔ ∀ i, p i = true → ∃ j ≤ i, q j = true
  := by
  constructor
  · intro heq i hp
    cases hf : firstSlot p with
    | none =>
      rw [firstSlot_eq_none_iff.mp hf i] at hp
      cases hp
    | some j =>
      refine ⟨j, ?_, (firstSlot_eq_some_iff.mp (heq ▸ hf)).1⟩
      by_contra hlt
      rw [(firstSlot_eq_some_iff.mp hf).2 i (not_le.mp hlt)] at hp
      cases hp
  · intro h
    cases hf : firstSlot q with
    | none =>
      rw [firstSlot_eq_none_iff] at hf ⊢
      intro i
      by_contra hp
      obtain ⟨j, -, hq⟩ := h i (eq_true_of_ne_false hp)
      rw [hf j] at hq
      cases hq
    | some i =>
      obtain ⟨hq, hbefore⟩ := firstSlot_eq_some_iff.mp hf
      refine firstSlot_eq_some_iff.mpr ⟨hqp i hq, fun j hj => ?_⟩
      by_contra hp
      obtain ⟨k, hk, hq⟩ := h j (eq_true_of_ne_false hp)
      rw [hbefore k (hk.trans_lt hj)] at hq
      cases hq

variable (occ : α → Prop) [DecidablePred occ]

/-- The slots of `t` whose content is occupied. -/
def occupied (t : Fin n → α) : Finset (Fin n) :=
  Finset.univ.filter fun i => occ (t i)

variable {occ}

@[simp]
theorem mem_occupied :
  i ∈ occupied occ t ↔ occ (t i)
  := by
  simp [occupied]

/-- Storing an occupied content in the slot `i` makes `i` occupied and changes no other slot. -/
theorem occupied_update_of_occ {v : α} (hv : occ v) :
  occupied occ (Function.update t i v) = insert i (occupied occ t)
  := by
  ext j
  rcases eq_or_ne j i with rfl | hne
  · simp [hv]
  · simp [hne]

/-- Storing a free content in the slot `i` makes `i` free and changes no other slot. -/
theorem occupied_update_of_not_occ {v : α} (hv : ¬ occ v) :
  occupied occ (Function.update t i v) = (occupied occ t).erase i
  := by
  ext j
  rcases eq_or_ne j i with rfl | hne
  · simp [hv]
  · simp [hne]

end Table
