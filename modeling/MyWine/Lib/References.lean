import Mathlib.Data.Finset.Card
import Mathlib.Data.Finset.Range

/-!
# Reference counts

Each of the holders `x < n` holds a reference to at most one object, `g x`.  `holders n g k` is the
number of references to the object `k`.  The objects that are there have a count, `count k`, and it is
balanced when it is the number `refs k` of references, which is `0` for an object that is not there
(`Balanced`).  A counter of limited width goes up by `addRef` and down by `release`, which removes the
object when the count reaches `0`.
-/

namespace References

open Function Option Finset

variable {ι : Type*} [DecidableEq ι]

/-! ### Holders -/

/-- The number of holders below `n` that hold a reference to `k`. -/
def holders (n : ℕ) (g : ℕ → Option ι) (k : ι) : ℕ :=
  ((range n).filter fun x => g x = some k).card

section

variable {n x : ℕ} {g : ℕ → Option ι} {k : ι}

/-- What one holder contributes changes when its reference does. -/
theorem holders_update (hx : x < n) (v : Option ι) (k : ι) :
  holders n (update g x v) k + (if g x = some k then 1 else 0) =
    holders n g k + (if v = some k then 1 else 0)
  := by
  have hsplit (f : ℕ → Option ι) : holders n f k =
      (((range n).erase x).filter fun y => f y = some k).card +
        (if f x = some k then 1 else 0) := by
    rw [holders, ← insert_erase (mem_range.mpr hx), filter_insert]
    split_ifs with hf
    · rw [card_insert_of_notMem]
      · rw [erase_insert (notMem_erase x _)]
      · simp
    · rw [erase_insert (notMem_erase x _), Nat.add_zero]
  have hrest : (((range n).erase x).filter fun y => update g x v y = some k) =
      ((range n).erase x).filter fun y => g y = some k := by
    apply filter_congr
    intro y hy
    rw [update_of_ne (ne_of_mem_erase hy)]
  rw [hsplit (update g x v), hsplit g, hrest, update_self]
  omega

/-- New holders without references. -/
theorem holders_of_le {n' : ℕ} (hn : n ≤ n') (hg : ∀ x, n ≤ x → g x = none) (k : ι) :
  holders n' g k = holders n g k
  := by
  rw [holders, holders]
  congr 1
  ext x
  rw [mem_filter, mem_filter, mem_range, mem_range]
  constructor
  · rintro ⟨-, hx⟩
    refine ⟨?_, hx⟩
    by_contra hle
    rw [hg x (not_lt.mp hle)] at hx
    cases hx
  · rintro ⟨hlt, hx⟩
    exact ⟨hlt.trans_le hn, hx⟩

theorem holders_pos (hx : x < n) (hg : g x = some k) :
  0 < holders n g k
  := by
  apply card_pos.mpr
  use x
  rw [mem_filter, mem_range]
  exact ⟨hx, hg⟩

end

/-! ### Counts -/

/-- Every object that is there has the count of its references, and no other object has any. -/
def Balanced (count : ι → Option ℕ) (refs : ι → ℕ) : Prop :=
  ∀ k, (count k).getD 0 = refs k

/-- One more reference to `k`. -/
def more (refs : ι → ℕ) (k : ι) : ι → ℕ := fun j => refs j + if j = k then 1 else 0

@[simp]
theorem more_self (refs : ι → ℕ) (k : ι) :
  more refs k k = refs k + 1
  := by
  rw [more, if_pos rfl]

theorem more_of_ne (refs : ι → ℕ) {j k : ι} (h : j ≠ k) :
  more refs k j = refs j
  := by
  rw [more, if_neg h, Nat.add_zero]

/-- One reference to `k` less. -/
def less (refs : ι → ℕ) (k : ι) : ι → ℕ := fun j => refs j - if j = k then 1 else 0

theorem more_less {refs : ι → ℕ} {k : ι} (h : 0 < refs k) :
  more (less refs k) k = refs
  := by
  funext j
  rw [more, less]
  split_ifs with hj
  · subst hj
    exact Nat.sub_add_cancel h
  · rfl

/-- No object is there whose count is `0`. -/
def Positive (count : ι → Option ℕ) : Prop := ∀ k, count k ≠ some 0

/-- The counter of `k` goes up by one, modulo the limit. -/
def addRef (limit : ℕ) (count : ι → Option ℕ) (k : ι) : ι → Option ℕ :=
  update count k ((count k).map fun n => (n + 1) % limit)

/-- The counter of `k` goes down by one if it is not `0`. -/
def decrement (n : ℕ) : ℕ := if 0 < n then n - 1 else n

/-- The counter of `k` goes down by one, and the object goes away if the counter is then `0`. -/
def release (count : ι → Option ℕ) (k : ι) : ι → Option ℕ :=
  update count k ((count k).bind fun n => if decrement n ≠ 0 then some (decrement n) else none)

section

variable {count : ι → Option ℕ} {refs : ι → ℕ} {k : ι}

omit [DecidableEq ι] in
/-- An object with a reference is there. -/
theorem Balanced.exists_of_pos (h : Balanced count refs) (hpos : 0 < refs k) :
  ∃ n, count k = some n ∧ n = refs k
  := by
  have hk := h k
  cases hcount : count k with
  | none =>
    rw [hcount, getD_none] at hk
    omega
  | some n =>
    rw [hcount, getD_some] at hk
    exact ⟨n, rfl, hk⟩

theorem Balanced.addRef (h : Balanced count refs) {limit n : ℕ} (hk : count k = some n)
    (hlimit : n + 1 < limit) :
  Balanced (addRef limit count k) (more refs k)
  := by
  intro j
  have hj := h j
  by_cases hjk : j = k
  · subst hjk
    rw [hk, getD_some] at hj
    rw [References.addRef, update_self, hk, map_some, getD_some,
      Nat.mod_eq_of_lt hlimit, more_self, hj]
  · rw [References.addRef, update_of_ne hjk, more_of_ne refs hjk, hj]

theorem Positive.addRef (h : Positive count) {limit n : ℕ} (hk : count k = some n)
    (hlimit : n + 1 < limit) :
  Positive (addRef limit count k)
  := by
  intro j
  by_cases hjk : j = k
  · subst hjk
    rw [References.addRef, update_self, hk, map_some, Nat.mod_eq_of_lt hlimit]
    simp
  · rw [References.addRef, update_of_ne hjk]
    apply h j

/-- When a reference is given up, the count is balanced again. -/
theorem Balanced.release (h : Balanced count (more refs k)) :
  Balanced (release count k) refs
  := by
  intro j
  have hj := h j
  by_cases hjk : j = k
  · subst hjk
    rw [more_self] at hj
    rw [References.release, update_self]
    cases hcount : count j with
    | none =>
      rw [hcount, getD_none] at hj
      omega
    | some n =>
      rw [hcount, getD_some] at hj
      have hn : decrement n = refs j := by
        rw [decrement]
        split_ifs <;> omega
      rw [bind_some, hn]
      split_ifs with hzero
      · rfl
      · rw [getD_none]
        omega
  · rw [more_of_ne refs hjk] at hj
    rw [References.release, update_of_ne hjk, hj]

theorem Positive.release (h : Positive count) (k : ι) :
  Positive (release count k)
  := by
  intro j
  by_cases hjk : j = k
  · subst hjk
    rw [References.release, update_self]
    cases count j with
    | none => simp
    | some n =>
      rw [bind_some]
      split_ifs with hzero
      · rw [ne_eq, some.injEq]
        exact hzero
      · simp
  · rw [References.release, update_of_ne hjk]
    apply h j

end

end References
