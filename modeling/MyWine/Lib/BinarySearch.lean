import Mathlib.Data.Int.Order.Basic

/-!
# Binary search

`binarySearch cmp fuel lo hi` looks for an index between `lo` and `hi` at which the comparison `cmp`
vanishes.  A negative comparison moves the search down and a positive one up; a comparison that
fails ends it.  If the comparison vanishes somewhere, and has the right signs below and above, the
search finds an index at which it vanishes (`exists_binarySearch`), which is the only one if there
is no other (`binarySearch_eq_some`).
-/

/-- The loop `while (lo < hi)` of a binary search.  It makes at most `hi - lo` rounds. -/
def binarySearch (cmp : ℕ → Option ℤ) : ℕ → ℕ → ℕ → Option ℕ
  | 0, _, _ => none
  | fuel + 1, lo, hi =>
    if lo < hi then
      let mid := lo + (hi - lo) / 2
      match cmp mid with
      | none => none
      | some c =>
        if c < 0 then binarySearch cmp fuel lo mid
        else if 0 < c then binarySearch cmp fuel (mid + 1) hi
        else some mid
    else none

variable {cmp : ℕ → Option ℤ} {fuel lo hi : ℕ}

/-- An index that is found lies in the range and is one at which the comparison vanishes. -/
theorem binarySearch_spec {i : ℕ} (h : binarySearch cmp fuel lo hi = some i) :
  lo ≤ i ∧ i < hi ∧ cmp i = some 0
  := by
  induction fuel generalizing lo hi with
  | zero => cases h
  | succ fuel ih =>
    simp only [binarySearch] at h
    split_ifs at h with hlt
    cases hc : cmp (lo + (hi - lo) / 2) with
    | none => simp [hc] at h
    | some c =>
      simp only [hc] at h
      split_ifs at h with hneg hpos
      · obtain ⟨hle, hlt', hi0⟩ := ih h
        exact ⟨hle, by omega, hi0⟩
      · obtain ⟨hle, hlt', hi0⟩ := ih h
        exact ⟨by omega, hlt', hi0⟩
      · cases h
        have hzero : c = 0 := by omega
        exact ⟨by omega, by omega, by rw [hc, hzero]⟩

/-- The search finds an index at which the comparison vanishes, if there is one and the comparison
is not negative below it and not positive above it. -/
theorem exists_binarySearch {t : ℕ} (hfuel : hi - lo ≤ fuel) (hlo : lo ≤ t) (hhi : t < hi)
    (hbelow : ∀ i, lo ≤ i → i ≤ t → ∃ c, cmp i = some c ∧ 0 ≤ c)
    (habove : ∀ i, t ≤ i → i < hi → ∃ c, cmp i = some c ∧ c ≤ 0) :
  ∃ i, binarySearch cmp fuel lo hi = some i
  := by
  induction fuel generalizing lo hi with
  | zero => omega
  | succ fuel ih =>
    simp only [binarySearch, if_pos (show lo < hi by omega)]
    rcases Nat.lt_or_ge (lo + (hi - lo) / 2) t with hlt | hge
    · obtain ⟨c, hc, hpos⟩ := hbelow _ (by omega) (Nat.le_of_lt hlt)
      simp only [hc, if_neg (show ¬ c < 0 by omega)]
      split_ifs
      · apply ih (by omega) (by omega) hhi _ habove
        intro i hi0 hit
        apply hbelow i (by omega) hit
      · exact ⟨_, rfl⟩
    · obtain ⟨c, hc, hneg⟩ := habove _ hge (by omega)
      simp only [hc, if_neg (show ¬ 0 < c by omega)]
      split_ifs with hlt
      · have hne : lo + (hi - lo) / 2 ≠ t := by
          rintro rfl
          obtain ⟨c', hc', hpos⟩ := hbelow _ hlo (Nat.le_refl _)
          rw [hc, Option.some.injEq] at hc'
          omega
        apply ih (by omega) hlo (by omega) hbelow
        intro i hti hi'
        apply habove i hti (by omega)
      · exact ⟨_, rfl⟩

/-- The search finds the index at which the comparison changes its sign. -/
theorem binarySearch_eq_some {t : ℕ} (hfuel : hi - lo ≤ fuel) (hlo : lo ≤ t) (hhi : t < hi)
    (hzero : cmp t = some 0) (hbelow : ∀ i, lo ≤ i → i < t → ∃ c, cmp i = some c ∧ 0 < c)
    (habove : ∀ i, t < i → i < hi → ∃ c, cmp i = some c ∧ c < 0) :
  binarySearch cmp fuel lo hi = some t
  := by
  have hfound : ∃ i, binarySearch cmp fuel lo hi = some i := by
    apply exists_binarySearch hfuel hlo hhi
    · intro i hi0 hit
      rcases Nat.lt_or_eq_of_le hit with hlt | rfl
      · obtain ⟨c, hc, hpos⟩ := hbelow i hi0 hlt
        exact ⟨c, hc, le_of_lt hpos⟩
      · exact ⟨0, hzero, le_refl 0⟩
    · intro i hti hi'
      rcases Nat.lt_or_eq_of_le hti with hlt | rfl
      · obtain ⟨c, hc, hneg⟩ := habove i hlt hi'
        exact ⟨c, hc, le_of_lt hneg⟩
      · exact ⟨0, hzero, le_refl 0⟩
  obtain ⟨i, hsearch⟩ := hfound
  obtain ⟨hi0, hi', hi⟩ := binarySearch_spec hsearch
  rcases Nat.lt_trichotomy i t with hlt | rfl | hgt
  · obtain ⟨c, hc, hpos⟩ := hbelow i hi0 hlt
    rw [hi, Option.some.injEq] at hc
    omega
  · apply hsearch
  · obtain ⟨c, hc, hneg⟩ := habove i hgt hi'
    rw [hi, Option.some.injEq] at hc
    omega

/-- A search depends only on the comparisons in its range. -/
theorem binarySearch_congr {cmp' : ℕ → Option ℤ} (h : ∀ i, lo ≤ i → i < hi → cmp i = cmp' i) :
  binarySearch cmp fuel lo hi = binarySearch cmp' fuel lo hi
  := by
  induction fuel generalizing lo hi with
  | zero => rfl
  | succ fuel ih =>
    simp only [binarySearch]
    split_ifs with hlt
    · rw [h _ (by omega) (by omega)]
      split
      · rfl
      · split_ifs
        · apply ih
          intro i hlo hi'
          apply h i hlo (by omega)
        · apply ih
          intro i hlo hi'
          apply h i (by omega) hi'
        · rfl
    · rfl
