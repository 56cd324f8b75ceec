import MyWine.Lib.Region

/-!
# Patches

A `Patch α` replaces the values of a function of addresses in a region.  A list of patches is
applied from left to right; at an address where the patches agree, the result is their value
(`applyAll_of_mem`), and elsewhere it is the value before (`applyAll_of_notMem`).  A loop whose
steps may fail, and otherwise apply patches, applies all of them when it succeeds
(`applyAll_of_foldlM`).
-/

/-- New values for the addresses of a region. -/
structure Patch (α : Type*) where
  region : Region
  value : ℕ → α

namespace Patch

open List Option

variable {α ι : Type*}

/-- The values after a patch. -/
def apply (p : Patch α) (m : ℕ → α) : ℕ → α := fun x => if x ∈ p.region then p.value x else m x

theorem apply_of_notMem {p : Patch α} {x : ℕ} (m : ℕ → α) (h : x ∉ p.region) :
  p.apply m x = m x
  := if_neg h

theorem apply_congr {p : Patch α} {m m' : ℕ → α} {x : ℕ} (h : m x = m' x) :
  p.apply m x = p.apply m' x
  := by
  rw [apply, apply, h]

/-- A patch of an empty region changes nothing. -/
theorem apply_of_size_eq_zero {p : Patch α} (m : ℕ → α) (h : p.region.size = 0) :
  p.apply m = m
  := by
  funext x
  apply apply_of_notMem
  rw [Region.mem_iff]
  omega

/-- The values after a list of patches. -/
def applyAll (l : List (Patch α)) (m : ℕ → α) : ℕ → α := l.foldl (fun m p => p.apply m) m

theorem applyAll_of_notMem {l : List (Patch α)} {x : ℕ} (m : ℕ → α)
    (h : ∀ p ∈ l, x ∉ p.region) :
  applyAll l m x = m x
  := by
  induction l generalizing m with
  | nil => rfl
  | cons p l ih =>
    rw [forall_mem_cons] at h
    rw [applyAll, foldl_cons, ← applyAll, ih _ h.2, apply_of_notMem _ h.1]

/-- Patches that all have the value `v` at an address of one of them leave `v` there. -/
theorem applyAll_of_mem {l : List (Patch α)} {x : ℕ} {v : α} (m : ℕ → α)
    (h : ∃ p ∈ l, x ∈ p.region) (hv : ∀ p ∈ l, x ∈ p.region → p.value x = v) :
  applyAll l m x = v
  := by
  induction l generalizing m with
  | nil => simp at h
  | cons p l ih =>
    rw [forall_mem_cons] at hv
    rw [applyAll, foldl_cons, ← applyAll]
    by_cases hl : ∃ q ∈ l, x ∈ q.region
    · apply ih _ hl hv.2
    · have hnot : ∀ q ∈ l, x ∉ q.region := fun q hq hx => hl ⟨q, hq, hx⟩
      have hp : x ∈ p.region := by
        obtain ⟨q, hq, hx⟩ := h
        rcases mem_cons.mp hq with rfl | hq
        · apply hx
        · cases hnot q hq hx
      rw [applyAll_of_notMem _ hnot, apply, if_pos hp, hv.1 hp]

/-- At an address of no other patch, only one patch counts. -/
theorem applyAll_map_apply {l : List ι} {p : ι → Patch α} {i : ι} {x : ℕ} {m : ℕ → α} (hi : i ∈ l)
    (honly : ∀ j ∈ l, x ∈ (p j).region → j = i) :
  applyAll (l.map p) m x = (p i).apply m x
  := by
  by_cases hx : x ∈ (p i).region
  · rw [apply, if_pos hx]
    apply applyAll_of_mem
    · exact ⟨p i, mem_map_of_mem hi, hx⟩
    · rw [List.forall_mem_map]
      intro j hj hmem
      rw [honly j hj hmem]
  · rw [apply_of_notMem _ hx, applyAll_of_notMem]
    rw [List.forall_mem_map]
    intro j hj hmem
    rw [honly j hj hmem] at hmem
    exact hx hmem

/-- A loop over `l` that keeps an invariant and whose successful steps apply the patches of `l`. -/
theorem applyAll_of_foldlM {l : List ι} {step : (ℕ → α) → ι → Option (ℕ → α)} {p : ι → Patch α}
    {m m' : ℕ → α} (inv : (ℕ → α) → Prop)
    (hstep : ∀ i ∈ l, ∀ m m', inv m → step m i = some m' → m' = (p i).apply m ∧ inv m')
    (hm : inv m) (h : l.foldlM step m = some m') :
  m' = applyAll (l.map p) m ∧ inv m'
  := by
  induction l generalizing m with
  | nil =>
    cases h
    exact ⟨rfl, hm⟩
  | cons i l ih =>
    rw [foldlM_cons, bind_eq_bind, bind_eq_some_iff] at h
    obtain ⟨m₁, hfirst, hrest⟩ := h
    obtain ⟨rfl, hinv⟩ := hstep i mem_cons_self m m₁ hm hfirst
    apply ih (fun j hj => hstep j (mem_cons_of_mem i hj)) hinv hrest

/-- When a loop succeeds, each of its steps did. -/
theorem exists_of_foldlM {β : Type*} {l : List ι} {step : β → ι → Option β} {m m' : β}
    (h : l.foldlM step m = some m') {i : ι} (hi : i ∈ l) :
  ∃ m₁ m₂, step m₁ i = some m₂
  := by
  induction l generalizing m with
  | nil => cases hi
  | cons j l ih =>
    rw [foldlM_cons, bind_eq_bind, bind_eq_some_iff] at h
    obtain ⟨m₁, hfirst, hrest⟩ := h
    rcases mem_cons.mp hi with rfl | hi
    · exact ⟨m, m₁, hfirst⟩
    · apply ih hrest hi

end Patch
