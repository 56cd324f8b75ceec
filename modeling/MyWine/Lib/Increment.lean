import MyWine.Lib.Bytes
import MyWine.Lib.Region

/-!
# Additions in place

An `Increment` adds a number to the little-endian number in a region of a memory, modulo the size
of the region.  Increments of pairwise disjoint regions do not see one another: each number is the
one before plus its addend (`value_applyAll`), the bytes outside the regions are kept
(`applyAll_of_notMem`), and doing two lists of increments of the same regions one after the other
amounts to adding the sums (`applyAll_applyAll`).
-/

/-- A number to be added to the number in a region. -/
structure Increment where
  region : Region
  addend : ℕ

namespace Increment

open List

variable {ι : Type*}

/-- The number that a memory holds in a region. -/
def value (m : Bytes) (r : Region) : ℕ := m.readLE r.start r.size

/-- The memory after an addition. -/
def apply (i : Increment) (m : Bytes) : Bytes :=
  m.writeLE i.region.start i.region.size (value m i.region + i.addend)

/-- The memory after the additions of a list. -/
def applyAll (l : List Increment) (m : Bytes) : Bytes := l.foldl (fun m i => i.apply m) m

variable {r : Region} {i : Increment} {l : List Increment}

theorem value_congr {m m' : Bytes} (h : ∀ x ∈ r, m x = m' x) :
  value m r = value m' r
  := by
  apply Bytes.readLE_congr
  intro x hx hlt
  apply h x ⟨hx, hlt⟩

/-- Memories with the same number in a region agree there. -/
theorem eq_of_value_eq {m m' : Bytes} (h : value m r = value m' r) :
  ∀ x ∈ r, m x = m' x
  := by
  intro x hx
  rw [Region.mem_iff] at hx
  have hlt : x - r.start < r.size := by omega
  have hadd : r.start + (x - r.start) = x := by omega
  rw [value, value] at h
  have hm := Bytes.byte_readLE m r.start hlt
  have hm' := Bytes.byte_readLE m' r.start hlt
  rw [hadd] at hm hm'
  rw [← hm, ← hm', h]

/-! ### One addition -/

theorem apply_of_notMem {x : ℕ} (m : Bytes) (h : x ∉ i.region) :
  i.apply m x = m x
  := by
  rw [Region.mem_iff] at h
  apply Bytes.writeLE_of_notMem
  omega

theorem value_apply (i : Increment) (m : Bytes) :
  value (i.apply m) i.region = (value m i.region + i.addend) % 256 ^ i.region.size
  := by
  apply Bytes.readLE_writeLE

theorem value_apply_of_disjoint (m : Bytes) (h : i.region.Disjoint r) :
  value (i.apply m) r = value m r
  := by
  apply value_congr
  intro x hx
  apply apply_of_notMem m (h.symm x hx)

/-! ### Additions in disjoint regions -/

theorem applyAll_cons (i : Increment) (l : List Increment) (m : Bytes) :
  applyAll (i :: l) m = applyAll l (i.apply m)
  := rfl

theorem applyAll_append (l l' : List Increment) (m : Bytes) :
  applyAll (l ++ l') m = applyAll l' (applyAll l m)
  := by
  apply foldl_append

theorem applyAll_of_notMem {x : ℕ} (m : Bytes) (h : ∀ i ∈ l, x ∉ i.region) :
  applyAll l m x = m x
  := by
  induction l generalizing m with
  | nil => rfl
  | cons i l ih =>
    rw [forall_mem_cons] at h
    rw [applyAll_cons, ih _ h.2, apply_of_notMem m h.1]

theorem value_applyAll_of_disjoint (m : Bytes) (h : ∀ i ∈ l, i.region.Disjoint r) :
  value (applyAll l m) r = value m r
  := by
  apply value_congr
  intro x hx
  apply applyAll_of_notMem
  intro i hi
  apply (h i hi).symm x hx

/-- Each region holds the number before plus its addend. -/
theorem value_applyAll (m : Bytes) (hl : l.Pairwise fun i j => i.region.Disjoint j.region)
    (hi : i ∈ l) :
  value (applyAll l m) i.region = (value m i.region + i.addend) % 256 ^ i.region.size
  := by
  induction l generalizing m with
  | nil => cases hi
  | cons j l ih =>
    rw [pairwise_cons] at hl
    rw [applyAll_cons]
    rcases mem_cons.mp hi with rfl | hi
    · rw [value_applyAll_of_disjoint _ (fun j hj => (hl.1 j hj).symm), value_apply]
    · rw [ih _ hl.2 hi, value_apply_of_disjoint m (hl.1 i hi)]

/-- Memories that agree in some regions and outside of them are equal. -/
theorem ext_of_value {rs : List Region} {m m' : Bytes} (hvalue : ∀ r ∈ rs, value m r = value m' r)
    (hout : ∀ x, (∀ r ∈ rs, x ∉ r) → m x = m' x) :
  m = m'
  := by
  funext x
  by_cases h : ∃ r ∈ rs, x ∈ r
  · obtain ⟨r, hr, hx⟩ := h
    apply eq_of_value_eq (hvalue r hr) x hx
  · apply hout x
    intro r hr hx
    apply h ⟨r, hr, hx⟩

section

variable {l : List ι} {r : ι → Region}

theorem value_applyAll_map (f : ι → ℕ) (m : Bytes)
    (hl : l.Pairwise fun i j => (r i).Disjoint (r j)) {i : ι} (hi : i ∈ l) :
  value (applyAll (l.map fun i => ⟨r i, f i⟩) m) (r i) = (value m (r i) + f i) % 256 ^ (r i).size
  := by
  have hmem : (⟨r i, f i⟩ : Increment) ∈ l.map fun i => ⟨r i, f i⟩ :=
    mem_map_of_mem (f := fun i => (⟨r i, f i⟩ : Increment)) hi
  apply value_applyAll m _ hmem
  apply hl.map
  intro i j h
  apply h

theorem applyAll_map_of_notMem (f : ι → ℕ) (m : Bytes) {x : ℕ} (h : ∀ i ∈ l, x ∉ r i) :
  applyAll (l.map fun i => ⟨r i, f i⟩) m x = m x
  := by
  apply applyAll_of_notMem
  rw [forall_mem_map]
  apply h

/-- Two additions in each region amount to the addition of the sum. -/
theorem applyAll_applyAll {f g k : ι → ℕ} (m : Bytes)
    (hl : l.Pairwise fun i j => (r i).Disjoint (r j))
    (hsum : ∀ i ∈ l, (f i + g i) % 256 ^ (r i).size = k i % 256 ^ (r i).size) :
  applyAll (l.map fun i => ⟨r i, g i⟩) (applyAll (l.map fun i => ⟨r i, f i⟩) m) =
    applyAll (l.map fun i => ⟨r i, k i⟩) m
  := by
  apply @ext_of_value (l.map r)
  · rw [forall_mem_map]
    intro i hi
    rw [value_applyAll_map g _ hl hi, value_applyAll_map f m hl hi, value_applyAll_map k m hl hi,
      Nat.mod_add_mod, Nat.add_assoc, Nat.add_mod, hsum i hi, ← Nat.add_mod]
  · intro x hx
    rw [forall_mem_map] at hx
    rw [applyAll_map_of_notMem g _ hx, applyAll_map_of_notMem f m hx,
      applyAll_map_of_notMem k m hx]

/-- Additions of multiples of the modulus change nothing. -/
theorem applyAll_eq_self {f : ι → ℕ} (m : Bytes)
    (hl : l.Pairwise fun i j => (r i).Disjoint (r j))
    (hzero : ∀ i ∈ l, f i % 256 ^ (r i).size = 0) :
  applyAll (l.map fun i => ⟨r i, f i⟩) m = m
  := by
  apply @ext_of_value (l.map r)
  · rw [forall_mem_map]
    intro i hi
    have hlt : value m (r i) < 256 ^ (r i).size := Bytes.readLE_lt _ _ _
    rw [value_applyAll_map f m hl hi, Nat.add_mod, hzero i hi, Nat.add_zero, Nat.mod_mod,
      Nat.mod_eq_of_lt hlt]
  · intro x hx
    rw [forall_mem_map] at hx
    apply applyAll_map_of_notMem f m hx

end

/-- A loop whose steps succeed and do the additions of a list, as long as they keep an invariant. -/
theorem foldlM_eq_applyAll {l : List ι} {step : Bytes → ι → Option Bytes} {p : ι → Increment}
    (inv : Bytes → Prop)
    (hstep : ∀ i ∈ l, ∀ m, inv m → step m i = some ((p i).apply m) ∧ inv ((p i).apply m))
    {m : Bytes} (hm : inv m) :
  l.foldlM step m = some (applyAll (l.map p) m) ∧ inv (applyAll (l.map p) m)
  := by
  induction l generalizing m with
  | nil => exact ⟨rfl, hm⟩
  | cons i l ih =>
    obtain ⟨hfirst, hinv⟩ := hstep i mem_cons_self m hm
    rw [foldlM_cons, hfirst, map_cons, applyAll_cons]
    apply ih (fun j hj => hstep j (mem_cons_of_mem i hj)) hinv

end Increment
