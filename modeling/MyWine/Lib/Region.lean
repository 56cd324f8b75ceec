import Mathlib.Data.List.Nodup
import Mathlib.Data.List.Pairwise

/-!
# Regions of an address space

A `Region` is an interval of addresses.  A `Space κ` says which mapping, identified by a key in
`κ`, each address belongs to; `Space.map` maps a region and replaces what was there.  When regions
are mapped one after the other, each still belongs to its mapping in the end exactly when the
regions are pairwise apart (`forall_holds_mapAll_iff`).  `Region.unmap` takes a region out of a list
of regions.  `Region.Owns` says that the regions of some owners are mapped and pairwise apart, which
new regions at free places keep.
-/

/-- The `size` addresses from `start` on. -/
structure Region where
  start : ℕ
  size : ℕ
  deriving DecidableEq, Repr

namespace Region

open Function List

/-- The first address past a region. -/
def stop (r : Region) : ℕ := r.start + r.size

instance : Membership ℕ Region := ⟨fun r a => r.start ≤ a ∧ a < r.stop⟩

instance (r : Region) (a : ℕ) : Decidable (a ∈ r) :=
  inferInstanceAs (Decidable (r.start ≤ a ∧ a < r.stop))

variable {r s : Region}

theorem mem_iff {a : ℕ} :
  a ∈ r ↔ r.start ≤ a ∧ a < r.start + r.size
  := Iff.rfl

/-- One of the regions ends before the other one starts. -/
def Apart (r s : Region) : Prop := r.stop ≤ s.start ∨ s.stop ≤ r.start

instance : DecidableRel Apart := fun r s =>
  inferInstanceAs (Decidable (r.stop ≤ s.start ∨ s.stop ≤ r.start))

theorem Apart.symm (h : r.Apart s) :
  s.Apart r
  := Or.symm h

theorem Apart.notMem {r s : Region} {a : ℕ} (h : r.Apart s) (ha : a ∈ r) :
  a ∉ s
  := by
  rw [mem_iff] at ha ⊢
  rw [Apart, stop, stop] at h
  omega

/-- Two regions that are not empty are apart when no address is in both. -/
theorem apart_of_forall_notMem (hr : 0 < r.size) (hs : 0 < s.size) (h : ∀ a ∈ r, a ∉ s) :
  r.Apart s
  := by
  have hstart := h r.start
  have hstart' := h s.start
  simp only [mem_iff] at hstart hstart'
  simp only [Apart, stop]
  omega

/-- No address is in both regions. -/
def Disjoint (r s : Region) : Prop := ∀ a ∈ r, a ∉ s

theorem Disjoint.symm (h : r.Disjoint s) :
  s.Disjoint r
  := by
  intro a hs hr
  apply h a hr hs

/-- Only empty regions are disjoint without being apart. -/
theorem disjoint_iff :
  r.Disjoint s ↔ r.size = 0 ∨ s.size = 0 ∨ r.Apart s
  := by
  constructor
  · intro h
    by_contra hnot
    rw [not_or, not_or, ← ne_eq, ← ne_eq, ← Nat.pos_iff_ne_zero, ← Nat.pos_iff_ne_zero] at hnot
    apply hnot.2.2 (apart_of_forall_notMem hnot.1 hnot.2.1 h)
  · rintro (h | h | h) a hr hs
    · rw [mem_iff] at hr
      omega
    · rw [mem_iff] at hs
      omega
    · apply h.notMem hr hs

instance : DecidableRel Disjoint := fun _ _ => decidable_of_iff _ disjoint_iff.symm

/-! ### Regions with a part taken out -/

/-- The parts of the region `u` outside the region `r`. -/
def diff (u r : Region) : List Region :=
  [⟨u.start, min u.stop r.start - u.start⟩,
    ⟨max u.start r.stop, u.stop - max u.start r.stop⟩].filter fun v => 0 < v.size

theorem exists_mem_diff {u : Region} {a : ℕ} :
  (∃ v ∈ u.diff r, a ∈ v) ↔ a ∈ u ∧ a ∉ r
  := by
  simp only [diff, mem_filter, mem_cons, not_mem_nil, or_false, decide_eq_true_eq]
  simp only [or_and_right, exists_or, and_assoc, exists_eq_left, mem_iff, stop]
  omega

/-- The parts of the regions of a list outside the region `r`. -/
def unmap (l : List Region) (r : Region) : List Region := l.flatMap fun u => u.diff r

theorem exists_mem_unmap {l : List Region} {a : ℕ} :
  (∃ v ∈ unmap l r, a ∈ v) ↔ (∃ u ∈ l, a ∈ u) ∧ a ∉ r
  := by
  simp only [unmap, mem_flatMap]
  constructor
  · rintro ⟨v, ⟨u, hu, hv⟩, ha⟩
    obtain ⟨hau, har⟩ := exists_mem_diff.mp ⟨v, hv, ha⟩
    exact ⟨⟨u, hu, hau⟩, har⟩
  · rintro ⟨⟨u, hu, hau⟩, har⟩
    obtain ⟨v, hv, ha⟩ := exists_mem_diff.mpr ⟨hau, har⟩
    exact ⟨v, ⟨u, hu, hv⟩, ha⟩

/-! ### Owners of regions -/

/-- The owners have regions that are not empty, mapped, and apart from one another. -/
structure Owns {κ : Type*} (own : κ → Option Region) (used : List Region) : Prop where
  pos : ∀ {k r}, own k = some r → 0 < r.size
  mapped : ∀ {k r}, own k = some r → ∀ x ∈ r, ∃ u ∈ used, x ∈ u
  apart : ∀ {k k' r r'}, own k = some r → own k' = some r' → k ≠ k' → r.Apart r'

section

variable {κ : Type*} {own : κ → Option Region} {used used' : List Region} {r : Region}

/-- A region apart from those that are mapped is apart from those of the owners. -/
theorem Owns.apart_of_free (h : Owns own used) (hpos : 0 < r.size) (hfree : ∀ u ∈ used, r.Apart u)
    {k : κ} {r' : Region} (hk : own k = some r') :
  r.Apart r'
  := by
  apply apart_of_forall_notMem hpos (h.pos hk)
  intro x hx hx'
  obtain ⟨u, hu, hxu⟩ := h.mapped hk x hx'
  apply (hfree u hu).notMem hx hxu

/-- More may be mapped. -/
theorem Owns.mono (h : Owns own used) (hmapped : ∀ x, (∃ u ∈ used, x ∈ u) → ∃ u ∈ used', x ∈ u) :
  Owns own used'
  where
  pos := h.pos
  mapped hk x hx := hmapped x (h.mapped hk x hx)
  apart := h.apart

variable [DecidableEq κ]

/-- An owner gets a region that was free. -/
theorem Owns.insert (h : Owns own used) (hpos : 0 < r.size) (hfree : ∀ u ∈ used, r.Apart u) (k : κ) :
  Owns (update own k (some r)) (r :: used)
  := by
  have hold : ∀ {k' r'}, update own k (some r) k' = some r' →
      k' = k ∧ r' = r ∨ k' ≠ k ∧ own k' = some r' := by
    intro k' r' hk'
    rwa [update_apply, ite_eq_iff, Option.some.injEq, eq_comm (a := r)] at hk'
  constructor
  · intro k' r' hk'
    rcases hold hk' with ⟨-, rfl⟩ | ⟨-, hk'⟩
    · exact hpos
    · apply h.pos hk'
  · intro k' r' hk' x hx
    rcases hold hk' with ⟨-, rfl⟩ | ⟨-, hk'⟩
    · exact ⟨_, mem_cons_self, hx⟩
    · obtain ⟨u, hu, hxu⟩ := h.mapped hk' x hx
      exact ⟨u, mem_cons_of_mem _ hu, hxu⟩
  · intro k₁ k₂ r₁ r₂ hk₁ hk₂ hne
    rcases hold hk₁ with ⟨rfl, rfl⟩ | ⟨-, hown₁⟩
    · rcases hold hk₂ with ⟨rfl, -⟩ | ⟨-, hown₂⟩
      · cases hne rfl
      · apply h.apart_of_free hpos hfree hown₂
    · rcases hold hk₂ with ⟨rfl, rfl⟩ | ⟨-, hown₂⟩
      · apply (h.apart_of_free hpos hfree hown₁).symm
      · apply h.apart hown₁ hown₂ hne

end

end Region

/-- The key of the mapping that each address belongs to, if it is mapped. -/
abbrev Space (κ : Type*) : Type _ := ℕ → Option κ

namespace Space

variable {κ : Type*} {s : Space κ} {k k' : κ} {r r' : Region}

/-- The space after mapping a region, whatever was mapped there. -/
def map (s : Space κ) (k : κ) (r : Region) : Space κ :=
  fun a => if a ∈ r then some k else s a

/-- The whole region belongs to the mapping `k`. -/
def Holds (s : Space κ) (k : κ) (r : Region) : Prop := ∀ a ∈ r, s a = some k

theorem holds_map :
  (s.map k r).Holds k r
  := by
  intro a ha
  rw [map, if_pos ha]

/-- A later mapping leaves a region alone exactly when it is apart from it. -/
theorem holds_map_iff (hne : k' ≠ k) (hr : 0 < r.size) (hr' : 0 < r'.size) :
  (s.map k' r').Holds k r ↔ s.Holds k r ∧ r.Apart r'
  := by
  constructor
  · intro h
    have hnot : ∀ a ∈ r, a ∉ r' := by
      intro a ha ha'
      have hkey := h a ha
      rw [map, if_pos ha', Option.some.injEq] at hkey
      apply hne hkey
    constructor
    · intro a ha
      have hkey := h a ha
      rwa [map, if_neg (hnot a ha)] at hkey
    · apply Region.apart_of_forall_notMem hr hr' hnot
  · rintro ⟨h, hapart⟩ a ha
    rw [map, if_neg (hapart.notMem ha)]
    apply h a ha

/-- The space after mapping regions in the order of a list. -/
def mapAll (s : Space κ) (l : List (κ × Region)) : Space κ :=
  l.foldl (fun s p => s.map p.1 p.2) s

theorem holds_mapAll_iff {l : List (κ × Region)} (hr : 0 < r.size)
    (hkey : ∀ p ∈ l, p.1 ≠ k) (hsize : ∀ p ∈ l, 0 < p.2.size) :
  (s.mapAll l).Holds k r ↔ s.Holds k r ∧ ∀ p ∈ l, r.Apart p.2
  := by
  induction l generalizing s with
  | nil => simp [mapAll]
  | cons p l ih =>
    have ih := @ih (s.map p.1 p.2) (fun q hq => hkey q (List.mem_cons_of_mem p hq))
      (fun q hq => hsize q (List.mem_cons_of_mem p hq))
    rw [mapAll, List.foldl_cons, ← mapAll, ih,
      holds_map_iff (hkey p List.mem_cons_self) hr (hsize p List.mem_cons_self)]
    simp [and_assoc]

/-- When regions that are not empty are mapped one after the other under different keys, each
belongs to its mapping in the end exactly when they are pairwise apart. -/
theorem forall_holds_mapAll_iff {l : List (κ × Region)}
    (hkeys : (l.map Prod.fst).Nodup) (hsize : ∀ p ∈ l, 0 < p.2.size) :
  (∀ p ∈ l, (s.mapAll l).Holds p.1 p.2) ↔ (l.map Prod.snd).Pairwise Region.Apart
  := by
  induction l generalizing s with
  | nil => simp
  | cons p l ih =>
    rw [List.map_cons, List.nodup_cons] at hkeys
    have hne : ∀ q ∈ l, q.1 ≠ p.1 := by
      intro q hq heq
      apply hkeys.1
      rw [← heq]
      apply List.mem_map_of_mem hq
    have hl : ∀ q ∈ l, 0 < q.2.size := fun q hq => hsize q (List.mem_cons_of_mem p hq)
    have hhead := @holds_mapAll_iff κ (s.map p.1 p.2) p.1 p.2 l
      (hsize p List.mem_cons_self) hne hl
    rw [mapAll, List.foldl_cons, ← mapAll, List.forall_mem_cons, hhead, ih hkeys.2 hl,
      List.map_cons, List.pairwise_cons]
    simp only [holds_map, true_and, List.forall_mem_map]

end Space
