import Mathlib.Data.Set.Card
import MyWine.Loader.SectionNames

/-!
# The jumps of the code section

What the scans of `pe_rip_scan.c` are for: `JumpsThrough` says that an indirect jump goes through a slot
of the image.  `scan_rip_relative_jumps` returns all slots of the code section in their order as long as
there is room for them, and `find_rip_relative_jump_to` the first jump through a slot that holds a
pointer (`scanRipRelativeJumps_spec`).
-/

open Pe

namespace Loader

open List

section

variable (nt : ImageNtHeaders) (base : Ptr) (img : Bytes) (text : ImageSectionHeader)

def slotBytes : ℕ := if peIsPe32 nt then 4 else 8

/-- At `rva` there is an indirect jump, or in PE32 also a call, through the slot at `slot`, which is in
the image.  Its operand is an absolute address in PE32, and otherwise relative to the next instruction. -/
structure JumpsThrough (rva slot : ℕ) : Prop where
  opcode : img rva = 0xFF ∧ (img (rva + 1) = 0x25 ∨ peIsPe32 nt ∧ img (rva + 1) = 0x15)
  inside : slot + slotBytes nt ≤ peSizeOfImage nt
  operand : if peIsPe32 nt then (base + slot) % 2 ^ 32 = (img.u32 (rva + 2)).toNat
    else (slot : ℤ) = rva + 6 + (img.u32 (rva + 2)).toInt32.toInt

/-- The places of the code section that leave room for a jump. -/
def InCode (rva : ℕ) : Prop :=
  text.virtualAddress.toNat ≤ rva ∧ rva + 6 ≤ text.virtualAddress.toNat + textLength text

def jumpSlots : Set ℕ := { slot | ∃ rva, InCode text rva ∧ JumpsThrough nt base img rva slot }

/-- A jump through a slot that holds the pointer. -/
def JumpsTo (target : Ptr) (rva : ℕ) : Prop :=
  InCode text rva ∧ ∃ slot, JumpsThrough nt base img rva slot ∧
    img.readLE slot (slotBytes nt) = if peIsPe32 nt then target % 2 ^ 32 else target

end

variable {nt : ImageNtHeaders} {base : Ptr} {img : Bytes} {text : ImageSectionHeader}

theorem peSizeOfImage_lt (nt : ImageNtHeaders) :
  peSizeOfImage nt < 2 ^ 32
  := UInt32.toNat_lt _

theorem scanAt_eq_some_iff {rva slot : ℕ} (hrva : rva < 2 ^ 32) :
  scanAt nt base img rva = some slot ↔ JumpsThrough nt base img rva slot
  := by
  have hsize := peSizeOfImage_lt nt
  have hoperand : slot + slotBytes nt ≤ peSizeOfImage nt → (jumpTarget nt base img rva = slot ↔
      if peIsPe32 nt then (base + slot) % 2 ^ 32 = (img.u32 (rva + 2)).toNat
      else (slot : ℤ) = rva + 6 + (img.u32 (rva + 2)).toInt32.toInt) := by
    intro hslot
    rw [jumpTarget]
    split_ifs
    · have hdisp := UInt32.toNat_lt (img.u32 (rva + 2))
      rw [UInt32.toNat_sub, UInt32.toNat_ofNat']
      omega
    · have hle := (img.u32 (rva + 2)).toInt32.le_toInt
      have hlt := (img.u32 (rva + 2)).toInt32.toInt_lt
      omega
  have hopcode : isJump nt img rva = true ↔
      img rva = 0xFF ∧ (img (rva + 1) = 0x25 ∨ peIsPe32 nt ∧ img (rva + 1) = 0x15) := by
    simp [isJump]
  rw [scanAt]
  simp only [Bool.and_eq_true, decide_eq_true_eq, hopcode, peRvaRangeIsValid_iff,
    show (if peIsPe32 nt = true then 4 else 8) = slotBytes nt from rfl, Option.ite_none_right_eq_some, Option.some.injEq]
  constructor
  · rintro ⟨⟨⟨hop, -⟩, hinside⟩, rfl⟩
    exact ⟨hop, hinside, (hoperand hinside).mp rfl⟩
  · rintro ⟨hop, hinside, hslot⟩
    obtain rfl := (hoperand hinside).mpr hslot
    exact ⟨⟨⟨hop, by omega⟩, hinside⟩, rfl⟩

theorem foldl_collectTarget (max : ℕ) (targets : List ℕ) {acc : List ℕ} (hacc : acc.Nodup) :
  let collected := targets.foldl (collectTarget max) acc
  collected.Nodup ∧ acc ⊆ collected ∧ (∀ x ∈ collected, x ∈ acc ∨ x ∈ targets) ∧
    (targets ⊆ collected ∨ max ≤ collected.length)
  := by
  induction targets generalizing acc with
  | nil => exact ⟨hacc, Subset.refl _, fun _ => Or.inl, Or.inl (nil_subset _)⟩
  | cons target targets ih =>
    have hround : (collectTarget max acc target).Nodup ∧ acc ⊆ collectTarget max acc target ∧
        (∀ x ∈ collectTarget max acc target, x ∈ acc ∨ x = target) ∧
          (target ∈ collectTarget max acc target ∨ max ≤ (collectTarget max acc target).length) := by
      rw [collectTarget]
      split_ifs with hmem hroom
      · exact ⟨hacc, Subset.refl _, fun _ => Or.inl, Or.inl hmem⟩
      · refine ⟨?_, subset_append_left _ _, by simp, by simp⟩
        exact nodup_append.mpr ⟨hacc, nodup_singleton _, by
          rintro x hx y hy rfl
          exact hmem (mem_singleton.mp hy ▸ hx)⟩
      · exact ⟨hacc, Subset.refl _, fun _ => Or.inl, Or.inr (not_lt.mp hroom)⟩
    obtain ⟨hnodup, hsub, hfrom, hkept⟩ := hround
    obtain ⟨hnodup', hsub', hfrom', hkept'⟩ := ih hnodup
    refine ⟨hnodup', fun _ hx => hsub' (hsub hx), fun x hx => ?_, ?_⟩
    · rcases hfrom' x hx with h | h
      · rcases hfrom x h with h | rfl
        · exact Or.inl h
        · exact Or.inr mem_cons_self
      · exact Or.inr (mem_cons_of_mem _ h)
    · rcases hkept with h | h
      · exact hkept'.imp (fun hrest => cons_subset.mpr ⟨hsub' h, hrest⟩) id
      · exact Or.inr (h.trans (hnodup.subperm hsub').length_le)

section

variable (htext : findCodeSection nt img (getImageSections nt img) = some text)
  (hinside : text.virtualAddress.toNat + textLength text ≤ peSizeOfImage nt)
include htext hinside

theorem mem_scanRipJumps_iff {slot : ℕ} :
  slot ∈ scanRipJumps nt base img ↔ slot ∈ jumpSlots nt base img text
  := by
  have hsize := peSizeOfImage_lt nt
  simp only [scanRipJumps, htext, Bool.not_eq_true', Bool.eq_false_iff, ne_eq, peRvaRangeIsValid_iff]
  rw [jumpSlots, Set.mem_ofPred_eq]
  split_ifs with hshort
  · simp only [not_mem_nil, InCode, false_iff, not_exists, not_and]
    omega
  · simp only [mem_filterMap, mem_range, InCode]
    constructor
    · rintro ⟨off, hoff, hjump⟩
      exact ⟨_, ⟨by omega, by omega⟩, (scanAt_eq_some_iff (by omega)).mp hjump⟩
    · rintro ⟨rva, ⟨hle, hend⟩, hjump⟩
      refine ⟨rva - text.virtualAddress.toNat, by omega, ?_⟩
      rw [Nat.add_sub_cancel' hle]
      exact (scanAt_eq_some_iff (by omega)).mpr hjump

theorem findTextThunk_eq_some_iff {target rva : ℕ} :
  findTextThunk nt base img target = some rva ↔
    JumpsTo nt base img text target rva ∧ ∀ rva' < rva, ¬ JumpsTo nt base img text target rva'
  := by
  have hsize := peSizeOfImage_lt nt
  have hholds {rva : ℕ} (hrva : rva < 2 ^ 32) : ((scanAt nt base img rva).any fun slot =>
      if peIsPe32 nt then img.readLE slot 4 = target % 2 ^ 32 else img.readLE slot 8 = target) = true ↔
      ∃ slot, JumpsThrough nt base img rva slot ∧
        img.readLE slot (slotBytes nt) = if peIsPe32 nt then target % 2 ^ 32 else target := by
    simp only [Option.any_eq_true, scanAt_eq_some_iff hrva, slotBytes]
    split_ifs <;> simp
  simp only [findTextThunk, htext, Bool.not_eq_true', Bool.eq_false_iff, ne_eq, peRvaRangeIsValid_iff]
  split
  case isTrue hshort =>
    simp only [reduceCtorEq, JumpsTo, InCode, false_iff, not_and]
    omega
  case isFalse hshort =>
    rw [find?_map, Option.map_eq_some_iff]
    simp only [find?_range_eq_some, Function.comp_apply, Bool.not_eq_true', Bool.eq_false_iff, ne_eq, mem_range]
    constructor
    · rintro ⟨off, ⟨hjump, hoff, hfirst⟩, rfl⟩
      refine ⟨⟨⟨by omega, by omega⟩, (hholds (by omega)).mp hjump⟩, ?_⟩
      rintro rva' hlt ⟨⟨hle, hend⟩, hjump'⟩
      apply hfirst (rva' - text.virtualAddress.toNat) (by omega)
      rw [Nat.add_sub_cancel' hle]
      exact (hholds (by omega)).mpr hjump'
    · rintro ⟨⟨⟨hle, hend⟩, hjump⟩, hfirst⟩
      refine ⟨rva - text.virtualAddress.toNat, ⟨?_, by omega, fun off hoff hjump' => ?_⟩,
        Nat.add_sub_cancel' hle⟩
      · rw [Nat.add_sub_cancel' hle]
        exact (hholds (by omega)).mpr hjump
      · exact hfirst (text.virtualAddress.toNat + off) (by omega)
          ⟨⟨by omega, by omega⟩, (hholds (by omega)).mp hjump'⟩

/-- The scan returns RVAs in their order, all slots of the code section if they are not too many, and
the search finds the first jump to a pointer. -/
theorem scanRipRelativeJumps_spec (max : ℕ) (target : Ptr) :
  (scanRipRelativeJumps nt base img max).Pairwise (· < ·) ∧
    ((jumpSlots nt base img text).encard ≤ max →
      ∀ slot, slot ∈ scanRipRelativeJumps nt base img max ↔ slot ∈ jumpSlots nt base img text) ∧
    ∀ rva, findTextThunk nt base img target = some rva ↔
      JumpsTo nt base img text target rva ∧ ∀ rva' < rva, ¬ JumpsTo nt base img text target rva'
  := by
  obtain ⟨hnodup, -, hfrom, hkept⟩ := foldl_collectTarget max (scanRipJumps nt base img) nodup_nil
  rw [scanRipRelativeJumps]
  generalize (scanRipJumps nt base img).foldl (collectTarget max) [] = collected at hnodup hfrom hkept
  have hslots (slot : ℕ) (h : slot ∈ collected) : slot ∈ jumpSlots nt base img text :=
    (mem_scanRipJumps_iff htext hinside).mp ((hfrom slot h).resolve_left not_mem_nil)
  refine ⟨?_, fun hcard slot => ?_, fun rva => findTextThunk_eq_some_iff htext hinside⟩
  · apply ((pairwise_insertionSort _ collected).and ((perm_insertionSort _ collected).nodup_iff.mpr hnodup)).imp
    rintro x y ⟨hle, hne⟩
    omega
  · rw [mem_insertionSort]
    refine ⟨hslots slot, fun hslot => ?_⟩
    rcases hkept with hall | hfull
    · exact hall ((mem_scanRipJumps_iff htext hinside).mpr hslot)
    · -- One more slot would be too many.
      by_contra hnot
      have hsub : (↑(slot :: collected).toFinset : Set ℕ) ⊆ jumpSlots nt base img text := by
        intro x hx
        rw [Finset.mem_coe, mem_toFinset, mem_cons] at hx
        rcases hx with rfl | hx
        · exact hslot
        · exact hslots x hx
      have hle := (Set.encard_le_encard hsub).trans hcard
      rw [Set.encard_coe_eq_coe_finsetCard, toFinset_card_of_nodup (nodup_cons.mpr ⟨hnot, hnodup⟩),
        Nat.cast_le, length_cons] at hle
      omega

end

/-- A jump at the start of the section `.text`, through a slot behind it that holds `0x1234`. -/
def jumpImage : Bytes :=
  (File.ofFields 0x1000 [(24, 5, 0x747865742e), (32, 4, 16), (36, 4, 0x100), (40, 4, 16),
    (0x100, 2, 0x25FF), (0x102, 4, 0x400200), (0x200, 4, 0x1234)]).byte

theorem scanRipRelativeJumps_sample :
  findCodeSection oneSection jumpImage (getImageSections oneSection jumpImage) = some ⟨16, 0x100, 16, 0, 0⟩ ∧
    JumpsTo oneSection 0x400000 jumpImage ⟨16, 0x100, 16, 0, 0⟩ 0x1234 0x100
  := by
  have htext : findCodeSection oneSection jumpImage (getImageSections oneSection jumpImage) =
      some ⟨16, 0x100, 16, 0, 0⟩ := by
    decide +kernel
  have hthunk : findTextThunk oneSection 0x400000 jumpImage 0x1234 = some 0x100 := by decide +kernel
  refine ⟨htext, ?_⟩
  exact (((scanRipRelativeJumps_spec htext (by decide) 8 0x1234).2.2 0x100).mp hthunk).1

end Loader
