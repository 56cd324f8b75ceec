import MyWine.Lib.While
import MyWine.Loader.ImageAccess

/-!
# The walk over the relocation blocks

The loop of `apply_relocations` over the blocks as a `While` loop, `blockWalk`.  A block that is
taken has at least eight bytes, so that the loop ends whatever the directory holds
(`applyBlocks_eq_run`).

`relocationReads` lists the ranges that are read as headers and entries of blocks.  A round reads
`sizeOfBlock` before it compares anything with the end of the directory, so that all reads lie in
the directory exactly when no round starts in its last seven bytes
(`relocationReads_subset_iff`).  The entries need no such condition, since the size of a block is
checked before they are read, and the targets have a check of their own.
-/

open Pe

namespace Loader

open List

/-! ### The loop -/

def sizeOfBlock (img : Bytes) (block : ℕ) : ℕ := (img.u32 (block + 4)).toNat

def numEntries (img : Bytes) (block : ℕ) : ℕ := (sizeOfBlock img block - sizeofBaseRelocation) / 2

def blockRound (nt : ImageNtHeaders) (delta blockEnd : ℕ) (s : ℕ × Bytes) :
    (ℕ × Bytes) ⊕ Option Bytes :=
  let size := sizeOfBlock s.2 s.1
  if blockEnd ≤ s.1 then .inr (some s.2)
  else if size = 0 ∨ size < sizeofBaseRelocation then .inr (some s.2)
  else if blockEnd - s.1 < size then .inr none
  else
    match applyEntries nt delta (s.2.u32 s.1).toNat s.1 (numEntries s.2 s.1) s.2 with
    | none => .inr none
    | some img => .inl (s.1 + size, img)

variable {delta blockEnd block : ℕ} {nt : ImageNtHeaders} {img : Bytes}

theorem blockRound_inl {s s' : ℕ × Bytes} (h : blockRound nt delta blockEnd s = .inl s') :
  s'.1 = s.1 + sizeOfBlock s.2 s.1 ∧ 8 ≤ sizeOfBlock s.2 s.1 ∧ s'.1 ≤ blockEnd
  := by
  simp only [blockRound] at h
  split_ifs at h with hend hsize hfits
  rw [sizeofBaseRelocation] at hsize
  cases happly : applyEntries nt delta (s.2.u32 s.1).toNat s.1 (numEntries s.2 s.1) s.2 with
  | none =>
    rw [happly] at h
    cases h
  | some img =>
    rw [happly] at h
    cases h
    use rfl
    omega

theorem blockRound_eq_inl {img' : Bytes} (hsize : sizeofBaseRelocation ≤ sizeOfBlock img block)
    (hstop : block + sizeOfBlock img block ≤ blockEnd)
    (happly : applyEntries nt delta (img.u32 block).toNat block (numEntries img block) img =
      some img') :
  blockRound nt delta blockEnd (block, img) = .inl (block + sizeOfBlock img block, img')
  := by
  rw [sizeofBaseRelocation] at hsize
  simp only [blockRound]
  rw [if_neg (by omega), if_neg (by rw [sizeofBaseRelocation]; omega), if_neg (by omega), happly]

def blockWalk (nt : ImageNtHeaders) (delta blockEnd : ℕ) : While (ℕ × Bytes) (Option Bytes) where
  round := blockRound nt delta blockEnd
  variant s := blockEnd - s.1
  variant_lt h := by
    obtain ⟨hnext, hsize, hle⟩ := blockRound_inl h
    omega

theorem applyBlocks_succ (nt : ImageNtHeaders) (delta blockEnd fuel block : ℕ) (img : Bytes) :
  applyBlocks nt delta blockEnd (fuel + 1) block img =
    match blockRound nt delta blockEnd (block, img) with
    | .inl s => applyBlocks nt delta blockEnd fuel s.1 s.2
    | .inr r => r
  := by
  simp only [applyBlocks]
  split_ifs with hend hsize hfits
  · have hround : blockRound nt delta blockEnd (block, img) = .inr (some img) := if_pos hend
    rw [hround]
  · have hround : blockRound nt delta blockEnd (block, img) = .inr (some img) :=
      (if_neg hend).trans (if_pos hsize)
    rw [hround]
  · have hround : blockRound nt delta blockEnd (block, img) = .inr none :=
      (if_neg hend).trans ((if_neg hsize).trans (if_pos hfits))
    rw [hround]
  · have hround : blockRound nt delta blockEnd (block, img) = _ :=
      (if_neg hend).trans ((if_neg hsize).trans (if_neg hfits))
    rw [hround]
    simp only [numEntries, sizeOfBlock]
    cases applyEntries nt delta (img.u32 block).toNat block
      (((img.u32 (block + 4)).toNat - sizeofBaseRelocation) / 2) img with
    | none => rfl
    | some img => rfl

theorem applyBlocks_eq_run {fuel : ℕ} (hfuel : blockEnd - block ≤ fuel) :
  applyBlocks nt delta blockEnd fuel block img = (blockWalk nt delta blockEnd).run (block, img)
  := by
  induction fuel generalizing block img with
  | zero =>
    have hround : (blockWalk nt delta blockEnd).round (block, img) = .inr (some img) :=
      if_pos (Nat.sub_eq_zero_iff_le.mp (Nat.le_zero.mp hfuel))
    rw [While.run_inr hround, applyBlocks]
  | succ fuel ih =>
    rw [applyBlocks_succ]
    cases hround : blockRound nt delta blockEnd (block, img) with
    | inl s =>
      obtain ⟨hnext, hsize, hle⟩ := blockRound_inl hround
      have hrun : (blockWalk nt delta blockEnd).run (block, img) =
          (blockWalk nt delta blockEnd).run s := While.run_inl hround
      rw [hrun]
      apply ih
      omega
    | inr r =>
      have hrun : (blockWalk nt delta blockEnd).run (block, img) = r := While.run_inr hround
      rw [hrun]

/-! ### The directory -/

def relocationDirectory (nt : ImageNtHeaders) : Region :=
  match peGetDataDir nt directoryEntryBasereloc with
  | none => ⟨0, 0⟩
  | some dir => ⟨dir.virtualAddress.toNat, dir.size.toNat⟩

def walksBlocks (b : Build) (base : Ptr) (nt : ImageNtHeaders) : Bool :=
  let dir := relocationDirectory nt
  relocationDelta b base nt ≠ 0 && peCharacteristics nt &&& relocsStripped = 0 &&
    dir.start ≠ 0 && dir.size ≠ 0 && peRvaRangeIsValid dir.start dir.size (peSizeOfImage nt)

theorem applyRelocations_of_walksBlocks {b : Build} {base : Ptr}
    (h : walksBlocks b base nt = true) :
  applyRelocations b base nt img =
    (blockWalk nt (relocationDelta b base nt) (relocationDirectory nt).stop).run
      ((relocationDirectory nt).start, img)
  := by
  simp only [walksBlocks, ne_eq, Bool.and_eq_true, decide_eq_true_eq] at h
  obtain ⟨⟨⟨⟨hdelta, hkept⟩, hstart⟩, hsize⟩, hvalid⟩ := h
  rw [relocationDirectory] at hstart hsize hvalid ⊢
  cases hdir : peGetDataDir nt directoryEntryBasereloc with
  | none =>
    rw [hdir] at hstart
    cases hstart rfl
  | some dir =>
    simp only [hdir] at hstart hsize hvalid ⊢
    simp only [applyRelocations, hdir, hvalid]
    rw [if_neg hdelta, if_neg (by simpa using hkept), if_neg (by omega), if_neg (by decide)]
    apply applyBlocks_eq_run
    omega

/-! ### What is read -/

/-- The ranges that are read of the first `num` entries of the block at `block`: those that
succeed, and the first that fails. -/
def entryReads (nt : ImageNtHeaders) (delta va block num : ℕ) (img : Bytes) : List Region :=
  let steps := Loop.steps (entryStep nt delta va block) (List.range num) img
  (List.range (min num (steps.length + 1))).map fun i => ⟨block + sizeofBaseRelocation + 2 * i, 2⟩

/-- The ranges that a round reads: `sizeOfBlock`, and for a block that is not the last one
`virtualAddress`, and the entries if the block ends in the directory. -/
def roundReads (nt : ImageNtHeaders) (delta blockEnd : ℕ) (s : ℕ × Bytes) : List Region :=
  let size := sizeOfBlock s.2 s.1
  if blockEnd ≤ s.1 then []
  else if size = 0 ∨ size < sizeofBaseRelocation then [⟨s.1 + 4, 4⟩]
  else if blockEnd - s.1 < size then [⟨s.1 + 4, 4⟩, ⟨s.1, 4⟩]
  else
    ⟨s.1 + 4, 4⟩ :: ⟨s.1, 4⟩ ::
      entryReads nt delta (s.2.u32 s.1).toNat s.1 (numEntries s.2 s.1) s.2

def relocationRounds (b : Build) (base : Ptr) (nt : ImageNtHeaders) (img : Bytes) :
    List (ℕ × Bytes) :=
  if walksBlocks b base nt then
    (blockWalk nt (relocationDelta b base nt) (relocationDirectory nt).stop).states
      ((relocationDirectory nt).start, img)
  else []

def relocationReads (b : Build) (base : Ptr) (nt : ImageNtHeaders) (img : Bytes) : List Region :=
  (relocationRounds b base nt img).flatMap
    (roundReads nt (relocationDelta b base nt) (relocationDirectory nt).stop)

theorem entryReads_subset {va num : ℕ} {r : Region} (h : r ∈ entryReads nt delta va block num img) :
  block + 8 ≤ r.start ∧ r.stop ≤ block + 8 + 2 * num
  := by
  simp only [entryReads, mem_map, mem_range, sizeofBaseRelocation] at h
  obtain ⟨i, hi, rfl⟩ := h
  simp only [Region.stop]
  omega

theorem roundReads_subset_iff {dir : Region} {s : ℕ × Bytes} (hstart : dir.start ≤ s.1) :
  (∀ r ∈ roundReads nt delta dir.stop s, ∀ x ∈ r, x ∈ dir) ↔
    dir.stop ≤ s.1 ∨ s.1 + sizeofBaseRelocation ≤ dir.stop
  := by
  rw [sizeofBaseRelocation]
  by_cases hend : dir.stop ≤ s.1
  · simp only [roundReads, hend, if_true, true_or, iff_true]
    intro r hr
    cases hr
  · simp only [hend, false_or]
    constructor
    · intro h
      have hmem : (⟨s.1 + 4, 4⟩ : Region) ∈ roundReads nt delta dir.stop s := by
        simp only [roundReads, if_neg hend]
        split_ifs
        all_goals apply mem_cons_self
      have hlast := h _ hmem (s.1 + 7)
      simp only [Region.mem_iff, Region.stop] at hlast ⊢
      omega
    · intro hheader
      have hsize : ∀ x ∈ (⟨s.1 + 4, 4⟩ : Region), x ∈ dir := by
        intro x hx
        simp only [Region.mem_iff, Region.stop] at hx hheader ⊢
        omega
      have hva : ∀ x ∈ (⟨s.1, 4⟩ : Region), x ∈ dir := by
        intro x hx
        simp only [Region.mem_iff, Region.stop] at hx hheader ⊢
        omega
      simp only [roundReads, if_neg hend]
      split_ifs with hlast hfits
      · simpa only [forall_mem_singleton] using hsize
      · rw [forall_mem_cons, forall_mem_singleton]
        exact ⟨hsize, hva⟩
      · rw [forall_mem_cons, forall_mem_cons]
        use hsize, hva
        intro r hr x hx
        obtain ⟨hlow, hhigh⟩ := entryReads_subset hr
        rw [numEntries] at hhigh
        simp only [sizeofBaseRelocation, Region.stop] at hlast hfits hhigh
        rw [Region.mem_iff] at hx ⊢
        omega

theorem le_of_mem_relocationRounds {b : Build} {base : Ptr} {s : ℕ × Bytes}
    (h : s ∈ relocationRounds b base nt img) :
  (relocationDirectory nt).start ≤ s.1
  := by
  rw [relocationRounds] at h
  split_ifs at h
  · apply While.forall_mem_states (fun s => (relocationDirectory nt).start ≤ s.1) _ (le_refl _) h
    intro s s' hle hround
    have hnext := (blockRound_inl hround).1
    omega
  · cases h

/-- The headers and entries of blocks are read in the directory, and the targets are changed in the
image, exactly when at the beginning of every round the directory is at its end or has eight bytes
left. -/
theorem relocationReads_subset_iff
    (b : Build) (base : Ptr) (nt : ImageNtHeaders) (img : Bytes) :
  (∀ r ∈ relocationReads b base nt img, ∀ x ∈ r, x ∈ relocationDirectory nt) ∧
      (∀ r ∈ relocationWrites b base nt img, InImage (peSizeOfImage nt) r) ↔
    ∀ s ∈ relocationRounds b base nt img,
      (relocationDirectory nt).stop ≤ s.1 ∨
        s.1 + sizeofBaseRelocation ≤ (relocationDirectory nt).stop
  := by
  rw [and_iff_left relocationWrites_inImage]
  simp only [relocationReads, forall_mem_flatMap]
  constructor
  · intro h s hs
    apply (roundReads_subset_iff (le_of_mem_relocationRounds hs)).mp (h s hs)
  · intro h s hs
    apply (roundReads_subset_iff (le_of_mem_relocationRounds hs)).mpr (h s hs)

/-- The headers of an image of one page for the base `0x400000`, with the relocation directory
`dir`. -/
def pageHeaders (peType : PeType) (dir : ImageDataDirectory) : ImageNtHeaders where
  peType := peType
  fileHeader := ⟨0, 0, 0, 0, 0, 0, 0⟩
  optionalHeader := ⟨0, 0x400000, 0x1000, 0, 0, 0, 16, fun i =>
    if i = directoryEntryBasereloc then dir else ⟨0, 0⟩⟩

/-- The last twelve bytes of a page as relocation directory: a block without entries, and four
bytes. -/
def shortDirectory : Bytes := fun x => if x = 0xff8 then 8 else 0

/-- The second round reads `sizeOfBlock` past the directory, and past the image. -/
theorem relocationReads_not_subset :
  ∃ r ∈ relocationReads .i386 0x500000 (pageHeaders .pe32 ⟨0xff4, 12⟩) shortDirectory,
    ∀ x ∈ r, x ∉ relocationDirectory (pageHeaders .pe32 ⟨0xff4, 12⟩) ∧
      peSizeOfImage (pageHeaders .pe32 ⟨0xff4, 12⟩) ≤ x
  := by
  have hreads : relocationReads .i386 0x500000 (pageHeaders .pe32 ⟨0xff4, 12⟩) shortDirectory =
      [⟨0xff8, 4⟩, ⟨0xff4, 4⟩, ⟨0x1000, 4⟩] := by
    decide +kernel
  rw [hreads]
  use ⟨0x1000, 4⟩
  constructor
  · decide
  · intro x hx
    have hend : relocationDirectory (pageHeaders .pe32 ⟨0xff4, 12⟩) = ⟨0xff4, 12⟩ := by
      decide
    have hsize : peSizeOfImage (pageHeaders .pe32 ⟨0xff4, 12⟩) = 0x1000 := by
      decide
    rw [Region.mem_iff] at hx ⊢
    rw [hend, hsize]
    simp only at hx ⊢
    omega

end Loader
