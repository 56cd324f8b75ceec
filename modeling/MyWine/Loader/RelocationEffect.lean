import MyWine.Lib.Increment
import MyWine.Loader.RelocationWalk

/-!
# The effect of the relocations

A `RelocationEntry` is an entry of the relocation table with the page of its block, and
`Blocks img stop block l` says that the bytes of `img` from `block` to `stop` are blocks with the
entries `l`.  For a well-formed table, whose targets are in the image and disjoint from one another
and from the table, the walk over the image that is being patched does the additions of its entries
(`applyRelocations_eq_relocated`).

So each address of full width is moved by the difference of the bases and nothing else changes, and
relocating twice amounts to relocating once by the sum, if all targets have full width
(`applyRelocations_effect`).  A 16-bit target gets one half of the difference only: the halves of
an address are moved together exactly when there is no carry between them
(`applyRelocations_high_low`).
-/

open Pe

namespace Loader

open List Option

/-- An entry of the relocation table, with the RVA of the page that its block is for. -/
structure RelocationEntry where
  va : ℕ
  word : UInt16
  deriving DecidableEq, Repr

namespace RelocationEntry

def type (e : RelocationEntry) : ℕ := e.word.toNat / 2 ^ 12

def rva (e : RelocationEntry) : ℕ := e.va + e.word.toNat % 2 ^ 12

def addend (delta : ℕ) (e : RelocationEntry) : ℕ :=
  if e.type = relBasedHigh ∨ e.type = relBasedHighadj then delta / 2 ^ 16 else delta

/-- The target is an address: `HIGHLOW` and `DIR32` in PE32 images, `DIR64` in PE32+ images. -/
def IsFull (nt : ImageNtHeaders) (e : RelocationEntry) : Prop :=
  if peIsPe32 nt then e.type = relBasedDir32 ∨ e.type = relBasedHighlow else e.type = relBasedDir64

instance (nt : ImageNtHeaders) (e : RelocationEntry) : Decidable (e.IsFull nt) :=
  inferInstanceAs (Decidable (if peIsPe32 nt then _ ∨ _ else _))

def IsHalf (nt : ImageNtHeaders) (e : RelocationEntry) : Prop :=
  peIsPe32 nt = true ∧ (e.type = relBasedHigh ∨ e.type = relBasedHighadj ∨ e.type = relBasedLow)

instance (nt : ImageNtHeaders) (e : RelocationEntry) : Decidable (e.IsHalf nt) :=
  inferInstanceAs (Decidable (_ ∧ _))

def width (nt : ImageNtHeaders) (e : RelocationEntry) : ℕ :=
  if e.IsFull nt then if peIsPe32 nt then 4 else 8
  else if e.IsHalf nt then 2
  else 0

def target (nt : ImageNtHeaders) (e : RelocationEntry) : Region := ⟨e.rva, e.width nt⟩

def Fits (nt : ImageNtHeaders) (e : RelocationEntry) : Prop :=
  (e.type = relBasedAbsolute ∨ e.rva < 2 ^ 32) ∧
    (e.width nt = 0 ∨ (e.target nt).stop ≤ peSizeOfImage nt)

instance (nt : ImageNtHeaders) (e : RelocationEntry) : Decidable (e.Fits nt) :=
  inferInstanceAs (Decidable (_ ∧ _))

variable {e : RelocationEntry} {nt : ImageNtHeaders}

theorem width_of_isFull (h : e.IsFull nt) :
  e.width nt = if peIsPe32 nt then 4 else 8
  := if_pos h

theorem width_of_isHalf (h : e.IsHalf nt) :
  e.width nt = 2
  := by
  have hfull : ¬ e.IsFull nt := by
    obtain ⟨hpe, htype⟩ := h
    rw [IsFull, if_pos hpe]
    rcases htype with htype | htype | htype
    all_goals
      rw [htype]
      decide
  rw [width, if_neg hfull, if_pos h]

theorem addend_of_isFull (delta : ℕ) (h : e.IsFull nt) :
  e.addend delta = delta
  := by
  rw [IsFull] at h
  rw [addend, if_neg]
  simp only [relBasedHigh, relBasedHighadj, relBasedDir32, relBasedHighlow, relBasedDir64] at h ⊢
  split_ifs at h
  · omega
  · omega

theorem applyEntry_width (delta : ℕ) (img : Bytes) (hrva : e.type = relBasedAbsolute ∨ e.rva < 2 ^ 32) :
  applyEntry nt delta e.va img e.word =
    if e.width nt = 0 then some img else addAt nt img e.rva (e.width nt) (e.addend delta)
  := by
  have hoverflow : e.type = relBasedAbsolute ∨ ¬ 2 ^ 32 - 1 - e.word.toNat % 2 ^ 12 < e.va := by
    rw [rva] at hrva
    omega
  have hfull : e.IsFull nt ↔ if peIsPe32 nt then _ else _ := Iff.rfl
  have hhalf : e.IsHalf nt ↔ _ ∧ _ := Iff.rfl
  simp only [applyEntry, width, addend]
  rw [← type, ← rva]
  rcases Bool.eq_false_or_eq_true (peIsPe32 nt) with hpe | hpe
  all_goals
    simp only [hfull, hhalf, hpe, Bool.false_eq_true, if_true, if_false, true_and, false_and,
      relBasedAbsolute, relBasedHigh, relBasedLow, relBasedHighlow, relBasedDir32, relBasedHighadj,
      relBasedDir64] at hoverflow ⊢
    grind

theorem applyEntry_eq (delta : ℕ) (img : Bytes) (h : e.Fits nt) :
  applyEntry nt delta e.va img e.word =
    some ((⟨e.target nt, e.addend delta⟩ : Increment).apply img)
  := by
  obtain ⟨hrva, hstop⟩ := h
  rw [applyEntry_width delta img hrva]
  split_ifs with hwidth
  · rw [some.injEq]
    funext x
    rw [Increment.apply_of_notMem]
    rw [Region.mem_iff, target, hwidth]
    simp only
    omega
  · have hvalid : e.rva + e.width nt ≤ peSizeOfImage nt := hstop.resolve_left hwidth
    rw [addAt, if_pos (peRvaRangeIsValid_iff.mpr hvalid)]
    rfl

end RelocationEntry

/-! ### Well-formed tables -/

def blockEntries (img : Bytes) (block : ℕ) : List RelocationEntry :=
  (List.range (numEntries img block)).map fun i =>
    ⟨(img.u32 block).toNat, img.u16 (block + sizeofBaseRelocation + 2 * i)⟩

/-- The bytes from a position to `stop` are blocks with the given entries.  They may end with a
block whose size is less than that of a header. -/
inductive Blocks (img : Bytes) (stop : ℕ) : ℕ → List RelocationEntry → Prop where
  | nil : Blocks img stop stop []
  | terminator {block : ℕ} (hheader : block + sizeofBaseRelocation ≤ stop)
      (hsize : sizeOfBlock img block < sizeofBaseRelocation) : Blocks img stop block []
  | cons {block : ℕ} {l : List RelocationEntry}
      (hsize : sizeofBaseRelocation ≤ sizeOfBlock img block)
      (hstop : block + sizeOfBlock img block ≤ stop)
      (hrest : Blocks img stop (block + sizeOfBlock img block) l) :
      Blocks img stop block (blockEntries img block ++ l)

/-- The image keeps its relocations, and they are the entries `l` of a table in the image.  The
targets lie in the image and are disjoint from one another and from the table. -/
structure WellFormedTable (nt : ImageNtHeaders) (img : Bytes) (l : List RelocationEntry) : Prop where
  kept : peCharacteristics nt &&& relocsStripped = 0
  empty : (relocationDirectory nt).start = 0 ∨ (relocationDirectory nt).size = 0 → l = []
  inImage : (relocationDirectory nt).stop ≤ peSizeOfImage nt
  blocks : (relocationDirectory nt).start ≠ 0 → (relocationDirectory nt).size ≠ 0 →
    Blocks img (relocationDirectory nt).stop (relocationDirectory nt).start l
  fits : ∀ e ∈ l, e.Fits nt
  disjoint : l.Pairwise fun e e' => (e.target nt).Disjoint (e'.target nt)
  outside : ∀ e ∈ l, (e.target nt).Disjoint (relocationDirectory nt)

def relocated (nt : ImageNtHeaders) (delta : ℕ) (l : List RelocationEntry) (img : Bytes) : Bytes :=
  Increment.applyAll (l.map fun e => ⟨e.target nt, e.addend delta⟩) img

/-! ### The walk over a well-formed table -/

section

variable {nt : ImageNtHeaders} {block : ℕ} {img img₀ : Bytes} {dir : Region}

theorem header_congr (himg : ∀ x ∈ dir, img x = img₀ x) (hstart : dir.start ≤ block)
    (hheader : block + sizeofBaseRelocation ≤ dir.stop) :
  img.u32 block = img₀.u32 block ∧ sizeOfBlock img block = sizeOfBlock img₀ block
  := by
  rw [sizeofBaseRelocation, Region.stop] at hheader
  have hread : ∀ k, k + 4 ≤ 8 → img.u32 (block + k) = img₀.u32 (block + k) := by
    intro k hk
    rw [Bytes.u32, Bytes.u32, Bytes.readLE_congr]
    intro x hx hlt
    apply himg x
    rw [Region.mem_iff]
    omega
  rw [sizeOfBlock, sizeOfBlock, hread 4 (by decide)]
  exact ⟨hread 0 (by decide), rfl⟩

theorem entry_congr {i : ℕ} (himg : ∀ x ∈ dir, img x = img₀ x) (hstart : dir.start ≤ block)
    (hstop : block + sizeOfBlock img₀ block ≤ dir.stop)
    (hi : i ∈ List.range (numEntries img₀ block)) :
  img.u16 (block + sizeofBaseRelocation + 2 * i) = img₀.u16 (block + sizeofBaseRelocation + 2 * i)
  := by
  rw [mem_range, numEntries] at hi
  rw [Bytes.u16, Bytes.u16, Bytes.readLE_congr]
  intro x hx hlt
  apply himg x
  rw [sizeofBaseRelocation] at hi hx hlt
  rw [Region.stop] at hstop
  rw [Region.mem_iff]
  omega

theorem Blocks.congr {l : List RelocationEntry} (hl : Blocks img₀ dir.stop block l)
    (himg : ∀ x ∈ dir, img x = img₀ x) (hstart : dir.start ≤ block) :
  Blocks img dir.stop block l
  := by
  induction hl with
  | nil => apply Blocks.nil
  | @terminator block hheader hsize =>
    rw [← (header_congr himg hstart hheader).2] at hsize
    apply Blocks.terminator hheader hsize
  | @cons block l hsize hstop hrest ih =>
    have hheader : block + sizeofBaseRelocation ≤ dir.stop := by omega
    obtain ⟨hva, hsize'⟩ := header_congr himg hstart hheader
    have hentries : blockEntries img block = blockEntries img₀ block := by
      rw [blockEntries, blockEntries, hva, numEntries, hsize', ← numEntries]
      apply map_congr_left
      intro i hi
      rw [entry_congr himg hstart hstop hi]
    rw [← hentries]
    apply Blocks.cons
    · rw [hsize']
      apply hsize
    · rw [hsize']
      apply hstop
    · rw [hsize']
      apply ih
      omega

theorem increment_apply_of_disjoint {i : Increment} (himg : ∀ x ∈ dir, img x = img₀ x)
    (h : i.region.Disjoint dir) :
  ∀ x ∈ dir, i.apply img x = img₀ x
  := by
  intro x hx
  rw [Increment.apply_of_notMem img (h.symm x hx), himg x hx]

theorem applyEntries_eq_relocated (delta : ℕ) (himg : ∀ x ∈ dir, img x = img₀ x)
    (hstart : dir.start ≤ block) (hstop : block + sizeOfBlock img₀ block ≤ dir.stop)
    (hfits : ∀ e ∈ blockEntries img₀ block, e.Fits nt)
    (houtside : ∀ e ∈ blockEntries img₀ block, (e.target nt).Disjoint dir) :
  applyEntries nt delta (img₀.u32 block).toNat block (numEntries img₀ block) img =
      some (relocated nt delta (blockEntries img₀ block) img) ∧
    ∀ x ∈ dir, relocated nt delta (blockEntries img₀ block) img x = img₀ x
  := by
  simp only [relocated, blockEntries, List.map_map, List.forall_mem_map] at hfits houtside ⊢
  apply Increment.foldlM_eq_applyAll (fun m => ∀ x ∈ dir, m x = img₀ x) _ himg
  intro i hi m hm
  rw [entry_congr hm hstart hstop hi]
  constructor
  · apply RelocationEntry.applyEntry_eq delta m (hfits i hi)
  · apply increment_apply_of_disjoint hm (houtside i hi)

/-- The walk over the blocks does the additions of their entries.  It reads the table from the image
that it patches, which agrees with the image `img₀` before on the table. -/
theorem run_blockWalk_eq_relocated {l : List RelocationEntry} (delta : ℕ)
    (hl : Blocks img₀ dir.stop block l) (himg : ∀ x ∈ dir, img x = img₀ x)
    (hstart : dir.start ≤ block) (hfits : ∀ e ∈ l, e.Fits nt)
    (houtside : ∀ e ∈ l, (e.target nt).Disjoint dir) :
  (blockWalk nt delta dir.stop).run (block, img) = some (relocated nt delta l img)
  := by
  induction hl generalizing img with
  | nil =>
    have hround : (blockWalk nt delta dir.stop).round (dir.stop, img) = .inr (some img) :=
      if_pos (le_refl _)
    rw [While.run_inr hround]
    rfl
  | @terminator block hheader hsize =>
    have hend : ¬ dir.stop ≤ block := by
      rw [sizeofBaseRelocation] at hheader
      omega
    rw [← (header_congr himg hstart hheader).2] at hsize
    have hround : (blockWalk nt delta dir.stop).round (block, img) = .inr (some img) :=
      (if_neg hend).trans (if_pos (Or.inr hsize))
    rw [While.run_inr hround]
    rfl
  | @cons block l hsize hstop hrest ih =>
    rw [forall_mem_append] at hfits houtside
    obtain ⟨hva, hsize'⟩ := header_congr himg hstart (by omega)
    obtain ⟨happly, himg'⟩ :=
      applyEntries_eq_relocated delta himg hstart hstop hfits.1 houtside.1
    rw [← hva, numEntries, ← hsize', ← numEntries] at happly
    rw [← hsize'] at hsize hstop ih
    have hround : (blockWalk nt delta dir.stop).round (block, img) = _ :=
      blockRound_eq_inl hsize hstop happly
    rw [While.run_inl hround, ih himg' (by omega) hfits.2 houtside.2, relocated, relocated,
      relocated, map_append, Increment.applyAll_append]

end

/-! ### The whole relocation -/

theorem applyRelocations_of_empty {nt : ImageNtHeaders} (b : Build) (base : Ptr) (img : Bytes)
    (hkept : peCharacteristics nt &&& relocsStripped = 0)
    (hempty : (relocationDirectory nt).start = 0 ∨ (relocationDirectory nt).size = 0) :
  applyRelocations b base nt img = some img
  := by
  rw [relocationDirectory] at hempty
  simp only [applyRelocations]
  rw [if_neg (not_not_intro hkept)]
  split_ifs
  · rfl
  · cases hdir : peGetDataDir nt directoryEntryBasereloc with
    | none => rfl
    | some dir =>
      simp only [hdir] at hempty ⊢
      rw [if_pos hempty]

section

variable {nt : ImageNtHeaders} {img : Bytes} {l : List RelocationEntry}

theorem relocated_of_notMem {x : ℕ} (delta : ℕ) (img : Bytes) (h : ∀ e ∈ l, x ∉ e.target nt) :
  relocated nt delta l img x = img x
  := by
  apply Increment.applyAll_map_of_notMem (fun e => e.addend delta) img h

theorem WellFormedTable.value_relocated (h : WellFormedTable nt img l) (delta : ℕ)
    {e : RelocationEntry} (he : e ∈ l) :
  Increment.value (relocated nt delta l img) (e.target nt) =
    (Increment.value img (e.target nt) + e.addend delta) % 256 ^ e.width nt
  := by
  apply Increment.value_applyAll_map (fun e => e.addend delta) img h.disjoint he

theorem WellFormedTable.relocated (h : WellFormedTable nt img l) (delta : ℕ) :
  WellFormedTable nt (relocated nt delta l img) l
  where
  kept := h.kept
  empty := h.empty
  inImage := h.inImage
  blocks hstart hsize := by
    apply (h.blocks hstart hsize).congr _ (le_refl _)
    intro x hx
    apply relocated_of_notMem
    intro e he
    apply (h.outside e he).symm x hx
  fits := h.fits
  disjoint := h.disjoint
  outside := h.outside

theorem applyRelocations_eq_relocated (b : Build) (base : Ptr) (h : WellFormedTable nt img l) :
  applyRelocations b base nt img = some (relocated nt (relocationDelta b base nt) l img)
  := by
  by_cases hempty : (relocationDirectory nt).start = 0 ∨ (relocationDirectory nt).size = 0
  · rw [applyRelocations_of_empty b base img h.kept hempty, h.empty hempty]
    rfl
  · rw [not_or] at hempty
    by_cases hdelta : relocationDelta b base nt = 0
    · have hzero : ∀ e ∈ l, e.addend 0 % 256 ^ e.width nt = 0 := by
        intro e _
        simp [RelocationEntry.addend]
      have hsame := Increment.applyAll_eq_self img h.disjoint hzero
      simp only [applyRelocations]
      rw [if_pos hdelta, hdelta, Loader.relocated]
      exact congrArg some hsame.symm
    · have hvalid := peRvaRangeIsValid_iff.mpr h.inImage
      have hwalks : walksBlocks b base nt = true := by
        simp only [walksBlocks, ne_eq, Bool.and_eq_true, decide_eq_true_eq]
        exact ⟨⟨⟨⟨hdelta, h.kept⟩, hempty.1⟩, hempty.2⟩, hvalid⟩
      rw [applyRelocations_of_walksBlocks hwalks]
      apply run_blockWalk_eq_relocated _ (h.blocks hempty.1 hempty.2) (fun _ _ => rfl) (le_refl _)
        h.fits h.outside

variable {b : Build}

theorem width_dvd_ptrLimit (hbuild : b = .x64 ∨ peIsPe32 nt = true) :
  256 ^ (if peIsPe32 nt then 4 else 8) ∣ b.ptrLimit
  := by
  rw [Build.ptrLimit]
  apply pow_dvd_pow
  cases b with
  | x64 =>
    rw [Build.ptrSize]
    split_ifs
    · decide
    · decide
  | i386 =>
    rw [if_pos (hbuild.resolve_left (by decide))]
    decide

theorem add_relocationDelta (base : ℕ) (hbuild : b = .x64 ∨ peIsPe32 nt = true) (v : ℕ) :
  (((v + relocationDelta b base nt) % 256 ^ (if peIsPe32 nt then 4 else 8) : ℕ) : ℤ) =
    ((v : ℤ) + (base - peImageBase nt)) % 2 ^ (if peIsPe32 nt then 32 else 64)
  := by
  have hlt : peImageBase nt < 2 ^ 64 := nt.optionalHeader.imageBase.toNat_lt
  rw [relocationDelta, Build.wrap, Nat.add_mod, Nat.mod_mod_of_dvd _ (width_dvd_ptrLimit hbuild),
    ← Nat.add_mod]
  split_ifs
  · omega
  · omega

theorem addend_add_addend {e : RelocationEntry} {d₁ d₂ d₃ : ℕ}
    (hbuild : b = .x64 ∨ peIsPe32 nt = true) (hhalf : ¬ e.IsHalf nt)
    (hsum : b.wrap (d₁ + d₂) = d₃) :
  (e.addend d₁ + e.addend d₂) % 256 ^ e.width nt = e.addend d₃ % 256 ^ e.width nt
  := by
  by_cases hfull : e.IsFull nt
  · rw [e.addend_of_isFull _ hfull, e.addend_of_isFull _ hfull, e.addend_of_isFull _ hfull,
      e.width_of_isFull hfull, ← hsum, Build.wrap,
      Nat.mod_mod_of_dvd _ (width_dvd_ptrLimit hbuild)]
  · have hwidth : e.width nt = 0 := by
      rw [RelocationEntry.width, if_neg hfull, if_neg hhalf]
    rw [hwidth, pow_zero, Nat.mod_one, Nat.mod_one]

theorem applyRelocations_bind (h : WellFormedTable nt img l)
    (hbuild : b = .x64 ∨ peIsPe32 nt = true) (hfull : ∀ e ∈ l, ¬ e.IsHalf nt)
    {base₁ base₂ base₃ : Ptr}
    (hsum : b.wrap (relocationDelta b base₁ nt + relocationDelta b base₂ nt) =
      relocationDelta b base₃ nt) :
  (applyRelocations b base₁ nt img).bind (applyRelocations b base₂ nt) =
    applyRelocations b base₃ nt img
  := by
  rw [applyRelocations_eq_relocated b base₁ h, applyRelocations_eq_relocated b base₃ h,
    bind_some, applyRelocations_eq_relocated b base₂ (h.relocated _), some.injEq]
  apply Increment.applyAll_applyAll img h.disjoint
  intro e he
  apply addend_add_addend hbuild (hfull e he) hsum

end

/-! ### Tables of one block -/

theorem wellFormedTable_of_block {nt : ImageNtHeaders} {img : Bytes} {l : List RelocationEntry}
    (h : peCharacteristics nt &&& relocsStripped = 0 ∧ (relocationDirectory nt).start ≠ 0 ∧
      (relocationDirectory nt).size ≠ 0 ∧ (relocationDirectory nt).stop ≤ peSizeOfImage nt)
    (hsize : sizeofBaseRelocation ≤ sizeOfBlock img (relocationDirectory nt).start)
    (hstop : (relocationDirectory nt).start + sizeOfBlock img (relocationDirectory nt).start =
      (relocationDirectory nt).stop)
    (hl : blockEntries img (relocationDirectory nt).start = l)
    (hfits : ∀ e ∈ l, e.Fits nt ∧ (e.target nt).Disjoint (relocationDirectory nt))
    (hdisjoint : l.Pairwise fun e e' => (e.target nt).Disjoint (e'.target nt)) :
  WellFormedTable nt img l
  where
  kept := h.1
  empty := fun hempty => (hempty.elim h.2.1 h.2.2.1).elim
  inImage := h.2.2.2
  blocks _ _ := by
    have hrest := @Blocks.nil img (relocationDirectory nt).stop
    rw [← hstop] at hrest
    have hblock := Blocks.cons hsize (le_refl _) hrest
    rwa [append_nil, hl, hstop] at hblock
  fits e he := (hfits e he).1
  disjoint := hdisjoint
  outside e he := (hfits e he).2

/-- An image of one page with the relocations `w₁` and `w₂` in a block at `0x100`, and with the
numbers `v₁` at `0x200` and `v₂` at `0x210`. -/
def blockImage (w₁ w₂ v₁ v₂ : ℕ) : Bytes :=
  (File.ofFields 0x1000 [(0x104, 4, 12), (0x108, 2, w₁), (0x10a, 2, w₂), (0x200, 4, v₁),
    (0x210, 4, v₂)]).byte

theorem wellFormedTable_highlow :
  WellFormedTable (pageHeaders .pe32 ⟨0x100, 12⟩) (blockImage 0x3200 0 0x401234 0)
    [⟨0, 0x3200⟩, ⟨0, 0⟩]
  := by
  apply wellFormedTable_of_block
  all_goals decide

theorem wellFormedTable_high :
  WellFormedTable (pageHeaders .pe32 ⟨0x100, 12⟩) (blockImage 0x1200 0 0x40 0)
    [⟨0, 0x1200⟩, ⟨0, 0⟩]
  := by
  apply wellFormedTable_of_block
  all_goals decide

theorem wellFormedTable_high_low :
  WellFormedTable (pageHeaders .pe32 ⟨0x100, 12⟩) (blockImage 0x1200 0x2210 1 0xf000)
    [⟨0, 0x1200⟩, ⟨0, 0x2210⟩]
  := by
  apply wellFormedTable_of_block
  all_goals decide

/-! ### The effect -/

section

variable {nt : ImageNtHeaders} {img : Bytes} {l : List RelocationEntry}

/-- Relocating an image with a well-formed table moves each address of full width by the difference
of the bases, adds the high or the low half of the difference to each half, and changes no other
byte.  When all targets have full width, two relocations amount to one by the sum of the
differences, and opposite ones restore the image.  The walk over the blocks ends for every content
of the directory. -/
theorem applyRelocations_effect {b : Build} (hbuild : b = .x64 ∨ peIsPe32 nt = true)
    (h : WellFormedTable nt img l) :
  (∀ base : ℕ, ∃ img', applyRelocations b base nt img = some img' ∧
      (∀ e ∈ l, e.IsFull nt → (Increment.value img' (e.target nt) : ℤ) =
        (Increment.value img (e.target nt) + (base - peImageBase nt)) %
          2 ^ (if peIsPe32 nt then 32 else 64)) ∧
      (∀ e ∈ l, e.IsHalf nt → Increment.value img' (e.target nt) =
        (Increment.value img (e.target nt) + e.addend (relocationDelta b base nt)) % 2 ^ 16) ∧
      ∀ x, (∀ e ∈ l, x ∉ e.target nt) → img' x = img x) ∧
    ((∀ e ∈ l, ¬ e.IsHalf nt) → ∀ base₁ base₂,
      (∀ base₃, b.wrap (relocationDelta b base₁ nt + relocationDelta b base₂ nt) =
          relocationDelta b base₃ nt →
        (applyRelocations b base₁ nt img).bind (applyRelocations b base₂ nt) =
          applyRelocations b base₃ nt img) ∧
      (b.wrap (relocationDelta b base₁ nt + relocationDelta b base₂ nt) = 0 →
        (applyRelocations b base₁ nt img).bind (applyRelocations b base₂ nt) = some img)) ∧
    ∀ (nt : ImageNtHeaders) (delta blockEnd block : ℕ) (content : Bytes),
      (blockWalk nt delta blockEnd).rounds (blockEnd - block + 1) (block, content) =
        some (applyBlocks nt delta blockEnd (blockEnd - block) block content)
  := by
  refine ⟨?_, ?_, ?_⟩
  · intro base
    use relocated nt (relocationDelta b base nt) l img
    use applyRelocations_eq_relocated b base h
    refine ⟨?_, ?_, ?_⟩
    · intro e he hfull
      rw [h.value_relocated _ he, e.addend_of_isFull _ hfull, e.width_of_isFull hfull]
      apply add_relocationDelta base hbuild
    · intro e he hhalf
      rw [h.value_relocated _ he, e.width_of_isHalf hhalf]
      rfl
    · intro x hx
      apply relocated_of_notMem _ img hx
  · intro hfull base₁ base₂
    constructor
    · intro base₃ hsum
      apply applyRelocations_bind h hbuild hfull hsum
    · intro hzero
      rw [← relocationDelta_imageBase b nt] at hzero
      rw [applyRelocations_bind h hbuild hfull hzero, applyRelocations_of_base_eq b img rfl]
  · intro nt delta blockEnd block content
    rw [applyBlocks_eq_run (le_refl _)]
    apply While.rounds_eq_run

end

/-- At the base `0x500000` the address becomes `0x501234`, and relocating by the opposite difference
restores the image. -/
theorem applyRelocations_effect_highlow :
  let nt := pageHeaders .pe32 ⟨0x100, 12⟩
  let img := blockImage 0x3200 0 0x401234 0
  (∃ img', applyRelocations .i386 0x500000 nt img = some img' ∧
      (Increment.value img' ⟨0x200, 4⟩ : ℤ) = 0x501234) ∧
    (applyRelocations .i386 0x500000 nt img).bind (applyRelocations .i386 0x300000 nt) = some img
  := by
  intro nt img
  obtain ⟨heffect, htwice, -⟩ :=
    applyRelocations_effect (b := .i386) (Or.inr rfl) wellFormedTable_highlow
  have hnone : ∀ e ∈ [RelocationEntry.mk 0 0x3200, ⟨0, 0⟩],
      ¬ e.IsHalf (pageHeaders .pe32 ⟨0x100, 12⟩) := by
    decide
  constructor
  · obtain ⟨img', himg', hfull, -⟩ := heffect 0x500000
    use img', himg'
    have hvalue := hfull ⟨0, 0x3200⟩ (by decide) (by decide)
    have htarget : (RelocationEntry.mk 0 0x3200).target nt = ⟨0x200, 4⟩ := by decide
    have hbefore : Increment.value img ⟨0x200, 4⟩ = 0x401234 := by decide
    have hbase : peImageBase nt = 0x400000 := by decide
    rw [htarget, hbefore, hbase] at hvalue
    rw [hvalue]
    decide
  · apply (htwice hnone 0x500000 0x300000).2
    decide

/-- A target of type `HIGH` changes although it is no address of full width, and two moves by
`0x8000` do not change it, although one by `0x10000` does. -/
theorem applyRelocations_bind_ne :
  let nt := pageHeaders .pe32 ⟨0x100, 12⟩
  let img := blockImage 0x1200 0 0x40 0
  WellFormedTable nt img [⟨0, 0x1200⟩, ⟨0, 0⟩] ∧
    (∀ e ∈ [RelocationEntry.mk 0 0x1200, ⟨0, 0⟩], ¬ e.IsFull nt) ∧
    (∃ img', applyRelocations .i386 0x410000 nt img = some img' ∧ img' 0x200 ≠ img 0x200) ∧
    Build.i386.wrap (relocationDelta .i386 0x408000 nt + relocationDelta .i386 0x408000 nt) =
      relocationDelta .i386 0x410000 nt ∧
    (applyRelocations .i386 0x408000 nt img).bind (applyRelocations .i386 0x408000 nt) ≠
      applyRelocations .i386 0x410000 nt img
  := by
  intro nt img
  have honce : applyRelocations .i386 0x410000 nt img =
      some (relocated nt 0x10000 [⟨0, 0x1200⟩, ⟨0, 0⟩] img) :=
    applyRelocations_eq_relocated .i386 0x410000 wellFormedTable_high
  have htwice : (applyRelocations .i386 0x408000 nt img).bind (applyRelocations .i386 0x408000 nt) =
      some (relocated nt 0x8000 [⟨0, 0x1200⟩, ⟨0, 0⟩]
        (relocated nt 0x8000 [⟨0, 0x1200⟩, ⟨0, 0⟩] img)) := by
    rw [applyRelocations_eq_relocated .i386 0x408000 wellFormedTable_high, bind_some]
    apply applyRelocations_eq_relocated .i386 0x408000 (wellFormedTable_high.relocated _)
  refine ⟨wellFormedTable_high, by decide, ⟨_, honce, by decide⟩, by decide, ?_⟩
  rw [honce, htwice, ne_eq, some.injEq]
  intro heq
  have hbyte := congrFun heq 0x200
  revert hbyte
  decide

/-! ### Halves of addresses -/

theorem add_halves_iff (a d : ℕ) :
  (a / 2 ^ 16 + d / 2 ^ 16) % 2 ^ 16 = (a + d) % 2 ^ 32 / 2 ^ 16 ↔ a % 2 ^ 16 + d % 2 ^ 16 < 2 ^ 16
  := by
  have hmod : (a + d) % 2 ^ 32 / 2 ^ 16 = (a + d) / 2 ^ 16 % 2 ^ 16 :=
    Nat.mod_mul_right_div_self _ (2 ^ 16) (2 ^ 16)
  rw [hmod, Nat.add_div (by decide : 0 < 2 ^ 16)]
  generalize a / 2 ^ 16 + d / 2 ^ 16 = s
  split_ifs with hcarry
  · omega
  · omega

/-- The low half of an address `a` becomes that of `a` plus the difference of the bases.  The high
half gets no carry from it: it becomes that of the sum exactly when the low halves of `a` and of the
difference add without one. -/
theorem applyRelocations_high_low {nt : ImageNtHeaders} {img : Bytes} {l : List RelocationEntry}
    (b : Build) (base : Ptr) (h : WellFormedTable nt img l)
    (hpe : peIsPe32 nt = true) {high low : RelocationEntry} (hhigh : high ∈ l) (hlow : low ∈ l)
    (htypeHigh : high.type = relBasedHigh) (htypeLow : low.type = relBasedLow) {a : ℕ}
    (hvalueHigh : Increment.value img (high.target nt) = a / 2 ^ 16)
    (hvalueLow : Increment.value img (low.target nt) = a % 2 ^ 16) :
  ∃ img', applyRelocations b base nt img = some img' ∧
    Increment.value img' (low.target nt) = (a + relocationDelta b base nt) % 2 ^ 32 % 2 ^ 16 ∧
    Increment.value img' (high.target nt) =
      (a / 2 ^ 16 + relocationDelta b base nt / 2 ^ 16) % 2 ^ 16 ∧
    (Increment.value img' (high.target nt) = (a + relocationDelta b base nt) % 2 ^ 32 / 2 ^ 16 ↔
      a % 2 ^ 16 + relocationDelta b base nt % 2 ^ 16 < 2 ^ 16)
  := by
  have hhalf : high.IsHalf nt := ⟨hpe, Or.inl htypeHigh⟩
  have hhalf' : low.IsHalf nt := ⟨hpe, Or.inr (Or.inr htypeLow)⟩
  have haddend : high.addend (relocationDelta b base nt) = relocationDelta b base nt / 2 ^ 16 :=
    if_pos (Or.inl htypeHigh)
  have haddend' : low.addend (relocationDelta b base nt) = relocationDelta b base nt := by
    rw [RelocationEntry.addend, htypeLow, if_neg (by decide)]
  have hwidth : (256 : ℕ) ^ 2 = 2 ^ 16 := by decide
  use relocated nt (relocationDelta b base nt) l img
  use applyRelocations_eq_relocated b base h
  rw [h.value_relocated _ hhigh, h.value_relocated _ hlow, high.width_of_isHalf hhalf,
    low.width_of_isHalf hhalf', haddend, haddend', hvalueHigh, hvalueLow, hwidth, Nat.mod_add_mod,
    Nat.mod_mod_of_dvd _ (pow_dvd_pow 2 (by decide : 16 ≤ 32)), add_halves_iff]
  exact ⟨rfl, rfl, Iff.rfl⟩

/-- By `0x100000` the halves of `0x1f000` are moved to those of `0x11f000`. -/
theorem applyRelocations_high_low_even :
  ∃ img', applyRelocations .i386 0x500000 (pageHeaders .pe32 ⟨0x100, 12⟩)
      (blockImage 0x1200 0x2210 1 0xf000) = some img' ∧
    Increment.value img' ⟨0x210, 2⟩ = 0xf000 ∧ Increment.value img' ⟨0x200, 2⟩ = 0x11
  := by
  have hhigh : RelocationEntry.mk 0 0x1200 ∈ [RelocationEntry.mk 0 0x1200, ⟨0, 0x2210⟩] := by
    decide
  have hlow : RelocationEntry.mk 0 0x2210 ∈ [RelocationEntry.mk 0 0x1200, ⟨0, 0x2210⟩] := by
    decide
  have hdelta : relocationDelta .i386 0x500000 (pageHeaders .pe32 ⟨0x100, 12⟩) = 0x100000 := by
    decide
  obtain ⟨img', himg', hvalueLow, hvalueHigh, -⟩ :=
    @applyRelocations_high_low _ _ _ .i386 0x500000 wellFormedTable_high_low rfl _ _ hhigh hlow
      (by decide) (by decide) 0x1f000 (by decide) (by decide)
  rw [hdelta] at hvalueLow hvalueHigh
  exact ⟨img', himg', hvalueLow, hvalueHigh⟩

/-- By `0x1000` the halves of `0x1f000` are moved to `0x0001` and `0x0000`, which are not those of
`0x20000`. -/
theorem applyRelocations_high_low_carry :
  let nt := pageHeaders .pe32 ⟨0x100, 12⟩
  let img := blockImage 0x1200 0x2210 1 0xf000
  WellFormedTable nt img [⟨0, 0x1200⟩, ⟨0, 0x2210⟩] ∧ relocationDelta .i386 0x401000 nt = 0x1000 ∧
    Increment.value img ⟨0x200, 2⟩ = 0x1f000 / 2 ^ 16 ∧
    Increment.value img ⟨0x210, 2⟩ = 0x1f000 % 2 ^ 16 ∧
    ∃ img', applyRelocations .i386 0x401000 nt img = some img' ∧
      Increment.value img' ⟨0x210, 2⟩ = 0 ∧ Increment.value img' ⟨0x200, 2⟩ = 1 ∧
      Increment.value img' ⟨0x200, 2⟩ ≠ (0x1f000 + 0x1000) % 2 ^ 32 / 2 ^ 16
  := by
  intro nt img
  have hrelocated : applyRelocations .i386 0x401000 nt img =
      some (relocated nt 0x1000 [⟨0, 0x1200⟩, ⟨0, 0x2210⟩] img) :=
    applyRelocations_eq_relocated .i386 0x401000 wellFormedTable_high_low
  refine ⟨wellFormedTable_high_low, by decide, by decide, by decide, _,
    hrelocated, by decide⟩

end Loader
