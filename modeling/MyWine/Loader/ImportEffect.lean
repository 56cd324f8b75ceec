import MyWine.Loader.ImageAccess
import MyWine.Loader.ImportResolve

/-!
# The effect of the first import pass

The imports of an image are given by its import directory: `ImportAt nt img k i` says that the
thunk `i` of the descriptor `k` comes before the thunk and the descriptor that end the tables.  The
pass puts the address of each import that can be resolved in its slot and changes nothing else
(`Pass1Effect`), provided that the slots are apart from one another and from what the pass reads
(`IatSeparate`).

The pass reads the tables from the image that it changes.  The induction follows the two loops: when
the thunk `i` of the descriptor `k` is reached, the slots of the imports before it hold their
addresses, and the rest of the image is untouched (`Progress`).
-/

open Pe SyscallSafe

namespace Loader

open Function List

/-! ### The imports of an image -/

section

variable (nt : ImageNtHeaders) (img : Bytes)

def importDir : ImageDataDirectory := (peGetDataDir nt directoryEntryImport).getD ⟨0, 0⟩

def descriptorRva (k : ℕ) : ℕ := (importDir nt).virtualAddress.toNat + sizeofImportDescriptor * k

def descriptorAt (k : ℕ) : ImageImportDescriptor := readImportDescriptor img (descriptorRva nt k)

def thunkRegion (k i : ℕ) : Region :=
  ⟨iltRva (descriptorAt nt img k) + i * thunkSize nt, thunkSize nt⟩

def thunkAt (k i : ℕ) : ℕ := img.readLE (thunkRegion nt img k i).start (thunkSize nt)

def slotAt (k i : ℕ) : Region :=
  ⟨(descriptorAt nt img k).firstThunk.toNat + i * thunkSize nt, thunkSize nt⟩

def cstrRegion (rva : ℕ) : Region := ⟨rva, (imageCstr nt img rva).length + 1⟩

def DescriptorAt (k : ℕ) : Prop := ∀ j ≤ k,
  sizeofImportDescriptor * j + sizeofImportDescriptor ≤ (importDir nt).size.toNat ∧
    (descriptorAt nt img j).name ≠ 0

def ImportAt (k i : ℕ) : Prop := DescriptorAt nt img k ∧ ∀ j ≤ i, thunkAt nt img k j ≠ 0

def importDll (k : ℕ) : CString := imageCstr nt img (descriptorAt nt img k).name.toNat

def importName (ordinals : List OrdinalEntry) (k i : ℕ) : Option CString :=
  if highBitMask nt ≤ thunkAt nt img k i then
    ordinalLookup ordinals (importDll nt img k) (thunkAt nt img k i % 2 ^ 16)
  else some (imageCstr nt img (thunkAt nt img k i + 2))

def importTarget (ordinals : List OrdinalEntry) (resolve : Bytes → CString → CString → Option Ptr)
    (k i : ℕ) : Option Ptr :=
  (importName nt img ordinals k i).bind (resolve img (importDll nt img k))

/-- The IAT slots are apart from those of other descriptors, and from the descriptors, the thunks,
and the strings that name the DLLs and the imports.  The thunks of a descriptor may be its slots. -/
structure IatSeparate : Prop where
  slots : ∀ {k i k' i'}, ImportAt nt img k i → ImportAt nt img k' i' → k ≠ k' →
    (slotAt nt img k i).Apart (slotAt nt img k' i')
  descriptors : ∀ {k i k'}, ImportAt nt img k i → (∀ j < k', DescriptorAt nt img j) →
    (slotAt nt img k i).Apart ⟨descriptorRva nt k', sizeofImportDescriptor⟩
  thunks : ∀ {k i k' i'}, ImportAt nt img k i → DescriptorAt nt img k' →
    (∀ j < i', thunkAt nt img k' j ≠ 0) →
    (slotAt nt img k i).Apart (thunkRegion nt img k' i') ∨
      k = k' ∧ iltRva (descriptorAt nt img k) = (descriptorAt nt img k).firstThunk.toNat
  dllNames : ∀ {k i k'}, ImportAt nt img k i → DescriptorAt nt img k' →
    (slotAt nt img k i).Apart (cstrRegion nt img (descriptorAt nt img k').name.toNat)
  names : ∀ {k i k' i'}, ImportAt nt img k i → ImportAt nt img k' i' →
    thunkAt nt img k' i' < highBitMask nt →
    (slotAt nt img k i).Apart (cstrRegion nt img (thunkAt nt img k' i' + 2))

def SameOutsideSlots (m : Bytes) : Prop :=
  ∀ x, (∀ k i, ImportAt nt img k i → x ∉ slotAt nt img k i) → m x = img x

/-- What pass 1 makes of the image: the slots of the imports that can be resolved hold their
addresses, the other slots are as they were, and so is every other byte. -/
structure Pass1Effect (ordinals : List OrdinalEntry)
    (resolve : Bytes → CString → CString → Option Ptr) (after : Bytes) : Prop where
  slot : ∀ {k i}, ImportAt nt img k i →
    after.readLE (slotAt nt img k i).start (thunkSize nt) =
      match importTarget nt img ordinals resolve k i with
      | some a => a % 256 ^ thunkSize nt
      | none => img.readLE (slotAt nt img k i).start (thunkSize nt)
  other : SameOutsideSlots nt img after

end

/-! ### What the pass reads -/

section

variable (ordinals : List OrdinalEntry) (resolve : Bytes → CString → CString → Option Ptr)
  (nt : ImageNtHeaders)

def scanRegion (img : Bytes) (rva : ℕ) : Region :=
  ⟨rva, min ((imageCstr nt img rva).length + 1) (peSizeOfImage nt - rva)⟩

def thunkReads (descRva : ℕ) (desc : ImageImportDescriptor) (p : ℕ × Bound) : List Region :=
  let img := p.2.img
  let thunk := img.readLE (iltRva desc + p.1 * thunkSize nt) (thunkSize nt)
  ⟨descRva + 16, 4⟩ ::
    if !thunkInImage nt descRva desc p.1 img then []
    else ⟨iltRva desc + p.1 * thunkSize nt, thunkSize nt⟩ ::
      if thunk = 0 then []
      else if highBitMask nt ≤ thunk then [cstrRegion nt img desc.name.toNat]
      else if 2 ^ 32 - 1 - 2 < thunk ∨ !peRvaRangeIsValid thunk 3 (peSizeOfImage nt) then []
      else scanRegion nt img (thunk + 2) ::
        if imageCstrValid nt img (thunk + 2) then
          [cstrRegion nt img (thunk + 2), cstrRegion nt img desc.name.toNat]
        else []

def descriptorReads (dir : ImageDataDirectory) (p : ℕ × Bound) : List Region :=
  let img := p.2.img
  let rva := dir.virtualAddress.toNat + p.1
  let desc := readImportDescriptor img rva
  if dir.size.toNat < p.1 + sizeofImportDescriptor then []
  else ⟨rva, sizeofImportDescriptor⟩ ::
    if desc.name = 0 then []
    else scanRegion nt img desc.name.toNat ::
      if imageCstrValid nt img desc.name.toNat then
        ((thunkLoop ordinals resolve nt rva desc).states (0, p.2)).flatMap
          (thunkReads nt rva desc)
      else []

def importDirOk : Bool :=
  let dir := importDir nt
  dir.size ≠ 0 && dir.virtualAddress ≠ 0 &&
    peRvaRangeIsValid dir.virtualAddress.toNat dir.size.toNat (peSizeOfImage nt) &&
    peRvaRangeIsValid dir.virtualAddress.toNat sizeofImportDescriptor (peSizeOfImage nt)

def importReads (img : Bytes) : List Region :=
  if importDirOk nt then
    ((descriptorLoop ordinals resolve nt (importDir nt)).states (0, ⟨img, []⟩)).flatMap
      (descriptorReads ordinals resolve nt (importDir nt))
  else []

theorem resolveImportPass1_eq (img : Bytes) :
  resolveImportPass1 ordinals resolve nt img =
    if importDirOk nt then (descriptorLoop ordinals resolve nt (importDir nt)).run (0, ⟨img, []⟩)
    else (decide ((importDir nt).size = 0), ⟨img, []⟩)
  := by
  rw [resolveImportPass1]
  cases hget : peGetDataDir nt directoryEntryImport with
  | none =>
    have hdir : importDir nt = ⟨0, 0⟩ := by rw [importDir, hget, Option.getD_none]
    have hok : importDirOk nt = false := by simp [importDirOk, hdir]
    simp [hdir, hok]
  | some dir =>
    have hdir : importDir nt = dir := by rw [importDir, hget, Option.getD_some]
    have hok : importDirOk nt = (dir.size ≠ 0 && dir.virtualAddress ≠ 0 &&
        peRvaRangeIsValid dir.virtualAddress.toNat dir.size.toNat (peSizeOfImage nt) &&
        peRvaRangeIsValid dir.virtualAddress.toNat sizeofImportDescriptor (peSizeOfImage nt)) := by
      simp only [importDirOk, hdir]
    rw [hok, hdir]
    by_cases hsize : dir.size = 0
    · simp [hsize]
    · by_cases hva : dir.virtualAddress = 0
      · simp [hsize, hva]
      · cases hrange : peRvaRangeIsValid dir.virtualAddress.toNat dir.size.toNat (peSizeOfImage nt) <;>
        cases hfirst : peRvaRangeIsValid dir.virtualAddress.toNat sizeofImportDescriptor
          (peSizeOfImage nt) <;>
        simp [hsize, hva, hrange, hfirst]

end

variable {img m : Bytes} {nt : ImageNtHeaders} {rva : ℕ}

theorem scanRegion_inImage :
  InImage (peSizeOfImage nt) (scanRegion nt img rva)
  := by
  intro x hx
  simp only [scanRegion, Region.mem_iff] at hx
  omega

theorem cstrRegion_inImage (h : imageCstrValid nt img rva = true) :
  InImage (peSizeOfImage nt) (cstrRegion nt img rva)
  := by
  rw [imageCstrValid, Bool.and_eq_true] at h
  have hlt := Bytes.cstr_length_lt h.2
  intro x hx
  simp only [cstrRegion, imageCstr, Region.mem_iff] at hx
  omega

theorem readImportDescriptor_congr {m' : Bytes}
    (h : ∀ x ∈ (⟨rva, sizeofImportDescriptor⟩ : Region), m x = m' x) :
  readImportDescriptor m rva = readImportDescriptor m' rva
  := by
  have hfield : ∀ i, i + 4 ≤ sizeofImportDescriptor → m.u32 (rva + i) = m'.u32 (rva + i) := by
    intro i hi
    rw [Bytes.u32, Bytes.u32, Bytes.readLE_congr]
    intro x hx hlt
    apply h
    simp only [Region.mem_iff]
    omega
  simp only [readImportDescriptor, hfield 12 (by decide), hfield 16 (by decide),
    show m.u32 rva = m'.u32 rva from hfield 0 (by decide)]

theorem imageCstr_congr {m' : Bytes} (h : ∀ x ∈ cstrRegion nt m rva, m' x = m x) :
  imageCstr nt m' rva = imageCstr nt m rva ∧ imageCstrValid nt m' rva = imageCstrValid nt m rva
  := by
  obtain ⟨hcstr, hnul⟩ := @Bytes.cstr_congr m m' rva (peSizeOfImage nt - rva)
    fun x hx hle _ => by
      apply h
      simp only [cstrRegion, imageCstr, Region.mem_iff]
      omega
  use hcstr
  rw [imageCstrValid, imageCstrValid, hnul]

/-! ### Progress of the pass -/

section

variable {ordinals : List OrdinalEntry} {resolve : Bytes → CString → CString → Option Ptr}
  {nt : ImageNtHeaders} {img m : Bytes} {k i : ℕ}

/-- The import `i'` of the descriptor `k'` comes before the import `i` of the descriptor `k`. -/
def Before (k' i' k i : ℕ) : Prop := k' < k ∨ k' = k ∧ i' < i

/-- The image `m` when the pass over `img` has reached the import `i` of the descriptor `k`. -/
structure Progress (ordinals : List OrdinalEntry)
    (resolve : Bytes → CString → CString → Option Ptr) (nt : ImageNtHeaders) (img : Bytes)
    (k i : ℕ) (m : Bytes) : Prop where
  slot : ∀ {k' i'}, ImportAt nt img k' i' → Before k' i' k i →
    m.readLE (slotAt nt img k' i').start (thunkSize nt) =
      match importTarget nt img ordinals resolve k' i' with
      | some a => a % 256 ^ thunkSize nt
      | none => img.readLE (slotAt nt img k' i').start (thunkSize nt)
  other : ∀ x, (∀ k' i', ImportAt nt img k' i' → Before k' i' k i → x ∉ slotAt nt img k' i') →
    m x = img x

theorem progress_zero :
  Progress ordinals resolve nt img 0 0 img
  where
  slot _ hbefore := by
    rcases hbefore with h | h <;> omega
  other _ _ := rfl

theorem slotAt_apart {i' : ℕ} (h : i ≠ i') :
  (slotAt nt img k i).Apart (slotAt nt img k i')
  := by
  simp only [Region.Apart, slotAt, Region.stop]
  rcases Nat.lt_or_gt_of_ne h with hlt | hlt
  all_goals
    have hmul := Nat.mul_le_mul_right (thunkSize nt) hlt
    rw [Nat.succ_mul] at hmul
    omega

theorem IatSeparate.slots_of_before {k' i' : ℕ} (hsep : IatSeparate nt img)
    (h : ImportAt nt img k i) (h' : ImportAt nt img k' i') (hbefore : Before k' i' k i) :
  (slotAt nt img k' i').Apart (slotAt nt img k i)
  := by
  by_cases hk : k' = k
  · subst hk
    apply slotAt_apart
    rcases hbefore with hlt | hlt <;> omega
  · apply hsep.slots h' h hk

theorem Progress.keep (h : Progress ordinals resolve nt img k i m) {r : Region}
    (hr : ∀ k' i', ImportAt nt img k' i' → Before k' i' k i → (slotAt nt img k' i').Apart r) :
  ∀ x ∈ r, m x = img x
  := by
  intro x hx
  apply h.other
  intro k' i' hat hbefore
  apply (hr k' i' hat hbefore).symm.notMem hx

theorem Progress.keep_readLE (h : Progress ordinals resolve nt img k i m) {a n : ℕ}
    (hr : ∀ k' i', ImportAt nt img k' i' → Before k' i' k i →
      (slotAt nt img k' i').Apart ⟨a, n⟩) :
  m.readLE a n = img.readLE a n
  := by
  apply Bytes.readLE_congr
  intro x hx hlt
  apply h.keep hr
  exact ⟨hx, hlt⟩

theorem Progress.sameOutsideSlots (h : Progress ordinals resolve nt img k i m) :
  SameOutsideSlots nt img m
  := by
  intro x hx
  apply h.other
  intro k' i' hat _
  apply hx k' i' hat

/-! What the pass reads is what was there at the beginning. -/

section

variable (h : Progress ordinals resolve nt img k i m) (hsep : IatSeparate nt img)
include h hsep

theorem Progress.descriptorAt_eq {k' : ℕ} (hk' : ∀ j < k', DescriptorAt nt img j) :
  descriptorAt nt m k' = descriptorAt nt img k'
  := by
  apply readImportDescriptor_congr
  apply h.keep
  intro _ _ hat _
  apply hsep.descriptors hat hk'

theorem Progress.thunk_eq (hk : DescriptorAt nt img k)
    (hi : ∀ j < i, thunkAt nt img k j ≠ 0) :
  m.readLE (thunkRegion nt img k i).start (thunkSize nt) = thunkAt nt img k i
  := by
  apply h.keep_readLE
  intro k' i' hat hbefore
  rcases hsep.thunks hat hk hi with hapart | ⟨rfl, hself⟩
  · apply hapart
  · -- The thunks are the slots, and the slot `i` has not been filled yet.
    have hne : i' ≠ i := by
      rcases hbefore with hlt | hlt <;> omega
    have hplace : thunkRegion nt img k' i = slotAt nt img k' i := by
      rw [thunkRegion, slotAt, hself]
    rw [hplace]
    apply slotAt_apart hne

theorem Progress.dllName_eq {k' : ℕ} (hk' : DescriptorAt nt img k') :
  imageCstr nt m (descriptorAt nt img k').name.toNat = importDll nt img k' ∧
    imageCstrValid nt m (descriptorAt nt img k').name.toNat =
      imageCstrValid nt img (descriptorAt nt img k').name.toNat
  := by
  apply imageCstr_congr
  apply h.keep
  intro _ _ hat _
  apply hsep.dllNames hat hk'

theorem Progress.resolveThunk_eq (hblind : ∀ m, SameOutsideSlots nt img m → resolve m = resolve img)
    (hat : ImportAt nt img k i) :
  resolveThunk ordinals resolve nt m (importDll nt img k) (thunkAt nt img k i) =
    resolveThunk ordinals resolve nt img (importDll nt img k) (thunkAt nt img k i)
  := by
  rw [resolveThunk, resolveThunk, hblind m h.sameOutsideSlots]
  by_cases hordinal : highBitMask nt ≤ thunkAt nt img k i
  · rw [if_pos hordinal, if_pos hordinal]
  · obtain ⟨hcstr, hvalid⟩ := imageCstr_congr (h.keep fun _ _ hat' _ =>
      hsep.names hat' hat (not_le.mp hordinal))
    rw [if_neg hordinal, if_neg hordinal, hcstr, hvalid]

end

theorem eq_importTarget {addr : Option Ptr}
    (h : resolveThunk ordinals resolve nt img (importDll nt img k) (thunkAt nt img k i) =
      some addr) :
  addr = importTarget nt img ordinals resolve k i
  := by
  rw [resolveThunk] at h
  rw [importTarget, importName]
  split_ifs at h ⊢
  · cases h
    rfl
  · cases h
    rfl

variable {s : Bound} {p : ℕ × Bound}

theorem Progress.store (h : Progress ordinals resolve nt img k i m) (hsep : IatSeparate nt img)
    (hat : ImportAt nt img k i) {dllName : CString} (hs : s.img = m) :
  Progress ordinals resolve nt img k (i + 1)
    (s.store (slotAt nt img k i).start (thunkSize nt) dllName
      (importTarget nt img ordinals resolve k i)).img
  := by
  subst hs
  have hold : ∀ k' i', ImportAt nt img k' i' → Before k' i' k i →
      (slotAt nt img k' i').Apart (slotAt nt img k i) :=
    fun k' i' hat' hbefore => hsep.slots_of_before hat hat' hbefore
  have hnext : ∀ {k' i'}, Before k' i' k (i + 1) ↔ Before k' i' k i ∨ k' = k ∧ i' = i := by
    intro k' i'
    simp only [Before]
    omega
  constructor
  · intro k' i' hat' hbefore
    rcases hnext.mp hbefore with hbefore | ⟨rfl, rfl⟩
    · rw [← h.slot hat' hbefore]
      cases importTarget nt img ordinals resolve k i with
      | none => rfl
      | some a =>
        apply Bytes.readLE_writeLE_of_disjoint
        apply hold k' i' hat' hbefore
    · cases importTarget nt img ordinals resolve k' i' with
      | none => apply h.keep_readLE hold
      | some a => apply Bytes.readLE_writeLE
  · intro x hx
    have hnot := hx k i hat (hnext.mpr (Or.inr ⟨rfl, rfl⟩))
    rw [← h.other x fun k' i' hat' hbefore => hx k' i' hat' (hnext.mpr (Or.inl hbefore))]
    cases importTarget nt img ordinals resolve k i with
    | none => rfl
    | some a =>
      apply Bytes.writeLE_of_notMem
      simp only [slotAt, Region.mem_iff] at hnot ⊢
      omega

theorem Progress.next (h : Progress ordinals resolve nt img k i m)
    (hzero : thunkAt nt img k i = 0) :
  Progress ordinals resolve nt img (k + 1) 0 m
  := by
  have hbefore : ∀ {k' i'}, ImportAt nt img k' i' → Before k' i' (k + 1) 0 → Before k' i' k i := by
    intro k' i' hat hbefore
    simp only [Before] at hbefore ⊢
    rcases Nat.lt_or_ge k' k with hlt | hge
    · exact Or.inl hlt
    · obtain rfl : k' = k := by omega
      right
      use rfl
      by_contra hle
      apply hat.2 i (by omega) hzero
  constructor
  · intro k' i' hat hlt
    apply h.slot hat (hbefore hat hlt)
  · intro x hx
    apply h.other
    intro k' i' hat hlt
    apply hx k' i' hat
    simp only [Before] at hlt ⊢
    omega

/-! ### The loops -/

variable (hsep : IatSeparate nt img)
  (hblind : ∀ m, SameOutsideSlots nt img m → resolve m = resolve img)

def FillsInImage (nt : ImageNtHeaders) (s : Bound) : Prop :=
  ∀ f ∈ s.fills, InImage (peSizeOfImage nt) ⟨f.slot, thunkSize nt⟩

def FillOk (ordinals : List OrdinalEntry) (resolve : Bytes → CString → CString → Option Ptr)
    (nt : ImageNtHeaders) (img : Bytes) (f : Fill) : Prop :=
  ∃ k i, ImportAt nt img k i ∧ f.slot = (slotAt nt img k i).start ∧
    InImage (peSizeOfImage nt) (slotAt nt img k i) ∧ f.dllName = importDll nt img k ∧
    importTarget nt img ordinals resolve k i = some f.address

def FillsOk (ordinals : List OrdinalEntry) (resolve : Bytes → CString → CString → Option Ptr)
    (nt : ImageNtHeaders) (img : Bytes) (s : Bound) : Prop :=
  ∀ f ∈ s.fills, FillOk ordinals resolve nt img f

theorem FillsOk.inImage (h : FillsOk ordinals resolve nt img s) :
  FillsInImage nt s
  := by
  intro f hf
  obtain ⟨k, i, -, hslot, hin, -, -⟩ := h f hf
  rw [hslot]
  apply hin

/-- The loop over the thunks of the descriptor `k` is at the thunk `p.1`. -/
structure ThunkInv (ordinals : List OrdinalEntry)
    (resolve : Bytes → CString → CString → Option Ptr) (nt : ImageNtHeaders) (img : Bytes) (k : ℕ)
    (p : ℕ × Bound) : Prop where
  nonzero : ∀ j < p.1, thunkAt nt img k j ≠ 0
  progress : Progress ordinals resolve nt img k p.1 p.2.img
  fills : FillsOk ordinals resolve nt img p.2

/-- The loop over the descriptors is at the descriptor `k`. -/
structure DescriptorInv (ordinals : List OrdinalEntry)
    (resolve : Bytes → CString → CString → Option Ptr) (nt : ImageNtHeaders) (img : Bytes) (k : ℕ)
    (p : ℕ × Bound) : Prop where
  offset : p.1 = sizeofImportDescriptor * k
  before : ∀ j < k, DescriptorAt nt img j
  progress : Progress ordinals resolve nt img k 0 p.2.img
  fills : FillsOk ordinals resolve nt img p.2

theorem FillsOk.store (h : FillsOk ordinals resolve nt img s) (hat : ImportAt nt img k i)
    (hslot : InImage (peSizeOfImage nt) (slotAt nt img k i)) :
  FillsOk ordinals resolve nt img (s.store (slotAt nt img k i).start (thunkSize nt)
    (importDll nt img k) (importTarget nt img ordinals resolve k i))
  := by
  cases htarget : importTarget nt img ordinals resolve k i with
  | none => apply h
  | some a =>
    apply forall_mem_append.mpr ⟨h, forall_mem_singleton.mpr _⟩
    exact ⟨k, i, hat, rfl, hslot, rfl, htarget⟩

include hsep in
/-- The slot of a thunk that passes the range checks lies in the image, since its descriptor is
untouched. -/
theorem ThunkInv.slot_inImage (h : ThunkInv ordinals resolve nt img k p)
    (hk : DescriptorAt nt img k)
    (hrange : thunkInImage nt (descriptorRva nt k) (descriptorAt nt img k) p.1 p.2.img = true) :
  InImage (peSizeOfImage nt) (slotAt nt img k p.1)
  := by
  have hdesc : readImportDescriptor p.2.img (descriptorRva nt k) = descriptorAt nt img k :=
    h.progress.descriptorAt_eq hsep fun j hj l hl => hk l (by omega)
  rw [thunkInImage, hdesc, Bool.and_eq_true, peRvaRangeIsValid_iff, peRvaRangeIsValid_iff] at hrange
  intro x hx
  simp only [slotAt, Region.mem_iff] at hx
  omega

include hsep hblind in
theorem ThunkInv.round {p' : ℕ × Bound} (h : ThunkInv ordinals resolve nt img k p)
    (hk : DescriptorAt nt img k)
    (hround : thunkRound ordinals resolve nt (descriptorRva nt k) (descriptorAt nt img k) p =
      .inl p') :
  ThunkInv ordinals resolve nt img k p'
  := by
  obtain ⟨hrange, hne, addr, hresolve, rfl⟩ := thunkRound_inl ordinals resolve nt hround
  have hthunk := h.progress.thunk_eq hsep hk h.nonzero
  simp only [thunkRegion] at hthunk
  rw [hthunk] at hne hresolve
  have hat : ImportAt nt img k p.1 := by
    use hk
    intro j hj
    rcases Nat.lt_or_eq_of_le hj with hlt | rfl
    · apply h.nonzero j hlt
    · apply hne
  have hdll : imageCstr nt p.2.img (descriptorAt nt img k).name.toNat = importDll nt img k :=
    (h.progress.dllName_eq hsep hk).1
  rw [hdll, h.progress.resolveThunk_eq hsep hblind hat] at hresolve
  rw [hdll, eq_importTarget hresolve]
  constructor
  · intro j hj
    apply hat.2 j (by simp only at hj; omega)
  · apply h.progress.store hsep hat rfl
  · apply h.fills.store hat
    apply h.slot_inImage hsep hk hrange

include hsep hblind in
theorem ThunkInv.run (h : ThunkInv ordinals resolve nt img k (0, s)) (hk : DescriptorAt nt img k) :
  let r := (thunkLoop ordinals resolve nt (descriptorRva nt k) (descriptorAt nt img k)).run (0, s)
  FillsOk ordinals resolve nt img r.2 ∧ (r.1 = true → Progress ordinals resolve nt img (k + 1) 0 r.2.img)
  := by
  apply While.run_of_invariant (ThunkInv ordinals resolve nt img k)
    (fun r : Bool × Bound => FillsOk ordinals resolve nt img r.2 ∧
      (r.1 = true → Progress ordinals resolve nt img (k + 1) 0 r.2.img)) _ _ h
  · intro p p' hinv hround
    apply hinv.round hsep hblind hk hround
  · rintro p ⟨ok, s'⟩ hinv hround
    obtain ⟨rfl, hok⟩ := thunkRound_inr ordinals resolve nt hround
    use hinv.fills
    intro htrue
    apply hinv.progress.next
    rw [← hinv.progress.thunk_eq hsep hk hinv.nonzero]
    apply (hok htrue).2

include hsep in
theorem DescriptorInv.descriptor_eq (h : DescriptorInv ordinals resolve nt img k p) :
  (importDir nt).virtualAddress.toNat + p.1 = descriptorRva nt k ∧
    readImportDescriptor p.2.img ((importDir nt).virtualAddress.toNat + p.1) =
      descriptorAt nt img k
  := by
  have hrva : (importDir nt).virtualAddress.toNat + p.1 = descriptorRva nt k := by
    rw [descriptorRva, h.offset]
  use hrva
  rw [hrva]
  apply h.progress.descriptorAt_eq hsep h.before

theorem descriptorAt_of_before (hbefore : ∀ j < k, DescriptorAt nt img j)
    (hle : sizeofImportDescriptor * k + sizeofImportDescriptor ≤ (importDir nt).size.toNat)
    (hname : (descriptorAt nt img k).name ≠ 0) :
  DescriptorAt nt img k
  := by
  intro j hj
  rcases Nat.lt_or_eq_of_le hj with hlt | rfl
  · apply hbefore j hlt j (le_refl j)
  · exact ⟨hle, hname⟩

theorem DescriptorInv.descriptorAt (h : DescriptorInv ordinals resolve nt img k p)
    (hle : p.1 + sizeofImportDescriptor ≤ (importDir nt).size.toNat)
    (hname : (Loader.descriptorAt nt img k).name ≠ 0) :
  DescriptorAt nt img k
  := by
  rw [h.offset] at hle
  exact descriptorAt_of_before h.before hle hname

theorem DescriptorInv.thunkInv (h : DescriptorInv ordinals resolve nt img k p) :
  ThunkInv ordinals resolve nt img k (0, p.2)
  where
  nonzero j hj := by cases hj
  progress := h.progress
  fills := h.fills

include hsep hblind in
theorem DescriptorInv.round {p' : ℕ × Bound} (h : DescriptorInv ordinals resolve nt img k p)
    (hround : descriptorRound ordinals resolve nt (importDir nt) p = .inl p') :
  DescriptorInv ordinals resolve nt img (k + 1) p'
  := by
  obtain ⟨hrva, hdesc⟩ := h.descriptor_eq hsep
  have hspec := descriptorRound_inl ordinals resolve nt hround
  simp only [hdesc] at hspec
  rw [hrva] at hspec
  obtain ⟨hle, hname, -, s, hrun, -, rfl⟩ := hspec
  have hk := h.descriptorAt hle hname
  have hthunks := h.thunkInv.run hsep hblind hk
  rw [hrun] at hthunks
  constructor
  · rw [h.offset, Nat.mul_succ]
  · intro j hj l hl
    apply hk l (by omega)
  · apply hthunks.2 rfl
  · apply hthunks.1

include hsep hblind in
theorem DescriptorInv.last {r : Bool × Bound} (h : DescriptorInv ordinals resolve nt img k p)
    (hround : descriptorRound ordinals resolve nt (importDir nt) p = .inr r) :
  FillsOk ordinals resolve nt img r.2 ∧
    (r.1 = true → Pass1Effect nt img ordinals resolve r.2.img)
  := by
  obtain ⟨ok, s⟩ := r
  obtain ⟨hrva, hdesc⟩ := h.descriptor_eq hsep
  have hspec := descriptorRound_inr ordinals resolve nt hround
  simp only [hdesc] at hspec
  rcases hspec with ⟨rfl, hend⟩ | ⟨rfl, hle, hname, rfl⟩
  · use h.fills
    intro hok
    have hbefore : ∀ {k' i'}, ImportAt nt img k' i' → Before k' i' k 0 := by
      intro k' i' hat
      left
      by_contra hge
      apply (hat.1 k (by omega)).2 (hend hok).2
    constructor
    · intro k' i' hat
      apply h.progress.slot hat (hbefore hat)
    · apply h.progress.sameOutsideSlots
  · rw [hrva]
    use (h.thunkInv.run hsep hblind (h.descriptorAt hle hname)).1
    intro hok
    cases hok

/-! ### The reads -/

include hsep in
theorem ThunkInv.reads (h : ThunkInv ordinals resolve nt img k p) (hk : DescriptorAt nt img k)
    (hdesc : descriptorRva nt k + sizeofImportDescriptor ≤ peSizeOfImage nt)
    (hvalid : imageCstrValid nt img (Loader.descriptorAt nt img k).name.toNat = true) :
  ∀ r ∈ thunkReads nt (descriptorRva nt k) (Loader.descriptorAt nt img k) p,
    InImage (peSizeOfImage nt) r
  := by
  have hdll : InImage (peSizeOfImage nt)
      (cstrRegion nt p.2.img (Loader.descriptorAt nt img k).name.toNat) := by
    apply cstrRegion_inImage
    rw [(h.progress.dllName_eq hsep hk).2, hvalid]
  have hthunk : thunkInImage nt (descriptorRva nt k) (Loader.descriptorAt nt img k) p.1 p.2.img =
      true → InImage (peSizeOfImage nt) (thunkRegion nt img k p.1) := by
    intro hrange x hx
    rw [thunkInImage, Bool.and_eq_true, peRvaRangeIsValid_iff] at hrange
    simp only [thunkRegion, Region.mem_iff] at hx
    omega
  simp only [thunkReads, forall_mem_cons]
  constructor
  · intro x hx
    simp only [Region.mem_iff, sizeofImportDescriptor] at hx hdesc
    omega
  · split_ifs with hrange
    · apply forall_mem_nil
    · rw [Bool.not_eq_true, Bool.not_eq_false'] at hrange
      apply forall_mem_singleton.mpr (hthunk hrange)
    all_goals
      rw [Bool.not_eq_true, Bool.not_eq_false'] at hrange
      simp only [forall_mem_cons]
      use hthunk hrange
    · use hdll
      apply forall_mem_nil
    · apply forall_mem_nil
    · next hname =>
      use scanRegion_inImage, cstrRegion_inImage hname, hdll
      apply forall_mem_nil
    · use scanRegion_inImage
      apply forall_mem_nil

include hsep hblind in
theorem DescriptorInv.reads (h : DescriptorInv ordinals resolve nt img k p)
    (hdir : (importDir nt).virtualAddress.toNat + (importDir nt).size.toNat ≤ peSizeOfImage nt) :
  ∀ r ∈ descriptorReads ordinals resolve nt (importDir nt) p, InImage (peSizeOfImage nt) r
  := by
  obtain ⟨hrva, hdesc⟩ := h.descriptor_eq hsep
  simp only [descriptorReads, hdesc]
  split_ifs with hend hname hvalid
  · apply forall_mem_nil
  all_goals
    have hle : p.1 + sizeofImportDescriptor ≤ (importDir nt).size.toNat := not_lt.mp hend
    have hplace : InImage (peSizeOfImage nt)
        ⟨(importDir nt).virtualAddress.toNat + p.1, sizeofImportDescriptor⟩ := by
      intro x hx
      simp only [Region.mem_iff] at hx
      omega
    rw [forall_mem_cons]
    use hplace
  · apply forall_mem_nil
  · rw [forall_mem_cons]
    use scanRegion_inImage
    have hk := h.descriptorAt hle hname
    rw [(h.progress.dllName_eq hsep hk).2] at hvalid
    rw [hrva]
    intro r hr
    obtain ⟨t, ht, hr⟩ := mem_flatMap.mp hr
    have hinv := While.forall_mem_states (ThunkInv ordinals resolve nt img k)
      (fun p p' hinv hround => hinv.round hsep hblind hk hround) h.thunkInv ht
    apply hinv.reads hsep hk _ hvalid r hr
    rw [← hrva]
    omega
  · rw [forall_mem_cons]
    use scanRegion_inImage
    apply forall_mem_nil

/-! ### The pass -/

theorem descriptorInv_zero :
  DescriptorInv ordinals resolve nt img 0 (0, ⟨img, []⟩)
  where
  offset := rfl
  before j hj := by cases hj
  progress := progress_zero
  fills f hf := by cases hf

theorem pass1Effect_of_size_eq_zero (h : (importDir nt).size = 0) :
  Pass1Effect nt img ordinals resolve img
  := by
  have hnone : ∀ {k i}, ¬ ImportAt nt img k i := by
    intro k i hat
    have hle := (hat.1 0 (Nat.zero_le k)).1
    rw [h] at hle
    cases hle
  constructor
  · intro k i hat
    cases hnone hat
  · intro x _
    rfl

include hsep hblind in
theorem resolveImportPass1_spec :
  let r := resolveImportPass1 ordinals resolve nt img
  (r.1 = true → Pass1Effect nt img ordinals resolve r.2.img) ∧
    FillsOk ordinals resolve nt img r.2 ∧
    ∀ region ∈ importReads ordinals resolve nt img, InImage (peSizeOfImage nt) region
  := by
  simp only [resolveImportPass1_eq, importReads]
  split_ifs with hok
  · have hround : ∀ p p', (∃ k, DescriptorInv ordinals resolve nt img k p) →
        descriptorRound ordinals resolve nt (importDir nt) p = .inl p' →
        ∃ k, DescriptorInv ordinals resolve nt img k p' := by
      rintro p p' ⟨k, hinv⟩ hround
      exact ⟨k + 1, hinv.round hsep hblind hround⟩
    have hrun := While.run_of_invariant (w := descriptorLoop ordinals resolve nt (importDir nt))
      (fun p => ∃ k, DescriptorInv ordinals resolve nt img k p)
      (fun r => FillsOk ordinals resolve nt img r.2 ∧
        (r.1 = true → Pass1Effect nt img ordinals resolve r.2.img))
      hround (fun p r ⟨k, hinv⟩ hround => hinv.last hsep hblind hround) ⟨0, descriptorInv_zero⟩
    use hrun.2, hrun.1
    simp only [importDirOk, Bool.and_eq_true, peRvaRangeIsValid_iff] at hok
    intro r hr
    obtain ⟨t, ht, hr⟩ := mem_flatMap.mp hr
    obtain ⟨k, hinv⟩ := While.forall_mem_states
      (fun p => ∃ k, DescriptorInv ordinals resolve nt img k p) hround ⟨0, descriptorInv_zero⟩ ht
    apply hinv.reads hsep hblind hok.1.2 r hr
  · and_intros
    · intro hsize
      apply pass1Effect_of_size_eq_zero (of_decide_eq_true hsize)
    · intro f hf
      cases hf
    · apply forall_mem_nil

end

/-- The descriptors and the names of the DLLs can still be read from an image whose slots have been
filled. -/
theorem SameOutsideSlots.descriptor (h : SameOutsideSlots nt img m) (hsep : IatSeparate nt img)
    {k : ℕ} (hk : DescriptorAt nt img k) :
  descriptorAt nt m k = descriptorAt nt img k ∧ DescriptorAt nt m k ∧
    importDll nt m k = importDll nt img k
  := by
  have hread : ∀ j ≤ k, descriptorAt nt m j = descriptorAt nt img j := by
    intro j hj
    apply readImportDescriptor_congr
    intro x hx
    apply h
    intro k' i' hat
    apply (hsep.descriptors hat fun j' hj' l hl => hk l (by omega)).symm.notMem hx
  refine ⟨hread k (le_refl k), ?_, ?_⟩
  · intro j hj
    rw [hread j hj]
    apply hk j hj
  · rw [importDll, hread k (le_refl k)]
    apply And.left
    apply imageCstr_congr
    intro x hx
    apply h
    intro k' i' hat
    apply (hsep.dllNames hat hk).symm.notMem hx

/-! ### The resolver of the loader -/

def loaderResolver (b : Build) (table : List ImportEntry) (list : ModuleList) (image : Ptr → Bytes)
    (base : Ptr) (img : Bytes) : CString → CString → Option Ptr :=
  resolveLoaderImport b table list (update image base img)

/-- The IAT slots are apart from the names that the module at `base` is already known to export. -/
def ExportNamesSeparate (list : ModuleList) (base : Ptr) (nt : ImageNtHeaders) (img : Bytes) :
    Prop :=
  ∀ j nt', (list.modules j).base = base → (list.modules j).nt = some nt' →
    ∀ n < (list.modules j).exportCache.numberOfNames, ∀ k i, ImportAt nt img k i →
      (slotAt nt img k i).Apart
        (cstrRegion nt' img ((list.modules j).exportCache.nameTable n).toNat)

theorem lookupExport_congr {mod : LoadedModule} {funcName : CString} (hnt : mod.nt = some nt)
    (h : ∀ n < mod.exportCache.numberOfNames,
      ∀ x ∈ cstrRegion nt img (mod.exportCache.nameTable n).toNat, m x = img x) :
  lookupExport mod m funcName = lookupExport mod img funcName
  := by
  have hsearch : ∀ fuel, binarySearch (compareExport nt m mod.exportCache funcName) fuel 0
      mod.exportCache.numberOfNames =
      binarySearch (compareExport nt img mod.exportCache funcName) fuel 0
        mod.exportCache.numberOfNames := by
    intro fuel
    apply binarySearch_congr
    intro n _ hn
    obtain ⟨hcstr, hvalid⟩ := imageCstr_congr (h n hn)
    rw [compareExport, compareExport, hcstr, hvalid]
  simp only [lookupExport, hnt, hsearch]

theorem loaderResolver_eq {b : Build} {table : List ImportEntry} {list : ModuleList}
    {image : Ptr → Bytes} {base : Ptr} {nt : ImageNtHeaders} {img m : Bytes}
    (hsep : ExportNamesSeparate list base nt img) (hm : SameOutsideSlots nt img m) :
  loaderResolver b table list image base m = loaderResolver b table list image base img
  := by
  have hlookup : ∀ j funcName,
      lookupExport (list.modules j) (update image base m (list.modules j).base) funcName =
      lookupExport (list.modules j) (update image base img (list.modules j).base)
        funcName := by
    intro j funcName
    by_cases hbase : (list.modules j).base = base
    · rw [hbase, update_self, update_self]
      cases hnt : (list.modules j).nt with
      | none => simp only [lookupExport, hnt]
      | some nt' =>
        apply lookupExport_congr hnt
        intro n hn x hx
        apply hm
        intro k i hat
        apply (hsep j nt' hbase hnt n hn k i hat).symm.notMem hx
    · rw [update_of_ne hbase, update_of_ne hbase]
  funext dllName funcName
  simp only [loaderResolver, resolveLoaderImport, moduleExport, hlookup]

/-- The walk of pass 1 ends for every image.  When the IAT slots are separate from what it reads,
it stays inside the image, and on success it has filled the slots and changed nothing else. -/
theorem resolveImportPass1_effect (b : Build) (table : List ImportEntry) (list : ModuleList)
    (image : Ptr → Bytes) (base : Ptr) (ordinals : List OrdinalEntry) (nt : ImageNtHeaders)
    (img : Bytes) :
  let resolve := loaderResolver b table list image base
  let r := resolveImportPass1 ordinals resolve nt img
  (∃ r', (descriptorLoop ordinals resolve nt (importDir nt)).rounds
    ((importDir nt).size.toNat + 1) (0, ⟨img, []⟩) = some r') ∧
  (∀ descRva desc s, ∃ r', (thunkLoop ordinals resolve nt descRva desc).rounds
    (peSizeOfImage nt + 1) (0, s) = some r') ∧
  (IatSeparate nt img → ExportNamesSeparate list base nt img →
    (∀ region ∈ importReads ordinals resolve nt img, InImage (peSizeOfImage nt) region) ∧
    FillsInImage nt r.2 ∧ (r.1 = true → Pass1Effect nt img ordinals resolve r.2.img))
  := by
  intro resolve r
  and_intros
  · apply While.exists_rounds
    apply Nat.lt_succ_self
  · intro descRva desc s
    apply While.exists_rounds
    apply Nat.lt_succ_self
  · intro hsep hnames
    have hblind : ∀ m, SameOutsideSlots nt img m → resolve m = resolve img :=
      fun m hm => loaderResolver_eq hnames hm
    have hspec := @resolveImportPass1_spec ordinals resolve nt img hsep hblind
    exact ⟨hspec.2.2, hspec.2.1.inImage, hspec.1⟩

/-! ### Images with one import -/

section

variable {nt : ImageNtHeaders} {img : Bytes}

theorem iatSeparate_of_no_descriptor (h : ∀ k, ¬ DescriptorAt nt img k) :
  IatSeparate nt img
  where
  slots hat := by cases h _ hat.1
  descriptors hat := by cases h _ hat.1
  thunks hat := by cases h _ hat.1
  dllNames hat := by cases h _ hat.1
  names hat := by cases h _ hat.1

theorem not_descriptorAt_of_size (h : (importDir nt).size.toNat < sizeofImportDescriptor) (k : ℕ) :
  ¬ DescriptorAt nt img k
  := by
  intro hk
  have hle := (hk 0 (Nat.zero_le k)).1
  omega

/-- There is one descriptor, of `n` imports whose thunks are the slots, and the slots are apart from the
descriptors and the names. -/
def OneDescriptor (n : ℕ) (nt : ImageNtHeaders) (img : Bytes) : Prop :=
  (descriptorAt nt img 1).name = 0 ∧ thunkAt nt img 0 n = 0 ∧
    iltRva (descriptorAt nt img 0) = (descriptorAt nt img 0).firstThunk.toNat ∧
    (∀ i < n, ∀ j < 2, (slotAt nt img 0 i).Apart ⟨descriptorRva nt j, sizeofImportDescriptor⟩) ∧
    (∀ i < n, (slotAt nt img 0 i).Apart (cstrRegion nt img (descriptorAt nt img 0).name.toNat)) ∧
    ∀ i < n, ∀ j < n, (slotAt nt img 0 i).Apart (cstrRegion nt img (thunkAt nt img 0 j + 2))

instance (n : ℕ) : Decidable (OneDescriptor n nt img) := by
  unfold OneDescriptor
  infer_instance

section

variable (hdesc : (descriptorAt nt img 1).name = 0) {n : ℕ} (hthunk : thunkAt nt img 0 n = 0)

include hdesc

theorem descriptor_eq_zero {k : ℕ} (hk : DescriptorAt nt img k) :
  k = 0
  := by
  by_contra hne
  apply (hk 1 (by omega)).2 hdesc

include hthunk

theorem import_lt {k i : ℕ} (hat : ImportAt nt img k i) :
  k = 0 ∧ i < n
  := by
  obtain rfl := descriptor_eq_zero hdesc hat.1
  use rfl
  by_contra hge
  apply hat.2 n (by omega) hthunk

/-- The slots of a single descriptor are separate when they are apart from the two descriptors, from the
names, and from the thunks unless these are the slots. -/
theorem iatSeparate_of_descriptor
    (hthunks : (∀ i < n, ∀ j < n + 1, (slotAt nt img 0 i).Apart (thunkRegion nt img 0 j)) ∨
      iltRva (descriptorAt nt img 0) = (descriptorAt nt img 0).firstThunk.toNat)
    (hdescriptors : ∀ i < n, ∀ j < 2,
      (slotAt nt img 0 i).Apart ⟨descriptorRva nt j, sizeofImportDescriptor⟩)
    (hdll : ∀ i < n, (slotAt nt img 0 i).Apart (cstrRegion nt img (descriptorAt nt img 0).name.toNat))
    (hname : ∀ i < n, ∀ j < n, thunkAt nt img 0 j < highBitMask nt →
      (slotAt nt img 0 i).Apart (cstrRegion nt img (thunkAt nt img 0 j + 2))) :
  IatSeparate nt img
  := by
  constructor
  · intro k i k' i' hat hat' hne
    have hk := (import_lt hdesc hthunk hat).1
    have hk' := (import_lt hdesc hthunk hat').1
    omega
  · intro k i k' hat hbefore
    obtain ⟨rfl, hi⟩ := import_lt hdesc hthunk hat
    apply hdescriptors i hi
    by_contra hge
    have hzero := descriptor_eq_zero hdesc (hbefore 1 (by omega))
    omega
  · intro k i k' i' hat hat' hbefore
    obtain ⟨rfl, hi⟩ := import_lt hdesc hthunk hat
    obtain rfl := descriptor_eq_zero hdesc hat'
    rcases hthunks with hthunks | hilt
    · left
      apply hthunks i hi
      by_contra hge
      apply hbefore n (by omega) hthunk
    · exact Or.inr ⟨rfl, hilt⟩
  · intro k i k' hat hat'
    obtain ⟨rfl, hi⟩ := import_lt hdesc hthunk hat
    obtain rfl := descriptor_eq_zero hdesc hat'
    apply hdll i hi
  · intro k i k' i' hat hat' hlt
    obtain ⟨rfl, hi⟩ := import_lt hdesc hthunk hat
    obtain ⟨rfl, hi'⟩ := import_lt hdesc hthunk hat'
    apply hname i hi i' hi' hlt

end

theorem OneDescriptor.iatSeparate {n : ℕ} (h : OneDescriptor n nt img) :
  IatSeparate nt img
  := by
  obtain ⟨hdesc, hthunk, hilt, hdescriptors, hdll, hname⟩ := h
  apply iatSeparate_of_descriptor hdesc hthunk (Or.inr hilt) hdescriptors hdll
  intro i hi j hj _
  apply hname i hi j hj

end

def importHeaders : ImageNtHeaders where
  peType := .pe32
  fileHeader := ⟨0x14C, 0, 0, 0, 0, 224, 0⟩
  optionalHeader := ⟨0, 0, 0x1000, 0, 0, 0, 16, fun _ => ⟨0x100, 40⟩⟩

/-- An image that imports `"f"` and `"g"` from `"k"`. -/
def importImage : Bytes :=
  (File.ofFields 0 [(0x10C, 4, 0x180), (0x110, 4, 0x1C0), (0x180, 1, 0x6B), (0x1A2, 1, 0x66),
    (0x1B2, 1, 0x67), (0x1C0, 4, 0x1A0), (0x1C4, 4, 0x1B0)]).byte

theorem oneDescriptor_importImage :
  OneDescriptor 2 importHeaders importImage
  := by decide +kernel

def importStubs : List ImportEntry :=
  [⟨.ofString "K", .ofString "f", 0x08041000⟩, ⟨.ofString "k", .ofString "g", 0x08042000⟩]

/-- The imports are resolved to their stubs. -/
theorem importImage_resolved :
  ∃ s, resolveImportPass1 [] (loaderResolver .i386 importStubs initModuleList (fun _ _ => 0) 0x00400000)
      importHeaders importImage = (true, s) ∧ ImportAt importHeaders importImage 0 1 ∧
    s.img.readLE 0x1C0 4 = 0x08041000 ∧ s.img.readLE 0x1C4 4 = 0x08042000
  := by
  have hat : ImportAt importHeaders importImage 0 1 := by
    unfold ImportAt DescriptorAt
    decide +kernel
  have hnames : ExportNamesSeparate initModuleList 0x00400000 importHeaders importImage := by
    intro j nt' hbase
    cases hbase
  obtain ⟨-, -, heffect⟩ := resolveImportPass1_effect .i386 importStubs initModuleList (fun _ _ => 0)
    0x00400000 [] importHeaders importImage
  have hok : (resolveImportPass1 [] (loaderResolver .i386 importStubs initModuleList (fun _ _ => 0)
      0x00400000) importHeaders importImage).1 = true := by decide +kernel
  have hsize : thunkSize importHeaders = 4 := by decide
  have hstart : (slotAt importHeaders importImage 0 0).start = 0x1C0 ∧
      (slotAt importHeaders importImage 0 1).start = 0x1C4 := by decide +kernel
  have htarget : let resolve := loaderResolver .i386 importStubs initModuleList (fun _ _ => 0) 0x00400000
      importTarget importHeaders importImage [] resolve 0 0 = some 0x08041000 ∧
        importTarget importHeaders importImage [] resolve 0 1 = some 0x08042000 := by
    decide +kernel
  obtain ⟨hslot, -⟩ := (heffect oneDescriptor_importImage.iatSeparate hnames).2.2 hok
  have hfirst := @hslot 0 0 ⟨hat.1, fun j hj => hat.2 j (by omega)⟩
  have hsecond := hslot hat
  rw [htarget.1, hstart.1, hsize] at hfirst
  rw [htarget.2, hstart.2, hsize] at hsecond
  exact ⟨_, Prod.ext hok rfl, hat, hfirst, hsecond⟩

end Loader
