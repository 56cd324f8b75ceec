import MyWine.Loader.ImportResolve
import MyWine.Loader.RipScan

/-!
# The second import pass

After pass 1, `resolve_import_pass2` collects the thunks of a PE32+ image in an array with the
values of their IAT slots (`buildFlatImportArray`), and rewrites the slots that the code jumps
through from the array, by one of three strategies (`patchTarget`).  An entry of the array holds the
value that its slot has in the image, and a slot is only rewritten from an entry for that slot.  So
the pass changes no byte, and `resolve_imports` does what pass 1 does (`resolveImports_eq`).
-/

open Pe

namespace Loader

open List

def maxFlatImports : ℕ := 256

/-- `struct import_flat`, with the RVA of the slot in place of its address. -/
structure ImportFlat where
  iltValue : ℕ
  resolvedAddr : ℕ
  iatRva : ℕ

section

variable (nt : ImageNtHeaders) (img : Bytes)

def flatNameValid (thunk : ℕ) : Bool :=
  highBitMask nt ≤ thunk ||
    thunk < 2 ^ 32 && peRvaRangeIsValid thunk 3 (peSizeOfImage nt)

/-- The round of the loop over the thunks of `desc` for the thunk `i`.  The loop ends with `true`
when the thunks end, and with `false` when the array is returned. -/
def flatThunkRound (desc : ImageImportDescriptor) (p : ℕ × List ImportFlat) :
    (ℕ × List ImportFlat) ⊕ (Bool × List ImportFlat) :=
  let size := thunkSize nt
  let thunk := img.readLE (iltRva desc + p.1 * size) size
  let slot := desc.firstThunk.toNat + p.1 * size
  if thunk ≠ 0 ∧ p.2.length < maxFlatImports then
    if !peRvaRangeIsValid (iltRva desc) (p.1 * size + size) (peSizeOfImage nt) ∨
        !peRvaRangeIsValid desc.firstThunk.toNat (p.1 * size + size) (peSizeOfImage nt) then
      .inr (false, p.2)
    else if !flatNameValid nt thunk then .inr (false, p.2)
    else .inl (p.1 + 1, p.2 ++ [⟨thunk, img.readLE slot size, slot⟩])
  else .inr (true, p.2)

variable {p : ℕ × List ImportFlat}

theorem flatThunkRound_inl {desc : ImageImportDescriptor} {p' : ℕ × List ImportFlat}
    (h : flatThunkRound nt img desc p = .inl p') :
  p.2.length < maxFlatImports ∧ ∃ f : ImportFlat,
    f.resolvedAddr = img.readLE f.iatRva (thunkSize nt) ∧ p' = (p.1 + 1, p.2 ++ [f])
  := by
  simp only [flatThunkRound] at h
  split_ifs at h with hcond
  cases h
  exact ⟨hcond.2, _, rfl, rfl⟩

theorem flatThunkRound_inr {desc : ImageImportDescriptor} {r : Bool × List ImportFlat}
    (h : flatThunkRound nt img desc p = .inr r) :
  r.2 = p.2
  := by
  simp only [flatThunkRound] at h
  split_ifs at h
  all_goals
    cases h
    rfl

def flatThunkLoop (desc : ImageImportDescriptor) :
    While (ℕ × List ImportFlat) (Bool × List ImportFlat) where
  round := flatThunkRound nt img desc
  variant p := maxFlatImports - p.2.length
  variant_lt := by
    intro p p' h
    obtain ⟨hlt, f, -, rfl⟩ := flatThunkRound_inl nt img h
    simp only [length_append, length_singleton]
    omega

/-- The round of the loop over the descriptors for the one at the offset `off`. -/
def flatDescriptorRound (dir : ImageDataDirectory) (p : ℕ × List ImportFlat) :
    (ℕ × List ImportFlat) ⊕ List ImportFlat :=
  let rva := dir.virtualAddress.toNat + p.1
  let desc := readImportDescriptor img rva
  if p.1 + sizeofImportDescriptor ≤ dir.size.toNat ∧ desc.name ≠ 0 ∧
      p.2.length < maxFlatImports then
    if !peRvaRangeIsValid desc.name.toNat 1 (peSizeOfImage nt) then .inr p.2
    else if !peRvaRangeIsValid (iltRva desc) (thunkSize nt) (peSizeOfImage nt) ∨
        !peRvaRangeIsValid desc.firstThunk.toNat (thunkSize nt) (peSizeOfImage nt) then .inr p.2
    else
      match (flatThunkLoop nt img desc).run (0, p.2) with
      | (false, flat) => .inr flat
      | (true, flat) =>
        if !peRvaRangeIsValid (rva + sizeofImportDescriptor) sizeofImportDescriptor
            (peSizeOfImage nt) then .inr flat
        else .inl (p.1 + sizeofImportDescriptor, flat)
  else .inr p.2

theorem flatDescriptorRound_inl {dir : ImageDataDirectory} {p' : ℕ × List ImportFlat}
    (h : flatDescriptorRound nt img dir p = .inl p') :
  p.1 + sizeofImportDescriptor ≤ dir.size.toNat ∧ ∃ desc,
    p' = (p.1 + sizeofImportDescriptor, ((flatThunkLoop nt img desc).run (0, p.2)).2)
  := by
  simp only [flatDescriptorRound] at h
  split at h
  · next hcond =>
    use hcond.1, readImportDescriptor img (dir.virtualAddress.toNat + p.1)
    split at h
    · cases h
    · split at h
      · cases h
      · split at h
        · cases h
        · next flat hrun =>
          split at h
          · cases h
          · cases h
            rw [hrun]
  · cases h

/-- A round ends with the array that it met, or with the one that the thunks of a descriptor
left. -/
theorem flatDescriptorRound_inr {dir : ImageDataDirectory} {flat : List ImportFlat}
    (h : flatDescriptorRound nt img dir p = .inr flat) :
  flat = p.2 ∨ ∃ desc, flat = ((flatThunkLoop nt img desc).run (0, p.2)).2
  := by
  simp only [flatDescriptorRound] at h
  split at h
  · split at h
    · cases h
      exact Or.inl rfl
    · split at h
      · cases h
        exact Or.inl rfl
      · right
        use readImportDescriptor img (dir.virtualAddress.toNat + p.1)
        split at h
        · next hrun =>
          cases h
          rw [hrun]
        · next hrun =>
          split at h
          · cases h
            rw [hrun]
          · cases h
  · cases h
    exact Or.inl rfl

def flatDescriptorLoop (dir : ImageDataDirectory) :
    While (ℕ × List ImportFlat) (List ImportFlat) where
  round := flatDescriptorRound nt img dir
  variant p := dir.size.toNat - p.1
  variant_lt := by
    intro p p' h
    obtain ⟨hle, desc, rfl⟩ := flatDescriptorRound_inl nt img h
    have hpos : 0 < sizeofImportDescriptor := by decide
    simp only
    omega

def buildFlatImportArray : List ImportFlat :=
  match peGetDataDir nt directoryEntryImport with
  | none => []
  | some dir =>
    let rva := dir.virtualAddress.toNat
    if dir.virtualAddress = 0 ∨ !peRvaRangeIsValid rva dir.size.toNat (peSizeOfImage nt) then []
    else if !peRvaRangeIsValid rva sizeofImportDescriptor (peSizeOfImage nt) then []
    else (flatDescriptorLoop nt img dir).run (0, [])

end

def strategyResolvedOverlap (currentVal target : ℕ) (flat : List ImportFlat) : Bool :=
  flat.any fun f => f.iatRva = target && f.resolvedAddr = currentVal

def strategyIltValueMatch (currentVal target : ℕ) (flat : List ImportFlat) : Option ImportFlat :=
  if currentVal = 0 then none
  else flat.find? fun f => f.iatRva = target && f.iltValue = currentVal && f.resolvedAddr ≠ 0

def strategyIltOffsetMatch (currentVal target : ℕ) (flat : List ImportFlat) : Option ImportFlat :=
  if currentVal = 0 then none
  else flat.find? fun f => f.iatRva = target && f.resolvedAddr ≠ 0

def patchTarget (nt : ImageNtHeaders) (flat : List ImportFlat) (img : Bytes) (target : ℕ) : Bytes :=
  let size := thunkSize nt
  let currentVal := img.readLE target size
  if 2 ^ 32 - 1 < target ∨ !peRvaRangeIsValid target size (peSizeOfImage nt) then img
  else if strategyResolvedOverlap currentVal target flat then img
  else
    match (strategyIltValueMatch currentVal target flat).or
        (strategyIltOffsetMatch currentVal target flat) with
    | none => img
    | some f => img.writeLE target size f.resolvedAddr

def resolveImportPass2 (nt : ImageNtHeaders) (base : Ptr) (img : Bytes) : Bytes :=
  if peIsPe32 nt then img
  else
    match peGetDataDir nt directoryEntryImport with
    | none => img
    | some dir =>
      let targets := scanRipRelativeJumps nt base img maxThunkTargets
      if dir.size = 0 then img
      else if targets = [] then img
      else targets.foldl (patchTarget nt (buildFlatImportArray nt img)) img

def resolveImports (ordinals : List OrdinalEntry)
    (resolve : Bytes → CString → CString → Option Ptr) (nt : ImageNtHeaders) (base : Ptr)
    (img : Bytes) : Bool × Bound :=
  match resolveImportPass1 ordinals resolve nt img with
  | (false, s) => (false, s)
  | (true, s) => (true, { s with img := resolveImportPass2 nt base s.img })

/-! ### Pass 2 changes nothing -/

section

variable {nt : ImageNtHeaders} {img : Bytes}

def HoldsSlots (nt : ImageNtHeaders) (img : Bytes) (flat : List ImportFlat) : Prop :=
  ∀ f ∈ flat, f.resolvedAddr = img.readLE f.iatRva (thunkSize nt)

variable {flat : List ImportFlat}

theorem holdsSlots_flatThunkLoop {desc : ImageImportDescriptor} (h : HoldsSlots nt img flat) :
  HoldsSlots nt img ((flatThunkLoop nt img desc).run (0, flat)).2
  := by
  apply While.run_of_invariant (fun p : ℕ × List ImportFlat => HoldsSlots nt img p.2)
    (fun r : Bool × List ImportFlat => HoldsSlots nt img r.2) _ _ h
  · intro p p' hinv hround
    obtain ⟨-, f, hf, rfl⟩ := flatThunkRound_inl nt img hround
    apply forall_mem_append.mpr ⟨hinv, forall_mem_singleton.mpr hf⟩
  · intro p r hinv hround
    rw [flatThunkRound_inr nt img hround]
    apply hinv

theorem holdsSlots_buildFlatImportArray :
  HoldsSlots nt img (buildFlatImportArray nt img)
  := by
  have hnil : HoldsSlots nt img [] := by
    intro f hf
    cases hf
  rw [buildFlatImportArray]
  split
  · apply hnil
  · next dir _ =>
    simp only
    split_ifs
    · apply hnil
    · apply hnil
    · apply While.run_of_invariant (fun p : ℕ × List ImportFlat => HoldsSlots nt img p.2)
        (HoldsSlots nt img) _ _ hnil
      · intro p p' hinv hround
        obtain ⟨-, desc, rfl⟩ := flatDescriptorRound_inl nt img hround
        apply holdsSlots_flatThunkLoop hinv
      · intro p flat hinv hround
        rcases flatDescriptorRound_inr nt img hround with rfl | ⟨desc, rfl⟩
        · apply hinv
        · apply holdsSlots_flatThunkLoop hinv

theorem strategies_spec {currentVal target : ℕ} {f : ImportFlat}
    (h : (strategyIltValueMatch currentVal target flat).or
      (strategyIltOffsetMatch currentVal target flat) = some f) :
  f ∈ flat ∧ f.iatRva = target
  := by
  rw [Option.or_eq_some_iff] at h
  rcases h with h | ⟨-, h⟩
  · rw [strategyIltValueMatch] at h
    split_ifs at h
    have hf := List.find?_some h
    simp only [Bool.and_eq_true, decide_eq_true_eq] at hf
    exact ⟨mem_of_find?_eq_some h, hf.1.1⟩
  · rw [strategyIltOffsetMatch] at h
    split_ifs at h
    have hf := List.find?_some h
    simp only [Bool.and_eq_true, decide_eq_true_eq] at hf
    exact ⟨mem_of_find?_eq_some h, hf.1⟩

theorem patchTarget_eq (h : HoldsSlots nt img flat) (target : ℕ) :
  patchTarget nt flat img target = img
  := by
  simp only [patchTarget]
  split_ifs
  · rfl
  · rfl
  · split
    · rfl
    · next f hf =>
      obtain ⟨hmem, rfl⟩ := strategies_spec hf
      rw [h f hmem, Bytes.writeLE_readLE img _ (le_refl _)]

theorem resolveImportPass2_eq (nt : ImageNtHeaders) (base : Ptr) (img : Bytes) :
  resolveImportPass2 nt base img = img
  := by
  have hpatch : ∀ targets : List ℕ,
      targets.foldl (patchTarget nt (buildFlatImportArray nt img)) img = img := by
    intro targets
    induction targets with
    | nil => rfl
    | cons target targets ih =>
      rw [foldl_cons, patchTarget_eq holdsSlots_buildFlatImportArray, ih]
  rw [resolveImportPass2]
  split_ifs
  · rfl
  · split
    · rfl
    · simp [hpatch]

end

theorem resolveImports_eq_pass1 (ordinals : List OrdinalEntry)
    (resolve : Bytes → CString → CString → Option Ptr) (nt : ImageNtHeaders) (base : Ptr)
    (img : Bytes) :
  resolveImports ordinals resolve nt base img = resolveImportPass1 ordinals resolve nt img
  := by
  rw [resolveImports]
  split
  · next s hpass => rw [hpass]
  · next s hpass => rw [hpass, resolveImportPass2_eq]

end Loader
