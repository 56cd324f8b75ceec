import MyWine.Lib.While
import MyWine.Loader.ImportLookup

/-!
# Resolving the imports of an image

`resolve_imports` of `loader/import_resolve.c` walks the import directory of an image in two passes.
Pass 1 writes the address of each import that it can resolve into the import address table (IAT) of
its descriptor (`resolveImportPass1`).  It reads the directory, the names and the thunks from the
image that it writes to.  The slots that it fills are recorded (`Fill`).

Pass 2 rewrites the slots that the code jumps through with the values that pass 1 left there, so
that it changes nothing (`resolveImportPass2_eq`).
-/

open Pe SyscallSafe

namespace Loader

structure ImageImportDescriptor where
  originalFirstThunk : UInt32
  name : UInt32
  firstThunk : UInt32
  deriving DecidableEq

def readImportDescriptor (img : Bytes) (rva : ℕ) : ImageImportDescriptor where
  originalFirstThunk := img.u32 rva
  name := img.u32 (rva + 12)
  firstThunk := img.u32 (rva + 16)

def sizeofImportDescriptor : ℕ := 20

def thunkSize (nt : ImageNtHeaders) : ℕ := if peIsPe32 nt then 4 else 8

def highBitMask (nt : ImageNtHeaders) : ℕ := if peIsPe32 nt then 2 ^ 31 else 2 ^ 63

def iltRva (desc : ImageImportDescriptor) : ℕ :=
  if desc.originalFirstThunk ≠ 0 then desc.originalFirstThunk.toNat else desc.firstThunk.toNat

/-- A slot of the IAT that was filled: its RVA, the DLL of the import and the address. -/
structure Fill where
  slot : ℕ
  dllName : CString
  address : Ptr

/-- An image, and the slots of its IAT that have been filled. -/
structure Bound where
  img : Bytes
  fills : List Fill

def Bound.store (s : Bound) (slot size : ℕ) (dllName : CString) : Option Ptr → Bound
  | none => s
  | some a => ⟨s.img.writeLE slot size a, s.fills ++ [⟨slot, dllName, a⟩]⟩

/-! ### Pass 1 -/

section

variable (ordinals : List OrdinalEntry) (resolve : Bytes → CString → CString → Option Ptr)
  (nt : ImageNtHeaders)

/-- The address of the import with the thunk `thunk`, if it can be resolved, or `none` if the thunk
is not valid.  `resolve` is `resolve_loader_import`, which may read the image. -/
def resolveThunk (img : Bytes) (dllName : CString) (thunk : ℕ) : Option (Option Ptr) :=
  if highBitMask nt ≤ thunk then
    some ((ordinalLookup ordinals dllName (thunk % 2 ^ 16)).bind (resolve img dllName))
  else if 2 ^ 32 - 1 - 2 < thunk ∨ !peRvaRangeIsValid thunk 3 (peSizeOfImage nt) ∨
      !imageCstrValid nt img (thunk + 2) then none
  else some (resolve img dllName (imageCstr nt img (thunk + 2)))

/-- The range checks for the thunk `i` of the descriptor at `descRva`, which was `desc` when its
thunks were begun.  The loop reads `FirstThunk` again for each thunk. -/
def thunkInImage (descRva : ℕ) (desc : ImageImportDescriptor) (i : ℕ) (img : Bytes) : Bool :=
  peRvaRangeIsValid (iltRva desc) (i * thunkSize nt + thunkSize nt) (peSizeOfImage nt) &&
  peRvaRangeIsValid (readImportDescriptor img descRva).firstThunk.toNat
    (i * thunkSize nt + thunkSize nt) (peSizeOfImage nt)

def thunkRound (descRva : ℕ) (desc : ImageImportDescriptor) (p : ℕ × Bound) :
    (ℕ × Bound) ⊕ (Bool × Bound) :=
  let i := p.1
  let s := p.2
  let thunk := s.img.readLE (iltRva desc + i * thunkSize nt) (thunkSize nt)
  let dllName := imageCstr nt s.img desc.name.toNat
  if !thunkInImage nt descRva desc i s.img then .inr (false, s)
  else if thunk = 0 then .inr (true, s)
  else
    match resolveThunk ordinals resolve nt s.img dllName thunk with
    | none => .inr (false, s)
    | some addr =>
      .inl (i + 1,
        s.store (desc.firstThunk.toNat + i * thunkSize nt) (thunkSize nt) dllName addr)

theorem thunkSize_pos :
  0 < thunkSize nt
  := by
  rw [thunkSize]
  split_ifs
  · omega
  · omega

variable {desc : ImageImportDescriptor} {descRva : ℕ}

theorem lt_of_thunkInImage {i : ℕ} {img : Bytes} (h : thunkInImage nt descRva desc i img = true) :
  i < peSizeOfImage nt
  := by
  rw [thunkInImage, Bool.and_eq_true, peRvaRangeIsValid_iff] at h
  have hpos := thunkSize_pos nt
  have hle : i * 1 ≤ i * thunkSize nt := Nat.mul_le_mul_left i hpos
  omega

theorem thunkRound_inl {p p' : ℕ × Bound}
    (h : thunkRound ordinals resolve nt descRva desc p = .inl p') :
  thunkInImage nt descRva desc p.1 p.2.img = true ∧
    p.2.img.readLE (iltRva desc + p.1 * thunkSize nt) (thunkSize nt) ≠ 0 ∧
    ∃ addr, resolveThunk ordinals resolve nt p.2.img (imageCstr nt p.2.img desc.name.toNat)
        (p.2.img.readLE (iltRva desc + p.1 * thunkSize nt) (thunkSize nt)) = some addr ∧
      p' = (p.1 + 1, p.2.store (desc.firstThunk.toNat + p.1 * thunkSize nt) (thunkSize nt)
        (imageCstr nt p.2.img desc.name.toNat) addr)
  := by
  simp only [thunkRound] at h
  split_ifs at h with hrange hzero
  rw [Bool.not_eq_true, Bool.not_eq_false'] at hrange
  use hrange, hzero
  split at h
  · cases h
  · next addr hresolve =>
    cases h
    exact ⟨addr, hresolve, rfl⟩

theorem thunkRound_inr {p : ℕ × Bound} {ok : Bool} {s : Bound}
    (h : thunkRound ordinals resolve nt descRva desc p = .inr (ok, s)) :
  s = p.2 ∧ (ok = true → thunkInImage nt descRva desc p.1 p.2.img = true ∧
    p.2.img.readLE (iltRva desc + p.1 * thunkSize nt) (thunkSize nt) = 0)
  := by
  simp only [thunkRound] at h
  split_ifs at h with hrange hzero
  · cases h
    exact ⟨rfl, fun h => by cases h⟩
  · cases h
    rw [Bool.not_eq_true, Bool.not_eq_false'] at hrange
    exact ⟨rfl, fun _ => ⟨hrange, hzero⟩⟩
  · split at h
    · cases h
      exact ⟨rfl, fun h => by cases h⟩
    · cases h

def thunkLoop (descRva : ℕ) (desc : ImageImportDescriptor) : While (ℕ × Bound) (Bool × Bound) where
  round := thunkRound ordinals resolve nt descRva desc
  variant p := peSizeOfImage nt - p.1
  variant_lt := by
    intro p p' h
    obtain ⟨hrange, -, addr, -, rfl⟩ := thunkRound_inl ordinals resolve nt h
    have hlt := lt_of_thunkInImage nt hrange
    simp only
    omega

/-- The round of the loop over the descriptors for the one at the offset `off`. -/
def descriptorRound (dir : ImageDataDirectory) (p : ℕ × Bound) : (ℕ × Bound) ⊕ (Bool × Bound) :=
  let off := p.1
  let s := p.2
  let rva := dir.virtualAddress.toNat + off
  let desc := readImportDescriptor s.img rva
  if off + sizeofImportDescriptor ≤ dir.size.toNat ∧ desc.name ≠ 0 then
    if !imageCstrValid nt s.img desc.name.toNat then .inr (false, s)
    else if !peRvaRangeIsValid (iltRva desc) (thunkSize nt) (peSizeOfImage nt) ∨
        !peRvaRangeIsValid desc.firstThunk.toNat (thunkSize nt) (peSizeOfImage nt) then
      .inr (false, s)
    else
      match (thunkLoop ordinals resolve nt rva desc).run (0, s) with
      | (false, s) => .inr (false, s)
      | (true, s) =>
        if !peRvaRangeIsValid (rva + sizeofImportDescriptor) sizeofImportDescriptor
            (peSizeOfImage nt) then .inr (false, s)
        else .inl (off + sizeofImportDescriptor, s)
  else .inr (decide (off + sizeofImportDescriptor ≤ dir.size.toNat), s)

theorem descriptorRound_inl {dir : ImageDataDirectory} {p p' : ℕ × Bound}
    (h : descriptorRound ordinals resolve nt dir p = .inl p') :
  let desc := readImportDescriptor p.2.img (dir.virtualAddress.toNat + p.1)
  p.1 + sizeofImportDescriptor ≤ dir.size.toNat ∧ desc.name ≠ 0 ∧
    imageCstrValid nt p.2.img desc.name.toNat = true ∧
    ∃ s, (thunkLoop ordinals resolve nt (dir.virtualAddress.toNat + p.1) desc).run (0, p.2) =
        (true, s) ∧
      peRvaRangeIsValid (dir.virtualAddress.toNat + p.1 + sizeofImportDescriptor)
        sizeofImportDescriptor (peSizeOfImage nt) = true ∧
      p' = (p.1 + sizeofImportDescriptor, s)
  := by
  simp only [descriptorRound] at h
  split at h
  · next hdesc =>
    split at h
    · cases h
    · next hvalid =>
      rw [Bool.not_eq_true, Bool.not_eq_false'] at hvalid
      use hdesc.1, hdesc.2, hvalid
      split at h
      · cases h
      · split at h
        · cases h
        · next s hrun =>
          split at h
          · cases h
          · next hnext =>
            rw [Bool.not_eq_true, Bool.not_eq_false'] at hnext
            cases h
            exact ⟨s, hrun, hnext, rfl⟩
  · cases h

theorem descriptorRound_inr {dir : ImageDataDirectory} {p : ℕ × Bound} {ok : Bool} {s : Bound}
    (h : descriptorRound ordinals resolve nt dir p = .inr (ok, s)) :
  let desc := readImportDescriptor p.2.img (dir.virtualAddress.toNat + p.1)
  s = p.2 ∧ (ok = true → p.1 + sizeofImportDescriptor ≤ dir.size.toNat ∧ desc.name = 0) ∨
  ok = false ∧ p.1 + sizeofImportDescriptor ≤ dir.size.toNat ∧ desc.name ≠ 0 ∧
    s = ((thunkLoop ordinals resolve nt (dir.virtualAddress.toNat + p.1) desc).run (0, p.2)).2
  := by
  simp only [descriptorRound] at h
  split at h
  · next hdesc =>
    split at h
    · cases h
      left
      use rfl, fun h => by cases h
    · split at h
      · cases h
        left
        use rfl, fun h => by cases h
      · right
        split at h
        · next hrun =>
          cases h
          use rfl, hdesc.1, hdesc.2
          rw [hrun]
        · next hrun =>
          split at h
          · cases h
            use rfl, hdesc.1, hdesc.2
            rw [hrun]
          · cases h
  · next hdesc =>
    simp only [Sum.inr.injEq, Prod.mk.injEq] at h
    obtain ⟨rfl, rfl⟩ := h
    rw [not_and, not_not] at hdesc
    left
    use rfl
    intro hle
    rw [decide_eq_true_eq] at hle
    exact ⟨hle, hdesc hle⟩

def descriptorLoop (dir : ImageDataDirectory) : While (ℕ × Bound) (Bool × Bound) where
  round := descriptorRound ordinals resolve nt dir
  variant p := dir.size.toNat - p.1
  variant_lt := by
    intro p p' h
    obtain ⟨hle, -, -, s, -, -, rfl⟩ := descriptorRound_inl ordinals resolve nt h
    have hpos : 0 < sizeofImportDescriptor := by decide
    simp only
    omega

def resolveImportPass1 (img : Bytes) : Bool × Bound :=
  match peGetDataDir nt directoryEntryImport with
  | none => (true, ⟨img, []⟩)
  | some dir =>
    let rva := dir.virtualAddress.toNat
    if dir.size = 0 then (true, ⟨img, []⟩)
    else if dir.virtualAddress = 0 ∨
        !peRvaRangeIsValid rva dir.size.toNat (peSizeOfImage nt) then (false, ⟨img, []⟩)
    else if !peRvaRangeIsValid rva sizeofImportDescriptor (peSizeOfImage nt) then
      (false, ⟨img, []⟩)
    else (descriptorLoop ordinals resolve nt dir).run (0, ⟨img, []⟩)

end

end Loader
