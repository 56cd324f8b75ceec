import MyWine.Pe.Headers

/-!
# Base relocations

`loader/relocations.c` adds the difference `delta` between the address of an image and its
preferred base to the places that the relocation table names.  The table consists of blocks, each
with the RVA of a page and a list of entries for that page, and is read from the image while the
image is being patched.  An image at its preferred base is left as it is
(`applyRelocations_of_base_eq`).
-/

open Pe

namespace Loader

def sizeofBaseRelocation : ℕ := 8

def relocsStripped : UInt16 := 1

/-- `IMAGE_REL_BASED_ABSOLUTE`, `IMAGE_REL_BASED_HIGH`, `IMAGE_REL_BASED_LOW`,
`IMAGE_REL_BASED_HIGHLOW`, `IMAGE_REL_BASED_DIR32`, `IMAGE_REL_BASED_HIGHADJ` and
`IMAGE_REL_BASED_DIR64`. -/
def relBasedAbsolute : ℕ := 0
def relBasedHigh : ℕ := 1
def relBasedLow : ℕ := 2
def relBasedHighlow : ℕ := 3
def relBasedDir32 : ℕ := 4
def relBasedHighadj : ℕ := 5
def relBasedDir64 : ℕ := 10

/-- The addition of `v` to the number of `n` bytes at the RVA `rva`, or `none` when it does not
lie in the image. -/
def addAt (nt : ImageNtHeaders) (img : Bytes) (rva n v : ℕ) : Option Bytes :=
  if peRvaRangeIsValid rva n (peSizeOfImage nt) then
    some (img.writeLE rva n (img.readLE rva n + v))
  else none

def applyEntry (nt : ImageNtHeaders) (delta va : ℕ) (img : Bytes) (entry : UInt16) : Option Bytes :=
  let type := entry.toNat / 2 ^ 12
  let offset := entry.toNat % 2 ^ 12
  if type = relBasedAbsolute then some img
  else if peIsPe32 nt then
    if 2 ^ 32 - 1 - offset < va then none
    else if type = relBasedDir32 ∨ type = relBasedHighlow then addAt nt img (va + offset) 4 delta
    else if type = relBasedHigh ∨ type = relBasedHighadj then
      addAt nt img (va + offset) 2 (delta / 2 ^ 16)
    else if type = relBasedLow then addAt nt img (va + offset) 2 delta
    else some img
  else if type = relBasedDir64 then
    if 2 ^ 32 - 1 - offset < va then none else addAt nt img (va + offset) 8 delta
  else some img

def applyEntries (nt : ImageNtHeaders) (delta va block num : ℕ) (img : Bytes) : Option Bytes :=
  (List.range num).foldlM
    (fun img i => applyEntry nt delta va img (img.u16 (block + sizeofBaseRelocation + 2 * i))) img

/-- The effect of the blocks from `block` to `blockEnd`.  A block has at least eight bytes, so that
there are no more than `blockEnd - block` of them. -/
def applyBlocks (nt : ImageNtHeaders) (delta blockEnd : ℕ) : ℕ → ℕ → Bytes → Option Bytes
  | 0, _, img => some img
  | fuel + 1, block, img =>
    let va := (img.u32 block).toNat
    let size := (img.u32 (block + 4)).toNat
    if blockEnd ≤ block then some img
    else if size = 0 ∨ size < sizeofBaseRelocation then some img
    else if blockEnd - block < size then none
    else
      match applyEntries nt delta va block ((size - sizeofBaseRelocation) / 2) img with
      | none => none
      | some img => applyBlocks nt delta blockEnd fuel (block + size) img

def relocationDelta (b : Build) (base : Ptr) (nt : ImageNtHeaders) : ℕ :=
  b.wrap (base + 2 ^ 64 - peImageBase nt)

def applyRelocations (b : Build) (base : Ptr) (nt : ImageNtHeaders) (img : Bytes) : Option Bytes :=
  let delta := relocationDelta b base nt
  if delta = 0 then some img
  else if peCharacteristics nt &&& relocsStripped ≠ 0 then none
  else
    match peGetDataDir nt directoryEntryBasereloc with
    | none => some img
    | some dir =>
      let rva := dir.virtualAddress.toNat
      let size := dir.size.toNat
      if rva = 0 ∨ size = 0 then some img
      else if !peRvaRangeIsValid rva size (peSizeOfImage nt) then none
      else applyBlocks nt delta (rva + size) size rva img

theorem relocationDelta_imageBase (b : Build) (nt : ImageNtHeaders) :
  relocationDelta b (peImageBase nt) nt = 0
  := by
  rw [relocationDelta, Nat.add_sub_cancel_left]
  cases b with
  | x64 => rfl
  | i386 => rfl

theorem applyRelocations_of_base_eq
    (b : Build) {base : Ptr} {nt : ImageNtHeaders} (img : Bytes) (h : base = peImageBase nt) :
  applyRelocations b base nt img = some img
  := by
  rw [h, applyRelocations, if_pos (relocationDelta_imageBase b nt)]

end Loader
