import MyWine.Lib.Region
import MyWine.Lib.CString
import MyWine.Loader.Relocations

/-!
# Mapping an image

`map_image_at` of `loader/image_mapper.c` reads a PE file, reserves memory for its image, and
fills the image in passes: the raw data of the sections (`copySections`), the headers
(`copyHeaders`), the sections without file payload (`zeroSections`), the relocations, and the
protections of the sections (`protectSections`).  The first pass reads the section table from the
file; the passes after the headers were copied read it from the image that they change, at the
place that the copied headers name (`sectionAt`).

What the kernel answers is a parameter `Kernel`, which carries the rules that its answers obey.
The `i386` build compares the answer of `mmap` with `MAP_FAILED` only, which is the error `EPERM`.  It
takes any other error for an address, and faults when it first writes to the image; such runs have
no image, and there is no second try at another address (`reserveImage`).

An image is the function from RVAs to bytes; past the end of the mapping it is whatever memory
follows.
-/

open Pe

namespace Loader

open Option

/-! ### The kernel -/

/-- The protection of a page. -/
structure Prot where
  read : Bool
  write : Bool
  exec : Bool
  deriving DecidableEq, Repr

def Prot.all : Prot := ⟨true, true, true⟩

/-- A region that the kernel maps starts at a page and ends inside the address space. -/
structure Usable (b : Build) (r : Region) : Prop where
  aligned : pageSize ∣ r.start
  start_ne_zero : r.start ≠ 0
  stop_lt : r.stop < b.ptrLimit

def pages (a : Ptr) (size : ℕ) : Region := ⟨a, pageRoundUp size⟩

/-- The answers of the kernel: whether `MAP_FIXED_NOREPLACE` maps a region while other regions are
in use, whether the error is `EPERM` if it does not, the address of a mapping at any free place,
whether `mprotect` succeeds, and the memory around the image at an address, by RVA. -/
structure Kernel (b : Build) where
  mapNoReplace : List Region → Region → Bool
  notPermitted : Region → Bool := fun _ => false
  mapAnywhere : List Region → ℕ → Option Ptr
  mprotect : Ptr → ℕ → Prot → Bool
  around : Ptr → Bytes
  mapNoReplace_spec : ∀ {used r}, mapNoReplace used r = true →
    Usable b r ∧ ∀ u ∈ used, r.Apart u
  mapAnywhere_spec : ∀ {used n a}, mapAnywhere used n = some a →
    Usable b (pages a n) ∧ ∀ u ∈ used, (pages a n).Apart u
  mprotect_spec : ∀ {a n p}, mprotect a n p = true → pageSize ∣ a

/-- The kernel that maps and protects whatever its rules allow, and has no other free place. -/
def Kernel.lenient (b : Build) : Kernel b where
  mapNoReplace used r := decide (pageSize ∣ r.start ∧ r.start ≠ 0 ∧ r.stop < b.ptrLimit ∧
    ∀ u ∈ used, r.Apart u)
  mapAnywhere _ _ := none
  mprotect a _ _ := decide (pageSize ∣ a)
  around _ _ := 0
  mapNoReplace_spec h := by
    obtain ⟨haligned, hne, hlt, hapart⟩ := of_decide_eq_true h
    exact ⟨⟨haligned, hne, hlt⟩, hapart⟩
  mapAnywhere_spec h := by cases h
  mprotect_spec h := of_decide_eq_true h

/-! ### The passes over an image -/

def scnCntUninitializedData : UInt32 := 0x80

def scnMemRead : UInt32 := 0x40000000
def scnMemWrite : UInt32 := 0x80000000
def scnMemExecute : UInt32 := 0x20000000

def copySection (f : File) (imageSize : ℕ) (img : Bytes) (s : ImageSectionHeader) : Option Bytes :=
  let va := s.virtualAddress.toNat
  let raw := s.sizeOfRawData.toNat
  if s.sizeOfRawData = 0 ∨ s.pointerToRawData = 0 then some img
  else if !peRvaRangeIsValid va raw imageSize then none
  else some (img.copy va f.byte s.pointerToRawData.toNat raw)

def copySections (f : File) (imageSize : ℕ) (table : List ImageSectionHeader) (img : Bytes) :
    Option Bytes :=
  table.foldlM (copySection f imageSize) img

def copyHeaders (f : File) (nt : ImageNtHeaders) (img : Bytes) : Bytes :=
  img.copy 0 f.byte 0 (peSizeOfHeaders nt)

/-- `get_image_sections`: the RVA of the section table that the headers in the image name. -/
def getImageSections (nt : ImageNtHeaders) (img : Bytes) : ℕ :=
  ((readDosHeader img 0).eLfanew.toNat + 4 + sizeofFileHeader + peOptionalHeaderSize nt) % 2 ^ 32

/-- The section table that a pass reads: the one of the file, or the one in the image. -/
inductive SectionTable where
  | inFile (offset : ℕ)
  | inImage (rva : ℕ)

def SectionTable.sectionAt (f : File) (img : Bytes) (i : ℕ) : SectionTable → ImageSectionHeader
  | inFile offset => readSectionHeader f.byte (offset + sizeofSectionHeader * i)
  | inImage rva => readSectionHeader img (rva + sizeofSectionHeader * i)

/-- The section table that is read once the headers have been copied into the image `img`. -/
def imageTable (nt : ImageNtHeaders) (sections : ℕ) (img : Bytes) : SectionTable :=
  if 0 < peSizeOfHeaders nt then .inImage (getImageSections nt img) else .inFile sections

/-- The number of bytes of a section: its virtual size, or its raw size if that is zero. -/
def sectionSize (s : ImageSectionHeader) : ℕ :=
  if s.virtualSize = 0 then s.sizeOfRawData.toNat else s.virtualSize.toNat

def hasFilePayload (s : ImageSectionHeader) : Bool :=
  s.pointerToRawData ≠ 0 && s.characteristics &&& scnCntUninitializedData = 0

def zeroSection (imageSize : ℕ) (img : Bytes) (s : ImageSectionHeader) : Option Bytes :=
  let va := s.virtualAddress.toNat
  if hasFilePayload s then some img
  else if sectionSize s = 0 then some img
  else if !peRvaRangeIsValid va (sectionSize s) imageSize then none
  else some (img.fill va 0 (sectionSize s))

def zeroSections (f : File) (imageSize num : ℕ) (table : SectionTable) (img : Bytes) :
    Option Bytes :=
  (List.range num).foldlM (fun img i => zeroSection imageSize img (table.sectionAt f img i)) img

def sectionProt (s : ImageSectionHeader) : Prot where
  read := s.characteristics &&& scnMemRead ≠ 0
  write := s.characteristics &&& scnMemWrite ≠ 0
  exec := s.characteristics &&& scnMemExecute ≠ 0

/-- The protections of an image, by RVA, after those of the `n` bytes from `a` on were set. -/
def setProt (prot : ℕ → Prot) (a n : ℕ) (p : Prot) : ℕ → Prot := fun x =>
  if a ≤ x ∧ x < a + n then p else prot x

def protectSection {b : Build} (k : Kernel b) (base : Ptr) (imageSize : ℕ) (prot : ℕ → Prot)
    (s : ImageSectionHeader) : Option (ℕ → Prot) :=
  let va := s.virtualAddress.toNat
  let size := b.wrap (pageRoundUp (sectionSize s))
  if s.virtualSize = 0 ∧ s.sizeOfRawData = 0 then some prot
  else if !peRvaRangeIsValid va size imageSize then none
  else if !k.mprotect (base + va) size (sectionProt s) then none
  else some (setProt prot va size (sectionProt s))

def protectSections {b : Build} (k : Kernel b) (f : File) (base : Ptr) (imageSize num : ℕ)
    (table : SectionTable) (img : Bytes) (prot : ℕ → Prot) : Option (ℕ → Prot) :=
  (List.range num).foldlM
    (fun prot i => protectSection k base imageSize prot (table.sectionAt f img i)) prot

/-! ### `map_image_at` -/

/-- The headers of a file that the parser accepts, with the offset of the section table. -/
structure ParsedHeaders where
  nt : ImageNtHeaders
  sections : ℕ

def parseHeaders (b : Build) (f : File) : Option ParsedHeaders := do
  let dos ← parseDosHeader f
  let nt ← parseNtHeaders b f dos
  let sections ← parseSections b f nt
  return ⟨nt, sections⟩

/-- A mapped image: its address, its bytes and its protections by RVA. -/
structure Image where
  base : Ptr
  byte : Bytes
  prot : ℕ → Prot

def addr32Limit : ℕ := 2 ^ 32

def pe32DefaultImageBase : Ptr := 0x00400000

def chooseImageBase (nt : ImageNtHeaders) (desiredBase : Ptr) : Ptr :=
  let imageBase :=
    if desiredBase ≠ 0 then
      if peIsPe32 nt ∧ addr32Limit ≤ desiredBase then pe32DefaultImageBase else desiredBase
    else if peIsPe32 nt then pe32DefaultImageBase
    else peImageBase nt
  if peIsPe32 nt then
    let imageBase := if addr32Limit ≤ imageBase then pe32DefaultImageBase else imageBase
    if addr32Limit < imageBase ∨ addr32Limit - imageBase < peSizeOfImage nt then
      pe32DefaultImageBase
    else imageBase
  else imageBase

/-- The address of the memory for the image: the one asked for, or any other if the program sees that
it was refused. -/
def reserveImage {b : Build} (k : Kernel b) (used : List Region) (nt : ImageNtHeaders)
    (desiredBase : Ptr) : Option Ptr :=
  let base := b.wrap (chooseImageBase nt desiredBase)
  let region := pages base (peSizeOfImage nt)
  if k.mapNoReplace used region then some base
  else if b = .x64 ∨ k.notPermitted region then k.mapAnywhere used (peSizeOfImage nt)
  else none

def freshImage {b : Build} (k : Kernel b) (base : Ptr) (imageSize : ℕ) : Bytes := fun x =>
  if x < pageRoundUp imageSize then 0 else k.around base x

def fillImage {b : Build} (k : Kernel b) (f : File) (h : ParsedHeaders) (base : Ptr) :
    Option Image := do
  let size := peSizeOfImage h.nt
  let num := peSectionCount h.nt
  let img ← copySections f size (readSectionTable f.byte h.sections num) (freshImage k base size)
  let img := copyHeaders f h.nt img
  let table := imageTable h.nt h.sections img
  let img ← zeroSections f size num table img
  let img ← applyRelocations b base h.nt img
  let prot ← protectSections k f base size num table img fun _ => Prot.all
  return ⟨base, img, prot⟩

def mapParsed {b : Build} (k : Kernel b) (used : List Region) (f : File) (h : ParsedHeaders)
    (desiredBase : Ptr) : Option Image :=
  if peSizeOfImage h.nt = 0 then none
  else if f.size < peSizeOfHeaders h.nt ∨ peSizeOfImage h.nt < peSizeOfHeaders h.nt then none
  else
    match reserveImage k used h.nt desiredBase with
    | none => none
    | some base => fillImage k f h base

def pePathSize : ℕ := 512

/-- The fields of the loader state that `map_image_at` writes. -/
structure MainImage where
  imageBase : Ptr
  imageSize : ℕ
  is32bit : Bool
  pePath : CString
  pePath_lt : pePath.length < pePathSize
  deriving DecidableEq

def MainImage.setPePath (g : MainImage) (path : CString) : MainImage :=
  { g with
    pePath := path.take (pePathSize - 1)
    pePath_lt := by rw [CString.take_length, pePathSize]; omega }

def MainImage.init : MainImage := ⟨0, 0, false, .ofString "", by decide⟩

/-- `map_image_at`.  `file` is the file at `path`, unless it cannot be opened and mapped. -/
def mapImageAt {b : Build} (k : Kernel b) (used : List Region) (path : CString)
    (file : Option File) (desiredBase : Ptr) (g : MainImage) : Option (Image × ImageNtHeaders) ×
    MainImage :=
  let g := g.setPePath path
  match file with
  | none => (none, g)
  | some f =>
    match parseHeaders b f with
    | none => (none, g)
    | some h =>
      let g := { g with is32bit := peIsPe32 h.nt }
      match mapParsed k used f h desiredBase with
      | none => (none, g)
      | some img =>
        (some (img, h.nt), { g with imageBase := img.base, imageSize := peSizeOfImage h.nt })

/-! ### What a mapping that succeeds has done -/

variable {b : Build} {f : File} {h : ParsedHeaders} {desiredBase : Ptr} {used : List Region}
  {img : Image}

theorem parseHeaders_spec (hparse : parseHeaders b f = some h) :
  parseDosHeader f = some (readDosHeader f.byte 0) ∧
    h.nt = readNtHeaders f.byte (readDosHeader f.byte 0).eLfanew.toNat h.nt.peType ∧
    parseSections b f h.nt = some h.sections
  := by
  simp only [parseHeaders, bind_eq_bind, bind_eq_some_iff, pure_def,
    some.injEq] at hparse
  obtain ⟨dos, hdos, nt, hnt, sections, hsections, rfl⟩ := hparse
  have hread : dos = readDosHeader f.byte 0 := by
    rw [parseDosHeader] at hdos
    split_ifs at hdos
    cases hdos
    rfl
  subst hread
  exact ⟨hdos, parseNtHeaders_spec hnt, hsections⟩

theorem parseHeaders_magic (hparse : parseHeaders b f = some h) :
  peTypeOfMagic (f.byte.u16 ((readDosHeader f.byte 0).eLfanew.toNat + 24)) = some h.nt.peType ∧
    h.nt = readNtHeaders f.byte (readDosHeader f.byte 0).eLfanew.toNat h.nt.peType
  := by
  obtain ⟨hdos, hread, -⟩ := parseHeaders_spec hparse
  refine ⟨?_, hread⟩
  simp only [parseHeaders, hdos, bind_eq_bind, bind_some, bind_eq_some_iff,
    pure_def, some.injEq] at hparse
  obtain ⟨nt, hnt, sections, -, rfl⟩ := hparse
  apply (parseNtHeaders_magic hnt).1

theorem reserveImage_spec {k : Kernel b} {nt : ImageNtHeaders} {base : Ptr}
    (h : reserveImage k used nt desiredBase = some base) :
  Usable b (pages base (peSizeOfImage nt)) ∧
    ∀ u ∈ used, (pages base (peSizeOfImage nt)).Apart u
  := by
  simp only [reserveImage] at h
  split at h
  · next hmap =>
    rw [some.injEq] at h
    subst h
    apply k.mapNoReplace_spec hmap
  · split at h
    · apply k.mapAnywhere_spec h
    · cases h

theorem fillImage_spec {k : Kernel b} {base : Ptr} (hfill : fillImage k f h base = some img) :
  img.base = base ∧ ∃ copied zeroed,
    copySections f (peSizeOfImage h.nt) (readSectionTable f.byte h.sections (peSectionCount h.nt))
      (freshImage k base (peSizeOfImage h.nt)) = some copied ∧
    zeroSections f (peSizeOfImage h.nt) (peSectionCount h.nt)
      (imageTable h.nt h.sections (copyHeaders f h.nt copied)) (copyHeaders f h.nt copied) =
        some zeroed ∧
    applyRelocations b base h.nt zeroed = some img.byte ∧
    protectSections k f base (peSizeOfImage h.nt) (peSectionCount h.nt)
      (imageTable h.nt h.sections (copyHeaders f h.nt copied)) img.byte (fun _ => Prot.all) =
        some img.prot
  := by
  simp only [fillImage, bind_eq_bind, bind_eq_some_iff, pure_def,
    some.injEq] at hfill
  obtain ⟨copied, hcopied, zeroed, hzeroed, byte, hbyte, prot, hprot, rfl⟩ := hfill
  exact ⟨rfl, copied, zeroed, hcopied, hzeroed, hbyte, hprot⟩

theorem mapParsed_spec {k : Kernel b} (hmap : mapParsed k used f h desiredBase = some img) :
  peSizeOfImage h.nt ≠ 0 ∧ peSizeOfHeaders h.nt ≤ f.size ∧
    peSizeOfHeaders h.nt ≤ peSizeOfImage h.nt ∧
    reserveImage k used h.nt desiredBase = some img.base ∧
    fillImage k f h img.base = some img
  := by
  rw [mapParsed] at hmap
  split_ifs at hmap with hsize hheaders
  rw [not_or, not_lt, not_lt] at hheaders
  cases hbase : reserveImage k used h.nt desiredBase with
  | none => simp [hbase] at hmap
  | some base =>
    simp only [hbase] at hmap
    rw [(fillImage_spec hmap).1]
    exact ⟨hsize, hheaders.1, hheaders.2, rfl, hmap⟩

theorem mapImageAt_spec {k : Kernel b} {path : CString} {file : Option File} {g g' : MainImage}
    {nt : ImageNtHeaders} (h : mapImageAt k used path file desiredBase g = (some (img, nt), g')) :
  ∃ f hdr, file = some f ∧ parseHeaders b f = some hdr ∧ hdr.nt = nt ∧
    mapParsed k used f hdr desiredBase = some img
  := by
  cases file with
  | none => simp [mapImageAt] at h
  | some f =>
    cases hparse : parseHeaders b f with
    | none => simp [mapImageAt, hparse] at h
    | some hdr =>
      cases hmap : mapParsed k used f hdr desiredBase with
      | none => simp [mapImageAt, hparse, hmap] at h
      | some img' =>
        simp only [mapImageAt, hparse, hmap, Prod.mk.injEq, some.injEq] at h
        obtain ⟨⟨rfl, rfl⟩, -⟩ := h
        exact ⟨f, hdr, rfl, hparse, rfl, hmap⟩

theorem mapParsed_of_mapImageAt {k : Kernel b} {path : CString} {g g' : MainImage} {nt : ImageNtHeaders}
    (hparse : parseHeaders b f = some h)
    (hmap : mapImageAt k used path (some f) desiredBase g = (some (img, nt), g')) :
  nt = h.nt ∧ mapParsed k used f h desiredBase = some img
  := by
  obtain ⟨f', h', hf, hparse', rfl, hmap⟩ := mapImageAt_spec hmap
  cases hf
  cases hparse.symm.trans hparse'
  exact ⟨rfl, hmap⟩

end Loader
