import MyWine.Basic
import MyWine.Lib.Bytes

/-!
# The headers of a PE file

The structures of `include/pe.h` with the fields that the loader reads, and the parser of
`pe_headers.c`.  A structure is read from the bytes of a file or of a mapped image at an offset;
PE32 and PE32+ files keep some fields of the optional header at different offsets and in different
widths.  `parseDosHeader`, `parseNtHeaders` and `parseSections` check a file before they read it.
-/

/-- A file: its size and its bytes.  The bytes past the size are whatever follows the mapping of
the file. -/
structure File where
  size : ℕ
  byte : Bytes

/-- A file of zeros but for some numbers, each given by its offset, its width and its value. -/
def File.ofFields (size : ℕ) (fields : List (ℕ × ℕ × ℕ)) : File where
  size := size
  byte := fields.foldl (fun m field => Bytes.writeLE m field.1 field.2.1 field.2.2) fun _ => 0

namespace Pe

inductive PeType where
  | pe32
  | pe64
  deriving DecidableEq, Repr

/-! ### The structures -/

structure ImageDosHeader where
  eMagic : UInt16
  eLfanew : UInt32
  deriving DecidableEq

structure ImageDataDirectory where
  virtualAddress : UInt32
  size : UInt32
  deriving DecidableEq

structure ImageFileHeader where
  machine : UInt16
  numberOfSections : UInt16
  timeDateStamp : UInt32
  pointerToSymbolTable : UInt32
  numberOfSymbols : UInt32
  sizeOfOptionalHeader : UInt16
  characteristics : UInt16
  deriving DecidableEq

/-- `IMAGE_OPTIONAL_HEADER32` and `IMAGE_OPTIONAL_HEADER64`. -/
structure ImageOptionalHeader where
  addressOfEntryPoint : UInt32
  imageBase : UInt64
  sizeOfImage : UInt32
  sizeOfHeaders : UInt32
  sizeOfStackReserve : UInt64
  sizeOfStackCommit : UInt64
  numberOfRvaAndSizes : UInt32
  dataDirectory : Fin 16 → ImageDataDirectory

structure ImageNtHeaders where
  peType : PeType
  fileHeader : ImageFileHeader
  optionalHeader : ImageOptionalHeader

structure ImageSectionHeader where
  virtualSize : UInt32
  virtualAddress : UInt32
  sizeOfRawData : UInt32
  pointerToRawData : UInt32
  characteristics : UInt32
  deriving DecidableEq

def sizeofDosHeader : ℕ := 64

def sizeofFileHeader : ℕ := 20

def sizeofSectionHeader : ℕ := 40

def sizeofOptionalHeader : PeType → ℕ
  | .pe32 => 224
  | .pe64 => 240

def sizeofNtHeaders (t : PeType) : ℕ := 4 + sizeofFileHeader + sizeofOptionalHeader t

/-! ### Reading the structures -/

def readDosHeader (m : Bytes) (off : ℕ) : ImageDosHeader where
  eMagic := m.u16 off
  eLfanew := m.u32 (off + 60)

def readFileHeader (m : Bytes) (off : ℕ) : ImageFileHeader where
  machine := m.u16 off
  numberOfSections := m.u16 (off + 2)
  timeDateStamp := m.u32 (off + 4)
  pointerToSymbolTable := m.u32 (off + 8)
  numberOfSymbols := m.u32 (off + 12)
  sizeOfOptionalHeader := m.u16 (off + 16)
  characteristics := m.u16 (off + 18)

def readDataDirectory (m : Bytes) (off : ℕ) : ImageDataDirectory where
  virtualAddress := m.u32 off
  size := m.u32 (off + 4)

/-- The optional header at `off`.  The fields of a PE32 header are widened to those of PE32+. -/
def readOptionalHeader (m : Bytes) (off : ℕ) : PeType → ImageOptionalHeader
  | .pe32 =>
    { addressOfEntryPoint := m.u32 (off + 16)
      imageBase := (m.u32 (off + 28)).toUInt64
      sizeOfImage := m.u32 (off + 56)
      sizeOfHeaders := m.u32 (off + 60)
      sizeOfStackReserve := (m.u32 (off + 72)).toUInt64
      sizeOfStackCommit := (m.u32 (off + 76)).toUInt64
      numberOfRvaAndSizes := m.u32 (off + 92)
      dataDirectory := fun i => readDataDirectory m (off + 96 + 8 * i) }
  | .pe64 =>
    { addressOfEntryPoint := m.u32 (off + 16)
      imageBase := m.u64 (off + 24)
      sizeOfImage := m.u32 (off + 56)
      sizeOfHeaders := m.u32 (off + 60)
      sizeOfStackReserve := m.u64 (off + 72)
      sizeOfStackCommit := m.u64 (off + 80)
      numberOfRvaAndSizes := m.u32 (off + 108)
      dataDirectory := fun i => readDataDirectory m (off + 112 + 8 * i) }

def readNtHeaders (m : Bytes) (off : ℕ) (t : PeType) : ImageNtHeaders where
  peType := t
  fileHeader := readFileHeader m (off + 4)
  optionalHeader := readOptionalHeader m (off + 24) t

theorem readNtHeaders_congr {m m' : Bytes} {off : ℕ} {t : PeType}
    (h : ∀ x, off ≤ x → x < off + sizeofNtHeaders t → m x = m' x) :
  readNtHeaders m off t = readNtHeaders m' off t
  := by
  have h16 : ∀ i, i + 2 ≤ sizeofNtHeaders t → m.u16 (off + i) = m'.u16 (off + i) := by
    intro i hi
    rw [Bytes.u16, Bytes.u16, Bytes.readLE_congr]
    intro x hx hlt
    apply h x (by omega) (by omega)
  have h32 : ∀ i, i + 4 ≤ sizeofNtHeaders t → m.u32 (off + i) = m'.u32 (off + i) := by
    intro i hi
    rw [Bytes.u32, Bytes.u32, Bytes.readLE_congr]
    intro x hx hlt
    apply h x (by omega) (by omega)
  have h64 : ∀ i, i + 8 ≤ sizeofNtHeaders t → m.u64 (off + i) = m'.u64 (off + i) := by
    intro i hi
    rw [Bytes.u64, Bytes.u64, Bytes.readLE_congr]
    intro x hx hlt
    apply h x (by omega) (by omega)
  have hfile : readFileHeader m (off + 4) = readFileHeader m' (off + 4) := by
    have hsize : 24 ≤ sizeofNtHeaders t := by
      cases t <;> decide
    simp only [readFileHeader, Nat.add_assoc, Nat.reduceAdd]
    rw [h16 4 (by omega), h16 6 (by omega), h32 8 (by omega), h32 12 (by omega),
      h32 16 (by omega), h16 20 (by omega), h16 22 (by omega)]
  have hoptional : readOptionalHeader m (off + 24) t = readOptionalHeader m' (off + 24) t := by
    cases t with
    | pe32 =>
      have hsize : sizeofNtHeaders .pe32 = 248 := rfl
      simp only [readOptionalHeader, readDataDirectory, Nat.add_assoc, Nat.reduceAdd]
      rw [h32 40 (by omega), h32 52 (by omega), h32 80 (by omega), h32 84 (by omega),
        h32 96 (by omega), h32 100 (by omega), h32 116 (by omega)]
      congr 1
      funext i
      rw [h32 (120 + 8 * i.val) (by omega), h32 (120 + (8 * i.val + 4)) (by omega)]
    | pe64 =>
      have hsize : sizeofNtHeaders .pe64 = 264 := rfl
      simp only [readOptionalHeader, readDataDirectory, Nat.add_assoc, Nat.reduceAdd]
      rw [h32 40 (by omega), h64 48 (by omega), h32 80 (by omega), h32 84 (by omega),
        h64 96 (by omega), h64 104 (by omega), h32 132 (by omega)]
      congr 1
      funext i
      rw [h32 (136 + 8 * i.val) (by omega), h32 (136 + (8 * i.val + 4)) (by omega)]
  rw [readNtHeaders, readNtHeaders, hfile, hoptional]

def readSectionHeader (m : Bytes) (off : ℕ) : ImageSectionHeader where
  virtualSize := m.u32 (off + 8)
  virtualAddress := m.u32 (off + 12)
  sizeOfRawData := m.u32 (off + 16)
  pointerToRawData := m.u32 (off + 20)
  characteristics := m.u32 (off + 36)

theorem readSectionHeader_congr {m m' : Bytes} {off : ℕ}
    (h : ∀ x, off ≤ x → x < off + sizeofSectionHeader → m x = m' x) :
  readSectionHeader m off = readSectionHeader m' off
  := by
  have hfield : ∀ i, i + 4 ≤ sizeofSectionHeader → m.u32 (off + i) = m'.u32 (off + i) := by
    intro i hi
    rw [Bytes.u32, Bytes.u32, Bytes.readLE_congr]
    intro x hx hlt
    apply h x (by omega) (by omega)
  simp only [readSectionHeader, hfield _ (show 8 + 4 ≤ sizeofSectionHeader by decide),
    hfield _ (show 12 + 4 ≤ sizeofSectionHeader by decide),
    hfield _ (show 16 + 4 ≤ sizeofSectionHeader by decide),
    hfield _ (show 20 + 4 ≤ sizeofSectionHeader by decide),
    hfield _ (show 36 + 4 ≤ sizeofSectionHeader by decide)]

def readSectionTable (m : Bytes) (off num : ℕ) : List ImageSectionHeader :=
  (List.range num).map fun i => readSectionHeader m (off + sizeofSectionHeader * i)

/-! ### Accessors -/

def peIsPe32 (nt : ImageNtHeaders) : Bool := nt.peType == .pe32

def peImageBase (nt : ImageNtHeaders) : ℕ := nt.optionalHeader.imageBase.toNat

def peEntryRva (nt : ImageNtHeaders) : ℕ := nt.optionalHeader.addressOfEntryPoint.toNat

def peSectionCount (nt : ImageNtHeaders) : ℕ := nt.fileHeader.numberOfSections.toNat

def peSizeOfImage (nt : ImageNtHeaders) : ℕ := nt.optionalHeader.sizeOfImage.toNat

def peSizeOfHeaders (nt : ImageNtHeaders) : ℕ := nt.optionalHeader.sizeOfHeaders.toNat

def peOptionalHeaderSize (nt : ImageNtHeaders) : ℕ := nt.fileHeader.sizeOfOptionalHeader.toNat

def pePointerToSymbolTable (nt : ImageNtHeaders) : ℕ := nt.fileHeader.pointerToSymbolTable.toNat

def peNumberOfSymbols (nt : ImageNtHeaders) : ℕ := nt.fileHeader.numberOfSymbols.toNat

def peCharacteristics (nt : ImageNtHeaders) : UInt16 := nt.fileHeader.characteristics

def peGetDataDir (nt : ImageNtHeaders) (index : Fin 16) : Option ImageDataDirectory :=
  if nt.optionalHeader.numberOfRvaAndSizes.toNat ≤ index then none
  else some (nt.optionalHeader.dataDirectory index)

def directoryEntryExport : Fin 16 := 0

def directoryEntryImport : Fin 16 := 1

def directoryEntryBasereloc : Fin 16 := 5

def safePtrAt (offset len fileSize : ℕ) : Bool := len ≤ fileSize && offset ≤ fileSize - len

def peRvaRangeIsValid (rva len imageSize : ℕ) : Bool := len ≤ imageSize && rva ≤ imageSize - len

theorem peRvaRangeIsValid_iff {rva len imageSize : ℕ} :
  peRvaRangeIsValid rva len imageSize = true ↔ rva + len ≤ imageSize
  := by
  simp only [peRvaRangeIsValid, Bool.and_eq_true, decide_eq_true_eq]
  omega

theorem safePtrAt_iff {offset len fileSize : ℕ} :
  safePtrAt offset len fileSize = true ↔ offset + len ≤ fileSize
  := by
  simp only [safePtrAt, Bool.and_eq_true, decide_eq_true_eq]
  omega

/-! ### Parsing a file -/

def parseDosHeader (f : File) : Option ImageDosHeader :=
  if f.size < sizeofDosHeader then none
  else if (readDosHeader f.byte 0).eMagic ≠ 0x5A4D then none
  else some (readDosHeader f.byte 0)

def peTypeOfMagic (magic : UInt16) : Option PeType :=
  if magic = 0x10B then some .pe32 else if magic = 0x20B then some .pe64 else none

/-- `parse_nt_headers`.  Offsets are kept in `uint32_t`, and compared after an addition in
`size_t`. -/
def parseNtHeaders (b : Build) (f : File) (dos : ImageDosHeader) : Option ImageNtHeaders :=
  let peOffset := dos.eLfanew.toNat
  let fileHeaderOff := (peOffset + 4) % 2 ^ 32
  let optHeaderOff := (fileHeaderOff + sizeofFileHeader) % 2 ^ 32
  let fileHdr := readFileHeader f.byte fileHeaderOff
  if f.size < b.wrap (peOffset + 4) then none
  else if !safePtrAt peOffset 4 f.size || f.byte.u32 peOffset ≠ 0x4550 then none
  else if f.size < b.wrap (fileHeaderOff + sizeofFileHeader) then none
  else if !safePtrAt fileHeaderOff sizeofFileHeader f.size then none
  else if fileHdr.machine ≠ 0x8664 ∧ fileHdr.machine ≠ 0x14c then none
  else if f.size < b.wrap (optHeaderOff + 2) then none
  else if !safePtrAt optHeaderOff 2 f.size then none
  else
    match peTypeOfMagic (f.byte.u16 optHeaderOff) with
    | none => none
    | some t =>
      if fileHdr.sizeOfOptionalHeader.toNat < sizeofOptionalHeader t then none
      else if 2 ^ 32 - 1 - sizeofNtHeaders t < peOffset ∨
          f.size < b.wrap (peOffset + sizeofNtHeaders t) then none
      else if !safePtrAt peOffset (sizeofNtHeaders t) f.size then none
      else some (readNtHeaders f.byte peOffset t)

variable {b : Build} {dos : ImageDosHeader} {f : File} {nt : ImageNtHeaders}

theorem parseNtHeaders_spec (h : parseNtHeaders b f dos = some nt) :
  nt = readNtHeaders f.byte dos.eLfanew.toNat nt.peType
  := by
  simp only [parseNtHeaders] at h
  split_ifs at h
  split at h
  · cases h
  · next t _ =>
    split_ifs at h
    cases h
    rfl

/-- The headers that the parser accepts have one of the two magic numbers, and end before the
offset `2 ^ 32`. -/
theorem parseNtHeaders_magic (h : parseNtHeaders b f dos = some nt) :
  peTypeOfMagic (f.byte.u16 (dos.eLfanew.toNat + 24)) = some nt.peType ∧
    dos.eLfanew.toNat + sizeofNtHeaders nt.peType < 2 ^ 32 ∧
    dos.eLfanew.toNat + sizeofNtHeaders nt.peType ≤ f.size
  := by
  simp only [parseNtHeaders] at h
  split_ifs at h
  split at h
  · cases h
  · next t ht =>
    split_ifs at h with hsize hlimit hfile
    cases h
    rw [Bool.not_eq_true, Bool.not_eq_false', safePtrAt_iff] at hfile
    have hrange : 24 ≤ sizeofNtHeaders t ∧ sizeofNtHeaders t ≤ 264 := by
      cases t <;> decide
    have hoff : ((dos.eLfanew.toNat + 4) % 2 ^ 32 + sizeofFileHeader) % 2 ^ 32 =
        dos.eLfanew.toNat + 24 := by
      rw [sizeofFileHeader]
      omega
    rw [hoff] at ht
    refine ⟨ht, ?_, hfile⟩
    simp only [readNtHeaders]
    omega

theorem sizeOfStackCommit_lt_of_pe32 {m : Bytes} {off : ℕ} (h : nt = readNtHeaders m off nt.peType)
    (hpe32 : peIsPe32 nt = true) :
  nt.optionalHeader.sizeOfStackCommit.toNat < 2 ^ 32
  := by
  rw [peIsPe32, beq_iff_eq] at hpe32
  rw [h, hpe32]
  apply UInt32.toNat_lt

def computeSectionTableOffset (b : Build) (dos : ImageDosHeader) (nt : ImageNtHeaders) : ℤ :=
  (Int32.ofNat (b.wrap (dos.eLfanew.toNat + 4 + sizeofFileHeader + peOptionalHeaderSize nt))).toInt

/-- `parse_sections`: the offset of the section table in the file, whose raw data must lie inside
the file. -/
def parseSections (b : Build) (f : File) (nt : ImageNtHeaders) : Option ℕ :=
  let num := peSectionCount nt
  let sectionTableSize := num * sizeofSectionHeader
  if !safePtrAt 0 sizeofDosHeader f.size || (readDosHeader f.byte 0).eMagic ≠ 0x5A4D then none
  else
    let secTableOff := computeSectionTableOffset b (readDosHeader f.byte 0) nt
    if secTableOff < 0 ∨ f.size < b.wrap (secTableOff.toNat + sectionTableSize) then none
    else if !safePtrAt secTableOff.toNat sectionTableSize f.size then none
    else if (readSectionTable f.byte secTableOff.toNat num).all fun s =>
        s.pointerToRawData = 0 ||
          b.wrap (s.pointerToRawData.toNat + s.sizeOfRawData.toNat) ≤ f.size
      then some secTableOff.toNat
    else none

theorem toNat_computeSectionTableOffset (h : ¬ computeSectionTableOffset b dos nt < 0) :
  (computeSectionTableOffset b dos nt).toNat =
    (dos.eLfanew.toNat + 4 + sizeofFileHeader + peOptionalHeaderSize nt) % 2 ^ 32
  := by
  rw [computeSectionTableOffset] at h ⊢
  generalize dos.eLfanew.toNat + 4 + sizeofFileHeader + peOptionalHeaderSize nt = n at *
  have hwrap : b.wrap n % 2 ^ 32 = n % 2 ^ 32 := by
    cases b
    · apply Nat.mod_mod_of_dvd n (show 2 ^ 32 ∣ 256 ^ 8 by decide)
    · apply Nat.mod_mod
  have hsize : Int32.size = 2 ^ 32 := rfl
  rw [Int32.toInt_ofNat', hsize, Int.bmod_def] at h ⊢
  split_ifs at h ⊢
  · omega
  · omega

theorem parseSections_spec {sections : ℕ} (h : parseSections b f nt = some sections) :
  sections = ((readDosHeader f.byte 0).eLfanew.toNat + 4 + sizeofFileHeader +
    peOptionalHeaderSize nt) % 2 ^ 32
  := by
  simp only [parseSections] at h
  split_ifs at h with hdos hoff hptr hall
  cases h
  apply toNat_computeSectionTableOffset fun hneg => hoff (Or.inl hneg)

/-- The section table lies in the file, and so does the raw data of each section as far as `size_t`
can tell. -/
theorem parseSections_inFile {sections : ℕ} (h : parseSections b f nt = some sections) :
  sections + peSectionCount nt * sizeofSectionHeader ≤ f.size ∧
    ∀ s ∈ readSectionTable f.byte sections (peSectionCount nt), s.pointerToRawData ≠ 0 →
      b.wrap (s.pointerToRawData.toNat + s.sizeOfRawData.toNat) ≤ f.size
  := by
  simp only [parseSections] at h
  split_ifs at h with hdos hoff hptr hall
  cases h
  rw [Bool.not_eq_true, Bool.not_eq_false', safePtrAt_iff] at hptr
  use hptr
  intro s hs hne
  have hs := List.all_eq_true.mp hall s hs
  rw [Bool.or_eq_true, decide_eq_true_eq, decide_eq_true_eq] at hs
  apply hs.resolve_left hne

/-- The headers of a PE32 file without sections whose preferred base is `0x00400000`, as fields of
`File.ofFields`. -/
def pe32Headers (sizeOfImage sizeOfHeaders : ℕ) : List (ℕ × ℕ × ℕ) :=
  [(0, 2, 0x5A4D), (60, 4, 64), (64, 4, 0x4550), (68, 2, 0x14C), (84, 2, 224), (88, 2, 0x10B),
    (116, 4, 0x00400000), (144, 4, sizeOfImage), (148, 4, sizeOfHeaders)]

def pe64Headers (sizeOfImage sizeOfHeaders : ℕ) : List (ℕ × ℕ × ℕ) :=
  [(0, 2, 0x5A4D), (60, 4, 64), (64, 4, 0x4550), (68, 2, 0x8664), (84, 2, 240), (88, 2, 0x20B),
    (112, 8, 0x140000000), (144, 4, sizeOfImage), (148, 4, sizeOfHeaders)]

end Pe
