import MyWine.Lib.Patch
import MyWine.Loader.ImageMapper

/-!
# The content of a mapped image

The image of a file at its preferred base holds the headers of the file, the raw data of its
sections, and zeros elsewhere, and the pages of each section have the protection that the section
asks for (`HoldsFile`).  Every pass of `map_image_at` is a list of patches of the image, one for
each section (`copyPatch`, `zeroPatch`, `protPatch`), provided that the passes after the copy of
the headers find the section table in the image as it is in the file.

They do when the copied headers contain it (`Covered`).  When `SizeOfHeaders` ends before the
section table, those passes read the zeros or the raw data that happen to be there.
-/

open Pe

namespace Loader

open List Option

/-! ### The specification -/

def ParsedHeaders.table (h : ParsedHeaders) (f : File) : List ImageSectionHeader :=
  readSectionTable f.byte h.sections (peSectionCount h.nt)

def headersRegion (nt : ImageNtHeaders) : Region := ⟨0, peSizeOfHeaders nt⟩

def sectionRegion (s : ImageSectionHeader) : Region :=
  ⟨s.virtualAddress.toNat, max s.virtualSize.toNat s.sizeOfRawData.toNat⟩

def rawRegion (s : ImageSectionHeader) : Region :=
  ⟨s.virtualAddress.toNat, s.sizeOfRawData.toNat⟩

def sectionPages (s : ImageSectionHeader) : Region :=
  ⟨s.virtualAddress.toNat, pageRoundUp (sectionSize s)⟩

def FileBacked (s : ImageSectionHeader) : Prop :=
  s.sizeOfRawData ≠ 0 ∧ hasFilePayload s = true

def SectionsApart (f : File) (h : ParsedHeaders) : Prop :=
  (h.table f).Pairwise fun s t => ∀ x ∈ sectionRegion s, x ∉ sectionRegion t

/-- No section overlaps the headers or another section. -/
structure Separate (f : File) (h : ParsedHeaders) : Prop where
  headers : ∀ s ∈ h.table f, ∀ x ∈ headersRegion h.nt, x ∉ sectionRegion s
  sections : SectionsApart f h

/-- The image holds the headers, the raw data of the sections and zeros elsewhere, and its pages
have the protections of the sections. -/
structure HoldsFile (f : File) (h : ParsedHeaders) (img : Image) : Prop where
  headers : ∀ x ∈ headersRegion h.nt, img.byte x = f.byte x
  raw : ∀ s ∈ h.table f, FileBacked s → ∀ x ∈ rawRegion s,
    img.byte x = f.byte (s.pointerToRawData.toNat + (x - s.virtualAddress.toNat))
  zero : ∀ x, x ∉ headersRegion h.nt → (∀ s ∈ h.table f, FileBacked s → x ∉ rawRegion s) →
    x < peSizeOfImage h.nt → img.byte x = 0
  prot : ∀ s ∈ h.table f, sectionSize s ≠ 0 → ∀ x ∈ sectionPages s, img.prot x = sectionProt s
  prot_else : ∀ x, (∀ s ∈ h.table f, sectionSize s ≠ 0 → x ∉ sectionPages s) →
    img.prot x = Prot.all

/-- The headers that are copied into the image contain the section table, or are not used to find
it. -/
def TableCovered (h : ParsedHeaders) : Prop :=
  peSizeOfHeaders h.nt = 0 ∨ peSectionCount h.nt = 0 ∨
    sizeofDosHeader ≤ peSizeOfHeaders h.nt ∧
      h.sections + sizeofSectionHeader * peSectionCount h.nt ≤ peSizeOfHeaders h.nt

/-- The section table is covered, the raw data of a section without initialised data ends with the
section, and the size of the pages of a section is a `size_t`. -/
structure Covered (b : Build) (f : File) (h : ParsedHeaders) : Prop where
  table : TableCovered h
  uninitialized : ∀ s ∈ h.table f, s.pointerToRawData ≠ 0 →
    s.characteristics &&& scnCntUninitializedData ≠ 0 →
    s.virtualSize = 0 ∨ s.sizeOfRawData ≤ s.virtualSize
  size : ∀ s ∈ h.table f, pageRoundUp (sectionSize s) < b.ptrLimit

/-! ### The passes as patches -/

def copyPatch (f : File) (s : ImageSectionHeader) : Patch UInt8 where
  region := ⟨s.virtualAddress.toNat,
    if s.sizeOfRawData = 0 ∨ s.pointerToRawData = 0 then 0 else s.sizeOfRawData.toNat⟩
  value x := f.byte (s.pointerToRawData.toNat + (x - s.virtualAddress.toNat))

def headersPatch (f : File) (nt : ImageNtHeaders) : Patch UInt8 := ⟨headersRegion nt, f.byte⟩

def zeroPatch (s : ImageSectionHeader) : Patch UInt8 where
  region := ⟨s.virtualAddress.toNat, if hasFilePayload s then 0 else sectionSize s⟩
  value _ := 0

def protPatch (s : ImageSectionHeader) : Patch Prot where
  region := sectionPages s
  value _ := sectionProt s

variable {s : ImageSectionHeader} {x imageSize : ℕ}

theorem mem_copyPatch_iff {f : File} :
  x ∈ (copyPatch f s).region ↔
    s.sizeOfRawData ≠ 0 ∧ s.pointerToRawData ≠ 0 ∧ x ∈ rawRegion s
  := by
  simp only [copyPatch, rawRegion, Region.mem_iff]
  split_ifs with hskip
  · constructor
    · omega
    · rintro ⟨hraw, hptr, -⟩
      rcases hskip with h | h
      · cases hraw h
      · cases hptr h
  · rw [not_or] at hskip
    simp [hskip.1, hskip.2]

theorem mem_zeroPatch_iff :
  x ∈ (zeroPatch s).region ↔ hasFilePayload s = false ∧
    x ∈ (⟨s.virtualAddress.toNat, sectionSize s⟩ : Region)
  := by
  simp only [zeroPatch, Region.mem_iff]
  split_ifs with hpayload
  · simp only [hpayload, Bool.true_eq_false, false_and, iff_false]
    omega
  · simp [Bool.eq_false_of_not_eq_true hpayload]

theorem sectionSize_le (s : ImageSectionHeader) :
  sectionSize s ≤ max s.virtualSize.toNat s.sizeOfRawData.toNat
  := by
  rw [sectionSize]
  split_ifs
  · apply le_max_right
  · apply le_max_left

theorem mem_sectionRegion_of_raw (h : x ∈ rawRegion s) :
  x ∈ sectionRegion s
  := by
  simp only [rawRegion, sectionRegion, Region.mem_iff] at h ⊢
  omega

theorem mem_sectionRegion_of_size (h : x ∈ (⟨s.virtualAddress.toNat, sectionSize s⟩ : Region)) :
  x ∈ sectionRegion s
  := by
  have hle := sectionSize_le s
  simp only [sectionRegion, Region.mem_iff] at h ⊢
  omega

theorem mem_size_of_raw (hx : x ∈ rawRegion s)
    (h : s.virtualSize = 0 ∨ s.sizeOfRawData ≤ s.virtualSize) :
  x ∈ (⟨s.virtualAddress.toNat, sectionSize s⟩ : Region)
  := by
  have hle : s.sizeOfRawData.toNat ≤ sectionSize s := by
    rw [sectionSize]
    split_ifs with hzero
    · apply le_refl
    · apply UInt32.le_iff_toNat_le.mp (h.resolve_left hzero)
  simp only [rawRegion, Region.mem_iff] at hx ⊢
  omega

theorem sectionSize_ne_zero_of_mem (h : x ∈ sectionPages s) :
  sectionSize s ≠ 0
  := by
  simp only [sectionPages, Region.mem_iff, pageRoundUp] at h
  omega

theorem copySection_eq {f : File} {img img' : Bytes}
    (h : copySection f imageSize img s = some img') :
  img' = (copyPatch f s).apply img
  := by
  simp only [copySection] at h
  split_ifs at h with hskip hrange
  · cases h
    rw [Patch.apply_of_size_eq_zero]
    simp only [copyPatch, if_pos hskip]
  · cases h
    funext x
    simp only [Bytes.copy, Patch.apply, copyPatch, if_neg hskip, Region.mem_iff]

theorem copyHeaders_eq (f : File) (nt : ImageNtHeaders) (img : Bytes) :
  copyHeaders f nt img = (headersPatch f nt).apply img
  := by
  funext x
  simp [copyHeaders, Bytes.copy, Patch.apply, headersPatch, headersRegion, Region.mem_iff]

theorem copyHeaders_of_mem (f : File) (nt : ImageNtHeaders) (img : Bytes) :
  ∀ x ∈ headersRegion nt, copyHeaders f nt img x = f.byte x
  := by
  intro x hx
  rw [copyHeaders_eq]
  apply if_pos hx

theorem zeroSection_eq {img img' : Bytes} (h : zeroSection imageSize img s = some img') :
  img' = (zeroPatch s).apply img
  := by
  simp only [zeroSection] at h
  split_ifs at h with hpayload hsize hrange
  · cases h
    rw [Patch.apply_of_size_eq_zero]
    simp only [zeroPatch, if_pos hpayload]
  · cases h
    rw [Patch.apply_of_size_eq_zero]
    simp [zeroPatch, hsize]
  · cases h
    funext x
    simp only [Bytes.fill, Patch.apply, zeroPatch, if_neg hpayload, Region.mem_iff]

theorem protectSection_eq {b : Build} {k : Kernel b} {base : Ptr} {prot prot' : ℕ → Prot}
    (hbase : pageSize ∣ base) (hsize : pageRoundUp (sectionSize s) < b.ptrLimit)
    (h : protectSection k base imageSize prot s = some prot') :
  prot' = (protPatch s).apply prot ∧ (sectionSize s ≠ 0 → pageSize ∣ s.virtualAddress.toNat)
  := by
  simp only [protectSection, Build.wrap_of_lt hsize] at h
  split_ifs at h with hempty hrange hprotect
  · cases h
    have hzero : sectionSize s = 0 := by
      simp [sectionSize, hempty.1, hempty.2]
    constructor
    · rw [Patch.apply_of_size_eq_zero]
      simp only [protPatch, sectionPages, hzero]
      rfl
    · intro hne
      cases hne hzero
  · cases h
    constructor
    · funext x
      simp only [setProt, Patch.apply, protPatch, sectionPages, Region.mem_iff]
    · intro _
      rw [Bool.not_eq_true, Bool.not_eq_false'] at hprotect
      apply (Nat.dvd_add_right hbase).mp (k.mprotect_spec hprotect)

/-! ### The section table in the image -/

section

variable {b : Build} {f : File} {h : ParsedHeaders}

def tableRegion (h : ParsedHeaders) : Region :=
  ⟨h.sections, sizeofSectionHeader * peSectionCount h.nt⟩

def TableKept (f : File) (h : ParsedHeaders) (img : Bytes) : Prop :=
  ∀ x ∈ headersRegion h.nt, x ∈ tableRegion h → img x = f.byte x

/-- The sections that are filled with zeros leave the section table in the image as it is. -/
def TableApart (f : File) (h : ParsedHeaders) : Prop :=
  ∀ s ∈ h.table f, ∀ x ∈ (zeroPatch s).region, x ∈ headersRegion h.nt → x ∈ tableRegion h →
    f.byte x = 0

variable {img img' : Bytes} {imageSize : ℕ} {k : Kernel b} {s t : ImageSectionHeader}

theorem sectionAt_imageTable {i : ℕ} (hparse : parseSections b f h.nt = some h.sections)
    (hcovered : TableCovered h) (hi : i < peSectionCount h.nt)
    (himg : ∀ x ∈ headersRegion h.nt, img x = f.byte x)
    (himg' : TableKept f h img') :
  (imageTable h.nt h.sections img).sectionAt f img' i =
    readSectionHeader f.byte (h.sections + sizeofSectionHeader * i)
  := by
  rw [imageTable]
  split_ifs with hpos
  · rcases hcovered with hzero | hnone | ⟨hdos, htable⟩
    · omega
    · omega
    · have hmem : ∀ x, x ∈ headersRegion h.nt ↔ x < peSizeOfHeaders h.nt := by
        intro x
        simp [headersRegion, Region.mem_iff]
      have hlfanew : (readDosHeader img 0).eLfanew = (readDosHeader f.byte 0).eLfanew := by
        simp only [readDosHeader, Bytes.u32]
        rw [Bytes.readLE_congr]
        intro x _ hx
        apply himg x
        rw [hmem]
        simp only [sizeofDosHeader] at hdos
        omega
      rw [getImageSections, hlfanew, ← parseSections_spec hparse]
      apply readSectionHeader_congr
      intro x hle hx
      simp only [sizeofSectionHeader] at htable hle hx
      apply himg' x
      · rw [hmem]
        omega
      · simp only [tableRegion, Region.mem_iff, sizeofSectionHeader]
        omega
  · rfl

theorem copySections_eq {table : List ImageSectionHeader}
    (hcopy : copySections f imageSize table img = some img') :
  img' = Patch.applyAll (table.map (copyPatch f)) img
  := by
  refine (Patch.applyAll_of_foldlM (fun _ => True) ?_ trivial hcopy).1
  intro s _ m m' _ hstep
  exact ⟨copySection_eq hstep, trivial⟩

theorem map_range_sections {α : Type} (p : ImageSectionHeader → α) :
  ((List.range (peSectionCount h.nt)).map fun i =>
    p (readSectionHeader f.byte (h.sections + sizeofSectionHeader * i))) = (h.table f).map p
  := by
  rw [ParsedHeaders.table, readSectionTable, List.map_map]
  rfl

theorem mem_table {i : ℕ} (hi : i < peSectionCount h.nt) :
  readSectionHeader f.byte (h.sections + sizeofSectionHeader * i) ∈ h.table f
  := by
  apply List.mem_map_of_mem
  apply List.mem_range.mpr hi

theorem Separate.tableApart (hseparate : Separate f h) :
  TableApart f h
  := by
  intro s hs x hx hheaders
  cases hseparate.headers s hs x hheaders
    (mem_sectionRegion_of_size (mem_zeroPatch_iff.mp hx).2)

theorem zeroSections_eq (hparse : parseSections b f h.nt = some h.sections)
    (hcovered : TableCovered h) (hapart : TableApart f h)
    (himg : ∀ x ∈ headersRegion h.nt, img x = f.byte x)
    (hzero : zeroSections f imageSize (peSectionCount h.nt) (imageTable h.nt h.sections img) img =
      some img') :
  img' = Patch.applyAll ((h.table f).map zeroPatch) img ∧ TableKept f h img'
  := by
  rw [← map_range_sections]
  refine Patch.applyAll_of_foldlM (TableKept f h) ?_ (fun x hx _ => himg x hx) hzero
  intro i hi m m' hm hstep
  rw [mem_range] at hi
  simp only [sectionAt_imageTable hparse hcovered hi himg hm] at hstep
  have heq := zeroSection_eq hstep
  use heq
  intro x hx htable
  rw [heq, Patch.apply]
  split_ifs with hmem
  · rw [hapart _ (mem_table hi) x hmem hx htable]
    rfl
  · apply hm x hx htable

theorem protectSections_eq {base : Ptr} {prot prot' : ℕ → Prot}
    (hparse : parseSections b f h.nt = some h.sections) (hcovered : TableCovered h)
    (hsize : ∀ s ∈ h.table f, pageRoundUp (sectionSize s) < b.ptrLimit) (hbase : pageSize ∣ base)
    (himg : ∀ x ∈ headersRegion h.nt, img x = f.byte x)
    (himg' : TableKept f h img')
    (hprotect : protectSections k f base imageSize (peSectionCount h.nt)
      (imageTable h.nt h.sections img) img' prot = some prot') :
  prot' = Patch.applyAll ((h.table f).map protPatch) prot ∧
    ∀ s ∈ h.table f, sectionSize s ≠ 0 → pageSize ∣ s.virtualAddress.toNat
  := by
  rw [← map_range_sections]
  have hstep : ∀ i ∈ List.range (peSectionCount h.nt), ∀ m m',
      protectSection k base imageSize m ((imageTable h.nt h.sections img).sectionAt f img' i) =
        some m' →
      m' = (protPatch (readSectionHeader f.byte (h.sections + sizeofSectionHeader * i))).apply m ∧
        (sectionSize (readSectionHeader f.byte (h.sections + sizeofSectionHeader * i)) ≠ 0 →
          pageSize ∣ (readSectionHeader f.byte
            (h.sections + sizeofSectionHeader * i)).virtualAddress.toNat) := by
    intro i hi m m' hstep
    rw [mem_range] at hi
    rw [sectionAt_imageTable hparse hcovered hi himg himg'] at hstep
    apply protectSection_eq hbase (hsize _ (mem_table hi)) hstep
  constructor
  · refine (Patch.applyAll_of_foldlM (fun _ => True) ?_ trivial hprotect).1
    intro i hi m m' _ hm
    exact ⟨(hstep i hi m m' hm).1, trivial⟩
  · intro s hs
    obtain ⟨i, hi, rfl⟩ := mem_map.mp hs
    obtain ⟨m, m', hm⟩ := Patch.exists_of_foldlM hprotect hi
    apply (hstep i hi m m' hm).2

/-! ### The content of the image -/

theorem SectionsApart.eq_of_mem {x : ℕ} (hapart : SectionsApart f h) (hs : s ∈ h.table f)
    (ht : t ∈ h.table f) (hxs : x ∈ sectionRegion s) (hxt : x ∈ sectionRegion t) :
  s = t
  := by
  by_contra hne
  have : Std.Symm fun s t : ImageSectionHeader => ∀ x ∈ sectionRegion s, x ∉ sectionRegion t :=
    ⟨fun _ _ hst x hxt hxs => hst x hxs hxt⟩
  apply hapart.forall hs ht hne x hxs hxt

theorem SectionsApart.eq_of_start_mem_pages (hapart : SectionsApart f h)
    (haligned : ∀ s ∈ h.table f, sectionSize s ≠ 0 → pageSize ∣ s.virtualAddress.toNat)
    (hs : s ∈ h.table f) (ht : t ∈ h.table f) (hs0 : sectionSize s ≠ 0) (ht0 : sectionSize t ≠ 0)
    (hmem : t.virtualAddress.toNat ∈ sectionPages s) :
  s = t
  := by
  obtain ⟨m, hm⟩ := haligned s hs hs0
  obtain ⟨n, hn⟩ := haligned t ht ht0
  have hle := sectionSize_le s
  have hle' := sectionSize_le t
  apply hapart.eq_of_mem (x := t.virtualAddress.toNat) hs ht
  · simp only [sectionPages, sectionRegion, Region.mem_iff, pageRoundUp, pageSize]
      at hmem hm hn ⊢
    omega
  · simp only [sectionRegion, Region.mem_iff]
    omega

theorem SectionsApart.eq_of_mem_pages {x : ℕ} (hapart : SectionsApart f h)
    (haligned : ∀ s ∈ h.table f, sectionSize s ≠ 0 → pageSize ∣ s.virtualAddress.toNat)
    (hs : s ∈ h.table f) (ht : t ∈ h.table f) (hs0 : sectionSize s ≠ 0) (ht0 : sectionSize t ≠ 0)
    (hxs : x ∈ sectionPages s) (hxt : x ∈ sectionPages t) :
  s = t
  := by
  rcases le_total s.virtualAddress.toNat t.virtualAddress.toNat with hle | hle
  · apply hapart.eq_of_start_mem_pages haligned hs ht hs0 ht0
    exact ⟨hle, lt_of_le_of_lt hxt.1 hxs.2⟩
  · symm
    apply hapart.eq_of_start_mem_pages haligned ht hs ht0 hs0
    exact ⟨hle, lt_of_le_of_lt hxs.1 hxt.2⟩

theorem holdsFile_of_patches {base : Ptr} {img : Image} (hcovered : Covered b f h)
    (hseparate : Separate f h)
    (haligned : ∀ s ∈ h.table f, sectionSize s ≠ 0 → pageSize ∣ s.virtualAddress.toNat)
    (hbyte : img.byte = Patch.applyAll ((h.table f).map zeroPatch) ((headersPatch f h.nt).apply
      (Patch.applyAll ((h.table f).map (copyPatch f)) (freshImage k base (peSizeOfImage h.nt)))))
    (hprot : img.prot = Patch.applyAll ((h.table f).map protPatch) fun _ => Prot.all) :
  HoldsFile f h img
  where
  headers x hx := by
    rw [hbyte, Patch.applyAll_of_notMem]
    · apply if_pos hx
    · rw [List.forall_mem_map]
      intro s hs hmem
      apply hseparate.headers s hs x hx
      apply mem_sectionRegion_of_size (mem_zeroPatch_iff.mp hmem).2
  raw s hs hbacked x hx := by
    obtain ⟨hraw, hpayload⟩ := hbacked
    have hxs := mem_sectionRegion_of_raw hx
    rw [hbyte, Patch.applyAll_of_notMem, Patch.apply_of_notMem]
    · have hptr : s.pointerToRawData ≠ 0 := by
        simp only [hasFilePayload, Bool.and_eq_true, decide_eq_true_eq] at hpayload
        apply hpayload.1
      apply Patch.applyAll_of_mem
      · use copyPatch f s, mem_map_of_mem hs
        apply mem_copyPatch_iff.mpr ⟨hraw, hptr, hx⟩
      · rw [List.forall_mem_map]
        intro t ht hxt
        have heq := hseparate.sections.eq_of_mem hs ht hxs
          (mem_sectionRegion_of_raw (mem_copyPatch_iff.mp hxt).2.2)
        rw [← heq]
        rfl
    · intro hheaders
      apply hseparate.headers s hs x hheaders hxs
    · rw [List.forall_mem_map]
      intro t ht hxt
      obtain ⟨hnone, hxt⟩ := mem_zeroPatch_iff.mp hxt
      have heq := hseparate.sections.eq_of_mem hs ht hxs (mem_sectionRegion_of_size hxt)
      rw [← heq, hpayload] at hnone
      cases hnone
  zero x hheaders hnone hlt := by
    rw [hbyte]
    by_cases hzero : ∃ p ∈ (h.table f).map zeroPatch, x ∈ p.region
    · apply Patch.applyAll_of_mem _ hzero
      rw [List.forall_mem_map]
      intro s _ _
      rfl
    · have hzero : ∀ p ∈ (h.table f).map zeroPatch, x ∉ p.region :=
        fun p hp hx => hzero ⟨p, hp, hx⟩
      rw [Patch.applyAll_of_notMem _ hzero, Patch.apply_of_notMem _ hheaders,
        Patch.applyAll_of_notMem, freshImage, if_pos (lt_of_lt_of_le hlt (le_pageRoundUp _))]
      rw [List.forall_mem_map] at hzero ⊢
      intro s hs hmem
      obtain ⟨hraw, hptr, hx⟩ := mem_copyPatch_iff.mp hmem
      have hpayload : hasFilePayload s = false := by
        apply Bool.eq_false_of_not_eq_true
        intro hpayload
        apply hnone s hs ⟨hraw, hpayload⟩ hx
      apply hzero s hs
      apply mem_zeroPatch_iff.mpr
      use hpayload
      apply mem_size_of_raw hx
      apply hcovered.uninitialized s hs hptr
      intro hflag
      simp [hasFilePayload, hptr, hflag] at hpayload
  prot s hs hsize x hx := by
    rw [hprot]
    apply Patch.applyAll_of_mem
    · use protPatch s, mem_map_of_mem hs
      apply hx
    · rw [List.forall_mem_map]
      intro t ht hxt
      have hsize' : sectionSize t ≠ 0 := sectionSize_ne_zero_of_mem hxt
      rw [hseparate.sections.eq_of_mem_pages haligned hs ht hsize hsize' hx hxt]
      rfl
  prot_else x hnone := by
    rw [hprot, Patch.applyAll_of_notMem]
    rw [List.forall_mem_map]
    intro s hs hx
    apply hnone s hs (sectionSize_ne_zero_of_mem hx) hx

/-- The image of a file at its preferred base holds the file, if the copied headers cover the
section table. -/
theorem mapImageAt_holdsFile (k : Kernel b) (used : List Region) (path : CString)
    (desiredBase : Ptr) (g g' : MainImage) {img : Image} (hparse : parseHeaders b f = some h)
    (hmap : mapImageAt k used path (some f) desiredBase g = (some (img, h.nt), g'))
    (hbase : img.base = peImageBase h.nt) (hseparate : Separate f h) (hcovered : Covered b f h) :
  HoldsFile f h img
  := by
  obtain ⟨-, -, -, hreserve, hfill⟩ := mapParsed_spec (mapParsed_of_mapImageAt hparse hmap).2
  have haligned := (reserveImage_spec hreserve).1.aligned
  obtain ⟨-, copied, zeroed, hcopied, hzeroed, hbyte, hprot⟩ := fillImage_spec hfill
  obtain ⟨-, -, hsections⟩ := parseHeaders_spec hparse
  rw [applyRelocations_of_base_eq b zeroed hbase, some.injEq] at hbyte
  have hheaders := copyHeaders_of_mem f h.nt copied
  obtain ⟨hzeroed, hkept⟩ := zeroSections_eq hsections hcovered.table hseparate.tableApart
    hheaders hzeroed
  rw [hbyte] at hkept
  obtain ⟨hprot, hstarts⟩ :=
    protectSections_eq hsections hcovered.table hcovered.size haligned hheaders hkept hprot
  rw [copyHeaders_eq, copySections_eq hcopied] at hzeroed
  apply holdsFile_of_patches hcovered hseparate hstarts (hbyte.symm.trans hzeroed) hprot

theorem exists_mapImageAt_eq {used : List Region} {path : CString} {desiredBase : Ptr}
    {g : MainImage} {img : Image} {nt : ImageNtHeaders} (hparse : parseHeaders b f = some h)
    (himg : (mapImageAt k used path (some f) desiredBase g).1 = some (img, nt)) :
  nt = h.nt ∧ ∃ g', mapImageAt k used path (some f) desiredBase g = (some (img, h.nt), g')
  := by
  cases hmap : mapImageAt k used path (some f) desiredBase g with
  | mk result g' =>
    rw [hmap] at himg
    replace himg : result = some (img, nt) := himg
    subst himg
    rw [(mapParsed_of_mapImageAt hparse hmap).1]
    use rfl, g'

theorem SectionsApart.of_single (htable : h.table f = [s]) :
  SectionsApart f h
  := by
  rw [SectionsApart, htable]
  apply pairwise_singleton

theorem Separate.of_single (htable : h.table f = [s])
    (hsize : peSizeOfHeaders h.nt ≤ s.virtualAddress.toNat) :
  Separate f h
  where
  headers := by
    rw [htable]
    intro t ht x hx
    rw [mem_singleton.mp ht]
    simp only [headersRegion, sectionRegion, Region.mem_iff] at hx ⊢
    omega
  sections := .of_single htable

end

/-- A PE32 file with one section of code: the section table is at `312`, the raw data at `352`. -/
def codeFile (sizeOfHeaders : ℕ) : File :=
  .ofFields 368 (pe32Headers 0x2000 sizeOfHeaders ++ [(70, 2, 1), (320, 4, 0x1000),
    (324, 4, 0x1000), (328, 4, 16), (332, 4, 352), (348, 4, 0x60000020), (352, 1, 0xC3)])

def codeSection : ImageSectionHeader := ⟨0x1000, 0x1000, 16, 352, 0x60000020⟩

def mapCodeFile (sizeOfHeaders : ℕ) : Option (Image × ImageNtHeaders) × MainImage :=
  mapImageAt (.lenient .i386) [] (.ofString "a.exe") (some (codeFile sizeOfHeaders)) 0
    .init

/-- When the headers cover the section table, the page of the code cannot be written. -/
theorem codeFile_held :
  ∃ h img g, parseHeaders .i386 (codeFile 352) = some h ∧ Separate (codeFile 352) h ∧
    mapCodeFile 352 = (some (img, h.nt), g) ∧ img.base = peImageBase h.nt ∧
    HoldsFile (codeFile 352) h img
  := by
  have hheaders : (parseHeaders .i386 (codeFile 352)).map (fun h => (h.table (codeFile 352),
      h.sections, peSectionCount h.nt, peSizeOfHeaders h.nt, peImageBase h.nt)) =
        some ([codeSection], 312, 1, 352, 0x00400000) := by
    decide +kernel
  have hbase : (mapCodeFile 352).1.map (fun p => p.1.base) = some 0x00400000 := by
    decide +kernel
  obtain ⟨h, hparse, hfields⟩ := map_eq_some_iff.mp hheaders
  simp only [Prod.mk.injEq] at hfields
  obtain ⟨htable, hsections, hnum, hsize, hpreferred⟩ := hfields
  obtain ⟨⟨img, nt⟩, himg, hbase⟩ := map_eq_some_iff.mp hbase
  obtain ⟨-, g, hmap⟩ := exists_mapImageAt_eq hparse himg
  have hpreferred : img.base = peImageBase h.nt := hbase.trans hpreferred.symm
  have hseparate := Separate.of_single htable (by rw [hsize]; decide)
  have hcovered : Covered .i386 (codeFile 352) h := by
    constructor
    · right
      right
      simp only [hsize, hsections, hnum, sizeofDosHeader, sizeofSectionHeader]
      omega
    · rw [htable]
      intro s hs _ hflag
      rw [mem_singleton.mp hs] at hflag
      cases hflag (by decide)
    · rw [htable]
      intro s hs
      rw [mem_singleton.mp hs]
      decide
  use h, img, g, hparse, hseparate, hmap, hpreferred
  apply mapImageAt_holdsFile _ _ _ _ _ _ hparse hmap hpreferred hseparate hcovered

/-- When the headers end with the DOS header, the page of the code stays writable. -/
theorem codeFile_unprotected :
  ∃ h img g, parseHeaders .i386 (codeFile 64) = some h ∧ Separate (codeFile 64) h ∧
    mapCodeFile 64 = (some (img, h.nt), g) ∧ img.base = peImageBase h.nt ∧
    ¬ HoldsFile (codeFile 64) h img
  := by
  have hheaders : (parseHeaders .i386 (codeFile 64)).map (fun h => (h.table (codeFile 64),
      peSizeOfHeaders h.nt, peImageBase h.nt)) = some ([codeSection], 64, 0x00400000) := by
    decide +kernel
  have himage : (mapCodeFile 64).1.map (fun p => (p.1.base, p.1.prot 0x1000)) =
      some (0x00400000, Prot.all) := by
    decide +kernel
  obtain ⟨h, hparse, hfields⟩ := map_eq_some_iff.mp hheaders
  simp only [Prod.mk.injEq] at hfields
  obtain ⟨htable, hsize, hpreferred⟩ := hfields
  obtain ⟨⟨img, nt⟩, himg, himage⟩ := map_eq_some_iff.mp himage
  simp only [Prod.mk.injEq] at himage
  obtain ⟨-, g, hmap⟩ := exists_mapImageAt_eq hparse himg
  use h, img, g, hparse, Separate.of_single htable (by rw [hsize]; decide), hmap,
    himage.1.trans hpreferred.symm
  intro hholds
  have hprot := hholds.prot codeSection (by simp [htable]) (by decide) 0x1000 (by decide)
  rw [himage.2] at hprot
  revert hprot
  decide

end Loader
