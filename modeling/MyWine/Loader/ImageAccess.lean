import MyWine.Lib.Loop
import MyWine.Loader.ImageContent

/-!
# The memory that the mapper touches

`fileReads` lists the ranges of the file that `map_image_at` reads once the headers have been
parsed, and `imageWrites` the ranges of the image that it writes, whether it succeeds or fails.
The ranges follow the passes: a pass that fails has done the steps before the failure
(`Loop.steps`), and outside the ranges the image is what the kernel mapped
(`fillImage_of_notMem`).

Every write lies in the image, because each has its own check.  Of the reads, only those of the raw
data rest on the parser, which adds `PointerToRawData` and `SizeOfRawData` in `size_t`; the reads
lie in the file unless this sum wraps around, which it can on `i386` (`fileReads_imageWrites_iff`).
-/

open Pe

namespace Loader

open List Option

/-! ### The ranges -/

def zeroStep (f : File) (imageSize : ℕ) (table : SectionTable) (img : Bytes) (i : ℕ) :
    Option Bytes :=
  zeroSection imageSize img (table.sectionAt f img i)

def entryStep (nt : ImageNtHeaders) (delta va block : ℕ) (img : Bytes) (i : ℕ) : Option Bytes :=
  applyEntry nt delta va img (img.u16 (block + sizeofBaseRelocation + 2 * i))

def rawFileRegion (s : ImageSectionHeader) : Region :=
  ⟨s.pointerToRawData.toNat,
    if s.sizeOfRawData = 0 ∨ s.pointerToRawData = 0 then 0 else s.sizeOfRawData.toNat⟩

def copySteps (f : File) (imageSize : ℕ) (table : List ImageSectionHeader) (img : Bytes) :
    List ImageSectionHeader :=
  (Loop.steps (copySection f imageSize) table img).map Prod.snd

/-- The ranges of the file that are read after the headers have been parsed: the section table,
the raw data of the sections, and the headers. -/
def fileReads {b : Build} (k : Kernel b) (f : File) (h : ParsedHeaders) (base : Ptr) :
    List Region :=
  let size := peSizeOfImage h.nt
  let img := freshImage k base size
  ⟨h.sections, peSectionCount h.nt * sizeofSectionHeader⟩ ::
    (copySteps f size (h.table f) img).map rawFileRegion ++
    match copySections f size (h.table f) img with
    | none => []
    | some _ => [headersRegion h.nt]

def entryRegion (nt : ImageNtHeaders) (va : ℕ) (entry : UInt16) : Region :=
  let type := entry.toNat / 2 ^ 12
  ⟨va + entry.toNat % 2 ^ 12,
    if type = relBasedAbsolute then 0
    else if peIsPe32 nt then
      if type = relBasedDir32 ∨ type = relBasedHighlow then 4
      else if type = relBasedHigh ∨ type = relBasedHighadj then 2
      else if type = relBasedLow then 2
      else 0
    else if type = relBasedDir64 then 8
    else 0⟩

def entryWrites (nt : ImageNtHeaders) (delta va block num : ℕ) (img : Bytes) : List Region :=
  (Loop.steps (entryStep nt delta va block) (List.range num) img).map fun p =>
    entryRegion nt va (p.1.u16 (block + sizeofBaseRelocation + 2 * p.2))

def blockWrites (nt : ImageNtHeaders) (delta blockEnd : ℕ) : ℕ → ℕ → Bytes → List Region
  | 0, _, _ => []
  | fuel + 1, block, img =>
    let va := (img.u32 block).toNat
    let size := (img.u32 (block + 4)).toNat
    if blockEnd ≤ block then []
    else if size = 0 ∨ size < sizeofBaseRelocation then []
    else if blockEnd - block < size then []
    else
      let num := (size - sizeofBaseRelocation) / 2
      entryWrites nt delta va block num img ++
        match applyEntries nt delta va block num img with
        | none => []
        | some img => blockWrites nt delta blockEnd fuel (block + size) img

def relocationWrites (b : Build) (base : Ptr) (nt : ImageNtHeaders) (img : Bytes) : List Region :=
  let delta := relocationDelta b base nt
  if delta = 0 then []
  else if peCharacteristics nt &&& relocsStripped ≠ 0 then []
  else
    match peGetDataDir nt directoryEntryBasereloc with
    | none => []
    | some dir =>
      let rva := dir.virtualAddress.toNat
      let size := dir.size.toNat
      if rva = 0 ∨ size = 0 then []
      else if !peRvaRangeIsValid rva size (peSizeOfImage nt) then []
      else blockWrites nt delta (rva + size) size rva img

/-- The RVAs that the clearing of the sections and the relocations change, the image with its
headers being `img`. -/
def patchWrites (b : Build) (f : File) (h : ParsedHeaders) (base : Ptr) (img : Bytes) :
    List Region :=
  let size := peSizeOfImage h.nt
  let table := imageTable h.nt h.sections img
  (Loop.steps (zeroStep f size table) (List.range (peSectionCount h.nt)) img).map
      (fun p => (zeroPatch (table.sectionAt f p.1 p.2)).region) ++
    match zeroSections f size (peSectionCount h.nt) table img with
    | none => []
    | some img => relocationWrites b base h.nt img

def imageWrites {b : Build} (k : Kernel b) (f : File) (h : ParsedHeaders) (base : Ptr) :
    List Region :=
  let size := peSizeOfImage h.nt
  let img := freshImage k base size
  (copySteps f size (h.table f) img).map (fun s => (copyPatch f s).region) ++
    match copySections f size (h.table f) img with
    | none => []
    | some img => headersRegion h.nt :: patchWrites b f h base (copyHeaders f h.nt img)

/-! ### One step -/

def InImage (imageSize : ℕ) (r : Region) : Prop := ∀ x ∈ r, x < imageSize

variable {delta imageSize block va x : ℕ} {img img' : Bytes} {nt : ImageNtHeaders}

theorem inImage_of_size_eq_zero {r : Region} (h : r.size = 0) :
  InImage imageSize r
  := by
  intro x hx
  rw [Region.mem_iff] at hx
  omega

theorem inImage_of_valid {rva len : ℕ} (h : peRvaRangeIsValid rva len imageSize = true) :
  InImage imageSize ⟨rva, len⟩
  := by
  intro x hx
  have hle := peRvaRangeIsValid_iff.mp h
  simp only [Region.mem_iff] at hx
  omega

theorem copySection_inImage {f : File} {s : ImageSectionHeader}
    (h : copySection f imageSize img s = some img') :
  InImage imageSize (copyPatch f s).region
  := by
  simp only [copySection] at h
  split_ifs at h with hskip hrange
  · apply inImage_of_size_eq_zero
    simp only [copyPatch, if_pos hskip]
  · rw [Bool.not_eq_true, Bool.not_eq_false'] at hrange
    simp only [copyPatch, if_neg hskip]
    apply inImage_of_valid hrange

theorem zeroSection_inImage {s : ImageSectionHeader} (h : zeroSection imageSize img s = some img') :
  InImage imageSize (zeroPatch s).region
  := by
  simp only [zeroSection] at h
  split_ifs at h with hpayload hsize hrange
  · apply inImage_of_size_eq_zero
    simp only [zeroPatch, if_pos hpayload]
  · apply inImage_of_size_eq_zero
    simp [zeroPatch, hsize]
  · rw [Bool.not_eq_true, Bool.not_eq_false'] at hrange
    simp only [zeroPatch, if_neg hpayload]
    apply inImage_of_valid hrange

theorem addAt_spec {rva n v : ℕ} (h : addAt nt img rva n v = some img') :
  InImage (peSizeOfImage nt) ⟨rva, n⟩ ∧ ∀ x ∉ (⟨rva, n⟩ : Region), img' x = img x
  := by
  rw [addAt] at h
  split_ifs at h with hrange
  cases h
  use inImage_of_valid hrange
  intro x hx
  simp only [Region.mem_iff] at hx
  apply Bytes.writeLE_of_notMem
  omega

theorem applyEntry_spec {entry : UInt16} (h : applyEntry nt delta va img entry = some img') :
  InImage (peSizeOfImage nt) (entryRegion nt va entry) ∧
    ∀ x ∉ entryRegion nt va entry, img' x = img x
  := by
  simp only [applyEntry] at h
  simp only [entryRegion]
  have hnone : InImage (peSizeOfImage nt) ⟨va + entry.toNat % 2 ^ 12, 0⟩ :=
    inImage_of_size_eq_zero rfl
  split_ifs at h ⊢
  all_goals first
    | apply addAt_spec h
    | cases h
      exact ⟨hnone, fun _ _ => rfl⟩

/-! ### The relocations -/

theorem entryWrites_inImage {num : ℕ} :
  ∀ r ∈ entryWrites nt delta va block num img, InImage (peSizeOfImage nt) r
  := by
  rw [entryWrites, List.forall_mem_map]
  intro p hp
  obtain ⟨-, img', hstep⟩ := Loop.forall_mem_steps hp
  apply (applyEntry_spec hstep).1

theorem blockWrites_inImage {blockEnd fuel : ℕ} :
  ∀ r ∈ blockWrites nt delta blockEnd fuel block img, InImage (peSizeOfImage nt) r
  := by
  induction fuel generalizing block img with
  | zero =>
    intro r hr
    cases hr
  | succ fuel ih =>
    intro r hr
    simp only [blockWrites] at hr
    split_ifs at hr
    all_goals try cases hr
    rcases mem_append.mp hr with hr | hr
    · apply entryWrites_inImage r hr
    · split at hr
      · cases hr
      · apply ih r hr

theorem relocationWrites_inImage {b : Build} {base : Ptr} :
  ∀ r ∈ relocationWrites b base nt img, InImage (peSizeOfImage nt) r
  := by
  intro r hr
  simp only [relocationWrites] at hr
  split_ifs at hr
  all_goals try cases hr
  split at hr
  · cases hr
  · split_ifs at hr
    all_goals try cases hr
    apply blockWrites_inImage r hr

theorem applyEntries_of_notMem {num : ℕ} (h : applyEntries nt delta va block num img = some img')
    (hx : ∀ r ∈ entryWrites nt delta va block num img, x ∉ r) :
  img' x = img x
  := by
  rw [entryWrites, List.forall_mem_map] at hx
  apply Loop.foldlM_of_steps (P := fun m : Bytes => m x = img x) _ rfl h
  intro p hp t hstep hkeep
  rw [← hkeep]
  apply (applyEntry_spec hstep).2 x (hx p hp)

theorem applyBlocks_of_notMem {blockEnd fuel : ℕ}
    (h : applyBlocks nt delta blockEnd fuel block img = some img')
    (hx : ∀ r ∈ blockWrites nt delta blockEnd fuel block img, x ∉ r) :
  img' x = img x
  := by
  induction fuel generalizing block img with
  | zero =>
    cases h
    rfl
  | succ fuel ih =>
    simp only [applyBlocks] at h
    simp only [blockWrites] at hx
    split_ifs at h hx
    · cases h
      rfl
    · cases h
      rfl
    · split at h
      · cases h
      · next img₁ hentries =>
        simp only [hentries, forall_mem_append] at hx
        rw [ih h hx.2, applyEntries_of_notMem hentries hx.1]

theorem applyRelocations_of_notMem {b : Build} {base : Ptr}
    (h : applyRelocations b base nt img = some img')
    (hx : ∀ r ∈ relocationWrites b base nt img, x ∉ r) :
  img' x = img x
  := by
  simp only [applyRelocations] at h
  simp only [relocationWrites] at hx
  split_ifs at h hx
  · cases h
    rfl
  · split at h
    · cases h
      rfl
    · next dir hdir =>
      simp only [hdir] at hx
      split_ifs at h hx
      · cases h
        rfl
      · apply applyBlocks_of_notMem h hx

/-! ### The whole mapping -/

section

variable {b : Build} {k : Kernel b} {f : File} {h : ParsedHeaders} {base : Ptr}

theorem patchWrites_inImage {img : Bytes} :
  ∀ r ∈ patchWrites b f h base img, InImage (peSizeOfImage h.nt) r
  := by
  simp only [patchWrites, List.forall_mem_append, List.forall_mem_map]
  constructor
  · intro p hp
    obtain ⟨-, img', hstep⟩ := Loop.forall_mem_steps hp
    apply zeroSection_inImage hstep
  · split
    · intro r hr
      cases hr
    · apply relocationWrites_inImage

theorem imageWrites_inImage (hsize : peSizeOfHeaders h.nt ≤ peSizeOfImage h.nt) :
  ∀ r ∈ imageWrites k f h base, InImage (peSizeOfImage h.nt) r
  := by
  simp only [imageWrites, copySteps, List.forall_mem_append, List.forall_mem_map]
  constructor
  · intro p hp
    obtain ⟨-, img', hstep⟩ := Loop.forall_mem_steps hp
    apply copySection_inImage hstep
  · split
    · intro r hr
      cases hr
    · rw [forall_mem_cons]
      use fun x hx => lt_of_lt_of_le (by simpa [headersRegion, Region.mem_iff] using hx)
        hsize
      apply patchWrites_inImage

theorem fillImage_of_notMem {img : Image} {x : ℕ} (hfill : fillImage k f h base = some img)
    (hx : ∀ r ∈ imageWrites k f h base, x ∉ r) :
  img.byte x = freshImage k base (peSizeOfImage h.nt) x
  := by
  obtain ⟨-, copied, zeroed, hcopied, hzeroed, hbyte, -⟩ := fillImage_spec hfill
  rw [← ParsedHeaders.table] at hcopied
  simp only [imageWrites, copySteps, List.forall_mem_append, List.forall_mem_map, hcopied,
    List.forall_mem_cons, patchWrites, hzeroed] at hx
  obtain ⟨hcopy, hheaders, hzero, hreloc⟩ := hx
  have hkept : copied x = freshImage k base (peSizeOfImage h.nt) x := by
    apply Loop.foldlM_of_steps (P := fun m : Bytes => m x = freshImage k base _ x) _ rfl hcopied
    intro p hp t hstep hkeep
    rw [← hkeep, copySection_eq hstep, Patch.apply_of_notMem _ (hcopy p hp)]
  have hkept' : zeroed x = copyHeaders f h.nt copied x := by
    apply Loop.foldlM_of_steps (P := fun m : Bytes => m x = copyHeaders f h.nt copied x) _ rfl
      hzeroed
    intro p hp t hstep hkeep
    rw [← hkeep, zeroSection_eq hstep, Patch.apply_of_notMem _ (hzero p hp)]
  rw [applyRelocations_of_notMem hbyte hreloc, hkept', copyHeaders_eq,
    Patch.apply_of_notMem _ hheaders, hkept]

theorem copySections_congr {f' : File} {imageSize : ℕ} {table : List ImageSectionHeader}
    {img : Bytes}
    (hraw : ∀ s ∈ copySteps f imageSize table img, ∀ x ∈ rawFileRegion s, f.byte x = f'.byte x) :
  copySections f imageSize table img = copySections f' imageSize table img
  := by
  apply Loop.foldlM_congr
  · intro img s _ hnone
    simp only [copySection] at hnone ⊢
    split_ifs at hnone ⊢
    rfl
  · intro p hp
    have hsrc := hraw p.2 (mem_map_of_mem hp)
    simp only [copySection]
    split_ifs with hskip hrange
    · rfl
    · rfl
    · simp only [rawFileRegion, if_neg hskip, Region.mem_iff] at hsrc
      rw [some.injEq]
      funext x
      rw [Bytes.copy, Bytes.copy]
      split_ifs
      · apply hsrc
        omega
      · rfl

theorem sectionAt_congr {f' : File} (img₀ img : Bytes) {i : ℕ}
    (hsection : readSectionHeader f.byte (h.sections + sizeofSectionHeader * i) =
      readSectionHeader f'.byte (h.sections + sizeofSectionHeader * i)) :
  (imageTable h.nt h.sections img₀).sectionAt f img i =
    (imageTable h.nt h.sections img₀).sectionAt f' img i
  := by
  rw [imageTable]
  split_ifs
  · rfl
  · apply hsection

theorem fillImage_congr {f' : File}
    (hread : ∀ r ∈ fileReads k f h base, ∀ x ∈ r, f.byte x = f'.byte x) :
  fillImage k f h base = fillImage k f' h base
  := by
  simp only [fileReads, List.forall_mem_append, List.forall_mem_cons, List.forall_mem_map] at hread
  obtain ⟨⟨htable, hraw⟩, hheaders⟩ := hread
  have hsection : ∀ i ∈ List.range (peSectionCount h.nt),
      readSectionHeader f.byte (h.sections + sizeofSectionHeader * i) =
        readSectionHeader f'.byte (h.sections + sizeofSectionHeader * i) := by
    intro i hi
    rw [mem_range] at hi
    apply readSectionHeader_congr
    intro x hx hlt
    apply htable
    simp only [Region.mem_iff, sizeofSectionHeader] at hx hlt ⊢
    omega
  have htable' : h.table f = h.table f' := List.map_congr_left hsection
  have hcopy := copySections_congr hraw
  simp only [ParsedHeaders.table] at htable' hcopy hheaders
  simp only [fillImage]
  rw [← htable', ← hcopy]
  cases hcopied : copySections f (peSizeOfImage h.nt)
      (readSectionTable f.byte h.sections (peSectionCount h.nt))
      (freshImage k base (peSizeOfImage h.nt)) with
  | none => rw [bind_eq_bind, bind_eq_bind, bind_none, bind_none]
  | some copied =>
    simp only [hcopied, mem_singleton, forall_eq] at hheaders
    have hcopied' : copyHeaders f h.nt copied = copyHeaders f' h.nt copied := by
      funext x
      simp only [copyHeaders, Bytes.copy]
      split_ifs with hx
      · apply hheaders
        simp only [headersRegion, Region.mem_iff]
        omega
      · rfl
    rw [bind_eq_bind, bind_eq_bind, bind_some, bind_some, hcopied']
    generalize copyHeaders f' h.nt copied = img₀
    have hzero := Loop.foldlM_congr_of_mem (l := List.range (peSectionCount h.nt))
      (fun img i hi => congrArg (zeroSection (peSizeOfImage h.nt) img)
        (sectionAt_congr img₀ img (hsection i hi))) img₀
    have hprot := fun img => Loop.foldlM_congr_of_mem (l := List.range (peSectionCount h.nt))
      (fun prot i hi => congrArg (protectSection k base (peSizeOfImage h.nt) prot)
        (sectionAt_congr img₀ img (hsection i hi)))
    simp only [zeroSections, protectSections, hzero, hprot]

/-! ### Reads inside the file -/

def fitsImage (imageSize : ℕ) (s : ImageSectionHeader) : Bool :=
  s.sizeOfRawData = 0 || s.pointerToRawData = 0 ||
    peRvaRangeIsValid s.virtualAddress.toNat s.sizeOfRawData.toNat imageSize

theorem copySteps_eq (imageSize : ℕ) (table : List ImageSectionHeader) (img : Bytes) :
  copySteps f imageSize table img = table.takeWhile (fitsImage imageSize)
  := by
  apply Loop.map_snd_steps
  intro img s
  simp only [copySection, fitsImage]
  split_ifs with hskip hrange
  · rcases hskip with hraw | hptr
    · simp [hraw]
    · simp [hptr]
  · rw [not_or] at hskip
    simpa [hskip.1, hskip.2] using hrange
  · rw [not_or] at hskip
    simpa [hskip.1, hskip.2] using hrange

def RawBelowLimit (f : File) (h : ParsedHeaders) : Prop :=
  ∀ s ∈ (h.table f).takeWhile (fitsImage (peSizeOfImage h.nt)),
    s.pointerToRawData ≠ 0 → s.sizeOfRawData ≠ 0 →
      s.pointerToRawData.toNat + s.sizeOfRawData.toNat < 2 ^ 32

/-- The raw data that the parser accepted is read inside the file exactly when the sum that it
checked did not wrap around. -/
theorem rawFileRegion_lt_iff {s : ImageSectionHeader} (hfile : f.size < b.ptrLimit)
    (hptr : s.pointerToRawData ≠ 0) (hraw : s.sizeOfRawData ≠ 0)
    (hcheck : b.wrap (s.pointerToRawData.toNat + s.sizeOfRawData.toNat) ≤ f.size) :
  (∀ x ∈ rawFileRegion s, x < f.size) ↔
    s.pointerToRawData.toNat + s.sizeOfRawData.toNat < b.ptrLimit
  := by
  have hpos : s.sizeOfRawData.toNat ≠ 0 := fun hzero => hraw (UInt32.toNat_inj.mp hzero)
  simp only [rawFileRegion, if_neg (not_or.mpr ⟨hraw, hptr⟩), Region.mem_iff]
  constructor
  · intro hread
    have hlast := hread (s.pointerToRawData.toNat + s.sizeOfRawData.toNat - 1) (by omega)
    omega
  · intro hlt x hx
    rw [Build.wrap_of_lt hlt] at hcheck
    omega

theorem rawFileRegion_lt_of_skip {s : ImageSectionHeader} {n : ℕ}
    (hskip : s.sizeOfRawData = 0 ∨ s.pointerToRawData = 0) :
  ∀ x ∈ rawFileRegion s, x < n
  := by
  intro x hx
  simp only [rawFileRegion, if_pos hskip, Region.mem_iff] at hx
  omega

/-- The files that are mapped are read inside, and only their images are written, except that on
`i386` the raw data of a section may end past `4` GiB. -/
theorem fileReads_imageWrites_iff (k : Kernel b) (base : Ptr) (hfile : f.size < b.ptrLimit)
    (hparse : parseHeaders b f = some h) (hheaders : peSizeOfHeaders h.nt ≤ f.size)
    (himage : peSizeOfHeaders h.nt ≤ peSizeOfImage h.nt) :
  ((∀ r ∈ fileReads k f h base, ∀ x ∈ r, x < f.size) ∧
    ∀ r ∈ imageWrites k f h base, ∀ x ∈ r, x < peSizeOfImage h.nt) ↔
  b = .x64 ∨ RawBelowLimit f h
  := by
  obtain ⟨-, -, hsections⟩ := parseHeaders_spec hparse
  obtain ⟨htable, hraw⟩ := parseSections_inFile hsections
  have hmem : ∀ s ∈ (h.table f).takeWhile (fitsImage (peSizeOfImage h.nt)), s ∈ h.table f :=
    fun s hs => ( takeWhile_prefix _).subset hs
  have htableRead : ∀ x ∈ (⟨h.sections, peSectionCount h.nt * sizeofSectionHeader⟩ : Region),
      x < f.size := by
    intro x hx
    simp only [Region.mem_iff] at hx
    omega
  have hheadersRead : ∀ r ∈ (match copySections f (peSizeOfImage h.nt) (h.table f)
      (freshImage k base (peSizeOfImage h.nt)) with
    | none => []
    | some _ => [headersRegion h.nt]), ∀ x ∈ r, x < f.size := by
    split
    · simp
    · simp only [mem_singleton, forall_eq, headersRegion, Region.mem_iff]
      omega
  have hreads : (∀ r ∈ fileReads k f h base, ∀ x ∈ r, x < f.size) ↔
      ∀ s ∈ (h.table f).takeWhile (fitsImage (peSizeOfImage h.nt)),
        ∀ x ∈ rawFileRegion s, x < f.size := by
    simp only [fileReads]
    rw [List.forall_mem_append, List.forall_mem_cons, List.forall_mem_map, copySteps_eq,
      and_iff_left hheadersRead, and_iff_right htableRead]
  have hwrites : ∀ r ∈ imageWrites k f h base, ∀ x ∈ r, x < peSizeOfImage h.nt :=
    imageWrites_inImage himage
  rw [hreads, and_iff_left hwrites]
  constructor
  · intro hread
    cases b with
    | x64 => exact Or.inl rfl
    | i386 =>
      right
      intro s hs hptr hne
      apply (rawFileRegion_lt_iff hfile hptr hne (hraw s (hmem s hs) hptr)).mp (hread s hs)
  · intro hcond s hs
    by_cases hskip : s.sizeOfRawData = 0 ∨ s.pointerToRawData = 0
    · apply rawFileRegion_lt_of_skip hskip
    · rw [not_or] at hskip
      apply (rawFileRegion_lt_iff hfile hskip.2 hskip.1 (hraw s (hmem s hs) hskip.2)).mpr
      rcases hcond with rfl | hlimit
      · have hptr := s.pointerToRawData.toNat_lt
        have hsize := s.sizeOfRawData.toNat_lt
        have hword : Build.ptrLimit .x64 = 2 ^ 64 := by decide
        omega
      · have hlt := hlimit s hs hskip.2 hskip.1
        have hword : 2 ^ 32 ≤ b.ptrLimit := by cases b <;> decide
        omega

end

def rawFile (ptr : ℕ) : File :=
  .ofFields 0x3000 (pe32Headers 0x4000 352 ++ [(70, 2, 1), (320, 4, 0x2000), (324, 4, 0x1000),
    (328, 4, 0x2000), (332, 4, ptr), (348, 4, 0x60000020)])

def rawSection (ptr : UInt32) : ImageSectionHeader := ⟨0x2000, 0x1000, 0x2000, ptr, 0x60000020⟩

def rawHeaders : ParsedHeaders := (parseHeaders .i386 (rawFile 0x1000)).get (by decide)

theorem fillImage_of_notMem_raw :
  ∃ img, fillImage (.lenient .i386) (rawFile 0x1000) rawHeaders 0x00400000 = some img ∧
    img.byte 0x800 = 0
  := by
  have hsome : (fillImage (.lenient .i386) (rawFile 0x1000) rawHeaders 0x00400000).isSome := by
    decide
  obtain ⟨img, himg⟩ := isSome_iff_exists.mp hsome
  use img, himg
  rw [fillImage_of_notMem himg]
  · decide
  · decide

/-- What stands behind the end of the file does not matter. -/
theorem fillImage_congr_raw :
  let f := rawFile 0x1000
  let f' : File := { f with byte := fun x => if x < f.size then f.byte x else 1 }
  fillImage (.lenient .i386) f rawHeaders 0x00400000 =
    fillImage (.lenient .i386) f' rawHeaders 0x00400000
  := by
  intro f f'
  have hreads : ∀ r ∈ fileReads (.lenient .i386) f rawHeaders 0x00400000, r.stop ≤ f.size := by
    decide
  apply fillImage_congr
  intro r hr x hx
  exact (if_pos (hx.2.trans_le (hreads r hr))).symm

/-- The raw data at `0x1000` is read inside the file. -/
theorem rawFile_inside :
  ∃ h, parseHeaders .i386 (rawFile 0x1000) = some h ∧
    (∀ r ∈ fileReads (.lenient .i386) (rawFile 0x1000) h 0x00400000, ∀ x ∈ r, x < 0x3000) ∧
    ∀ r ∈ imageWrites (.lenient .i386) (rawFile 0x1000) h 0x00400000, ∀ x ∈ r,
      x < peSizeOfImage h.nt
  := by
  have hheaders : (parseHeaders .i386 (rawFile 0x1000)).map (fun h => (h.table (rawFile 0x1000),
      peSizeOfHeaders h.nt, peSizeOfImage h.nt)) =
        some ([rawSection 0x1000], 352, 0x4000) := by
    decide
  obtain ⟨h, hparse, hfields⟩ := map_eq_some_iff.mp hheaders
  simp only [Prod.mk.injEq] at hfields
  obtain ⟨htable, hsize, himage⟩ := hfields
  use h, hparse
  apply (fileReads_imageWrites_iff (.lenient .i386) 0x00400000 (by decide) hparse
    (by rw [hsize]; decide) (by omega)).mpr
  right
  rw [RawBelowLimit, htable, himage]
  decide

/-- The raw data at `0xFFFFF000` ends past `4` GiB, so that the parser of the `i386` build accepts
it, and is read outside the file. -/
theorem rawFile_outside :
  ∃ h, parseHeaders .i386 (rawFile 0xFFFFF000) = some h ∧
    peSizeOfHeaders h.nt ≤ (rawFile 0xFFFFF000).size ∧ peSizeOfImage h.nt ≠ 0 ∧
    peSizeOfHeaders h.nt ≤ peSizeOfImage h.nt ∧
    ∃ r ∈ fileReads (.lenient .i386) (rawFile 0xFFFFF000) h 0x00400000, ∃ x ∈ r, 0x3000 ≤ x
  := by
  have hheaders : (parseHeaders .i386 (rawFile 0xFFFFF000)).map (fun h =>
      (h.table (rawFile 0xFFFFF000), peSizeOfHeaders h.nt, peSizeOfImage h.nt)) =
        some ([rawSection 0xFFFFF000], 352, 0x4000) := by
    decide
  obtain ⟨h, hparse, hfields⟩ := map_eq_some_iff.mp hheaders
  simp only [Prod.mk.injEq] at hfields
  obtain ⟨htable, hsize, himage⟩ := hfields
  use h, hparse
  rw [hsize, himage]
  use by decide, by decide, by decide, rawFileRegion (rawSection 0xFFFFF000)
  constructor
  · rw [fileReads, copySteps_eq, htable, himage]
    simp only [List.cons_append, List.mem_cons, List.mem_append, List.mem_map]
    right
    left
    use rawSection 0xFFFFF000
    decide
  · use 0xFFFFF000
    decide

end Loader
