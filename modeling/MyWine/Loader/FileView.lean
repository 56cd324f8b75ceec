import MyWine.Loader.ImageAccess

/-!
# The file view of an image

`rva_to_offset` reads the content of an image from its file: it looks for the section that contains
an RVA and answers the offset of the byte in the raw data of the section.  `map_image_at` builds the
image from the same section table by other rules.  The two views agree on raw data and on headers.
They differ where a section has no raw data, which `map_image_at` leaves zero: `rva_to_offset`
answers an offset there too, that of whatever follows the raw data in the file, or of the headers if
the section has none (`rvaToOffset_agrees_iff`).
-/

open Pe

namespace Loader

open List Option

/-! ### `rva_to_offset` -/

def intOfSize (n : ℕ) : ℤ := Int.bmod n (2 ^ 32)

/-- `rva_to_offset`, with the loop over the sections.  An RVA outside the sections may be in the
headers. -/
def rvaToOffset (b : Build) (nt : ImageNtHeaders) (rva fileSize : ℕ) :
    List ImageSectionHeader → ℤ
  | [] => if rva < peSizeOfHeaders nt then intOfSize rva else -1
  | sec :: sections =>
    let secStart := sec.virtualAddress.toNat
    let secSize :=
      if sec.virtualSize = 0 ∨ sec.virtualSize < sec.sizeOfRawData then sec.sizeOfRawData.toNat
      else sec.virtualSize.toNat
    if 2 ^ 32 - 1 - secStart < secSize then -1
    else if secStart ≤ rva ∧ rva < secStart + secSize then
      let off := b.wrap (sec.pointerToRawData.toNat + (rva - secStart))
      if off ≤ fileSize then intOfSize off else -1
    else rvaToOffset b nt rva fileSize sections

def unrelocatedImage {b : Build} (k : Kernel b) (f : File) (h : ParsedHeaders) (base : Ptr) :
    Option Bytes := do
  let size := peSizeOfImage h.nt
  let num := peSectionCount h.nt
  let img ← copySections f size (readSectionTable f.byte h.sections num) (freshImage k base size)
  let img := copyHeaders f h.nt img
  zeroSections f size num (imageTable h.nt h.sections img) img

/-! ### The agreement of the two views -/

def RawBacked (s : ImageSectionHeader) (r : ℕ) : Prop := s.pointerToRawData ≠ 0 ∧ r ∈ rawRegion s

/-- The offset that `rva_to_offset` finds for an RVA holds the byte of the image, and it finds one
for the RVAs of raw data and of the headers. -/
structure Agrees (b : Build) (f : File) (h : ParsedHeaders) (m : Bytes) (r : ℕ) : Prop where
  byte : ∀ off : ℕ, rvaToOffset b h.nt r f.size (h.table f) = off →
    off < f.size ∧ r < peSizeOfImage h.nt ∧ f.byte off = m r
  raw : ∀ s ∈ h.table f, RawBacked s r → 0 ≤ rvaToOffset b h.nt r f.size (h.table f)
  headers : r < peSizeOfHeaders h.nt → 0 ≤ rvaToOffset b h.nt r f.size (h.table f)

/-- The copied headers contain the section table and keep it, and no section overlaps another. -/
structure Regular (f : File) (h : ParsedHeaders) : Prop where
  covered : TableCovered h
  table : TableApart f h
  sections : SectionsApart f h

/-- The sections before the first one that ends past four gigabytes, where the search gives up. -/
def searched (sections : List ImageSectionHeader) : List ImageSectionHeader :=
  sections.takeWhile fun s => decide ((sectionRegion s).stop < 2 ^ 32)

/-- What the section has in the image: zeros if it is filled with them, else the headers, then its
raw data, and zeros elsewhere. -/
def sectionContent (f : File) (h : ParsedHeaders) (s : ImageSectionHeader) : Bytes :=
  (zeroPatch s).apply ((headersPatch f h.nt).apply ((copyPatch f s).apply fun _ => 0))

def rawOffset (b : Build) (s : ImageSectionHeader) (r : ℕ) : ℕ :=
  b.wrap (s.pointerToRawData.toNat + (r - s.virtualAddress.toNat))

/-- The offset behind the start of the raw data, as an `int`, is that of the byte of the section.
An RVA whose offset lies behind the file or is a negative `int` is neither one of raw data nor one
of the headers. -/
def SectionViewed (b : Build) (f : File) (h : ParsedHeaders) (s : ImageSectionHeader) (r : ℕ) :
    Prop :=
  if rawOffset b s r ≤ f.size ∧ rawOffset b s r % 2 ^ 32 < 2 ^ 31 then
    rawOffset b s r % 2 ^ 32 < f.size ∧ r < peSizeOfImage h.nt ∧
      f.byte (rawOffset b s r % 2 ^ 32) = sectionContent f h s r
  else ¬ RawBacked s r ∧ peSizeOfHeaders h.nt ≤ r

/-- Every RVA of a section that is searched is viewed.  Any other RVA is none of raw data, and one of
the headers only if all sections are searched and the RVA is an `int`. -/
def Viewed (b : Build) (f : File) (h : ParsedHeaders) : Prop :=
  (∀ s ∈ searched (h.table f), ∀ r ∈ sectionRegion s, SectionViewed b f h s r) ∧
    ∀ r < 2 ^ 32, (∀ s ∈ searched (h.table f), r ∉ sectionRegion s) →
      (∀ s ∈ h.table f, ¬ RawBacked s r) ∧
        (r < peSizeOfHeaders h.nt → searched (h.table f) = h.table f ∧ r < 2 ^ 31)

section

variable {b : Build} {f : File} {h : ParsedHeaders}

theorem intOfSize_eq (n : ℕ) :
  intOfSize n = if n % 2 ^ 32 < 2 ^ 31 then ((n % 2 ^ 32 : ℕ) : ℤ)
    else ((n % 2 ^ 32 : ℕ) : ℤ) - 2 ^ 32
  := by
  have hbmod : intOfSize n = if (n : ℤ) % 0x100000000 < 0x80000000 then (n : ℤ) % 0x100000000
      else (n : ℤ) % 0x100000000 - 0x100000000 := Int.bmod_def _ _
  rw [hbmod]
  split_ifs <;> omega

theorem secSize_eq (s : ImageSectionHeader) :
  (if s.virtualSize = 0 ∨ s.virtualSize < s.sizeOfRawData then s.sizeOfRawData.toNat
    else s.virtualSize.toNat) = max s.virtualSize.toNat s.sizeOfRawData.toNat
  := by
  simp only [← UInt32.toNat_inj, UInt32.lt_iff_toNat_lt]
  split_ifs <;> simp only [UInt32.toNat_zero] at * <;> omega

theorem mem_of_mem_searched {sections : List ImageSectionHeader} {s : ImageSectionHeader}
    (hs : s ∈ searched sections) :
  s ∈ sections ∧ (sectionRegion s).stop < 2 ^ 32
  := by
  use takeWhile_subset _ hs
  have hstop := mem_takeWhile_imp hs
  exact of_decide_eq_true hstop

theorem searched_cons (s : ImageSectionHeader) (sections : List ImageSectionHeader) :
  searched (s :: sections) =
    if (sectionRegion s).stop < 2 ^ 32 then s :: searched sections else []
  := by
  simp [searched, takeWhile_cons]

/-- One section of the search. -/
theorem rvaToOffset_cons (nt : ImageNtHeaders) (r fileSize : ℕ) (s : ImageSectionHeader)
    (sections : List ImageSectionHeader) :
  rvaToOffset b nt r fileSize (s :: sections) =
    if (sectionRegion s).stop < 2 ^ 32 then
      if r ∈ sectionRegion s then
        if rawOffset b s r ≤ fileSize then intOfSize (rawOffset b s r) else -1
      else rvaToOffset b nt r fileSize sections
    else -1
  := by
  have hva := s.virtualAddress.toNat_lt
  rw [rvaToOffset, secSize_eq]
  by_cases hstop : (sectionRegion s).stop < 2 ^ 32
  · rw [if_pos hstop]
    simp only [sectionRegion, Region.stop] at hstop
    rw [if_neg (by omega)]
    rfl
  · rw [if_neg hstop]
    simp only [sectionRegion, Region.stop] at hstop
    rw [if_pos (by omega)]

theorem rvaToOffset_of_notMem {nt : ImageNtHeaders} {sections : List ImageSectionHeader}
    {r fileSize : ℕ} (hnone : ∀ s ∈ searched sections, r ∉ sectionRegion s) :
  rvaToOffset b nt r fileSize sections =
    if searched sections = sections ∧ r < peSizeOfHeaders nt then intOfSize r else -1
  := by
  induction sections with
  | nil => simp [rvaToOffset, searched]
  | cons s sections ih =>
    rw [searched_cons] at hnone
    rw [rvaToOffset_cons, searched_cons]
    by_cases hstop : (sectionRegion s).stop < 2 ^ 32
    · rw [if_pos hstop, forall_mem_cons] at hnone
      rw [if_pos hstop, if_pos hstop, if_neg hnone.1, ih hnone.2]
      simp only [cons.injEq, true_and]
    · rw [if_neg hstop, if_neg hstop]
      simp

theorem rvaToOffset_of_mem {nt : ImageNtHeaders} {sections : List ImageSectionHeader}
    {r fileSize : ℕ} {s : ImageSectionHeader} (hs : s ∈ searched sections)
    (hr : r ∈ sectionRegion s) (hsame : ∀ t ∈ sections, r ∈ sectionRegion t → t = s) :
  rvaToOffset b nt r fileSize sections =
    if rawOffset b s r ≤ fileSize then intOfSize (rawOffset b s r) else -1
  := by
  induction sections with
  | nil => cases hs
  | cons t sections ih =>
    rw [forall_mem_cons] at hsame
    rw [searched_cons] at hs
    by_cases hstop : (sectionRegion t).stop < 2 ^ 32
    · rw [if_pos hstop] at hs
      rw [rvaToOffset_cons, if_pos hstop]
      by_cases hmem : r ∈ sectionRegion t
      · rw [if_pos hmem, hsame.1 hmem]
      · have hne : s ≠ t := by
          rintro rfl
          exact hmem hr
        rw [if_neg hmem, ih ((mem_cons.mp hs).resolve_left hne) hsame.2]
    · rw [if_neg hstop] at hs
      cases hs

section

variable {k : Kernel b} {base : Ptr} {m : Bytes} {r : ℕ}

theorem unrelocatedImage_eq (hparse : parseSections b f h.nt = some h.sections)
    (hregular : Regular f h) (hm : unrelocatedImage k f h base = some m) :
  m = Patch.applyAll ((h.table f).map zeroPatch) ((headersPatch f h.nt).apply
    (Patch.applyAll ((h.table f).map (copyPatch f)) (freshImage k base (peSizeOfImage h.nt))))
  := by
  simp only [unrelocatedImage, bind_eq_bind, bind_eq_some_iff] at hm
  obtain ⟨copied, hcopied, hzeroed⟩ := hm
  rw [(zeroSections_eq hparse hregular.covered hregular.table
    (copyHeaders_of_mem f h.nt copied) hzeroed).1, copyHeaders_eq, copySections_eq hcopied]
  rfl

theorem unrelocatedImage_of_mem (hparse : parseSections b f h.nt = some h.sections)
    (hregular : Regular f h) (hm : unrelocatedImage k f h base = some m) {s : ImageSectionHeader}
    (hs : s ∈ h.table f) (hr : r ∈ sectionRegion s) (hlt : r < peSizeOfImage h.nt) :
  m r = sectionContent f h s r
  := by
  -- The patches of the other sections do not touch the RVA.
  have hzero : ∀ t ∈ h.table f, r ∈ (zeroPatch t).region → t = s := by
    intro t ht hmem
    apply hregular.sections.eq_of_mem ht hs _ hr
    apply mem_sectionRegion_of_size (mem_zeroPatch_iff.mp hmem).2
  have hcopy : ∀ t ∈ h.table f, r ∈ (copyPatch f t).region → t = s := by
    intro t ht hmem
    apply hregular.sections.eq_of_mem ht hs _ hr
    apply mem_sectionRegion_of_raw (mem_copyPatch_iff.mp hmem).2.2
  rw [unrelocatedImage_eq hparse hregular hm, Patch.applyAll_map_apply hs hzero, sectionContent]
  apply Patch.apply_congr
  apply Patch.apply_congr
  rw [Patch.applyAll_map_apply hs hcopy]
  apply Patch.apply_congr
  rw [freshImage, if_pos (lt_of_lt_of_le hlt (le_pageRoundUp _))]

theorem unrelocatedImage_of_headers (hparse : parseSections b f h.nt = some h.sections)
    (hregular : Regular f h) (hm : unrelocatedImage k f h base = some m)
    (hr : r < peSizeOfHeaders h.nt) (hnone : ∀ s ∈ h.table f, r ∉ sectionRegion s) :
  m r = f.byte r
  := by
  rw [unrelocatedImage_eq hparse hregular hm, Patch.applyAll_of_notMem]
  · apply if_pos
    simpa [headersPatch, headersRegion, Region.mem_iff] using hr
  · rw [List.forall_mem_map]
    intro s hs hmem
    apply hnone s hs (mem_sectionRegion_of_size (mem_zeroPatch_iff.mp hmem).2)

theorem agrees_iff_of_mem {s : ImageSectionHeader} (hapart : SectionsApart f h)
    (hs : s ∈ searched (h.table f)) (hr : r ∈ sectionRegion s)
    (hm : r < peSizeOfImage h.nt → m r = sectionContent f h s r) :
  Agrees b f h m r ↔ SectionViewed b f h s r
  := by
  have hsection := (mem_of_mem_searched hs).1
  have hsame : ∀ t ∈ h.table f, r ∈ sectionRegion t → t = s :=
    fun t ht hmem => hapart.eq_of_mem ht hsection hmem hr
  have hvalue := @rvaToOffset_of_mem b h.nt (h.table f) r f.size s hs hr hsame
  rw [intOfSize_eq] at hvalue
  rw [SectionViewed]
  split_ifs with hoff
  · rw [if_pos hoff.1, if_pos hoff.2] at hvalue
    constructor
    · intro hagrees
      obtain ⟨hlt, hin, hbyte⟩ := hagrees.byte _ hvalue
      exact ⟨hlt, hin, hbyte.trans (hm hin)⟩
    · rintro ⟨hlt, hin, hbyte⟩
      refine ⟨?_, fun _ _ _ => by omega, fun _ => by omega⟩
      intro off heq
      rw [hvalue, Nat.cast_inj] at heq
      rw [← heq, hm hin]
      exact ⟨hlt, hin, hbyte⟩
  · have hneg : rvaToOffset b h.nt r f.size (h.table f) < 0 := by
      rw [hvalue]
      split_ifs <;> omega
    constructor
    · intro hagrees
      constructor
      · intro hraw
        have hpos := hagrees.raw s hsection hraw
        omega
      · by_contra hlt
        have hpos := hagrees.headers (by omega)
        omega
    · rintro ⟨hraw, hheaders⟩
      refine ⟨fun off heq => by omega, ?_, fun hlt => by omega⟩
      intro t ht hmem
      rw [hsame t ht (mem_sectionRegion_of_raw hmem.2)] at hmem
      cases hraw hmem

theorem agrees_iff_of_notMem (hnone : ∀ s ∈ searched (h.table f), r ∉ sectionRegion s)
    (hlimit : r < 2 ^ 32) (hin : r < peSizeOfHeaders h.nt → r < f.size ∧ r < peSizeOfImage h.nt)
    (hm : searched (h.table f) = h.table f → r < peSizeOfHeaders h.nt → m r = f.byte r) :
  Agrees b f h m r ↔ (∀ s ∈ h.table f, ¬ RawBacked s r) ∧
    (r < peSizeOfHeaders h.nt → searched (h.table f) = h.table f ∧ r < 2 ^ 31)
  := by
  have hvalue := @rvaToOffset_of_notMem b h.nt (h.table f) r f.size hnone
  rw [intOfSize_eq, Nat.mod_eq_of_lt hlimit] at hvalue
  constructor
  · intro hagrees
    constructor
    · intro s hs hraw
      have hpos := hagrees.raw s hs hraw
      rw [hvalue] at hpos
      split_ifs at hpos with hall hlow
      · apply hnone s (by rwa [hall.1]) (mem_sectionRegion_of_raw hraw.2)
      · omega
      · omega
    · intro hlt
      have hpos := hagrees.headers hlt
      rw [hvalue] at hpos
      split_ifs at hpos with hall hlow
      · exact ⟨hall.1, hlow⟩
      · omega
      · omega
  · rintro ⟨hraw, hheaders⟩
    refine ⟨?_, fun s hs h => absurd h (hraw s hs), ?_⟩
    · intro off heq
      rw [hvalue] at heq
      split_ifs at heq with hall hlow
      · rw [Nat.cast_inj] at heq
        rw [← heq, hm hall.1 hall.2]
        exact ⟨(hin hall.2).1, (hin hall.2).2, rfl⟩
      · cases hlow (hheaders hall.2).2
    · intro hlt
      rw [hvalue, if_pos ⟨(hheaders hlt).1, hlt⟩, if_pos (hheaders hlt).2]
      apply Int.natCast_nonneg

end

/-- The two views agree exactly when every RVA has the offset of its byte. -/
theorem rvaToOffset_agrees_iff (k : Kernel b) (used : List Region) (path : CString)
    (desiredBase : Ptr) (g g' : MainImage) {img : Image} {m : Bytes}
    (hparse : parseHeaders b f = some h)
    (hmap : mapImageAt k used path (some f) desiredBase g = (some (img, h.nt), g'))
    (hm : unrelocatedImage k f h img.base = some m) (hregular : Regular f h) :
  (∀ r < 2 ^ 32, Agrees b f h m r) ↔ Viewed b f h
  := by
  obtain ⟨-, hfile, himage, -, -⟩ := mapParsed_spec (mapParsed_of_mapImageAt hparse hmap).2
  have hsections := (parseHeaders_spec hparse).2.2
  have hmem {s : ImageSectionHeader} (hs : s ∈ searched (h.table f)) {r : ℕ}
      (hr : r ∈ sectionRegion s) : Agrees b f h m r ↔ SectionViewed b f h s r :=
    agrees_iff_of_mem hregular.sections hs hr
      (unrelocatedImage_of_mem hsections hregular hm (mem_of_mem_searched hs).1 hr)
  have hnone {r : ℕ} (hr : ∀ s ∈ searched (h.table f), r ∉ sectionRegion s) (hlimit : r < 2 ^ 32) :=
    @agrees_iff_of_notMem b f h m r hr hlimit (fun hlt => by omega) fun hall hlt =>
      unrelocatedImage_of_headers hsections hregular hm hlt (by rwa [hall] at hr)
  constructor
  · intro hagrees
    constructor
    · intro s hs r hr
      apply (hmem hs hr).mp
      apply hagrees r (lt_trans hr.2 (mem_of_mem_searched hs).2)
    · intro r hlimit hr
      apply (hnone hr hlimit).mp (hagrees r hlimit)
  · rintro ⟨hviewed, hother⟩ r hlimit
    by_cases hsome : ∃ s ∈ searched (h.table f), r ∈ sectionRegion s
    · obtain ⟨s, hs, hr⟩ := hsome
      apply (hmem hs hr).mpr (hviewed s hs r hr)
    · have hr : ∀ s ∈ searched (h.table f), r ∉ sectionRegion s := fun s hs hr => hsome ⟨s, hs, hr⟩
      apply (hnone hr hlimit).mpr (hother r hlimit hr)

end

theorem exists_unrelocatedImage {b : Build} {k : Kernel b} {used : List Region} {path : CString}
    {f : File} {h : ParsedHeaders} {desiredBase : Ptr} {g g' : MainImage} {img : Image}
    (hparse : parseHeaders b f = some h)
    (hmap : mapImageAt k used path (some f) desiredBase g = (some (img, h.nt), g')) :
  ∃ m, unrelocatedImage k f h img.base = some m
  := by
  obtain ⟨-, -, -, -, hfill⟩ := mapParsed_spec (mapParsed_of_mapImageAt hparse hmap).2
  obtain ⟨-, copied, zeroed, hcopied, hzeroed, -⟩ := fillImage_spec hfill
  use zeroed
  simp [unrelocatedImage, hcopied, hzeroed]

/-- A PE32 file with one section of `16` bytes in memory, whose raw data is at the offset `ptr`. -/
def viewFile (raw ptr : ℕ) : File :=
  .ofFields 368 (pe32Headers 0x2000 352 ++ [(70, 2, 1), (320, 4, 16), (324, 4, 0x1000),
    (328, 4, raw), (332, 4, ptr), (348, 4, 0x60000020), (352, 1, 0xC3)])

def viewSection (raw ptr : UInt32) : ImageSectionHeader := ⟨16, 0x1000, raw, ptr, 0x60000020⟩

def mapViewFile (raw ptr : ℕ) : Option (Image × ImageNtHeaders) × MainImage :=
  mapImageAt (.lenient .i386) [] (.ofString "a.exe") (some (viewFile raw ptr)) 0 .init

theorem regular_viewFile {raw ptr : ℕ} {s : ImageSectionHeader} {h : ParsedHeaders}
    (htable : h.table (viewFile raw ptr) = [s]) (hsections : h.sections = 312)
    (hnum : peSectionCount h.nt = 1) (hsize : peSizeOfHeaders h.nt = 352)
    (hva : s.virtualAddress.toNat = 0x1000) :
  Regular (viewFile raw ptr) h
  where
  covered := by
    right
    right
    rw [hsize, hsections, hnum]
    decide
  table := by
    apply (Separate.of_single htable _).tableApart
    omega
  sections := .of_single htable

/-- The two views agree on a section whose bytes are all in the file. -/
theorem viewFile_agrees :
  ∃ h img g m, parseHeaders .i386 (viewFile 16 352) = some h ∧
    mapViewFile 16 352 = (some (img, h.nt), g) ∧
    unrelocatedImage (.lenient .i386) (viewFile 16 352) h img.base = some m ∧
    ∀ r < 2 ^ 32, Agrees .i386 (viewFile 16 352) h m r
  := by
  have hheaders : (parseHeaders .i386 (viewFile 16 352)).map (fun h =>
      (h.table (viewFile 16 352), h.sections, peSectionCount h.nt, peSizeOfHeaders h.nt,
        peSizeOfImage h.nt)) = some ([viewSection 16 352], 312, 1, 352, 0x2000) := by
    decide +kernel
  have hmapped : (mapViewFile 16 352).1.isSome = true := by
    decide +kernel
  obtain ⟨h, hparse, hfields⟩ := map_eq_some_iff.mp hheaders
  simp only [Prod.mk.injEq] at hfields
  obtain ⟨htable, hsections, hnum, hsize, himage⟩ := hfields
  obtain ⟨⟨img, nt⟩, himg⟩ := isSome_iff_exists.mp hmapped
  obtain ⟨rfl, g, hmap⟩ := exists_mapImageAt_eq hparse himg
  obtain ⟨m, hm⟩ := exists_unrelocatedImage hparse hmap
  have hregular := regular_viewFile htable hsections hnum hsize rfl
  use h, img, g, m, hparse, hmap, hm
  apply (rvaToOffset_agrees_iff _ _ _ _ _ _ hparse hmap hm hregular).mpr
  have hsearched : searched [viewSection 16 352] = [viewSection 16 352] := by
    decide
  rw [Viewed, htable, hsearched]
  constructor
  · rw [forall_mem_singleton]
    intro r hr
    have hrva : 0x1000 ≤ r ∧ r < 0x1000 + 16 := hr
    have hoff : rawOffset .i386 (viewSection 16 352) r = 352 + (r - 0x1000) := by
      apply Build.wrap_of_lt
      show 352 + (r - 0x1000) < 0x100000000
      omega
    have hfile : (viewFile 16 352).size = 368 := rfl
    have hcontent : sectionContent (viewFile 16 352) h (viewSection 16 352) r =
        (viewFile 16 352).byte (352 + (r - 0x1000)) := by
      rw [sectionContent, Patch.apply_of_notMem, Patch.apply_of_notMem]
      · rw [Patch.apply, if_pos (mem_copyPatch_iff.mpr ⟨by decide, by decide, hr⟩)]
        simp only [copyPatch, viewSection, UInt32.reduceToNat]
      · simp only [headersPatch, headersRegion, hsize, Region.mem_iff]
        omega
      · intro hzero
        cases (mem_zeroPatch_iff.mp hzero).1
    have hmod : (352 + (r - 0x1000)) % 2 ^ 32 = 352 + (r - 0x1000) := by
      omega
    rw [SectionViewed, hoff, hmod, hfile, himage, hcontent, if_pos (by omega)]
    exact ⟨by omega, by omega, rfl⟩
  · intro r _ hnone
    rw [forall_mem_singleton] at hnone ⊢
    use fun hraw => hnone (mem_sectionRegion_of_raw hraw.2), fun hr => ⟨rfl, by omega⟩

/-- The offset of the first byte of a section without raw data is that of the headers. -/
theorem viewFile_not_agrees :
  ∃ h img g m, parseHeaders .i386 (viewFile 0 0) = some h ∧ Separate (viewFile 0 0) h ∧
    mapViewFile 0 0 = (some (img, h.nt), g) ∧
    unrelocatedImage (.lenient .i386) (viewFile 0 0) h img.base = some m ∧
    ¬ Agrees .i386 (viewFile 0 0) h m 0x1000
  := by
  have hheaders : (parseHeaders .i386 (viewFile 0 0)).map (fun h => (h.table (viewFile 0 0),
      peSizeOfHeaders h.nt, rvaToOffset .i386 h.nt 0x1000 368 (h.table (viewFile 0 0)))) =
        some ([viewSection 0 0], 352, 0) := by
    decide +kernel
  have hbyte : ((parseHeaders .i386 (viewFile 0 0)).bind fun h => (mapViewFile 0 0).1.bind fun p =>
      (unrelocatedImage (.lenient .i386) (viewFile 0 0) h p.1.base).map (· 0x1000)) = some 0 := by
    decide +kernel
  obtain ⟨h, hparse, hfields⟩ := map_eq_some_iff.mp hheaders
  simp only [Prod.mk.injEq] at hfields
  obtain ⟨htable, hsize, hoff⟩ := hfields
  rw [hparse, bind_some, bind_eq_some_iff] at hbyte
  obtain ⟨⟨img, nt⟩, himg, hbyte⟩ := hbyte
  obtain ⟨rfl, g, hmap⟩ := exists_mapImageAt_eq hparse himg
  obtain ⟨m, hm⟩ := exists_unrelocatedImage hparse hmap
  use h, img, g, m, hparse, Separate.of_single htable (by rw [hsize]; decide), hmap, hm
  intro hagrees
  have heq := (hagrees.byte 0 hoff).2.2
  rw [hm, map_some, some.injEq] at hbyte
  rw [hbyte] at heq
  revert heq
  decide +kernel

end Loader
