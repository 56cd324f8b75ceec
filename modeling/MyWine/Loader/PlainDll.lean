import MyWine.Loader.LoadSteps

/-!
# DLLs without sections

The image of a DLL that has neither sections nor relocations is its headers, so that all of it can
be read off the file.  The examples of the loader are such DLLs of one page (`plainDll`).
-/

open Pe SyscallSafe

namespace Loader

open List Option

section

variable {b : Build}

/-- Without sections the image is the headers of the file. -/
theorem byte_of_no_sections {k : Kernel b} {used : List Region} {path : CString} {f : File}
    {base : Ptr} {g : MainImage} {img : Image} {nt : ImageNtHeaders}
    (h : (mapImageAt k used path (some f) base g).1 = some (img, nt))
    (hsections : peSectionCount nt = 0) (hreloc : peGetDataDir nt directoryEntryBasereloc = none) :
  img.byte = (freshImage k img.base (peSizeOfImage nt)).copy 0 f.byte 0 (peSizeOfHeaders nt)
  := by
  obtain ⟨f', hdr, hf, -, rfl, hmap⟩ := mapImageAt_spec (Prod.ext h rfl)
  cases hf
  obtain ⟨-, -, -, -, hfill⟩ := mapParsed_spec hmap
  obtain ⟨-, copied, zeroed, hcopied, hzeroed, hbyte, -⟩ := fillImage_spec hfill
  rw [readSectionTable, hsections, List.range_zero, List.map_nil, copySections, List.foldlM_nil,
    Option.pure_def, Option.some.injEq] at hcopied
  rw [zeroSections, hsections, List.range_zero, List.foldlM_nil, Option.pure_def,
    Option.some.injEq] at hzeroed
  have hreloc' : ∀ m, applyRelocations b img.base hdr.nt m = some img.byte → img.byte = m := by
    intro m hm
    simp only [applyRelocations, hreloc] at hm
    split_ifs at hm
    · cases hm
      rfl
    · cases hm
      rfl
  rw [hreloc' zeroed hbyte, ← hzeroed, ← hcopied, copyHeaders]

theorem peSizeOfImage_imageNtHeaders (img : Bytes) :
  peSizeOfImage (imageNtHeaders img) = (img.u32 ((img.u32 60).toNat + 24 + 56)).toNat
  := by
  simp only [imageNtHeaders, peSizeOfImage, readNtHeaders, readDosHeader, Nat.zero_add]
  split_ifs
  · rfl
  · rfl

def plainDll (fields : List (ℕ × ℕ × ℕ)) : File :=
  .ofFields 0x300 (pe32Headers 0x1000 0x300 ++ fields)

def isPlain (f : File) : Bool :=
  (parseHeaders .i386 f).all fun h =>
    peSectionCount h.nt = 0 ∧ (peGetDataDir h.nt directoryEntryBasereloc).isNone ∧
    peSizeOfHeaders h.nt = 0x300 ∧ peSizeOfImage h.nt = 0x1000 ∧
    (f.byte.u32 60).toNat = 64 ∧ (f.byte.u32 144).toNat = 0x1000

theorem headersKept_of_isPlain {env : Env .i386}
    (h : ∀ path f, env.file path = some f → isPlain f = true) :
  HeadersKept env
  := by
  intro used path base g img nt hmap
  obtain ⟨f, hdr, hf, hparse, rfl, -⟩ := mapImageAt_spec (Prod.ext hmap rfl)
  have hplain := h path f hf
  rw [isPlain, hparse, all_some, decide_eq_true_eq] at hplain
  obtain ⟨hsections, hreloc, hheaders, hsize, hlfanew, hsize'⟩ := hplain
  rw [isNone_iff_eq_none] at hreloc
  rw [hf] at hmap
  have hread : ∀ a, a + 4 ≤ 0x300 → img.byte.u32 a = f.byte.u32 a := by
    intro a ha
    rw [Bytes.u32, Bytes.u32, Bytes.readLE_congr]
    intro x _ hx
    rw [byte_of_no_sections hmap hsections hreloc, Bytes.copy, if_pos ⟨Nat.zero_le x, by omega⟩,
      Nat.sub_zero, Nat.zero_add]
  rw [peSizeOfImage_imageNtHeaders, hread 60 (by omega), hlfanew, hread 144 (by omega), hsize',
    hsize]

theorem byte_ofFields_of_le {size bound : ℕ} {fields : List (ℕ × ℕ × ℕ)}
    (h : ∀ field ∈ fields, field.1 + field.2.1 ≤ bound) {x : ℕ} (hx : bound ≤ x) :
  (File.ofFields size fields).byte x = 0
  := by
  simp only [File.ofFields]
  induction fields using List.reverseRecOn with
  | nil => rfl
  | append_singleton fields field ih =>
    have hfield := h field (by simp)
    rw [foldl_append, foldl_cons, foldl_nil, Bytes.writeLE_of_notMem _ _ (by omega)]
    apply ih
    intro field' hfield'
    apply h field' (mem_append_left _ hfield')

/-- The image of a plain DLL is its file. -/
theorem image_of_isPlain {used : List Region} {path : CString} {fields : List (ℕ × ℕ × ℕ)}
    {base : Ptr} {g : MainImage} {img : Image} {nt : ImageNtHeaders}
    (hplain : isPlain (plainDll fields) = true)
    (hfields : ∀ field ∈ fields, field.1 + field.2.1 ≤ 0x300)
    (h : (mapImageAt (.roomy .i386) used path (some (plainDll fields)) base g).1 =
      some (img, nt)) :
  img.byte = (plainDll fields).byte
  := by
  obtain ⟨f, hdr, hf, hparse, rfl, -⟩ := mapImageAt_spec (Prod.ext h rfl)
  cases hf
  rw [isPlain, hparse, all_some, decide_eq_true_eq] at hplain
  obtain ⟨hsections, hreloc, hheaders, -⟩ := hplain
  rw [isNone_iff_eq_none] at hreloc
  rw [byte_of_no_sections h hsections hreloc, hheaders]
  funext x
  rw [Bytes.copy]
  split_ifs with hx
  · rw [Nat.sub_zero, Nat.zero_add]
  · have hheader : ∀ field ∈ pe32Headers 0x1000 0x300, field.1 + field.2.1 ≤ 0x300 := by decide
    have hall : ∀ field ∈ pe32Headers 0x1000 0x300 ++ fields, field.1 + field.2.1 ≤ 0x300 := by
      intro field hfield
      rcases mem_append.mp hfield with hfield | hfield
      · apply hheader field hfield
      · apply hfields field hfield
    rw [plainDll, byte_ofFields_of_le hall (by omega), freshImage]
    split_ifs
    · rfl
    · rfl

end

end Loader
