import Mathlib.Data.List.Find
import MyWine.Loader.ImageContent
import MyWine.Loader.RipScan

/-!
# The protections of the image at the entry of the guest

`map_image_at` gives each section the protection that it asks for.  Afterwards the startup changes
protections to be able to write, and each of its steps has a rule of its own for what it leaves
behind.  `apply_refptr_patch` restores what the section asks for.  The functions that seed the
`.bss` and the flag `_initialized` leave pages that can be read and written, and so does the loop of
`apply_final_patches` for every section that can be written, even if it can also be executed.
`apply_iob_patch` leaves pages that can be read and executed.

The startup reads the section table from the image.  As long as the headers in the image are those
of the file, the protections at the entry of the guest are the ones of the sections exactly when the
fixed protections happen to be right (`startupProt_exact_iff`).
-/

open Pe SyscallSafe

namespace Loader

open List Option

/-! ### Changes of protections -/

def Prot.r : Prot := ⟨true, false, false⟩
def Prot.rw : Prot := ⟨true, true, false⟩
def Prot.rx : Prot := ⟨true, false, true⟩

section

variable {b : Build} (k : Kernel b) (base : Ptr) (prot : ℕ → Prot)

/-- The protections of the image after an `mprotect` of the `n` bytes from the RVA `a` on. -/
def mprotectImage (a n : ℕ) (p : Prot) : ℕ → Prot :=
  if k.mprotect (base + a) n p then setProt prot a n p else prot

/-- `with_mprotect_rw`: the pages of the `n` bytes from the RVA `a` on can be written while they are
patched, and get the protection `restoreProt` then. -/
def withMprotectRw (a n : ℕ) (restoreProt : Prot) : ℕ → Prot :=
  let alignedAddr := pageStart a
  let total := pageRoundUp (a + n) - alignedAddr
  if k.mprotect (base + alignedAddr) total Prot.all then
    mprotectImage k base (setProt prot alignedAddr total Prot.all) alignedAddr total restoreProt
  else prot

end

/-! ### The C runtime -/

def findSectionByName (nt : ImageNtHeaders) (img : Bytes) (table : ℕ) (name : CString) :
    Option ImageSectionHeader :=
  let headers := (List.range (peSectionCount nt)).map fun i => table + sizeofSectionHeader * i
  if 8 < name.length then none
  else (headers.find? fun off => sectionNamed img off name).map (readSectionHeader img)

def findBss (nt : ImageNtHeaders) (img : Bytes) : Option ImageSectionHeader :=
  findSectionByName nt img (getImageSections nt img) (.ofString ".bss")

def restoreProt (table : List ImageSectionHeader) (page : ℕ) : Prot :=
  match table.find? fun s =>
      decide (s.virtualAddress.toNat ≤ page ∧ page < s.virtualAddress.toNat + sectionSize s) with
  | some s => sectionProt s
  | none => Prot.r

/-- The two C runtimes of guests. -/
inductive Crt where
  | mingw
  | watcom
  deriving DecidableEq

/-- What the startup of a guest finds: the C runtime, the RVAs of the slots that it patches, the RVA
of the flag `_initialized` of the guest, the address of `__iob_func`, and the bytes of the image at
each step that reads its section table. -/
structure StartupInput where
  crt : Crt
  refptrs : List (ℕ × Bytes)
  patching : Bytes
  initialized : Option ℕ
  seeding : Bytes
  iobFunc : Ptr
  finishing : Bytes

section

variable {b : Build} (k : Kernel b) (nt : ImageNtHeaders) (base : Ptr)

def applyRefptrPatch (img : Bytes) (prot : ℕ → Prot) (rva : ℕ) : ℕ → Prot :=
  if peSizeOfImage nt ≤ rva then prot
  else
    let page := pageStart rva
    let table := readSectionTable img (getImageSections nt img) (peSectionCount nt)
    withMprotectRw k base prot page pageSize (restoreProt table page)

def protectBss (prot : ℕ → Prot) (vaddr size : ℕ) : ℕ → Prot :=
  mprotectImage k base prot (pageStart vaddr) (b.wrap (pageRoundUp size)) Prot.rw

def patchRefptrs (u : StartupInput) (prot : ℕ → Prot) : ℕ → Prot :=
  match u.crt with
  | .mingw => u.refptrs.foldl (fun prot r => applyRefptrPatch k nt base r.2 prot r.1) prot
  | .watcom =>
    match findBss nt u.patching with
    | none => prot
    | some bss => protectBss k base prot bss.virtualAddress.toNat (sectionSize bss)

def patchCrtInitialized (u : StartupInput) (prot : ℕ → Prot) : ℕ → Prot :=
  match u.crt, u.initialized with
  | .mingw, some rva =>
    if peRvaRangeIsValid rva 4 (peSizeOfImage nt) then
      mprotectImage k base prot (pageStart rva) pageSize Prot.rw
    else prot
  | _, _ => prot

/-- `mingw_seed_bss` and `watcom_seed_bss`.  The address of the `.bss` was recorded when the refptrs
were patched. -/
def seedBss (u : StartupInput) (prot : ℕ → Prot) : ℕ → Prot :=
  let bssVaddr := ((findBss nt u.patching).map fun s => s.virtualAddress.toNat).getD 0
  if bssVaddr = 0 then prot
  else
    match findBss nt u.seeding with
    | none => prot
    | some bss => protectBss k base prot bssVaddr (sectionSize bss)

end

/-! ### The last patches of the `x64` build -/

def findTextThunk (nt : ImageNtHeaders) (base : Ptr) (img : Bytes) (target : Ptr) : Option ℕ :=
  match findCodeSection nt img (getImageSections nt img) with
  | none => none
  | some text =>
    let start := text.virtualAddress.toNat
    let len := textLength text
    if 2 ^ 32 - 1 - len < start ∨ len < 6 ∨
        !peRvaRangeIsValid start len (peSizeOfImage nt) then none
    else
      ((List.range (len - 5)).map (start + ·)).find? fun rva =>
        (scanAt nt base img rva).any fun slot =>
          if peIsPe32 nt then img.readLE slot 4 = target % 2 ^ 32 else img.readLE slot 8 = target

def findTextEnd (text : ImageSectionHeader) : ℕ :=
  let start := text.virtualAddress.toNat
  let stop := (start + text.virtualSize.toNat) % 2 ^ 32
  if stop < start ∨ text.virtualSize < text.sizeOfRawData then
    (start + text.sizeOfRawData.toNat) % 2 ^ 32
  else stop

def acrtIobPatchSize : ℕ := 15

/-- The RVA of the thunk that `patch_acrt_iob` replaces, if `apply_iob_patch` accepts it. -/
def iobThunk (nt : ImageNtHeaders) (base : Ptr) (img : Bytes) (iobFunc : Ptr) : Option ℕ :=
  let textEnd := ((findCodeSection nt img (getImageSections nt img)).map findTextEnd).getD 0
  match findTextThunk nt base img iobFunc with
  | none => none
  | some rva =>
    if img rva ≠ 0xFF ∨ img (rva + 1) ≠ 0x25 then none
    else if textEnd = 0 ∨ textEnd < rva + acrtIobPatchSize then none
    else some rva

def parsePeHeaders (img : Bytes) : ImageNtHeaders :=
  let peOff := (readDosHeader img 0).eLfanew.toNat
  readNtHeaders img peOff (if img.u16 (peOff + 24) = 0x10B then .pe32 else .pe64)

section

variable {b : Build} (k : Kernel b) (base : Ptr)

def protectWritable (table : List ImageSectionHeader) (prot : ℕ → Prot) : ℕ → Prot :=
  table.foldl (fun prot s =>
    if s.characteristics &&& scnMemWrite ≠ 0 ∧ sectionSize s ≠ 0 then
      mprotectImage k base prot s.virtualAddress.toNat (b.wrap (pageRoundUp (sectionSize s)))
        Prot.rw
    else prot) prot

def applyFinalPatches (u : StartupInput) (prot : ℕ → Prot) : ℕ → Prot :=
  let img := u.finishing
  let nt := parsePeHeaders img
  let prot :=
    match iobThunk nt base img u.iobFunc with
    | none => prot
    | some rva => withMprotectRw k base prot rva acrtIobPatchSize Prot.rx
  protectWritable k base (readSectionTable img (getImageSections nt img) (peSectionCount nt)) prot

/-- The protections of the image when the guest is entered, `prot` being those of `map_image_at`. -/
def startupProt (nt : ImageNtHeaders) (u : StartupInput) (prot : ℕ → Prot) : ℕ → Prot :=
  let prot := patchRefptrs k nt base u prot
  match b with
  | .x64 => applyFinalPatches k base u (seedBss k nt base u prot)
  | .i386 => seedBss k nt base u (patchCrtInitialized k nt base u prot)

end

/-! ### The headers in the image -/

/-- The bytes of the headers that the startup reads: the magic number, `e_lfanew`, the NT headers and
the section table. -/
def HeaderByte (f : File) (h : ParsedHeaders) (x : ℕ) : Prop :=
  x < 2 ∨ 60 ≤ x ∧ x < 64 ∨
    x ∈ (⟨(readDosHeader f.byte 0).eLfanew.toNat, sizeofNtHeaders h.nt.peType⟩ : Region) ∨
    x ∈ tableRegion h

def HeadersIntact (f : File) (h : ParsedHeaders) (img : Bytes) : Prop :=
  ∀ x, HeaderByte f h x → img x = f.byte x

/-- The headers in the image are those of the file whenever the startup reads them. -/
structure StartupInput.Intact (u : StartupInput) (f : File) (h : ParsedHeaders) : Prop where
  refptrs : ∀ r ∈ u.refptrs, HeadersIntact f h r.2
  patching : HeadersIntact f h u.patching
  seeding : HeadersIntact f h u.seeding
  finishing : HeadersIntact f h u.finishing

section

variable {b : Build} {f : File} {h : ParsedHeaders} {img : Bytes}

theorem HeadersIntact.eLfanew (hintact : HeadersIntact f h img) :
  (readDosHeader img 0).eLfanew = (readDosHeader f.byte 0).eLfanew
  := by
  simp only [readDosHeader, Bytes.u32]
  rw [Bytes.readLE_congr]
  intro x hle hx
  apply hintact x
  right
  left
  omega

theorem HeadersIntact.tableKept (hintact : HeadersIntact f h img) :
  TableKept f h img
  := fun x _ hx => hintact x (.inr (.inr (.inr hx)))

theorem HeadersIntact.getImageSections (hparse : parseSections b f h.nt = some h.sections)
    (hintact : HeadersIntact f h img) :
  getImageSections h.nt img = h.sections
  := by
  rw [Loader.getImageSections, hintact.eLfanew, ← parseSections_spec hparse]

section

variable (hintact : HeadersIntact f h img)
include hintact

theorem HeadersIntact.apply_table {i j : ℕ} (hi : i < peSectionCount h.nt)
    (hj : j < sizeofSectionHeader) :
  img (h.sections + sizeofSectionHeader * i + j) =
    f.byte (h.sections + sizeofSectionHeader * i + j)
  := by
  apply hintact
  right
  right
  right
  simp only [tableRegion, Region.mem_iff, sizeofSectionHeader] at hj ⊢
  omega

theorem HeadersIntact.readSectionHeader {i : ℕ} (hi : i < peSectionCount h.nt) :
  readSectionHeader img (h.sections + sizeofSectionHeader * i) =
    Pe.readSectionHeader f.byte (h.sections + sizeofSectionHeader * i)
  := by
  apply readSectionHeader_congr
  intro x hle hx
  obtain ⟨j, rfl⟩ := Nat.exists_eq_add_of_le hle
  apply hintact.apply_table hi
  omega

theorem HeadersIntact.table :
  readSectionTable img h.sections (peSectionCount h.nt) = h.table f
  := by
  apply map_congr_left
  intro i hi
  apply hintact.readSectionHeader (mem_range.mp hi)

theorem HeadersIntact.findSectionByName {name : CString} (hname : name.length < 40) :
  findSectionByName h.nt img h.sections name = Loader.findSectionByName h.nt f.byte h.sections name
  := by
  have hnamed : ∀ i ∈ List.range (peSectionCount h.nt),
      sectionNamed img (h.sections + sizeofSectionHeader * i) name =
        sectionNamed f.byte (h.sections + sizeofSectionHeader * i) name := by
    intro i hi
    rw [mem_range] at hi
    have hchars : ((List.range name.length).map fun j =>
        asciiLower (img (h.sections + sizeofSectionHeader * i + j))) =
        (List.range name.length).map fun j =>
          asciiLower (f.byte (h.sections + sizeofSectionHeader * i + j)) := by
      apply map_congr_left
      intro j hj
      rw [hintact.apply_table hi (lt_trans (mem_range.mp hj) hname)]
    rw [sectionNamed, sectionNamed, hchars, hintact.apply_table hi hname]
  have hfind : (List.range (peSectionCount h.nt)).find?
      (fun i => sectionNamed img (h.sections + sizeofSectionHeader * i) name) =
        (List.range (peSectionCount h.nt)).find?
          fun i => sectionNamed f.byte (h.sections + sizeofSectionHeader * i) name :=
    List.find?_congr hnamed
  simp only [Loader.findSectionByName, List.find?_map, Option.map_map, Function.comp_def, hfind]
  congr 1
  cases hi : (List.range (peSectionCount h.nt)).find?
      fun i => sectionNamed f.byte (h.sections + sizeofSectionHeader * i) name with
  | none => rfl
  | some i =>
    have hlt := mem_range.mp (mem_of_find?_eq_some hi)
    simp [hintact.readSectionHeader hlt]

end

theorem HeadersIntact.findBss (hparse : parseSections b f h.nt = some h.sections)
    (hintact : HeadersIntact f h img) :
  findBss h.nt img = Loader.findSectionByName h.nt f.byte h.sections (.ofString ".bss")
  := by
  rw [Loader.findBss, hintact.getImageSections hparse]
  apply hintact.findSectionByName
  decide

theorem HeadersIntact.parsePeHeaders (hparse : parseHeaders b f = some h)
    (hintact : HeadersIntact f h img) :
  parsePeHeaders img = h.nt
  := by
  obtain ⟨hmagic, hread⟩ := parseHeaders_magic hparse
  have hsize : 26 ≤ sizeofNtHeaders h.nt.peType := by
    cases h.nt.peType <;> decide
  have hnt {x : ℕ} (hle : (readDosHeader f.byte 0).eLfanew.toNat ≤ x)
      (hlt : x < (readDosHeader f.byte 0).eLfanew.toNat + sizeofNtHeaders h.nt.peType) :
      img x = f.byte x :=
    hintact x (.inr (.inr (.inl ⟨hle, hlt⟩)))
  have hu16 : img.u16 ((readDosHeader f.byte 0).eLfanew.toNat + 24) =
      f.byte.u16 ((readDosHeader f.byte 0).eLfanew.toNat + 24) := by
    rw [Bytes.u16, Bytes.u16, Bytes.readLE_congr]
    intro x hle hx
    apply hnt <;> omega
  have htype : (if f.byte.u16 ((readDosHeader f.byte 0).eLfanew.toNat + 24) = 0x10B then PeType.pe32
      else PeType.pe64) = h.nt.peType := by
    rw [peTypeOfMagic] at hmagic
    split_ifs at hmagic ⊢
    · apply Option.some.inj hmagic
    · apply Option.some.inj hmagic
  simp only [Loader.parsePeHeaders, hintact.eLfanew, hu16, htype]
  rw [hread]
  apply readNtHeaders_congr
  intro x hle hx
  rw [← hread] at hx
  exact hnt hle hx

end

/-! ### The protections of the sections -/

def Kernel.Protects {b : Build} (k : Kernel b) : Prop :=
  ∀ a n p, pageSize ∣ a → k.mprotect a n p = true

/-- The pages of each section that is not empty have the protection that the section asks for. -/
def Exact (f : File) (h : ParsedHeaders) (prot : ℕ → Prot) : Prop :=
  ∀ s ∈ h.table f, sectionSize s ≠ 0 → ∀ x ∈ sectionPages s, prot x = sectionProt s

def fileBss (f : File) (h : ParsedHeaders) : Option ImageSectionHeader :=
  findSectionByName h.nt f.byte h.sections (.ofString ".bss")

/-- The startup makes the section, the `.bss`, writable.  `seed_bss` takes the RVA zero for none. -/
def OpensBss (f : File) (h : ParsedHeaders) (u : StartupInput) (s : ImageSectionHeader) : Prop :=
  fileBss f h = some s ∧ (u.crt = .watcom ∨ s.virtualAddress ≠ 0)

def pagesOf (a n : ℕ) : Region := ⟨pageStart a, pageRoundUp (a + n) - pageStart a⟩

def IobPage (nt : ImageNtHeaders) (base : Ptr) (u : StartupInput) (x : ℕ) : Prop :=
  ∃ rva, iobThunk nt base u.finishing u.iobFunc = some rva ∧ x ∈ pagesOf rva acrtIobPatchSize

def InitializedPage (nt : ImageNtHeaders) (u : StartupInput) (x : ℕ) : Prop :=
  ∃ rva, u.crt = .mingw ∧ u.initialized = some rva ∧
    peRvaRangeIsValid rva 4 (peSizeOfImage nt) = true ∧ x ∈ pagesOf (pageStart rva) pageSize

/-- The fixed protections of the startup are the ones that the sections ask for.  On `x64` the
sections that can be written can be read and not executed, a `.bss` that cannot be written lies in
the pages of the replaced thunk, and the sections of that thunk can be read and executed unless they
can be written.  On `i386` the `.bss` and the section of `_initialized` can be read and written. -/
def Guarded (f : File) (h : ParsedHeaders) (base : Ptr) (u : StartupInput) : Build → Prop
  | .x64 =>
    (∀ s ∈ h.table f, sectionSize s ≠ 0 → (sectionProt s).write = true → sectionProt s = Prot.rw) ∧
      (∀ s, OpensBss f h u s → (sectionProt s).write = false →
        ∀ x ∈ sectionPages s, IobPage h.nt base u x) ∧
      ∀ s ∈ h.table f, (sectionProt s).write = false → ∀ x ∈ sectionPages s,
        IobPage h.nt base u x → sectionProt s = Prot.rx
  | .i386 =>
    (∀ s, OpensBss f h u s → sectionSize s ≠ 0 → sectionProt s = Prot.rw) ∧
      ∀ s ∈ h.table f, ∀ x ∈ sectionPages s, InitializedPage h.nt u x → sectionProt s = Prot.rw

section

variable {b : Build} {k : Kernel b} {base : Ptr} {f : File} {h : ParsedHeaders}

theorem pageSize_dvd_pageStart (n : ℕ) :
  pageSize ∣ pageStart n
  := Nat.dvd_mul_left _ _

theorem mprotectImage_apply (hk : k.Protects) (hbase : pageSize ∣ base) (prot : ℕ → Prot) {a : ℕ}
    (ha : pageSize ∣ a) (n : ℕ) (p : Prot) (x : ℕ) :
  mprotectImage k base prot a n p x = if a ≤ x ∧ x < a + n then p else prot x
  := by
  rw [mprotectImage, if_pos (hk _ _ _ (Nat.dvd_add hbase ha)), setProt]

theorem withMprotectRw_apply (hk : k.Protects) (hbase : pageSize ∣ base) (prot : ℕ → Prot)
    (a n : ℕ) (p : Prot) (x : ℕ) :
  withMprotectRw k base prot a n p x = if x ∈ pagesOf a n then p else prot x
  := by
  have hdvd := pageSize_dvd_pageStart a
  simp only [withMprotectRw, if_pos (hk _ _ _ (Nat.dvd_add hbase hdvd)),
    mprotectImage_apply hk hbase _ hdvd, setProt, pagesOf, Region.mem_iff]
  split_ifs <;> rfl

variable {s : ImageSectionHeader}

theorem pageStart_mem (haligned : pageSize ∣ s.virtualAddress.toNat) {x rva : ℕ}
    (hx : x ∈ sectionPages s) (hpage : x ∈ pagesOf (pageStart rva) pageSize) :
  s.virtualAddress.toNat ≤ pageStart rva ∧
    pageStart rva < s.virtualAddress.toNat + sectionSize s ∧ pageStart rva ∈ sectionPages s
  := by
  obtain ⟨m, hm⟩ := haligned
  simp only [sectionPages, pagesOf, pageStart, Region.mem_iff, pageRoundUp, pageSize]
    at hx hpage hm ⊢
  omega

theorem start_mem_sectionPages (hne : sectionSize s ≠ 0) :
  s.virtualAddress.toNat ∈ sectionPages s
  := by
  have hle := le_pageRoundUp (sectionSize s)
  simp only [sectionPages, Region.mem_iff]
  omega

theorem fileBss_mem {bss : ImageSectionHeader} (hbss : fileBss f h = some bss) :
  bss ∈ h.table f
  := by
  simp only [fileBss, findSectionByName, List.find?_map, Option.map_map] at hbss
  obtain ⟨i, hi, rfl⟩ := Option.map_eq_some_iff.mp hbss
  apply mem_table (List.mem_range.mp (List.mem_of_find?_eq_some hi))

/-- What the startup relies on: `mprotect` works, and the sections of the file, whose headers have been
read, start at pages, do not overlap and are not too large. -/
structure Laid (k : Kernel b) (base : Ptr) (f : File) (h : ParsedHeaders) : Prop where
  protects : k.Protects
  base : pageSize ∣ base
  apart : SectionsApart f h
  aligned : ∀ s ∈ h.table f, sectionSize s ≠ 0 → pageSize ∣ s.virtualAddress.toNat
  size : ∀ s ∈ h.table f, pageRoundUp (sectionSize s) < b.ptrLimit
  parse : parseHeaders b f = some h

section

variable (hl : Laid k base f h) {prot : ℕ → Prot} {s : ImageSectionHeader} {x : ℕ}
include hl

theorem Laid.sections :
  parseSections b f h.nt = some h.sections
  := (parseHeaders_spec hl.parse).2.2

theorem applyRefptrPatch_exact {img : Bytes} (hintact : HeadersIntact f h img)
    (hexact : Exact f h prot) (rva : ℕ) :
  Exact f h (applyRefptrPatch k h.nt base img prot rva)
  := by
  intro s hs hne x hx
  rw [applyRefptrPatch]
  split_ifs
  · apply hexact s hs hne x hx
  · rw [hintact.getImageSections hl.sections, hintact.table,
      withMprotectRw_apply hl.protects hl.base]
    split_ifs with hpage
    · obtain ⟨hle, hlt, hmem⟩ := pageStart_mem (hl.aligned s hs hne) hx hpage
      rw [restoreProt]
      -- The first section that contains the start of the page is `s`.
      cases hfind : (h.table f).find? fun s => decide (s.virtualAddress.toNat ≤ pageStart rva ∧
          pageStart rva < s.virtualAddress.toNat + sectionSize s) with
      | none =>
        rw [List.find?_eq_none] at hfind
        exact absurd (decide_eq_true ⟨hle, hlt⟩) (hfind s hs)
      | some t =>
        have ht := mem_of_find?_eq_some hfind
        have hpred := List.find?_some hfind
        obtain ⟨htle, htlt⟩ := of_decide_eq_true hpred
        have hmem' : pageStart rva ∈ sectionPages t := by
          simp only [sectionPages, Region.mem_iff]
          have hround := le_pageRoundUp (sectionSize t)
          omega
        have hne' := sectionSize_ne_zero_of_mem hmem'
        rw [hl.apart.eq_of_mem_pages hl.aligned hs ht hne hne' hmem hmem']
    · apply hexact s hs hne x hx

theorem foldl_applyRefptrPatch_exact {refptrs : List (ℕ × Bytes)}
    (hintact : ∀ r ∈ refptrs, HeadersIntact f h r.2) (hexact : Exact f h prot) :
  Exact f h (refptrs.foldl (fun prot r => applyRefptrPatch k h.nt base r.2 prot r.1) prot)
  := by
  induction refptrs generalizing prot with
  | nil => exact hexact
  | cons r refptrs ih =>
    rw [forall_mem_cons] at hintact
    apply ih hintact.2
    apply applyRefptrPatch_exact hl hintact.1 hexact

variable (hs : s ∈ h.table f) (hx : x ∈ sectionPages s)
include hs hx

theorem Laid.mem_pages_iff {t : ImageSectionHeader} (ht : t ∈ h.table f) (ht0 : sectionSize t ≠ 0) :
  (t.virtualAddress.toNat ≤ x ∧ x < t.virtualAddress.toNat + pageRoundUp (sectionSize t)) ↔ t = s
  := by
  constructor
  · intro hmem
    apply hl.apart.eq_of_mem_pages hl.aligned ht hs ht0 (sectionSize_ne_zero_of_mem hx) hmem hx
  · rintro rfl
    exact hx

theorem protectBss_apply {bss : ImageSectionHeader} (hbss : bss ∈ h.table f) (prot : ℕ → Prot) :
  protectBss k base prot bss.virtualAddress.toNat (sectionSize bss) x =
    if bss = s then Prot.rw else prot x
  := by
  rw [protectBss, mprotectImage_apply hl.protects hl.base _ (pageSize_dvd_pageStart _),
    Build.wrap_of_lt (hl.size bss hbss)]
  by_cases hbss0 : sectionSize bss = 0
  · -- An empty `.bss` has no pages.
    have hempty : pageRoundUp (sectionSize bss) = 0 := by
      rw [hbss0]
      rfl
    have hne : bss ≠ s := by
      rintro rfl
      exact sectionSize_ne_zero_of_mem hx hbss0
    rw [hempty, if_neg (by omega), if_neg hne]
  · have hstart : pageStart bss.virtualAddress.toNat = bss.virtualAddress.toNat := by
      obtain ⟨m, hm⟩ := hl.aligned bss hbss hbss0
      rw [pageSize] at hm
      rw [pageStart]
      omega
    rw [hstart, if_congr (hl.mem_pages_iff hs hx hbss hbss0) rfl rfl]

theorem protectWritable_apply {table : List ImageSectionHeader}
    (htable : ∀ t ∈ table, t ∈ h.table f) (prot : ℕ → Prot) :
  protectWritable k base table prot x =
    if s ∈ table ∧ (sectionProt s).write = true then Prot.rw else prot x
  := by
  induction table generalizing prot with
  | nil => simp [protectWritable]
  | cons t table ih =>
    rw [forall_mem_cons] at htable
    rw [protectWritable, foldl_cons, ← protectWritable, ih htable.2]
    have hwrite : (sectionProt t).write = true ↔ t.characteristics &&& scnMemWrite ≠ 0 := by
      simp [sectionProt]
    by_cases hloop : t.characteristics &&& scnMemWrite ≠ 0 ∧ sectionSize t ≠ 0
    · rw [if_pos hloop, mprotectImage_apply hl.protects hl.base _ (hl.aligned t htable.1 hloop.2),
        Build.wrap_of_lt (hl.size t htable.1),
        if_congr (hl.mem_pages_iff hs hx htable.1 hloop.2) rfl rfl]
      rcases eq_or_ne t s with rfl | hts
      · simp [hwrite.mpr hloop.1]
      · simp [hts, hts.symm]
    · rw [if_neg hloop]
      rcases eq_or_ne s t with rfl | hst
      · have hnot : ¬ (sectionProt s).write = true := by
          rw [hwrite]
          intro hflag
          apply hloop ⟨hflag, sectionSize_ne_zero_of_mem hx⟩
        simp [hnot]
      · simp [hst]

variable {u : StartupInput} (hu : u.Intact f h)
include hu

theorem patchRefptrs_apply (hexact : Exact f h prot) :
  patchRefptrs k h.nt base u prot x =
    if u.crt = .watcom ∧ fileBss f h = some s then Prot.rw else sectionProt s
  := by
  have hne := sectionSize_ne_zero_of_mem hx
  rw [patchRefptrs]
  cases u.crt with
  | mingw =>
    simp only [reduceCtorEq, false_and, if_false]
    apply foldl_applyRefptrPatch_exact hl hu.refptrs hexact s hs hne x hx
  | watcom =>
    simp only [hu.patching.findBss hl.sections, true_and]
    rw [← fileBss]
    cases hbss : fileBss f h with
    | none => simp [hexact s hs hne x hx]
    | some bss =>
      simp only [some.injEq]
      rw [protectBss_apply hl hs hx (fileBss_mem hbss), hexact s hs hne x hx]

theorem seedBss_apply (prot : ℕ → Prot) :
  seedBss k h.nt base u prot x =
    if fileBss f h = some s ∧ s.virtualAddress ≠ 0 then Prot.rw else prot x
  := by
  simp only [seedBss, hu.patching.findBss hl.sections, hu.seeding.findBss hl.sections]
  rw [← fileBss]
  cases hbss : fileBss f h with
  | none => simp
  | some bss =>
    simp only [map_some, getD_some, some.injEq]
    by_cases hzero : bss.virtualAddress.toNat = 0
    · have hnot : ¬ (bss = s ∧ s.virtualAddress ≠ 0) := by
        rintro ⟨rfl, hne⟩
        apply hne (UInt32.toNat_inj.mp hzero)
      rw [if_pos hzero, if_neg hnot]
    · have hne : bss.virtualAddress ≠ 0 := fun heq => hzero (by rw [heq]; rfl)
      rw [if_neg hzero, protectBss_apply hl hs hx (fileBss_mem hbss)]
      apply if_congr _ rfl rfl
      constructor
      · rintro rfl
        exact ⟨rfl, hne⟩
      · apply And.left

/-- What the steps before the last patches leave on a page. -/
theorem seedBss_patchRefptrs_apply (hexact : Exact f h prot) :
  (OpensBss f h u s → seedBss k h.nt base u (patchRefptrs k h.nt base u prot) x = Prot.rw) ∧
    (¬ OpensBss f h u s →
      seedBss k h.nt base u (patchRefptrs k h.nt base u prot) x = sectionProt s)
  := by
  rw [seedBss_apply hl hs hx hu, patchRefptrs_apply hl hs hx hu hexact]
  constructor
  · rintro ⟨hbss, hopen⟩
    split_ifs <;> tauto
  · intro hnot
    rw [OpensBss] at hnot
    rw [if_neg (by tauto), if_neg (by tauto)]

end

theorem patchCrtInitialized_apply (hk : k.Protects) (hbase : pageSize ∣ base) (u : StartupInput)
    (prot : ℕ → Prot) (x : ℕ) :
  (InitializedPage h.nt u x → patchCrtInitialized k h.nt base u prot x = Prot.rw) ∧
    (¬ InitializedPage h.nt u x → patchCrtInitialized k h.nt base u prot x = prot x)
  := by
  have hmem (rva : ℕ) : x ∈ pagesOf (pageStart rva) pageSize ↔
      pageStart rva ≤ x ∧ x < pageStart rva + pageSize := by
    simp only [pagesOf, pageStart, pageRoundUp, pageSize, Region.mem_iff]
    omega
  cases hcrt : u.crt with
  | watcom => simp [InitializedPage, patchCrtInitialized, hcrt]
  | mingw =>
    cases hrva : u.initialized with
    | none => simp [InitializedPage, patchCrtInitialized, hcrt, hrva]
    | some rva =>
      simp only [InitializedPage, patchCrtInitialized, hcrt, hrva, some.injEq, true_and,
        exists_eq_left', hmem]
      split_ifs with hvalid
      · rw [mprotectImage_apply hk hbase _ (pageSize_dvd_pageStart rva)]
        constructor
        · rintro ⟨-, hpage⟩
          rw [if_pos hpage]
        · intro hpage
          rw [if_neg fun h => hpage ⟨hvalid, h⟩]
      · simp [hvalid]

/-- The pages of the replaced thunk become executable, and no other page changes, before the loop
over the sections that can be written. -/
theorem applyFinalPatches_apply (hl : Laid k base f h) (hs : s ∈ h.table f) {x : ℕ}
    (hx : x ∈ sectionPages s) {u : StartupInput} (hu : u.Intact f h) (prot : ℕ → Prot) :
  ((sectionProt s).write = true → applyFinalPatches k base u prot x = Prot.rw) ∧
    ((sectionProt s).write = false → IobPage h.nt base u x →
      applyFinalPatches k base u prot x = Prot.rx) ∧
    ((sectionProt s).write = false → ¬ IobPage h.nt base u x →
      applyFinalPatches k base u prot x = prot x)
  := by
  have htable : readSectionTable u.finishing (getImageSections h.nt u.finishing)
      (peSectionCount h.nt) = h.table f := by
    rw [hu.finishing.getImageSections hl.sections, hu.finishing.table]
  simp only [applyFinalPatches, hu.finishing.parsePeHeaders hl.parse, htable]
  rw [protectWritable_apply hl hs hx (fun t ht => ht)]
  refine ⟨fun hwrite => if_pos ⟨hs, hwrite⟩, ?_, ?_⟩
  · rintro hwrite ⟨rva, hrva, hmem⟩
    rw [if_neg (by simp [hwrite]), hrva]
    simp only
    rw [withMprotectRw_apply hl.protects hl.base, if_pos hmem]
  · intro hwrite hpage
    rw [if_neg (by simp [hwrite])]
    cases hrva : iobThunk h.nt base u.finishing u.iobFunc with
    | none => rfl
    | some rva =>
      simp only
      rw [withMprotectRw_apply hl.protects hl.base, if_neg fun hmem => hpage ⟨rva, hrva, hmem⟩]

end

/-! ### The protections at the entry -/

section

variable {base : Ptr} {f : File} {h : ParsedHeaders}

section

variable {u : StartupInput} (hu : u.Intact f h) {prot : ℕ → Prot} (hexact : Exact f h prot)
include hu hexact

theorem startupProt_x64_exact_iff {k : Kernel .x64} (hl : Laid k base f h) :
  Exact f h (startupProt k base h.nt u prot) ↔ Guarded f h base u .x64
  := by
  have hseed {s : ImageSectionHeader} (hs : s ∈ h.table f) {x : ℕ} (hx : x ∈ sectionPages s) :=
    seedBss_patchRefptrs_apply hl hs hx hu hexact
  have hfinal {s : ImageSectionHeader} (hs : s ∈ h.table f) {x : ℕ} (hx : x ∈ sectionPages s) :=
    applyFinalPatches_apply hl hs hx hu (seedBss k h.nt base u (patchRefptrs k h.nt base u prot))
  constructor
  · intro hright
    refine ⟨?_, ?_, ?_⟩
    · intro s hs hne hwrite
      have hx := start_mem_sectionPages hne
      rw [← hright s hs hne _ hx]
      apply (hfinal hs hx).1 hwrite
    · intro s hbss hwrite x hx
      have hs := fileBss_mem hbss.1
      by_contra hpage
      have hvalue := (hfinal hs hx).2.2 hwrite hpage
      rw [(hseed hs hx).1 hbss] at hvalue
      have hprot := (hright s hs (sectionSize_ne_zero_of_mem hx) x hx).symm.trans hvalue
      rw [hprot] at hwrite
      cases hwrite
    · intro s hs hwrite x hx hpage
      rw [← hright s hs (sectionSize_ne_zero_of_mem hx) x hx]
      apply (hfinal hs hx).2.1 hwrite hpage
  · rintro ⟨hrw, hbss, hrx⟩ s hs hne x hx
    obtain ⟨hfirst, hsecond, hthird⟩ := hfinal hs hx
    show applyFinalPatches k base u _ x = _
    cases hwrite : (sectionProt s).write with
    | true => rw [hfirst hwrite, hrw s hs hne hwrite]
    | false =>
      by_cases hpage : IobPage h.nt base u x
      · rw [hsecond hwrite hpage, hrx s hs hwrite x hx hpage]
      · rw [hthird hwrite hpage, (hseed hs hx).2]
        intro hopen
        apply hpage (hbss s hopen hwrite x hx)

theorem startupProt_i386_exact_iff {k : Kernel .i386} (hl : Laid k base f h) :
  Exact f h (startupProt k base h.nt u prot) ↔ Guarded f h base u .i386
  := by
  have hvalue {s : ImageSectionHeader} (hs : s ∈ h.table f) {x : ℕ} (hx : x ∈ sectionPages s) :
      (OpensBss f h u s ∨ InitializedPage h.nt u x →
          startupProt k base h.nt u prot x = Prot.rw) ∧
        (¬ (OpensBss f h u s ∨ InitializedPage h.nt u x) →
          startupProt k base h.nt u prot x = sectionProt s) := by
    have hpatch := @patchCrtInitialized_apply _ k base h hl.protects hl.base u
      (patchRefptrs k h.nt base u prot) x
    have hstep : startupProt k base h.nt u prot x = _ := seedBss_apply hl hs hx hu _
    have hrefptrs := patchRefptrs_apply hl hs hx hu hexact
    rw [hstep, OpensBss]
    by_cases hpage : InitializedPage h.nt u x
    · rw [hpatch.1 hpage, ite_self]
      tauto
    · rw [hpatch.2 hpage, hrefptrs]
      split_ifs <;> tauto
  constructor
  · intro hright
    constructor
    · intro s hbss hne
      have hs := fileBss_mem hbss.1
      have hx := start_mem_sectionPages hne
      rw [← hright s hs hne _ hx, (hvalue hs hx).1 (.inl hbss)]
    · intro s hs x hx hpage
      rw [← hright s hs (sectionSize_ne_zero_of_mem hx) x hx, (hvalue hs hx).1 (.inr hpage)]
  · rintro ⟨hbss, hinitialized⟩ s hs hne x hx
    by_cases hsome : OpensBss f h u s ∨ InitializedPage h.nt u x
    · rw [(hvalue hs hx).1 hsome]
      rcases hsome with hopen | hpage
      · rw [hbss s hopen hne]
      · rw [hinitialized s hs x hx hpage]
    · apply (hvalue hs hx).2 hsome

end

variable {b : Build}

/-- The pages of the sections of a mapped image have the protections of the sections, and the
sections start at pages. -/
theorem mapImageAt_exact {k : Kernel b} {used : List Region} {path : CString} {desiredBase : Ptr}
    {g g' : MainImage} {img : Image} (hparse : parseHeaders b f = some h)
    (hmap : mapImageAt k used path (some f) desiredBase g = (some (img, h.nt), g'))
    (hapart : SectionsApart f h) (hcovered : TableCovered h)
    (hsize : ∀ s ∈ h.table f, pageRoundUp (sectionSize s) < b.ptrLimit)
    (hintact : HeadersIntact f h img.byte) :
  pageSize ∣ img.base ∧ Exact f h img.prot ∧
    ∀ s ∈ h.table f, sectionSize s ≠ 0 → pageSize ∣ s.virtualAddress.toNat
  := by
  obtain ⟨-, -, -, hreserve, hfill⟩ := mapParsed_spec (mapParsed_of_mapImageAt hparse hmap).2
  have hbase := (reserveImage_spec hreserve).1.aligned
  obtain ⟨-, copied, zeroed, -, -, -, hprot⟩ := fillImage_spec hfill
  have hheaders := copyHeaders_of_mem f h.nt copied
  obtain ⟨hprot, haligned⟩ := protectSections_eq (parseHeaders_spec hparse).2.2 hcovered hsize
    hbase hheaders hintact.tableKept hprot
  refine ⟨hbase, ?_, haligned⟩
  intro s hs hne x hx
  rw [hprot]
  apply Patch.applyAll_of_mem
  · use protPatch s, mem_map_of_mem hs
    apply hx
  · rw [List.forall_mem_map]
    intro t ht hxt
    rw [hapart.eq_of_mem_pages haligned hs ht hne (sectionSize_ne_zero_of_mem hxt) hx hxt]
    rfl

end

def flagsFile (flags : ℕ) : File :=
  .ofFields 384 (pe64Headers 0x2000 368 ++ [(70, 2, 1), (336, 4, 16), (340, 4, 0x1000),
    (344, 4, 16), (348, 4, 368), (364, 4, flags), (368, 1, 0xC3)])

def flagsSection (flags : UInt32) : ImageSectionHeader := ⟨16, 0x1000, 16, 368, flags⟩

def mapFlagsFile (flags : ℕ) : Option (Image × ImageNtHeaders) × MainImage :=
  mapImageAt (.lenient .x64) [] (.ofString "a.exe") (some (flagsFile flags)) 0 .init

def plainStartup (img : Bytes) : StartupInput where
  crt := .mingw
  refptrs := []
  patching := img
  initialized := none
  seeding := img
  iobFunc := 0x10000
  finishing := img

end Loader
