import MyWine.Pe.SymbolScan
import MyWine.Loader.Protections

/-!
# The entry of the guest

The startup jumps to a symbol of the guest that the C runtime names, if the symbol table of the file
has one, and to the entry point of the headers otherwise (`initLoaderEntry` on `x64`,
`pe32ResolveEntrySymbol` on `i386`).  On `i386` the startup of Watcom programs names their entry
in an instruction at the entry point (`extractWatcomEntry`).  Only that last source is checked: the
value of a symbol, its section number and the entry point are taken as the file has them.  So the
guest is entered in an executable section exactly when the first source that answers names such a
place (`guestEntry_executable_iff`).
-/

open Pe SyscallSafe

namespace Loader

open Option

/-! ### The sources of the entry -/

def crtEntrySymbols : Crt → List CString
  | .mingw =>
    ["_WinMain@16", "_wWinMain@16", "_WinMain", "_wWinMain", "WinMain@16", "wWinMain@16",
      "Main@16", "wMain@16", "WinMain", "wWinMain", "main"].map CString.ofString
  | .watcom => ["D_DoomMain", "_D_DoomMain", "main"].map CString.ofString

/-- What the startup finds when it looks for the entry: the C runtime, the path of the program, the
file when it is opened for its symbols, the memory for them, and the image. -/
structure EntryInput where
  crt : Crt
  path : CString
  file : Option File
  heap : Option Bytes
  img : Bytes

def EntryInput.table (u : EntryInput) (nt : ImageNtHeaders) : List ImageSectionHeader :=
  readSectionTable u.img (getImageSections nt u.img) (peSectionCount nt)

def mainRva (b : Build) (nt : ImageNtHeaders) (u : EntryInput) (names : List CString) : ℕ :=
  match parseSymbolTableFromFile b u.file u.heap nt with
  | none => 0
  | some t => SymbolTable.firstRva (t.lookupSymbolRva (u.table nt)) names

def pe32Abs32ToRva (nt : ImageNtHeaders) (base : Ptr) (abs : UInt32) : Option ℕ :=
  let base := base % 2 ^ 32
  if abs.toNat < base then none
  else if peRvaRangeIsValid (abs.toNat - base) 4 (peSizeOfImage nt) then some (abs.toNat - base)
  else none

def pe32RvaInSection (rva len : ℕ) (sec : ImageSectionHeader) : Bool :=
  let start := sec.virtualAddress.toNat
  let size :=
    if sec.virtualSize = 0 ∨ sec.virtualSize < sec.sizeOfRawData then sec.sizeOfRawData.toNat
    else sec.virtualSize.toNat
  let stop := (start + size) % 2 ^ 32
  if size = 0 ∨ stop < start then false
  else if rva < start ∨ stop ≤ rva then false
  else len ≤ stop - rva

/-- `pe32_extract_watcom_entry_from_entry_stub`: the entry that the instructions at the entry point
store before they branch to the startup of the C runtime. -/
def extractWatcomEntry (nt : ImageNtHeaders) (base : Ptr) (u : EntryInput) : Option ℕ :=
  let entry := peEntryRva nt
  let size := peSizeOfImage nt
  if u.crt ≠ .watcom then none
  else if !peRvaRangeIsValid entry 15 size then none
  else if u.img entry ≠ 0xC7 ∨ u.img (entry + 1) ≠ 0x05 then none
  else if u.img (entry + 10) ≠ 0xE9 ∧ u.img (entry + 10) ≠ 0xE8 then none
  else
    match pe32Abs32ToRva nt base (u.img.u32 (entry + 2)) with
    | none => none
    | some store =>
      if !(u.table nt).any fun s =>
          s.characteristics &&& scnMemWrite = scnMemWrite && pe32RvaInSection store 4 s then none
      else
        match findCodeSection nt u.img (getImageSections nt u.img) with
        | none => none
        | some code =>
          match pe32Abs32ToRva nt base (u.img.u32 (entry + 6)) with
          | none => none
          | some candidate =>
            if !pe32RvaInSection candidate 1 code then none
            else
              let next : ℕ := (entry + 15) % 2 ^ 32
              let target : ℤ := (next : ℤ) + (u.img.u32 (entry + 11)).toInt32.toInt
              if next < entry ∨ target < 0 ∨ 2 ^ 32 - 1 < target ∨
                  !peRvaRangeIsValid target.toNat 1 size ∨
                  !pe32RvaInSection target.toNat 1 code then none
              else some candidate

def pe32IsDoom95Path (path : CString) : Bool :=
  CString.ofBytes (path.bytes.reverse.takeWhile (· ≠ 0x2F)).reverse = .ofString "DOOM95.EXE"

def pe32ResolveEntrySymbol (nt : ImageNtHeaders) (base : Ptr) (u : EntryInput) : ℕ :=
  let peEntry := peEntryRva nt
  if pe32IsDoom95Path u.path then peEntry
  else
    let names := crtEntrySymbols u.crt ++ [.ofString "_main", .ofString "main"]
    let main := mainRva .i386 nt u names
    let entry := if main ≠ 0 then main else peEntry
    if entry = peEntry then (extractWatcomEntry nt base u).getD entry else entry

def initLoaderEntry (nt : ImageNtHeaders) (u : EntryInput) : ℕ :=
  let main := mainRva .x64 nt u (crtEntrySymbols u.crt)
  if main ≠ 0 then main else peEntryRva nt

def guestEntry (b : Build) (nt : ImageNtHeaders) (base : Ptr) (u : EntryInput) : Ptr :=
  match b with
  | .x64 => Build.x64.wrap (base + initLoaderEntry nt u)
  | .i386 => Build.i386.wrap (base + pe32ResolveEntrySymbol nt base u)

/-! ### Entries in executable sections -/

def ExecRva (f : File) (h : ParsedHeaders) (r : ℕ) : Prop :=
  r < peSizeOfImage h.nt ∧ ∃ s ∈ h.table f, r ∈ sectionRegion s ∧ (sectionProt s).exec = true

def ExecAddr (f : File) (h : ParsedHeaders) (base a : ℕ) : Prop :=
  ∃ r, ExecRva f h r ∧ a = base + r

def EntryInput.symbols (b : Build) (nt : ImageNtHeaders) (u : EntryInput) : Option SymbolTable :=
  parseSymbolTableFromFile b u.file u.heap nt

def NoSymbol (b : Build) (nt : ImageNtHeaders) (u : EntryInput) (names : List CString) : Prop :=
  ∀ t ∈ u.symbols b nt, ∀ r, ¬ t.NamedAt (u.table nt) names r

def FirstOk (b : Build) (nt : ImageNtHeaders) (u : EntryInput) (names : List CString)
    (P : ℕ → Prop) : Prop :=
  ∀ t ∈ u.symbols b nt, ∀ r, t.NamedAt (u.table nt) names r → P r

/-- The instructions at the entry point of a Watcom program: one that stores the address of the RVA
`candidate`, in the code, to a variable that can be written, and a branch in the code. -/
structure WatcomStub (nt : ImageNtHeaders) (base : Ptr) (u : EntryInput) (candidate : ℕ) : Prop where
  crt : u.crt = .watcom
  inside : peEntryRva nt + 15 ≤ peSizeOfImage nt
  store : u.img (peEntryRva nt) = 0xC7 ∧ u.img (peEntryRva nt + 1) = 0x05
  branch : u.img (peEntryRva nt + 10) = 0xE9 ∨ u.img (peEntryRva nt + 10) = 0xE8
  cell : ∃ v, (u.img.u32 (peEntryRva nt + 2)).toNat = base % 2 ^ 32 + v ∧
    v + 4 ≤ peSizeOfImage nt ∧ ∃ s ∈ u.table nt,
      s.characteristics &&& scnMemWrite = scnMemWrite ∧ pe32RvaInSection v 4 s
  value : (u.img.u32 (peEntryRva nt + 6)).toNat = base % 2 ^ 32 + candidate ∧
    candidate + 4 ≤ peSizeOfImage nt
  code : ∃ code, findCodeSection nt u.img (getImageSections nt u.img) = some code ∧
    pe32RvaInSection candidate 1 code ∧
    ∃ target : ℕ, (target : ℤ) = peEntryRva nt + 15 +
        (u.img.u32 (peEntryRva nt + 11)).toInt32.toInt ∧
      target + 1 ≤ peSizeOfImage nt ∧ pe32RvaInSection target 1 code

/-- The entry that a Watcom program stores at its entry point, or the entry point, is executable. -/
def StubOk (f : File) (h : ParsedHeaders) (base : Ptr) (u : EntryInput) : Prop :=
  (∀ candidate, WatcomStub h.nt base u candidate → ExecRva f h candidate) ∧
    ((∀ candidate, ¬ WatcomStub h.nt base u candidate) → ExecRva f h (peEntryRva h.nt))

/-- The first source that answers names a place in an executable section: on `x64` the first record of
a symbol of the C runtime, or else the entry point; on `i386` the first record of a symbol of the C
runtime or of `main` unless it is at the entry point, or else the instructions at the entry point, or
else the entry point, which alone counts for Doom95. -/
def EntryOk (f : File) (h : ParsedHeaders) (base : Ptr) (u : EntryInput) : Build → Prop
  | .x64 =>
    let names := crtEntrySymbols u.crt
    FirstOk .x64 h.nt u names (ExecRva f h) ∧
      (NoSymbol .x64 h.nt u names → ExecRva f h (peEntryRva h.nt))
  | .i386 =>
    let names := crtEntrySymbols u.crt ++ [.ofString "_main", .ofString "main"]
    if pe32IsDoom95Path u.path then ExecRva f h (peEntryRva h.nt)
    else
      FirstOk .i386 h.nt u names
          (fun r => if r = peEntryRva h.nt then StubOk f h base u else ExecRva f h r) ∧
        (NoSymbol .i386 h.nt u names → StubOk f h base u)

section

variable {b : Build} {nt : ImageNtHeaders} {u : EntryInput} {names : List CString}

theorem mainRva_eq_zero_iff :
  mainRva b nt u names = 0 ↔ NoSymbol b nt u names
  := by
  rw [mainRva, NoSymbol, EntryInput.symbols]
  cases parseSymbolTableFromFile b u.file u.heap nt with
  | none => simp
  | some t =>
    simp only [mem_some, forall_eq', SymbolTable.namedAt_iff]
    grind

theorem mainRva_iff {P : ℕ → Prop} :
  (mainRva b nt u names ≠ 0 → P (mainRva b nt u names)) ↔ FirstOk b nt u names P
  := by
  rw [mainRva, FirstOk, EntryInput.symbols]
  cases parseSymbolTableFromFile b u.file u.heap nt with
  | none => simp
  | some t =>
    simp only [mem_some, forall_eq', SymbolTable.namedAt_iff]
    grind

theorem mainRva_lt :
  mainRva b nt u names < 2 ^ 32
  := by
  rw [mainRva]
  cases parseSymbolTableFromFile b u.file u.heap nt with
  | none => apply Nat.two_pow_pos
  | some t =>
    simp only
    induction names with
    | nil => apply Nat.two_pow_pos
    | cons name names ih =>
      rw [SymbolTable.firstRva_cons]
      split_ifs
      · apply SymbolTable.lookupSymbolRva_lt
      · exact ih

end

section

variable {b : Build} {f : File} {h : ParsedHeaders} {base : Ptr} {u : EntryInput}

/-- The addition of an RVA to the base of the image wraps around only to addresses below the
base. -/
theorem execAddr_wrap_iff {base r : ℕ} (hbase : base + peSizeOfImage h.nt ≤ b.ptrLimit)
    (hr : r < 2 ^ 32) :
  ExecAddr f h base (b.wrap (base + r)) ↔ ExecRva f h r
  := by
  have hlimit : 2 ^ 32 ≤ b.ptrLimit := by
    cases b <;> decide
  constructor
  · rintro ⟨r', hr', heq⟩
    have hlt := hr'.1
    have hsame : r = r' := by
      rw [Build.wrap] at heq
      rcases lt_or_ge (base + r) b.ptrLimit with hsmall | hbig
      · rw [Nat.mod_eq_of_lt hsmall] at heq
        omega
      · rw [Nat.mod_eq_sub_mod hbig, Nat.mod_eq_of_lt (by omega)] at heq
        omega
    rwa [hsame]
  · intro hexec
    use r, hexec
    apply Build.wrap_of_lt
    have hlt := hexec.1
    omega

theorem peEntryRva_lt (nt : ImageNtHeaders) :
  peEntryRva nt < 2 ^ 32
  := UInt32.toNat_lt _

theorem pe32Abs32ToRva_eq_some_iff {nt : ImageNtHeaders} {a : UInt32} {r : ℕ} :
  pe32Abs32ToRva nt base a = some r ↔ a.toNat = base % 2 ^ 32 + r ∧ r + 4 ≤ peSizeOfImage nt
  := by
  simp only [pe32Abs32ToRva, peRvaRangeIsValid_iff]
  split_ifs with hlt hvalid
  · rw [false_iff]
    omega
  · rw [some.injEq]
    omega
  · rw [false_iff]
    omega

theorem watcomStub_of_extract {candidate : ℕ}
    (hextract : extractWatcomEntry h.nt base u = some candidate) :
  WatcomStub h.nt base u candidate
  := by
  have hsize : peSizeOfImage h.nt < 2 ^ 32 := UInt32.toNat_lt _
  simp only [extractWatcomEntry] at hextract
  split_ifs at hextract with hcrt hinside hstore hbranch
  rw [not_not] at hcrt
  rw [Bool.not_eq_true', Bool.not_eq_false, peRvaRangeIsValid_iff] at hinside
  rw [not_or, not_not, not_not] at hstore
  rw [not_and_or, not_not, not_not] at hbranch
  split at hextract
  · cases hextract
  · next v hcell =>
    rw [pe32Abs32ToRva_eq_some_iff] at hcell
    split_ifs at hextract with hany
    rw [Bool.not_eq_true', Bool.not_eq_false, List.any_eq_true] at hany
    obtain ⟨s, hs, hwrite⟩ := hany
    rw [Bool.and_eq_true, decide_eq_true_eq] at hwrite
    split at hextract
    · cases hextract
    · next code hcode =>
      split at hextract
      · cases hextract
      · next r hvalue =>
        rw [pe32Abs32ToRva_eq_some_iff] at hvalue
        split_ifs at hextract with hcandidate htarget
        cases hextract
        rw [Bool.not_eq_true', Bool.not_eq_false] at hcandidate
        simp only [not_or, Bool.not_eq_true', Bool.not_eq_false, peRvaRangeIsValid_iff] at htarget
        obtain ⟨-, hpos, -, hin, hsection⟩ := htarget
        rw [Nat.mod_eq_of_lt (by omega)] at hpos hin hsection
        refine ⟨hcrt, hinside, hstore, hbranch, ⟨v, hcell.1, hcell.2, s, hs, hwrite⟩, hvalue, code,
          hcode, hcandidate, _, ?_, hin, hsection⟩
        omega

theorem extract_of_watcomStub {candidate : ℕ} (hstub : WatcomStub h.nt base u candidate) :
  extractWatcomEntry h.nt base u = some candidate
  := by
  have hsize : peSizeOfImage h.nt < 2 ^ 32 := UInt32.toNat_lt _
  obtain ⟨hcrt, hinside, hstore, hbranch, ⟨v, hcell⟩, hvalue, code, hcode, hcandidate, target,
    htarget, hin, hsection⟩ := hstub
  have hany : ((u.table h.nt).any fun s =>
      s.characteristics &&& scnMemWrite = scnMemWrite && pe32RvaInSection v 4 s) = true := by
    obtain ⟨s, hs, hwrite⟩ := hcell.2.2
    apply List.any_eq_true.mpr ⟨s, hs, _⟩
    rw [Bool.and_eq_true, decide_eq_true_eq]
    exact hwrite
  have hnext : (peEntryRva h.nt + 15) % 2 ^ 32 = peEntryRva h.nt + 15 := Nat.mod_eq_of_lt (by omega)
  have hnat : ((peEntryRva h.nt + 15 : ℕ) : ℤ) +
      (u.img.u32 (peEntryRva h.nt + 11)).toInt32.toInt = target := by
    omega
  rw [← peRvaRangeIsValid_iff] at hinside
  simp only [extractWatcomEntry, pe32Abs32ToRva_eq_some_iff.mpr ⟨hcell.1, hcell.2.1⟩,
    pe32Abs32ToRva_eq_some_iff.mpr hvalue, hcode, hnext, hnat, Int.toNat_natCast]
  rw [if_neg (not_not.mpr hcrt), hinside, hany, hcandidate, hsection,
    peRvaRangeIsValid_iff.mpr hin, if_neg (by simp), if_neg (by simp [hstore]),
    if_neg (by tauto), if_neg (by simp), if_neg (by simp), if_neg]
  simp only [Bool.not_true, Bool.false_eq_true, or_false]
  omega

theorem extractWatcomEntry_eq_some_iff {candidate : ℕ} :
  extractWatcomEntry h.nt base u = some candidate ↔ WatcomStub h.nt base u candidate
  := ⟨watcomStub_of_extract, extract_of_watcomStub⟩

theorem extractWatcomEntry_lt {candidate : ℕ}
    (hextract : extractWatcomEntry h.nt base u = some candidate) :
  candidate < 2 ^ 32
  := by
  have hsize : peSizeOfImage h.nt < 2 ^ 32 := UInt32.toNat_lt _
  have hvalue := (extractWatcomEntry_eq_some_iff.mp hextract).value
  omega

theorem initLoaderEntry_iff :
  ExecRva f h (initLoaderEntry h.nt u) ↔ EntryOk f h base u .x64
  := by
  simp only [initLoaderEntry, EntryOk, ← mainRva_iff, ← mainRva_eq_zero_iff]
  split_ifs with hmain
  · simp [hmain]
  · rw [not_not] at hmain
    simp [hmain]

theorem stubOk_iff :
  StubOk f h base u ↔ ExecRva f h ((extractWatcomEntry h.nt base u).getD (peEntryRva h.nt))
  := by
  simp only [StubOk, ← extractWatcomEntry_eq_some_iff]
  cases extractWatcomEntry h.nt base u with
  | none => simp
  | some candidate => simp

theorem pe32ResolveEntrySymbol_iff :
  ExecRva f h (pe32ResolveEntrySymbol h.nt base u) ↔ EntryOk f h base u .i386
  := by
  simp only [pe32ResolveEntrySymbol, EntryOk, ← mainRva_iff, ← mainRva_eq_zero_iff, stubOk_iff]
  by_cases hdoom : pe32IsDoom95Path u.path = true
  · simp [hdoom]
  · simp only [hdoom, Bool.false_eq_true, if_false]
    generalize mainRva .i386 h.nt u
      (crtEntrySymbols u.crt ++ [.ofString "_main", .ofString "main"]) = main
    by_cases hmain : main = 0
    · simp [hmain]
    · by_cases heq : main = peEntryRva h.nt
      · subst heq
        simp [hmain]
      · simp [hmain, heq]

theorem initLoaderEntry_lt :
  initLoaderEntry h.nt u < 2 ^ 32
  := by
  simp only [initLoaderEntry]
  split_ifs
  · apply mainRva_lt
  · apply peEntryRva_lt

theorem pe32ResolveEntrySymbol_lt :
  pe32ResolveEntrySymbol h.nt base u < 2 ^ 32
  := by
  have hentry := peEntryRva_lt h.nt
  simp only [pe32ResolveEntrySymbol]
  have hstub {r : ℕ} (hr : r < 2 ^ 32) : (extractWatcomEntry h.nt base u).getD r < 2 ^ 32 := by
    cases hextract : extractWatcomEntry h.nt base u with
    | none => exact hr
    | some candidate => apply extractWatcomEntry_lt hextract
  split_ifs
  · exact hentry
  · apply hstub mainRva_lt
  · apply mainRva_lt
  · apply hstub hentry
  · exact hentry

/-- The startup enters the guest in an executable section of the image exactly when the first source
that answers names a place in one. -/
theorem guestEntry_executable_iff (k : Kernel b) (used : List Region) (path : CString)
    (desiredBase : Ptr) (g g' : MainImage) {img : Image} (hparse : parseHeaders b f = some h)
    (hmap : mapImageAt k used path (some f) desiredBase g = (some (img, h.nt), g'))
    (u : EntryInput) :
  ExecAddr f h img.base (guestEntry b h.nt img.base u) ↔ EntryOk f h img.base u b
  := by
  obtain ⟨-, -, -, hreserve, -⟩ := mapParsed_spec (mapParsed_of_mapImageAt hparse hmap).2
  have hstop := (reserveImage_spec hreserve).1.stop_lt
  have hpages := le_pageRoundUp (peSizeOfImage h.nt)
  have hbase : img.base + peSizeOfImage h.nt ≤ b.ptrLimit :=
    le_trans (Nat.add_le_add_left hpages img.base) hstop.le
  cases b with
  | x64 =>
    rw [guestEntry, execAddr_wrap_iff hbase initLoaderEntry_lt]
    apply initLoaderEntry_iff
  | i386 =>
    rw [guestEntry, execAddr_wrap_iff hbase pe32ResolveEntrySymbol_lt]
    apply pe32ResolveEntrySymbol_iff

end

/-- A PE32+ file with a section of code at `0x1000`, without symbols, whose entry point is
`entry`. -/
def entryFile (entry : ℕ) : File :=
  .ofFields 384 (pe64Headers 0x2000 368 ++ [(70, 2, 1), (104, 4, entry), (336, 4, 16),
    (340, 4, 0x1000), (344, 4, 16), (348, 4, 368), (364, 4, 0x60000020), (368, 1, 0xC3)])

def mapEntryFile (entry : ℕ) : Option (Image × ImageNtHeaders) × MainImage :=
  mapImageAt (.lenient .x64) [] (.ofString "a.exe") (some (entryFile entry)) 0 .init

def entryInput (entry : ℕ) (img : Bytes) : EntryInput :=
  ⟨.mingw, .ofString "a.exe", some (entryFile entry), none, img⟩

/-- An entry point in the code is entered there. -/
theorem entryFile_executable :
  ∃ h img g, parseHeaders .x64 (entryFile 0x1000) = some h ∧
    mapEntryFile 0x1000 = (some (img, h.nt), g) ∧
    ExecAddr (entryFile 0x1000) h img.base
      (guestEntry .x64 h.nt img.base (entryInput 0x1000 img.byte))
  := by
  have hheaders : (parseHeaders .x64 (entryFile 0x1000)).map (fun h =>
      (h.table (entryFile 0x1000), pePointerToSymbolTable h.nt, peEntryRva h.nt,
        peSizeOfImage h.nt)) = some ([flagsSection 0x60000020], 0, 0x1000, 0x2000) := by
    decide
  have hmapped : (mapEntryFile 0x1000).1.isSome = true := by
    decide
  obtain ⟨h, hparse, hfields⟩ := map_eq_some_iff.mp hheaders
  simp only [Prod.mk.injEq] at hfields
  obtain ⟨htable, hptr, hentry, hsize⟩ := hfields
  obtain ⟨⟨img, nt⟩, himg⟩ := isSome_iff_exists.mp hmapped
  obtain ⟨rfl, g, hmap⟩ := exists_mapImageAt_eq hparse himg
  use h, img, g, hparse, hmap
  apply (guestEntry_executable_iff _ _ _ _ _ _ hparse hmap _).mpr
  constructor
  · intro t ht
    simp [EntryInput.symbols, parseSymbolTableFromFile, hptr] at ht
  · intro _
    rw [ExecRva, htable, hentry, hsize]
    decide

/-- An entry point outside the image is entered outside the image. -/
theorem entryFile_outside :
  ∃ h img g, parseHeaders .x64 (entryFile 0x5000) = some h ∧
    mapEntryFile 0x5000 = (some (img, h.nt), g) ∧
    ¬ ExecAddr (entryFile 0x5000) h img.base
      (guestEntry .x64 h.nt img.base (entryInput 0x5000 img.byte))
  := by
  have hheaders : (parseHeaders .x64 (entryFile 0x5000)).map (fun h => peSizeOfImage h.nt) =
      some 0x2000 := by
    decide
  have himage : (mapEntryFile 0x5000).1.map (fun p =>
      (p.1.base, guestEntry .x64 p.2 p.1.base (entryInput 0x5000 p.1.byte))) =
        some (0x140000000, 0x140005000) := by
    decide
  obtain ⟨h, hparse, hsize⟩ := map_eq_some_iff.mp hheaders
  obtain ⟨⟨img, nt⟩, himg, hfields⟩ := map_eq_some_iff.mp himage
  obtain ⟨rfl, g, hmap⟩ := exists_mapImageAt_eq hparse himg
  simp only [Prod.mk.injEq] at hfields
  obtain ⟨hbase, hentry⟩ := hfields
  use h, img, g, hparse, hmap
  rintro ⟨r, hexec, heq⟩
  have hlt := hexec.1
  rw [hentry, hbase] at heq
  omega

end Loader
