import MyWine.Lib.BinarySearch
import MyWine.Lib.Region
import MyWine.Loader.ModuleList

/-!
# Export tables

`loader/export_table.c` copies the tables of the export directory of a module into its export
cache (`parseExportTable`) and looks names up in the cache by a binary search (`lookupExport`).  The
names themselves are read from the image.

The specification of a lookup is the export directory.  When its names are sorted
(`SortedExports`), a lookup in the parsed cache finds the function of a name, unless it is a
forwarder, and nothing for other strings (`lookupExport_spec`).  The cache keeps the first
`MAX_EXPORT_NAMES` names and the first `MAX_EXPORT_FUNCTIONS` functions of the directory (`Cached`),
and the others are not found.
-/

open Pe SyscallSafe

namespace Loader

structure ImageExportDirectory where
  base : UInt32
  numberOfFunctions : UInt32
  numberOfNames : UInt32
  addressOfFunctions : UInt32
  addressOfNames : UInt32
  addressOfNameOrdinals : UInt32

def readExportDirectory (img : Bytes) (rva : ℕ) : ImageExportDirectory where
  base := img.u32 (rva + 16)
  numberOfFunctions := img.u32 (rva + 20)
  numberOfNames := img.u32 (rva + 24)
  addressOfFunctions := img.u32 (rva + 28)
  addressOfNames := img.u32 (rva + 32)
  addressOfNameOrdinals := img.u32 (rva + 36)

def sizeofExportDirectory : ℕ := 40

def maxExportNames : ℕ := 2048

def maxExportFunctions : ℕ := 8192

def imageCstrValid (nt : ImageNtHeaders) (img : Bytes) (rva : ℕ) : Bool :=
  peRvaRangeIsValid rva 1 (peSizeOfImage nt) && img.hasNul rva (peSizeOfImage nt - rva)

def imageCstr (nt : ImageNtHeaders) (img : Bytes) (rva : ℕ) : CString :=
  img.cstr rva (peSizeOfImage nt - rva)

/-- The cache that `parse_export_table` fills from the export directory `exp`. -/
def fillExportCache (base : Ptr) (img : Bytes) (dir : ImageDataDirectory)
    (exp : ImageExportDirectory) : ExportCache :=
  let numberOfNames := min exp.numberOfNames.toNat maxExportNames
  let numberOfFunctions := min exp.numberOfFunctions.toNat maxExportFunctions
  { base
    exportDirRva := dir.virtualAddress
    exportDirSize := dir.size
    addressOfFunctions := exp.addressOfFunctions
    addressOfNames := exp.addressOfNames
    addressOfNameOrdinals := exp.addressOfNameOrdinals
    numberOfFunctions
    numberOfNames
    baseOrdinal := exp.base
    nameTable := fun i =>
      if i < numberOfNames then img.u32 (exp.addressOfNames.toNat + 4 * i) else 0
    ordinalTable := fun i =>
      if i < numberOfNames then img.u16 (exp.addressOfNameOrdinals.toNat + 2 * i) else 0
    funcTable := fun i =>
      if i < numberOfFunctions then img.u32 (exp.addressOfFunctions.toNat + 4 * i) else 0 }

def exportTablesValid (imageSize : ℕ) (exp : ImageExportDirectory) : Bool :=
  let numberOfNames := min exp.numberOfNames.toNat maxExportNames
  let numberOfFunctions := min exp.numberOfFunctions.toNat maxExportFunctions
  !(0 < numberOfNames && (exp.addressOfNames = 0 || exp.addressOfNameOrdinals = 0)) &&
  !(0 < numberOfFunctions && exp.addressOfFunctions = 0) &&
  (numberOfNames = 0 ||
    peRvaRangeIsValid exp.addressOfNames.toNat (4 * numberOfNames) imageSize &&
    peRvaRangeIsValid exp.addressOfNameOrdinals.toNat (2 * numberOfNames) imageSize) &&
  (numberOfFunctions = 0 ||
    peRvaRangeIsValid exp.addressOfFunctions.toNat (4 * numberOfFunctions) imageSize)

def parseExportTable (m : LoadedModule) (img : Bytes) : Bool × LoadedModule :=
  match m.nt with
  | none => (false, m)
  | some nt =>
    if m.base = 0 then (false, m)
    else
      match peGetDataDir nt directoryEntryExport with
      | none => (false, m)
      | some dir =>
        if dir.virtualAddress = 0 then (false, m)
        else if dir.size.toNat < sizeofExportDirectory then (false, m)
        else if !peRvaRangeIsValid dir.virtualAddress.toNat sizeofExportDirectory
            (peSizeOfImage nt) then (false, m)
        else
          let exp := readExportDirectory img dir.virtualAddress.toNat
          if exportTablesValid (peSizeOfImage nt) exp then
            (true, { m with exportCache := fillExportCache m.base img dir exp })
          else (false, { m with exportCache := .zero })

def checkForwarder (dirRva dirSize funcRva : ℕ) : Bool :=
  if 2 ^ 32 - 1 - dirRva < dirSize then false
  else dirRva ≤ funcRva && funcRva < dirRva + dirSize

def compareExport (nt : ImageNtHeaders) (img : Bytes) (cache : ExportCache) (funcName : CString)
    (mid : ℕ) : Option ℤ :=
  let nameRva := (cache.nameTable mid).toNat
  if imageCstrValid nt img nameRva then some (strcmp funcName (imageCstr nt img nameRva)) else none

def cachedFunction (m : LoadedModule) (nt : ImageNtHeaders) (idx : ℕ) : Option Ptr :=
  let cache := m.exportCache
  let funcRva := (cache.funcTable idx).toNat
  if cache.numberOfFunctions ≤ idx then none
  else if checkForwarder cache.exportDirRva.toNat cache.exportDirSize.toNat funcRva then none
  else if m.base = 0 ∨ !peRvaRangeIsValid funcRva 1 (peSizeOfImage nt) then none
  else some (m.base + funcRva)

def lookupExport (m : LoadedModule) (img : Bytes) (funcName : CString) : Option Ptr :=
  let cache := m.exportCache
  match m.nt with
  | none => none
  | some nt =>
    match binarySearch (compareExport nt img cache funcName) cache.numberOfNames 0
        cache.numberOfNames with
    | none => none
    | some mid => cachedFunction m nt (cache.ordinalTable mid).toNat

def lookupExportByOrdinal (m : LoadedModule) (ordinal : UInt16) : Option Ptr :=
  match m.nt with
  | none => none
  | some nt => cachedFunction m nt (ordinal.toUInt32 - m.exportCache.baseOrdinal).toNat

def resetExportCache (m : LoadedModule) : LoadedModule := { m with exportCache := .zero }

/-! ### The specification of a lookup -/

section

variable (nt : ImageNtHeaders) (img : Bytes) (exp : ImageExportDirectory)

def exportNameRva (i : ℕ) : ℕ := (img.u32 (exp.addressOfNames.toNat + 4 * i)).toNat

def exportName (i : ℕ) : CString := imageCstr nt img (exportNameRva img exp i)

def exportOrdinal (i : ℕ) : ℕ := (img.u16 (exp.addressOfNameOrdinals.toNat + 2 * i)).toNat

def functionRva (j : ℕ) : ℕ := (img.u32 (exp.addressOfFunctions.toNat + 4 * j)).toNat

def exportFuncRva (i : ℕ) : ℕ := functionRva img exp (exportOrdinal img exp i)

def exportRegion (dir : ImageDataDirectory) : Region := ⟨dir.virtualAddress.toNat, dir.size.toNat⟩

/-- The export directory `dir` lies in the image, its names are sorted, each has a function, and the
functions lie in the image. -/
structure SortedExports (dir : ImageDataDirectory) : Prop where
  inImage : (exportRegion dir).stop ≤ peSizeOfImage nt
  names : ∀ i < exp.numberOfNames.toNat, imageCstrValid nt img (exportNameRva img exp i) = true
  sorted : ∀ i j, i < j → j < exp.numberOfNames.toNat →
    strcmp (exportName nt img exp i) (exportName nt img exp j) < 0
  ordinals : ∀ i < exp.numberOfNames.toNat,
    exportOrdinal img exp i < exp.numberOfFunctions.toNat
  functions : ∀ j < exp.numberOfFunctions.toNat, functionRva img exp j < peSizeOfImage nt

/-- An export directory that `parse_export_table` accepts. -/
structure ExportDirectoryOk (dir : ImageDataDirectory) : Prop extends
    SortedExports nt img exp dir where
  size : sizeofExportDirectory ≤ dir.size.toNat
  tables : exportTablesValid (peSizeOfImage nt) exp = true

end

/-- The name `i` and its function are among those that the cache keeps. -/
structure Cached (img : Bytes) (exp : ImageExportDirectory) (i : ℕ) : Prop where
  name : i < maxExportNames
  function : exportOrdinal img exp i < maxExportFunctions

/-- The module `m` with the image `img` exports `name` at the address `a`, and its cache has room
for the export. -/
def Exports (m : LoadedModule) (img : Bytes) (name : CString) (a : Ptr) : Prop :=
  ∃ nt dir i, m.nt = some nt ∧ peGetDataDir nt directoryEntryExport = some dir ∧
    dir.virtualAddress ≠ 0 ∧
    i < (readExportDirectory img dir.virtualAddress.toNat).numberOfNames.toNat ∧
    Cached img (readExportDirectory img dir.virtualAddress.toNat) i ∧
    exportFuncRva img (readExportDirectory img dir.virtualAddress.toNat) i ∉ exportRegion dir ∧
    exportName nt img (readExportDirectory img dir.virtualAddress.toNat) i = name ∧
    a = m.base + exportFuncRva img (readExportDirectory img dir.virtualAddress.toNat) i

def ExportsOk (nt : ImageNtHeaders) (img : Bytes) : Prop :=
  ∀ dir, peGetDataDir nt directoryEntryExport = some dir → dir.virtualAddress ≠ 0 →
    ExportDirectoryOk nt img (readExportDirectory img dir.virtualAddress.toNat) dir

/-! ### The cache -/

def withExports (m : LoadedModule) (img : Bytes) (dir : ImageDataDirectory) : LoadedModule :=
  { m with
    exportCache :=
      fillExportCache m.base img dir (readExportDirectory img dir.virtualAddress.toNat) }

variable {dir : ImageDataDirectory} {img : Bytes} {nt : ImageNtHeaders}

/-- The parser succeeds only on a module that has an export directory, which it puts in the
cache. -/
theorem parseExportTable_spec {m m' : LoadedModule} (hnt : m.nt = some nt)
    (hdir : peGetDataDir nt directoryEntryExport = some dir)
    (h : parseExportTable m img = (true, m')) :
  m.base ≠ 0 ∧ m' = withExports m img dir
  := by
  simp only [parseExportTable, hnt, hdir] at h
  split_ifs at h with hbase
  all_goals simp only [Prod.mk.injEq, Bool.false_eq_true, false_and] at h
  use hbase
  rw [← h.2]
  simp only [withExports, hnt]

theorem parseExportTable_of_ok {m : LoadedModule} (hnt : m.nt = some nt) (hbase : m.base ≠ 0)
    (hdir : peGetDataDir nt directoryEntryExport = some dir) (hva : dir.virtualAddress ≠ 0)
    (hok : ExportDirectoryOk nt img (readExportDirectory img dir.virtualAddress.toNat) dir) :
  parseExportTable m img = (true, withExports m img dir)
  := by
  have hrange : peRvaRangeIsValid dir.virtualAddress.toNat sizeofExportDirectory
      (peSizeOfImage nt) = true := by
    have hin := hok.inImage
    have hsize := hok.size
    simp only [exportRegion, Region.stop] at hin
    rw [peRvaRangeIsValid_iff]
    omega
  simp [parseExportTable, hnt, hbase, hdir, hva, not_lt.mpr hok.size, hrange, hok.tables,
    withExports]

theorem checkForwarder_iff (funcRva : ℕ) (h : (exportRegion dir).stop ≤ peSizeOfImage nt) :
  checkForwarder dir.virtualAddress.toNat dir.size.toNat funcRva = true ↔
    funcRva ∈ exportRegion dir
  := by
  have hlt : peSizeOfImage nt < 2 ^ 32 := nt.optionalHeader.sizeOfImage.toNat_lt
  simp only [exportRegion, Region.stop] at h
  rw [checkForwarder, if_neg (by omega), Bool.and_eq_true, decide_eq_true_eq, decide_eq_true_eq,
    exportRegion, Region.mem_iff]

section

variable {m : LoadedModule} {nt : ImageNtHeaders} {img : Bytes} {dir : ImageDataDirectory}
  {exp : ImageExportDirectory} (hok : SortedExports nt img exp dir)
  (hexp : readExportDirectory img dir.virtualAddress.toNat = exp)

include hexp

theorem withExports_ordinalTable {i : ℕ} (hi : i < exp.numberOfNames.toNat)
    (hmax : i < maxExportNames) :
  ((withExports m img dir).exportCache.ordinalTable i).toNat = exportOrdinal img exp i
  := by
  simp only [withExports, hexp, fillExportCache, exportOrdinal, if_pos (lt_min hi hmax)]

theorem withExports_funcTable {j : ℕ} (hj : j < exp.numberOfFunctions.toNat)
    (hmax : j < maxExportFunctions) :
  ((withExports m img dir).exportCache.funcTable j).toNat = functionRva img exp j
  := by
  simp only [withExports, hexp, fillExportCache, functionRva, if_pos (lt_min hj hmax)]

theorem cachedFunction_eq {j : ℕ} (hbase : m.base ≠ 0) (hj : j < exp.numberOfFunctions.toNat)
    (hmax : j < maxExportFunctions) :
  cachedFunction (withExports m img dir) nt j =
    if checkForwarder dir.virtualAddress.toNat dir.size.toNat (functionRva img exp j) = true ∨
      peSizeOfImage nt ≤ functionRva img exp j then none
    else some (m.base + functionRva img exp j)
  := by
  have hfunctions : ¬ (withExports m img dir).exportCache.numberOfFunctions ≤ j := by
    simp only [withExports, hexp, fillExportCache]
    omega
  have hbase' : (withExports m img dir).base = m.base := rfl
  have hrange : (!peRvaRangeIsValid (functionRva img exp j) 1 (peSizeOfImage nt)) = true ↔
      peSizeOfImage nt ≤ functionRva img exp j := by
    rw [Bool.not_eq_true', Bool.eq_false_iff, Ne, peRvaRangeIsValid_iff]
    omega
  rw [cachedFunction, if_neg hfunctions, withExports_funcTable hexp hj hmax, hbase']
  change (if checkForwarder dir.virtualAddress.toNat dir.size.toNat _ = true then _ else _) = _
  simp [hbase, hrange, ite_or]

include hok

variable {name : CString}

theorem compareExport_withExports {i : ℕ} (hi : i < exp.numberOfNames.toNat)
    (hmax : i < maxExportNames) :
  compareExport nt img (withExports m img dir).exportCache name i =
    some (strcmp name (exportName nt img exp i))
  := by
  have hname : ((withExports m img dir).exportCache.nameTable i).toNat =
      exportNameRva img exp i := by
    simp only [withExports, hexp, fillExportCache, exportNameRva, if_pos (lt_min hi hmax)]
  rw [compareExport, hname, if_pos (hok.names i hi)]
  rfl

theorem binarySearch_withExports {t : ℕ} (ht : t < exp.numberOfNames.toNat)
    (hmax : t < maxExportNames) :
  binarySearch (compareExport nt img (withExports m img dir).exportCache (exportName nt img exp t))
    (withExports m img dir).exportCache.numberOfNames 0
    (withExports m img dir).exportCache.numberOfNames = some t
  := by
  have hnames : (withExports m img dir).exportCache.numberOfNames =
      min exp.numberOfNames.toNat maxExportNames := by
    simp only [withExports, hexp, fillExportCache]
  rw [hnames]
  apply binarySearch_eq_some (by omega) (Nat.zero_le t) (lt_min ht hmax)
  · rw [compareExport_withExports hok hexp ht hmax, strcmp_eq_zero_iff.mpr rfl]
  · intro i _ hit
    use strcmp (exportName nt img exp t) (exportName nt img exp i)
    use compareExport_withExports hok hexp (by omega) (by omega)
    have hlt := hok.sorted i t hit ht
    rw [strcmp_swap]
    omega
  · intro i hti hi
    rw [lt_min_iff] at hi
    use strcmp (exportName nt img exp t) (exportName nt img exp i)
    use compareExport_withExports hok hexp hi.1 hi.2
    apply hok.sorted t i hti hi.1

theorem exportName_of_binarySearch {i fuel : ℕ}
    (h : binarySearch (compareExport nt img (withExports m img dir).exportCache name) fuel 0
      (withExports m img dir).exportCache.numberOfNames = some i) :
  i < exp.numberOfNames.toNat ∧ exportName nt img exp i = name
  := by
  obtain ⟨-, hi, hzero⟩ := binarySearch_spec h
  simp only [withExports, hexp, fillExportCache, lt_min_iff] at hi
  rw [compareExport_withExports hok hexp hi.1 hi.2, Option.some.injEq, strcmp_eq_zero_iff] at hzero
  exact ⟨hi.1, hzero.symm⟩

theorem cachedFunction_withExports {j : ℕ} (hbase : m.base ≠ 0)
    (hj : j < exp.numberOfFunctions.toNat) (hmax : j < maxExportFunctions) :
  cachedFunction (withExports m img dir) nt j =
    if functionRva img exp j ∈ exportRegion dir then none
    else some (m.base + functionRva img exp j)
  := by
  simp [cachedFunction_eq hexp hbase hj hmax, checkForwarder_iff _ hok.inImage,
    not_le.mpr (hok.functions j hj)]

theorem lookupExport_withExports {t : ℕ} (hnt : m.nt = some nt)
    (ht : t < exp.numberOfNames.toNat) (hmax : t < maxExportNames) :
  lookupExport (withExports m img dir) img (exportName nt img exp t) =
    cachedFunction (withExports m img dir) nt (exportOrdinal img exp t)
  := by
  have hnt' : (withExports m img dir).nt = some nt := hnt
  simp only [lookupExport, hnt', binarySearch_withExports hok hexp ht hmax,
    withExports_ordinalTable hexp ht hmax]

theorem lookupExport_withExports_of_notMem (hnt : m.nt = some nt)
    (hname : ∀ i < exp.numberOfNames.toNat, exportName nt img exp i ≠ name) :
  lookupExport (withExports m img dir) img name = none
  := by
  have hnt' : (withExports m img dir).nt = some nt := hnt
  simp only [lookupExport, hnt']
  split
  · rfl
  · next i hsearch =>
    obtain ⟨hi, heq⟩ := exportName_of_binarySearch hok hexp hsearch
    cases hname i hi heq

end

theorem toNat_ordinal_sub {base : UInt32} {j : ℕ} (h : base.toNat + j < 2 ^ 16) :
  ((UInt16.ofNat (base.toNat + j)).toUInt32 - base).toNat = j
  := by
  have hord : (UInt16.ofNat (base.toNat + j)).toUInt32.toNat = base.toNat + j := by
    rw [UInt16.toNat_toUInt32, UInt16.toNat_ofNat', Nat.mod_eq_of_lt h]
  have hle : base ≤ (UInt16.ofNat (base.toNat + j)).toUInt32 := by
    rw [UInt32.le_iff_toNat_le, hord]
    omega
  rw [UInt32.toNat_sub_of_le _ _ hle, hord]
  omega

/-- The lookups in a parsed cache. -/
theorem lookupExport_spec {m m' : LoadedModule} {img : Bytes} {nt : ImageNtHeaders}
    {dir : ImageDataDirectory} {exp : ImageExportDirectory} (hnt : m.nt = some nt)
    (hdir : peGetDataDir nt directoryEntryExport = some dir)
    (hexp : readExportDirectory img dir.virtualAddress.toNat = exp)
    (hok : SortedExports nt img exp dir) (hparse : parseExportTable m img = (true, m')) :
  (∀ i < exp.numberOfNames.toNat, Cached img exp i →
    lookupExport m' img (exportName nt img exp i) =
      if exportFuncRva img exp i ∈ exportRegion dir then none
      else some (m.base + exportFuncRva img exp i)) ∧
  (∀ name, (∀ i < exp.numberOfNames.toNat, exportName nt img exp i ≠ name) →
    lookupExport m' img name = none) ∧
  (∀ i < exp.numberOfNames.toNat, i < maxExportNames →
    exp.base.toNat + exportOrdinal img exp i < 2 ^ 16 →
    lookupExport m' img (exportName nt img exp i) =
      lookupExportByOrdinal m' (UInt16.ofNat (exp.base.toNat + exportOrdinal img exp i)))
  := by
  obtain ⟨hbase, rfl⟩ := parseExportTable_spec hnt hdir hparse
  and_intros
  · intro i hi hcached
    rw [lookupExport_withExports hok hexp hnt hi hcached.name,
      cachedFunction_withExports hok hexp hbase (hok.ordinals i hi) hcached.function]
    rfl
  · intro name hname
    apply lookupExport_withExports_of_notMem hok hexp hnt hname
  · intro i hi hmax hordinal
    have hnt' : (withExports m img dir).nt = some nt := hnt
    have hbase' : (withExports m img dir).exportCache.baseOrdinal = exp.base := by
      rw [← hexp]
      rfl
    simp only [lookupExport_withExports hok hexp hnt hi hmax, lookupExportByOrdinal, hnt', hbase',
      toNat_ordinal_sub hordinal]

def exportHeaders : ImageNtHeaders where
  peType := .pe32
  fileHeader := ⟨0x14C, 0, 0, 0, 0, 224, 0⟩
  optionalHeader := ⟨0, 0, 0x20000, 0, 0, 0, 16, fun _ => ⟨0x1000, 0x100⟩⟩

/-- The fields of an export directory at `0x1000` that names one of `functions` functions `"f"`. -/
def exportFields (functions ordinal : ℕ) : List (ℕ × ℕ × ℕ) :=
  [(0x1010, 4, 1), (0x1014, 4, functions), (0x1018, 4, 1), (0x101C, 4, 0x2000), (0x1020, 4, 0x1028),
    (0x1024, 4, 0x102C), (0x1028, 4, 0x1030), (0x102C, 2, ordinal), (0x1030, 1, 0x66)]

/-- An image that exports the function `ordinal` of `functions`, at the RVA `0x10`, as `"f"`. -/
def exportImage (functions ordinal : ℕ) : Bytes :=
  (File.ofFields 0 (exportFields functions ordinal)).byte.writeLE (0x2000 + 4 * ordinal) 4 0x10

theorem functionRva_exportImage_lt {functions ordinal j : ℕ}
    (hexp : (readExportDirectory (exportImage functions ordinal) 0x1000).addressOfFunctions =
      0x2000) :
  functionRva (exportImage functions ordinal)
    (readExportDirectory (exportImage functions ordinal) 0x1000) j < 0x20000
  := by
  have hread : (exportImage functions ordinal).readLE (0x2000 + 4 * j) 4 < 0x20000 := by
    by_cases hj : j = ordinal
    · rw [hj, exportImage, Bytes.readLE_writeLE]
      decide
    · rw [exportImage, Bytes.readLE_writeLE_of_disjoint _ _ (by omega),
        @Bytes.readLE_congr _ fun _ => 0]
      · simp [Bytes.readLE]
      · intro x hx _
        simp only [File.ofFields, exportFields, List.foldl_cons, List.foldl_nil]
        repeat rw [Bytes.writeLE_of_notMem _ _ (by omega)]
  rw [functionRva, hexp]
  change (UInt32.ofNat ((exportImage functions ordinal).readLE (0x2000 + 4 * j) 4)).toNat < 0x20000
  rw [UInt32.toNat_ofNat']
  omega

theorem sortedExports_exportImage :
  SortedExports exportHeaders (exportImage 8193 8192)
    (readExportDirectory (exportImage 8193 8192) 0x1000) ⟨0x1000, 0x100⟩
  := by
  have hnames : (readExportDirectory (exportImage 8193 8192) 0x1000).numberOfNames.toNat = 1 := by
    decide
  constructor
  · decide
  · decide +kernel
  · rw [hnames]
    intro i j hij hj
    omega
  · decide +kernel
  · intro j _
    apply functionRva_exportImage_lt
    decide

/-- An image with three functions, of which the last one is `"a"` and the first one is `"b"`. -/
def twoNames : Bytes :=
  (File.ofFields 0 [(0x1010, 4, 1), (0x1014, 4, 3), (0x1018, 4, 2), (0x101C, 4, 0x1060),
    (0x1020, 4, 0x1028), (0x1024, 4, 0x1030), (0x1028, 4, 0x1040), (0x102C, 4, 0x1048), (0x1030, 2, 2),
    (0x1040, 1, 0x61), (0x1048, 1, 0x62), (0x1060, 4, 0x10), (0x1064, 4, 0x20), (0x1068, 4, 0x30)]).byte

theorem sortedExports_twoNames :
  SortedExports exportHeaders twoNames (readExportDirectory twoNames 0x1000) ⟨0x1000, 0x100⟩
  := by
  have hpair : ∀ j < (readExportDirectory twoNames 0x1000).numberOfNames.toNat, ∀ i < j,
      strcmp (exportName exportHeaders twoNames (readExportDirectory twoNames 0x1000) i)
        (exportName exportHeaders twoNames (readExportDirectory twoNames 0x1000) j) < 0 := by
    decide +kernel
  constructor
  · decide
  · decide +kernel
  · intro i j hij hj
    apply hpair j hj i hij
  · decide +kernel
  · decide +kernel

/-- The named functions of a module are found. -/
theorem exportImage_found :
  ∃ m', parseExportTable (newModule 0x00500000 (.ofString "a.dll") exportHeaders) twoNames =
      (true, m') ∧
    lookupExport m' twoNames (exportName exportHeaders twoNames
      (readExportDirectory twoNames 0x1000) 0) = some 0x00500030 ∧
    lookupExport m' twoNames (exportName exportHeaders twoNames
      (readExportDirectory twoNames 0x1000) 1) = some 0x00500010
  := by
  have hdir : peGetDataDir exportHeaders directoryEntryExport = some ⟨0x1000, 0x100⟩ := by
    decide
  have hexp : readExportDirectory twoNames
      (⟨0x1000, 0x100⟩ : ImageDataDirectory).virtualAddress.toNat =
        readExportDirectory twoNames 0x1000 := congrArg _ (by decide)
  have hparse : (parseExportTable (newModule 0x00500000 (.ofString "a.dll") exportHeaders)
      twoNames).1 = true := by
    decide +kernel
  have hfields : let exp := readExportDirectory twoNames 0x1000
      (exp.numberOfNames.toNat = 2 ∧ exportOrdinal twoNames exp 0 = 2 ∧
        exportOrdinal twoNames exp 1 = 0) ∧
      exportFuncRva twoNames exp 0 = 0x30 ∧ exportFuncRva twoNames exp 1 = 0x10 := by
    decide +kernel
  obtain ⟨⟨hnames, hfirst, hsecond⟩, hfunc, hfunc'⟩ := hfields
  obtain ⟨hfound, -⟩ := lookupExport_spec rfl hdir hexp sortedExports_twoNames (Prod.ext hparse rfl)
  refine ⟨_, Prod.ext hparse rfl, ?_, ?_⟩
  · rw [hfound 0 (by rw [hnames]; decide) ⟨by decide, by rw [hfirst]; decide⟩, hfunc]
    rfl
  · rw [hfound 1 (by rw [hnames]; decide) ⟨by decide, by rw [hsecond]; decide⟩, hfunc']
    rfl

/-- The last of `8193` functions is not found by its name. -/
theorem exportImage_lost :
  ∃ m', parseExportTable (newModule 0x00500000 (.ofString "a.dll") exportHeaders)
      (exportImage 8193 8192) = (true, m') ∧
    SortedExports exportHeaders (exportImage 8193 8192)
      (readExportDirectory (exportImage 8193 8192) 0x1000) ⟨0x1000, 0x100⟩ ∧
    exportFuncRva (exportImage 8193 8192) (readExportDirectory (exportImage 8193 8192) 0x1000) 0 ∉
      exportRegion ⟨0x1000, 0x100⟩ ∧
    lookupExport m' (exportImage 8193 8192) (exportName exportHeaders (exportImage 8193 8192)
      (readExportDirectory (exportImage 8193 8192) 0x1000) 0) = none
  := by
  use (parseExportTable (newModule 0x00500000 (.ofString "a.dll") exportHeaders)
    (exportImage 8193 8192)).2
  and_intros
  · apply Prod.ext
    · decide
    · rfl
  · apply sortedExports_exportImage
  · decide
  · decide

/-! ### Absent functions -/

section

variable (img : Bytes) (exp : ImageExportDirectory) (dir : ImageDataDirectory)

/-- There is no function `j`, or its place is not used, or it is a forwarder. -/
def AbsentFunction (j : ℕ) : Prop :=
  exp.numberOfFunctions.toNat ≤ j ∨ functionRva img exp j = 0 ∨
    functionRva img exp j ∈ exportRegion dir

/-- The function `j` is past the cache, or its RVA is not zero and either fails a test of the source or
is neither `outside` nor that of a forwarder. -/
def GuardedFunction (nt : ImageNtHeaders) (outside : Prop) (j : ℕ) : Prop :=
  min exp.numberOfFunctions.toNat maxExportFunctions ≤ j ∨
    functionRva img exp j ≠ 0 ∧
      ((checkForwarder dir.virtualAddress.toNat dir.size.toNat (functionRva img exp j) = true ∨
        peSizeOfImage nt ≤ functionRva img exp j) ∨
      ¬ outside ∧ functionRva img exp j ∉ exportRegion dir)

end

section

variable {m m' : LoadedModule} {img : Bytes} {nt : ImageNtHeaders} {dir : ImageDataDirectory}
  {exp : ImageExportDirectory} (hnt : m.nt = some nt)
  (hdir : peGetDataDir nt directoryEntryExport = some dir)
  (hexp : readExportDirectory img dir.virtualAddress.toNat = exp)
  (hparse : parseExportTable m img = (true, m'))
include hnt hdir hparse

theorem parseExportTable_dir :
  dir.virtualAddress ≠ 0 ∧ 0 < peSizeOfImage nt
  := by
  simp only [parseExportTable, hnt, hdir] at hparse
  split_ifs at hparse with _ hva _ hrange
  all_goals simp only [Prod.mk.injEq, Bool.false_eq_true, false_and] at hparse
  rw [Bool.not_eq_true, Bool.not_eq_false', peRvaRangeIsValid_iff, sizeofExportDirectory] at hrange
  exact ⟨hva, by omega⟩

include hexp

theorem absent_cachedFunction_iff (outside : Prop) (j : ℕ) :
  (outside ∨ AbsentFunction img exp dir j → cachedFunction m' nt j = none) ↔
    GuardedFunction img exp dir nt outside j
  := by
  obtain ⟨hva, hsize⟩ := parseExportTable_dir hnt hdir hparse
  obtain ⟨hbase, rfl⟩ := parseExportTable_spec hnt hdir hparse
  by_cases hj : min exp.numberOfFunctions.toNat maxExportFunctions ≤ j
  · apply iff_of_true _ (.inl hj)
    intro _
    rw [← hexp] at hj
    apply if_pos hj
  · obtain ⟨hlt, hmax⟩ := lt_min_iff.mp (not_le.mp hj)
    rw [cachedFunction_eq hexp hbase hlt hmax, GuardedFunction, AbsentFunction]
    simp only [hj, not_le.mpr hlt, false_or, ite_eq_left_iff, reduceCtorEq, imp_false, not_not]
    by_cases hfunc : functionRva img exp j = 0
    · have hzero : checkForwarder dir.virtualAddress.toNat dir.size.toNat 0 = false := by
        have hrva : dir.virtualAddress.toNat ≠ 0 := fun h => hva (UInt32.toNat_inj.mp h)
        simp [checkForwarder, hrva]
      simp [hfunc, hzero, hsize.ne']
    · simp only [hfunc, false_or, ne_eq, not_false_eq_true, true_and]
      tauto

/-- An ordinal or a name that the search finds gets no address when its function is absent, exactly
when the function is guarded. -/
theorem absent_export_iff :
  (∀ o : UInt16,
    (o.toNat < exp.base.toNat ∨ AbsentFunction img exp dir (o.toNat - exp.base.toNat) →
        lookupExportByOrdinal m' o = none) ↔
      GuardedFunction img exp dir nt (o.toNat < exp.base.toNat) (o.toUInt32 - exp.base).toNat) ∧
  ∀ img' name i, binarySearch (compareExport nt img' m'.exportCache name)
      m'.exportCache.numberOfNames 0 m'.exportCache.numberOfNames = some i →
    ((AbsentFunction img exp dir (exportOrdinal img exp i) → lookupExport m' img' name = none) ↔
      GuardedFunction img exp dir nt False (exportOrdinal img exp i))
  := by
  obtain ⟨-, hm'⟩ := parseExportTable_spec hnt hdir hparse
  have hnt' : m'.nt = some nt := by rw [hm']; exact hnt
  constructor
  · intro o
    have hbase : m'.exportCache.baseOrdinal = exp.base := by rw [hm', ← hexp]; rfl
    rw [← absent_cachedFunction_iff hnt hdir hexp hparse, lookupExportByOrdinal, hnt', hbase]
    by_cases hlt : o.toNat < exp.base.toNat
    · simp [hlt]
    · have hsub : (o.toUInt32 - exp.base).toNat = o.toNat - exp.base.toNat := by
        apply UInt32.toNat_sub_of_le
        rw [UInt32.le_iff_toNat_le, UInt16.toNat_toUInt32]
        omega
      rw [hsub]
  · intro img' name i hi
    obtain ⟨-, hlt, -⟩ := binarySearch_spec hi
    rw [← absent_cachedFunction_iff hnt hdir hexp hparse, lookupExport, hnt']
    simp only [hi, false_or]
    rw [hm'] at hlt ⊢
    simp only [withExports, hexp, fillExportCache, lt_min_iff] at hlt
    rw [withExports_ordinalTable hexp hlt.1 hlt.2]

end

theorem absent_export_seven :
  ∃ m', parseExportTable (newModule 0x00500000 (.ofString "a.dll") exportHeaders)
      (exportImage 1 0) = (true, m') ∧ lookupExportByOrdinal m' 7 = none
  := by
  have hparse : (parseExportTable (newModule 0x00500000 (.ofString "a.dll") exportHeaders)
      (exportImage 1 0)).1 = true := by
    decide
  have hdir : peGetDataDir exportHeaders directoryEntryExport = some ⟨0x1000, 0x100⟩ := by decide
  refine ⟨_, Prod.ext hparse rfl, ?_⟩
  obtain ⟨hordinal, -⟩ := absent_export_iff rfl hdir rfl (Prod.ext hparse rfl)
  apply (hordinal 7).mpr
  · left
    decide
  · right
    left
    decide

/-- An unused ordinal gets the base of the module. -/
theorem unused_ordinal_found :
  let r := parseExportTable (newModule 0x00500000 (.ofString "a.dll") exportHeaders) (exportImage 2 0)
  let exp := readExportDirectory (exportImage 2 0) 0x1000
  r.1 = true ∧ exp.base = 1 ∧ functionRva (exportImage 2 0) exp 1 = 0 ∧
    lookupExportByOrdinal r.2 2 = some 0x00500000
  := by
  decide

theorem lookupExport_of_exports {m : LoadedModule} {name : CString} {a : Ptr} (hnt : m.nt = some nt)
    (hbase : m.base ≠ 0) (hok : ExportsOk nt img) (h : Exports m img name a) :
  lookupExport (parseExportTable m img).2 img name = some a
  := by
  obtain ⟨nt', dir, t, hnt', hdir, hva, ht, hcached, hfunction, rfl, rfl⟩ := h
  obtain rfl : nt' = nt := Option.some.inj (hnt'.symm.trans hnt)
  have hok := hok dir hdir hva
  rw [parseExportTable_of_ok hnt hbase hdir hva hok,
    lookupExport_withExports hok.toSortedExports rfl hnt ht hcached.name,
    cachedFunction_withExports hok.toSortedExports rfl hbase (hok.ordinals t ht) hcached.function]
  apply if_neg hfunction

end Loader
