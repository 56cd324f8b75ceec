import Mathlib.Data.List.FinRange
import Mathlib.Logic.Equiv.Basic
import MyWine.Lib.InsertionSort
import MyWine.Loader.ImportLookup

/-!
# The addresses of stubs

A stub is looked up in three ways: by the loader of the `x64` build, which searches the table sorted
by function name without regard to the DLL; by the loader of the `i386` build, which scans it for
both names; and by `GetProcAddress` of `msvcrt/kernel32_module.c` for the handle of a builtin
module, which scans it for both names and passes over entries without an address.

The three agree exactly when the function name alone determines the stub (`StubsAgree`): the entries
with that name lead to the same address, one of them is for the DLL, and a builtin module without
the stub has no loaded module of its name in its place (`resolveLoaderImport_agree_iff`).
-/

open SyscallSafe Loader

namespace Kernel32

open List Option

structure BuiltinModule where
  name : CString
  handle : Ptr
  deriving DecidableEq

def builtinModules : List BuiltinModule :=
  [⟨.ofString "kernel32.dll", 0xffff0001⟩, ⟨.ofString "ntdll.dll", 0xffff0002⟩,
    ⟨.ofString "msvcrt.dll", 0xffff0003⟩, ⟨.ofString "advapi32.dll", 0xffff0004⟩,
    ⟨.ofString "user32.dll", 0xffff0005⟩, ⟨.ofString "gdi32.dll", 0xffff0006⟩,
    ⟨.ofString "winmm.dll", 0xffff0007⟩, ⟨.ofString "ddraw.dll", 0xffff0008⟩,
    ⟨.ofString "dsound.dll", 0xffff0009⟩, ⟨.ofString "dplay.dll", 0xffff000a⟩,
    ⟨.ofString "comdlg32.dll", 0xffff000b⟩, ⟨.ofString "comctl32.dll", 0xffff000c⟩]

def findBuiltinModuleByName (name : CString) : Option BuiltinModule :=
  builtinModules.find? fun m => strcasecmp m.name name = 0

def findBuiltinModuleByHandle (handle : Ptr) : Option BuiltinModule :=
  builtinModules.find? fun m => m.handle = handle

def lookupBuiltinExport (table : List ImportEntry) (dllName funcName : CString) : Option Ptr :=
  (table.find? fun e =>
    e.address ≠ 0 ∧ strcasecmp e.dllName dllName = 0 ∧ strcmp e.name funcName = 0).map (·.address)

def getProcAddress (b : Build) (table : List ImportEntry) (list : ModuleList) (image : Ptr → Bytes)
    (hModule : Ptr) (procName : Option CString) : Option Ptr :=
  match procName with
  | none => none
  | some name =>
    if hModule = 0 then none
    else
      match findBuiltinModuleByHandle hModule with
      | some m => lookupBuiltinExport table m.name name
      | none =>
        match findModuleByAddr b list hModule with
        | none => none
        | some i =>
          if (list.modules i).exportCache.numberOfNames = 0 then none
          else lookupExport (list.modules i) (image (list.modules i).base) name

def entryLe (e e' : ImportEntry) : Prop := strcmp e.name e'.name ≤ 0

instance : DecidableRel entryLe := fun e e' =>
  inferInstanceAs (Decidable (strcmp e.name e'.name ≤ 0))

instance : IsTrans ImportEntry entryLe := ⟨fun _ _ _ h h' => strcmp_trans h h'⟩

instance : Std.Total entryLe := ⟨fun e e' => by
  simp only [entryLe]
  rw [strcmp_swap e.name e'.name]
  omega⟩

/-- `init_import_table` of the `i386` build, on a table whose last entry is the sentinel. -/
def initImportTable (table : List ImportEntry) : List ImportEntry :=
  insertionSortLoop entryLe (table.length - 1) table

/-- `init_import_table` may leave the table `sorted`.  The `i386` build sorts by insertion, the
`x64` build calls `qsort`, which may leave entries of one name in any order. -/
def InitImportTable (b : Build) (table sorted : List ImportEntry) : Prop :=
  match b with
  | .i386 => sorted = table.insertionSort entryLe
  | .x64 => sorted.Perm table ∧ sorted.Pairwise entryLe

/-! ### When the lookups agree -/

/-- The address for an entry that the loader has found, `other` being that of a loaded module. -/
def stubValue (other : Option Ptr) (e : ImportEntry) : Option Ptr :=
  if e.address ≠ 0 then some e.address else other

def IsStub (dllName funcName : CString) (e : ImportEntry) : Prop :=
  strcasecmp dllName e.dllName = 0 ∧ e.name = funcName

/-- What the loader compares of an entry: the `x64` build looks for the name only. -/
def IsFor (b : Build) (dllName funcName : CString) (e : ImportEntry) : Prop :=
  match b with
  | .x64 => e.name = funcName
  | .i386 => IsStub dllName funcName e

/-- The name of a function determines its stub, `other` being the address that the loaded modules
export for it. -/
structure StubsAgree (table : List ImportEntry) (other : Option Ptr) (dllName funcName : CString) :
    Prop where
  unique : ∀ e ∈ table, e.name = funcName → ∀ e' ∈ table, e'.name = funcName →
    stubValue other e = stubValue other e'
  owned : (∃ e ∈ table, IsStub dllName funcName e) ∨
    ∀ e ∈ table, e.name = funcName → stubValue other e = other
  builtin : ∀ m, findBuiltinModuleByName dllName = some m →
    other = none ∨ ∃ e ∈ table, IsStub dllName funcName e ∧ e.address ≠ 0

variable {table : List ImportEntry} {dllName funcName : CString} {e : ImportEntry}

theorem perm_of_initImportTable {b : Build} {sorted : List ImportEntry}
    (h : InitImportTable b table sorted) :
  sorted.Perm table
  := by
  cases b with
  | x64 => apply h.1
  | i386 =>
    rw [InitImportTable] at h
    rw [h]
    apply perm_insertionSort

theorem resolveLoaderImport_eq (b : Build) (table : List ImportEntry) (list : ModuleList)
    (image : Ptr → Bytes) (dllName funcName : CString) :
  resolveLoaderImport b table list image dllName funcName =
    (findStub b table dllName funcName).elim (moduleExport list image dllName funcName)
      (stubValue (moduleExport list image dllName funcName))
  := by
  rw [resolveLoaderImport, stubAddress]
  cases findStub b table dllName funcName with
  | none => rfl
  | some e =>
    simp only [elim_some, stubValue]
    split_ifs
    · rfl
    · rfl

theorem findStub_spec {b : Build} (h : findStub b table dllName funcName = some e) :
  e ∈ table ∧ IsFor b dllName funcName e
  := by
  cases b with
  | i386 =>
    have he := List.find?_some h
    simp only [decide_eq_true_eq, strcmp_eq_zero_iff] at he
    exact ⟨mem_of_find?_eq_some h, he.1, he.2.symm⟩
  | x64 =>
    simp only [findStub] at h
    split at h
    · cases h
    · next i hsearch =>
      obtain ⟨-, -, hzero⟩ := binarySearch_spec hsearch
      rw [h, map_some, some.injEq, strcmp_eq_zero_iff] at hzero
      exact ⟨mem_of_getElem? h, hzero.symm⟩

theorem exists_findStub_x64 (dllName : CString) (hsorted : table.Pairwise entryLe)
    (he : e ∈ table) :
  ∃ i, binarySearch (fun i => table[i]?.map fun e' => strcmp e.name e'.name) table.length 0
      table.length = some i ∧ findStub .x64 table dllName e.name = table[i]?
  := by
  obtain ⟨t, ht, rfl⟩ := getElem_of_mem he
  rw [pairwise_iff_getElem] at hsorted
  have hfound : ∃ i, binarySearch (fun i => table[i]?.map fun e' => strcmp table[t].name e'.name)
      table.length 0 table.length = some i := by
    apply exists_binarySearch (by omega) (Nat.zero_le t) ht
    · intro i _ hit
      have hi : i < table.length := by omega
      use strcmp table[t].name table[i].name
      rw [List.getElem?_eq_getElem hi, map_some]
      use rfl
      rcases Nat.lt_or_eq_of_le hit with hlt | rfl
      · have hle := hsorted i t hi ht hlt
        rw [entryLe] at hle
        rw [strcmp_swap]
        omega
      · rw [strcmp_eq_zero_iff.mpr rfl]
    · intro i hti hi
      use strcmp table[t].name table[i].name
      rw [List.getElem?_eq_getElem hi, map_some]
      use rfl
      rcases Nat.lt_or_eq_of_le hti with hlt | rfl
      · apply hsorted t i ht hi hlt
      · rw [strcmp_eq_zero_iff.mpr rfl]
  obtain ⟨i, hsearch⟩ := hfound
  use i, hsearch
  simp only [findStub, hsearch]

theorem exists_findStub_i386 (he : e ∈ table) (hstub : IsStub dllName funcName e) :
  ∃ e', findStub .i386 table dllName funcName = some e'
  := by
  apply isSome_iff_exists.mp
  rw [findStub, List.find?_isSome]
  use e, he
  rw [decide_eq_true_eq]
  exact ⟨hstub.1, strcmp_eq_zero_iff.mpr hstub.2.symm⟩

theorem initImportTable_concat (table : List ImportEntry) (sentinel : ImportEntry) :
  initImportTable (table ++ [sentinel]) = table.insertionSort entryLe ++ [sentinel]
  := by
  rw [initImportTable, length_append, length_singleton, Nat.add_sub_cancel]
  apply insertionSortLoop_append

theorem initImportTable_i386 {sorted : List ImportEntry} (sentinel : ImportEntry) :
  InitImportTable .i386 table sorted ↔
    initImportTable (table ++ [sentinel]) = sorted ++ [sentinel]
  := by
  rw [initImportTable_concat, append_left_inj, InitImportTable, eq_comm]

/-- The table is sorted by name, entries of one name in the order they had, with the sentinel at its
end, and a search in a sorted table finds a name exactly if an entry has it. -/
theorem importTable_sorted_and_searched (table : List ImportEntry) (sentinel : ImportEntry)
    {t : List ImportEntry} (ht : t.Pairwise entryLe) (dllName funcName : CString) :
  (∃ sorted, initImportTable (table ++ [sentinel]) = sorted ++ [sentinel] ∧
      sorted.Perm table ∧ sorted.Pairwise entryLe ∧
      ∀ name, sorted.filter (fun e => e.name = name) = table.filter fun e => e.name = name) ∧
    ((∃ e, findStub .x64 t dllName funcName = some e) ↔ ∃ e ∈ t, e.name = funcName) ∧
    ∀ e, findStub .x64 t dllName funcName = some e → e ∈ t ∧ e.name = funcName
  := by
  have hfound (e : ImportEntry) (h : findStub .x64 t dllName funcName = some e) :
      e ∈ t ∧ e.name = funcName := findStub_spec h
  constructor
  · use table.insertionSort entryLe, initImportTable_concat table sentinel
    use perm_insertionSort entryLe table, pairwise_insertionSort entryLe table
    intro name
    apply filter_insertionSort
    simp only [decide_eq_true_eq, entryLe]
    rintro a b rfl hb
    rw [hb, strcmp_eq_zero_iff.mpr rfl]
  · refine ⟨⟨?_, ?_⟩, hfound⟩
    · rintro ⟨e, he⟩
      exact ⟨e, hfound e he⟩
    · rintro ⟨e, he, rfl⟩
      obtain ⟨i, hsearch, hfind⟩ := exists_findStub_x64 dllName ht he
      have hi := (binarySearch_spec hsearch).2.1
      use t[i]
      rw [hfind, List.getElem?_eq_getElem hi]

/-- Stubs out of order, two of them with the name `"g"`. -/
def mixedStubs : List ImportEntry :=
  [⟨.ofString "b.dll", .ofString "g", 1⟩, ⟨.ofString "a.dll", .ofString "f", 2⟩,
    ⟨.ofString "a.dll", .ofString "g", 3⟩, ⟨.ofString "a.dll", .ofString "e", 4⟩]

theorem importTable_sorted_and_searched_mixedStubs :
  let t := mixedStubs.insertionSort entryLe
  let sentinel : ImportEntry := ⟨.ofString "", .ofString "", 0⟩
  t.Pairwise entryLe ∧
    (∃ sorted, initImportTable (mixedStubs ++ [sentinel]) = sorted ++ [sentinel] ∧
      sorted.Perm mixedStubs ∧
      (sorted.filter fun e => e.name = .ofString "g").map (·.address) = [1, 3]) ∧
    (∃ e, findStub .x64 t (.ofString "b.dll") (.ofString "f") = some e) ∧
    ¬ ∃ e, findStub .x64 t (.ofString "b.dll") (.ofString "h") = some e
  := by
  intro t sentinel
  have hsorted : t.Pairwise entryLe := pairwise_insertionSort entryLe mixedStubs
  have h (name : CString) :=
    importTable_sorted_and_searched mixedStubs sentinel hsorted (.ofString "b.dll") name
  have hmem (e : ImportEntry) : e ∈ t ↔ e ∈ mixedStubs :=
    (perm_insertionSort entryLe mixedStubs).mem_iff
  obtain ⟨⟨sorted, hinit, hperm, -, hstable⟩, -⟩ := h (.ofString "g")
  refine ⟨hsorted, ⟨sorted, hinit, hperm, ?_⟩, ?_, ?_⟩
  · rw [hstable]
    decide
  · rw [(h _).2.1]
    exact ⟨⟨.ofString "a.dll", .ofString "f", 2⟩, (hmem _).mpr (by simp [mixedStubs]), rfl⟩
  · rw [(h _).2.1]
    rintro ⟨e, he, hname⟩
    rw [hmem] at he
    revert e
    decide

def swapEntries (table : List ImportEntry) (p q : Fin table.length) : List ImportEntry :=
  List.ofFn (table.get ∘ Equiv.swap p q)

theorem perm_swapEntries (table : List ImportEntry) (p q : Fin table.length) :
  (swapEntries table p q).Perm table
  := by
  have hperm := Equiv.Perm.ofFn_comp_perm (Equiv.swap p q) table.get
  rwa [ofFn_get] at hperm

theorem map_name_swapEntries {p q : Fin table.length}
    (h : (table.get p).name = (table.get q).name) :
  (swapEntries table p q).map (·.name) = table.map (·.name)
  := by
  have hget : table.map (·.name) = List.ofFn (ImportEntry.name ∘ table.get) := by
    rw [← map_ofFn, ofFn_get]
  rw [swapEntries, map_ofFn, hget]
  congr 1
  funext i
  simp only [Function.comp_apply]
  rcases eq_or_ne i p with rfl | hp
  · rw [Equiv.swap_apply_left, h]
  · rcases eq_or_ne i q with rfl | hq
    · rw [Equiv.swap_apply_right, h]
    · rw [Equiv.swap_apply_of_ne_of_ne hp hq]

theorem exists_sorted_findStub_eq (dllName : CString) (he : e ∈ table) :
  ∃ sorted, InitImportTable .x64 table sorted ∧ findStub .x64 sorted dllName e.name = some e
  := by
  have hperm := perm_insertionSort entryLe table
  have hpairs := pairwise_insertionSort entryLe table
  generalize table.insertionSort entryLe = t at hperm hpairs
  have het : e ∈ t := hperm.mem_iff.mpr he
  obtain ⟨i, hsearch, -⟩ := exists_findStub_x64 dllName hpairs het
  obtain ⟨-, hi, hzero⟩ := binarySearch_spec hsearch
  rw [List.getElem?_eq_getElem hi, map_some, some.injEq, strcmp_eq_zero_iff] at hzero
  obtain ⟨q, hq, rfl⟩ := getElem_of_mem het
  -- Exchanging the entry with the one that is found does not change the names.
  have hnames := map_name_swapEntries (p := ⟨i, hi⟩) (q := ⟨q, hq⟩) hzero.symm
  have hlength : (swapEntries t ⟨i, hi⟩ ⟨q, hq⟩).length = t.length := length_ofFn
  use swapEntries t ⟨i, hi⟩ ⟨q, hq⟩
  constructor
  · use (perm_swapEntries t _ _).trans hperm
    have hnamesLe : (t.map (·.name)).Pairwise (fun a b => strcmp a b ≤ 0) :=
      pairwise_map.mpr hpairs
    rw [← hnames] at hnamesLe
    apply pairwise_map.mp hnamesLe
  · have hcmp : (fun j : ℕ => (swapEntries t ⟨i, hi⟩ ⟨q, hq⟩)[j]?.map fun e' =>
        strcmp t[q].name e'.name) = fun j => t[j]?.map fun e' => strcmp t[q].name e'.name := by
      funext j
      have hj := congrArg (fun l => l[j]?.map (strcmp t[q].name)) hnames
      simpa [List.getElem?_map, Function.comp_def] using hj
    simp only [findStub, hlength, hcmp, hsearch]
    rw [swapEntries, List.getElem?_ofFn, dif_pos hi, Function.comp_apply, Equiv.swap_apply_left]
    rfl

/-! ### `GetProcAddress` of a builtin module -/

theorem findBuiltinModuleByHandle_of_mem :
  ∀ m ∈ builtinModules, m.handle ≠ 0 ∧ findBuiltinModuleByHandle m.handle = some m
  := by
  decide

theorem getProcAddress_builtin {b : Build} {list : ModuleList} {image : Ptr → Bytes}
    {m : BuiltinModule} (hm : findBuiltinModuleByName dllName = some m) :
  getProcAddress b table list image m.handle (some funcName) =
    lookupBuiltinExport table dllName funcName
  := by
  obtain ⟨hne, hhandle⟩ := findBuiltinModuleByHandle_of_mem m (mem_of_find?_eq_some hm)
  have hname := List.find?_some hm
  rw [decide_eq_true_eq, strcasecmp_eq_zero_iff] at hname
  simp [getProcAddress, hne, hhandle, lookupBuiltinExport, strcasecmp_eq_zero_iff, hname]

theorem lookupBuiltinExport_eq_none_iff :
  lookupBuiltinExport table dllName funcName = none ↔
    ∀ e ∈ table, IsStub dllName funcName e → e.address = 0
  := by
  simp only [lookupBuiltinExport, map_eq_none_iff, List.find?_eq_none, decide_eq_true_eq,
    strcmp_eq_zero_iff, IsStub, strcasecmp_eq_zero_iff]
  constructor
  · intro h e he hstub
    by_contra haddress
    apply h e he ⟨haddress, hstub.1.symm, hstub.2⟩
  · rintro h e he ⟨haddress, hdll, hname⟩
    apply haddress (h e he ⟨hdll.symm, hname⟩)

theorem lookupBuiltinExport_eq_some {a : Ptr}
    (h : lookupBuiltinExport table dllName funcName = some a) :
  ∃ e ∈ table, IsStub dllName funcName e ∧ e.address ≠ 0 ∧ e.address = a
  := by
  obtain ⟨e, he, rfl⟩ := map_eq_some_iff.mp h
  have hcond := List.find?_some he
  simp only [decide_eq_true_eq, strcmp_eq_zero_iff, strcasecmp_eq_zero_iff] at hcond
  use e, mem_of_find?_eq_some he
  exact ⟨⟨strcasecmp_eq_zero_iff.mpr hcond.2.1.symm, hcond.2.2⟩, hcond.1, rfl⟩

/-! ### The agreement -/

section

variable {table t64 t32 : List ImportEntry} {list : ModuleList} {image : Ptr → Bytes}
  {dllName funcName : CString}

/-- The loader of both builds, and `GetProcAddress` if the DLL is a builtin module, find the same
address. -/
def LookupsAgree (t64 t32 : List ImportEntry) (list : ModuleList) (image : Ptr → Bytes)
    (dllName funcName : CString) : Prop :=
  resolveLoaderImport .x64 t64 list image dllName funcName =
    resolveLoaderImport .i386 t32 list image dllName funcName ∧
  ∀ m, findBuiltinModuleByName dllName = some m →
    getProcAddress .x64 t64 list image m.handle (some funcName) =
      resolveLoaderImport .x64 t64 list image dllName funcName ∧
    getProcAddress .i386 t32 list image m.handle (some funcName) =
      resolveLoaderImport .i386 t32 list image dllName funcName

/-- The loader leads to the value of some entry that it may find, if there is one. -/
theorem resolve_cases {b : Build} {t : List ImportEntry} (h : InitImportTable b table t) :
  (∃ e ∈ table, IsFor b dllName funcName e ∧
    resolveLoaderImport b t list image dllName funcName =
      stubValue (moduleExport list image dllName funcName) e) ∨
  (∀ e ∈ table, ¬ IsFor b dllName funcName e) ∧
    resolveLoaderImport b t list image dllName funcName =
      moduleExport list image dllName funcName
  := by
  have hperm := perm_of_initImportTable h
  rw [resolveLoaderImport_eq]
  cases hfind : findStub b t dllName funcName with
  | some e =>
    obtain ⟨he, hfor⟩ := findStub_spec hfind
    left
    exact ⟨e, hperm.mem_iff.mp he, hfor, rfl⟩
  | none =>
    right
    refine ⟨?_, rfl⟩
    intro e he hfor
    cases b with
    | x64 =>
      obtain rfl : e.name = funcName := hfor
      obtain ⟨i, hsearch, heq⟩ := exists_findStub_x64 dllName h.2 (hperm.mem_iff.mpr he)
      obtain ⟨-, hi, -⟩ := binarySearch_spec hsearch
      rw [hfind, List.getElem?_eq_getElem hi] at heq
      cases heq
    | i386 =>
      obtain ⟨e', he'⟩ := exists_findStub_i386 (hperm.mem_iff.mpr he) hfor
      rw [hfind] at he'
      cases he'

/-- `GetProcAddress` agrees with an address that is the value of the entries for the function of
the DLL, and of the loaded modules if there are none. -/
theorem lookupBuiltinExport_eq {sorted : List ImportEntry} {other v : Option Ptr}
    (hperm : sorted.Perm table)
    (hstub : ∀ e ∈ table, IsStub dllName funcName e → stubValue other e = v)
    (hnone : (∀ e ∈ table, ¬ IsStub dllName funcName e) → v = other)
    (hother : other = none ∨ ∃ e ∈ table, IsStub dllName funcName e ∧ e.address ≠ 0) :
  lookupBuiltinExport sorted dllName funcName = v
  := by
  cases hlookup : lookupBuiltinExport sorted dllName funcName with
  | some a =>
    obtain ⟨e, he, hise, haddress, rfl⟩ := lookupBuiltinExport_eq_some hlookup
    rw [← hstub e (hperm.mem_iff.mp he) hise, stubValue, if_pos haddress]
  | none =>
    rw [lookupBuiltinExport_eq_none_iff] at hlookup
    have hzero : ∀ e ∈ table, IsStub dllName funcName e → e.address = 0 :=
      fun e he => hlookup e (hperm.mem_iff.mpr he)
    have hother : other = none := by
      rcases hother with hother | ⟨e, he, hise, haddress⟩
      · apply hother
      · cases haddress (hzero e he hise)
    by_cases hexists : ∃ e ∈ table, IsStub dllName funcName e
    · obtain ⟨e, he, hise⟩ := hexists
      rw [← hstub e he hise, stubValue, if_neg (not_not.mpr (hzero e he hise)), hother]
    · rw [hnone fun e he hise => hexists ⟨e, he, hise⟩, hother]

theorem StubsAgree.lookupsAgree
    (h : StubsAgree table (moduleExport list image dllName funcName) dllName funcName)
    (h64 : InitImportTable .x64 table t64) (h32 : InitImportTable .i386 table t32) :
  LookupsAgree t64 t32 list image dllName funcName
  := by
  have hequal : resolveLoaderImport .x64 t64 list image dllName funcName =
      resolveLoaderImport .i386 t32 list image dllName funcName := by
    rcases resolve_cases h32 with ⟨e, he, hise, hr⟩ | ⟨hnone, hr⟩
    · rw [hr]
      rcases resolve_cases h64 with ⟨e', he', hname, hr'⟩ | ⟨hnone, -⟩
      · rw [hr']
        apply h.unique e' he' hname e he hise.2
      · cases hnone e he hise.2
    · rw [hr]
      rcases resolve_cases h64 with ⟨e', he', hname, hr'⟩ | ⟨-, hr'⟩
      · rw [hr']
        rcases h.owned with ⟨e, he, hise⟩ | hother
        · cases hnone e he hise
        · apply hother e' he' hname
      · apply hr'
  use hequal
  intro m hm
  rw [getProcAddress_builtin hm, getProcAddress_builtin hm, hequal]
  have hbuiltin : ∀ sorted, List.Perm sorted table →
      lookupBuiltinExport sorted dllName funcName =
        resolveLoaderImport .i386 t32 list image dllName funcName := by
    intro sorted hperm
    rcases resolve_cases h32 with ⟨e, he, hise, hr⟩ | ⟨hnone, hr⟩
    · apply lookupBuiltinExport_eq hperm _ _ (h.builtin m hm)
      · intro e' he' hise'
        rw [hr]
        apply h.unique e' he' hise'.2 e he hise.2
      · intro hnone
        cases hnone e he hise
    · apply lookupBuiltinExport_eq hperm _ (fun _ => hr) (h.builtin m hm)
      intro e' he' hise'
      cases hnone e' he' hise'
  exact ⟨hbuiltin t64 (perm_of_initImportTable h64), hbuiltin t32 (perm_of_initImportTable h32)⟩

end

/-- The three lookups of a stub agree, however `qsort` leaves the table, exactly when the name of
the function determines the stub. -/
theorem resolveLoaderImport_agree_iff (table : List ImportEntry) (list : ModuleList)
    (image : Ptr → Bytes) (dllName funcName : CString) :
  (∀ t64 t32, InitImportTable .x64 table t64 → InitImportTable .i386 table t32 →
    LookupsAgree t64 t32 list image dllName funcName) ↔
  StubsAgree table (moduleExport list image dllName funcName) dllName funcName
  := by
  constructor
  · intro hagree
    have h32 : InitImportTable .i386 table (table.insertionSort entryLe) := rfl
    -- Whatever entry with the name is put where the search ends, the builds agree.
    have hvalue : ∀ e ∈ table, e.name = funcName →
        stubValue (moduleExport list image dllName funcName) e =
          resolveLoaderImport .i386 (table.insertionSort entryLe) list image dllName funcName := by
      rintro e he rfl
      obtain ⟨t64, h64, hfind⟩ := exists_sorted_findStub_eq dllName he
      rw [← (hagree t64 _ h64 h32).1, resolveLoaderImport_eq, hfind, elim_some]
    have h64 : InitImportTable .x64 table (table.insertionSort entryLe) :=
      ⟨perm_insertionSort .., pairwise_insertionSort ..⟩
    constructor
    · intro e he hname e' he' hname'
      rw [hvalue e he hname, hvalue e' he' hname']
    · rcases resolve_cases h32 with ⟨e, he, hise, -⟩ | ⟨-, hr⟩
      · exact Or.inl ⟨e, he, hise⟩
      · right
        intro e he hname
        rw [hvalue e he hname, hr]
    · intro m hm
      have hget := ((hagree _ _ h64 h32).2 m hm).2
      rw [getProcAddress_builtin hm] at hget
      cases hlookup : lookupBuiltinExport (table.insertionSort entryLe) dllName funcName with
      | some a =>
        obtain ⟨e, he, hise, haddress, -⟩ := lookupBuiltinExport_eq_some hlookup
        right
        exact ⟨e, (mem_insertionSort _).mp he, hise, haddress⟩
      | none =>
        left
        rw [hlookup] at hget
        rw [lookupBuiltinExport_eq_none_iff] at hlookup
        rcases resolve_cases h32 with ⟨e, he, hise, hr⟩ | ⟨-, hr⟩
        · have hzero := hlookup e ((mem_insertionSort _).mpr he) hise
          rw [← hget, stubValue, if_neg (not_not.mpr hzero)] at hr
          apply hr.symm
        · rw [← hr, ← hget]
  · intro h t64 t32 h64 h32
    apply h.lookupsAgree h64 h32

/-- A function that some DLL of the user exports under the name of a stub of another DLL resolves
to that stub on `x64`, and is not found in the table on `i386`. -/
theorem lookups_disagree :
  let table : List ImportEntry := [⟨.ofString "msvcrt.dll", .ofString "malloc", 0x08041000⟩]
  InitImportTable .x64 table table ∧ InitImportTable .i386 table table ∧
    resolveLoaderImport .x64 table initModuleList (fun _ _ => 0) (.ofString "heap.dll")
      (.ofString "malloc") = some 0x08041000 ∧
    resolveLoaderImport .i386 table initModuleList (fun _ _ => 0) (.ofString "heap.dll")
      (.ofString "malloc") = none
  := by
  and_intros
  · apply List.Perm.refl
  · apply pairwise_singleton
  · rfl
  · decide +kernel
  · decide +kernel

end Kernel32
