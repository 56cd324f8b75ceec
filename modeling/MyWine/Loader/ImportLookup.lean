import MyWine.Loader.ExportTable

/-!
# Looking up an import

`resolve_loader_import` of `loader/import_lookup.c` looks a function up in the table of stubs and
then among the exports of the registered modules.  The `x64` build searches the table of stubs,
which is sorted by function name, without regard to the DLL; the `i386` build scans it for both
names.  The contents of the tables are parameters.
-/

open Pe SyscallSafe

namespace Loader

/-- `import_entry_t`: a stub of the program. -/
structure ImportEntry where
  dllName : CString
  name : CString
  address : Ptr

/-- An entry of `ordinal_table`. -/
structure OrdinalEntry where
  dllName : CString
  ordinal : ℕ
  funcName : CString

def ordinalLookup (table : List OrdinalEntry) (dllName : CString) (ordinal : ℕ) : Option CString :=
  (table.find? fun e => strcasecmp e.dllName dllName = 0 ∧ e.ordinal = ordinal).map (·.funcName)

def findStub (b : Build) (table : List ImportEntry) (dllName funcName : CString) :
    Option ImportEntry :=
  match b with
  | .i386 => table.find? fun e => strcasecmp dllName e.dllName = 0 ∧ strcmp funcName e.name = 0
  | .x64 =>
    match binarySearch (fun i => table[i]?.map fun e => strcmp funcName e.name) table.length 0
        table.length with
    | none => none
    | some i => table[i]?

def stubAddress (b : Build) (table : List ImportEntry) (dllName funcName : CString) : Option Ptr :=
  match findStub b table dllName funcName with
  | none => none
  | some e => if e.address ≠ 0 then some e.address else none

/-- The address of an import among the exports of the registered modules, whose images are given
by their addresses. -/
def moduleExport (list : ModuleList) (image : Ptr → Bytes) (dllName funcName : CString) :
    Option Ptr :=
  match findModuleByName list dllName with
  | none => none
  | some i =>
    if 0 < (list.modules i).exportCache.numberOfNames then
      lookupExport (list.modules i) (image (list.modules i).base) funcName
    else none

def resolveLoaderImport (b : Build) (table : List ImportEntry) (list : ModuleList)
    (image : Ptr → Bytes) (dllName funcName : CString) : Option Ptr :=
  match stubAddress b table dllName funcName with
  | some a => some a
  | none => moduleExport list image dllName funcName

theorem stubAddress_mem {b : Build} {table : List ImportEntry} {dllName funcName : CString} {a : Ptr}
    (h : stubAddress b table dllName funcName = some a) :
  ∃ e ∈ table, e.address = a
  := by
  cases hfind : findStub b table dllName funcName with
  | none => simp [stubAddress, hfind] at h
  | some e =>
    have hmem : e ∈ table := by
      cases b with
      | i386 => apply List.mem_of_find?_eq_some hfind
      | x64 =>
        simp only [findStub] at hfind
        split at hfind
        · cases hfind
        · apply List.mem_of_getElem? hfind
    simp only [stubAddress, hfind, Option.ite_none_right_eq_some, Option.some.injEq] at h
    exact ⟨e, hmem, h.2⟩

end Loader
