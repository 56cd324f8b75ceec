import MyWine.Loader.LoadedDll

/-!
# Imports by ordinal

An import by ordinal is resolved through the static table of `loader/ordinal_table.c`, which gives
ordinals of a DLL the names of functions, and never through the exports of the DLL, although
`lookup_export_by_ordinal` is there for it.  All DLLs of the table are libraries of stubs
(`isBuiltinStubLibrary_of_mem`).  So the IAT slot for an ordinal of any other DLL stays as it was
mapped, and holds the address of the export exactly when the file was bound to it in advance
(`ordinal_import_iff`).
-/

open Pe SyscallSafe

namespace Loader

open Option

/-! ### The table -/

def ordinalsOf (dllName : String) (entries : List (ℕ × String)) : List OrdinalEntry :=
  entries.map fun e => ⟨.ofString dllName, e.1, .ofString e.2⟩

def ordinalTable : List OrdinalEntry :=
  ordinalsOf "ntdll.dll" [
    (1, "NtAccessCheck"), (5, "NtCallbackReturn"), (7, "NtQueryInformationProcess"),
    (9, "NtCreateDebugObject"), (11, "NtSuspendThread"), (12, "NtResumeThread"),
    (14, "NtQuerySystemTime"), (17, "NtEnumerateValueKey"),
    (18, "NtEnumerateSystemEnvironmentValuesEx"), (19, "NtClose"), (20, "NtQueryDefaultLocale"),
    (21, "NtQueryValueKey"), (24, "NtQueryInformationThread"), (26, "NtDelayExecution"),
    (29, "NtTerminateThread"), (31, "NtRaiseException"), (37, "NtSetInformationFile"),
    (40, "NtQueryInformationFile"), (41, "NtFlushBuffersFile"), (45, "NtPulseEvent"),
    (46, "NtSetTimer"), (48, "NtMapViewOfSection"), (49, "NtUnmapViewOfSection"),
    (52, "NtAllocateVirtualMemory"), (56, "NtWriteVirtualMemory"), (57, "NtWriteFile"),
    (58, "NtDuplicateObject"), (59, "NtQueryAttributesFile"), (60, "NtClearEvent"),
    (61, "NtReadVirtualMemory"), (63, "NtReleaseSemaphore"), (65, "NtOpenProcess"),
    (66, "NtOpenThread"), (68, "NtCreateMutex"), (71, "NtCreateSection"),
    (73, "NtFlushBuffersFile"), (75, "NtCreateProcess"), (76, "NtCreateSemaphore"),
    (77, "NtCreateTimer"), (78, "NtProtectVirtualMemory"), (82, "NtLockVirtualMemory"),
    (84, "NtQueryEvent"), (85, "NtQueryPerformanceCounter"), (86, "NtQueryPerformanceFrequency"),
    (87, "NtQueryVolumeInformationFile"), (88, "NtWaitForMultipleObjects"), (89, "NtCreateFile"),
    (90, "NtQueryFullAttributesFile"), (91, "NtCancelIoFile"), (92, "NtSetEvent"),
    (94, "NtResetEvent"), (95, "NtCancelTimer"), (97, "NtSignalAndWaitForSingleObject"),
    (99, "NtOpenKey"), (100, "NtQueryDirectoryFile"), (101, "NtUnlockVirtualMemory"),
    (102, "NtQueryVirtualMemory"), (105, "NtSetSystemTime"), (107, "NtSetValueKey"),
    (108, "NtCreateKey"), (109, "NtDeleteKey"), (111, "NtDeleteValueKey"),
    (113, "NtCreateKeyedEvent"), (115, "NtCreateNamedPipeFile"), (116, "NtCreatePagingFile"),
    (119, "NtCreateThread"), (122, "NtNotifyChangeDirectoryFile"), (123, "NtNotifyChangeKey"),
    (124, "NtOpenFile"), (127, "NtCreateEvent"), (128, "NtCreateThreadEx"),
    (129, "NtWaitForSingleObject"), (130, "NtQueryInformationFile"), (132, "NtQueryOpenSubKeys"),
    (133, "NtQueryOpenSubKeysEx"), (134, "NtReleaseMutant")] ++
  ordinalsOf "kernel32.dll" [
    (2, "GetVersion"), (6, "GetStdHandle"), (7, "InterlockedExchange"), (10, "GetTickCount"),
    (15, "GetCommandLineA"), (17, "WriteFile"), (18, "GetFileType"), (19, "ReadFile"),
    (21, "SetLastError"), (30, "GetCommandLineW"), (32, "GetStartupInfoA"),
    (33, "GetStartupInfoW"), (34, "GetModuleHandleA"), (35, "GetModuleHandleW"),
    (37, "ExitProcess"), (38, "GetVersionExA"), (39, "SetUnhandledExceptionFilter"),
    (42, "CreateFileA"), (43, "CloseHandle"), (44, "GetModuleFileNameA"),
    (48, "GetModuleFileNameW"), (50, "GetFileAttributesA"), (51, "GetFileAttributesW"),
    (60, "GetFileAttributesExA"), (64, "GetTickCount64"), (78, "GetEnvironmentStrings"),
    (100, "FreeLibrary"), (113, "GetProcAddress"), (125, "LoadLibraryA"), (126, "LoadLibraryW"),
    (134, "LoadLibraryExA"), (135, "LoadLibraryExW"), (147, "TlsAlloc"), (148, "TlsGetValue"),
    (149, "TlsSetValue"), (150, "TlsFree"), (169, "EnterCriticalSection"),
    (170, "InitializeCriticalSection"), (171, "LeaveCriticalSection"),
    (172, "DeleteCriticalSection"), (190, "GetLastError"), (191, "GetSystemTime"),
    (192, "GetSystemTimeAsFileTime"), (193, "Sleep"), (194, "QueryPerformanceCounter"),
    (195, "QueryPerformanceFrequency"), (200, "CreateMutexA"), (201, "CreateMutexW"),
    (202, "ReleaseMutex"), (231, "CreateFileW"), (237, "CreateFileMappingA"),
    (263, "CreateEventA"), (264, "CreateEventW"), (265, "SetEvent"), (266, "ResetEvent"),
    (268, "WaitForSingleObject"), (270, "WaitForMultipleObjects"), (289, "VirtualProtect"),
    (290, "VirtualAlloc"), (291, "VirtualFree"), (292, "VirtualQuery"), (293, "VirtualQueryEx"),
    (296, "HeapAlloc"), (297, "HeapCreate"), (298, "HeapFree"), (299, "HeapReAlloc"),
    (300, "HeapSize"), (301, "HeapWalk"), (302, "GetProcessHeap"), (303, "HeapDestroy"),
    (304, "GetProcessHeaps")] ++
  ordinalsOf "comctl32.dll" [
    (17, "InitCommonControls")] ++
  ordinalsOf "dplay.dll" [
    (1, "DPCreate"), (2, "DirectPlayEnumerateA")] ++
  ordinalsOf "msvcrt.dll" [
    (1, "abort"), (5, "_amsg_exit"), (14, "_commode"), (15, "_fmode"), (20, "calloc"),
    (26, "exit"), (34, "fprintf"), (35, "free"), (36, "fwrite"), (42, "malloc"), (43, "memcpy"),
    (57, "signal"), (58, "sleep"), (65, "strlen"), (66, "strncmp"), (67, "strcmp"),
    (68, "strcpy"), (69, "strncpy"), (77, "vfprintf"), (78, "sprintf"), (84, "vsprintf")]

theorem dllName_of_mem_ordinalsOf {dllName : String} {entries : List (ℕ × String)}
    {e : OrdinalEntry} (h : e ∈ ordinalsOf dllName entries) :
  e.dllName = .ofString dllName
  := by
  rw [ordinalsOf, List.mem_map] at h
  obtain ⟨p, -, rfl⟩ := h
  rfl

theorem isBuiltinStubLibrary_of_mem {e : OrdinalEntry} (h : e ∈ ordinalTable) :
  isBuiltinStubLibrary e.dllName = true
  := by
  simp only [ordinalTable, List.mem_append] at h
  rcases h with (((h | h) | h) | h) | h
  all_goals
    rw [dllName_of_mem_ordinalsOf h]
    decide +kernel

theorem ordinalLookup_eq_none {dllName : CString} (h : isBuiltinStubLibrary dllName = false)
    (ordinal : ℕ) :
  ordinalLookup ordinalTable dllName ordinal = none
  := by
  rw [ordinalLookup, map_eq_none_iff, List.find?_eq_none]
  intro e he hmatch
  obtain ⟨hname, -⟩ := of_decide_eq_true hmatch
  rw [← isBuiltinStubLibrary_congr hname, isBuiltinStubLibrary_of_mem he] at h
  cases h

/-! ### The slots -/

section

variable {b : Build} {env : Env b} {path : CString} {depth : ℤ} {s s' : LoaderState} {i : Slot}
  {img : Image} {ntCopy : ImageNtHeaders} {k j : ℕ}

/-- After a DLL has been loaded, the IAT slot for an ordinal that a registered module exports, and
that is no library of stubs, holds what `lookup_export_by_ordinal` finds exactly when the slot was
mapped with that address. -/
theorem ordinal_import_iff (htable : env.ordinalTable = ordinalTable) (hs : BasesMapped s)
    (hload : loadDll env path depth s = (some i, s'))
    (hmap : (mapImageAt env.kernel s.used path (env.file path)
      (b.wrap (pageRoundUp s.dllBaseNext)) s.main).1 = some (img, ntCopy))
    (hsep : IatSeparate (imageNtHeaders img.byte) img.byte)
    (hat : ImportAt (imageNtHeaders img.byte) img.byte k j)
    (hordinal : highBitMask (imageNtHeaders img.byte) ≤
      thunkAt (imageNtHeaders img.byte) img.byte k j)
    (hdll : isBuiltinStubLibrary (importDll (imageNtHeaders img.byte) img.byte k) = false) :
  let slot := slotAt (imageNtHeaders img.byte) img.byte k j
  let ordinal := UInt16.ofNat (thunkAt (imageNtHeaders img.byte) img.byte k j)
  ∀ m a, findModuleByName s'.list (importDll (imageNtHeaders img.byte) img.byte k) = some m →
    lookupExportByOrdinal (s'.module m) ordinal = some a →
    ((s'.image (s'.module i).base).readLE slot.start slot.size = a ↔
      img.byte.readLE slot.start slot.size = a)
  := by
  intro slot ordinal m a _ _
  have hsame : ∀ img' nt', (mapImageAt env.kernel s.used path (env.file path)
      (b.wrap (pageRoundUp s.dllBaseNext)) s.main).1 = some (img', nt') → img' = img := by
    intro img' nt' hmap'
    rw [hmap, some.injEq, Prod.mk.injEq] at hmap'
    exact hmap'.1.symm
  obtain ⟨load, l, s₁, s₂, s₃, img', ntCopy', rfl, h⟩ :=
    loadDll_loaded hs hload (by
      intro img' nt' hmap'
      rw [hsame img' nt' hmap']
      apply hsep)
  obtain rfl := hsame img' ntCopy' h.opened.mapped
  have hself : s'.registered l.mod = some _ :=
    h.rest.registered (h.keeps.registered h.opened.self)
  obtain ⟨-, hbase, -⟩ := LoaderState.registered_eq_some_iff.mp hself
  have heffect := h.effect
  rw [h.opened.nt] at heffect
  -- no address is found, so the slot keeps what it was mapped with
  have hslot := heffect.slot hat
  rw [importTarget, importName, if_pos hordinal, htable, ordinalLookup_eq_none hdll, bind_none]
    at hslot
  rw [hbase]
  apply Eq.congr_left hslot

end

/-! ### A DLL that imports by ordinal -/

def ordinalExporter : List (ℕ × ℕ × ℕ) :=
  [(180, 4, 1), (184, 4, 0x200), (188, 4, 0x60), (0x210, 4, 1), (0x214, 4, 1), (0x21C, 4, 0x240),
    (0x240, 4, 0x290)]

/-- `"a.dll"`, which imports the ordinal `1` from `"b.dll"` and has `value` in the slot for it. -/
def ordinalImporter (value : ℕ) : List (ℕ × ℕ × ℕ) :=
  [(180, 4, 2), (192, 4, 0x200), (196, 4, 40), (0x200, 4, 0x2B0), (0x20C, 4, 0x260),
    (0x210, 4, 0x2A0), (0x260, 5, 0x6C6C642E62), (0x2A0, 4, value), (0x2B0, 4, 0x80000001)]

def ordinalEnv (value : ℕ) : Env .i386 where
  kernel := .roomy .i386
  file path :=
    if path = .ofString "a.dll" then some (plainDll (ordinalImporter value))
    else if path = .ofString "b.dll" then some (plainDll ordinalExporter)
    else none
  findDllPath name := some name
  importTable := []
  ordinalTable := ordinalTable
  dllMain _ _ := true

/-- The slot is mapped with the address of the export, and holds it. -/
theorem ordinal_import_bound_in_advance :
  let r := loadDll (ordinalEnv 0x60001290) (.ofString "a.dll") 0 bareState
  lookupExportByOrdinal (r.2.module 1) 1 = some 0x60001290 ∧
    (r.2.image (r.2.module 0).base).readLE 0x2A0 4 = 0x60001290
  := by
  intro r
  have hexport : lookupExportByOrdinal (r.2.module 1) 1 = some 0x60001290 := by decide +kernel
  use hexport
  have hsome : (mapImageAt (.roomy .i386) bareState.used (.ofString "a.dll")
      (some (plainDll (ordinalImporter 0x60001290))) 0x60000000 bareState.main).1.isSome := by
    decide +kernel
  obtain ⟨⟨img, ntCopy⟩, hmap⟩ := isSome_iff_exists.mp hsome
  have himg : img.byte = (plainDll (ordinalImporter 0x60001290)).byte :=
    image_of_isPlain (by decide +kernel) (by decide) hmap
  have hs : BasesMapped bareState := by
    intro i m hi
    cases hi
  have hload : loadDll (ordinalEnv 0x60001290) (.ofString "a.dll") 0 bareState = (some 0, r.2) :=
    Prod.ext (by decide +kernel) rfl
  have hsep : IatSeparate (imageNtHeaders img.byte) img.byte := by
    rw [himg]
    apply iatSeparate_of_descriptor (n := 1) (by decide +kernel) (by decide +kernel) (Or.inl _)
      _ (by decide +kernel) (by decide +kernel)
    · decide +kernel
    · decide +kernel
  have hat : ImportAt (imageNtHeaders img.byte) img.byte 0 0 := by
    rw [himg]
    unfold ImportAt DescriptorAt
    decide +kernel
  have hiff := ordinal_import_iff rfl hs hload hmap hsep hat (by rw [himg]; decide +kernel)
    (by rw [himg]; decide +kernel) 1 0x60001290 (by rw [himg]; decide +kernel)
    (by rw [himg]; exact hexport)
  rw [himg] at hiff
  apply hiff.mpr
  decide +kernel

/-- The slot is mapped empty and stays empty, although `"b.dll"` exports the ordinal. -/
theorem ordinal_import_unbound :
  let r := loadDll (ordinalEnv 0) (.ofString "a.dll") 0 bareState
  r.1 = some 0 ∧ findModuleByName r.2.list (.ofString "b.dll") = some 1 ∧
    isBuiltinStubLibrary (.ofString "b.dll") = false ∧
    lookupExportByOrdinal (r.2.module 1) 1 = some 0x60001290 ∧
    (r.2.image 0x60000000).readLE 0x2A0 4 = 0
  := by
  decide +kernel

end Loader
