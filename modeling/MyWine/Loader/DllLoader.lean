import MyWine.Loader.ImportEffect
import MyWine.Loader.ImportFlat

/-!
# Loading a DLL

`load_dll` of `loader/dll_loader.c` maps a DLL, registers it, links it into the lists of the PEB and
has its imports resolved; `resolve_module_imports` of `loader/import_resolve.c` first loads the DLLs
that it imports, by calling `load_dll` again, up to a depth.  Both are functions on a `LoaderState`,
which holds the fields of the loader state that they use, the mapped regions and the bytes of the
mapped images.

`load_dll` saves and restores the fields that describe the main image, except for the size of the
image.  So a call leaves them alone exactly when the last image that is mapped in it, for the DLL
itself or for one that is loaded for it, has the size of the main image (`loadDll_main_iff`).
-/

open Pe SyscallSafe

namespace Loader

open Function Option

/-! ### The state of the loader -/

/-- The three lists of `PEB_LDR_DATA`, of the slots whose entries are linked. -/
structure PebLdrData where
  inLoadOrder : List Slot
  inMemoryOrder : List Slot
  inInitializationOrder : List Slot
  deriving DecidableEq

def PebLdrData.map (f : List Slot → List Slot) (ldr : PebLdrData) : PebLdrData :=
  ⟨f ldr.inLoadOrder, f ldr.inMemoryOrder, f ldr.inInitializationOrder⟩

/-- `wine_loader_state_t`, with the mapped regions, the bytes of the images by the address of the
image, and the IAT slots that have been filled in them. -/
structure LoaderState where
  main : MainImage
  list : ModuleList
  dllBaseNext : Ptr
  pebLdr : Option PebLdrData
  used : List Region
  image : Ptr → Bytes
  fills : Ptr → List Fill

/-- What the loader depends on: the kernel, the files, the path that `find_dll_path` finds for a
DLL, the tables of the stubs and of the ordinals, and what `DllMain` of a module answers to
`DLL_PROCESS_ATTACH`. -/
structure Env (b : Build) where
  kernel : Kernel b
  file : CString → Option File
  findDllPath : CString → Option CString
  importTable : List ImportEntry
  ordinalTable : List OrdinalEntry
  dllMain : LoaderState → Slot → Bool

namespace LoaderState

def module (s : LoaderState) (i : Slot) : LoadedModule := s.list.modules i

def setModule (s : LoaderState) (i : Slot) (m : LoadedModule) : LoaderState :=
  { s with list := { s.list with modules := update s.list.modules i m } }

def mmap (s : LoaderState) (a : Ptr) (size : ℕ) : LoaderState :=
  { s with used := pages a size :: s.used }

def munmap (s : LoaderState) (a : Ptr) (size : ℕ) : LoaderState :=
  { s with used := Region.unmap s.used (pages a size) }

def addImage (s : LoaderState) (img : Image) (size : ℕ) : LoaderState :=
  { s.mmap img.base size with
    image := update s.image img.base img.byte
    fills := update s.fills img.base [] }

end LoaderState

/-! ### The lists of the PEB -/

def ldrAddModule (s : LoaderState) (mod : Slot) : LoaderState :=
  let m := s.module mod
  match s.pebLdr with
  | none => s
  | some ldr =>
    if m.base = 0 ∨ m.nt.isNone then s
    else if m.ldrLinked then s
    else
      { s.setModule mod { m with
          ldrEntry := { m.ldrEntry with loadCount := m.loadCount }
          ldrLinked := true } with
        pebLdr := some (ldr.map (· ++ [mod])) }

def ldrRemoveModule (s : LoaderState) (mod : Slot) : LoaderState :=
  let m := s.module mod
  match s.pebLdr with
  | none => s
  | some ldr =>
    if m.ldrLinked then
      { s.setModule mod { m with ldrEntry := LoadedModule.zero.ldrEntry, ldrLinked := false } with
        pebLdr := some (ldr.map (·.erase mod)) }
    else s

/-! ### The imports of a module -/

def maxImportDepth : ℤ := 8

def stubLibs : List CString :=
  ["kernel32.dll", "ntdll.dll", "msvcrt.dll", "advapi32.dll", "user32.dll", "gdi32.dll",
    "winmm.dll", "ddraw.dll", "dsound.dll", "dplay.dll", "comdlg32.dll", "comctl32.dll"].map
    CString.ofString

def isBuiltinStubLibrary (dllName : CString) : Bool :=
  stubLibs.any fun lib => strcasecmp lib dllName = 0

def isMissing (s : LoaderState) (dllName : CString) : Bool :=
  (findModuleByName s.list dllName).isNone && !isBuiltinStubLibrary dllName

/-- A module that `load_dll` has registered: its slot, its address, the address of the copy of its
headers, and the headers. -/
structure Loading where
  mod : Slot
  base : Ptr
  ntAlloc : Ptr
  nt : ImageNtHeaders

section

variable {b : Build} (env : Env b) (load : CString → LoaderState → Option Slot × LoaderState)

/-- What the first pass does for the DLL of a descriptor: nothing if it is registered or a library of
stubs, and else it has it loaded. -/
def loadDependency (dllName : CString) (s : LoaderState) : Bool × LoaderState :=
  if (findModuleByName s.list dllName).isSome then (true, s)
  else if isBuiltinStubLibrary dllName then (true, s)
  else
    match env.findDllPath dllName with
    | none => (false, s)
    | some path =>
      match load path s with
      | (none, s) => (false, s)
      | (some _, s) => (true, s)

def dependencyRound (l : Loading) (dir : ImageDataDirectory) (p : ℕ × LoaderState) :
    (ℕ × LoaderState) ⊕ (Bool × LoaderState) :=
  let off := p.1
  let s := p.2
  let img := s.image l.base
  let rva := dir.virtualAddress.toNat + off
  let desc := readImportDescriptor img rva
  if off + sizeofImportDescriptor ≤ dir.size.toNat ∧ desc.name ≠ 0 then
    if !imageCstrValid l.nt img desc.name.toNat then .inr (false, s)
    else
      match loadDependency env load (imageCstr l.nt img desc.name.toNat) s with
      | (false, s) => .inr (false, s)
      | (true, s) =>
        if !peRvaRangeIsValid (rva + sizeofImportDescriptor) sizeofImportDescriptor
            (peSizeOfImage l.nt) then .inr (false, s)
        else .inl (off + sizeofImportDescriptor, s)
  else .inr (decide (off + sizeofImportDescriptor ≤ dir.size.toNat), s)

theorem dependencyRound_inl {l : Loading} {dir : ImageDataDirectory} {p p' : ℕ × LoaderState}
    (h : dependencyRound env load l dir p = .inl p') :
  let img := p.2.image l.base
  let desc := readImportDescriptor img (dir.virtualAddress.toNat + p.1)
  p.1 + sizeofImportDescriptor ≤ dir.size.toNat ∧ desc.name ≠ 0 ∧
    ∃ s, loadDependency env load (imageCstr l.nt img desc.name.toNat) p.2 = (true, s) ∧
      p' = (p.1 + sizeofImportDescriptor, s)
  := by
  simp only [dependencyRound] at h
  split at h
  · next hdesc =>
    split at h
    · cases h
    · split at h
      · cases h
      · next s hload =>
        split at h
        · cases h
        · cases h
          exact ⟨hdesc.1, hdesc.2, s, hload, rfl⟩
  · cases h

theorem dependencyRound_inr {l : Loading} {dir : ImageDataDirectory} {p : ℕ × LoaderState}
    {ok : Bool} {s : LoaderState} (h : dependencyRound env load l dir p = .inr (ok, s)) :
  let img := p.2.image l.base
  let desc := readImportDescriptor img (dir.virtualAddress.toNat + p.1)
  s = p.2 ∧ (ok = true → p.1 + sizeofImportDescriptor ≤ dir.size.toNat ∧ desc.name = 0) ∨
  ok = false ∧ s = (loadDependency env load (imageCstr l.nt img desc.name.toNat) p.2).2
  := by
  simp only [dependencyRound] at h
  split at h
  · split at h
    · cases h
      left
      use rfl, fun h => by cases h
    · right
      split at h
      · next hload =>
        cases h
        rw [hload]
        exact ⟨rfl, rfl⟩
      · next hload =>
        split at h
        · cases h
          rw [hload]
          exact ⟨rfl, rfl⟩
        · cases h
  · next hdesc =>
    simp only [Sum.inr.injEq, Prod.mk.injEq] at h
    obtain ⟨rfl, rfl⟩ := h
    rw [not_and, not_not] at hdesc
    left
    use rfl
    intro hle
    rw [decide_eq_true_eq] at hle
    exact ⟨hle, hdesc hle⟩

def dependencyLoop (l : Loading) (dir : ImageDataDirectory) :
    While (ℕ × LoaderState) (Bool × LoaderState) where
  round := dependencyRound env load l dir
  variant p := dir.size.toNat - p.1
  variant_lt := by
    intro p p' h
    obtain ⟨hle, -, s, -, rfl⟩ := dependencyRound_inl env load h
    have hpos : 0 < sizeofImportDescriptor := by decide
    simp only
    omega

def bindImports (l : Loading) (s : LoaderState) : Bool × LoaderState :=
  let r := resolveImports env.ordinalTable
    (loaderResolver b env.importTable s.list s.image l.base) l.nt l.base (s.image l.base)
  (r.1, { s with
    image := update s.image l.base r.2.img
    fills := update s.fills l.base r.2.fills })

def parseExports (mod : Slot) (s : LoaderState) : LoaderState :=
  s.setModule mod (parseExportTable (s.module mod) (s.image (s.module mod).base)).2

def resolveModuleImports (l : Loading) (s : LoaderState) : Bool × LoaderState :=
  match peGetDataDir l.nt directoryEntryImport with
  | none => (true, s)
  | some dir =>
    let rva := dir.virtualAddress.toNat
    if dir.size = 0 then (true, s)
    else if dir.virtualAddress = 0 ∨
        !peRvaRangeIsValid rva dir.size.toNat (peSizeOfImage l.nt) then (false, s)
    else if !peRvaRangeIsValid rva sizeofImportDescriptor (peSizeOfImage l.nt) then (false, s)
    else
      match (dependencyLoop env load l dir).run (0, s) with
      | (false, s) => (false, s)
      | (true, s) =>
        match bindImports env l s with
        | (false, s) => (false, s)
        | (true, s) => (true, parseExports l.mod s)

end

/-! ### `load_dll` -/

/-- The fields of the main image after `map_image_at`, restored from the ones that were saved. -/
def MainImage.restore (g saved : MainImage) : MainImage :=
  MainImage.setPePath { g with imageBase := saved.imageBase, is32bit := saved.is32bit }
    (copyStr saved.pePath pePathSize)

def imageNtHeaders (img : Bytes) : ImageNtHeaders :=
  let peOff := (readDosHeader img 0).eLfanew.toNat
  readNtHeaders img peOff (if img.u16 ((peOff + 24) % 2 ^ 32) = 0x10B then .pe32 else .pe64)

def dllBaseName (path : CString) : CString :=
  .ofBytes (path.bytes.reverse.takeWhile (· ≠ 0x2F)).reverse

section

variable {b : Build} (env : Env b)

def mapDll (path : CString) (s : LoaderState) : Option (Image × ImageNtHeaders) × LoaderState :=
  let allocBase := b.wrap (pageRoundUp s.dllBaseNext)
  let next := b.wrap (allocBase + pageSize)
  let r := mapImageAt env.kernel s.used path (env.file path) allocBase s.main
  let main := r.2.restore s.main
  match r.1 with
  | none => (none, { s with main, dllBaseNext := next })
  | some (img, ntCopy) =>
    let dllSize := pageRoundUp (peSizeOfImage ntCopy) % 2 ^ 32
    let next := if pageSize < dllSize then b.wrap (next + (dllSize - pageSize)) else next
    (some (img, ntCopy),
      { s.addImage img (peSizeOfImage ntCopy) with main, dllBaseNext := next })

def registerDll (path : CString) (img : Image) (ntCopy : ImageNtHeaders) (s : LoaderState) :
    Option Loading × LoaderState :=
  match env.kernel.mapAnywhere s.used pageSize with
  | none => (none, s.munmap img.base (peSizeOfImage ntCopy))
  | some ntAlloc =>
    let s := s.mmap ntAlloc pageSize
    let imgNt := imageNtHeaders img.byte
    if s.main.is32bit ≠ peIsPe32 imgNt then
      (none, (s.munmap ntAlloc pageSize).munmap img.base (peSizeOfImage ntCopy))
    else
      match addModule s.list img.base (dllBaseName path) imgNt with
      | (none, _) => (none, (s.munmap ntAlloc pageSize).munmap img.base (peSizeOfImage imgNt))
      | (some mod, list) =>
        (some ⟨mod, img.base, ntAlloc, imgNt⟩, ldrAddModule { s with list } mod)

def openDll (path : CString) (s : LoaderState) : Option Loading × LoaderState :=
  match mapDll env path s with
  | (none, s) => (none, s)
  | (some (img, ntCopy), s) => registerDll env path img ntCopy s

def closeDll (l : Loading) (s : LoaderState) : LoaderState :=
  let s := ldrRemoveModule s l.mod
  let s := s.setModule l.mod (resetExportCache (s.module l.mod))
  let s := { s with list := removeModule s.list l.mod }
  (s.munmap l.ntAlloc pageSize).munmap l.base (peSizeOfImage l.nt)

def callModuleDllmain (mod : Slot) (s : LoaderState) : Bool :=
  match (s.module mod).nt with
  | none => true
  | some nt =>
    if (s.module mod).base = 0 then true
    else if peEntryRva nt = 0 then true
    else env.dllMain s mod

def ensureExports (l : Loading) (s : LoaderState) : LoaderState :=
  if (s.module l.mod).exportCache.numberOfNames = 0 ∧
      ((peGetDataDir l.nt directoryEntryExport).any fun dir => dir.virtualAddress ≠ 0) then
    parseExports l.mod s
  else s

def attachDll (l : Loading) (s : LoaderState) : Option Slot × LoaderState :=
  let s := ensureExports l s
  if peIsPe32 l.nt then
    if callModuleDllmain env l.mod s then
      (some l.mod, s.setModule l.mod { s.module l.mod with dllmainCalled := true })
    else (none, closeDll l s)
  else (some l.mod, s)

def loadDllWith (resolve : Loading → LoaderState → Bool × LoaderState) (path : CString)
    (s : LoaderState) : Option Slot × LoaderState :=
  match openDll env path s with
  | (none, s) => (none, s)
  | (some l, s) =>
    match resolve l s with
    | (false, s) => (none, closeDll l s)
    | (true, s) => attachDll env l s

/-- `load_dll`, when `resolve_module_imports` will be called at `n` below the greatest depth.  It
calls `load_dll` with a depth that is greater by two. -/
def loadDllAt : ℕ → CString → LoaderState → Option Slot × LoaderState
  | 0 => loadDllWith env fun _ s => (false, s)
  | 1 => loadDllWith env (resolveModuleImports env (loadDllAt 0))
  | n + 2 => loadDllWith env (resolveModuleImports env (loadDllAt n))

def loadDll (path : CString) (depth : ℤ) (s : LoaderState) : Option Slot × LoaderState :=
  loadDllAt env (maxImportDepth - (depth + 1)).toNat path s

theorem loadDll_eq (path : CString) (depth : ℤ) (s : LoaderState) :
  loadDll env path depth s =
    loadDllWith env
      (if maxImportDepth ≤ depth + 1 then fun _ s => (false, s)
        else resolveModuleImports env fun path => loadDll env path (depth + 2)) path s
  := by
  have hdeps : (fun path => loadDll env path (depth + 2)) =
      loadDllAt env ((maxImportDepth - (depth + 1)).toNat - 2) := by
    have hnat : (maxImportDepth - (depth + 2 + 1)).toNat =
        (maxImportDepth - (depth + 1)).toNat - 2 := by omega
    funext path s
    rw [loadDll, hnat]
  rw [hdeps]
  rw [loadDll]
  split_ifs with hdepth
  · have hzero : (maxImportDepth - (depth + 1)).toNat = 0 := by omega
    rw [hzero, loadDllAt]
  · have hpos : 0 < (maxImportDepth - (depth + 1)).toNat := by omega
    generalize (maxImportDepth - (depth + 1)).toNat = n at hpos ⊢
    rcases n with _ | _ | n
    · omega
    · rfl
    · rfl

/-- What holds of `load_dll` at the greatest depth and of `load_dll` when it holds of the loads of
the dependencies holds at every depth. -/
theorem loadDll_induction {P : (CString → LoaderState → Option Slot × LoaderState) → Prop}
    (hlast : P (loadDllWith env fun _ s => (false, s)))
    (hstep : ∀ load, P load → P (loadDllWith env (resolveModuleImports env load))) (depth : ℤ) :
  P fun path => loadDll env path depth
  := by
  have hlevel : ∀ n, P (loadDllAt env n) := by
    intro n
    induction n using Nat.twoStepInduction with
    | zero => apply hlast
    | one => apply hstep _ hlast
    | more n ih _ => apply hstep _ ih
  apply hlevel

variable {s : LoaderState} {load : CString → LoaderState → Option Slot × LoaderState}

theorem loadDependency_of_not_missing {dllName : CString} (h : isMissing s dllName = false) :
  loadDependency env load dllName s = (true, s)
  := by
  rw [isMissing, Bool.and_eq_false_iff, isNone_eq_false_iff, Bool.not_eq_false'] at h
  rw [loadDependency]
  rcases h with h | h
  · rw [if_pos h]
  · rw [if_pos h, ite_self]

theorem loadDependency_of_missing {dllName : CString} (h : isMissing s dllName = true) :
  loadDependency env load dllName s =
    match env.findDllPath dllName with
    | none => (false, s)
    | some path => ((load path s).1.isSome, (load path s).2)
  := by
  rw [isMissing, Bool.and_eq_true, isNone_iff_eq_none, Bool.not_eq_true'] at h
  rw [loadDependency, h.1, h.2, isSome_none, if_neg Bool.false_ne_true,
    if_neg Bool.false_ne_true]
  cases env.findDllPath dllName with
  | none => rfl
  | some path =>
    simp only
    rcases load path s with ⟨_ | i, s'⟩
    · rfl
    · rfl

variable (load)

/-- The path that `load_dll` is called for in the round of the first pass that begins in `p`. -/
def requestedPath (l : Loading) (dir : ImageDataDirectory) (p : ℕ × LoaderState) : Option CString :=
  let img := p.2.image l.base
  let desc := readImportDescriptor img (dir.virtualAddress.toNat + p.1)
  let dllName := imageCstr l.nt img desc.name.toNat
  if (p.1 + sizeofImportDescriptor ≤ dir.size.toNat ∧ desc.name ≠ 0) ∧
      imageCstrValid l.nt img desc.name.toNat = true ∧ isMissing p.2 dllName = true then
    env.findDllPath dllName
  else none

/-- Every load fails. -/
def noLoad (_ : CString) (s : LoaderState) : Option Slot × LoaderState := (none, s)

theorem dependencyRound_eq (l : Loading) (dir : ImageDataDirectory) (p : ℕ × LoaderState) :
  dependencyRound env load l dir p =
    match requestedPath env l dir p with
    | none => dependencyRound env noLoad l dir p
    | some path =>
      match load path p.2 with
      | (none, s) => .inr (false, s)
      | (some _, s) =>
        if !peRvaRangeIsValid (dir.virtualAddress.toNat + p.1 + sizeofImportDescriptor)
            sizeofImportDescriptor (peSizeOfImage l.nt) then .inr (false, s)
        else .inl (p.1 + sizeofImportDescriptor, s)
  := by
  simp only [dependencyRound, requestedPath]
  generalize readImportDescriptor (p.2.image l.base) _ = desc
  generalize imageCstr l.nt (p.2.image l.base) desc.name.toNat = dllName
  by_cases hdesc : p.1 + sizeofImportDescriptor ≤ dir.size.toNat ∧ desc.name ≠ 0
  · simp only [if_pos hdesc, and_iff_right hdesc]
    cases imageCstrValid l.nt (p.2.image l.base) desc.name.toNat with
    | false => rfl
    | true =>
      simp only [true_and, Bool.not_true, Bool.false_eq_true, if_false]
      cases hmissing : isMissing p.2 dllName with
      | false => simp only [loadDependency_of_not_missing env hmissing, Bool.false_eq_true, if_false]
      | true =>
        simp only [loadDependency_of_missing env hmissing, if_true]
        cases env.findDllPath dllName with
        | none => rfl
        | some path =>
          simp only
          rcases load path p.2 with ⟨_ | i, s⟩ <;> rfl
  · simp only [if_neg hdesc, if_neg fun h => hdesc (And.left h)]

theorem dependencyRound_noLoad_snd (l : Loading) (dir : ImageDataDirectory)
    (p : ℕ × LoaderState) :
  (dependencyRound env noLoad l dir p).elim Prod.snd Prod.snd = p.2
  := by
  have hload : ∀ dllName, (loadDependency env noLoad dllName p.2).2 = p.2 := by
    intro dllName
    rw [loadDependency]
    split_ifs
    · rfl
    · rfl
    · cases env.findDllPath dllName <;> rfl
  simp only [dependencyRound]
  generalize readImportDescriptor (p.2.image l.base) _ = desc
  have hload := hload (imageCstr l.nt (p.2.image l.base) desc.name.toNat)
  generalize loadDependency env noLoad _ p.2 = r at hload ⊢
  rcases r with ⟨_ | _, s⟩
  · split_ifs <;> first | rfl | exact hload
  · split_ifs <;> first | rfl | exact hload

theorem dependencyRound_snd (l : Loading) (dir : ImageDataDirectory) (p : ℕ × LoaderState) :
  (dependencyRound env load l dir p).elim Prod.snd Prod.snd =
    (requestedPath env l dir p).elim p.2 fun path => (load path p.2).2
  := by
  rw [dependencyRound_eq]
  cases requestedPath env l dir p with
  | none => apply dependencyRound_noLoad_snd
  | some path =>
    rw [elim_some]
    simp only
    rcases load path p.2 with ⟨_ | i, s⟩
    · rfl
    · simp only
      split_ifs <;> rfl

/-- The calls of `load_dll` in the first pass from the state `p` on, each with the state before it. -/
def passLoads (l : Loading) (dir : ImageDataDirectory) (p : ℕ × LoaderState) :
    List (CString × LoaderState) :=
  ((dependencyLoop env load l dir).states p).filterMap fun p =>
    (requestedPath env l dir p).map fun path => (path, p.2)

/-- An invariant of the calls that have been made and of the state after them. -/
theorem dependencyLoop_of_calls (l : Loading) (dir : ImageDataDirectory) (p : ℕ × LoaderState)
    (Inv : List (CString × LoaderState) → LoaderState → Prop)
    (hload : ∀ calls, ∀ c ∈ passLoads env load l dir p,
      Inv calls c.2 → Inv (calls ++ [c]) (load c.1 c.2).2) (hs : Inv [] p.2) :
  Inv (passLoads env load l dir p) ((dependencyLoop env load l dir).run p).2
  := by
  suffices hgen : ∀ calls, Inv calls p.2 →
      Inv (calls ++ passLoads env load l dir p) ((dependencyLoop env load l dir).run p).2 from
    hgen [] hs
  clear hs
  -- The state after one round, in which `load_dll` is called once at most.
  have hround : ∀ {p r}, dependencyRound env load l dir p = r →
      (∀ calls, ∀ c ∈ (requestedPath env l dir p).map fun path => (path, p.2),
        Inv calls c.2 → Inv (calls ++ [c]) (load c.1 c.2).2) → ∀ calls, Inv calls p.2 →
      Inv (calls ++ ((requestedPath env l dir p).map fun path => (path, p.2)).toList)
        (r.elim Prod.snd Prod.snd) := by
    rintro p _ rfl hload calls hs
    rw [dependencyRound_snd]
    cases hpath : requestedPath env l dir p with
    | none => rwa [map_none, toList_none, List.append_nil]
    | some path => apply hload calls (path, p.2) (by rw [hpath]; rfl) hs
  induction p using (dependencyLoop env load l dir).induction with
  | @inl p p' h ih =>
    have hcalls : passLoads env load l dir p =
        ((requestedPath env l dir p).map fun path => (path, p.2)).toList ++
          passLoads env load l dir p' := by
      rw [passLoads, While.states_inl h, List.filterMap_cons]
      cases requestedPath env l dir p <;> rfl
    rw [hcalls] at hload ⊢
    intro calls hs
    rw [While.run_inl h, ← List.append_assoc]
    apply ih
    · intro calls c hc
      apply hload calls c (List.mem_append_right _ hc)
    · apply hround h _ calls hs
      intro calls c hc
      apply hload calls c (List.mem_append_left _ (mem_toList.mpr hc))
  | @inr p r h =>
    have hcalls : passLoads env load l dir p =
        ((requestedPath env l dir p).map fun path => (path, p.2)).toList := by
      rw [passLoads, While.states_inr h, List.filterMap_cons]
      cases requestedPath env l dir p <;> rfl
    rw [hcalls] at hload ⊢
    intro calls hs
    rw [While.run_inr h]
    apply hround h _ calls hs
    intro calls c hc
    apply hload calls c (mem_toList.mpr hc)

variable {load}

theorem dependencyLoop_of_invariant (l : Loading) (dir : ImageDataDirectory) (off : ℕ)
    (Inv : LoaderState → Prop) (hload : ∀ path s, Inv s → Inv (load path s).2) (hs : Inv s) :
  Inv ((dependencyLoop env load l dir).run (off, s)).2
  := by
  apply dependencyLoop_of_calls env load l dir (off, s) (fun _ => Inv) _ hs
  intro _ c _ h
  apply hload c.1 c.2 h

/-- `resolve_module_imports` is the first pass, if there is a directory to walk, and then the
second. -/
theorem resolveModuleImports_eq (load : CString → LoaderState → Option Slot × LoaderState)
    (l : Loading) (s : LoaderState) :
  resolveModuleImports env load l s =
    if importDirOk l.nt then
      match (dependencyLoop env load l (importDir l.nt)).run (0, s) with
      | (false, s) => (false, s)
      | (true, s) =>
        match bindImports env l s with
        | (false, s) => (false, s)
        | (true, s) => (true, parseExports l.mod s)
    else (decide ((importDir l.nt).size = 0), s)
  := by
  rw [resolveModuleImports]
  cases hget : peGetDataDir l.nt directoryEntryImport with
  | none =>
    have hdir : importDir l.nt = ⟨0, 0⟩ := by rw [importDir, hget, getD_none]
    have hok : importDirOk l.nt = false := by simp [importDirOk, hdir]
    simp [hdir, hok]
  | some dir =>
    have hdir : importDir l.nt = dir := by rw [importDir, hget, getD_some]
    simp only [importDirOk, hdir]
    by_cases hsize : dir.size = 0
    · simp [hsize]
    · by_cases hrange : dir.virtualAddress = 0 ∨
          !peRvaRangeIsValid dir.virtualAddress.toNat dir.size.toNat (peSizeOfImage l.nt)
      · rw [if_neg hsize, if_pos hrange, if_neg, decide_eq_false hsize]
        rcases hrange with hzero | hrange
        · simp [hzero]
        · rw [Bool.not_eq_true'] at hrange
          simp [hrange]
      · rw [if_neg hsize, if_neg hrange]
        rw [not_or, Bool.not_eq_true, Bool.not_eq_false'] at hrange
        by_cases hfirst : peRvaRangeIsValid dir.virtualAddress.toNat sizeofImportDescriptor
            (peSizeOfImage l.nt)
        · simp [hsize, hrange.1, hrange.2, hfirst]
        · rw [Bool.not_eq_true] at hfirst
          simp [hsize, hfirst]

theorem resolveModuleImports_of_invariant {l : Loading} (Inv : LoaderState → Prop)
    (hload : ∀ path s, Inv s → Inv (load path s).2) (hbind : ∀ s, Inv s → Inv (bindImports env l s).2)
    (hparse : ∀ s, Inv s → Inv (parseExports l.mod s)) (hs : Inv s) :
  Inv (resolveModuleImports env load l s).2
  := by
  rw [resolveModuleImports_eq]
  split_ifs
  · have hrun := dependencyLoop_of_invariant env l (importDir l.nt) 0 Inv hload hs
    split
    · next s' heq => rwa [heq] at hrun
    · next s' heq =>
      rw [heq] at hrun
      have hbound := hbind s' hrun
      split
      · next s'' heq' => rwa [heq'] at hbound
      · next s'' heq' =>
        rw [heq'] at hbound
        apply hparse s'' hbound
  · apply hs

theorem loadDllWith_of_invariant {resolve : Loading → LoaderState → Bool × LoaderState}
    {path : CString} (Inv : LoaderState → Prop) (hopen : Inv (openDll env path s).2)
    (hresolve : ∀ l s, Inv s → Inv (resolve l s).2) (hclose : ∀ l s, Inv s → Inv (closeDll l s))
    (hattach : ∀ l s, Inv s → Inv (attachDll env l s).2) :
  Inv (loadDllWith env resolve path s).2
  := by
  rw [loadDllWith]
  split
  · next s' heq => rwa [heq] at hopen
  · next l s' heq =>
    rw [heq] at hopen
    have hres := hresolve l s' hopen
    split
    · next s'' heq' =>
      rw [heq'] at hres
      apply hclose l s'' hres
    · next s'' heq' =>
      rw [heq'] at hres
      apply hattach l s'' hres

variable (load)

/-- The calls of `load_dll` in `resolve_module_imports`. -/
def resolveLoads (l : Loading) (s : LoaderState) : List (CString × LoaderState) :=
  if importDirOk l.nt then passLoads env load l (importDir l.nt) (0, s) else []

/-- The calls of `load_dll` in a call of it that makes its own calls with `load`, of which `nested`
are the calls again: the call itself, and then those for the imports. -/
def loadsWith (nested : CString × LoaderState → List (CString × LoaderState))
    (c : CString × LoaderState) : List (CString × LoaderState) :=
  c ::
    match openDll env c.1 c.2 with
    | (none, _) => []
    | (some l, s) => (resolveLoads env load l s).flatMap nested

variable {load}

def loadsAt : ℕ → CString × LoaderState → List (CString × LoaderState)
  | 0, c => [c]
  | 1, c => loadsWith env (loadDllAt env 0) (loadsAt 0) c
  | n + 2, c => loadsWith env (loadDllAt env n) (loadsAt n) c

/-- The calls of `load_dll` in a call of it, in their order, each with the state before it. -/
def loads (path : CString) (depth : ℤ) (s : LoaderState) : List (CString × LoaderState) :=
  loadsAt env (maxImportDepth - (depth + 1)).toNat (path, s)

end

/-! ### The main image -/

section

variable {b : Build} {env : Env b}

@[simp]
theorem ldrAddModule_main (s : LoaderState) (mod : Slot) :
  (ldrAddModule s mod).main = s.main
  := by
  simp only [ldrAddModule]
  split
  · rfl
  · split_ifs
    · rfl
    · rfl
    · rfl

@[simp]
theorem closeDll_main (l : Loading) (s : LoaderState) :
  (closeDll l s).main = s.main
  := by
  simp only [closeDll, ldrRemoveModule, LoaderState.munmap, LoaderState.setModule]
  split
  · rfl
  · split_ifs
    · rfl
    · rfl

@[simp]
theorem ensureExports_main (l : Loading) (s : LoaderState) :
  (ensureExports l s).main = s.main
  := by
  rw [ensureExports]
  split_ifs
  · rfl
  · rfl

@[simp]
theorem attachDll_main (l : Loading) (s : LoaderState) :
  (attachDll env l s).2.main = s.main
  := by
  simp only [attachDll]
  split_ifs
  · apply ensureExports_main
  · rw [closeDll_main, ensureExports_main]
  · apply ensureExports_main

theorem MainImage.restore_eq (g saved : MainImage) :
  g.restore saved = { saved with imageSize := g.imageSize }
  := by
  have hpath := copyStr_eq_self saved.pePath_lt
  have htake : saved.pePath.take (pePathSize - 1) = saved.pePath := by
    rwa [copyStr] at hpath
  simp only [restore, setPePath, hpath, htake]

/-- The outcome does not depend on the main image, whose size is set when an image is mapped. -/
theorem mapImageAt_main (k : Kernel b) (used : List Region) (path : CString) (file : Option File)
    (desiredBase : Ptr) (g g' : MainImage) :
  let r := mapImageAt k used path file desiredBase g
  r.1 = (mapImageAt k used path file desiredBase g').1 ∧
    r.2.imageSize = r.1.elim g.imageSize fun r => peSizeOfImage r.2
  := by
  cases file with
  | none => exact ⟨rfl, rfl⟩
  | some f =>
    cases hparse : parseHeaders b f with
    | none => simp [mapImageAt, hparse, MainImage.setPePath]
    | some h =>
      cases hmap : mapParsed k used f h desiredBase with
      | none => simp [mapImageAt, hparse, hmap, MainImage.setPePath]
      | some img => simp [mapImageAt, hparse, hmap]

@[simp]
theorem registerDll_main (path : CString) (img : Image) (ntCopy : ImageNtHeaders)
    (s : LoaderState) :
  (registerDll env path img ntCopy s).2.main = s.main
  := by
  simp only [registerDll]
  split
  · rfl
  · split_ifs
    · rfl
    · split
      · rfl
      · rw [ldrAddModule_main]
        rfl

theorem openDll_main (path : CString) (s : LoaderState) :
  (openDll env path s).2.main =
    (mapImageAt env.kernel s.used path (env.file path) (b.wrap (pageRoundUp s.dllBaseNext))
      s.main).2.restore s.main
  := by
  simp only [openDll, mapDll]
  cases (mapImageAt env.kernel s.used path (env.file path) (b.wrap (pageRoundUp s.dllBaseNext))
      s.main).1 with
  | none => rfl
  | some r => simp

theorem loadDllWith_main (resolve : Loading → LoaderState → Bool × LoaderState) (path : CString)
    (s : LoaderState) :
  (loadDllWith env resolve path s).2.main =
    match openDll env path s with
    | (none, s₁) => s₁.main
    | (some l, s₁) => (resolve l s₁).2.main
  := by
  rw [loadDllWith]
  split
  · rfl
  · split
    · next heq => rw [closeDll_main, heq]
    · next heq => rw [attachDll_main, heq]

theorem resolveModuleImports_main (load : CString → LoaderState → Option Slot × LoaderState)
    (l : Loading) (s : LoaderState) :
  (resolveModuleImports env load l s).2.main =
    if importDirOk l.nt then ((dependencyLoop env load l (importDir l.nt)).run (0, s)).2.main
    else s.main
  := by
  rw [resolveModuleImports_eq]
  split_ifs
  · rcases (dependencyLoop env load l (importDir l.nt)).run (0, s) with ⟨_ | _, s'⟩
    · rfl
    · simp only
      split
      · next heq => exact congrArg (·.2.main) heq.symm
      · next heq => exact congrArg (·.2.main) heq.symm
  · rfl

theorem loadDll_main_of_invariant (P : MainImage → Prop)
    (hopen : ∀ path s, P s.main → P (openDll env path s).2.main) (path : CString) (depth : ℤ)
    {s : LoaderState} (hs : P s.main) :
  P (loadDll env path depth s).2.main
  := by
  have hwith : ∀ resolve : Loading → LoaderState → Bool × LoaderState,
      (∀ l s, P s.main → P (resolve l s).2.main) →
      ∀ path s, P s.main → P (loadDllWith env resolve path s).2.main := by
    intro resolve hresolve path s hs
    have hopened := hopen path s hs
    rw [loadDllWith_main]
    generalize openDll env path s = r at hopened ⊢
    rcases r with ⟨_ | l, s₁⟩
    · apply hopened
    · apply hresolve l s₁ hopened
  apply loadDll_induction env (P := fun load => ∀ path s, P s.main → P (load path s).2.main) _ _
    depth path s hs
  · apply hwith
    intro l s hs
    apply hs
  · intro load hload
    apply hwith
    intro l s hs
    rw [resolveModuleImports_main]
    split_ifs
    · apply dependencyLoop_of_invariant env l _ 0 (fun s => P s.main) hload hs
    · apply hs

/-- The size of the image that a call of `load_dll` maps for its DLL, if it maps one. -/
def mappedSize (env : Env b) (c : CString × LoaderState) : Option ℕ :=
  (mapImageAt env.kernel c.2.used c.1 (env.file c.1) (b.wrap (pageRoundUp c.2.dllBaseNext))
    c.2.main).1.map fun r => peSizeOfImage r.2

/-- The size of the last image that calls of `load_dll` map. -/
def lastSize (env : Env b) (calls : List (CString × LoaderState)) : Option ℕ :=
  (calls.filterMap (mappedSize env)).getLast?

theorem openDll_imageSize (c : CString × LoaderState) :
  (openDll env c.1 c.2).2.main.imageSize = (mappedSize env c).getD c.2.main.imageSize
  := by
  rw [openDll_main, MainImage.restore_eq, (mapImageAt_main _ _ _ _ _ _ c.2.main).2, mappedSize]
  cases (mapImageAt env.kernel c.2.used c.1 _ _ _).1 <;> rfl

theorem lastSize_append (calls calls' : List (CString × LoaderState)) (n : ℕ) :
  (lastSize env (calls ++ calls')).getD n = (lastSize env calls').getD ((lastSize env calls).getD n)
  := by
  rw [lastSize, List.filterMap_append, List.getLast?_append, getD_or]
  rfl

theorem lastSize_singleton (c : CString × LoaderState) :
  lastSize env [c] = mappedSize env c
  := by
  rw [lastSize, List.filterMap_cons, List.filterMap_nil]
  cases mappedSize env c <;> rfl

theorem loadDllWith_imageSize {load : CString → LoaderState → Option Slot × LoaderState}
    {nested : CString × LoaderState → List (CString × LoaderState)}
    (h : ∀ c, (load c.1 c.2).2.main.imageSize = (lastSize env (nested c)).getD c.2.main.imageSize)
    (c : CString × LoaderState) :
  (loadDllWith env (resolveModuleImports env load) c.1 c.2).2.main.imageSize =
    (lastSize env (loadsWith env load nested c)).getD c.2.main.imageSize
  := by
  have hself := @openDll_imageSize _ env c
  rw [loadDllWith_main, loadsWith, ← List.singleton_append, lastSize_append, lastSize_singleton,
    ← hself]
  rcases openDll env c.1 c.2 with ⟨_ | l, s⟩
  · rfl
  · simp only [resolveModuleImports_main, resolveLoads]
    split_ifs
    · -- Each call of the first pass leaves the size of the last image that is mapped in it.
      apply dependencyLoop_of_calls env load l _ (0, s) fun calls s' =>
        s'.main.imageSize = (lastSize env (calls.flatMap nested)).getD s.main.imageSize
      · intro calls c _ hcalls
        rw [List.flatMap_append, lastSize_append, ← hcalls, h, List.flatMap_singleton]
      · rfl
    · rfl

theorem loadDll_imageSize (path : CString) (depth : ℤ) (s : LoaderState) :
  (loadDll env path depth s).2.main.imageSize =
    (lastSize env (loads env path depth s)).getD s.main.imageSize
  := by
  have hlevel : ∀ n c, (loadDllAt env n c.1 c.2).2.main.imageSize =
      (lastSize env (loadsAt env n c)).getD c.2.main.imageSize := by
    have hzero : ∀ c, (loadDllAt env 0 c.1 c.2).2.main.imageSize =
        (lastSize env (loadsAt env 0 c)).getD c.2.main.imageSize := by
      intro c
      rw [loadDllAt, loadsAt, lastSize_singleton, ← openDll_imageSize, loadDllWith_main]
      rcases openDll env c.1 c.2 with ⟨_ | l, s⟩ <;> rfl
    intro n
    induction n using Nat.twoStepInduction with
    | zero => apply hzero
    | one => apply loadDllWith_imageSize hzero
    | more n ih _ => apply loadDllWith_imageSize ih
  apply hlevel _ (path, s)

/-- `load_dll` restores the address, the kind and the path of the main image.  It leaves all of the
main image alone exactly when the last image that it maps, if it maps any, has the size of the main
image. -/
theorem loadDll_main_iff (env : Env b) (path : CString) (depth : ℤ) (s : LoaderState) :
  let main := (loadDll env path depth s).2.main
  main = { s.main with imageSize := main.imageSize } ∧
    (main = s.main ↔ ∀ size ∈ lastSize env (loads env path depth s), size = s.main.imageSize)
  := by
  intro main
  have hrest : main = { s.main with imageSize := main.imageSize } := by
    apply loadDll_main_of_invariant (fun g => g = { s.main with imageSize := g.imageSize })
    · intro path s' h
      rw [openDll_main, MainImage.restore_eq, h]
    · rfl
  have hsize : main.imageSize = _ := loadDll_imageSize path depth s
  refine ⟨hrest, ?_⟩
  rw [hsize] at hrest
  cases hlast : lastSize env (loads env path depth s) with
  | none =>
    rw [hlast] at hrest
    exact iff_of_true hrest (by simp)
  | some size =>
    rw [hlast, getD_some] at hrest
    rw [hrest]
    constructor
    · rintro heq _ ⟨⟩
      exact congrArg MainImage.imageSize heq
    · intro h
      rw [h size rfl]

end

def freeAbove (used : List Region) : ℕ :=
  pageRoundUp (used.foldr (fun u a => max u.stop a) 0x70000000)

theorem le_freeAbove (used : List Region) :
  0x70000000 ≤ freeAbove used ∧ ∀ u ∈ used, u.stop ≤ freeAbove used
  := by
  have hmax : 0x70000000 ≤ used.foldr (fun u a => max u.stop a) 0x70000000 ∧
      ∀ u ∈ used, u.stop ≤ used.foldr (fun u a => max u.stop a) 0x70000000 := by
    induction used with
    | nil => simp
    | cons v used ih =>
      rw [List.foldr_cons, List.forall_mem_cons]
      exact ⟨ih.1.trans (le_max_right ..), le_max_left .., fun u hu =>
        (ih.2 u hu).trans (le_max_right ..)⟩
  have hround := le_pageRoundUp (used.foldr (fun u a => max u.stop a) 0x70000000)
  exact ⟨hmax.1.trans hround, fun u hu => (hmax.2 u hu).trans hround⟩

/-- The kernel that maps and protects whatever its rules allow, and finds a place above all regions
in use. -/
def Kernel.roomy (b : Build) : Kernel b where
  __ := Kernel.lenient b
  mapAnywhere used n :=
    if freeAbove used + pageRoundUp n < b.ptrLimit then some (freeAbove used) else none
  mapAnywhere_spec := by
    intro used n a h
    rw [ite_none_right_eq_some, some.injEq] at h
    obtain ⟨hlt, rfl⟩ := h
    obtain ⟨hpos, hstop⟩ := le_freeAbove used
    constructor
    · constructor
      · apply pageSize_dvd_pageRoundUp
      · simp only [pages]
        apply Nat.ne_of_gt (by omega)
      · apply hlt
    · intro u hu
      right
      apply hstop u hu

/-- The loader with the DLL `"d.dll"` of two pages, which neither imports nor exports anything. -/
def bareEnv : Env .i386 where
  kernel := .roomy .i386
  file path := if path = .ofString "d.dll" then
    some (.ofFields 312 (pe32Headers 0x2000 312)) else none
  findDllPath name := some name
  importTable := []
  ordinalTable := []
  dllMain _ _ := true

def bareState : LoaderState where
  main := ⟨0x00400000, 0x1000, true, .ofString "a.exe", by decide⟩
  list := initModuleList
  dllBaseNext := 0x60000000
  pebLdr := none
  used := [⟨0x00400000, 0x1000⟩]
  image _ _ := 0
  fills _ := []

/-- After the load of a larger DLL the size of the main image is wrong. -/
theorem loadDll_changes_imageSize :
  (loadDll bareEnv (.ofString "d.dll") 0 bareState).1 = some 0 ∧
    bareState.main.imageSize = 0x1000 ∧
    (loadDll bareEnv (.ofString "d.dll") 0 bareState).2.main.imageSize = 0x2000
  := by
  refine ⟨?_, rfl, ?_⟩
  · decide +kernel
  · decide +kernel

end Loader
