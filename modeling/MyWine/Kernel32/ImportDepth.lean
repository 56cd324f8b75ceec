import MyWine.Kernel32.Library
import MyWine.Loader.ImportChain

/-!
# The depth of the imports

`LoadLibraryA` terminates, for `load_dll` stops at `MAX_IMPORT_DEPTH` even when the imports are
cyclic.  The depth is counted twice for each DLL, by `load_dll` and by `resolve_module_imports`, so
that a chain of DLLs that import one another is loaded exactly when it is no longer than half of
`MAX_IMPORT_DEPTH` (`import_depth_iff`).
-/

open Pe SyscallSafe Loader

namespace Kernel32

open List

section

variable {b : Build} {env : Env b} {s : LoaderState} {dll : CString} {dlls : List CString}

theorem findBuiltinModuleByName_of_not_stub (h : isBuiltinStubLibrary dll = false) :
  findBuiltinModuleByName dll = none
  := by
  have hnames : builtinModules.map (·.name) = stubLibs := by decide
  rw [isBuiltinStubLibrary, any_eq_false] at h
  rw [findBuiltinModuleByName, List.find?_eq_none]
  intro m hm
  apply h
  rw [← hnames]
  apply mem_map_of_mem hm

theorem loadLibraryA_chain (hnew : findModuleByNameSafe s.list dll = none)
    (hmissing : isMissing s dll = true) {path : CString} (hpath : env.findDllPath dll = some path) :
  loadLibraryA env (some dll) s =
    match loadDll env path 0 s with
    | (none, s) => (0, s)
    | (some i, s) => ((s.module i).base, s)
  := by
  rw [isMissing, Bool.and_eq_true, Bool.not_eq_true'] at hmissing
  rcases hload : loadDll env path 0 s with ⟨_ | i, s'⟩
  all_goals simp only [loadLibraryA, loadLibraryWith, hnew,
    findBuiltinModuleByName_of_not_stub hmissing.2, hpath, hload]

theorem loadLibraryA_chain_iff (hwf : WellFormed s)
    (hnew : findModuleByNameSafe s.list dll = none) (h : Chain env (dll :: dlls) s) :
  let r := loadLibraryA env (some dll) s
  (r.1 ≠ 0 ∧ ∀ d ∈ dll :: dlls, (findModuleByName r.2.list d).isSome = true) ↔
    2 * ((dll :: dlls).length : ℤ) ≤ maxImportDepth
  := by
  obtain ⟨hmissing, path, -, -, hpath, -⟩ := id h
  obtain ⟨hsuccess, hfail⟩ := @Chain.loadDll _ env s path dll dlls 0 hwf h hpath
  have hlength : ((dll :: dlls).length : ℤ) = dlls.length + 1 := by
    rw [length_cons]
    rfl
  rw [loadLibraryA_chain hnew hmissing hpath, hlength]
  constructor
  · rintro ⟨hne, -⟩
    by_contra hlt
    have hnone := hfail (by omega)
    apply hne
    rcases hload : loadDll env path 0 s with ⟨_ | i, s'⟩
    · rfl
    · rw [hload] at hnone
      cases hnone
  · intro hle
    obtain ⟨i, s', hload, hfound⟩ := hsuccess (by omega)
    rw [hload]
    refine ⟨?_, hfound⟩
    obtain ⟨l, s₁, img, ntCopy, hopened, rfl, hkeeps⟩ := loadDll_opened hload
    exact (LoaderState.registered_eq_some_iff.mp (hkeeps.registered hopened.self)).1

end

def chainDll (c : ℕ) : List (ℕ × ℕ × ℕ) :=
  [(180, 4, 2), (192, 4, 0x200), (196, 4, 40), (0x20C, 4, 0x260), (0x210, 4, 0x2A0),
    (0x260, 5, 0x6C6C642E00 + c)]

def chainFiles : List (CString × List (ℕ × ℕ × ℕ)) :=
  [(.ofString "1.dll", chainDll 0x32), (.ofString "2.dll", chainDll 0x33),
    (.ofString "3.dll", chainDll 0x34), (.ofString "4.dll", chainDll 0x35),
    (.ofString "5.dll", [])]

def chainEnv : Env .i386 where
  kernel := .roomy .i386
  file path := (chainFiles.find? fun f => f.1 = path).map fun f => plainDll f.2
  findDllPath name := some name
  importTable := []
  ordinalTable := []
  dllMain _ _ := true

def importsOnly (fields : List (ℕ × ℕ × ℕ)) (next : Option CString) : Bool :=
  let img := (plainDll fields).byte
  let nt := imageNtHeaders img
  (resolveImportPass1 [] (fun _ _ _ => none) nt img).1 &&
    match next with
    | none => (importDir nt).size.toNat < sizeofImportDescriptor
    | some dll => (descriptorAt nt img 1).name = 0 ∧ thunkAt nt img 0 0 = 0 ∧
      importDll nt img 0 = dll ∧ sizeofImportDescriptor ≤ (importDir nt).size.toNat ∧
      (descriptorAt nt img 0).name ≠ 0

def plainChain : List (CString × List (ℕ × ℕ × ℕ)) → Bool
  | [] => true
  | f :: fs => (chainFiles.find? fun g => g.1 = f.1) = some f && isPlain (plainDll f.2) &&
    f.2.all (fun field => field.1 + field.2.1 ≤ 0x300) &&
    strcasecmp (copyStr (dllBaseName f.1) moduleNameSize) f.1 = 0 &&
    importsOnly f.2 (fs.head?.map (·.1)) && plainChain fs

def opensAll : List CString → LoaderState → Bool
  | [], _ => true
  | dll :: dlls, s => isMissing s dll && (openDll chainEnv dll s).1.isSome &&
    opensAll dlls (openDll chainEnv dll s).2

theorem image_of_openDll {f : CString × List (ℕ × ℕ × ℕ)} {s s₁ : LoaderState} {l : Loading}
    (hfile : chainEnv.file f.1 = some (plainDll f.2)) (hplain : isPlain (plainDll f.2) = true)
    (hfields : ∀ field ∈ f.2, field.1 + field.2.1 ≤ 0x300)
    (hopen : openDll chainEnv f.1 s = (some l, s₁)) :
  s₁.image l.base = (plainDll f.2).byte ∧ l.nt = imageNtHeaders (plainDll f.2).byte
  := by
  obtain ⟨img, ntCopy, hopened⟩ := openDll_some hopen
  have hmapped := hopened.mapped
  rw [hfile] at hmapped
  have himg := image_of_isPlain hplain hfields hmapped
  rw [hopened.image, Function.update_self, hopened.nt, himg]
  exact ⟨rfl, rfl⟩

theorem chainLink_of_importsOnly {fields : List (ℕ × ℕ × ℕ)} {s : LoaderState} {l : Loading}
    {next : Option CString} (h : importsOnly fields next = true)
    (himage : s.image l.base = (plainDll fields).byte)
    (hnt : l.nt = imageNtHeaders (plainDll fields).byte) :
  ChainLink chainEnv l s next
  := by
  cases next with
  | none =>
    simp only [importsOnly, Bool.and_eq_true, decide_eq_true_eq] at h
    rw [← hnt, ← himage] at h
    obtain ⟨hpass, hsize⟩ := h
    have hno : ∀ k, ¬ DescriptorAt l.nt (s.image l.base) k := not_descriptorAt_of_size hsize
    refine ⟨resolvable_of_no_thunks hpass ?_, fun _ => rfl, ?_, ?_⟩
    · intro k hk
      cases hno k hk
    · intro j hj
      cases hno j hj
    · intro dll hdll
      cases hdll
  | some dll =>
    simp only [importsOnly, Bool.and_eq_true, decide_eq_true_eq] at h
    rw [← hnt, ← himage] at h
    obtain ⟨hpass, hone, hthunk, hdll, hsize, hname⟩ := h
    have hzero : DescriptorAt l.nt (s.image l.base) 0 := by
      intro j hj
      obtain rfl := Nat.le_zero.mp hj
      rw [Nat.mul_zero, Nat.zero_add]
      exact ⟨hsize, hname⟩
    refine ⟨resolvable_of_no_thunks hpass ?_, fun _ => rfl, ?_, ?_⟩
    · intro k hk
      obtain rfl := descriptor_eq_zero hone hk
      exact hthunk
    · intro j hj
      obtain rfl := descriptor_eq_zero hone hj
      right
      rw [hdll]
    · rintro _ ⟨⟩
      exact ⟨0, hzero, hdll⟩

theorem chain_of_plain {fs : List (CString × List (ℕ × ℕ × ℕ))} {s : LoaderState}
    (h : plainChain fs = true) (hopens : opensAll (fs.map (·.1)) s = true) :
  Chain chainEnv (fs.map (·.1)) s
  := by
  induction fs generalizing s with
  | nil => trivial
  | cons f fs ih =>
    simp only [plainChain, Bool.and_eq_true, decide_eq_true_eq, all_eq_true] at h
    obtain ⟨⟨⟨⟨⟨hfind, hplain⟩, hfields⟩, hname⟩, himports⟩, hrest⟩ := h
    simp only [map_cons, opensAll, Bool.and_eq_true] at hopens
    obtain ⟨⟨hmissing, hsome⟩, hopens⟩ := hopens
    obtain ⟨l, hl⟩ := Option.isSome_iff_exists.mp hsome
    have hopen : openDll chainEnv f.1 s = (some l, (openDll chainEnv f.1 s).2) := Prod.ext hl rfl
    have hfile : chainEnv.file f.1 = some (plainDll f.2) := by
      simp [chainEnv, hfind]
    obtain ⟨himage, hnt⟩ := image_of_openDll hfile hplain hfields hopen
    refine ⟨hmissing, f.1, l, _, rfl, hname, hopen, ?_, ih hrest hopens⟩
    have hhead : (fs.map (·.1)).head? = fs.head?.map (·.1) := List.head?_map
    rw [hhead]
    apply chainLink_of_importsOnly himports himage hnt

end Kernel32
