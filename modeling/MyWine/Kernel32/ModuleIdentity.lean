import MyWine.Kernel32.MainModule
import MyWine.Loader.DllPath

/-!
# The identity of a module

A module that `LoadLibraryA` has loaded should be found again under every name that leads to its
file.  `LoadLibraryA` and `GetModuleHandleA` compare the name that they are given with the names of
the registered modules, and `load_dll` registers the part of the path after the last slash, which is
not the name that was given when that had no extension or a directory.  Another name leads back to
the handle exactly when it is the registered name up to case (`module_identity_iff`).
-/

open Pe SyscallSafe Loader

namespace Kernel32

open Function Option

def Aligned (s : LoaderState) : Prop :=
  ∀ ⦃i m⦄, s.registered i = some m → pageSize ∣ m.base

/-- What holds of the registered modules in every run (`sound_run`). -/
structure Sound (s : LoaderState) : Prop where
  placed : Placed s
  aligned : Aligned s

/-- The name leads to the handle, and no image is mapped for it. -/
structure Identified {b : Build} (env : Env b) (s : LoaderState) (handle : Ptr) (name : CString) :
    Prop where
  load : (loadLibraryA env (some name) s).1 = handle
  used : (loadLibraryA env (some name) s).2.used = s.used
  handle : getModuleHandleA (some name) s = handle

/-- The module that `LoadLibraryA` finds or loads for `name` is the first one that has the name
`other`, up to case. -/
def SameModule {b : Build} (env : Env b) (s : LoaderState) (name other : CString) : Prop :=
  match findModuleByNameSafe s.list name, findBuiltinModuleByName name with
  | some _, _ => strcasecmp name other = 0 ∧ findBuiltinModuleByName other = none
  | none, some _ => strcasecmp name other = 0
  | none, none =>
    (∀ path, env.findDllPath name = some path →
      strcasecmp (copyStr (dllBaseName path) moduleNameSize) other = 0) ∧
    findBuiltinModuleByName other = none ∧
    ∀ j, (s.module j).base ≠ 0 → strcasecmp (s.module j).name other = 0 →
      ∃ k < j, (s.module k).base = 0

section

variable {b : Build} {env : Env b} {s s' : LoaderState} {i : Slot} {handle : Ptr}
  {name other : CString}

/-! ### Lookups -/

theorem strcasecmp_trans {s t u : CString} (hst : strcasecmp s t = 0) (htu : strcasecmp t u = 0) :
  strcasecmp s u = 0
  := by
  rw [strcasecmp_eq_zero_iff] at hst htu ⊢
  exact hst.trans htu

theorem strcasecmp_symm {s t : CString} (h : strcasecmp s t = 0) :
  strcasecmp t s = 0
  := by
  rw [strcasecmp_eq_zero_iff] at h ⊢
  exact h.symm

theorem strcasecmp_congr {s t : CString} (h : strcasecmp s t = 0) (u : CString) :
  strcasecmp u s = 0 ↔ strcasecmp u t = 0
  := by
  rw [strcasecmp_eq_zero_iff, strcasecmp_eq_zero_iff, strcasecmp_eq_zero_iff.mp h]

theorem findModuleByNameSafe_congr (h : strcasecmp name other = 0) (list : ModuleList) :
  findModuleByNameSafe list name = findModuleByNameSafe list other
  := by
  simp only [findModuleByNameSafe, strcasecmp_congr h]

theorem findBuiltinModuleByName_congr (h : strcasecmp name other = 0) :
  findBuiltinModuleByName name = findBuiltinModuleByName other
  := by
  simp only [findBuiltinModuleByName, strcasecmp_congr h]

variable {m : BuiltinModule}

theorem findBuiltinModuleByName_spec (h : findBuiltinModuleByName name = some m) :
  m ∈ builtinModules ∧ strcasecmp m.name name = 0
  := by
  have hname := List.find?_some h
  exact ⟨List.mem_of_find?_eq_some h, of_decide_eq_true hname⟩

theorem strcasecmp_of_handle {m' : BuiltinModule} (h : findBuiltinModuleByName name = some m)
    (h' : findBuiltinModuleByName other = some m') (heq : m.handle = m'.handle) :
  strcasecmp name other = 0
  := by
  obtain ⟨hmem, hname⟩ := findBuiltinModuleByName_spec h
  obtain ⟨hmem', hother⟩ := findBuiltinModuleByName_spec h'
  have hfind := (findBuiltinModuleByHandle_of_mem m hmem).2
  rw [heq, (findBuiltinModuleByHandle_of_mem m' hmem').2, some.injEq] at hfind
  subst hfind
  apply strcasecmp_trans (strcasecmp_symm hname) hother

theorem findModuleByNameSafe_addLoadCount (i : Slot) (n : ℤ) (s : LoaderState) (name : CString) :
  findModuleByNameSafe (addLoadCount i n s).list name = findModuleByNameSafe s.list name
  := by
  have hname : ∀ j, ((addLoadCount i n s).list.modules j).name = (s.list.modules j).name := by
    intro j
    apply congrArg LoadedModule.name (module_addLoadCount i n s j)
  simp only [findModuleByNameSafe, hname]
  rfl

/-! ### A handle that is the address of an image -/

/-- The address of an image is found under the names of its module that are not those of a builtin
module. -/
theorem identified_iff_of_aligned (haligned : pageSize ∣ handle) (hne : handle ≠ 0) :
  Identified env s handle other ↔ findBuiltinModuleByName other = none ∧
    ∃ i, findModuleByNameSafe s.list other = some i ∧ (s.module i).base = handle
  := by
  constructor
  · intro h
    have hhandle := h.handle
    rw [getModuleHandleA] at hhandle
    cases hbuiltin : findBuiltinModuleByName other with
    | some m =>
      simp only [hbuiltin] at hhandle
      rw [← hhandle] at haligned
      cases not_aligned_handle m (findBuiltinModuleByName_spec hbuiltin).1 haligned
    | none =>
      use rfl
      cases hfind : findModuleByNameSafe s.list other with
      | none =>
        simp only [hbuiltin, hfind] at hhandle
        cases hne hhandle.symm
      | some i =>
        simp only [hbuiltin, hfind] at hhandle
        exact ⟨i, rfl, hhandle⟩
  · rintro ⟨hbuiltin, i, hfind, hbase⟩
    constructor
    · simp only [loadLibraryA, loadLibraryWith, hfind, hbase]
    · simp only [loadLibraryA, loadLibraryWith, hfind]
      rfl
    · simp only [getModuleHandleA, hbuiltin, hfind, hbase]

/-- The handle of a builtin module is found under its names, unless a module is registered with
them. -/
theorem identified_iff_of_builtin (h : Sound s) (hm : m ∈ builtinModules) :
  Identified env s m.handle other ↔ findModuleByNameSafe s.list other = none ∧
    ∃ m', findBuiltinModuleByName other = some m' ∧ m'.handle = m.handle
  := by
  have hno : ∀ i, (s.module i).base ≠ m.handle := by
    intro i heq
    apply not_aligned_handle m hm
    rw [← heq]
    apply h.aligned (registered_of_base_ne _)
    rw [heq]
    exact (findBuiltinModuleByHandle_of_mem m hm).1
  constructor
  · intro hid
    have hload := hid.load
    have hhandle := hid.handle
    cases hfind : findModuleByNameSafe s.list other with
    | some i =>
      simp only [loadLibraryA, loadLibraryWith, hfind] at hload
      cases hno i hload
    | none =>
      use rfl
      cases hbuiltin : findBuiltinModuleByName other with
      | some m' =>
        simp only [getModuleHandleA, hbuiltin] at hhandle
        exact ⟨m', rfl, hhandle⟩
      | none =>
        simp only [getModuleHandleA, hbuiltin, hfind] at hhandle
        cases (findBuiltinModuleByHandle_of_mem m hm).1 hhandle.symm
  · rintro ⟨hfind, m', hbuiltin, heq⟩
    constructor
    · simp only [loadLibraryA, loadLibraryWith, hfind, hbuiltin, heq]
    · simp only [loadLibraryA, loadLibraryWith, hfind, hbuiltin]
    · simp only [getModuleHandleA, hbuiltin, heq]

/-! ### The handle that `LoadLibraryA` returns -/

theorem Sound.eq_of_base (h : Sound s) {j : Slot} (hne : (s.module i).base ≠ 0)
    (heq : (s.module j).base = (s.module i).base) :
  j = i
  := by
  by_contra hji
  apply h.placed.base_ne (registered_of_base_ne (i := j) (by rwa [heq])) (registered_of_base_ne hne)
    hji heq

theorem identified_of_registered (h : Sound s) (hfind : findModuleByNameSafe s.list name = some i)
    (hne : (s.module i).base ≠ 0) :
  Identified env (addLoadCount i 1 s) (s.module i).base other ↔
    strcasecmp name other = 0 ∧ findBuiltinModuleByName other = none
  := by
  have hbase : ∀ j, ((addLoadCount i 1 s).module j).base = (s.module j).base := by
    intro j
    apply congrArg LoadedModule.base (module_addLoadCount i 1 s j)
  rw [identified_iff_of_aligned (h.aligned (registered_of_base_ne hne)) hne, and_comm]
  simp only [findModuleByNameSafe_addLoadCount, hbase]
  apply and_congr_left
  intro _
  constructor
  · rintro ⟨j, hj, heq⟩
    obtain rfl := h.eq_of_base hne heq
    apply strcasecmp_trans (strcasecmp_symm (findModuleByNameSafe_spec hfind).2)
    exact (findModuleByNameSafe_spec hj).2
  · intro hcase
    use i
    rw [← findModuleByNameSafe_congr hcase]
    exact ⟨hfind, rfl⟩

theorem identified_of_builtin (h : Sound s) (hfind : findModuleByNameSafe s.list name = none)
    (hm : findBuiltinModuleByName name = some m) :
  Identified env s m.handle other ↔ strcasecmp name other = 0
  := by
  rw [identified_iff_of_builtin h (findBuiltinModuleByName_spec hm).1]
  constructor
  · rintro ⟨-, m', hm', heq⟩
    apply strcasecmp_of_handle hm hm' heq.symm
  · intro hcase
    rw [← findModuleByNameSafe_congr hcase, ← findBuiltinModuleByName_congr hcase]
    exact ⟨hfind, m, hm, rfl⟩

/-- The first module with a name is the one in the first free slot exactly when it has this name and
every module with this name lies behind a free slot. -/
theorem findModuleByNameSafe_opened {path : CString} {l : Loading} {s₁ : LoaderState} {img : Image}
    {ntCopy : ImageNtHeaders} (h : Sound s) (hopened : Opened env path s l s₁ img ntCopy)
    (hkeeps : Keeps (some l) s₁ s') :
  findModuleByNameSafe s'.list other = some l.mod ↔
    strcasecmp (copyStr (dllBaseName path) moduleNameSize) other = 0 ∧
      ∀ j, (s.module j).base ≠ 0 → strcasecmp (s.module j).name other = 0 →
        ∃ k < j, (s.module k).base = 0
  := by
  have hwf : WellFormed s' := hkeeps.wellFormed (hopened.wellFormed h.placed.wellFormed)
  have hlt : l.mod.val < s'.list.moduleCount := hopened.mod_lt hkeeps.toExtends hwf
  obtain ⟨-, -, hname, -⟩ :=
    LoaderState.registered_eq_some_iff.mp (hkeeps.registered hopened.self)
  -- The modules before the new one are as they were.
  have hbefore : ∀ j < l.mod, s'.module j = s.module j := by
    intro j hj
    have hne : j ≠ l.mod := ne_of_lt hj
    have hreg := registered_of_base_ne (hopened.before j hj)
    rw [hkeeps.module (hopened.extends.registered hreg), hopened.others hne]
    rintro _ ⟨⟩
    exact hne
  rw [findModuleByNameSafe, Table.firstSlot_eq_some_iff, decide_eq_true_eq]
  rw [LoaderState.module] at hname
  rw [hname]
  constructor
  · rintro ⟨⟨-, hcase⟩, hfirst⟩
    use hcase
    intro j hj hother
    by_contra hnone
    push Not at hnone
    have hjlt : j < l.mod := by
      by_contra hle
      rcases eq_or_lt_of_le (not_lt.mp hle) with rfl | hlt'
      · exact hj hopened.free
      · exact hnone l.mod hlt' hopened.free
    have hfalse := hfirst j hjlt
    rw [decide_eq_false_iff_not] at hfalse
    apply hfalse
    have hmodule := hbefore j hjlt
    rw [LoaderState.module] at hmodule
    rw [hmodule]
    exact ⟨Nat.lt_trans hjlt hlt, hother⟩
  · rintro ⟨hcase, hothers⟩
    use ⟨hlt, hcase⟩
    intro j hj
    rw [decide_eq_false_iff_not]
    rintro ⟨-, hother⟩
    have hmodule := hbefore j hj
    rw [LoaderState.module] at hmodule
    rw [hmodule] at hother
    obtain ⟨k, hk, hzero⟩ := hothers j (hopened.before j hj) hother
    exact hopened.before k (hk.trans hj) hzero

theorem identified_of_loaded (h : Sound s) {path : CString} {depth : ℤ}
    (hload : loadDll env path depth s = (some i, s')) :
  Identified env s' (s'.module i).base other ↔
    strcasecmp (copyStr (dllBaseName path) moduleNameSize) other = 0 ∧
      findBuiltinModuleByName other = none ∧
      ∀ j, (s.module j).base ≠ 0 → strcasecmp (s.module j).name other = 0 →
        ∃ k < j, (s.module k).base = 0
  := by
  obtain ⟨l, s₁, img, ntCopy, hopened, rfl, hkeeps⟩ := loadDll_opened hload
  have haligned : pageSize ∣ l.base := hopened.pages_spec.1.aligned
  have hne : l.base ≠ 0 := hopened.pages_spec.1.start_ne_zero
  have hmapped : BasesMapped s := fun j m hj =>
    h.placed.mapped hj m.base (h.placed.base_mem hj)
  have hbase : (s'.module l.mod).base = l.base :=
    (LoaderState.registered_eq_some_iff.mp (hkeeps.registered hopened.self)).2.1
  have hiff := @findModuleByNameSafe_opened _ _ _ _ other _ _ _ _ _ h hopened hkeeps
  rw [hbase, identified_iff_of_aligned haligned hne]
  constructor
  · rintro ⟨hbuiltin, j, hj, heq⟩
    obtain rfl := hopened.eq_mod_of_base hmapped hkeeps heq
    obtain ⟨hcase, hothers⟩ := hiff.mp hj
    exact ⟨hcase, hbuiltin, hothers⟩
  · rintro ⟨hcase, hbuiltin, hothers⟩
    exact ⟨hbuiltin, l.mod, hiff.mpr ⟨hcase, hothers⟩, hbase⟩

/-- After `LoadLibraryA` has returned a handle for a name, another name leads to the handle exactly
when the module has this other name up to case and is the first one with it. -/
theorem module_identity_iff (h : Sound s) (hload : loadLibraryA env (some name) s = (handle, s'))
    (hne : handle ≠ 0) (other : CString) :
  Identified env s' handle other ↔ SameModule env s name other
  := by
  have hsome : (loadLibraryA env (some name) s).1 ≠ 0 := by rwa [hload]
  rw [SameModule]
  rcases loadLibraryA_cases hsome with
    ⟨i, hfind, heq⟩ | ⟨hfind, ⟨m, hm, heq⟩ | ⟨hbuiltin, path, i, s₁, hpath, hdll, heq⟩⟩
  · rw [hload, Prod.mk.injEq] at heq
    obtain ⟨rfl, rfl⟩ := heq
    rw [hfind]
    apply identified_of_registered h hfind hne
  · rw [hload, Prod.mk.injEq] at heq
    obtain ⟨rfl, rfl⟩ := heq
    rw [hfind, hm]
    apply identified_of_builtin h hfind hm
  · rw [hload, Prod.mk.injEq] at heq
    obtain ⟨rfl, rfl⟩ := heq
    rw [hfind, hbuiltin, identified_of_loaded h hdll]
    simp [hpath]

end

/-! ### The states of a run -/

section

variable {b : Build} {env : Env b} {s s' : LoaderState}

theorem Aligned.of_base (h : Aligned s)
    (hbase : ∀ i, (s'.module i).base = 0 ∨ (s'.module i).base = (s.module i).base) :
  Aligned s'
  := by
  intro i m hi
  obtain ⟨hne, hm, -⟩ := LoaderState.registered_eq_some_iff.mp hi
  rcases hbase i with hzero | heq
  · cases hne hzero
  · rw [heq] at hne hm
    rw [← hm]
    apply h (registered_of_base_ne hne)

theorem Aligned.of_registered (h : Aligned s) (heq : s'.registered = s.registered) :
  Aligned s'
  := by
  intro i m hi
  rw [heq] at hi
  apply h hi

theorem update_base {modules : Slot → LoadedModule} {i : Slot} {m : LoadedModule}
    (h : m.base = (modules i).base) (j : Slot) :
  (update modules i m j).base = (modules j).base
  := by
  rcases eq_or_ne j i with rfl | hne
  · rw [update_self]
    apply h
  · rw [update_of_ne hne]

theorem ldrRemoveModule_base (s : LoaderState) (i j : Slot) :
  ((ldrRemoveModule s i).module j).base = (s.module j).base
  := by
  simp only [ldrRemoveModule]
  split
  · rfl
  · split_ifs
    · refine update_base ?_ j
      rfl
    · rfl

theorem aligned_closeDll (l : Loading) (h : Aligned s) :
  Aligned (closeDll l s)
  := by
  apply h.of_base
  intro i
  have hbase : ∀ s : LoaderState, ((removeModule s.list l.mod).modules i).base = 0 ∨
      ((removeModule s.list l.mod).modules i).base = (s.module i).base := by
    intro s
    rw [removeModule]
    split_ifs
    · rcases eq_or_ne i l.mod with rfl | hne
      · left
        simp [LoadedModule.zero]
      · right
        simp only [update_of_ne hne, LoaderState.module]
    · exact Or.inr rfl
  have hreset : (((ldrRemoveModule s l.mod).setModule l.mod
      (resetExportCache ((ldrRemoveModule s l.mod).module l.mod))).module i).base =
        (s.module i).base := by
    rw [← ldrRemoveModule_base s l.mod i]
    refine update_base ?_ i
    rfl
  rw [← hreset]
  apply hbase

theorem aligned_openDll (hkept : HeadersKept env) (path : CString) (h : Aligned s) :
  Aligned (openDll env path s).2
  := by
  rcases hopen : openDll env path s with ⟨_ | l, s₁⟩
  · apply h.of_registered
    apply LoaderState.registered_congr (openDll_none (hkept.call _) hopen).1
  · obtain ⟨img, ntCopy, hopened⟩ := openDll_some hopen
    intro i m hi
    rcases eq_or_ne i l.mod with rfl | hne
    · rw [hopened.self, some.injEq] at hi
      subst hi
      exact hopened.pages_spec.1.aligned
    · rw [hopened.registered_eq, update_of_ne hne] at hi
      apply h hi

theorem aligned_loadDll (hkept : HeadersKept env) (depth : ℤ) :
  ∀ path s, Aligned s → Aligned (loadDll env path depth s).2
  := by
  have hwith : ∀ resolve : Loading → LoaderState → Bool × LoaderState,
      (∀ l s, Aligned s → Aligned (resolve l s).2) →
      ∀ path s, Aligned s → Aligned (loadDllWith env resolve path s).2 := by
    intro resolve hresolve path s h
    apply loadDllWith_of_invariant env Aligned (aligned_openDll hkept path h) hresolve
    · intro l s hs
      apply aligned_closeDll l hs
    · intro l s hs
      obtain ⟨s', hquiet, heq | heq⟩ := attachDll_cases env l s
      · rw [heq]
        apply hs.of_registered hquiet.registered
      · rw [heq]
        apply aligned_closeDll l (hs.of_registered hquiet.registered)
  apply loadDll_induction env
    (P := fun load => ∀ path s, Aligned s → Aligned (load path s).2)
  · apply hwith
    intro l s hs
    apply hs
  · intro load hload
    apply hwith
    intro l s hs
    apply resolveModuleImports_of_invariant env Aligned hload _ _ hs
    · intro s hs
      apply hs.of_registered (quiet_bindImports env l s).registered
    · intro s hs
      apply hs.of_registered (quietAt_parseExports l.mod s).registered

theorem aligned_addLoadCount {i : Slot} (n : ℤ) (h : Aligned s) :
  Aligned (addLoadCount i n s)
  := by
  intro j m hj
  have haligned := h (addLoadCount_registered hj)
  exact haligned

theorem sound_step (hkept : HeadersKept env) (h : Sound s) (call : LibraryCall) :
  Sound (step env s call)
  := by
  use placed_step hkept h.placed call
  cases call with
  | load name =>
    apply loadLibraryA_of_invariant Aligned name h.aligned
    · intro i
      apply aligned_addLoadCount 1 h.aligned
    · intro path
      apply aligned_loadDll hkept 0 path s h.aligned
  | free hModule =>
    apply freeLibraryA_of_invariant Aligned hModule h.aligned
    · intro i
      apply aligned_addLoadCount (-1) h.aligned
    · intro i m hi hlt _ j m' hj
      apply aligned_addLoadCount (-1) h.aligned
      apply (registered_of_unloadModule (wellFormed_addLoadCount (-1) h.placed.wellFormed)
        (registered_addLoadCount_of_some (-1) hi) hlt hj).2

theorem sound_registerMain {base : Ptr} {nt : ImageNtHeaders} (hbase : pageSize ∣ base)
    (hsize : peSizeOfImage nt ≠ 0) (hmapped : ∀ x ∈ pages base (peSizeOfImage nt), s.Mapped x)
    (ldrOk : Bool) :
  Sound (registerMain ldrOk base nt s)
  where
  placed := placed_registerMain hsize hmapped ldrOk
  aligned := by
    intro i m hi
    rw [(eq_main_of_registerMain hi).2.1]
    apply hbase

theorem sound_run (hkept : HeadersKept env) (h : Sound s) (calls : List LibraryCall) :
  Sound (calls.foldl (step env) s)
  := by
  induction calls generalizing s with
  | nil => apply h
  | cons call calls ih => apply ih (sound_step hkept h call)

end

/-! ### A name without an extension -/

/-- A module that the search does not find stands behind a free slot. -/
theorem free_before_of_not_found {s : LoaderState} {name : CString} (hwf : WellFormed s)
    (hfind : findModuleByNameSafe s.list name = none) {j : Slot}
    (hname : strcasecmp (s.module j).name name = 0) :
  (s.module j).base ≠ 0 → ∃ k < j, (s.module k).base = 0
  := by
  intro hj
  rw [findModuleByNameSafe, Table.firstSlot_eq_none_iff] at hfind
  have hle : ¬ j.val < s.list.moduleCount := by
    intro hlt
    have hfalse := hfind j
    rw [decide_eq_false_iff_not] at hfalse
    exact hfalse ⟨hlt, hname⟩
  by_contra hnone
  push Not at hnone
  have hsub : Finset.Iic j ⊆ Table.occupied (fun m => m.isSome = true) s.registered := by
    intro k hk
    rw [Finset.mem_Iic] at hk
    rw [Table.mem_occupied, registered_of_base_ne]
    · rfl
    · rcases eq_or_lt_of_le hk with rfl | hlt
      · exact hj
      · exact hnone k hlt
  have hcard := Finset.card_le_card hsub
  rw [Fin.card_Iic, ← hwf.count] at hcard
  omega

def searchEnv : Env .i386 where
  kernel := .roomy .i386
  file path := if path = .ofString "./b.dll" then some (plainDll exportingDll) else none
  findDllPath := findDllPath ⟨fun path => path = .ofString "./b.dll", .ofString "a.exe",
    .ofString ""⟩
  importTable := []
  ordinalTable := []
  dllMain _ _ := true

theorem sound_libraryStart :
  Sound libraryStart
  := by
  apply sound_registerMain (by decide) (by decide) mainBound_libraryStart.mapped

theorem sound_run_load_free :
  Sound ([.load (some (.ofString "b.dll")), .free 0x60000000].foldl (step libraryEnv) libraryStart)
  := sound_run headersKept_libraryEnv sound_libraryStart _

/-- `"b"` and `"b.dll"` lead to the same file, which is mapped again for `"b"`. -/
theorem module_not_identified :
  let s := (loadLibraryA searchEnv (some (.ofString "b")) libraryStart).2
  Sound libraryStart ∧
    searchEnv.findDllPath (.ofString "b") = searchEnv.findDllPath (.ofString "b.dll") ∧
    (loadLibraryA searchEnv (some (.ofString "b")) libraryStart).1 = 0x60000000 ∧
    (loadLibraryA searchEnv (some (.ofString "b")) s).1 = 0x60001000 ∧
    getModuleHandleA (some (.ofString "b")) s = 0 ∧
    ¬ Identified searchEnv s 0x60000000 (.ofString "b")
  := by
  have hhandle : getModuleHandleA (some (.ofString "b"))
      (loadLibraryA searchEnv (some (.ofString "b")) libraryStart).2 = 0 := by
    decide +kernel
  refine ⟨sound_libraryStart, by decide +kernel, by decide +kernel, by decide +kernel, hhandle, ?_⟩
  intro h
  have hfalse := h.handle
  rw [hhandle] at hfalse
  cases hfalse

/-- `"b.dll"` is found again. -/
theorem module_identity_with_extension :
  Identified searchEnv (loadLibraryA searchEnv (some (.ofString "b.dll")) libraryStart).2 0x60000000
    (.ofString "b.dll")
  := by
  have hload : (loadLibraryA searchEnv (some (.ofString "b.dll")) libraryStart).1 = 0x60000000 := by
    decide +kernel
  apply (module_identity_iff sound_libraryStart (Prod.ext hload rfl) (by decide) _).mpr
  have hfind : findModuleByNameSafe libraryStart.list (.ofString "b.dll") = none := by
    decide +kernel
  have hbuiltin : findBuiltinModuleByName (.ofString "b.dll") = none := by decide +kernel
  have hpath : searchEnv.findDllPath (.ofString "b.dll") = some (.ofString "./b.dll") := by
    decide +kernel
  rw [SameModule, hfind, hbuiltin]
  refine ⟨?_, rfl, ?_⟩
  · intro path heq
    rw [hpath, some.injEq] at heq
    rw [← heq]
    decide +kernel
  · intro j hj hname
    apply free_before_of_not_found sound_libraryStart.placed.wellFormed hfind hname hj

end Kernel32
