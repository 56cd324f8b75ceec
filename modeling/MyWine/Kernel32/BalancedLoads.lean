import MyWine.Kernel32.Library

/-!
# Loads and frees that balance

A run of successful calls of `LoadLibraryA` and `FreeLibraryA` in which each handle is freed as
often as it was returned.  `load_dll` maps a page for the headers of a DLL besides its image, and
`FreeLibraryA` unmaps only the image.  So the loader is at the end as it was at the start exactly
when no call has loaded a DLL, that is when every library was registered from the start
(`balanced_same_iff`).
-/

open Pe SyscallSafe Loader

namespace Kernel32

open Function List Option

/-- The loader, with the number of times that each handle has been returned and not been freed
since. -/
structure BalancedRun where
  loader : LoaderState
  outstanding : Ptr → ℕ

namespace BalancedRun

def init (s : LoaderState) : BalancedRun := ⟨s, fun _ => 0⟩

def step {b : Build} (env : Env b) (s : BalancedRun) : LibraryCall → BalancedRun
  | .load name =>
    let r := loadLibraryA env name s.loader
    ⟨r.2, update s.outstanding r.1 (s.outstanding r.1 + 1)⟩
  | .free hModule =>
    ⟨(freeLibraryA b hModule s.loader).2,
      update s.outstanding hModule (s.outstanding hModule - 1)⟩

theorem step_loader {b : Build} (env : Env b) (s : BalancedRun) (call : LibraryCall) :
  (s.step env call).loader = Kernel32.step env s.loader call
  := by
  cases call with
  | load name => rfl
  | free hModule => rfl

/-- The calls that may be made: a load succeeds and is not of a builtin module, and a handle is
freed that has been returned. -/
def Allowed {b : Build} (env : Env b) (s : BalancedRun) : LibraryCall → Prop
  | .load name =>
    (∃ n, name = some n ∧ findBuiltinModuleByName n = none) ∧ (loadLibraryA env name s.loader).1 ≠ 0
  | .free hModule => 0 < s.outstanding hModule

def Registered (s : LoaderState) : LibraryCall → Prop
  | .load name => ∀ n, name = some n → (findModuleByNameSafe s.list n).isSome = true
  | .free _ => True

/-- The registered modules are usable and have been loaded. -/
structure Tidy (b : Build) (s : LoaderState) : Prop where
  placed : Placed s
  usable : ∀ {i m}, s.registered i = some m → Usable b m.region
  loaded : ∀ {i m}, s.registered i = some m → 1 ≤ m.loadCount

/-! ### Runs that load nothing -/

/-- The state differs from `s` in the counts alone, by the calls whose handle has not been freed. -/
structure Counted (s : LoaderState) (t : BalancedRun) : Prop where
  registered : ∀ i, t.loader.registered i =
    (s.registered i).map fun m => { m with loadCount := m.loadCount + t.outstanding m.base }
  name : ∀ i, (t.loader.module i).name = (s.module i).name
  base : ∀ i, (t.loader.module i).base = (s.module i).base
  nt : ∀ i, (t.loader.module i).nt = (s.module i).nt
  count : t.loader.list.moduleCount = s.list.moduleCount
  pebLdr : t.loader.pebLdr = s.pebLdr
  used : t.loader.used = s.used
  live : ∀ h, 0 < t.outstanding h →
    ∃ i m, s.registered i = some m ∧ m.base = h ∧ i.val < s.list.moduleCount

section

variable {b : Build} {env : Env b} {s : LoaderState} {t : BalancedRun}

theorem counted_init (s : LoaderState) :
  Counted s (init s)
  where
  registered i := by
    simp only [init, Nat.cast_zero, add_zero]
    cases s.registered i with
    | none => rfl
    | some m => rfl
  name _ := rfl
  base _ := rfl
  nt _ := rfl
  count := rfl
  pebLdr := rfl
  used := rfl
  live h hpos := by
    cases hpos

theorem Counted.findModuleByNameSafe_eq (h : Counted s t) (n : CString) :
  findModuleByNameSafe t.loader.list n = findModuleByNameSafe s.list n
  := by
  rw [findModuleByNameSafe, findModuleByNameSafe]
  congr 1
  funext i
  have hname := h.name i
  simp only [LoaderState.module] at hname
  rw [h.count, hname]

theorem Counted.findModuleByAddr_eq (h : Counted s t) (a : Ptr) :
  findModuleByAddr b t.loader.list a = findModuleByAddr b s.list a
  := by
  rw [findModuleByAddr, findModuleByAddr]
  congr 1
  funext i
  have hbase := h.base i
  have hnt := h.nt i
  simp only [LoaderState.module] at hbase hnt
  rw [h.count, LoadedModule.containsAddr, LoadedModule.containsAddr, hbase, hnt]

variable {i : Slot} {m : ModuleInfo}

theorem Counted.addLoadCount (hplaced : Placed s) (h : Counted s t) (hi : s.registered i = some m)
    (hlt : i.val < s.list.moduleCount) {n : ℤ} {k : ℕ} (hk : (k : ℤ) = t.outstanding m.base + n) :
  Counted s ⟨addLoadCount i n t.loader, update t.outstanding m.base k⟩
  where
  registered j := by
    simp only
    rw [registered_addLoadCount, h.registered]
    rcases eq_or_ne j i with rfl | hne
    · rw [hi, map_some, map_some, map_some, update_self, hk, if_pos rfl, add_assoc]
    · cases hj : s.registered j with
      | none => rfl
      | some m' =>
        rw [map_some, map_some, map_some, update_of_ne (hplaced.base_ne hj hi hne), if_neg hne,
          add_zero]
  name j := by rw [module_addLoadCount, h.name j]
  base j := by rw [module_addLoadCount, h.base j]
  nt j := by rw [module_addLoadCount, h.nt j]
  count := h.count
  pebLdr := h.pebLdr
  used := h.used
  live a ha := by
    simp only at ha
    rcases eq_or_ne a m.base with rfl | hne
    · exact ⟨i, m, hi, rfl, hlt⟩
    · rw [update_of_ne hne] at ha
      apply h.live a ha

theorem Tidy.containsAddr_base (h : Tidy b s) (hi : s.registered i = some m) :
  (s.module i).containsAddr b m.base = true
  := by
  obtain ⟨hne, hbase, -, hnt, -⟩ := LoaderState.registered_eq_some_iff.mp hi
  have hpos := h.placed.pos hi
  have hstop := (h.usable hi).stop_lt
  rw [ModuleInfo.region] at hpos hstop
  rw [LoadedModule.containsAddr, hnt, hbase]
  rw [hbase] at hne
  cases hm : m.nt with
  | none =>
    rw [hm] at hpos
    simp [pages, pageRoundUp] at hpos
  | some nt =>
    rw [hm, elim_some] at hpos hstop
    simp only [pages, Region.stop] at hpos hstop
    have hle : m.base + peSizeOfImage nt ≤ m.base + pageRoundUp (peSizeOfImage nt) :=
      Nat.add_le_add_left (le_pageRoundUp _) _
    have hsize : 0 < peSizeOfImage nt := by
      by_contra hzero
      rw [not_lt, Nat.le_zero] at hzero
      rw [hzero] at hpos
      simp [pageRoundUp] at hpos
    rw [decide_eq_true_eq, Build.wrap_of_lt (lt_of_le_of_lt hle hstop)]
    exact ⟨hne, Nat.le_refl _, Nat.lt_add_of_pos_right hsize⟩

theorem Tidy.findLibrary_base (h : Tidy b s) (hi : s.registered i = some m)
    (hlt : i.val < s.list.moduleCount) :
  findLibrary b m.base s = some i
  := by
  have hbuiltin : findBuiltinModuleByHandle m.base = none :=
    findBuiltinModuleByHandle_of_aligned (h.usable hi).aligned
  rw [findLibrary, hbuiltin, isSome_none, if_neg Bool.false_ne_true, findModuleByAddr,
    Table.firstSlot_eq_some_iff]
  constructor
  · rw [Bool.and_eq_true, decide_eq_true_eq]
    exact ⟨hlt, h.containsAddr_base hi⟩
  · intro j hj
    by_contra htrue
    rw [Bool.not_eq_false, Bool.and_eq_true] at htrue
    obtain ⟨m', hm', hmem⟩ := mem_region_of_containsAddr htrue.2
    apply (h.placed.apart hi hm' (ne_of_gt hj)).notMem (h.placed.base_mem hi) hmem

theorem Counted.load (hplaced : Placed s) (h : Counted s t) {name : Option CString}
    (hallowed : t.Allowed env (.load name)) (hreg : Registered s (.load name)) :
  Counted s (t.step env (.load name))
  := by
  obtain ⟨⟨n, rfl, -⟩, hne⟩ := hallowed
  obtain ⟨i, hi⟩ := isSome_iff_exists.mp (hreg n rfl)
  have hload : loadLibraryA env (some n) t.loader =
      ((t.loader.module i).base, Kernel32.addLoadCount i 1 t.loader) := by
    simp only [loadLibraryA, loadLibraryWith, h.findModuleByNameSafe_eq, hi]
  rw [hload, h.base i] at hne
  simp only [step, hload, h.base i]
  apply h.addLoadCount hplaced (registered_of_base_ne hne) (findModuleByNameSafe_spec hi).1
  rfl

theorem Counted.free (htidy : Tidy b s) (h : Counted s t) {hModule : Ptr}
    (hallowed : t.Allowed env (.free hModule)) :
  Counted s (t.step env (.free hModule))
  := by
  have hpos : 0 < t.outstanding hModule := hallowed
  obtain ⟨i, m, hi, rfl, hlt⟩ := h.live hModule hpos
  have hfind : findLibrary b m.base t.loader = some i := by
    rw [← htidy.findLibrary_base hi hlt, findLibrary, findLibrary, h.findModuleByAddr_eq]
  have hloaded := htidy.loaded hi
  simp only [step]
  rcases freeLibraryA_cases b m.base t.loader with ⟨hnone, -⟩ | ⟨j, m', hj, -, hfind', hcase⟩
  · rw [hfind] at hnone
    cases hnone
  · rw [hfind, some.injEq] at hfind'
    subst hfind'
    rw [h.registered, hi, map_some, some.injEq] at hj
    subst hj
    rcases hcase with ⟨-, -, heq⟩ | ⟨-, hle, -⟩
    · rw [heq]
      apply h.addLoadCount htidy.placed hi hlt
      omega
    · simp only at hle
      omega

theorem Counted.same (h : Counted s t) (hbalanced : ∀ a, t.outstanding a = 0) :
  SameLoader s t.loader
  where
  registered := by
    funext i
    rw [h.registered]
    simp only [hbalanced, Nat.cast_zero, add_zero]
    cases s.registered i with
    | none => rfl
    | some m => rfl
  pebLdr := h.pebLdr
  mapped x := by rw [LoaderState.Mapped, h.used, LoaderState.Mapped]

/-! ### Runs that load a DLL -/

/-- An address is mapped that was not, in no image of a registered module. -/
structure Leaked (s t : LoaderState) : Prop where
  placed : Placed t
  leak : ∃ x, ¬ s.Mapped x ∧ t.Mapped x ∧ ∀ i m, t.registered i = some m → x ∉ m.region

theorem leaked_of_loadDll (hkept : HeadersKept env) {t t' : LoaderState} (hplaced : Placed t)
    (hmapped : ∀ x, s.Mapped x → t.Mapped x) {path : CString}
    (hload : loadDll env path 0 t = (some i, t')) :
  Leaked s t'
  := by
  obtain ⟨l, t₁, img, ntCopy, hopened, -, hplaced', hgrows⟩ :=
    loadDll_some_grows hkept hplaced hload
  obtain ⟨-, -, -, hapart, hfree⟩ := hopened.pages_spec
  have hx : l.ntAlloc ∈ pages l.ntAlloc pageSize := by
    simp only [Region.mem_iff, pages]
    exact ⟨Nat.le_refl _, Nat.lt_add_of_pos_right (by decide)⟩
  use hplaced', l.ntAlloc
  and_intros
  · intro hs
    apply (hmapped _ hs).notMem hfree hx
  · apply hgrows.mapped
    rw [hopened.mapped_iff]
    exact Or.inl hx
  · intro j m hj hmem
    rcases eq_or_ne j l.mod with rfl | hne
    · rw [hgrows.registered hopened.self, some.injEq] at hj
      subst hj
      apply hapart.notMem hx
      rwa [← hopened.region_eq (hkept.call _)]
    · apply hopened.ntAlloc_notMem hplaced hgrows hj hne hmem hx

theorem Leaked.keep {t t' : LoaderState} (h : Leaked s t) (hplaced : Placed t')
    (hmapped : ∀ x, t.Mapped x → (∀ i m, t.registered i = some m → x ∉ m.region) → t'.Mapped x)
    (hregistered : ∀ i m', t'.registered i = some m' →
      (∃ m, t.registered i = some m ∧ m.region = m'.region) ∨ ∀ x ∈ m'.region, ¬ t.Mapped x) :
  Leaked s t'
  := by
  obtain ⟨x, hs, hx, hregion⟩ := h.leak
  use hplaced, x, hs, hmapped x hx hregion
  intro i m' hi hmem
  rcases hregistered i m' hi with ⟨m, hm, heq⟩ | hfresh
  · apply hregion i m hm
    rwa [heq]
  · exact hfresh x hmem hx

theorem Leaked.addLoadCount {t : LoaderState} (h : Leaked s t) (i : Slot) (n : ℤ) :
  Leaked s (addLoadCount i n t)
  := by
  apply h.keep (placed_addLoadCount n h.placed)
  · intro x hx _
    apply hx
  · intro j m hj
    exact Or.inl ⟨_, addLoadCount_registered hj, rfl⟩

theorem Leaked.step (hkept : HeadersKept env) (h : Leaked s t.loader) (call : LibraryCall) :
  Leaked s (t.step env call).loader
  := by
  cases call with
  | load name =>
    apply loadLibraryA_of_invariant (Leaked s) name h
    · intro i
      apply h.addLoadCount
    · intro path
      have hgrows : Grows none t.loader (loadDll env path 0 t.loader).2 :=
        (frameSpec hkept 0).grows h.placed
      apply h.keep ((frameSpec hkept 0).placed h.placed)
      · intro x hx _
        apply hgrows.mapped hx
      · intro i m' hi
        rcases hgrows.cases hi with hold | ⟨-, hfresh⟩
        · exact Or.inl ⟨m', hold, rfl⟩
        · exact Or.inr hfresh
  | free hModule =>
    apply freeLibraryA_of_invariant (Leaked s) hModule h
    · intro i
      apply h.addLoadCount
    · intro i m hi hlt _
      have hcount := h.addLoadCount i (-1)
      have hi' := registered_addLoadCount_of_some (i := i) (-1) hi
      obtain ⟨-, -, -, hmapped, -⟩ := unloadModule_spec hcount.placed.wellFormed hi' hlt
      apply hcount.keep (placed_unloadModule hcount.placed hi' hlt)
      · intro x hx hregion
        rw [hmapped]
        exact ⟨hx, hregion i _ hi'⟩
      · intro j m' hj
        exact Or.inl ⟨m', (registered_of_unloadModule hcount.placed.wellFormed hi' hlt hj).2, rfl⟩

theorem Leaked.run (hkept : HeadersKept env) (h : Leaked s t.loader) (calls : List LibraryCall) :
  Leaked s (calls.foldl (BalancedRun.step env) t).loader
  := by
  induction calls generalizing t with
  | nil => apply h
  | cons call calls ih => apply ih (h.step hkept call)

theorem Counted.leaked (hkept : HeadersKept env) (hplaced : Placed t.loader) (h : Counted s t)
    {call : LibraryCall} (hallowed : t.Allowed env call) (hreg : ¬ Registered s call) :
  Leaked s (t.step env call).loader
  := by
  cases call with
  | free hModule => cases hreg trivial
  | load name =>
    obtain ⟨⟨n, rfl, hbuiltin⟩, hne⟩ := hallowed
    have hmissing : findModuleByNameSafe t.loader.list n = none := by
      rw [h.findModuleByNameSafe_eq]
      by_contra hsome
      apply hreg
      rintro n' ⟨⟩
      apply isSome_iff_ne_none.mpr hsome
    rcases loadLibraryA_cases hne with ⟨i, hfind, -⟩ | ⟨-, ⟨m, hm, -⟩ | hload⟩
    · rw [hmissing] at hfind
      cases hfind
    · rw [hbuiltin] at hm
      cases hm
    · obtain ⟨-, path, i, t', -, hload, heq⟩ := hload
      rw [BalancedRun.step, heq]
      apply leaked_of_loadDll hkept hplaced _ hload
      intro x hx
      rwa [LoaderState.Mapped, h.used]

/-- A run in which every library was registered from the start is counted, and every other one
leaks. -/
theorem Counted.run (hkept : HeadersKept env) (htidy : Tidy b s) (hplaced : Placed t.loader)
    (h : Counted s t) {calls : List LibraryCall}
    (hallowed : Run.Along (BalancedRun.step env) (Allowed env) t calls) :
  (∀ call ∈ calls, Registered s call) ∧ Counted s (calls.foldl (BalancedRun.step env) t) ∨
    (∃ call ∈ calls, ¬ Registered s call) ∧
      Leaked s (calls.foldl (BalancedRun.step env) t).loader
  := by
  induction calls generalizing t with
  | nil => exact Or.inl ⟨by simp, h⟩
  | cons call calls ih =>
    obtain ⟨hcall, hcalls⟩ := hallowed
    by_cases hreg : Registered s call
    · have hcounted : Counted s (t.step env call) := by
        cases call with
        | load name => apply h.load htidy.placed hcall hreg
        | free hModule => apply h.free htidy hcall
      have hplaced' : Placed (t.step env call).loader := by
        rw [step_loader]
        apply placed_step hkept hplaced
      rw [foldl_cons]
      rcases ih hplaced' hcounted hcalls with
        ⟨hall, hend⟩ | ⟨⟨call', hmem, hnot⟩, hend⟩
      · exact Or.inl ⟨forall_mem_cons.mpr ⟨hreg, hall⟩, hend⟩
      · exact Or.inr ⟨⟨call', mem_cons_of_mem _ hmem, hnot⟩, hend⟩
    · right
      use ⟨call, mem_cons_self, hreg⟩
      apply (h.leaked hkept hplaced hcall hreg).run hkept

theorem Leaked.not_same {t : LoaderState} (h : Leaked s t) :
  ¬ SameLoader s t
  := by
  intro hsame
  obtain ⟨x, hs, ht, -⟩ := h.leak
  exact hs ((hsame.mapped x).mp ht)

end

end BalancedRun

open BalancedRun

/-- A run of successful calls in which each handle is freed as often as it was returned leaves the
mappings, the registry and the lists as they were exactly when every library that it loads was
registered from the start. -/
theorem balanced_same_iff {b : Build} {env : Env b} (hkept : HeadersKept env) {s : LoaderState}
    (htidy : Tidy b s) {calls : List LibraryCall}
    (hallowed : Run.Along (BalancedRun.step env) (Allowed env) (init s) calls)
    (hbalanced : ∀ a, (calls.foldl (BalancedRun.step env) (init s)).outstanding a = 0) :
  SameLoader s (calls.foldl (BalancedRun.step env) (init s)).loader ↔
    ∀ call ∈ calls, BalancedRun.Registered s call
  := by
  rcases (counted_init s).run hkept htidy htidy.placed hallowed with
    ⟨hall, hcounted⟩ | ⟨⟨call, hmem, hnot⟩, hleaked⟩
  · exact iff_of_true (hcounted.same hbalanced) hall
  · apply iff_of_false hleaked.not_same
    intro hall
    exact hnot (hall call hmem)

theorem tidy_libraryStart :
  Tidy .i386 libraryStart
  where
  placed := placed_registerMain (by decide) mainBound_libraryStart.mapped true
  usable := by
    intro i m hi
    rw [(eq_main_of_registerMain hi).2.2]
    exact ⟨by decide, by decide, by decide⟩
  loaded := by
    intro i m hi
    obtain rfl := (eq_main_of_registerMain hi).1
    have hcount : (libraryStart.registered 0).map (·.loadCount) = some 1 := by decide +kernel
    rw [hi, map_some, some.injEq] at hcount
    omega

def loadAndFree (name : CString) (handle : Ptr) : List LibraryCall :=
  [.load (some name), .free handle]

theorem loadAndFree_allowed {b : Build} {env : Env b} {s : LoaderState} {name : CString}
    {handle : Ptr} (hbuiltin : findBuiltinModuleByName name = none) (hne : handle ≠ 0)
    (hload : (loadLibraryA env (some name) s).1 = handle) :
  Run.Along (BalancedRun.step env) (Allowed env) (init s) (loadAndFree name handle) ∧
    ∀ a, ((loadAndFree name handle).foldl (BalancedRun.step env) (init s)).outstanding a = 0
  := by
  constructor
  · refine ⟨⟨⟨name, rfl, hbuiltin⟩, ?_⟩, ?_, trivial⟩
    · rwa [init, hload]
    · simp only [Allowed, BalancedRun.step, init, hload, update_self]
      omega
  · intro a
    simp only [loadAndFree, foldl_cons, foldl_nil, BalancedRun.step, init, hload,
      update_idem, update_self]
    rcases eq_or_ne a handle with rfl | hne
    · rw [update_self]
    · rw [update_of_ne hne]

/-- The main module is loaded by its name and freed. -/
theorem balanced_main_same :
  SameLoader libraryStart ((loadAndFree (.ofString "MAIN.EXE") 0x00400000).foldl
    (BalancedRun.step libraryEnv) (init libraryStart)).loader
  := by
  obtain ⟨hallowed, hbalanced⟩ := @loadAndFree_allowed _ libraryEnv libraryStart
    (.ofString "MAIN.EXE") 0x00400000 (by decide +kernel) (by decide) (by decide +kernel)
  apply (balanced_same_iff headersKept_libraryEnv tidy_libraryStart hallowed hbalanced).mpr
  rw [loadAndFree, forall_mem_cons, forall_mem_singleton]
  refine ⟨?_, trivial⟩
  rintro n ⟨⟩
  decide +kernel

/-- `"b.dll"` is loaded and freed, and the page of its headers stays mapped. -/
theorem balanced_dll_leaks :
  HeadersKept libraryEnv ∧ Tidy .i386 libraryStart ∧
    Run.Along (BalancedRun.step libraryEnv) (Allowed libraryEnv) (init libraryStart)
      (loadAndFree (.ofString "b.dll") 0x60000000) ∧
    (∀ a, ((loadAndFree (.ofString "b.dll") 0x60000000).foldl (BalancedRun.step libraryEnv)
      (init libraryStart)).outstanding a = 0) ∧
    ¬ SameLoader libraryStart ((loadAndFree (.ofString "b.dll") 0x60000000).foldl
      (BalancedRun.step libraryEnv) (init libraryStart)).loader
  := by
  obtain ⟨hallowed, hbalanced⟩ := @loadAndFree_allowed _ libraryEnv libraryStart
    (.ofString "b.dll") 0x60000000 (by decide +kernel) (by decide) (by decide +kernel)
  refine ⟨headersKept_libraryEnv, tidy_libraryStart, hallowed, hbalanced, ?_⟩
  intro hsame
  have hpage := hsame.mapped 0x70000000
  rw [LoaderState.Mapped, LoaderState.Mapped] at hpage
  revert hpage
  decide +kernel

end Kernel32
