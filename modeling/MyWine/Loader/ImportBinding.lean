import MyWine.Loader.ImportChain
import MyWine.Loader.ImportLinks

/-!
# The binding of imports

A DLL is registered before its imports are resolved, and its exports are parsed after that.  So a DLL
that is loaded for its imports and imports from it in turn finds it registered, but finds none of its
exports (`cyclic_import_unbound`).

When the imports of the DLLs that a load reaches have no cycles, which a rank of the names shows that
decreases along these imports (`Graded`), then the exports of every DLL have been parsed before
another one is bound to it, and after the load every import by name from a registered module that
exports the name is bound, in the DLL that was loaded and in all that were loaded for it
(`imports_bound`).
-/

open Pe SyscallSafe

namespace Loader

open Function Option

def moduleName (path : CString) : CString := copyStr (dllBaseName path) moduleNameSize

def importedName (nt : ImageNtHeaders) (img : Bytes) (k n : ℕ) : CString :=
  imageCstr nt img (thunkAt nt img k n + 2)

def Settled (s : LoaderState) (j : Slot) : Prop :=
  ∀ name a, Exports (s.module j) (s.image (s.module j).base) name a →
    0 < (s.module j).exportCache.numberOfNames ∧
      lookupExport (s.module j) (s.image (s.module j).base) name = some a

/-- The imports by name of the image `img`, which was mapped at `base`, are bound: if there is no
stub for an import and the module with the name of its DLL exports it, then its IAT slot holds the
address of the export. -/
def SlotsBound {b : Build} (env : Env b) (s : LoaderState) (nt : ImageNtHeaders) (img : Bytes)
    (base : Ptr) : Prop :=
  ∀ k n, ImportAt nt img k n → thunkAt nt img k n < highBitMask nt →
    stubAddress b env.importTable (importDll nt img k) (importedName nt img k n) = none →
    ∀ d a, findModuleByName s.list (importDll nt img k) = some d →
      Exports (s.module d) (s.image (s.module d).base) (importedName nt img k n) a →
      (s.image base).readLE (slotAt nt img k n).start (thunkSize nt) = a % 256 ^ thunkSize nt

/-- A load that begins in the state `start`, the paths of the DLLs that it may reach, and a rank of
names. -/
structure Scope where
  start : LoaderState
  reached : Set CString
  rank : CString → ℕ

/-- `P` holds of every image that is made of a file in `reached`. -/
def ForImages {b : Build} (env : Env b) (reached : Set CString) (P : CString → Bytes → Prop) : Prop :=
  ∀ ⦃used path base g img nt⦄, path ∈ reached →
    (mapImageAt env.kernel used path (env.file path) base g).1 = some (img, nt) → P path img.byte

/-- The names that the images in reach import have a smaller rank than the name of the DLL.  If they
have to be loaded, they lead to files that are in reach and are registered with these names. -/
structure Graded {b : Build} (env : Env b) (sc : Scope) : Prop where
  congr : ∀ {name name'}, strcasecmp name name' = 0 → sc.rank name = sc.rank name'
  lower : ForImages env sc.reached fun path img => ∀ {k}, DescriptorAt (imageNtHeaders img) img k →
    sc.rank (importDll (imageNtHeaders img) img k) < sc.rank (moduleName path)
  next : ForImages env sc.reached fun _ img => ∀ {k path'},
    DescriptorAt (imageNtHeaders img) img k →
      isMissing sc.start (importDll (imageNtHeaders img) img k) = true →
      env.findDllPath (importDll (imageNtHeaders img) img k) = some path' →
        path' ∈ sc.reached ∧
          strcasecmp (moduleName path') (importDll (imageNtHeaders img) img k) = 0

def ExportsWellFormed {b : Build} (env : Env b) (reached : Set CString) : Prop :=
  ForImages env reached fun _ img => ∀ m, SameOutsideSlots (imageNtHeaders img) img m →
    ExportsOk (imageNtHeaders img) m

/-- No module with the name of a library of stubs is hidden behind the count. -/
def StubsCounted (s : LoaderState) : Prop :=
  ∀ ⦃j m⦄, s.registered j = some m → isBuiltinStubLibrary m.name = true →
    j.val < s.list.moduleCount

/-- The images of the registered modules are mapped, what was there when the load began is still
there, and the exports of the modules with a rank below `r` have been parsed. -/
structure Ready (sc : Scope) (r : ℕ) (s : LoaderState) : Prop where
  wellFormed : WellFormed s
  basesMapped : BasesMapped s
  counted : StubsCounted s
  known : ∀ {name}, isMissing sc.start name = false → isMissing s name = false
  settled : ∀ {j m}, s.registered j = some m → sc.rank m.name < r → Settled s j

def ReadyFor (sc : Scope) (path : CString) (s : LoaderState) : Prop :=
  path ∈ sc.reached ∧ Ready sc (sc.rank (moduleName path)) s

def Steady (s s' : LoaderState) : Prop :=
  ∀ ⦃name⦄, isMissing s name = false →
    findModuleByName s'.list name = findModuleByName s.list name

/-- The module in the slot `j` was opened between the states `s` and `s'`, the DLLs that it imports
are there, and its imports are bound. -/
def Finished {b : Build} (env : Env b) (sc : Scope) (s s' : LoaderState) (j : Slot) : Prop :=
  ∃ path s₀ l s₁ img ntCopy, path ∈ sc.reached ∧ Opened env path s₀ l s₁ img ntCopy ∧
    Extends s s₀ ∧ Extends s₁ s' ∧ l.mod = j ∧ (∀ k, DescriptorAt l.nt img.byte k →
      isMissing s' (importDll l.nt img.byte k) = false) ∧
    SlotsBound env s' l.nt img.byte l.base

/-! ### Exports that have been parsed -/

section

variable {m : LoadedModule} {img : Bytes} {nt : ImageNtHeaders}

theorem lookupExport_congr_module {m' : LoadedModule} (hnt : m'.nt = m.nt) (hbase : m'.base = m.base)
    (hcache : m'.exportCache = m.exportCache) (name : CString) :
  lookupExport m' img name = lookupExport m img name
  := by
  simp only [lookupExport, cachedFunction, hnt, hbase, hcache]

theorem exports_congr {m' : LoadedModule} (hnt : m'.nt = m.nt) (hbase : m'.base = m.base)
    {name : CString} {a : Ptr} :
  Exports m' img name a ↔ Exports m img name a
  := by
  simp only [Exports, hnt, hbase]

theorem Parsed.lookupExport (h : Parsed m img) (hnt : m.nt = some nt) (hbase : m.base ≠ 0)
    (hok : ExportsOk nt img) {name : CString} {a : Ptr} (hexports : Exports m img name a) :
  0 < m.exportCache.numberOfNames ∧ Loader.lookupExport m img name = some a
  := by
  obtain ⟨m₀, hnt₀, hbase₀, hcache⟩ := h
  rw [← exports_congr hnt₀ hbase₀] at hexports
  rw [← hnt₀] at hnt
  rw [← hbase₀] at hbase
  have hlookup := lookupExport_of_exports hnt hbase hok hexports
  obtain ⟨nt', dir, t, hnt', hdir, hva, ht, -⟩ := hexports
  obtain rfl : nt' = nt := Option.some.inj (hnt'.symm.trans hnt)
  have hparse := parseExportTable_of_ok hnt hbase hdir hva (hok dir hdir hva)
  rw [hparse] at hcache hlookup
  constructor
  · rw [hcache]
    simp only [withExports, fillExportCache, maxExportNames]
    omega
  · rw [← hlookup]
    exact @lookupExport_congr_module (withExports m₀ img dir) img m hnt₀.symm hbase₀.symm hcache name

end

section

variable {b : Build} {env : Env b} {load : CString → LoaderState → Option Slot × LoaderState}
  {path : CString} {l : Loading} {s s₁ s₂ s₃ s' : LoaderState} {img : Image}
  {ntCopy : ImageNtHeaders}

theorem Parsed.attachDll (h : attachDll env l s₃ = (some l.mod, s')) {base : Ptr}
    (hparsed : Parsed ((ensureExports l s₃).module l.mod) ((ensureExports l s₃).image base)) :
  Parsed (s'.module l.mod) (s'.image base)
  := by
  simp only [Loader.attachDll] at h
  split_ifs at h
  · cases h
    simpa [Parsed, LoaderState.module, LoaderState.setModule] using hparsed
  · cases h
  · cases h
    exact hparsed

theorem Loaded.module_spec (h : Loaded env load path s l s₁ s₂ s₃ img ntCopy s') :
  (s'.module l.mod).base = l.base ∧ (s'.module l.mod).nt = some l.nt ∧
    (s₃.module l.mod).base = l.base
  := by
  have hself := h.rest.registered (h.keeps.registered h.opened.self)
  obtain ⟨-, hbase, -, hnt, -⟩ := LoaderState.registered_eq_some_iff.mp hself
  rw [h.quietAt.registered] at hself
  obtain ⟨-, hbase₃, -⟩ := LoaderState.registered_eq_some_iff.mp hself
  exact ⟨hbase, hnt, hbase₃⟩

theorem Loaded.settled (h : Loaded env load path s l s₁ s₂ s₃ img ntCopy s')
    (hok : ExportsOk l.nt (s'.image l.base)) :
  Settled s' l.mod
  := by
  obtain ⟨hbase, hnt, hbase₃⟩ := h.module_spec
  have hne : (s'.module l.mod).base ≠ 0 := by
    rw [hbase]
    exact h.opened.pages_spec.1.start_ne_zero
  intro name a hexports
  rw [hbase] at hexports ⊢
  have hparsed : Parsed (s'.module l.mod) (s'.image l.base) := by
    apply Parsed.attachDll h.attach
    rw [ensureExports]
    split_ifs with hcond
    · apply parsed_parseExports hbase₃
    · rcases h.cache with hparsed | hzero
      · apply hparsed
      · -- The cache is empty, so that there is no export directory.
        obtain ⟨nt, dir, t, hnt'', hdir, hva, -⟩ := hexports
        rw [hnt, some.injEq] at hnt''
        subst hnt''
        cases hcond ⟨by rw [hzero]; rfl, by rw [hdir]; simpa using hva⟩
  apply hparsed.lookupExport hnt hne hok hexports

end

/-! ### Names that stay where they are -/

section

variable {b : Build} {env : Env b} {s s' s'' s₁ : LoaderState} {path : CString} {l : Loading}
  {img : Image} {ntCopy : ImageNtHeaders}

variable {name : CString}

def FoundAt (s : LoaderState) (name : CString) (i : Slot) : Prop :=
  i.val < s.list.moduleCount ∧ ∃ m, s.registered i = some m ∧ strcasecmp m.name name = 0

theorem found_iff {i : Slot} :
  (i.val < s.list.moduleCount ∧ (s.list.modules i).base ≠ 0 ∧
      strcasecmp (s.list.modules i).name name = 0) ↔ FoundAt s name i
  := by
  apply and_congr_right
  intro _
  constructor
  · rintro ⟨hbase, hname⟩
    exact ⟨_, registered_of_base_ne hbase, hname⟩
  · rintro ⟨m, hm, hname⟩
    obtain ⟨hbase, -, hname', -⟩ := LoaderState.registered_eq_some_iff.mp hm
    rw [← hname'] at hname
    exact ⟨hbase, hname⟩

theorem findModuleByName_eq (h : ∀ i, FoundAt s' name i ↔ FoundAt s name i) :
  findModuleByName s'.list name = findModuleByName s.list name
  := by
  rw [findModuleByName, findModuleByName]
  congr 1
  funext i
  rw [decide_eq_decide, found_iff, found_iff, h]

theorem findModuleByName_eq_some_iff {i : Slot} :
  findModuleByName s.list name = some i ↔ FoundAt s name i ∧ ∀ j < i, ¬ FoundAt s name j
  := by
  rw [findModuleByName, Table.firstSlot_eq_some_iff]
  simp only [decide_eq_true_eq, decide_eq_false_iff_not, found_iff]

theorem Quiet.findModuleByName (h : Quiet s s') (name : CString) :
  findModuleByName s'.list name = Loader.findModuleByName s.list name
  := by
  apply findModuleByName_eq
  intro i
  rw [FoundAt, h.registered, h.count, FoundAt]

theorem Steady.refl (s : LoaderState) :
  Steady s s
  := fun _ _ => rfl

theorem Steady.not_missing (h : Steady s s') (hname : isMissing s name = false) :
  isMissing s' name = false
  := by
  rw [isMissing, h hname]
  exact hname

theorem Steady.trans (h : Steady s s') (h' : Steady s' s'') :
  Steady s s''
  := fun _ hname => (h' (h.not_missing hname)).trans (h hname)

theorem Quiet.steady (h : Quiet s s') :
  Steady s s'
  := fun name _ => h.findModuleByName name

theorem Opened.counted (h : Opened env path s l s₁ img ntCopy) (hwf : WellFormed s)
    (hcounted : StubsCounted s) :
  StubsCounted s₁
  := by
  intro j m hj hstub
  rcases eq_or_ne j l.mod with rfl | hne
  · apply h.mod_lt (SameLoader.refl s₁).extends (h.wellFormed hwf)
  · rw [h.registered_eq, update_of_ne hne] at hj
    rw [h.count]
    exact Nat.lt_succ_of_lt (hcounted hj hstub)

/-- The name of a module that is there does not lead to the new one. -/
theorem Opened.foundAt (h : Opened env path s l s₁ img ntCopy)
    (hmissing : isMissing s (moduleName path) = true) (hname : isMissing s name = false) {i : Slot} :
  FoundAt s₁ name i ↔
    i.val < s.list.moduleCount + 1 ∧ ∃ m, s.registered i = some m ∧ strcasecmp m.name name = 0
  := by
  rw [FoundAt, h.count]
  apply and_congr_right
  intro _
  rcases eq_or_ne i l.mod with rfl | hne
  · rw [h.registered_mod, h.self]
    constructor
    · rintro ⟨m, hm, hcase⟩
      rw [some.injEq] at hm
      subst hm
      rw [← isMissing_congr hcase s] at hname
      rw [show isMissing s (copyStr (dllBaseName path) moduleNameSize) = true from hmissing] at hname
      cases hname
    · rintro ⟨m, hm, -⟩
      cases hm
  · rw [h.registered_eq, update_of_ne hne]

theorem Opened.steady (h : Opened env path s l s₁ img ntCopy)
    (hcounted : StubsCounted s) (hmissing : isMissing s (moduleName path) = true) :
  Steady s s₁
  := by
  intro name hname
  have hfound := fun i => h.foundAt (i := i) hmissing hname
  cases hfind : findModuleByName s.list name with
  | some i =>
    -- A module that the greater count uncovers comes after the one that was found.
    rw [findModuleByName_eq_some_iff] at hfind ⊢
    obtain ⟨⟨hlt, hi⟩, hfirst⟩ := hfind
    refine ⟨(hfound i).mpr ⟨Nat.lt_succ_of_lt hlt, hi⟩, ?_⟩
    intro j hj hat
    exact hfirst j hj ⟨lt_trans hj hlt, ((hfound j).mp hat).2⟩
  | none =>
    -- It is the name of a library of stubs, and no module with it is uncovered.
    rw [← hfind]
    have hstub : isBuiltinStubLibrary name = true := by
      simpa [isMissing, hfind] using hname
    apply findModuleByName_eq
    intro i
    rw [hfound]
    constructor
    · rintro ⟨-, m, hm, hcase⟩
      exact ⟨hcounted hm (by rwa [isBuiltinStubLibrary_congr hcase]), m, hm, hcase⟩
    · rintro ⟨hlt, hrest⟩
      exact ⟨Nat.lt_succ_of_lt hlt, hrest⟩

end

/-! ### What later loads keep -/

section

variable {b : Build} {env : Env b} {sc : Scope} {s s' s'' : LoaderState} {j : Slot}

theorem Settled.keep (h : Settled s j) (hmodule : s'.module j = s.module j)
    (himage : s'.image (s.module j).base = s.image (s.module j).base) :
  Settled s' j
  := by
  intro name a hexports
  rw [hmodule, himage] at hexports ⊢
  apply h name a hexports

theorem SlotsBound.keep {nt : ImageNtHeaders} {img : Bytes} {base : Ptr}
    (h : SlotsBound env s nt img base) (himage : s'.image base = s.image base)
    (hlookup : ∀ k, DescriptorAt nt img k →
      findModuleByName s'.list (importDll nt img k) = findModuleByName s.list (importDll nt img k))
    (hmodules : ∀ k d, DescriptorAt nt img k →
      findModuleByName s.list (importDll nt img k) = some d →
        s'.module d = s.module d ∧ s'.image (s.module d).base = s.image (s.module d).base) :
  SlotsBound env s' nt img base
  := by
  intro k n hat hthunk hstub d a hfind hexports
  rw [hlookup k hat.1] at hfind
  obtain ⟨hmodule, himage'⟩ := hmodules k d hat.1 hfind
  rw [hmodule, himage'] at hexports
  rw [himage]
  apply h k n hat hthunk hstub d a hfind hexports

theorem registered_of_findModuleByName {name : CString}
    (h : findModuleByName s.list name = some j) :
  ∃ m, s.registered j = some m ∧ m.base = (s.module j).base ∧ strcasecmp m.name name = 0
  := by
  obtain ⟨-, hbase, hname⟩ := findModuleByName_spec h
  exact ⟨_, registered_of_base_ne hbase, rfl, hname⟩

variable {m : ModuleInfo}

/-- What changes only modules of the rank `r` or a greater one keeps a DLL of a smaller rank finished,
when the names stay where they are. -/
theorem Finished.keep (hgraded : Graded env sc) (h : Finished env sc s s' j) (hext : Extends s' s'')
    (hsteady : Steady s' s'') (hj : s'.registered j = some m) {r : ℕ} (hrank : sc.rank m.name < r)
    (hkeep : ∀ {i m}, s'.registered i = some m → sc.rank m.name < r →
      s''.module i = s'.module i ∧ s''.image m.base = s'.image m.base) :
  Finished env sc s s'' j
  := by
  obtain ⟨path, s₀, l, s₁, img, ntCopy, hpath, hopened, hext₀, hext₁, rfl, hpresent, hbound⟩ := h
  have hself := hext₁.registered hopened.self
  have hname : sc.rank (moduleName path) < r := by
    rw [hself, some.injEq] at hj
    rw [← hj] at hrank
    exact hrank
  refine ⟨path, s₀, l, s₁, img, ntCopy, hpath, hopened, hext₀, hext₁.trans hext, rfl, ?_, ?_⟩
  · intro k hk
    apply hsteady.not_missing (hpresent k hk)
  · apply hbound.keep
    · apply (hkeep hself hname).2
    · intro k hk
      apply hsteady (hpresent k hk)
    · intro k d hk hfind
      obtain ⟨m', hm', hbase, hdll⟩ := registered_of_findModuleByName hfind
      rw [← hbase]
      apply hkeep hm'
      have hlower := hgraded.lower hpath hopened.mapped (k := k) (by rwa [← hopened.nt])
      rw [← hopened.nt, ← hgraded.congr hdll] at hlower
      omega

theorem Keeps.module_image (h : Keeps none s s') (hs : BasesMapped s)
    (hj : s.registered j = some m) :
  s'.module j = s.module j ∧ s'.image m.base = s.image m.base
  := ⟨h.module hj (by simp), (h.image (hs hj) (by simp)).1⟩

theorem Finished.weaken (h : Finished env sc s' s'' j) (hext : Extends s s') :
  Finished env sc s s'' j
  := by
  obtain ⟨path, s₀, l, s₁, img, ntCopy, hpath, hopened, hext₀, hrest⟩ := h
  exact ⟨path, s₀, l, s₁, img, ntCopy, hpath, hopened, hext.trans hext₀, hrest⟩

theorem Settled.keep_registered (h : Settled s j) (hj : s.registered j = some m)
    (hkeep : s'.module j = s.module j ∧ s'.image m.base = s.image m.base) :
  Settled s' j
  := by
  obtain ⟨-, hbase, -⟩ := LoaderState.registered_eq_some_iff.mp hj
  apply h.keep hkeep.1
  rw [hbase]
  exact hkeep.2

end

/-! ### The first pass -/

/-- What successful loads do when the imports have no cycles: the new modules have no greater rank
than the DLL, their exports have been parsed and they are finished. -/
structure BindSpec {b : Build} (env : Env b) (sc : Scope)
    (load : CString → LoaderState → Option Slot × LoaderState) : Prop where
  keeps : SuccessKeeps load
  counted : ∀ {path s i s'}, ReadyFor sc path s → load path s = (some i, s') → StubsCounted s'
  found : ∀ {path s i s'}, ReadyFor sc path s → load path s = (some i, s') →
    isMissing s' (moduleName path) = false
  steady : ∀ {path s i s'}, ReadyFor sc path s → load path s = (some i, s') →
    isMissing s (moduleName path) = true → Steady s s'
  new : ∀ {path s i s'}, ReadyFor sc path s → load path s = (some i, s') →
    ∀ {j m}, s.registered j = none → s'.registered j = some m →
      sc.rank m.name ≤ sc.rank (moduleName path) ∧ Settled s' j ∧ Finished env sc s s' j

/-- The state `t` of the first pass for a DLL of the rank `r` that was opened in the state `s₁`, when
`k` descriptors have been seen to. -/
structure PassInv {b : Build} (env : Env b) (sc : Scope) (r : ℕ) (nt : ImageNtHeaders)
    (img : Bytes) (s₁ : LoaderState) (k : ℕ) (t : LoaderState) : Prop where
  keeps : Keeps none s₁ t
  ready : Ready sc r t
  steady : Steady s₁ t
  new : ∀ {j m}, s₁.registered j = none → t.registered j = some m →
    sc.rank m.name < r ∧ Settled t j ∧ Finished env sc s₁ t j
  present : ∀ i < k, DescriptorAt nt img i ∧ isMissing t (importDll nt img i) = false

section

variable {b : Build} {env : Env b} {sc : Scope}
  {load : CString → LoaderState → Option Slot × LoaderState} {path : CString} {l : Loading}
  {s s₁ t t' : LoaderState} {img : Image} {ntCopy : ImageNtHeaders} {r k : ℕ}

theorem Ready.mono {r' : ℕ} (h : Ready sc r s) (hle : r' ≤ r) :
  Ready sc r' s
  where
  wellFormed := h.wellFormed
  basesMapped := h.basesMapped
  counted := h.counted
  known := h.known
  settled hj hlt := h.settled hj (by omega)

theorem PassInv.image {bytes : Bytes} (h : PassInv env sc r l.nt bytes s₁ k t)
    (hopened : Opened env path s l s₁ img ntCopy) :
  t.image l.base = img.byte
  := by
  rw [(h.keeps.image hopened.base_mapped (by simp)).1, hopened.image, update_self]

section

variable (hgraded : Graded env sc) (hspec : BindSpec env sc load)
include hgraded hspec

theorem PassInv.of_load {nt : ImageNtHeaders} {bytes : Bytes}
    (h : PassInv env sc r nt bytes s₁ k t) {i : Slot} (hload : load path t = (some i, t'))
    (hpath : path ∈ sc.reached) (hlt : sc.rank (moduleName path) < r)
    (hmissing : isMissing t (moduleName path) = true) :
  PassInv env sc r nt bytes s₁ k t'
  := by
  have hready : ReadyFor sc path t := ⟨hpath, h.ready.mono (Nat.le_of_lt hlt)⟩
  have hkeeps := hspec.keeps hload
  have hsteady := hspec.steady hready hload hmissing
  have hold := fun {j m} (hj : t.registered j = some m) =>
    hkeeps.module_image h.ready.basesMapped hj
  constructor
  · apply h.keeps.trans hkeeps
  · constructor
    · apply hkeeps.wellFormed h.ready.wellFormed
    · apply hkeeps.basesMapped h.ready.basesMapped
    · apply hspec.counted hready hload
    · intro name hname
      apply hsteady.not_missing (h.ready.known hname)
    · intro j m hj hrank
      cases hjt : t.registered j with
      | none => exact (hspec.new hready hload hjt hj).2.1
      | some m' =>
        rw [hkeeps.registered hjt, some.injEq] at hj
        subst hj
        apply (h.ready.settled hjt hrank).keep_registered hjt (hold hjt)
  · apply h.steady.trans hsteady
  · intro j m hnone hj
    cases hjt : t.registered j with
    | none =>
      obtain ⟨hrank, hsettled, hfinished⟩ := hspec.new hready hload hjt hj
      exact ⟨by omega, hsettled, hfinished.weaken h.keeps.toExtends⟩
    | some m' =>
      rw [hkeeps.registered hjt, some.injEq] at hj
      subst hj
      obtain ⟨hrank, hsettled, hfinished⟩ := h.new hnone hjt
      use hrank, hsettled.keep_registered hjt (hold hjt)
      apply hfinished.keep hgraded hkeeps.toExtends hsteady hjt hrank
      intro i m hi _
      apply hold hi
  · intro i hi
    obtain ⟨hat, hpresent⟩ := h.present i hi
    exact ⟨hat, hsteady.not_missing hpresent⟩

theorem PassInv.round (hpath : path ∈ sc.reached) (hopened : Opened env path s l s₁ img ntCopy)
    (h : PassInv env sc (sc.rank (moduleName path)) l.nt img.byte s₁ k t) {p' : ℕ × LoaderState}
    (hround : dependencyRound env load l (importDir l.nt) (sizeofImportDescriptor * k, t) =
      .inl p') :
  p'.1 = sizeofImportDescriptor * (k + 1) ∧
    PassInv env sc (sc.rank (moduleName path)) l.nt img.byte s₁ (k + 1) p'.2
  := by
  have himage := h.image hopened
  obtain ⟨hle, hname, t', hdep, rfl⟩ := dependencyRound_inl env load hround
  simp only [himage] at hname hdep
  have hk : DescriptorAt l.nt img.byte k :=
    descriptorAt_of_before (fun i hi => (h.present i hi).1) hle hname
  use rfl
  let inv := PassInv env sc (sc.rank (moduleName path)) l.nt img.byte s₁
  have hpresent : ∀ {t'}, inv k t' → isMissing t' (importDll l.nt img.byte k) = false →
      inv (k + 1) t' := by
    intro t' hinv hdll
    refine ⟨hinv.keeps, hinv.ready, hinv.steady, hinv.new, ?_⟩
    intro i hi
    rcases Nat.lt_or_eq_of_le (Nat.lt_succ_iff.mp hi) with hlt | rfl
    · apply hinv.present i hlt
    · exact ⟨hk, hdll⟩
  rcases loadDependency_some hdep with ⟨hmissing, rfl⟩ | ⟨hmissing, path', i, hpath', hload⟩
  · apply hpresent h hmissing
  · have hstart : isMissing sc.start (importDll l.nt img.byte k) = true := by
      by_contra hfound
      rw [h.ready.known (Bool.not_eq_true _ ▸ hfound)] at hmissing
      cases hmissing
    rw [hopened.nt] at hk hpath' hstart
    obtain ⟨hreached, hcase⟩ := hgraded.next hpath hopened.mapped hk hstart hpath'
    have hlower := hgraded.lower hpath hopened.mapped hk
    rw [← hgraded.congr hcase] at hlower
    have hmissing' : isMissing t (moduleName path') = true := by
      rw [isMissing_congr hcase, ← hopened.nt]
      exact hmissing
    apply hpresent (h.of_load hgraded hspec hload hreached hlower hmissing')
    rw [hopened.nt, ← isMissing_congr hcase]
    apply hspec.found ⟨hreached, h.ready.mono (Nat.le_of_lt hlower)⟩ hload

theorem PassInv.run (hpath : path ∈ sc.reached) (hopened : Opened env path s l s₁ img ntCopy)
    (h : PassInv env sc (sc.rank (moduleName path)) l.nt img.byte s₁ 0 s₁)
    (hrun : (dependencyLoop env load l (importDir l.nt)).run (0, s₁) = (true, t)) :
  ∃ k, PassInv env sc (sc.rank (moduleName path)) l.nt img.byte s₁ k t ∧
    ∀ i, DescriptorAt l.nt img.byte i → i < k
  := by
  let inv := PassInv env sc (sc.rank (moduleName path)) l.nt img.byte s₁
  let post : Bool × LoaderState → Prop := fun r =>
    r.1 = true → ∃ k, inv k r.2 ∧ ∀ i, DescriptorAt l.nt img.byte i → i < k
  have hpost : post ((dependencyLoop env load l (importDir l.nt)).run (0, s₁)) := by
    apply While.run_of_invariant
      (fun p => ∃ k, p.1 = sizeofImportDescriptor * k ∧ inv k p.2) post
    · rintro ⟨off, t⟩ p' ⟨k, rfl, hinv⟩ hround
      exact ⟨k + 1, hinv.round hgraded hspec hpath hopened hround⟩
    · rintro ⟨off, t⟩ ⟨ok, t'⟩ ⟨k, rfl, hinv⟩ hround hok
      have himage : t.image l.base = img.byte := hinv.image hopened
      rcases dependencyRound_inr env load hround with ⟨rfl, hend⟩ | ⟨hfalse, -⟩
      · obtain ⟨-, hname⟩ := hend hok
        simp only [himage] at hname
        refine ⟨k, hinv, ?_⟩
        intro i hi
        by_contra hge
        apply (hi k (by omega)).2 hname
      · rw [show ok = true from hok] at hfalse
        cases hfalse
    · exact ⟨0, rfl, h⟩
  rw [hrun] at hpost
  apply hpost rfl

end

end

/-! ### A load -/

section

variable {b : Build} {env : Env b} {sc : Scope}
  {load : CString → LoaderState → Option Slot × LoaderState} {path : CString} {l : Loading}
  {s s₁ s₂ s₃ s' : LoaderState} {img : Image} {ntCopy : ImageNtHeaders} {j : Slot} {m : ModuleInfo}

section

variable (h : Loaded env load path s l s₁ s₂ s₃ img ntCopy s') (hs : BasesMapped s)
  (hj : s₂.registered j = some m) (hne : j ≠ l.mod)
include h hs hj hne

theorem Loaded.base_ne :
  m.base ≠ l.base
  := by
  intro heq
  obtain ⟨-, hbase, -⟩ := LoaderState.registered_eq_some_iff.mp hj
  exact hne (h.opened.eq_mod_of_base hs h.keeps (hbase.trans heq))

theorem Loaded.module_image :
  s'.module j = s₂.module j ∧ s'.image m.base = s₂.image m.base
  := by
  have hmapped : BasesMapped s₂ := h.keeps.basesMapped (h.opened.keeps.basesMapped hs)
  constructor
  · apply h.rest.module hj
    rintro _ ⟨⟩
    exact hne
  · apply (h.rest.image (hmapped hj) _).1
    rintro _ ⟨⟩
    apply h.base_ne hs hj hne

end

theorem Loaded.ne_mod (h : Loaded env load path s l s₁ s₂ s₃ img ntCopy s')
    (hj : s₂.registered j = some m) (hrank : sc.rank m.name ≠ sc.rank (moduleName path)) :
  j ≠ l.mod
  := by
  rintro rfl
  rw [h.keeps.registered h.opened.self, some.injEq] at hj
  subst hj
  exact hrank rfl

theorem Loaded.slotsBound (hgraded : Graded env sc)
    (h : Loaded env load path s l s₁ s₂ s₃ img ntCopy s') (hs : BasesMapped s)
    (hready : ReadyFor sc path s₂) :
  SlotsBound env s' l.nt img.byte l.base
  := by
  intro k n hat hthunk hstub d a hfind hexports
  rw [h.quiet.findModuleByName] at hfind
  obtain ⟨m, hm, hbase, hdll⟩ := registered_of_findModuleByName hfind
  have hlower := hgraded.lower hready.1 h.opened.mapped (k := k)
    (by rw [← h.opened.nt]; exact hat.1)
  rw [← h.opened.nt, ← hgraded.congr hdll] at hlower
  have hne := h.ne_mod hm (ne_of_lt hlower)
  obtain ⟨hmodule, himage⟩ := h.module_image hs hm hne
  rw [hmodule, ← hbase, himage, hbase] at hexports
  obtain ⟨hpos, hlookup⟩ := hready.2.settled hm hlower _ _ hexports
  have htarget : importTarget l.nt img.byte env.ordinalTable
      (loaderResolver b env.importTable s₂.list s₂.image l.base) k n = some a := by
    have hbase_ne : (s₂.module d).base ≠ l.base := by
      rw [← hbase]
      apply h.base_ne hs hm hne
    rw [importTarget, importName, if_neg (by omega), bind_some, loaderResolver,
      resolveLoaderImport]
    rw [importedName] at hstub hlookup
    rw [LoaderState.module] at hpos hlookup hbase_ne
    simp only [hstub, moduleExport, hfind, if_pos hpos, update_of_ne hbase_ne, hlookup]
  have hslot := h.effect.slot hat
  rw [htarget] at hslot
  apply hslot

theorem Opened.ready (h : Opened env path s l s₁ img ntCopy)
    (hready : Ready sc (sc.rank (moduleName path)) s) :
  Ready sc (sc.rank (moduleName path)) s₁
  where
  wellFormed := h.wellFormed hready.wellFormed
  basesMapped := h.keeps.basesMapped hready.basesMapped
  counted := h.counted hready.wellFormed hready.counted
  known hname := h.extends.not_missing hready.wellFormed (h.wellFormed hready.wellFormed)
    (hready.known hname)
  settled := by
    intro j m hj hrank
    have hne : j ≠ l.mod := by
      rintro rfl
      rw [h.self, some.injEq] at hj
      subst hj
      exact (Nat.lt_irrefl _ hrank).elim
    rw [h.registered_eq, update_of_ne hne] at hj
    apply (hready.settled hj hrank).keep_registered hj
    apply h.keeps.module_image hready.basesMapped hj

theorem Loaded.pass (hgraded : Graded env sc) (hspec : BindSpec env sc load)
    (h : Loaded env load path s l s₁ s₂ s₃ img ntCopy s') (hready : ReadyFor sc path s) :
  ∃ k, PassInv env sc (sc.rank (moduleName path)) l.nt img.byte s₁ k s₂ ∧
    ∀ i, DescriptorAt l.nt img.byte i → i < k
  := by
  have hstart : PassInv env sc (sc.rank (moduleName path)) l.nt img.byte s₁ 0 s₁ := by
    refine ⟨Keeps.refl none s₁, h.opened.ready hready.2, Steady.refl s₁, ?_, by simp⟩
    intro j m hnone hsome
    rw [hnone] at hsome
    cases hsome
  rcases h.firstPass with ⟨-, hrun⟩ | ⟨hsize, rfl⟩
  · apply hstart.run hgraded hspec hready.1 h.opened hrun
  · refine ⟨0, hstart, ?_⟩
    intro i hi
    have hle := (hi i (le_refl i)).1
    rw [hsize] at hle
    simp [sizeofImportDescriptor] at hle

theorem Loaded.bindSpec_new (hgraded : Graded env sc) (hspec : BindSpec env sc load)
    (hexports : ExportsWellFormed env sc.reached)
    (h : Loaded env load path s l s₁ s₂ s₃ img ntCopy s') (hready : ReadyFor sc path s)
    (hnone : s.registered j = none) (hj : s'.registered j = some m) :
  sc.rank m.name ≤ sc.rank (moduleName path) ∧ Settled s' j ∧ Finished env sc s s' j
  := by
  obtain ⟨k, hpass, hall⟩ := h.pass hgraded hspec hready
  rw [h.quiet.registered] at hj
  rcases eq_or_ne j l.mod with rfl | hne
  · have hself := h.keeps.registered h.opened.self
    rw [hself, some.injEq] at hj
    subst hj
    have hok : ExportsOk l.nt (s'.image l.base) := by
      rw [h.opened.nt]
      apply hexports hready.1 h.opened.mapped
      rw [← h.opened.nt]
      apply h.effect.other
    refine ⟨le_refl _, h.settled hok, path, s, l, s₁, img, ntCopy, hready.1, h.opened,
      (SameLoader.refl s).extends, h.keeps.toExtends.trans h.rest.toExtends, rfl, ?_,
      h.slotsBound hgraded hready.2.basesMapped ⟨hready.1, hpass.ready⟩⟩
    intro i hi
    apply h.quiet.steady.not_missing (hpass.present i (hall i hi)).2
  · have hnone₁ : s₁.registered j = none := by
      rw [h.opened.registered_eq, update_of_ne hne, hnone]
    obtain ⟨hrank, hsettled, hfinished⟩ := hpass.new hnone₁ hj
    refine ⟨Nat.le_of_lt hrank, ?_, ?_⟩
    · apply hsettled.keep_registered hj
      apply h.module_image hready.2.basesMapped hj hne
    · apply (hfinished.weaken h.opened.extends).keep hgraded h.rest.toExtends h.quiet.steady hj hrank
      intro i m' hi hrank'
      apply h.module_image hready.2.basesMapped hi
      apply h.ne_mod hi (ne_of_lt hrank')

theorem BindSpec.loadDllWith (hgraded : Graded env sc)
    (hseparate : ForImages env sc.reached fun _ img => IatSeparate (imageNtHeaders img) img)
    (hexports : ExportsWellFormed env sc.reached) (hspec : BindSpec env sc load) :
  BindSpec env sc (loadDllWith env (resolveModuleImports env load))
  := by
  have hparts : ∀ {path s i s'}, ReadyFor sc path s →
      Loader.loadDllWith env (resolveModuleImports env load) path s = (some i, s') →
      ∃ l s₁ s₂ s₃ img ntCopy k, Loaded env load path s l s₁ s₂ s₃ img ntCopy s' ∧
        PassInv env sc (sc.rank (moduleName path)) l.nt img.byte s₁ k s₂ := by
    intro path s i s' hready hload
    obtain ⟨l, s₁, s₂, s₃, img, ntCopy, -, h⟩ := loadDllWith_loaded hspec.keeps hready.2.basesMapped
      hload fun hmap => hseparate hready.1 hmap
    obtain ⟨k, hpass, -⟩ := h.pass hgraded hspec hready
    exact ⟨l, s₁, s₂, s₃, img, ntCopy, k, h, hpass⟩
  constructor
  · apply loadDllWith_keeps
    intro l s s' hresolve
    apply hspec.keeps.resolve hresolve
  · intro path s i s' hready hload
    obtain ⟨l, s₁, s₂, s₃, img, ntCopy, k, h, hpass⟩ := hparts hready hload
    intro j m hj
    rw [h.quiet.registered] at hj
    rw [h.quiet.count]
    apply hpass.ready.counted hj
  · intro path s i s' hready hload
    obtain ⟨l, s₁, s₂, s₃, img, ntCopy, k, h, hpass⟩ := hparts hready hload
    apply not_missing_of_found
    apply h.opened.findModuleByName_isSome (h.keeps.toExtends.trans h.rest.toExtends)
    · apply h.quiet.wellFormed hpass.ready.wellFormed
    · apply strcasecmp_self
  · intro path s i s' hready hload hmissing
    obtain ⟨l, s₁, s₂, s₃, img, ntCopy, k, h, hpass⟩ := hparts hready hload
    apply ((h.opened.steady hready.2.counted hmissing).trans hpass.steady).trans h.quiet.steady
  · intro path s i s' hready hload j m hnone hj
    obtain ⟨l, s₁, s₂, s₃, img, ntCopy, k, h, -⟩ := hparts hready hload
    apply h.bindSpec_new hgraded hspec hexports hready hnone hj

theorem bindSpec (hgraded : Graded env sc)
    (hseparate : ForImages env sc.reached fun _ img => IatSeparate (imageNtHeaders img) img)
    (hexports : ExportsWellFormed env sc.reached) (depth : ℤ) :
  BindSpec env sc fun path => loadDll env path depth
  := by
  apply loadDll_induction env (P := BindSpec env sc)
  · -- At the greatest depth no load succeeds.
    have hno : ∀ {path s i s'},
        ¬ loadDllWith env (fun _ s => (false, s)) path s = (some i, s') := by
      intro path s i s' hload
      obtain ⟨_, _, _, _, hfalse, _⟩ := loadDllWith_some hload
      cases hfalse
    constructor
    · intro path s i s' hload
      cases hno hload
    all_goals
      intro path s i s' _ hload
      cases hno hload
  · intro load hspec
    apply hspec.loadDllWith hgraded hseparate hexports

end

/-! ### Two DLLs that import from one another -/

def exportOf (c : ℕ) : List (ℕ × ℕ × ℕ) :=
  [(180, 4, 2), (184, 4, 0x200), (188, 4, 0x60), (0x210, 4, 1), (0x214, 4, 1), (0x218, 4, 1),
    (0x21C, 4, 0x240), (0x220, 4, 0x248), (0x224, 4, 0x250), (0x240, 4, 0x2C0), (0x248, 4, 0x258),
    (0x258, 1, c)]

/-- The imports of a DLL, which are the function named by the character `c` of the DLL named by the
character `d`. -/
def importOf (d c : ℕ) : List (ℕ × ℕ × ℕ) :=
  [(180, 4, 2), (192, 4, 0x260), (196, 4, 40), (0x26C, 4, 0x290), (0x270, 4, 0x2A0),
    (0x290, 5, 0x6C6C642E00 + d), (0x2A0, 4, 0x2B0), (0x2B2, 1, c)]

def bindEnv (a b : List (ℕ × ℕ × ℕ)) : Env .i386 where
  kernel := .roomy .i386
  file path :=
    if path = .ofString "a.dll" then some (plainDll a)
    else if path = .ofString "b.dll" then some (plainDll b)
    else none
  findDllPath name := some name
  importTable := []
  ordinalTable := []
  dllMain _ _ := true

def cyclicA : List (ℕ × ℕ × ℕ) := exportOf 0x66 ++ importOf 0x62 0x67

def cyclicB : List (ℕ × ℕ × ℕ) := exportOf 0x67 ++ importOf 0x61 0x66

theorem exports_first {m : LoadedModule} {img : Bytes} {dir : ImageDataDirectory}
    {name : CString} {a : Ptr} (hva : dir.virtualAddress ≠ 0)
    (h : let exp := readExportDirectory img dir.virtualAddress.toNat
      (m.nt.bind fun nt => peGetDataDir nt directoryEntryExport) = some dir ∧
        (m.nt.map fun nt => exportName nt img exp 0) = some name ∧
        0 < exp.numberOfNames.toNat ∧ exportOrdinal img exp 0 < maxExportFunctions ∧
        exportFuncRva img exp 0 ∉ exportRegion dir ∧ a = m.base + exportFuncRva img exp 0) :
  Exports m img name a
  := by
  obtain ⟨hdir, hname, hnames, hordinal, hfunc, ha⟩ := h
  cases hnt : m.nt with
  | none =>
    rw [hnt] at hdir
    cases hdir
  | some nt =>
    rw [hnt, bind_some] at hdir
    rw [hnt, map_some, some.injEq] at hname
    exact ⟨nt, dir, 0, hnt, hdir, hva, hnames, ⟨by decide, hordinal⟩, hfunc, hname, ha⟩

/-- The loader with `"a.dll"`, which imports `"g"` from `"b.dll"`, and with `"b.dll"`, which
exports it. -/
def acyclicEnv : Env .i386 := bindEnv (importOf 0x62 0x67) (exportOf 0x67)

def acyclicRank (name : CString) : ℕ := if strcasecmp name (.ofString "a.dll") = 0 then 1 else 0

section

variable {used : List Region} {path : CString} {base : Ptr} {g : MainImage} {img : Image}
  {nt : ImageNtHeaders}

section

variable (h : (mapImageAt acyclicEnv.kernel used path (acyclicEnv.file path) base g).1 = some (img, nt))
include h

theorem image_acyclicEnv :
  path = .ofString "a.dll" ∧ img.byte = (plainDll (importOf 0x62 0x67)).byte ∨
    img.byte = (plainDll (exportOf 0x67)).byte
  := by
  obtain ⟨f, -, hf, -⟩ := mapImageAt_spec (Prod.ext h rfl)
  rw [hf] at h
  simp only [acyclicEnv, bindEnv] at hf
  split_ifs at hf with ha
  · cases hf
    exact Or.inl ⟨ha, image_of_isPlain (by decide) (by decide) h⟩
  · cases hf
    exact Or.inr (image_of_isPlain (by decide) (by decide) h)

theorem descriptorAt_acyclicEnv {k : ℕ} (hk : DescriptorAt (imageNtHeaders img.byte) img.byte k) :
  path = .ofString "a.dll" ∧
    importDll (imageNtHeaders img.byte) img.byte k = .ofString "b.dll"
  := by
  rcases image_acyclicEnv h with ⟨hpath, himg⟩ | himg
  · rw [himg] at hk ⊢
    obtain rfl := descriptor_eq_zero (by decide) hk
    use hpath
    decide
  · rw [himg] at hk
    cases not_descriptorAt_of_size (by decide) k hk

end

end

def acyclicScope : Scope := ⟨bareState, Set.univ, acyclicRank⟩

theorem graded_acyclicEnv :
  Graded acyclicEnv acyclicScope
  := by
  constructor
  · intro name name' h
    rw [strcasecmp_eq_zero_iff] at h
    simp only [acyclicScope, acyclicRank, strcasecmp_eq_zero_iff, h]
  · intro used path base g img nt _ hmap k hk
    obtain ⟨rfl, hdll⟩ := descriptorAt_acyclicEnv hmap hk
    rw [hdll]
    decide
  · intro used path base g img nt _ hmap k path' hk _ hpath'
    obtain ⟨-, hdll⟩ := descriptorAt_acyclicEnv hmap hk
    rw [hdll] at hpath' ⊢
    cases hpath'
    exact ⟨Set.mem_univ _, by decide⟩

theorem iatsSeparate_acyclicEnv :
  IatsSeparate acyclicEnv
  := by
  apply iatsSeparate_of_isPlain rfl
  intro path f hf
  simp only [acyclicEnv, bindEnv] at hf
  split_ifs at hf
  · cases hf
    refine ⟨_, rfl, by decide, by decide, Or.inl ?_⟩
    decide
  · cases hf
    refine ⟨_, rfl, by decide, by decide, Or.inr ?_⟩
    decide

theorem exportsWellFormed_acyclicEnv :
  ExportsWellFormed acyclicEnv Set.univ
  := by
  intro used path base g img nt _ hmap m hm dir hdir hva
  rcases image_acyclicEnv hmap with ⟨-, himg⟩ | himg
  · -- `"a.dll"` has no export directory.
    rw [himg] at hdir
    have hnone : peGetDataDir (imageNtHeaders (plainDll (importOf 0x62 0x67)).byte)
        directoryEntryExport = some ⟨0, 0⟩ := by
      decide
    rw [hnone] at hdir
    cases hdir
    cases hva rfl
  · -- `"b.dll"` has no slots.
    obtain rfl : m = (plainDll (exportOf 0x67)).byte := by
      rw [himg] at hm
      funext x
      apply hm
      intro k i hat
      cases not_descriptorAt_of_size (by decide) k hat.1
    rw [himg] at hdir ⊢
    have hsome : peGetDataDir (imageNtHeaders (plainDll (exportOf 0x67)).byte)
        directoryEntryExport = some ⟨0x200, 0x60⟩ := by
      decide
    rw [hsome] at hdir
    cases hdir
    refine ⟨⟨by decide, by decide, ?_, by decide, by decide⟩,
      by decide, by decide⟩
    intro i j hij hj
    have hone : (readExportDirectory (plainDll (exportOf 0x67)).byte
        (512 : UInt32).toNat).numberOfNames.toNat = 1 := by
      decide
    rw [hone] at hj
    omega

theorem ready_bareState :
  ReadyFor acyclicScope (.ofString "a.dll") bareState
  := by
  have hnone : ∀ j, bareState.registered j = none := by decide
  use Set.mem_univ _
  constructor
  · refine ⟨by decide, ?_, ?_⟩ <;> rintro _ ⟨⟩
  rotate_left 2
  · exact id
  all_goals
    intro j m hj
    rw [hnone j] at hj
    cases hj

end Loader
