import MyWine.Loader.LoadFrame

/-!
# The links between modules

A filled IAT slot of a registered module holds the address of a stub, or an address in the image of
a registered module that the import directory names (`LinkOk`).  Loads keep that (`linkSpec`).

While a DLL is being loaded its exports have not been parsed, so that no other module is bound to
it, and its own slots are only being filled.  The slots of the DLLs that are being loaded are the
list `pending`.
-/

open Pe SyscallSafe

namespace Loader

open Function List Option

def IatsSeparate {b : Build} (env : Env b) : Prop :=
  ∀ ⦃used path base g img nt⦄, (mapImageAt env.kernel used path (env.file path) base g).1 =
    some (img, nt) → IatSeparate (imageNtHeaders img.byte) img.byte

def IsStubAddress {b : Build} (env : Env b) (a : Ptr) : Prop :=
  a ≠ 0 ∧ ∃ e ∈ env.importTable, e.address = a

/-- A slot of the module `m` that has been filled with the address of a stub, or with an address in
a registered module whose name is in the import directory of `m`. -/
def LinkOk {b : Build} (env : Env b) (pending : List Slot) (s : LoaderState) (m : ModuleInfo)
    (f : Fill) : Prop :=
  IsStubAddress env f.address ∨
    ∃ k m' nt n, s.registered k = some m' ∧ k ∉ pending ∧ strcasecmp m'.name f.dllName = 0 ∧
      f.address ∈ m'.region ∧ m.nt = some nt ∧ DescriptorAt nt (s.image m.base) n ∧
      f.dllName = importDll nt (s.image m.base) n

/-- The stubs are mapped apart from the modules, and all filled slots are linked. -/
structure Linked {b : Build} (env : Env b) (pending : List Slot) (s : LoaderState) : Prop where
  placed : Placed s
  stubs : ∀ {a}, IsStubAddress env a →
    s.Mapped a ∧ ∀ {i m}, s.registered i = some m → a ∉ m.region
  fills : ∀ {j m}, s.registered j = some m → j ∉ pending → ∀ f ∈ s.fills m.base,
    LinkOk env pending s m f

def Unparsed (pending : List Slot) (s : LoaderState) : Prop :=
  ∀ p ∈ pending, (∃ m, s.registered p = some m) ∧ (s.module p).exportCache.numberOfNames = 0

section

variable {b : Build} {env : Env b} {pending pending' : List Slot} {ex : Option Slot}
  {s s' : LoaderState}

theorem LinkOk.of_extends {m : ModuleInfo} {f : Fill} (h : LinkOk env pending s m f)
    (hext : Extends s s') (himage : s'.image m.base = s.image m.base)
    (hpending : ∀ k ∈ pending', k ∈ pending ∨ s.registered k = none) :
  LinkOk env pending' s' m f
  := by
  rcases h with h | ⟨k, m', nt, n, hk, hnot, hname, haddr, hnt, hdesc, hdll⟩
  · exact Or.inl h
  · right
    refine ⟨k, m', nt, n, hext.registered hk, ?_, hname, haddr, hnt, ?_, ?_⟩
    · intro hmem
      rcases hpending k hmem with hmem | hfree
      · exact hnot hmem
      · rw [hk] at hfree
        cases hfree
    · rwa [himage]
    · rwa [himage]

theorem Linked.grow (h : Linked env pending s) (hgrows : Grows ex s s') (hplaced : Placed s')
    (hpending : ∀ k ∈ pending', k ∈ pending ∨ s.registered k = none)
    (hnew : ∀ {j m}, s'.registered j = some m → j ∉ pending' →
      s.registered j = none ∨ ex = some j ∨ j ∈ pending →
      ∀ f ∈ s'.fills m.base, LinkOk env pending' s' m f) :
  Linked env pending' s'
  where
  placed := hplaced
  stubs := by
    intro a ha
    obtain ⟨hmapped, hapart⟩ := h.stubs ha
    refine ⟨hgrows.mapped hmapped, ?_⟩
    intro i m hi hmem
    rcases hgrows.cases hi with hs | ⟨-, hfresh⟩
    · exact hapart hs hmem
    · exact hfresh a hmem hmapped
  fills := by
    intro j m hj hnot f hf
    rcases hgrows.cases hj with hs | ⟨hs, -⟩
    · by_cases hold : ex = some j ∨ j ∈ pending
      · apply hnew hj hnot (Or.inr hold) f hf
      · rw [not_or] at hold
        rw [hgrows.fills hs hold.1] at hf
        apply (h.fills hs hold.2 f hf).of_extends hgrows.toExtends (hgrows.image hs hold.1) hpending
    · apply hnew hj hnot (Or.inl hs) f hf

theorem Unparsed.grow (h : Unparsed pending s) (hgrows : Grows none s s') :
  Unparsed pending s'
  := by
  intro p hp
  obtain ⟨⟨m, hm⟩, hzero⟩ := h p hp
  rw [hgrows.module hm (some_ne_none p).symm]
  exact ⟨⟨m, hgrows.registered hm⟩, hzero⟩

end

theorem iatsSeparate_of_isPlain {env : Env .i386} (hkernel : env.kernel = .roomy .i386)
    (h : ∀ path f, env.file path = some f → ∃ fields, f = plainDll fields ∧ isPlain f = true ∧
      (∀ field ∈ fields, field.1 + field.2.1 ≤ 0x300) ∧
      (OneDescriptor 1 (imageNtHeaders f.byte) f.byte ∨
        (importDir (imageNtHeaders f.byte)).size.toNat < sizeofImportDescriptor)) :
  IatsSeparate env
  := by
  intro used path base g img nt hmap
  obtain ⟨f, -, hf, -⟩ := mapImageAt_spec (Prod.ext hmap rfl)
  obtain ⟨fields, rfl, hplain, hfields, himport⟩ := h path f hf
  rw [hkernel, hf] at hmap
  rw [image_of_isPlain hplain hfields hmap]
  rcases himport with hone | hsize
  · apply hone.iatSeparate
  · apply iatSeparate_of_no_descriptor
    apply not_descriptorAt_of_size hsize

/-! ### The steps of a load -/

section

variable {b : Build} {env : Env b} {pending : List Slot} {path : CString}
  {s s₁ s₂ : LoaderState} {l : Loading} {img : Image} {ntCopy : ImageNtHeaders}

theorem Opened.linked (hkept : HeadersKept env) (h : Opened env path s l s₁ img ntCopy)
    (hlinked : Linked env pending s) :
  Linked env (l.mod :: pending) s₁
  := by
  apply hlinked.grow (h.grows hkept hlinked.placed) (h.placed hkept hlinked.placed)
  · intro k hk
    rcases mem_cons.mp hk with rfl | hk
    · exact Or.inr h.registered_mod
    · exact Or.inl hk
  · intro j m hj hnot hcase f hf
    rw [mem_cons, not_or] at hnot
    rcases hcase with hnone | hex | hmem
    · rw [h.registered_eq, update_of_ne hnot.1, hnone] at hj
      cases hj
    · cases hex
    · cases hnot.2 hmem

theorem Opened.unparsed (hkept : HeadersKept env) (h : Opened env path s l s₁ img ntCopy)
    (hplaced : Placed s) (hunparsed : Unparsed pending s) :
  Unparsed (l.mod :: pending) s₁
  := by
  intro p hp
  rcases mem_cons.mp hp with rfl | hp
  · rw [h.cache]
    exact ⟨⟨_, h.self⟩, rfl⟩
  · apply (hunparsed.grow (h.grows hkept hplaced)) p hp

theorem Linked.of_same {ex : Option Slot} {s' : LoaderState} (h : Linked env pending s)
    (hgrows : Grows ex s s') (hex : ∀ j ∉ pending, ex ≠ some j) (hplaced : Placed s')
    (hsame : s'.registered = s.registered) :
  Linked env pending s'
  := by
  apply h.grow hgrows hplaced fun k hk => Or.inl hk
  intro j m hj hnot hcase f hf
  rcases hcase with hnone | hself | hmem
  · rw [hsame, hnone] at hj
    cases hj
  · cases hex j hnot hself
  · cases hnot hmem

theorem ne_some_of_notMem (l : Loading) (pending : List Slot) :
  ∀ j ∉ l.mod :: pending, some l.mod ≠ some j
  := by
  rintro _ hj ⟨⟩
  exact hj mem_cons_self

theorem lookupExport_mem {m : LoadedModule} {bytes : Bytes} {funcName : CString} {a : Ptr}
    (h : lookupExport m bytes funcName = some a) :
  ∃ nt, m.nt = some nt ∧ a ∈ pages m.base (peSizeOfImage nt)
  := by
  simp only [lookupExport] at h
  split at h
  · cases h
  · next nt hnt =>
    split at h
    · cases h
    · simp only [cachedFunction] at h
      split_ifs at h with hcount hforward hrange
      rw [not_or, Bool.not_eq_true, Bool.not_eq_false', peRvaRangeIsValid_iff] at hrange
      use nt, hnt
      cases h
      have hle := le_pageRoundUp (peSizeOfImage nt)
      simp only [Region.mem_iff, pages]
      exact ⟨Nat.le_add_right _ _, Nat.add_lt_add_left (by omega) _⟩

/-- What the resolver finds is a stub, or lies in a registered module with that name whose exports
have been parsed. -/
theorem resolveLoaderImport_mem {dllName funcName : CString} {image : Ptr → Bytes} {a : Ptr}
    (h : resolveLoaderImport b env.importTable s.list image dllName funcName = some a) :
  IsStubAddress env a ∨ ∃ k m, s.registered k = some m ∧
    0 < (s.module k).exportCache.numberOfNames ∧ strcasecmp m.name dllName = 0 ∧ a ∈ m.region
  := by
  rw [resolveLoaderImport] at h
  split at h
  · next a' hstub =>
    cases h
    left
    refine ⟨?_, stubAddress_mem hstub⟩
    rw [stubAddress] at hstub
    split at hstub
    · cases hstub
    · rw [ite_none_right_eq_some, some.injEq] at hstub
      rw [← hstub.2]
      apply hstub.1
  · right
    simp only [moduleExport] at h
    split at h
    · cases h
    · next k hfind =>
      obtain ⟨-, hbase, hname⟩ := findModuleByName_spec hfind
      split_ifs at h with hparsed
      obtain ⟨nt, hnt, ha⟩ := lookupExport_mem h
      refine ⟨k, ⟨(s.module k).base, (s.module k).name, (s.module k).nt, (s.module k).loadCount,
        (s.module k).ldrLinked⟩, if_neg hbase, hparsed, hname, ?_⟩
      rw [ModuleInfo.region, LoaderState.module, hnt]
      apply ha

/-- The slots that the second pass fills hold the addresses of stubs, or of exports of registered
modules. -/
theorem bindImports_mem (env : Env b)
    (hnames : ExportNamesSeparate s.list l.base l.nt (s.image l.base))
    (hsep : IatSeparate l.nt (s.image l.base)) (hok : (bindImports env l s).1 = true) :
  ∀ f ∈ (bindImports env l s).2.fills l.base, IsStubAddress env f.address ∨
    ∃ j m n, s.registered j = some m ∧ 0 < (s.module j).exportCache.numberOfNames ∧
      strcasecmp m.name f.dllName = 0 ∧ f.address ∈ m.region ∧
      DescriptorAt l.nt ((bindImports env l s).2.image l.base) n ∧
      f.dllName = importDll l.nt ((bindImports env l s).2.image l.base) n
  := by
  have hblind := fun m => @loaderResolver_eq b env.importTable s.list s.image l.base l.nt
    (s.image l.base) m hnames
  have hspec := @resolveImportPass1_spec env.ordinalTable
    (loaderResolver b env.importTable s.list s.image l.base) l.nt (s.image l.base) hsep hblind
  rw [← resolveImports_eq_pass1 _ _ _ l.base] at hspec
  obtain ⟨heffect, hfills, -⟩ := hspec
  have heffect := heffect hok
  have himage : (bindImports env l s).2.image l.base = (resolveImports env.ordinalTable
      (loaderResolver b env.importTable s.list s.image l.base) l.nt l.base
        (s.image l.base)).2.img := update_self ..
  have hfillsEq : (bindImports env l s).2.fills l.base = (resolveImports env.ordinalTable
      (loaderResolver b env.importTable s.list s.image l.base) l.nt l.base
        (s.image l.base)).2.fills := update_self ..
  rw [hfillsEq]
  intro f hf
  obtain ⟨k, i, hat, -, -, hdll, htarget⟩ := hfills f hf
  rw [importTarget, bind_eq_some_iff] at htarget
  obtain ⟨funcName, -, hresolve⟩ := htarget
  rw [loaderResolver, update_eq_self] at hresolve
  rcases resolveLoaderImport_mem hresolve with hstub | ⟨j, m, hj, hparsed, hname, haddr⟩
  · exact Or.inl hstub
  · right
    obtain ⟨-, hdesc, hsame⟩ := heffect.other.descriptor hsep hat.1
    rw [himage]
    refine ⟨j, m, k, hj, hparsed, ?_, haddr, hdesc, ?_⟩
    · rwa [hdll]
    · rw [hsame, hdll]

theorem bindImports_links (env : Env b) {m : ModuleInfo} (hplaced : Placed s)
    (hunparsed : Unparsed (l.mod :: pending) s) (hself : s.registered l.mod = some m)
    (hbase : m.base = l.base) (hnt : m.nt = some l.nt)
    (hsep : IatSeparate l.nt (s.image l.base)) (hok : (bindImports env l s).1 = true) :
  ∀ f ∈ (bindImports env l s).2.fills l.base,
    LinkOk env (l.mod :: pending) (bindImports env l s).2 m f
  := by
  -- The resolver does not see the slots, for the module has no exports yet.
  have hnames : ExportNamesSeparate s.list l.base l.nt (s.image l.base) := by
    intro j nt' hj hnt' n hn
    have hmod : j = l.mod := by
      by_contra hne
      obtain ⟨hzero, hbase', -⟩ := LoaderState.registered_eq_some_iff.mp hself
      have hreg : (s.module j).base ≠ 0 := by
        rwa [LoaderState.module, hj, ← hbase, ← hbase']
      apply hplaced.base_ne (registered_of_base_ne hreg) hself hne
      rw [hbase]
      exact hj
    rw [hmod] at hn
    have hzero := (hunparsed l.mod mem_cons_self).2
    rw [LoaderState.module] at hzero
    omega
  intro f hf
  rcases bindImports_mem env hnames hsep hok f hf with hstub | ⟨j, m', n, hj, hparsed, hlink⟩
  · exact Or.inl hstub
  · right
    obtain ⟨hname, haddr, hdesc, hdll⟩ := hlink
    rw [← hbase] at hdesc hdll
    refine ⟨j, m', l.nt, n, hj, ?_, hname, haddr, hnt, hdesc, hdll⟩
    intro hmem
    have hzero := (hunparsed j hmem).2
    omega

theorem Opened.close_linked (hkept : HeadersKept env) (h : Opened env path s l s₁ img ntCopy)
    (hlinked : Linked env pending s) (hgrows : Grows (some l.mod) s₁ s₂)
    (hlinked₂ : Linked env (l.mod :: pending) s₂) :
  Linked env pending (closeDll l s₂)
  := by
  obtain ⟨hreg, -, -, -, hmapped⟩ := h.closed (hkept.call _) hlinked.placed.wellFormed hgrows.toExtends
    hlinked₂.placed.wellFormed
  obtain ⟨-, himage, hfills⟩ := closeDll_frame l s₂
  have hother {i m} (hi : (closeDll l s₂).registered i = some m) :=
    h.registered_of_close hkept hlinked.placed hgrows hlinked₂.placed hi
  constructor
  · apply h.close_placed hkept hlinked.placed hgrows hlinked₂.placed
  · intro a ha
    obtain ⟨hmapped₂, hapart⟩ := hlinked₂.stubs ha
    refine ⟨?_, fun hi => hapart (hother hi).2⟩
    have hnot := h.notMem_of_mapped (hlinked.stubs ha).1
    rw [hmapped]
    exact ⟨⟨hmapped₂, hnot.1⟩, hnot.2⟩
  · intro j m hj hnot f hf
    obtain ⟨hne, hj⟩ := hother hj
    rw [hfills] at hf
    have hlink := hlinked₂.fills hj (by simp [hne, hnot]) f hf
    rcases hlink with hstub | ⟨k, m', nt, n, hk, hkp, hname, haddr, hnt, hdesc, hdll⟩
    · exact Or.inl hstub
    · rw [mem_cons, not_or] at hkp
      right
      refine ⟨k, m', nt, n, ?_, hkp.2, hname, haddr, hnt, ?_, ?_⟩
      · rwa [hreg, update_of_ne hkp.1]
      · rwa [himage]
      · rwa [himage]

/-! ### Whole loads -/

def LinkSpec (env : Env b) (load : CString → LoaderState → Option Slot × LoaderState) : Prop :=
  ∀ ⦃pending path s⦄, Linked env pending s → Unparsed pending s →
    Linked env pending (load path s).2

/-- The resolution of the imports of a module keeps the links, and makes those of the module. -/
def ResolveLinks (env : Env b) (resolve : Loading → LoaderState → Bool × LoaderState) : Prop :=
  ∀ ⦃pending l s m⦄, Linked env (l.mod :: pending) s → Unparsed (l.mod :: pending) s →
    s.registered l.mod = some m → m.base = l.base → m.nt = some l.nt →
    IatSeparate l.nt (s.image l.base) → s.fills l.base = [] →
    Linked env (l.mod :: pending) (resolve l s).2 ∧ Grows (some l.mod) s (resolve l s).2 ∧
    ((resolve l s).1 = true → ∀ f ∈ (resolve l s).2.fills l.base,
      LinkOk env (l.mod :: pending) (resolve l s).2 m f)

theorem LinkSpec.resolve {load : CString → LoaderState → Option Slot × LoaderState}
    (hframe : FrameSpec load) (h : LinkSpec env load) :
  ResolveLinks env (resolveModuleImports env load)
  := by
  intro pending l s m hlinked hunparsed hself hbase hnt hsep hfills
  have hloop : ∀ dir, let s₂ := ((dependencyLoop env load l dir).run (0, s)).2
      Linked env (l.mod :: pending) s₂ ∧ Grows none s s₂ := by
    intro dir
    apply dependencyLoop_of_invariant env l dir 0
      fun s₂ => Linked env (l.mod :: pending) s₂ ∧ Grows none s s₂
    · rintro path s₂ ⟨hlinked₂, hgrows⟩
      exact ⟨h hlinked₂ (hunparsed.grow hgrows), hgrows.trans (hframe.grows hlinked₂.placed)⟩
    · exact ⟨hlinked, Grows.refl none s⟩
  rw [resolveModuleImports_eq]
  split_ifs
  · obtain ⟨hlinked₂, hgrows⟩ := hloop (importDir l.nt)
    generalize (dependencyLoop env load l (importDir l.nt)).run (0, s) = r at hlinked₂ hgrows ⊢
    rcases r with ⟨_ | _, s₂⟩
    · exact ⟨hlinked₂, hgrows.weaken _, fun hfalse => by cases hfalse⟩
    · simp only at hlinked₂ hgrows ⊢
      have hself₂ := hgrows.registered hself
      have hplaced₂ := hlinked₂.placed
      have hbind := grows_bindImports env hplaced₂ hself₂ hbase
      have hquiet := quiet_bindImports env l s₂
      have hnot := ne_some_of_notMem l pending
      have hlinked₃ := hlinked₂.of_same hbind hnot (hquiet.placed hplaced₂) hquiet.registered
      have himage : s₂.image l.base = s.image l.base := by
        rw [← hbase]
        apply hgrows.image hself (some_ne_none _).symm
      have hlinks := fun hok => bindImports_links env hplaced₂ (hunparsed.grow hgrows)
        hself₂ hbase hnt (by rwa [himage]) hok
      generalize bindImports env l s₂ = r at hbind hquiet hlinked₃ hlinks ⊢
      rcases r with ⟨_ | _, s₃⟩
      · exact ⟨hlinked₃, (hgrows.weaken _).trans hbind, fun hfalse => by cases hfalse⟩
      · have hparse := quietAt_parseExports l.mod s₃
        refine ⟨hlinked₃.of_same hparse.grows hnot (hparse.toQuiet.placed hlinked₃.placed)
          hparse.registered, ((hgrows.weaken _).trans hbind).trans hparse.grows, ?_⟩
        intro _ f hf
        rw [hparse.fills] at hf
        apply (hlinks rfl f hf).of_extends hparse.same.extends (by rw [hparse.image])
        intro k hk
        exact Or.inl hk
  · refine ⟨hlinked, Grows.refl _ s, ?_⟩
    intro _ f hf
    rw [hfills] at hf
    cases hf

theorem ResolveLinks.load (hkept : HeadersKept env) (hseparate : IatsSeparate env)
    {resolve : Loading → LoaderState → Bool × LoaderState} (h : ResolveLinks env resolve) :
  LinkSpec env (loadDllWith env resolve)
  := by
  intro pending path s hlinked hunparsed
  rcases hopen : openDll env path s with ⟨_ | l, s₁⟩
  · have hload : loadDllWith env resolve path s = (none, s₁) := by rw [loadDllWith, hopen]
    obtain ⟨hplaced₁, hgrows⟩ := openDll_none_grows hkept hlinked.placed hopen
    rw [hload]
    apply hlinked.of_same hgrows (by simp) hplaced₁ (openDll_none (hkept.call _) hopen).2.registered
  · obtain ⟨img, ntCopy, hopened⟩ := openDll_some hopen
    have himage : s₁.image l.base = img.byte := by rw [hopened.image, update_self]
    have hsep : IatSeparate l.nt (s₁.image l.base) := by
      rw [himage, hopened.nt]
      apply hseparate hopened.mapped
    obtain ⟨hlinked', hgrows', hlinks⟩ := h (hopened.linked hkept hlinked)
      (hopened.unparsed hkept hlinked.placed hunparsed) hopened.self rfl rfl hsep
      (by rw [hopened.fills, update_self])
    obtain ⟨s₂, hquiet, hload⟩ := @loadDllWith_cases _ env resolve path s s₁ l hopen
    have hlinked₂ := hlinked'.of_same hquiet.grows (ne_some_of_notMem l pending)
      (hquiet.toQuiet.placed hlinked'.placed) hquiet.registered
    rcases hload with ⟨hok, hload⟩ | hload
    · rw [hload]
      apply hlinked₂.grow (Grows.refl none s₂) hlinked₂.placed
      · intro k hk
        exact Or.inl (mem_cons_of_mem _ hk)
      · intro j m hj hnot hcase f hf
        rcases hcase with hnone | hex | hmem
        · rw [hnone] at hj
          cases hj
        · cases hex
        · obtain rfl := (mem_cons.mp hmem).resolve_right hnot
          rw [hquiet.registered, hgrows'.registered hopened.self, some.injEq] at hj
          subst hj
          rw [hquiet.fills] at hf
          apply (hlinks hok f hf).of_extends hquiet.same.extends (by rw [hquiet.image])
          intro k hk
          exact Or.inl (mem_cons_of_mem _ hk)
    · rw [hload]
      apply hopened.close_linked hkept hlinked (hgrows'.trans hquiet.grows) hlinked₂

theorem linkSpec (hkept : HeadersKept env) (hseparate : IatsSeparate env) (depth : ℤ) :
  LinkSpec env fun path => loadDll env path depth
  := by
  refine (loadDll_induction env (P := fun load => FrameSpec load ∧ LinkSpec env load) ?_ ?_
    depth).2
  · constructor
    · apply loadDllWith_frame hkept
      intro l s m hplaced _ _
      exact ⟨hplaced, Grows.refl _ s⟩
    · apply ResolveLinks.load hkept hseparate
      intro pending l s m hlinked _ _ _ _ _ _
      exact ⟨hlinked, Grows.refl _ s, fun hfalse => by cases hfalse⟩
  · rintro load ⟨hframe, hlink⟩
    constructor
    · apply loadDllWith_frame hkept
      intro l s m hplaced hself hbase
      apply hframe.resolve hplaced hself hbase
    · apply ResolveLinks.load hkept hseparate
      apply LinkSpec.resolve hframe hlink

end

end Loader
