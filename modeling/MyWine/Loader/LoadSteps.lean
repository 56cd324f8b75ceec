import MyWine.Loader.DllLoader

/-!
# The steps of a load

What the steps of `load_dll` do to the registry, to the lists of the PEB and to the mapped regions.
Opening a DLL registers it where nothing was mapped (`Opened`), and the cleanup takes it out again
(`Opened.closed`); the steps in between leave all three alone (`Quiet`).  A load, as far as it has
got, has only added to them (`Extends`).
-/

open Pe SyscallSafe

namespace Loader

open Function List Option

/-! ### What is registered and mapped -/

/-- What the registry says of a module. -/
structure ModuleInfo where
  base : Ptr
  name : CString
  nt : Option ImageNtHeaders
  loadCount : ℤ
  ldrLinked : Bool

def LoadedModule.info (m : LoadedModule) : Option ModuleInfo :=
  if m.base = 0 then none else some ⟨m.base, m.name, m.nt, m.loadCount, m.ldrLinked⟩

namespace LoaderState

def registered (s : LoaderState) (i : Slot) : Option ModuleInfo := (s.module i).info

def Mapped (s : LoaderState) (x : ℕ) : Prop := ∃ r ∈ s.used, x ∈ r

end LoaderState

def PebLdrData.Lacks (ldr : PebLdrData) (i : Slot) : Prop :=
  i ∉ ldr.inLoadOrder ∧ i ∉ ldr.inMemoryOrder ∧ i ∉ ldr.inInitializationOrder

def PebLdrData.Nodup (ldr : PebLdrData) : Prop :=
  ldr.inLoadOrder.Nodup ∧ ldr.inMemoryOrder.Nodup ∧ ldr.inInitializationOrder.Nodup

def LoaderState.Unlinked (s : LoaderState) (i : Slot) : Prop :=
  ∀ m, s.registered i = some m → m.ldrLinked = false

/-- `moduleCount` is the number of the registered modules, and the lists of the PEB are of
registered modules that are marked as linked. -/
structure WellFormed (s : LoaderState) : Prop where
  count : s.list.moduleCount = (Table.occupied (fun m => m.isSome = true) s.registered).card
  linked : ∀ {ldr}, s.pebLdr = some ldr → ∀ {i}, s.Unlinked i → ldr.Lacks i
  nodup : ∀ {ldr}, s.pebLdr = some ldr → ldr.Nodup

/-- The registered modules, the lists of the PEB and the mapped addresses are the same. -/
structure SameLoader (s s' : LoaderState) : Prop where
  registered : s'.registered = s.registered
  pebLdr : s'.pebLdr = s.pebLdr
  mapped : ∀ x, s'.Mapped x ↔ s.Mapped x

/-- Modules have been registered and linked behind the others, and addresses have been mapped. -/
structure Extends (s s' : LoaderState) : Prop where
  registered : ∀ {i m}, s.registered i = some m → s'.registered i = some m
  pebLdr : ∃ new, (∀ i ∈ new, s.registered i = none) ∧
    s'.pebLdr = s.pebLdr.map fun ldr => ldr.map (· ++ new)
  mapped : ∀ {x}, s.Mapped x → s'.Mapped x

theorem PebLdrData.map_append_nil (ldr : PebLdrData) :
  (ldr.map fun l => l ++ []) = ldr
  := by
  simp [map]

theorem PebLdrData.map_map (f g : List Slot → List Slot) (ldr : PebLdrData) :
  (ldr.map f).map g = ldr.map fun l => g (f l)
  := rfl

variable {i : Slot} {ldr : PebLdrData} {new : List Slot} {s s' : LoaderState}

theorem PebLdrData.map_erase (h : ldr.Lacks i) (new : List Slot) :
  (ldr.map fun l => (l ++ i :: new).erase i) = ldr.map (· ++ new)
  := by
  obtain ⟨hload, hmemory, hinit⟩ := h
  simp [map, erase_append_right _ hload, erase_append_right _ hmemory, erase_append_right _ hinit]

theorem PebLdrData.lacks_map_append :
  (ldr.map (· ++ new)).Lacks i ↔ ldr.Lacks i ∧ i ∉ new
  := by
  simp only [Lacks, map, mem_append, not_or]
  tauto

theorem PebLdrData.nodup_map_append (h : ldr.Nodup) (hlacks : ldr.Lacks i) :
  (ldr.map (· ++ [i])).Nodup
  := by
  have hlist : ∀ {l : List Slot}, l.Nodup → i ∉ l → (l ++ [i]).Nodup := by
    intro l hl hi
    rw [nodup_append]
    refine ⟨hl, nodup_singleton i, ?_⟩
    rintro j hj k hk rfl
    rw [mem_singleton] at hk
    subst hk
    exact hi hj
  exact ⟨hlist h.1 hlacks.1, hlist h.2.1 hlacks.2.1, hlist h.2.2 hlacks.2.2⟩

theorem PebLdrData.lacks_map_erase {j : Slot} (h : ldr.Nodup) (hj : j = i ∨ ldr.Lacks j) :
  (ldr.map (·.erase i)).Lacks j
  := by
  have hlist : ∀ {l : List Slot}, l.Nodup → j = i ∨ j ∉ l → j ∉ l.erase i := by
    rintro l hl (rfl | hnot)
    · apply List.Nodup.not_mem_erase hl
    · intro hmem
      exact hnot (mem_of_mem_erase hmem)
  and_intros
  · apply hlist h.1 (hj.imp_right fun h => h.1)
  · apply hlist h.2.1 (hj.imp_right fun h => h.2.1)
  · apply hlist h.2.2 (hj.imp_right fun h => h.2.2)

theorem PebLdrData.map_append_eq_self (h : ldr.map (· ++ new) = ldr) :
  new = []
  := by
  have hload := congrArg PebLdrData.inLoadOrder h
  simpa [map] using hload

theorem LoaderState.registered_eq_none_iff :
  s.registered i = none ↔ (s.module i).base = 0
  := by
  simp [registered, LoadedModule.info]

theorem LoaderState.registered_congr (h : s'.list = s.list) :
  s'.registered = s.registered
  := by
  funext i
  rw [registered, registered, module, module, h]

theorem LoaderState.registered_update {m : LoadedModule} {info : Option ModuleInfo}
    (h : s'.list.modules = update s.list.modules i m) (hinfo : m.info = info) :
  s'.registered = update s.registered i info
  := by
  funext j
  rw [registered, module, h]
  rcases eq_or_ne j i with rfl | hne
  · rw [update_self, update_self, hinfo]
  · rw [update_of_ne hne, update_of_ne hne]
    rfl

theorem LoaderState.registered_eq_some_iff {m : ModuleInfo} :
  s.registered i = some m ↔ (s.module i).base ≠ 0 ∧ (s.module i).base = m.base ∧
    (s.module i).name = m.name ∧ (s.module i).nt = m.nt ∧ (s.module i).loadCount = m.loadCount ∧
    (s.module i).ldrLinked = m.ldrLinked
  := by
  cases m
  simp [registered, LoadedModule.info]

theorem registered_of_base_ne (h : (s.module i).base ≠ 0) :
  s.registered i = some ⟨(s.module i).base, (s.module i).name, (s.module i).nt,
    (s.module i).loadCount, (s.module i).ldrLinked⟩
  := LoaderState.registered_eq_some_iff.mpr ⟨h, rfl, rfl, rfl, rfl, rfl⟩

theorem LoaderState.mapped_mmap {a : Ptr} {size x : ℕ} :
  (s.mmap a size).Mapped x ↔ x ∈ pages a size ∨ s.Mapped x
  := by
  simp [Mapped, mmap]

theorem LoaderState.mapped_munmap {a : Ptr} {size x : ℕ} :
  (s.munmap a size).Mapped x ↔ s.Mapped x ∧ x ∉ pages a size
  := Region.exists_mem_unmap

theorem WellFormed.congr (h : WellFormed s) (hregistered : s'.registered = s.registered)
    (hcount : s'.list.moduleCount = s.list.moduleCount) (hldr : s'.pebLdr = s.pebLdr) :
  WellFormed s'
  where
  count := by rw [hcount, hregistered, h.count]
  linked := by
    intro ldr hldr' i hi
    rw [hldr] at hldr'
    rw [LoaderState.Unlinked, hregistered] at hi
    apply h.linked hldr' hi
  nodup := by
    intro ldr hldr'
    rw [hldr] at hldr'
    apply h.nodup hldr'

theorem WellFormed.lacks_of_free (h : WellFormed s) (hldr : s.pebLdr = some ldr)
    (hi : s.registered i = none) :
  ldr.Lacks i
  := by
  apply h.linked hldr
  intro m hm
  rw [hi] at hm
  cases hm

/-- A module is taken out of the registry and of the lists. -/
theorem WellFormed.remove {m : ModuleInfo} (h : WellFormed s) (hi : s.registered i = some m)
    (hreg : s'.registered = update s.registered i none)
    (hcount : s'.list.moduleCount = s.list.moduleCount - 1)
    (hldr : s'.pebLdr = s.pebLdr.map fun ldr => ldr.map (·.erase i)) :
  WellFormed s'
  := by
  constructor
  · rw [hcount, hreg, Table.occupied_update_of_not_occ, Finset.card_erase_of_mem, h.count]
    · rw [Table.mem_occupied, hi]
      rfl
    · simp
  · intro ldr' hsome j hj
    rw [hldr, map_eq_some_iff] at hsome
    obtain ⟨ldr, hs, rfl⟩ := hsome
    apply PebLdrData.lacks_map_erase (h.nodup hs)
    rcases eq_or_ne j i with rfl | hne
    · exact Or.inl rfl
    · right
      apply h.linked hs
      rwa [LoaderState.Unlinked, hreg, update_of_ne hne] at hj
  · intro ldr' hsome
    rw [hldr, map_eq_some_iff] at hsome
    obtain ⟨ldr, hs, rfl⟩ := hsome
    obtain ⟨hload, hmemory, hinit⟩ := h.nodup hs
    exact ⟨hload.erase i, hmemory.erase i, hinit.erase i⟩

theorem SameLoader.refl (s : LoaderState) :
  SameLoader s s
  where
  registered := rfl
  pebLdr := rfl
  mapped _ := Iff.rfl

theorem SameLoader.trans {s'' : LoaderState} (h : SameLoader s s') (h' : SameLoader s' s'') :
  SameLoader s s''
  where
  registered := h'.registered.trans h.registered
  pebLdr := h'.pebLdr.trans h.pebLdr
  mapped x := (h'.mapped x).trans (h.mapped x)

theorem SameLoader.symm (h : SameLoader s s') :
  SameLoader s' s
  where
  registered := h.registered.symm
  pebLdr := h.pebLdr.symm
  mapped x := (h.mapped x).symm

theorem SameLoader.extends (h : SameLoader s s') :
  Extends s s'
  where
  registered hi := by rwa [h.registered]
  pebLdr := by
    use [], by simp
    rw [h.pebLdr]
    simp only [PebLdrData.map_append_nil, Option.map_id']
  mapped hx := (h.mapped _).mpr hx

/-- A slot that is still free was free before. -/
theorem Extends.free (h : Extends s s') (hi : s'.registered i = none) :
  s.registered i = none
  := by
  cases hreg : s.registered i with
  | none => rfl
  | some m =>
    rw [h.registered hreg] at hi
    cases hi

theorem Extends.trans {s'' : LoaderState} (h : Extends s s') (h' : Extends s' s'') :
  Extends s s''
  where
  registered hi := h'.registered (h.registered hi)
  pebLdr := by
    obtain ⟨new, hnew, hldr⟩ := h.pebLdr
    obtain ⟨new', hnew', hldr'⟩ := h'.pebLdr
    use new ++ new'
    constructor
    · intro i hi
      rcases mem_append.mp hi with hi | hi
      · apply hnew i hi
      · apply h.free (hnew' i hi)
    · rw [hldr', hldr, Option.map_map]
      simp [Function.comp_def, PebLdrData.map_map]
  mapped hx := h'.mapped (h.mapped hx)

/-! ### Opening and closing a DLL -/

section

variable {b : Build} {env : Env b}

variable {img : Image} {path : CString} {s s₁ s' s'' : LoaderState}

theorem mapImageAt_pages {k : Kernel b} {used : List Region} {file : Option File}
    {desiredBase : Ptr} {g : MainImage} {nt : ImageNtHeaders}
    (h : (mapImageAt k used path file desiredBase g).1 = some (img, nt)) :
  peSizeOfImage nt ≠ 0 ∧ Usable b (pages img.base (peSizeOfImage nt)) ∧
    ∀ u ∈ used, (pages img.base (peSizeOfImage nt)).Apart u
  := by
  obtain ⟨f, hdr, -, -, rfl, hmap⟩ := mapImageAt_spec (Prod.ext h rfl)
  obtain ⟨hsize, -, -, hreserve, -⟩ := mapParsed_spec hmap
  exact ⟨hsize, reserveImage_spec hreserve⟩

/-- A DLL that has been mapped as `img`, registered and linked as `l`. -/
structure Opened (env : Env b) (path : CString) (s : LoaderState) (l : Loading) (s₁ : LoaderState)
    (img : Image) (ntCopy : ImageNtHeaders) : Prop where
  mapped : (mapImageAt env.kernel s.used path (env.file path) (b.wrap (pageRoundUp s.dllBaseNext))
    s.main).1 = some (img, ntCopy)
  ntMapped : env.kernel.mapAnywhere (pages l.base (peSizeOfImage ntCopy) :: s.used) pageSize =
    some l.ntAlloc
  base : l.base = img.base
  nt : l.nt = imageNtHeaders img.byte
  kind : s.main.is32bit = peIsPe32 l.nt
  free : (s.module l.mod).base = 0
  before : ∀ j < l.mod, (s.module j).base ≠ 0
  self : s₁.registered l.mod =
    some ⟨l.base, copyStr (dllBaseName path) moduleNameSize, some l.nt, 1, s.pebLdr.isSome⟩
  cache : (s₁.module l.mod).exportCache = .zero
  others : ∀ {j}, j ≠ l.mod → s₁.module j = s.module j
  count : s₁.list.moduleCount = s.list.moduleCount + 1
  pebLdr : s₁.pebLdr = s.pebLdr.map fun ldr => ldr.map (· ++ [l.mod])
  used : s₁.used = pages l.ntAlloc pageSize :: pages l.base (peSizeOfImage ntCopy) :: s.used
  image : s₁.image = update s.image l.base img.byte
  fills : s₁.fills = update s.fills l.base []

theorem Opened.pages_spec {l : Loading} {ntCopy : ImageNtHeaders}
    (h : Opened env path s l s₁ img ntCopy) :
  let image := pages l.base (peSizeOfImage ntCopy)
  Usable b image ∧ 0 < image.size ∧ (∀ u ∈ s.used, image.Apart u) ∧
    (pages l.ntAlloc pageSize).Apart image ∧ ∀ u ∈ s.used, (pages l.ntAlloc pageSize).Apart u
  := by
  obtain ⟨hsize, husable, hapart⟩ := mapImageAt_pages h.mapped
  obtain ⟨-, hntApart⟩ := env.kernel.mapAnywhere_spec h.ntMapped
  rw [forall_mem_cons] at hntApart
  rw [← h.base] at husable hapart
  have hpos : 0 < (pages l.base (peSizeOfImage ntCopy)).size := by
    have hle := le_pageRoundUp (peSizeOfImage ntCopy)
    simp only [pages]
    omega
  exact ⟨husable, hpos, hapart, hntApart⟩

theorem ldrAddModule_newModule (s : LoaderState) (mod : Slot) {base : Ptr} {name : CString}
    {nt : ImageNtHeaders} (hm : s.module mod = newModule base name nt) (hbase : base ≠ 0) :
  let s₁ := ldrAddModule s mod
  s₁.registered mod = some ⟨base, copyStr name moduleNameSize, some nt, 1, s.pebLdr.isSome⟩ ∧
    (s₁.module mod).exportCache = .zero ∧ (∀ {j}, j ≠ mod → s₁.module j = s.module j) ∧
    s₁.list.moduleCount = s.list.moduleCount ∧
    s₁.pebLdr = (s.pebLdr.map fun ldr => ldr.map (· ++ [mod])) ∧ s₁.used = s.used ∧
    s₁.image = s.image ∧ s₁.fills = s.fills
  := by
  simp only [ldrAddModule, hm, newModule]
  split
  · next hldr =>
    simp [LoaderState.registered, LoadedModule.info, hm, newModule, hbase, hldr, LoadedModule.zero]
  · next ldr hldr =>
    rw [if_neg (by simp [hbase]), if_neg (by simp [LoadedModule.zero])]
    simp only [LoaderState.registered, LoadedModule.info, LoaderState.setModule, LoaderState.module,
      update_self, hbase, if_false, hldr, isSome_some, map_some, true_and,
      and_self, and_true]
    refine ⟨rfl, ?_⟩
    intro j hj
    rw [update_of_ne hj]

theorem mapDll_some {ntCopy : ImageNtHeaders} (h : mapDll env path s = (some (img, ntCopy), s₁)) :
  (mapImageAt env.kernel s.used path (env.file path) (b.wrap (pageRoundUp s.dllBaseNext))
      s.main).1 = some (img, ntCopy) ∧
    s₁.main.is32bit = s.main.is32bit ∧ s₁.list = s.list ∧ s₁.pebLdr = s.pebLdr ∧
    s₁.used = pages img.base (peSizeOfImage ntCopy) :: s.used ∧
    s₁.image = update s.image img.base img.byte ∧
    s₁.fills = update s.fills img.base []
  := by
  simp only [mapDll] at h
  split at h
  · cases h
  · next img' ntCopy' hmap =>
    simp only [Prod.mk.injEq, some.injEq] at h
    obtain ⟨⟨rfl, rfl⟩, rfl⟩ := h
    exact ⟨hmap, by rw [MainImage.restore_eq], rfl, rfl, rfl, rfl, rfl⟩

theorem mapDll_none (h : mapDll env path s = (none, s₁)) :
  s₁.list = s.list ∧ s₁.pebLdr = s.pebLdr ∧ s₁.used = s.used
  := by
  simp only [mapDll] at h
  split at h
  · cases h
    exact ⟨rfl, rfl, rfl⟩
  · cases h

theorem openDll_some {l : Loading} (h : openDll env path s = (some l, s₁)) :
  ∃ img ntCopy, Opened env path s l s₁ img ntCopy
  := by
  rw [openDll] at h
  split at h
  · cases h
  · next img ntCopy s₂ hmap =>
    obtain ⟨hmapped, hkind, hlist, hldr, hused, himage, hfills⟩ := mapDll_some hmap
    simp only [registerDll] at h
    split at h
    · cases h
    · next ntAlloc hnt =>
      split at h
      · cases h
      · next htype =>
        obtain ⟨i, hfree, hbefore, hadd⟩ | ⟨-, hadd⟩ := addModule_cases
          (s₂.mmap ntAlloc pageSize).list img.base (dllBaseName path) (imageNtHeaders img.byte)
        · simp only [hadd, Prod.mk.injEq, some.injEq] at h
          obtain ⟨rfl, rfl⟩ := h
          have hbase : img.base ≠ 0 := (mapImageAt_pages hmapped).2.1.start_ne_zero
          obtain ⟨hself, hcache, hothers, hcount, hldr', hused', himage', hfills'⟩ :=
            ldrAddModule_newModule { s₂.mmap ntAlloc pageSize with list := ⟨update
              (s₂.mmap ntAlloc pageSize).list.modules i (newModule img.base (dllBaseName path)
                (imageNtHeaders img.byte)), (s₂.mmap ntAlloc pageSize).list.moduleCount + 1⟩ }
              i (update_self ..) hbase
          use img, ntCopy
          constructor
          · apply hmapped
          · rwa [← hused]
          · rfl
          · rfl
          · rw [← hkind]
            apply not_not.mp htype
          · rw [← hfree, LoaderState.module, ← hlist]
            rfl
          · intro j hj
            rw [LoaderState.module, ← hlist]
            apply hbefore j hj
          · rw [hself, ← hldr]
            rfl
          · apply hcache
          · intro j hj
            rw [hothers hj, LoaderState.module, LoaderState.module, ← hlist]
            apply update_of_ne hj
          · rw [hcount, ← hlist]
            rfl
          · rw [hldr', ← hldr]
            rfl
          · rw [hused', ← hused]
            rfl
          · rw [himage', ← himage]
            rfl
          · rw [hfills', ← hfills]
            rfl
        · simp only [hadd] at h
          cases h

def HeadersKept (env : Env b) : Prop :=
  ∀ ⦃used path base g img nt⦄, (mapImageAt env.kernel used path (env.file path) base g).1 =
    some (img, nt) → pages img.base (peSizeOfImage (imageNtHeaders img.byte)) =
      pages img.base (peSizeOfImage nt)

/-- The headers in the image that a call of `load_dll` maps say how large it is, if it is of the kind
that is loaded. -/
def HeadersKeptIn (env : Env b) (c : CString × LoaderState) : Prop :=
  ∀ ⦃img nt⦄, (mapImageAt env.kernel c.2.used c.1 (env.file c.1)
      (b.wrap (pageRoundUp c.2.dllBaseNext)) c.2.main).1 = some (img, nt) →
    c.2.main.is32bit = peIsPe32 (imageNtHeaders img.byte) →
    pages img.base (peSizeOfImage (imageNtHeaders img.byte)) = pages img.base (peSizeOfImage nt)

theorem HeadersKept.call (h : HeadersKept env) (c : CString × LoaderState) :
  HeadersKeptIn env c
  := fun _ _ hmap _ => h hmap

theorem LoaderState.Mapped.notMem {s : LoaderState} {r : Region} {x : ℕ} (hx : s.Mapped x)
    (h : ∀ u ∈ s.used, r.Apart u) :
  x ∉ r
  := by
  obtain ⟨u, hu, hxu⟩ := hx
  apply (h u hu).symm.notMem hxu

theorem openDll_none_image (h : openDll env path s = (none, s₁)) {a : Ptr} (ha : s.Mapped a) :
  s₁.image a = s.image a ∧ s₁.fills a = s.fills a
  := by
  rw [openDll] at h
  split at h
  · next s₂ hmap =>
    cases h
    simp only [mapDll] at hmap
    split at hmap
    · cases hmap
      exact ⟨rfl, rfl⟩
    · cases hmap
  · next img ntCopy s₂ hmap =>
    obtain ⟨hmapped, -, -, -, -, himage, hfills⟩ := mapDll_some hmap
    obtain ⟨hsize, -, hapart⟩ := mapImageAt_pages hmapped
    have hne : a ≠ img.base := by
      rintro rfl
      apply ha.notMem hapart
      have hle := le_pageRoundUp (peSizeOfImage ntCopy)
      simp only [Region.mem_iff, pages]
      exact ⟨Nat.le_refl _, Nat.lt_add_of_pos_right (by omega)⟩
    have hkeep : s₂.image a = s.image a ∧ s₂.fills a = s.fills a := by
      rw [himage, hfills, update_of_ne hne, update_of_ne hne]
      exact ⟨rfl, rfl⟩
    simp only [registerDll] at h
    split at h
    · cases h
      apply hkeep
    · split at h
      · cases h
        apply hkeep
      · split at h
        · cases h
          apply hkeep
        · cases h

theorem openDll_none (hkept : HeadersKeptIn env (path, s)) (h : openDll env path s = (none, s₁)) :
  s₁.list = s.list ∧ SameLoader s s₁
  := by
  rw [openDll] at h
  split at h
  · next s₂ hmap =>
    cases h
    obtain ⟨hlist, hldr, hused⟩ := mapDll_none hmap
    use hlist
    constructor
    · apply LoaderState.registered_congr hlist
    · apply hldr
    · intro x
      rw [LoaderState.Mapped, hused, LoaderState.Mapped]
  · next img ntCopy s₂ hmap =>
    obtain ⟨hmapped, hkind, hlist, hldr, hused, -, -⟩ := mapDll_some hmap
    obtain ⟨-, -, hapart⟩ := mapImageAt_pages hmapped
    have hregistered := LoaderState.registered_congr hlist
    have himage : ∀ x, s₂.Mapped x ↔ x ∈ pages img.base (peSizeOfImage ntCopy) ∨ s.Mapped x := by
      intro x
      simp [LoaderState.Mapped, hused]
    simp only [registerDll] at h
    split at h
    · cases h
      refine ⟨hlist, hregistered, hldr, ?_⟩
      intro x
      rw [LoaderState.mapped_munmap, himage]
      have hfree := fun hx => @LoaderState.Mapped.notMem s _ x hx hapart
      tauto
    · next ntAlloc hnt =>
      obtain ⟨-, hntApart⟩ := env.kernel.mapAnywhere_spec hnt
      have hboth : ∀ x size, pages img.base size = pages img.base (peSizeOfImage ntCopy) →
          ((((s₂.mmap ntAlloc pageSize).munmap ntAlloc pageSize).munmap img.base size).Mapped x ↔
            s.Mapped x) := by
        intro x size hsize
        rw [LoaderState.mapped_munmap, LoaderState.mapped_munmap, LoaderState.mapped_mmap, himage,
          hsize]
        have hfree := fun hx => @LoaderState.Mapped.notMem s _ x hx hapart
        have hntFree := fun hx => @LoaderState.Mapped.notMem s₂ _ x hx hntApart
        rw [himage] at hntFree
        tauto
      split at h
      · cases h
        exact ⟨hlist, hregistered, hldr, fun x => hboth x _ rfl⟩
      · next htype =>
        obtain ⟨i, -, -, hadd⟩ | ⟨-, hadd⟩ := addModule_cases
          (s₂.mmap ntAlloc pageSize).list img.base (dllBaseName path) (imageNtHeaders img.byte)
        · simp only [hadd] at h
          cases h
        · simp only [hadd, Prod.mk.injEq, true_and] at h
          subst h
          have hsize := hkept hmapped (hkind.symm.trans (not_not.mp htype))
          exact ⟨hlist, hregistered, hldr, fun x => hboth x _ hsize⟩

section

variable {path : CString} {s s₁ s₂ : LoaderState} {l : Loading} {img : Image}
  {ntCopy : ImageNtHeaders}

section

variable (h : Opened env path s l s₁ img ntCopy)
include h

theorem Opened.registered_eq :
  s₁.registered = update s.registered l.mod
    (some ⟨l.base, copyStr (dllBaseName path) moduleNameSize, some l.nt, 1, s.pebLdr.isSome⟩)
  := by
  funext j
  rcases eq_or_ne j l.mod with rfl | hne
  · rw [h.self, update_self]
  · rw [update_of_ne hne, LoaderState.registered, LoaderState.registered, h.others hne]

theorem Opened.region_eq (hkept : HeadersKeptIn env (path, s)) :
  pages l.base (peSizeOfImage l.nt) = pages l.base (peSizeOfImage ntCopy)
  := by
  have hkind := h.kind
  rw [h.nt] at hkind ⊢
  rw [h.base]
  apply hkept h.mapped hkind

theorem Opened.registered_mod :
  s.registered l.mod = none
  := LoaderState.registered_eq_none_iff.mpr h.free

theorem Opened.wellFormed (hwf : WellFormed s) :
  WellFormed s₁
  where
  count := by
    rw [h.count, h.registered_eq, Table.occupied_update_of_occ, Finset.card_insert_of_notMem,
      hwf.count]
    · simp [h.registered_mod]
    · rfl
  linked := by
    intro ldr hldr i hi
    rw [h.pebLdr, map_eq_some_iff] at hldr
    obtain ⟨ldr, hldr, rfl⟩ := hldr
    rw [PebLdrData.lacks_map_append, mem_singleton]
    rcases eq_or_ne i l.mod with rfl | hne
    · have hlinked := hi _ h.self
      rw [hldr] at hlinked
      cases hlinked
    · rw [LoaderState.Unlinked, h.registered_eq, update_of_ne hne] at hi
      exact ⟨hwf.linked hldr hi, hne⟩
  nodup := by
    intro ldr hldr
    rw [h.pebLdr, map_eq_some_iff] at hldr
    obtain ⟨ldr, hldr, rfl⟩ := hldr
    apply PebLdrData.nodup_map_append (hwf.nodup hldr) (hwf.lacks_of_free hldr h.registered_mod)

theorem Opened.extends :
  Extends s s₁
  where
  registered := by
    intro i m hi
    rcases eq_or_ne i l.mod with rfl | hne
    · rw [h.registered_mod] at hi
      cases hi
    · rwa [h.registered_eq, update_of_ne hne]
  pebLdr := by
    use [l.mod]
    constructor
    · intro i hi
      rw [mem_singleton] at hi
      rw [hi, h.registered_mod]
    · apply h.pebLdr
  mapped := by
    rintro x ⟨u, hu, hx⟩
    use u
    rw [h.used]
    exact ⟨mem_cons_of_mem _ (mem_cons_of_mem _ hu), hx⟩

theorem Opened.mod_lt (hext : Extends s₁ s₂)
    (hwf : WellFormed s₂) :
  l.mod.val < s₂.list.moduleCount
  := by
  have hsub : Finset.Iic l.mod ⊆ Table.occupied (fun m => m.isSome = true) s₂.registered := by
    intro j hj
    rw [Finset.mem_Iic] at hj
    rw [Table.mem_occupied, isSome_iff_exists]
    cases hreg : s₁.registered j with
    | some m => exact ⟨m, hext.registered hreg⟩
    | none =>
      rcases eq_or_lt_of_le hj with rfl | hlt
      · rw [h.self] at hreg
        cases hreg
      · rw [h.registered_eq, update_of_ne (ne_of_lt hlt),
          LoaderState.registered_eq_none_iff] at hreg
        cases h.before j hlt hreg
  have hcard := Finset.card_le_card hsub
  rw [Fin.card_Iic, ← hwf.count] at hcard
  omega

end

theorem ldrRemoveModule_spec (s : LoaderState) (i : Slot) :
  let s' := ldrRemoveModule s i
  (∃ m, s'.list = ⟨update s.list.modules i m, s.list.moduleCount⟩) ∧
    s'.used = s.used ∧ s'.image = s.image ∧ s'.fills = s.fills ∧
    ((∀ ldr, s.pebLdr = some ldr → (s.module i).ldrLinked = false → ldr.Lacks i) →
      s'.pebLdr = s.pebLdr.map fun ldr => ldr.map (·.erase i))
  := by
  have hself : ∃ m, s.list = ⟨update s.list.modules i m, s.list.moduleCount⟩ :=
    ⟨s.list.modules i, by rw [update_eq_self]⟩
  simp only [ldrRemoveModule]
  split
  · next hldr => exact ⟨hself, rfl, rfl, rfl, fun _ => by rw [hldr]; rfl⟩
  · next ldr hldr =>
    split_ifs with hlinked
    · exact ⟨⟨_, rfl⟩, rfl, rfl, rfl, fun _ => by rw [hldr]; rfl⟩
    · refine ⟨hself, rfl, rfl, rfl, ?_⟩
      intro hlacks
      obtain ⟨hload, hmemory, hinit⟩ := hlacks ldr hldr (by simpa using hlinked)
      rw [hldr, map_some, PebLdrData.map, erase_of_not_mem hload,
        erase_of_not_mem hmemory, erase_of_not_mem hinit]

theorem removeModule_update {list : ModuleList} {i : Slot} (hlt : i.val < list.moduleCount)
    (m : LoadedModule) :
  removeModule ⟨update list.modules i m, list.moduleCount⟩ i =
    ⟨update list.modules i .zero, list.moduleCount - 1⟩
  := by
  rw [removeModule, if_pos hlt, update_idem]

theorem closeDll_spec (hlt : l.mod.val < s.list.moduleCount)
    (hlinked : s.pebLdr.isSome → (s.module l.mod).ldrLinked = true) :
  let s' := closeDll l s
  s'.list = ⟨update s.list.modules l.mod .zero, s.list.moduleCount - 1⟩ ∧
    s'.pebLdr = (s.pebLdr.map fun ldr => ldr.map (·.erase l.mod)) ∧
    ∀ x, s'.Mapped x ↔
      (s.Mapped x ∧ x ∉ pages l.ntAlloc pageSize) ∧ x ∉ pages l.base (peSizeOfImage l.nt)
  := by
  obtain ⟨⟨m, hlist⟩, hused, -, -, hldr⟩ := ldrRemoveModule_spec s l.mod
  simp only [closeDll]
  and_intros
  · simp [LoaderState.munmap, LoaderState.setModule, hlist, removeModule_update hlt]
  · apply hldr
    intro ldr hsome hunlinked
    rw [hlinked (by rw [hsome]; rfl)] at hunlinked
    cases hunlinked
  · intro x
    rw [LoaderState.mapped_munmap, LoaderState.mapped_munmap]
    simp only [LoaderState.Mapped, LoaderState.setModule, hused]

theorem Opened.mapped_iff (h : Opened env path s l s₁ img ntCopy) (x : ℕ) :
  s₁.Mapped x ↔ x ∈ pages l.ntAlloc pageSize ∨ x ∈ pages l.base (peSizeOfImage ntCopy) ∨ s.Mapped x
  := by
  simp [LoaderState.Mapped, h.used]

theorem Opened.notMem_of_mapped (h : Opened env path s l s₁ img ntCopy) {x : ℕ} (hx : s.Mapped x) :
  x ∉ pages l.ntAlloc pageSize ∧ x ∉ pages l.base (peSizeOfImage ntCopy)
  := by
  obtain ⟨-, -, hapart, -, hntFree⟩ := h.pages_spec
  exact ⟨hx.notMem hntFree, hx.notMem hapart⟩

section

variable (hkept : HeadersKeptIn env (path, s)) (h : Opened env path s l s₁ img ntCopy)
  (hwf : WellFormed s) (hext : Extends s₁ s₂) (hwf₂ : WellFormed s₂)
include hkept h hwf hext hwf₂

theorem Opened.closed :
  let s₃ := closeDll l s₂
  s₃.registered = update s₂.registered l.mod none ∧
    s₃.list.moduleCount = s₂.list.moduleCount - 1 ∧
    s₃.pebLdr = (s₂.pebLdr.map fun ldr => ldr.map (·.erase l.mod)) ∧
    (∃ new, (∀ i ∈ new, s₁.registered i = none) ∧
      s₂.pebLdr = (s₁.pebLdr.map fun ldr => ldr.map (· ++ new)) ∧
      s₃.pebLdr = s.pebLdr.map fun ldr => ldr.map (· ++ new)) ∧
    ∀ x, s₃.Mapped x ↔ (s₂.Mapped x ∧ x ∉ pages l.ntAlloc pageSize) ∧
      x ∉ pages l.base (peSizeOfImage ntCopy)
  := by
  obtain ⟨new, hnew, hldr⟩ := hext.pebLdr
  have hself := hext.registered h.self
  have hlinked : s₂.pebLdr.isSome → (s₂.module l.mod).ldrLinked = true := by
    intro hsome
    obtain ⟨-, -, -, -, -, hflag⟩ := LoaderState.registered_eq_some_iff.mp hself
    rw [hflag, ← hsome, hldr, h.pebLdr, isSome_map, isSome_map]
  obtain ⟨hlist, hldr₃, hmapped⟩ := closeDll_spec (h.mod_lt hext hwf₂) hlinked
  refine ⟨LoaderState.registered_update (by rw [hlist]) rfl, by rw [hlist], hldr₃,
    ⟨new, hnew, hldr, ?_⟩, ?_⟩
  · rw [hldr₃, hldr, h.pebLdr]
    cases hs : s.pebLdr with
    | none => rfl
    | some ldr =>
      have hlacks := hwf.lacks_of_free hs h.registered_mod
      simp [PebLdrData.map_map, PebLdrData.map_erase hlacks]
  · rwa [← h.region_eq hkept]

theorem Opened.close_wellFormed :
  WellFormed (closeDll l s₂)
  := by
  obtain ⟨hreg, hcount, hldr, -⟩ := h.closed hkept hwf hext hwf₂
  apply hwf₂.remove (hext.registered h.self) hreg hcount hldr

theorem Opened.close_extends :
  Extends s (closeDll l s₂)
  := by
  obtain ⟨hreg, -, -, ⟨new, hnew, -, hldr₃⟩, hmapped⟩ := h.closed hkept hwf hext hwf₂
  constructor
  · intro i m hi
    rcases eq_or_ne i l.mod with rfl | hne
    · rw [h.registered_mod] at hi
      cases hi
    · rw [hreg, update_of_ne hne]
      apply hext.registered (h.extends.registered hi)
  · use new
    refine ⟨?_, hldr₃⟩
    intro i hi
    apply h.extends.free (hnew i hi)
  · intro x hx
    obtain ⟨hnt, himage⟩ := h.notMem_of_mapped hx
    rw [hmapped]
    exact ⟨⟨hext.mapped (h.extends.mapped hx), hnt⟩, himage⟩

theorem Opened.close_same_iff :
  SameLoader s (closeDll l s₂) ↔ SameLoader s₁ s₂
  := by
  obtain ⟨hreg, -, -, ⟨new, -, hldr, hldr₃⟩, hmapped⟩ := h.closed hkept hwf hext hwf₂
  constructor
  · intro hsame
    constructor
    · funext i
      rcases eq_or_ne i l.mod with rfl | hne
      · rw [hext.registered h.self, h.self]
      · have heq := congrFun hsame.registered i
        rw [hreg, update_of_ne hne] at heq
        rw [heq, h.registered_eq, update_of_ne hne]
    · have heq := hsame.pebLdr
      rw [hldr₃] at heq
      rw [hldr, h.pebLdr]
      cases hs : s.pebLdr with
      | none => rfl
      | some ldr =>
        rw [hs, map_some, some.injEq] at heq
        simp only [PebLdrData.map_append_eq_self heq, map_some, PebLdrData.map_append_nil]
    · intro x
      constructor
      · intro hx
        have hx₃ := hmapped x
        rw [hsame.mapped x] at hx₃
        rw [h.mapped_iff]
        tauto
      · apply hext.mapped
  · intro hsame
    constructor
    · rw [hreg, hsame.registered, h.registered_eq, update_idem,
        ← h.registered_mod, update_eq_self]
    · have heq := hsame.pebLdr
      rw [hldr] at heq
      rw [hldr₃]
      cases hs : s.pebLdr with
      | none => rfl
      | some ldr =>
        rw [h.pebLdr, hs, map_some, map_some, some.injEq] at heq
        rw [PebLdrData.map_append_eq_self heq, map_some, PebLdrData.map_append_nil]
    · intro x
      rw [hmapped, hsame.mapped, h.mapped_iff]
      have hx := fun hx => @Opened.notMem_of_mapped _ _ _ _ _ _ _ _ h x hx
      tauto

end

end

/-! ### The steps that change neither -/

/-- The two states differ at most in the images and the export caches. -/
structure Quiet (s s' : LoaderState) : Prop where
  registered : s'.registered = s.registered
  count : s'.list.moduleCount = s.list.moduleCount
  pebLdr : s'.pebLdr = s.pebLdr
  used : s'.used = s.used

theorem Quiet.trans (h : Quiet s s') (h' : Quiet s' s'') :
  Quiet s s''
  where
  registered := h'.registered.trans h.registered
  count := h'.count.trans h.count
  pebLdr := h'.pebLdr.trans h.pebLdr
  used := h'.used.trans h.used

theorem Quiet.same (h : Quiet s s') :
  SameLoader s s'
  where
  registered := h.registered
  pebLdr := h.pebLdr
  mapped x := by rw [LoaderState.Mapped, h.used, LoaderState.Mapped]

theorem Quiet.same_iff (h : Quiet s' s'') :
  SameLoader s s'' ↔ SameLoader s s'
  := ⟨fun hsame => hsame.trans h.same.symm, fun hsame => hsame.trans h.same⟩

theorem Quiet.wellFormed (h : Quiet s s') (hwf : WellFormed s) :
  WellFormed s'
  := hwf.congr h.registered h.count h.pebLdr

theorem quiet_bindImports (env : Env b) (l : Loading) (s : LoaderState) :
  Quiet s (bindImports env l s).2
  where
  registered := rfl
  count := rfl
  pebLdr := rfl
  used := rfl

/-- The two states differ at most in the slot `mod`, and not in what the registry says of it. -/
structure QuietAt (mod : Slot) (s s' : LoaderState) : Prop extends Quiet s s' where
  others : ∀ {j}, j ≠ mod → s'.module j = s.module j
  image : s'.image = s.image
  fills : s'.fills = s.fills

theorem QuietAt.refl (mod : Slot) (s : LoaderState) :
  QuietAt mod s s
  := ⟨⟨rfl, rfl, rfl, rfl⟩, fun _ => rfl, rfl, rfl⟩

theorem QuietAt.trans {mod : Slot} (h : QuietAt mod s s') (h' : QuietAt mod s' s'') :
  QuietAt mod s s''
  where
  __ := h.toQuiet.trans h'.toQuiet
  others hj := (h'.others hj).trans (h.others hj)
  image := h'.image.trans h.image
  fills := h'.fills.trans h.fills

theorem quietAt_setModule {i : Slot} {m : LoadedModule} (hbase : m.base = (s.module i).base)
    (hname : m.name = (s.module i).name) (hnt : m.nt = (s.module i).nt)
    (hcount : m.loadCount = (s.module i).loadCount)
    (hlinked : m.ldrLinked = (s.module i).ldrLinked) :
  QuietAt i s (s.setModule i m)
  where
  others hj := update_of_ne hj ..
  image := rfl
  fills := rfl
  registered := by
    funext j
    rcases eq_or_ne j i with rfl | hne
    · have hself : (s.setModule j m).module j = m := update_self ..
      rw [LoaderState.registered, LoaderState.registered, hself, LoadedModule.info, hbase, hname,
        hnt, hcount, hlinked, LoadedModule.info]
    · have hother : (s.setModule i m).module j = s.module j := update_of_ne hne ..
      rw [LoaderState.registered, LoaderState.registered, hother]
  count := rfl
  pebLdr := rfl
  used := rfl

theorem parseExportTable_snd (m : LoadedModule) (img : Bytes) :
  ∃ cache, (parseExportTable m img).2 = { m with exportCache := cache }
  := by
  simp only [parseExportTable]
  repeat' split
  all_goals exact ⟨_, rfl⟩

theorem quietAt_parseExports (i : Slot) (s : LoaderState) :
  QuietAt i s (parseExports i s)
  := by
  obtain ⟨cache, hcache⟩ := parseExportTable_snd (s.module i) (s.image (s.module i).base)
  rw [parseExports, hcache]
  exact quietAt_setModule rfl rfl rfl rfl rfl

theorem quietAt_ensureExports (l : Loading) (s : LoaderState) :
  QuietAt l.mod s (ensureExports l s)
  := by
  rw [ensureExports]
  split_ifs
  · apply quietAt_parseExports
  · apply QuietAt.refl

end

end Loader
