import MyWine.Loader.LoadedDll

/-!
# What a load leaves alone

The images of the registered modules are mapped and apart from one another (`Placed`).  A load keeps
that, and it leaves the modules alone that were registered before it: their slots, the bytes of
their images and the record of their filled IAT slots.  The images of the modules that it registers
lie where nothing was mapped (`Grows`).

The load of a DLL changes the module that it has registered itself until it returns, so that the
relation has a slot `ex` that it leaves out.
-/

open Pe SyscallSafe

namespace Loader

open Function Option

def ModuleInfo.region (m : ModuleInfo) : Region := pages m.base (m.nt.elim 0 peSizeOfImage)

/-- The images of the registered modules are mapped and apart from one another. -/
structure Placed (s : LoaderState) : Prop where
  wellFormed : WellFormed s
  pos : ∀ {i m}, s.registered i = some m → 0 < m.region.size
  mapped : ∀ {i m}, s.registered i = some m → ∀ x ∈ m.region, s.Mapped x
  apart : ∀ {i j m m'}, s.registered i = some m → s.registered j = some m' → i ≠ j →
    m.region.Apart m'.region

/-- Modules have been registered where nothing was mapped, and the ones that were registered before
are as they were, except for the module in the slot `ex`. -/
structure Grows (ex : Option Slot) (s s' : LoaderState) : Prop extends Extends s s' where
  module : ∀ {i m}, s.registered i = some m → ex ≠ some i → s'.module i = s.module i
  image : ∀ {i m}, s.registered i = some m → ex ≠ some i → s'.image m.base = s.image m.base
  fills : ∀ {i m}, s.registered i = some m → ex ≠ some i → s'.fills m.base = s.fills m.base
  fresh : ∀ {i m}, s.registered i = none → s'.registered i = some m →
    ∀ x ∈ m.region, ¬ s.Mapped x

def LoaderState.regions (s : LoaderState) (i : Slot) : Option Region :=
  (s.registered i).map ModuleInfo.region

section

variable {ex : Option Slot} {s s' s'' : LoaderState}

/-- The registered modules own the regions of their images. -/
theorem placed_iff_owns :
  Placed s ↔ WellFormed s ∧ Region.Owns s.regions s.used
  := by
  constructor
  · intro h
    use h.wellFormed
    constructor
    · simp only [LoaderState.regions, map_eq_some_iff]
      rintro _ _ ⟨m, hm, rfl⟩
      apply h.pos hm
    · simp only [LoaderState.regions, map_eq_some_iff]
      rintro _ _ ⟨m, hm, rfl⟩
      apply h.mapped hm
    · simp only [LoaderState.regions, map_eq_some_iff]
      rintro _ _ _ _ ⟨m, hm, rfl⟩ ⟨m', hm', rfl⟩
      apply h.apart hm hm'
  · rintro ⟨hwf, h⟩
    have hregion {i m} (hi : s.registered i = some m) : s.regions i = some m.region := by
      rw [LoaderState.regions, hi, map_some]
    exact ⟨hwf, fun hi => h.pos (hregion hi), fun hi => h.mapped (hregion hi),
      fun hi hj => h.apart (hregion hi) (hregion hj)⟩

theorem Placed.base_mem (h : Placed s) {i : Slot} {m : ModuleInfo} (hi : s.registered i = some m) :
  m.base ∈ m.region
  := by
  have hpos := h.pos hi
  exact ⟨Nat.le_refl _, Nat.lt_add_of_pos_right hpos⟩

theorem Placed.base_ne (h : Placed s) {i j : Slot} {m m' : ModuleInfo}
    (hi : s.registered i = some m) (hj : s.registered j = some m') (hne : i ≠ j) :
  m.base ≠ m'.base
  := by
  intro heq
  apply (h.apart hi hj hne).notMem (h.base_mem hi)
  rw [heq]
  apply h.base_mem hj

theorem SameLoader.placed (h : SameLoader s s') (hwf : WellFormed s') (hplaced : Placed s) :
  Placed s'
  := by
  have hregions : s'.regions = s.regions := by
    funext i
    rw [LoaderState.regions, h.registered, LoaderState.regions]
  rw [placed_iff_owns, hregions]
  exact ⟨hwf, (placed_iff_owns.mp hplaced).2.mono fun x => (h.mapped x).mpr⟩

theorem Quiet.placed (h : Quiet s s') (hplaced : Placed s) :
  Placed s'
  := h.same.placed (h.wellFormed hplaced.wellFormed) hplaced

theorem SameLoader.grows (h : SameLoader s s')
    (hmodule : ∀ {i m}, s.registered i = some m → ex ≠ some i → s'.module i = s.module i)
    (himage : ∀ {i m}, s.registered i = some m → ex ≠ some i → s'.image m.base = s.image m.base)
    (hfills : ∀ {i m}, s.registered i = some m → ex ≠ some i → s'.fills m.base = s.fills m.base) :
  Grows ex s s'
  where
  __ := h.extends
  module := hmodule
  image := himage
  fills := hfills
  fresh hnone hsome := by
    rw [h.registered, hnone] at hsome
    cases hsome

/-- A registered module was registered before, or its image lies where nothing was mapped. -/
theorem Grows.cases {i : Slot} {m : ModuleInfo} (h : Grows ex s s')
    (hi : s'.registered i = some m) :
  s.registered i = some m ∨ s.registered i = none ∧ ∀ x ∈ m.region, ¬ s.Mapped x
  := by
  cases hs : s.registered i with
  | none => exact Or.inr ⟨rfl, h.fresh hs hi⟩
  | some m' =>
    left
    rw [← h.registered hs, hi]

theorem Grows.refl (ex : Option Slot) (s : LoaderState) :
  Grows ex s s
  := (SameLoader.refl s).grows (fun _ _ => rfl) (fun _ _ => rfl) fun _ _ => rfl

theorem Grows.trans (h : Grows ex s s') (h' : Grows ex s' s'') :
  Grows ex s s''
  where
  __ := h.toExtends.trans h'.toExtends
  module hi hne := (h'.module (h.registered hi) hne).trans (h.module hi hne)
  image hi hne := (h'.image (h.registered hi) hne).trans (h.image hi hne)
  fills hi hne := (h'.fills (h.registered hi) hne).trans (h.fills hi hne)
  fresh := by
    intro i m hnone hsome x hx hmapped
    rcases h'.cases hsome with hi | ⟨-, hfresh⟩
    · apply h.fresh hnone hi x hx hmapped
    · apply hfresh x hx (h.mapped hmapped)

theorem Grows.weaken (h : Grows none s s') (ex : Option Slot) :
  Grows ex s s'
  where
  __ := h.toExtends
  module hi _ := h.module hi (some_ne_none _).symm
  image hi _ := h.image hi (some_ne_none _).symm
  fills hi _ := h.fills hi (some_ne_none _).symm
  fresh := h.fresh

theorem Grows.of_free {mod : Slot} (h : Grows (some mod) s s') (hfree : s.registered mod = none) :
  Grows none s s'
  := by
  have hne : ∀ {i m}, s.registered i = some m → some mod ≠ some i := by
    rintro i m hi ⟨⟩
    rw [hfree] at hi
    cases hi
  exact ⟨h.toExtends, fun hi _ => h.module hi (hne hi), fun hi _ => h.image hi (hne hi),
    fun hi _ => h.fills hi (hne hi), h.fresh⟩

end

/-! ### The steps of a load -/

section

variable {b : Build} {env : Env b} {path : CString} {s s₁ s₂ : LoaderState} {l : Loading}
  {img : Image} {ntCopy : ImageNtHeaders}

variable {m : ModuleInfo}

theorem Opened.base_ne (h : Opened env path s l s₁ img ntCopy) (hplaced : Placed s) {i : Slot}
    (hi : s.registered i = some m) :
  m.base ≠ l.base
  := by
  intro heq
  apply h.base_notMapped
  rw [← heq]
  apply hplaced.mapped hi _ (hplaced.base_mem hi)

theorem Opened.placed (hkept : HeadersKept env) (h : Opened env path s l s₁ img ntCopy)
    (hplaced : Placed s) :
  Placed s₁
  := by
  obtain ⟨-, hpos, hapart, -, -⟩ := h.pages_spec
  have hregions : s₁.regions = update s.regions l.mod (some (pages l.base (peSizeOfImage ntCopy))) := by
    funext i
    rw [LoaderState.regions, h.registered_eq, ← h.region_eq (hkept.call _), update_apply, update_apply]
    split_ifs
    · rfl
    · rfl
  rw [placed_iff_owns, hregions, h.used]
  use h.wellFormed hplaced.wellFormed
  apply ((placed_iff_owns.mp hplaced).2.insert hpos hapart l.mod).mono
  rintro x ⟨u, hu, hx⟩
  exact ⟨u, List.mem_cons_of_mem _ hu, hx⟩

theorem Opened.grows (hkept : HeadersKept env) (h : Opened env path s l s₁ img ntCopy)
    (hplaced : Placed s) :
  Grows none s s₁
  where
  __ := h.extends
  module hi _ := by
    apply h.others
    rintro rfl
    rw [h.registered_mod] at hi
    cases hi
  image hi _ := by rw [h.image, update_of_ne (h.base_ne hplaced hi)]
  fills hi _ := by rw [h.fills, update_of_ne (h.base_ne hplaced hi)]
  fresh := by
    intro i m hnone hsome x hx hmapped
    rcases eq_or_ne i l.mod with rfl | hne
    · rw [h.self, some.injEq] at hsome
      subst hsome
      apply (h.notMem_of_mapped hmapped).2
      rwa [← h.region_eq (hkept.call _)]
    · rw [h.registered_eq, update_of_ne hne, hnone] at hsome
      cases hsome

theorem closeDll_frame (l : Loading) (s : LoaderState) :
  (∀ {j}, j ≠ l.mod → (closeDll l s).module j = s.module j) ∧
    (closeDll l s).image = s.image ∧ (closeDll l s).fills = s.fills
  := by
  obtain ⟨⟨m, hlist⟩, -, himage, hfills, -⟩ := ldrRemoveModule_spec s l.mod
  refine ⟨?_, himage, hfills⟩
  intro j hj
  simp only [closeDll, LoaderState.munmap, LoaderState.module, LoaderState.setModule, hlist,
    update_idem]
  simp only [removeModule]
  split_ifs
  · simp only [update_of_ne hj]
  · simp only [update_of_ne hj]

theorem Opened.ntAlloc_notMem (h : Opened env path s l s₁ img ntCopy) (hplaced : Placed s)
    (hgrows : Grows (some l.mod) s₁ s₂) {j : Slot} (hj : s₂.registered j = some m) (hne : j ≠ l.mod)
    {x : ℕ} (hx : x ∈ m.region) :
  x ∉ pages l.ntAlloc pageSize
  := by
  intro hnt
  rcases hgrows.cases hj with hj₁ | ⟨-, hfresh⟩
  · rw [h.registered_eq, update_of_ne hne] at hj₁
    apply (h.notMem_of_mapped (hplaced.mapped hj₁ x hx)).1 hnt
  · exact hfresh x hx ((h.mapped_iff x).mpr (Or.inl hnt))

section

variable (hkept : HeadersKept env) (h : Opened env path s l s₁ img ntCopy) (hplaced : Placed s)
  (hgrows : Grows (some l.mod) s₁ s₂) (hplaced₂ : Placed s₂)
include hkept h hplaced hgrows hplaced₂

theorem Opened.registered_of_close {i : Slot} (hi : (closeDll l s₂).registered i = some m) :
  i ≠ l.mod ∧ s₂.registered i = some m
  := by
  obtain ⟨hreg, -⟩ := h.closed (hkept.call _) hplaced.wellFormed hgrows.toExtends hplaced₂.wellFormed
  rwa [hreg, update_apply, Option.ite_none_left_eq_some] at hi

theorem Opened.close_placed :
  Placed (closeDll l s₂)
  := by
  obtain ⟨-, -, -, -, hmapped⟩ := h.closed (hkept.call _) hplaced.wellFormed hgrows.toExtends
    hplaced₂.wellFormed
  have hself := hgrows.registered h.self
  have hother {i m} := @h.registered_of_close _ _ _ _ _ _ _ _ _ m hkept hplaced hgrows hplaced₂ i
  constructor
  · apply h.close_wellFormed (hkept.call _) hplaced.wellFormed hgrows.toExtends hplaced₂.wellFormed
  · intro i m hi
    apply hplaced₂.pos (hother hi).2
  · intro i m hi x hx
    obtain ⟨hne, hi⟩ := hother hi
    rw [hmapped]
    refine ⟨⟨hplaced₂.mapped hi x hx, h.ntAlloc_notMem hplaced hgrows hi hne hx⟩, ?_⟩
    rw [← h.region_eq (hkept.call _)]
    apply (hplaced₂.apart hi hself hne).notMem hx
  · intro i j m m' hi hj
    apply hplaced₂.apart (hother hi).2 (hother hj).2

theorem Opened.close_grows :
  Grows none s (closeDll l s₂)
  := by
  obtain ⟨hmodule, himage, hfills⟩ := closeDll_frame l s₂
  have hall := (((h.grows hkept hplaced).weaken (some l.mod)).trans hgrows).of_free
    h.registered_mod
  have hne : ∀ {i m}, s.registered i = some m → i ≠ l.mod := by
    rintro i m hi rfl
    rw [h.registered_mod] at hi
    cases hi
  constructor
  · apply h.close_extends (hkept.call _) hplaced.wellFormed hgrows.toExtends hplaced₂.wellFormed
  · intro i m hi hex
    rw [hmodule (hne hi)]
    apply hall.module hi hex
  · intro i m hi hex
    rw [himage]
    apply hall.image hi hex
  · intro i m hi hex
    rw [hfills]
    apply hall.fills hi hex
  · intro i m hnone hsome
    apply hall.fresh hnone (h.registered_of_close hkept hplaced hgrows hplaced₂ hsome).2

end

theorem QuietAt.grows {mod : Slot} {s' : LoaderState} (h : QuietAt mod s s') :
  Grows (some mod) s s'
  := by
  apply h.same.grows
  · intro i m _ hex
    apply h.others
    rintro rfl
    exact hex rfl
  · intro i m _ _
    rw [h.image]
  · intro i m _ _
    rw [h.fills]

theorem grows_bindImports (env : Env b) (hplaced : Placed s) (hself : s.registered l.mod = some m)
    (hbase : m.base = l.base) :
  Grows (some l.mod) s (bindImports env l s).2
  := by
  have hne : ∀ {i m'}, s.registered i = some m' → some l.mod ≠ some i → m'.base ≠ l.base := by
    intro i m' hi hex
    rw [← hbase]
    apply hplaced.base_ne hi hself
    rintro rfl
    exact hex rfl
  apply (quiet_bindImports env l s).same.grows
  · intro i m' _ _
    rfl
  · intro i m' hi hex
    apply update_of_ne (hne hi hex)
  · intro i m' hi hex
    apply update_of_ne (hne hi hex)

/-! ### Whole loads -/

/-- What a load leaves alone. -/
structure FrameSpec (load : CString → LoaderState → Option Slot × LoaderState) : Prop where
  placed : ∀ {path s}, Placed s → Placed (load path s).2
  grows : ∀ {path s}, Placed s → Grows none s (load path s).2

theorem FrameSpec.resolve {load : CString → LoaderState → Option Slot × LoaderState}
    (h : FrameSpec load) (hplaced : Placed s) (hself : s.registered l.mod = some m)
    (hbase : m.base = l.base) :
  Placed (resolveModuleImports env load l s).2 ∧
    Grows (some l.mod) s (resolveModuleImports env load l s).2
  := by
  apply resolveModuleImports_of_invariant env fun s' => Placed s' ∧ Grows (some l.mod) s s'
  · rintro path s' ⟨hplaced', hgrows⟩
    exact ⟨h.placed hplaced', hgrows.trans ((h.grows hplaced').weaken _)⟩
  · rintro s' ⟨hplaced', hgrows⟩
    refine ⟨(quiet_bindImports env l s').placed hplaced', ?_⟩
    apply hgrows.trans (grows_bindImports env hplaced' (hgrows.registered hself) hbase)
  · rintro s' ⟨hplaced', hgrows⟩
    have hparse := quietAt_parseExports l.mod s'
    exact ⟨hparse.toQuiet.placed hplaced', hgrows.trans hparse.grows⟩
  · exact ⟨hplaced, Grows.refl _ s⟩

theorem openDll_none_grows (hkept : HeadersKept env) (hplaced : Placed s)
    (hopen : openDll env path s = (none, s₁)) :
  Placed s₁ ∧ Grows none s s₁
  := by
  obtain ⟨hlist, hsame⟩ := openDll_none (hkept.call _) hopen
  have hwf := hplaced.wellFormed.congr hsame.registered (by rw [hlist]) hsame.pebLdr
  have hkeep : ∀ {i m}, s.registered i = some m →
      s₁.image m.base = s.image m.base ∧ s₁.fills m.base = s.fills m.base :=
    fun hi => openDll_none_image hopen (hplaced.mapped hi _ (hplaced.base_mem hi))
  refine ⟨hsame.placed hwf hplaced, hsame.grows ?_ ?_ ?_⟩
  · intro i m _ _
    rw [LoaderState.module, LoaderState.module, hlist]
  · intro i m hi _
    apply (hkeep hi).1
  · intro i m hi _
    apply (hkeep hi).2

theorem loadDllWith_frame (hkept : HeadersKept env)
    {resolve : Loading → LoaderState → Bool × LoaderState}
    (hresolve : ∀ l s m, Placed s → s.registered l.mod = some m → m.base = l.base →
      Placed (resolve l s).2 ∧ Grows (some l.mod) s (resolve l s).2) :
  FrameSpec (loadDllWith env resolve)
  := by
  have hboth : ∀ path s, Placed s → Placed (loadDllWith env resolve path s).2 ∧
      Grows none s (loadDllWith env resolve path s).2 := by
    intro path s hplaced
    rcases hopen : openDll env path s with ⟨_ | l, s₁⟩
    · have hload : loadDllWith env resolve path s = (none, s₁) := by rw [loadDllWith, hopen]
      rw [hload]
      apply openDll_none_grows hkept hplaced hopen
    · obtain ⟨img, ntCopy, hopened⟩ := openDll_some hopen
      have hplaced₁ := hopened.placed hkept hplaced
      obtain ⟨hplaced', hgrows'⟩ := hresolve l s₁ _ hplaced₁ hopened.self rfl
      obtain ⟨s₂, hquiet, hload⟩ := @loadDllWith_cases _ env resolve path s s₁ l hopen
      have hplaced₂ := hquiet.toQuiet.placed hplaced'
      have hgrows := hgrows'.trans hquiet.grows
      rcases hload with ⟨-, hload⟩ | hload
      · rw [hload]
        refine ⟨hplaced₂, ?_⟩
        exact (((hopened.grows hkept hplaced).weaken _).trans hgrows).of_free
          hopened.registered_mod
      · rw [hload]
        exact ⟨hopened.close_placed hkept hplaced hgrows hplaced₂,
          hopened.close_grows hkept hplaced hgrows hplaced₂⟩
  exact ⟨fun h => (hboth _ _ h).1, fun h => (hboth _ _ h).2⟩

theorem frameSpec (hkept : HeadersKept env) (depth : ℤ) :
  FrameSpec fun path => loadDll env path depth
  := by
  apply loadDll_induction env (P := FrameSpec)
  · apply loadDllWith_frame hkept
    intro l s m hplaced _ _
    exact ⟨hplaced, Grows.refl _ s⟩
  · intro load hload
    apply loadDllWith_frame hkept
    intro l s m hplaced hself hbase
    apply hload.resolve hplaced hself hbase

theorem loadDll_some_grows (hkept : HeadersKept env) (hplaced : Placed s) {depth : ℤ} {i : Slot}
    {s' : LoaderState} (h : loadDll env path depth s = (some i, s')) :
  ∃ l s₁ img ntCopy, Opened env path s l s₁ img ntCopy ∧ i = l.mod ∧ Placed s' ∧
    Grows (some l.mod) s₁ s'
  := by
  obtain ⟨l, s₁, s₂, img, ntCopy, hopened, rfl, hresolve, hquiet⟩ := loadDll_some h
  have hframe : Placed (resolveModuleImports env (fun path => loadDll env path (depth + 2)) l s₁).2 ∧
      Grows (some l.mod) s₁
        (resolveModuleImports env (fun path => loadDll env path (depth + 2)) l s₁).2 :=
    (frameSpec hkept (depth + 2)).resolve (hopened.placed hkept hplaced) hopened.self rfl
  rw [hresolve] at hframe
  obtain ⟨hplaced₂, hgrows⟩ := hframe
  exact ⟨l, s₁, img, ntCopy, hopened, rfl, hquiet.toQuiet.placed hplaced₂,
    hgrows.trans hquiet.grows⟩

/-- Loads, whether they succeed or fail, leave the registered modules and their images as they are, and
register other modules only where nothing was mapped. -/
theorem loads_grow (hkept : HeadersKept env) (hplaced : Placed s) (loads : List (CString × ℤ)) :
  let s' := loads.foldl (fun s l => (loadDll env l.1 l.2 s).2) s
  Placed s' ∧ Grows none s s'
  := by
  apply loads.foldlRecOn (motive := fun s' => Placed s' ∧ Grows none s s')
  · exact ⟨hplaced, Grows.refl none s⟩
  · rintro s' ⟨hplaced', hgrows⟩ l _
    have hframe := frameSpec hkept l.2
    exact ⟨hframe.placed hplaced', hgrows.trans (hframe.grows hplaced')⟩

end

end Loader
