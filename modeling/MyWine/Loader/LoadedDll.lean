import MyWine.Loader.FailedLoad

/-!
# Loads that succeed

A load that succeeds has succeeded in every step: the DLL was opened, every DLL that it imports was
registered or has been loaded, its imports were bound and its exports parsed (`loadDllWith_some`,
`resolveModuleImports_some`).  Nothing is cleaned up in such a load, so that it leaves all modules
alone that were registered and all images that were mapped, whatever the headers of the images say
(`loadDll_keeps`).
-/

open Pe SyscallSafe

namespace Loader

open Function Option

/-- Modules have been registered and images mapped, and what there was before is as it was, except
for the module and the image of the DLL `ex` that is being loaded. -/
structure Keeps (ex : Option Loading) (s s' : LoaderState) : Prop extends Extends s s' where
  module : ∀ {i m}, s.registered i = some m → (∀ l ∈ ex, i ≠ l.mod) → s'.module i = s.module i
  image : ∀ {a}, s.Mapped a → (∀ l ∈ ex, a ≠ l.base) →
    s'.image a = s.image a ∧ s'.fills a = s.fills a
  fresh : ∀ {i m}, s.registered i = none → s'.registered i = some m →
    ¬ s.Mapped m.base ∧ s'.Mapped m.base
  wellFormed : WellFormed s → WellFormed s'

section

variable {ex : Option Loading} {s s' s'' : LoaderState}

theorem Keeps.refl (ex : Option Loading) (s : LoaderState) :
  Keeps ex s s
  where
  __ := (SameLoader.refl s).extends
  module _ _ := rfl
  image _ _ := ⟨rfl, rfl⟩
  fresh hnone hsome := by
    rw [hnone] at hsome
    cases hsome
  wellFormed h := h

theorem Keeps.trans_of {ex' : Option Loading} (h : Keeps ex s s') (h' : Keeps ex' s' s'')
    (hmod : ∀ {i m}, s.registered i = some m → (∀ l ∈ ex, i ≠ l.mod) → ∀ l ∈ ex', i ≠ l.mod)
    (hbase : ∀ {a}, s.Mapped a → (∀ l ∈ ex, a ≠ l.base) → ∀ l ∈ ex', a ≠ l.base) :
  Keeps ex s s''
  where
  __ := h.toExtends.trans h'.toExtends
  module hi hex := (h'.module (h.registered hi) (hmod hi hex)).trans (h.module hi hex)
  image ha hex := by
    obtain ⟨himage, hfills⟩ := h.image ha hex
    obtain ⟨himage', hfills'⟩ := h'.image (h.mapped ha) (hbase ha hex)
    exact ⟨himage'.trans himage, hfills'.trans hfills⟩
  fresh := by
    intro i m hnone hsome
    cases hi : s'.registered i with
    | none =>
      obtain ⟨hnot, hmapped⟩ := h'.fresh hi hsome
      exact ⟨fun hm => hnot (h.mapped hm), hmapped⟩
    | some m' =>
      rw [h'.registered hi, some.injEq] at hsome
      subst hsome
      obtain ⟨hnot, hmapped⟩ := h.fresh hnone hi
      exact ⟨hnot, h'.mapped hmapped⟩
  wellFormed hwf := h'.wellFormed (h.wellFormed hwf)

theorem Keeps.trans (h : Keeps ex s s') (h' : Keeps ex s' s'') :
  Keeps ex s s''
  := h.trans_of h' (fun _ hex => hex) fun _ hex => hex

theorem Keeps.weaken (h : Keeps none s s') (ex : Option Loading) :
  Keeps ex s s'
  where
  __ := h.toExtends
  module hi _ := h.module hi (by simp)
  image ha _ := h.image ha (by simp)
  fresh := h.fresh
  wellFormed := h.wellFormed

end

section

variable {b : Build} {env : Env b} {load : CString → LoaderState → Option Slot × LoaderState}
  {path : CString} {s s₁ s₂ s' : LoaderState} {l : Loading} {img : Image} {ntCopy : ImageNtHeaders}

/-! ### The steps -/

theorem Opened.base_notMapped (h : Opened env path s l s₁ img ntCopy) :
  ¬ s.Mapped l.base
  := by
  intro hmapped
  obtain ⟨-, hpos, hapart, -, -⟩ := h.pages_spec
  apply hmapped.notMem hapart
  exact ⟨Nat.le_refl _, Nat.lt_add_of_pos_right hpos⟩

theorem Opened.base_mapped (h : Opened env path s l s₁ img ntCopy) :
  s₁.Mapped l.base
  := by
  obtain ⟨-, hpos, -, -, -⟩ := h.pages_spec
  rw [h.mapped_iff]
  right
  left
  exact ⟨Nat.le_refl _, Nat.lt_add_of_pos_right hpos⟩

theorem Opened.keeps (h : Opened env path s l s₁ img ntCopy) :
  Keeps none s s₁
  where
  __ := h.extends
  module hi _ := by
    apply h.others
    rintro rfl
    rw [h.registered_mod] at hi
    cases hi
  image ha _ := by
    have hne : _ ≠ l.base := fun heq => h.base_notMapped (heq ▸ ha)
    rw [h.image, h.fills, update_of_ne hne, update_of_ne hne]
    exact ⟨rfl, rfl⟩
  fresh := by
    intro i m hnone hsome
    rcases eq_or_ne i l.mod with rfl | hne
    · rw [h.self, some.injEq] at hsome
      subst hsome
      exact ⟨h.base_notMapped, h.base_mapped⟩
    · rw [h.registered_eq, update_of_ne hne, hnone] at hsome
      cases hsome
  wellFormed := h.wellFormed

theorem Keeps.of_opened (h : Keeps (some l) s₁ s') (hopened : Opened env path s l s₁ img ntCopy) :
  Keeps none s s'
  := by
  apply hopened.keeps.trans_of h
  · rintro i m hi - _ ⟨⟩ rfl
    rw [hopened.registered_mod] at hi
    cases hi
  · rintro a ha - _ ⟨⟩ rfl
    exact hopened.base_notMapped ha

variable {i : Slot} {depth : ℤ}

theorem Quiet.fresh (h : Quiet s s') {m : ModuleInfo} (hnone : s.registered i = none)
    (hsome : s'.registered i = some m) :
  ¬ s.Mapped m.base ∧ s'.Mapped m.base
  := by
  rw [h.registered, hnone] at hsome
  cases hsome

theorem keeps_bindImports (env : Env b) (l : Loading) (s : LoaderState) :
  Keeps (some l) s (bindImports env l s).2
  where
  __ := (quiet_bindImports env l s).same.extends
  module _ _ := rfl
  image _ hex := by
    have hne := hex l rfl
    exact ⟨update_of_ne hne .., update_of_ne hne ..⟩
  fresh := (quiet_bindImports env l s).fresh
  wellFormed := (quiet_bindImports env l s).wellFormed

theorem QuietAt.keeps (h : QuietAt l.mod s s') :
  Keeps (some l) s s'
  where
  __ := h.same.extends
  module _ hex := h.others (hex l rfl)
  image _ _ := by
    rw [h.image, h.fills]
    exact ⟨rfl, rfl⟩
  fresh := h.toQuiet.fresh
  wellFormed := h.toQuiet.wellFormed

/-! ### The parts of a load that succeeds -/

theorem loadDllWith_some {resolve : Loading → LoaderState → Bool × LoaderState}
    (h : loadDllWith env resolve path s = (some i, s')) :
  ∃ l s₁ s₂, openDll env path s = (some l, s₁) ∧ resolve l s₁ = (true, s₂) ∧
    attachDll env l s₂ = (some l.mod, s') ∧ i = l.mod ∧ QuietAt l.mod s₂ s'
  := by
  rw [loadDllWith] at h
  split at h
  · cases h
  · next l s₁ hopen =>
    split at h
    · cases h
    · next s₂ hresolve =>
      obtain ⟨s₃, hquiet, hattach | hattach⟩ := attachDll_cases env l s₂
      · rw [hattach] at h
        cases h
        exact ⟨l, s₁, s₂, hopen, hresolve, hattach, rfl, hquiet⟩
      · rw [hattach] at h
        cases h

theorem resolveModuleImports_some (h : resolveModuleImports env load l s = (true, s')) :
  importDirOk l.nt = false ∧ (importDir l.nt).size = 0 ∧ s' = s ∨
    importDirOk l.nt = true ∧ ∃ s₁ s₂,
      (dependencyLoop env load l (importDir l.nt)).run (0, s) = (true, s₁) ∧
      bindImports env l s₁ = (true, s₂) ∧ s' = parseExports l.mod s₂
  := by
  rw [resolveModuleImports_eq] at h
  split_ifs at h with hok
  · right
    use hok
    split at h
    · cases h
    · next s₁ hrun =>
      split at h
      · cases h
      · next s₂ hbind =>
        cases h
        exact ⟨s₁, s₂, hrun, hbind, rfl⟩
  · left
    rw [Prod.mk.injEq, decide_eq_true_eq] at h
    exact ⟨by simpa using hok, h.1, h.2.symm⟩

theorem loadDependency_some {dllName : CString} (h : loadDependency env load dllName s = (true, s')) :
  isMissing s dllName = false ∧ s' = s ∨
    isMissing s dllName = true ∧ ∃ path i, env.findDllPath dllName = some path ∧
      load path s = (some i, s')
  := by
  cases hmissing : isMissing s dllName with
  | false =>
    rw [loadDependency_of_not_missing env hmissing, Prod.mk.injEq] at h
    exact Or.inl ⟨rfl, h.2.symm⟩
  | true =>
    rw [loadDependency_of_missing env hmissing] at h
    right
    use rfl
    split at h
    · cases h
    · next path hpath =>
      rw [Prod.mk.injEq, isSome_iff_exists] at h
      obtain ⟨⟨i, hi⟩, rfl⟩ := h
      exact ⟨path, i, hpath, Prod.ext hi rfl⟩

theorem dependencyLoop_of_success {dir : ImageDataDirectory} {off : ℕ} (Inv : LoaderState → Prop)
    (hload : ∀ path s i s', Inv s → load path s = (some i, s') → Inv s') (hs : Inv s)
    (hrun : (dependencyLoop env load l dir).run (off, s) = (true, s')) :
  Inv s'
  := by
  have hdependency : ∀ {dllName s s'}, Inv s → loadDependency env load dllName s = (true, s') →
      Inv s' := by
    intro dllName s s' hs hdep
    rcases loadDependency_some hdep with ⟨-, rfl⟩ | ⟨-, path, i, -, hpath⟩
    · apply hs
    · apply hload path s i s' hs hpath
  have hpost : ((dependencyLoop env load l dir).run (off, s)).1 = true →
      Inv ((dependencyLoop env load l dir).run (off, s)).2 := by
    apply While.run_of_invariant (fun p : ℕ × LoaderState => Inv p.2)
      fun r : Bool × LoaderState => r.1 = true → Inv r.2
    · intro p p' hp hround
      obtain ⟨-, -, s', hdep, rfl⟩ := dependencyRound_inl env load hround
      apply hdependency hp hdep
    · rintro p ⟨ok, s'⟩ hp hround hok
      rcases dependencyRound_inr env load hround with ⟨rfl, -⟩ | ⟨hfalse, -⟩
      · apply hp
      · rw [show ok = true from hok] at hfalse
        cases hfalse
    · apply hs
  rw [hrun] at hpost
  apply hpost rfl

/-! ### Whole loads -/

def SuccessKeeps (load : CString → LoaderState → Option Slot × LoaderState) : Prop :=
  ∀ ⦃path s i s'⦄, load path s = (some i, s') → Keeps none s s'

theorem SuccessKeeps.dependencyLoop (h : SuccessKeeps load) {dir : ImageDataDirectory} {off : ℕ}
    (hrun : (dependencyLoop env load l dir).run (off, s) = (true, s')) :
  Keeps none s s'
  := by
  apply dependencyLoop_of_success (fun s' => Keeps none s s') _ (Keeps.refl none s) hrun
  intro path s₁ i s₂ hkeeps hload
  apply hkeeps.trans (h hload)

theorem SuccessKeeps.resolve (h : SuccessKeeps load)
    (hresolve : resolveModuleImports env load l s = (true, s')) :
  Keeps (some l) s s'
  := by
  rcases resolveModuleImports_some hresolve with ⟨-, -, rfl⟩ | ⟨-, s₁, s₂, hrun, hbind, rfl⟩
  · apply Keeps.refl
  · have hbound := keeps_bindImports env l s₁
    rw [hbind] at hbound
    apply (((h.dependencyLoop hrun).weaken _).trans hbound).trans
    apply (quietAt_parseExports l.mod s₂).keeps

theorem loadDllWith_keeps {resolve : Loading → LoaderState → Bool × LoaderState}
    (hresolve : ∀ ⦃l s s'⦄, resolve l s = (true, s') → Keeps (some l) s s') :
  SuccessKeeps (loadDllWith env resolve)
  := by
  intro path s i s' hload
  obtain ⟨l, s₁, s₂, hopen, hres, -, -, hquiet⟩ := loadDllWith_some hload
  obtain ⟨img, ntCopy, hopened⟩ := openDll_some hopen
  apply Keeps.of_opened _ hopened
  apply (hresolve hres).trans hquiet.keeps

theorem loadDll_keeps (env : Env b) (depth : ℤ) :
  SuccessKeeps fun path => loadDll env path depth
  := by
  apply loadDll_induction env (P := SuccessKeeps)
  · apply loadDllWith_keeps
    intro l s s' hfalse
    cases hfalse
  · intro load hload
    apply loadDllWith_keeps
    intro l s s' hresolve
    apply hload.resolve hresolve

theorem loadDll_some (h : loadDll env path depth s = (some i, s')) :
  ∃ l s₁ s₂ img ntCopy, Opened env path s l s₁ img ntCopy ∧ i = l.mod ∧
    resolveModuleImports env (fun path => loadDll env path (depth + 2)) l s₁ = (true, s₂) ∧
    QuietAt l.mod s₂ s'
  := by
  rw [loadDll_eq] at h
  obtain ⟨l, s₁, s₂, hopen, hresolve, -, rfl, hquiet⟩ := loadDllWith_some h
  obtain ⟨img, ntCopy, hopened⟩ := openDll_some hopen
  split_ifs at hresolve
  · cases hresolve
  · exact ⟨l, s₁, s₂, img, ntCopy, hopened, rfl, hresolve, hquiet⟩

theorem loadDll_opened (h : loadDll env path depth s = (some i, s')) :
  ∃ l s₁ img ntCopy, Opened env path s l s₁ img ntCopy ∧ i = l.mod ∧ Keeps (some l) s₁ s'
  := by
  obtain ⟨l, s₁, s₂, img, ntCopy, hopened, hi, hresolve, hquiet⟩ := loadDll_some h
  exact ⟨l, s₁, img, ntCopy, hopened, hi,
    ((loadDll_keeps env (depth + 2)).resolve hresolve).trans hquiet.keeps⟩

/-! ### The image of a DLL that has been loaded -/

def BasesMapped (s : LoaderState) : Prop :=
  ∀ ⦃i m⦄, s.registered i = some m → s.Mapped m.base

theorem Keeps.basesMapped {ex : Option Loading} (h : Keeps ex s s') (hs : BasesMapped s) :
  BasesMapped s'
  := by
  intro i m hi
  cases hold : s.registered i with
  | none => exact (h.fresh hold hi).2
  | some m' =>
    rw [h.registered hold, some.injEq] at hi
    subst hi
    apply h.mapped (hs hold)

theorem Opened.eq_mod_of_base {ex : Option Loading} (h : Opened env path s l s₁ img ntCopy)
    (hs : BasesMapped s) (hkeeps : Keeps ex s₁ s₂) {j : Slot} (hj : (s₂.module j).base = l.base) :
  j = l.mod
  := by
  by_contra hne
  have hzero : l.base ≠ 0 := h.pages_spec.1.start_ne_zero
  obtain ⟨m, hm⟩ : ∃ m, s₂.registered j = some m := by
    rw [← isSome_iff_exists, isSome_iff_ne_none, Ne,
      LoaderState.registered_eq_none_iff, hj]
    exact hzero
  obtain ⟨-, hbase, -⟩ := LoaderState.registered_eq_some_iff.mp hm
  rw [hj] at hbase
  cases hj₁ : s₁.registered j with
  | none =>
    apply (hkeeps.fresh hj₁ hm).1
    rw [← hbase]
    apply h.base_mapped
  | some m' =>
    rw [hkeeps.registered hj₁, some.injEq] at hm
    subst hm
    rw [h.registered_eq, update_of_ne hne] at hj₁
    apply h.base_notMapped
    rw [hbase]
    apply hs hj₁

theorem Opened.exportNamesSeparate (h : Opened env path s l s₁ img ntCopy) (hs : BasesMapped s)
    (hkeeps : Keeps none s₁ s₂) (bytes : Bytes) :
  ExportNamesSeparate s₂.list l.base l.nt bytes
  := by
  intro j nt' hj _ n hn
  obtain rfl := h.eq_mod_of_base hs hkeeps hj
  have hmodule : s₂.module l.mod = s₁.module l.mod := hkeeps.module h.self (by simp)
  rw [LoaderState.module] at hmodule
  rw [hmodule, h.cache] at hn
  cases hn

def Parsed (m : LoadedModule) (img : Bytes) : Prop :=
  ∃ m₀ : LoadedModule, m₀.nt = m.nt ∧ m₀.base = m.base ∧
    m.exportCache = (parseExportTable m₀ img).2.exportCache

/-- A load that has succeeded: the DLL was opened in the state `s₁`, the DLLs that it imports were
there in the state `s₂`, its imports were bound in this state, and it was attached in the state
`s₃`. -/
structure Loaded (env : Env b) (load : CString → LoaderState → Option Slot × LoaderState)
    (path : CString) (s : LoaderState) (l : Loading) (s₁ s₂ s₃ : LoaderState) (img : Image)
    (ntCopy : ImageNtHeaders) (s' : LoaderState) : Prop where
  opened : Opened env path s l s₁ img ntCopy
  firstPass : importDirOk l.nt = true ∧
      (dependencyLoop env load l (importDir l.nt)).run (0, s₁) = (true, s₂) ∨
    (importDir l.nt).size = 0 ∧ s₂ = s₁
  keeps : Keeps none s₁ s₂
  rest : Keeps (some l) s₂ s'
  quiet : Quiet s₂ s'
  effect : Pass1Effect l.nt img.byte env.ordinalTable
    (loaderResolver b env.importTable s₂.list s₂.image l.base) (s'.image l.base)
  attach : attachDll env l s₃ = (some l.mod, s')
  quietAt : QuietAt l.mod s₃ s'
  cache : Parsed (s₃.module l.mod) (s₃.image l.base) ∨ (s₃.module l.mod).exportCache = .zero

theorem Opened.bindImports_effect (h : Opened env path s l s₁ img ntCopy) (hs : BasesMapped s)
    (hkeeps : Keeps none s₁ s₂) (hiat : IatSeparate l.nt img.byte)
    (hbind : bindImports env l s₂ = (true, s')) :
  Pass1Effect l.nt img.byte env.ordinalTable
    (loaderResolver b env.importTable s₂.list s₂.image l.base) (s'.image l.base)
  := by
  have himg₂ : s₂.image l.base = img.byte := by
    rw [(hkeeps.image h.base_mapped (by simp)).1, h.image, update_self]
  have hblind := fun m => @loaderResolver_eq b env.importTable s₂.list s₂.image l.base l.nt
    img.byte m (h.exportNamesSeparate hs hkeeps img.byte)
  have hspec := (@resolveImportPass1_spec env.ordinalTable
    (loaderResolver b env.importTable s₂.list s₂.image l.base) l.nt img.byte hiat hblind).1
  rw [← resolveImports_eq_pass1 _ _ _ l.base, ← himg₂] at hspec
  have himage : s'.image l.base = (resolveImports env.ordinalTable
      (loaderResolver b env.importTable s₂.list s₂.image l.base) l.nt l.base
        (s₂.image l.base)).2.img := by
    have hsnd : s' = (bindImports env l s₂).2 := by rw [hbind]
    rw [hsnd]
    exact update_self ..
  rw [himage, ← himg₂]
  apply hspec
  exact congrArg Prod.fst hbind

theorem parsed_parseExports (hbase : (s.module l.mod).base = l.base) :
  Parsed ((parseExports l.mod s).module l.mod) ((parseExports l.mod s).image l.base)
  := by
  obtain ⟨cache, hcache⟩ := parseExportTable_snd (s.module l.mod) (s.image (s.module l.mod).base)
  have hmodule : (parseExports l.mod s).module l.mod =
      (parseExportTable (s.module l.mod) (s.image (s.module l.mod).base)).2 :=
    update_self ..
  refine ⟨s.module l.mod, ?_, ?_, ?_⟩
  · rw [hmodule, hcache]
  · rw [hmodule, hcache]
  · rw [hmodule, hbase]
    rfl

theorem loadDllWith_loaded (hload : SuccessKeeps load) (hs : BasesMapped s)
    (h : loadDllWith env (resolveModuleImports env load) path s = (some i, s'))
    (hsep : ∀ {img nt}, (mapImageAt env.kernel s.used path (env.file path)
      (b.wrap (pageRoundUp s.dllBaseNext)) s.main).1 = some (img, nt) →
        IatSeparate (imageNtHeaders img.byte) img.byte) :
  ∃ l s₁ s₂ s₃ img ntCopy, i = l.mod ∧ Loaded env load path s l s₁ s₂ s₃ img ntCopy s'
  := by
  obtain ⟨l, s₁, s₃, hopen, hresolve, hattach, rfl, hquiet⟩ := loadDllWith_some h
  obtain ⟨img, ntCopy, hopened⟩ := openDll_some hopen
  have himg : s₁.image l.base = img.byte := by rw [hopened.image, update_self]
  have hiat : IatSeparate l.nt img.byte := by
    rw [hopened.nt]
    apply hsep hopened.mapped
  rcases resolveModuleImports_some hresolve with ⟨-, hsize, rfl⟩ | ⟨hok, s₂, s₂', hrun, hbind, rfl⟩
  · refine ⟨l, s₃, s₃, s₃, img, ntCopy, rfl, hopened, Or.inr ⟨hsize, rfl⟩, Keeps.refl none s₃,
      hquiet.keeps, hquiet.toQuiet, ?_, hattach, hquiet, Or.inr hopened.cache⟩
    rw [hquiet.image, himg]
    apply pass1Effect_of_size_eq_zero hsize
  · have hkeeps : Keeps none s₁ s₂ := hload.dependencyLoop hrun
    have hbound := keeps_bindImports env l s₂
    have hbound' := quiet_bindImports env l s₂
    have hparse := quietAt_parseExports l.mod s₂'
    rw [hbind] at hbound hbound'
    have hbase : (s₂'.module l.mod).base = l.base := (LoaderState.registered_eq_some_iff.mp
      (hbound.registered (hkeeps.registered hopened.self))).2.1
    refine ⟨l, s₁, s₂, _, img, ntCopy, rfl, hopened, Or.inl ⟨hok, hrun⟩, hkeeps,
      (hbound.trans hparse.keeps).trans hquiet.keeps,
      (hbound'.trans hparse.toQuiet).trans hquiet.toQuiet, ?_, hattach, hquiet,
      Or.inl (parsed_parseExports hbase)⟩
    rw [hquiet.image, hparse.image]
    apply hopened.bindImports_effect hs hkeeps hiat hbind

theorem loadDll_loaded (hs : BasesMapped s) (hload : loadDll env path depth s = (some i, s'))
    (hsep : ∀ {img nt}, (mapImageAt env.kernel s.used path (env.file path)
      (b.wrap (pageRoundUp s.dllBaseNext)) s.main).1 = some (img, nt) →
        IatSeparate (imageNtHeaders img.byte) img.byte) :
  ∃ load l s₁ s₂ s₃ img ntCopy, i = l.mod ∧ Loaded env load path s l s₁ s₂ s₃ img ntCopy s'
  := by
  rw [loadDll_eq] at hload
  split_ifs at hload
  · obtain ⟨_, _, _, _, hfalse, _⟩ := loadDllWith_some hload
    cases hfalse
  · exact ⟨_, loadDllWith_loaded (loadDll_keeps env (depth + 2)) hs hload hsep⟩

end

end Loader
