import MyWine.Loader.PlainDll

/-!
# Loads that fail

When `load_dll` fails it takes out the module that it had registered itself, but not the DLLs that
had been loaded for it.  So a load that fails leaves no trace exactly when it failed before any DLL
had been loaded for it (`blocked`, `loadDll_atomic_iff`), provided that the headers in the images
that it maps, which the cleanup reads the size from, still say how large the image is
(`HeadersKeptIn`).
-/

open Pe SyscallSafe

namespace Loader

open List Option

section

variable {b : Build} {env : Env b}

/-! ### The first DLL that has to be loaded -/

theorem isBuiltinStubLibrary_congr {name name' : CString} (h : strcasecmp name name' = 0) :
  isBuiltinStubLibrary name = isBuiltinStubLibrary name'
  := by
  rw [strcasecmp_eq_zero_iff] at h
  simp only [isBuiltinStubLibrary, strcasecmp_eq_zero_iff, h]

theorem isMissing_congr {name name' : CString} (h : strcasecmp name name' = 0) (s : LoaderState) :
  isMissing s name = isMissing s name'
  := by
  rw [isMissing, isMissing, isBuiltinStubLibrary_congr h]
  rw [strcasecmp_eq_zero_iff] at h
  simp only [findModuleByName, strcasecmp_eq_zero_iff, h]

variable {load : CString → LoaderState → Option Slot × LoaderState}

/-- Up to the first DLL that has to be loaded the first pass is the same for every `load`.  When that
load fails, then so does the pass. -/
theorem dependencyLoop_noLoad (load : CString → LoaderState → Option Slot × LoaderState)
    (l : Loading) (dir : ImageDataDirectory) (p : ℕ × LoaderState) :
  let run := (dependencyLoop env load l dir).run p
  let run₀ := (dependencyLoop env noLoad l dir).run p
  (passLoads env noLoad l dir p = [] ∧ run = run₀ ∧ run.2 = p.2) ∨
  ∃ path, passLoads env noLoad l dir p = [(path, p.2)] ∧ run₀.1 = false ∧
    (path, p.2) ∈ passLoads env load l dir p ∧
    ((load path p.2).1 = none → run = (false, (load path p.2).2))
  := by
  induction p using (dependencyLoop env noLoad l dir).induction with
  | @inl p p' h ih =>
    have hround := dependencyRound_eq env load l dir p
    have hsnd := dependencyRound_noLoad_snd env l dir p
    have hnone : requestedPath env l dir p = none := by
      cases hpath : requestedPath env l dir p with
      | none => rfl
      | some path =>
        have hfails := dependencyRound_eq env noLoad l dir p
        rw [hpath, show dependencyRound env noLoad l dir p = _ from h] at hfails
        cases hfails
    rw [hnone, show dependencyRound env noLoad l dir p = _ from h] at hround
    rw [show dependencyRound env noLoad l dir p = _ from h, Sum.elim_inl] at hsnd
    simpa only [passLoads, While.states_inl h, While.states_inl (w := dependencyLoop env load l dir)
      hround, filterMap_cons, hnone, map_none, While.run_inl h,
      While.run_inl (w := dependencyLoop env load l dir) hround, hsnd] using ih
  | @inr p r h =>
    have hround := dependencyRound_eq env load l dir p
    have hsnd := dependencyRound_noLoad_snd env l dir p
    rw [show dependencyRound env noLoad l dir p = _ from h] at hround hsnd
    simp only [passLoads, While.states_inr h, filterMap_cons, filterMap_nil, While.run_inr h]
    cases hpath : requestedPath env l dir p with
    | none =>
      rw [hpath] at hround
      rw [While.run_inr (w := dependencyLoop env load l dir) hround]
      exact Or.inl ⟨rfl, rfl, hsnd⟩
    | some path =>
      have hfails := dependencyRound_eq env noLoad l dir p
      rw [hpath, show dependencyRound env noLoad l dir p = _ from h] at hfails
      rw [hpath] at hround
      cases hfails
      refine Or.inr ⟨path, rfl, rfl, ?_, ?_⟩
      · apply mem_filterMap.mpr
        exact ⟨p, While.self_mem_states, by rw [hpath]; rfl⟩
      · intro hload
        apply While.run_inr
        rw [show (dependencyLoop env load l dir).round p = dependencyRound env load l dir p from rfl,
          hround]
        simp only
        rw [← Prod.mk.eta (p := load path p.2), hload]

/-! ### Loads that fail -/

/-- The load fails when no DLL can be loaded for it, and so does the load of the first DLL that has to
be loaded for it. -/
def blockedWith (env : Env b) (nested : CString × LoaderState → Bool)
    (c : CString × LoaderState) : Bool :=
  (loadDllWith env (resolveModuleImports env noLoad) c.1 c.2).1.isNone &&
    match openDll env c.1 c.2 with
    | (none, _) => true
    | (some l, s) => (resolveLoads env noLoad l s).all nested

def blockedAt (env : Env b) : ℕ → CString × LoaderState → Bool
  | 0, _ => true
  | 1, c => blockedWith env (blockedAt env 0) c
  | n + 2, c => blockedWith env (blockedAt env n) c

/-- The DLL at a path cannot be loaded at a depth, and no DLL gets loaded in the attempt: it cannot be
opened, or the first of its imports that has to be loaded is not found or cannot be loaded in the same
way, or none has to be loaded and the imports cannot be bound or its `DllMain` refuses. -/
def blocked (env : Env b) (path : CString) (depth : ℤ) (s : LoaderState) : Bool :=
  blockedAt env (maxImportDepth - (depth + 1)).toNat (path, s)

/-- What a load does to a loader that is well formed, when the headers of the images that are mapped
in its `calls` are kept. -/
structure LoadSpec (env : Env b) (load : CString → LoaderState → Option Slot × LoaderState)
    (calls : CString × LoaderState → List (CString × LoaderState))
    (blocked : CString × LoaderState → Bool) : Prop where
  fails : ∀ {path s}, blocked (path, s) = true → (load path s).1 = none
  spec : ∀ {path s}, (∀ c ∈ calls (path, s), HeadersKeptIn env c) → WellFormed s →
    WellFormed (load path s).2 ∧ Extends s (load path s).2 ∧
      (∀ i, (load path s).1 = some i → s.registered i = none ∧ (load path s).2.registered i ≠ none) ∧
      ((load path s).1 = none → (SameLoader s (load path s).2 ↔ blocked (path, s) = true))

theorem resolveModuleImports_quiet (load : CString → LoaderState → Option Slot × LoaderState)
    (l : Loading) (s : LoaderState) :
  Quiet (if importDirOk l.nt then
    ((dependencyLoop env load l (importDir l.nt)).run (0, s)).2 else s)
    (resolveModuleImports env load l s).2
  := by
  have hrefl : ∀ s, Quiet s s := fun s => ⟨rfl, rfl, rfl, rfl⟩
  rw [resolveModuleImports_eq]
  split_ifs
  · rcases (dependencyLoop env load l (importDir l.nt)).run (0, s) with ⟨_ | _, s'⟩
    · apply hrefl
    · have hbind := quiet_bindImports env l s'
      simp only
      rcases hbound : bindImports env l s' with ⟨_ | _, s''⟩
      · rwa [hbound] at hbind
      · rw [hbound] at hbind
        apply hbind.trans (quietAt_parseExports l.mod s'').toQuiet
  · apply hrefl

theorem Extends.not_same {s s' s'' : LoaderState} {i : Slot} (hfree : s.registered i = none)
    (hnew : s'.registered i ≠ none) (hext : Extends s' s'') :
  ¬ SameLoader s s''
  := by
  intro hsame
  obtain ⟨m, hm⟩ := ne_none_iff_exists'.mp hnew
  have hreg := hext.registered hm
  rw [hsame.registered, hfree] at hreg
  cases hreg

theorem resolveModuleImports_noLoad (load : CString → LoaderState → Option Slot × LoaderState)
    (l : Loading) (s : LoaderState) :
  (resolveLoads env noLoad l s = [] ∧
    resolveModuleImports env load l s = resolveModuleImports env noLoad l s) ∨
  ∃ path, resolveLoads env noLoad l s = [(path, s)] ∧
    (resolveModuleImports env noLoad l s).1 = false ∧
    ((load path s).1 = none → (resolveModuleImports env load l s).1 = false)
  := by
  simp only [resolveLoads, resolveModuleImports_eq]
  split_ifs
  · rcases dependencyLoop_noLoad load l (importDir l.nt) (0, s) with
      ⟨hcalls, hrun, -⟩ | ⟨path, hcalls, hfails, -, hrun⟩
    · exact Or.inl ⟨hcalls, by rw [hrun]⟩
    · refine Or.inr ⟨path, hcalls, ?_, fun hload => by rw [hrun hload]⟩
      rw [← Prod.mk.eta (p := (dependencyLoop env noLoad l (importDir l.nt)).run (0, s)), hfails]
  · exact Or.inl ⟨rfl, rfl⟩

/-- The resolution of imports keeps a loader well formed, and leaves no trace exactly when the first
DLL that has to be loaded is blocked. -/
theorem LoadSpec.resolve {calls : CString × LoaderState → List (CString × LoaderState)}
    {blocked : CString × LoaderState → Bool} (h : LoadSpec env load calls blocked) {l : Loading}
    {s : LoaderState}
    (hkept : ∀ c ∈ (resolveLoads env load l s).flatMap calls, HeadersKeptIn env c)
    (hwf : WellFormed s) :
  let s' := (resolveModuleImports env load l s).2
  WellFormed s' ∧ Extends s s' ∧
    (SameLoader s s' ↔ (resolveLoads env noLoad l s).all blocked = true)
  := by
  have hquiet : Quiet _ (resolveModuleImports env load l s).2 := resolveModuleImports_quiet load l s
  have hrefl : ∀ s, Extends s s := fun s => (SameLoader.refl s).extends
  simp only [hquiet.same_iff]
  by_cases hok : importDirOk l.nt = true
  · rw [resolveLoads, if_pos hok] at hkept
    rw [if_pos hok] at hquiet ⊢
    have hcall : ∀ c ∈ passLoads env load l (importDir l.nt) (0, s), ∀ c' ∈ calls c,
        HeadersKeptIn env c' := by
      intro c hc c' hc'
      apply hkept c' (mem_flatMap.mpr ⟨c, hc, hc'⟩)
    obtain ⟨hwf', hext, hcalls⟩ := dependencyLoop_of_calls env load l (importDir l.nt) (0, s)
      (fun calls s' => WellFormed s' ∧ Extends s s' ∧ ∀ c ∈ calls, Extends (load c.1 c.2).2 s')
      (by
        rintro calls c hc ⟨hwf', hext, hcalls⟩
        obtain ⟨hwf'', hext', -⟩ := h.spec (hcall c hc) hwf'
        refine ⟨hwf'', hext.trans hext', ?_⟩
        simp only [mem_append, mem_singleton]
        rintro c' (hc' | rfl)
        · apply (hcalls c' hc').trans hext'
        · apply hrefl)
      ⟨hwf, hrefl s, fun _ h => by cases h⟩
    refine ⟨hquiet.wellFormed hwf', hext.trans hquiet.same.extends, ?_⟩
    rw [resolveLoads, if_pos hok]
    rcases dependencyLoop_noLoad load l (importDir l.nt) (0, s) with
      ⟨hnone, -, hrun⟩ | ⟨path, hfirst, -, hmem, hrun⟩
    · rw [hnone, hrun]
      exact iff_of_true (SameLoader.refl s) rfl
    · obtain ⟨-, -, hnew, hsame⟩ := h.spec (hcall _ hmem) hwf
      rw [hfirst, all_cons, all_nil, Bool.and_true]
      cases hload : (load path s).1 with
      | none =>
        rw [hrun hload]
        apply hsame hload
      | some i =>
        obtain ⟨hfree, hnew⟩ := hnew i hload
        apply iff_of_false (Extends.not_same hfree hnew (hcalls _ hmem))
        intro hblocked
        rw [h.fails hblocked] at hload
        cases hload
  · rw [if_neg hok] at hquiet ⊢
    refine ⟨hquiet.wellFormed hwf, (hrefl s).trans hquiet.same.extends, ?_⟩
    rw [resolveLoads, if_neg hok]
    exact iff_of_true (SameLoader.refl s) rfl

theorem attachDll_cases (env : Env b) (l : Loading) (s : LoaderState) :
  ∃ s', QuietAt l.mod s s' ∧
    (attachDll env l s = (some l.mod, s') ∨ attachDll env l s = (none, closeDll l s'))
  := by
  have hexports := quietAt_ensureExports l s
  simp only [attachDll]
  split_ifs
  · refine ⟨_, hexports.trans ?_, Or.inl rfl⟩
    exact quietAt_setModule rfl rfl rfl rfl rfl
  · exact ⟨_, hexports, Or.inr rfl⟩
  · exact ⟨_, hexports, Or.inl rfl⟩

theorem loadDllWith_cases {resolve : Loading → LoaderState → Bool × LoaderState} {path : CString}
    {s s₁ : LoaderState} {l : Loading} (hopen : openDll env path s = (some l, s₁)) :
  ∃ s₂, QuietAt l.mod (resolve l s₁).2 s₂ ∧
    ((resolve l s₁).1 = true ∧ loadDllWith env resolve path s = (some l.mod, s₂) ∨
      loadDllWith env resolve path s = (none, closeDll l s₂))
  := by
  rw [loadDllWith, hopen]
  simp only
  rcases resolve l s₁ with ⟨_ | _, s₂⟩
  · exact ⟨s₂, QuietAt.refl l.mod s₂, Or.inr rfl⟩
  · obtain ⟨s', hquiet, hattach⟩ := attachDll_cases env l s₂
    exact ⟨s', hquiet, hattach.imp_left fun h => ⟨rfl, h⟩⟩

theorem LoadSpec.fails_load {calls : CString × LoaderState → List (CString × LoaderState)}
    {blocked : CString × LoaderState → Bool} (h : LoadSpec env load calls blocked) {path : CString}
    {s : LoaderState} (hblocked : blockedWith env blocked (path, s) = true) :
  (loadDllWith env (resolveModuleImports env load) path s).1 = none
  := by
  rw [blockedWith, Bool.and_eq_true, isNone_iff_eq_none, loadDllWith] at hblocked
  rw [loadDllWith]
  generalize openDll env path s = r at hblocked ⊢
  rcases r with ⟨_ | l, s₁⟩
  · rfl
  · simp only at hblocked ⊢
    rcases resolveModuleImports_noLoad load l s₁ with ⟨-, hsame⟩ | ⟨path', hfirst, -, hload⟩
    · rw [hsame]
      apply hblocked.1
    · rw [hfirst, all_cons, all_nil, Bool.and_true] at hblocked
      rw [← Prod.mk.eta (p := resolveModuleImports env load l s₁), hload (h.fails hblocked.2)]

/-- For a load that fails only the first DLL that has to be loaded for it matters. -/
theorem blockedWith_of_fails {blocked : CString × LoaderState → Bool} {path : CString}
    {s s₁ : LoaderState} {l : Loading} (hopen : openDll env path s = (some l, s₁))
    (hfail : (loadDllWith env (resolveModuleImports env load) path s).1 = none) :
  blockedWith env blocked (path, s) = (resolveLoads env noLoad l s₁).all blocked
  := by
  rw [loadDllWith, hopen] at hfail
  rw [blockedWith, loadDllWith]
  simp only [hopen] at hfail ⊢
  rcases resolveModuleImports_noLoad load l s₁ with ⟨-, hsame⟩ | ⟨path', -, hfails, -⟩
  · rw [hsame] at hfail
    rw [hfail, isNone_none, Bool.true_and]
  · rw [← Prod.mk.eta (p := resolveModuleImports env noLoad l s₁), hfails]
    rfl

/-- What a load does when its imports are resolved by `resolve`, which leaves no trace exactly when
`quiet` holds. -/
theorem loadDllWith_spec (resolve : Loading → LoaderState → Bool × LoaderState) {path : CString}
    {s : LoaderState} (quiet : Loading → LoaderState → Prop) (hkept : HeadersKeptIn env (path, s))
    (hwf : WellFormed s)
    (hresolve : ∀ l s₁, openDll env path s = (some l, s₁) → WellFormed s₁ →
      WellFormed (resolve l s₁).2 ∧ Extends s₁ (resolve l s₁).2 ∧
        (SameLoader s₁ (resolve l s₁).2 ↔ quiet l s₁)) :
  let r := loadDllWith env resolve path s
  WellFormed r.2 ∧ Extends s r.2 ∧
    (∀ i, r.1 = some i → s.registered i = none ∧ r.2.registered i ≠ none) ∧
    (r.1 = none → (SameLoader s r.2 ↔ ∀ l s₁, openDll env path s = (some l, s₁) → quiet l s₁))
  := by
  rcases hopen : openDll env path s with ⟨_ | l, s₁⟩
  · obtain ⟨hlist, hsame⟩ := openDll_none hkept hopen
    rw [loadDllWith, hopen]
    refine ⟨hwf.congr hsame.registered (by rw [hlist]) hsame.pebLdr, hsame.extends, ?_,
      fun _ => iff_of_true hsame ?_⟩
    · rintro i ⟨⟩
    · rintro l s₁ ⟨⟩
  · obtain ⟨img, ntCopy, hopened⟩ := openDll_some hopen
    obtain ⟨hwf', hext', hsame⟩ := hresolve l s₁ hopen (hopened.wellFormed hwf)
    -- The state in which the DLL is kept or taken out again.
    obtain ⟨s₂, hquiet, hload⟩ := @loadDllWith_cases _ env resolve path s s₁ l hopen
    have hwf₂ := hquiet.wellFormed hwf'
    have hext := hext'.trans hquiet.same.extends
    rcases hload with ⟨-, hload⟩ | hload
    · rw [hload]
      refine ⟨hwf₂, hopened.extends.trans hext, ?_, ?_⟩
      · rintro i ⟨⟩
        use hopened.registered_mod
        rw [hext.registered hopened.self]
        apply some_ne_none
      · rintro ⟨⟩
    · rw [hload]
      refine ⟨hopened.close_wellFormed hkept hwf hext hwf₂,
        hopened.close_extends hkept hwf hext hwf₂, ?_, fun _ => ?_⟩
      · rintro i ⟨⟩
      · rw [hopened.close_same_iff hkept hwf hext hwf₂, hquiet.same_iff, hsame]
        constructor
        · rintro hquiet l' s₁' ⟨⟩
          apply hquiet
        · intro hquiet
          apply hquiet l s₁ rfl

theorem loadSpec_last :
  LoadSpec env (loadDllAt env 0) (loadsAt env 0) (blockedAt env 0)
  := by
  constructor
  · intro path s _
    rw [loadDllAt, loadDllWith]
    rcases openDll env path s with ⟨_ | l, s₁⟩ <;> rfl
  · intro path s hkept hwf
    obtain ⟨hwf', hext, hnew, hsame⟩ := loadDllWith_spec (fun _ s => (false, s))
      (fun _ _ => True) (hkept _ (mem_singleton_self _)) hwf
      fun _ s₁ _ hwf₁ => ⟨hwf₁, (SameLoader.refl s₁).extends,
        iff_of_true (SameLoader.refl s₁) trivial⟩
    refine ⟨hwf', hext, hnew, ?_⟩
    intro hfail
    rw [loadDllAt, hsame hfail]
    exact iff_of_true (fun _ _ _ => trivial) rfl

theorem LoadSpec.next {calls : CString × LoaderState → List (CString × LoaderState)}
    {blocked : CString × LoaderState → Bool} (h : LoadSpec env load calls blocked) :
  LoadSpec env (loadDllWith env (resolveModuleImports env load)) (loadsWith env load calls)
    (blockedWith env blocked)
  := by
  constructor
  · intro path s
    apply h.fails_load
  · intro path s hkept hwf
    obtain ⟨hwf', hext, hnew, hsame⟩ := loadDllWith_spec _
      (fun l s₁ => (resolveLoads env noLoad l s₁).all blocked = true) (hkept _ mem_cons_self) hwf
      fun l s₁ hopen hwf₁ => h.resolve (by
        intro c hc
        apply hkept c
        rw [loadsWith, hopen]
        apply mem_cons_of_mem _ hc) hwf₁
    refine ⟨hwf', hext, hnew, ?_⟩
    intro hfail
    rw [hsame hfail]
    rcases hopen : openDll env path s with ⟨_ | l, s₁⟩
    · rw [blockedWith, loadDllWith, hopen]
      exact iff_of_true (by rintro l s₁ ⟨⟩) rfl
    · rw [blockedWith_of_fails hopen hfail]
      constructor
      · intro hall
        apply hall l s₁ rfl
      · rintro hall l' s₁' ⟨⟩
        apply hall

/-- A load that fails leaves no trace exactly when no DLL had been loaded for it. -/
theorem loadDll_atomic_iff {path : CString} {depth : ℤ} {s : LoaderState}
    (hkept : ∀ c ∈ loads env path depth s, HeadersKeptIn env c) (hwf : WellFormed s)
    (hfail : (loadDll env path depth s).1 = none) :
  SameLoader s (loadDll env path depth s).2 ↔ blocked env path depth s = true
  := by
  have hlevel : ∀ n, LoadSpec env (loadDllAt env n) (loadsAt env n) (blockedAt env n) := by
    intro n
    induction n using Nat.twoStepInduction with
    | zero => apply loadSpec_last
    | one => apply loadSpec_last.next
    | more n ih _ => apply ih.next
  obtain ⟨-, -, -, hsame⟩ := (hlevel _).spec hkept hwf
  apply hsame hfail

/-! ### A failure after a dependency was loaded -/

/-- The loader with `"a.dll"`, which imports `"b.dll"` and `"x.dll"`, with `"b.dll"`, and with
`"e.dll"`, which imports `"x.dll"`.  There is no `"x.dll"`. -/
def brokenEnv : Env .i386 where
  kernel := .roomy .i386
  file path :=
    if path = .ofString "a.dll" then
      some (plainDll [(180, 4, 2), (192, 4, 0x200), (196, 4, 60), (0x20C, 4, 0x260),
        (0x220, 4, 0x268), (0x260, 5, 0x6C6C642E62), (0x268, 5, 0x6C6C642E78)])
    else if path = .ofString "b.dll" then some (plainDll [])
    else if path = .ofString "e.dll" then
      some (plainDll [(180, 4, 2), (192, 4, 0x200), (196, 4, 40), (0x20C, 4, 0x268),
        (0x268, 5, 0x6C6C642E78)])
    else none
  findDllPath name := if name = .ofString "b.dll" then some name else none
  importTable := []
  ordinalTable := []
  dllMain _ _ := true

def linkedState : LoaderState := { bareState with pebLdr := some ⟨[], [], []⟩ }

theorem headersKept_brokenEnv :
  HeadersKept brokenEnv
  := by
  apply headersKept_of_isPlain
  intro path f hf
  simp only [brokenEnv] at hf
  split_ifs at hf
  all_goals
    cases hf
    decide

theorem wellFormed_linkedState :
  WellFormed linkedState
  := by
  constructor
  · decide
  · intro ldr hldr i _
    cases hldr
    exact ⟨not_mem_nil, not_mem_nil, not_mem_nil⟩
  · intro ldr hldr
    cases hldr
    exact ⟨nodup_nil, nodup_nil, nodup_nil⟩

/-- `"e.dll"` fails before anything is loaded for it. -/
theorem loadDll_atomic_missing :
  (loadDll brokenEnv (.ofString "e.dll") 0 linkedState).1 = none ∧
    blocked brokenEnv (.ofString "e.dll") 0 linkedState = true ∧
    SameLoader linkedState (loadDll brokenEnv (.ofString "e.dll") 0 linkedState).2
  := by
  have hfail : (loadDll brokenEnv (.ofString "e.dll") 0 linkedState).1 = none := by
    decide +kernel
  have hblocked : blocked brokenEnv (.ofString "e.dll") 0 linkedState = true := by
    decide +kernel
  use hfail, hblocked
  apply (loadDll_atomic_iff (fun c _ => headersKept_brokenEnv.call c) wellFormed_linkedState hfail).mpr
    hblocked

/-- `"a.dll"` fails after `"b.dll"` has been loaded for it, which stays. -/
theorem loadDll_keeps_dependency :
  WellFormed linkedState ∧ (loadDll brokenEnv (.ofString "a.dll") 0 linkedState).1 = none ∧
    ((loadDll brokenEnv (.ofString "a.dll") 0 linkedState).2.registered 1).map (·.base) =
      some 0x60001000 ∧
    (loadDll brokenEnv (.ofString "a.dll") 0 linkedState).2.pebLdr = some ⟨[1], [1], [1]⟩ ∧
    ¬ SameLoader linkedState (loadDll brokenEnv (.ofString "a.dll") 0 linkedState).2
  := by
  have hstays : ((loadDll brokenEnv (.ofString "a.dll") 0 linkedState).2.registered 1).map
      (·.base) = some 0x60001000 := by
    decide +kernel
  refine ⟨wellFormed_linkedState, by decide +kernel, hstays, by decide +kernel, ?_⟩
  intro hsame
  rw [hsame.registered] at hstays
  cases hstays

end

end Loader
