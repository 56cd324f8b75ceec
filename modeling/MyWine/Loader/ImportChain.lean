import MyWine.Loader.LoadedDll

/-!
# Chains of imports

`load_dll` resolves the imports of a DLL at a depth that is greater by one than its own, and
`resolve_module_imports` loads a missing DLL at a depth that is again greater by one.  So no load is
nested deeper than the fifth one (`loadDll_eq_loadDllUpTo`), and of a chain of DLLs each of which
imports the next one only four are loaded, half of `MAX_IMPORT_DEPTH` (`Chain.loadDll`).
-/

open Pe SyscallSafe

namespace Loader

open List Option

/-! ### The nesting of the loads -/

section

variable {b : Build} (env : Env b)

/-- `load_dll` with at most `n` nested loads, where `cut` answers the loads that are nested
deeper. -/
def loadDllUpTo (cut : CString → LoaderState → Option Slot × LoaderState) :
    ℕ → CString → ℤ → LoaderState → Option Slot × LoaderState
  | 0, path, _, s => cut path s
  | n + 1, path, depth, s =>
    loadDllWith env
      (if maxImportDepth ≤ depth + 1 then fun _ s => (false, s)
        else resolveModuleImports env fun path => loadDllUpTo cut n path (depth + 2)) path s

/-- A load is nested less deep than the difference to the greatest depth, so that it does not depend
on how deeper loads are answered. -/
theorem loadDll_eq_loadDllUpTo (cut : CString → LoaderState → Option Slot × LoaderState) {n : ℕ}
    {depth : ℤ} (h : maxImportDepth < depth + 2 * n) (hn : 0 < n) (path : CString) (s : LoaderState) :
  loadDllUpTo env cut n path depth s = loadDll env path depth s
  := by
  induction n generalizing path depth s with
  | zero => omega
  | succ n ih =>
    rw [loadDllUpTo, loadDll_eq]
    split_ifs with hdepth
    · rfl
    · have hdeps : (fun path => loadDllUpTo env cut n path (depth + 2)) =
          fun path => loadDll env path (depth + 2) := by
        funext path s
        apply ih
        · push_cast at h
          omega
        · push_cast at h
          omega
      rw [hdeps]

end

/-! ### The first pass over a directory that can be resolved -/

/-- The directory ends inside its size, and the names of its DLLs can be read. -/
structure DirectoryOk (nt : ImageNtHeaders) (img : Bytes) : Prop where
  name : ∀ {k}, DescriptorAt nt img k →
    imageCstrValid nt img (descriptorAt nt img k).name.toNat = true
  next : ∀ {k}, DescriptorAt nt img k →
    peRvaRangeIsValid (descriptorRva nt (k + 1)) sizeofImportDescriptor (peSizeOfImage nt) = true
  stop : ∀ {k}, (∀ j < k, DescriptorAt nt img j) →
    sizeofImportDescriptor * k + sizeofImportDescriptor ≤ (importDir nt).size.toNat

def Resolvable (ordinals : List OrdinalEntry) (nt : ImageNtHeaders) (img : Bytes) : Prop :=
  ∀ resolve, (resolveImportPass1 ordinals resolve nt img).1 = true

section

variable {ordinals : List OrdinalEntry} {nt : ImageNtHeaders} {img : Bytes}

theorem thunkLoop_snd_of_unresolved (descRva : ℕ) (desc : ImageImportDescriptor) (s : Bound) :
  ((thunkLoop ordinals (fun _ _ _ => none) nt descRva desc).run (0, s)).2 = s
  := by
  apply While.run_of_invariant (fun p : ℕ × Bound => p.2 = s) fun r : Bool × Bound => r.2 = s
  · intro p p' hp hround
    obtain ⟨-, -, addr, hresolve, rfl⟩ := thunkRound_inl ordinals _ nt hround
    have hnone : addr = none := by
      rw [resolveThunk] at hresolve
      split_ifs at hresolve
      · rw [some.injEq] at hresolve
        rw [← hresolve]
        simp
      · rw [some.injEq] at hresolve
        exact hresolve.symm
    rw [hnone]
    exact hp
  · rintro p ⟨ok, s'⟩ hp hround
    rw [(thunkRound_inr ordinals _ nt hround).1]
    exact hp
  · rfl

theorem descriptorLoop_reaches {k : ℕ} (hbefore : ∀ j < k, DescriptorAt nt img j)
    (h : ((descriptorLoop ordinals (fun _ _ _ => none) nt (importDir nt)).run (0, ⟨img, []⟩)).1 =
      true) :
  ((descriptorLoop ordinals (fun _ _ _ => none) nt (importDir nt)).run
    (sizeofImportDescriptor * k, ⟨img, []⟩)).1 = true
  := by
  induction k with
  | zero => apply h
  | succ k ih =>
    have hk := ih fun j hj => hbefore j (by omega)
    cases hround : (descriptorLoop ordinals (fun _ _ _ => none) nt (importDir nt)).round
        (sizeofImportDescriptor * k, ⟨img, []⟩) with
    | inl p =>
      rw [While.run_inl hround] at hk
      obtain ⟨-, -, -, s, hrun, -, rfl⟩ := descriptorRound_inl ordinals _ nt hround
      have hs : s = ⟨img, []⟩ := by
        rw [← thunkLoop_snd_of_unresolved _ _ ⟨img, []⟩]
        exact (congrArg Prod.snd hrun).symm
      rw [hs] at hk
      rw [Nat.mul_succ]
      apply hk
    | inr r =>
      rw [While.run_inr hround] at hk
      obtain ⟨ok, s⟩ := r
      have hok : ok = true := hk
      rcases descriptorRound_inr ordinals _ nt hround with ⟨-, hend⟩ | ⟨hfalse, -⟩
      · cases (hbefore k (Nat.lt_succ_self k) k (le_refl k)).2 (hend hok).2
      · rw [hok] at hfalse
        cases hfalse

theorem Resolvable.directoryOk (h : Resolvable ordinals nt img) (hok : importDirOk nt = true) :
  DirectoryOk nt img
  := by
  have hrun := h fun _ _ _ => none
  rw [resolveImportPass1_eq, if_pos hok] at hrun
  have hround : ∀ {k}, (∀ j < k, DescriptorAt nt img j) →
      sizeofImportDescriptor * k + sizeofImportDescriptor ≤ (importDir nt).size.toNat ∧
        (DescriptorAt nt img k →
          imageCstrValid nt img (descriptorAt nt img k).name.toNat = true ∧
          peRvaRangeIsValid (descriptorRva nt (k + 1)) sizeofImportDescriptor
            (peSizeOfImage nt) = true) := by
    intro k hbefore
    have hk := descriptorLoop_reaches hbefore hrun
    cases hround : (descriptorLoop ordinals (fun _ _ _ => none) nt (importDir nt)).round
        (sizeofImportDescriptor * k, ⟨img, []⟩) with
    | inl p =>
      obtain ⟨hle, -, hvalid, -, -, hnext, -⟩ := descriptorRound_inl ordinals _ nt hround
      rw [Nat.add_assoc, ← Nat.mul_succ] at hnext
      exact ⟨hle, fun _ => ⟨hvalid, hnext⟩⟩
    | inr r =>
      rw [While.run_inr hround] at hk
      obtain ⟨ok, s⟩ := r
      have hok : ok = true := hk
      rcases descriptorRound_inr ordinals _ nt hround with ⟨-, hend⟩ | ⟨hfalse, -⟩
      · obtain ⟨hle, hname⟩ := hend hok
        exact ⟨hle, fun hat => by cases (hat k (le_refl k)).2 hname⟩
      · rw [hok] at hfalse
        cases hfalse
  constructor
  · intro k hk
    exact ((hround fun j hj l hl => hk l (by omega)).2 hk).1
  · intro k hk
    exact ((hround fun j hj l hl => hk l (by omega)).2 hk).2
  · intro k hbefore
    exact (hround hbefore).1

theorem thunkLoop_of_no_thunks (resolve : Bytes → CString → CString → Option Ptr) {descRva : ℕ}
    {desc : ImageImportDescriptor} {s : Bound}
    (h : s.img.readLE (iltRva desc) (thunkSize nt) = 0) :
  (thunkLoop ordinals resolve nt descRva desc).run (0, s) =
    (thunkInImage nt descRva desc 0 s.img, s)
  := by
  apply While.run_inr
  simp only [thunkLoop, thunkRound, Nat.zero_mul, Nat.add_zero, h, if_true]
  cases thunkInImage nt descRva desc 0 s.img with
  | true => rfl
  | false => rfl

theorem resolvable_of_no_thunks
    (hpass : (resolveImportPass1 ordinals (fun _ _ _ => none) nt img).1 = true)
    (h : ∀ k, DescriptorAt nt img k → thunkAt nt img k 0 = 0) :
  Resolvable ordinals nt img
  := by
  intro resolve
  rw [resolveImportPass1_eq] at hpass ⊢
  split_ifs at hpass ⊢ with hok
  · rw [← hpass]
    congr 1
    -- The loop is at a descriptor, and has changed nothing.
    apply While.run_congr fun p => ∃ k, p = (sizeofImportDescriptor * k, ⟨img, []⟩) ∧
      ∀ j < k, DescriptorAt nt img j
    · rintro p p' ⟨k, rfl, hbefore⟩ hround
      obtain ⟨hle, hname, -, s, hrun, -, rfl⟩ := descriptorRound_inl ordinals _ nt hround
      have hs : s = ⟨img, []⟩ := by
        rw [← thunkLoop_snd_of_unresolved _ _ ⟨img, []⟩]
        exact (congrArg Prod.snd hrun).symm
      rw [hs]
      refine ⟨k + 1, rfl, ?_⟩
      intro j hj
      have hk := descriptorAt_of_before hbefore hle hname
      exact fun m hm => hk m (by omega)
    · rintro p ⟨k, rfl, hbefore⟩
      simp only [descriptorLoop, descriptorRound]
      by_cases hdesc : sizeofImportDescriptor * k + sizeofImportDescriptor ≤
          (importDir nt).size.toNat ∧ (readImportDescriptor img
            ((importDir nt).virtualAddress.toNat + sizeofImportDescriptor * k)).name ≠ 0
      · have hk := h k (descriptorAt_of_before hbefore hdesc.1 hdesc.2)
        rw [thunkAt, thunkRegion, Nat.zero_mul, Nat.add_zero] at hk
        rw [if_pos hdesc, if_pos hdesc, thunkLoop_of_no_thunks resolve hk,
          thunkLoop_of_no_thunks (fun _ _ _ => none) hk]
      · rw [if_neg hdesc, if_neg hdesc]
    · exact ⟨0, rfl, fun j hj => by cases hj⟩
  · exact hpass

end

section

variable {b : Build} {env : Env b} {load : CString → LoaderState → Option Slot × LoaderState}
  {l : Loading} {s s' : LoaderState}

theorem dependencyRound_descriptor (h : DirectoryOk l.nt (s.image l.base)) {k : ℕ}
    (hk : DescriptorAt l.nt (s.image l.base) k) :
  dependencyRound env load l (importDir l.nt) (sizeofImportDescriptor * k, s) =
    match loadDependency env load (importDll l.nt (s.image l.base) k) s with
    | (false, s') => .inr (false, s')
    | (true, s') => .inl (sizeofImportDescriptor * (k + 1), s')
  := by
  have hdesc := hk k (le_refl k)
  have hname := h.name hk
  have hnext := h.next hk
  rw [descriptorAt, descriptorRva] at hdesc hname
  rw [descriptorRva, Nat.mul_succ, ← Nat.add_assoc] at hnext
  rcases hload : loadDependency env load (importDll l.nt (s.image l.base) k) s with ⟨ok, s'⟩
  rw [importDll, descriptorAt, descriptorRva] at hload
  simp only [dependencyRound]
  rw [if_pos hdesc, hname, hnext, hload]
  cases ok with
  | false => rfl
  | true => rfl

theorem dependencyRound_stop (h : DirectoryOk l.nt (s.image l.base)) {k : ℕ}
    (hbefore : ∀ j < k, DescriptorAt l.nt (s.image l.base) j)
    (hk : ¬ DescriptorAt l.nt (s.image l.base) k) :
  dependencyRound env load l (importDir l.nt) (sizeofImportDescriptor * k, s) = .inr (true, s)
  := by
  have hle := h.stop hbefore
  have hnot : ¬ (sizeofImportDescriptor * k + sizeofImportDescriptor ≤
      (importDir l.nt).size.toNat ∧ (readImportDescriptor (s.image l.base)
        ((importDir l.nt).virtualAddress.toNat + sizeofImportDescriptor * k)).name ≠ 0) := by
    intro hdesc
    apply hk (descriptorAt_of_before hbefore hdesc.1 hdesc.2)
  simp only [dependencyRound]
  rw [if_neg hnot, decide_eq_true hle]

theorem dependencyLoop_walk (h : DirectoryOk l.nt (s.image l.base)) {k n : ℕ} (hkn : k ≤ n)
    (hpresent : ∀ j, k ≤ j → j < n → DescriptorAt l.nt (s.image l.base) j ∧
      isMissing s (importDll l.nt (s.image l.base) j) = false) :
  (dependencyLoop env load l (importDir l.nt)).run (sizeofImportDescriptor * k, s) =
    (dependencyLoop env load l (importDir l.nt)).run (sizeofImportDescriptor * n, s)
  := by
  induction n, hkn using Nat.le_induction with
  | base => rfl
  | succ n hkn ih =>
    obtain ⟨hat, hmissing⟩ := hpresent n hkn (Nat.lt_succ_self n)
    rw [ih fun j hj hlt => hpresent j hj (by omega)]
    apply While.run_inl
    have hround := @dependencyRound_descriptor _ env load l s h n hat
    rw [loadDependency_of_not_missing env hmissing] at hround
    exact hround

theorem exists_last_descriptor (nt : ImageNtHeaders) (img : Bytes) :
  ∃ n, (∀ j < n, DescriptorAt nt img j) ∧ ¬ DescriptorAt nt img n
  := by
  classical
  have hend : ∃ n, ¬ DescriptorAt nt img n := by
    use (importDir nt).size.toNat
    intro hat
    have hle := (hat _ (le_refl _)).1
    simp only [sizeofImportDescriptor] at hle
    omega
  refine ⟨Nat.find hend, ?_, Nat.find_spec hend⟩
  intro j hj
  apply not_not.mp (Nat.find_min hend hj)

theorem dependencyLoop_present (h : DirectoryOk l.nt (s.image l.base)) {k : ℕ}
    (hbefore : ∀ j < k, DescriptorAt l.nt (s.image l.base) j)
    (hpresent : ∀ j, k ≤ j → DescriptorAt l.nt (s.image l.base) j →
      isMissing s (importDll l.nt (s.image l.base) j) = false) :
  (dependencyLoop env load l (importDir l.nt)).run (sizeofImportDescriptor * k, s) = (true, s)
  := by
  obtain ⟨n, hdescriptors, hend⟩ := exists_last_descriptor l.nt (s.image l.base)
  have hkn : k ≤ n := by
    by_contra hlt
    exact hend (hbefore n (by omega))
  rw [dependencyLoop_walk h hkn fun j hj hlt =>
    ⟨hdescriptors j hlt, hpresent j hj (hdescriptors j hlt)⟩]
  apply While.run_inr
  apply dependencyRound_stop h hdescriptors hend

theorem dependencyLoop_next (h : DirectoryOk l.nt (s.image l.base)) {dll path : CString}
    (hmissing : isMissing s dll = true) (hpath : env.findDllPath dll = some path)
    (hothers : ∀ j, DescriptorAt l.nt (s.image l.base) j →
      isMissing s (importDll l.nt (s.image l.base) j) = false ∨
        importDll l.nt (s.image l.base) j = dll)
    (hnext : ∃ n, DescriptorAt l.nt (s.image l.base) n ∧ importDll l.nt (s.image l.base) n = dll) :
  ((load path s).1 = none →
    ((dependencyLoop env load l (importDir l.nt)).run (0, s)).1 = false) ∧
  ((load path s).1.isSome = true → (load path s).2.image l.base = s.image l.base →
    (∀ j, DescriptorAt l.nt (s.image l.base) j →
      isMissing (load path s).2 (importDll l.nt (s.image l.base) j) = false) →
    (dependencyLoop env load l (importDir l.nt)).run (0, s) = (true, (load path s).2))
  := by
  classical
  -- The first descriptor of the missing DLL.
  obtain ⟨hat, hdll⟩ := Nat.find_spec hnext
  have hmin : ∀ j < Nat.find hnext, DescriptorAt l.nt (s.image l.base) j ∧
      isMissing s (importDll l.nt (s.image l.base) j) = false := by
    intro j hj
    have hatj : DescriptorAt l.nt (s.image l.base) j := fun m hm => hat m (by omega)
    use hatj
    rcases hothers j hatj with hpresent | heq
    · exact hpresent
    · cases Nat.find_min hnext hj ⟨hatj, heq⟩
  generalize Nat.find hnext = n at hat hdll hmin
  have hwalk := @dependencyLoop_walk _ env load l s h 0 n (Nat.zero_le n) fun j _ hlt => hmin j hlt
  have hround := @dependencyRound_descriptor _ env load l s h n hat
  rw [hdll, loadDependency_of_missing env hmissing, hpath] at hround
  rw [Nat.mul_zero] at hwalk
  rw [hwalk]
  constructor
  · intro hnone
    simp only [hnone, isSome_none] at hround
    rw [While.run_inr hround]
  · intro hsome himage hpresent
    simp only [hsome] at hround
    rw [While.run_inl hround]
    rw [← himage] at h hpresent
    apply dependencyLoop_present h
    · intro j hj m hm
      rw [himage]
      apply hat m (by omega)
    · intro j _ hj
      apply hpresent j hj

end

/-! ### Chains -/

/-- A DLL that has been opened, whose imports can be resolved once `next` is loaded, if there is
such a DLL, and whose entry point accepts the attachment. -/
structure ChainLink {b : Build} (env : Env b) (l : Loading) (s : LoaderState)
    (next : Option CString) : Prop where
  resolvable : Resolvable env.ordinalTable l.nt (s.image l.base)
  attaches : ∀ s, env.dllMain s l.mod = true
  imports : ∀ j, DescriptorAt l.nt (s.image l.base) j →
    isMissing s (importDll l.nt (s.image l.base) j) = false ∨
      next = some (importDll l.nt (s.image l.base) j)
  next : ∀ dll ∈ next, ∃ j, DescriptorAt l.nt (s.image l.base) j ∧
    importDll l.nt (s.image l.base) j = dll

/-- A chain of DLLs each of which imports the next one.  None of them is registered when the one
before has been opened, and each can be opened then, so that its file is there, its image can be
mapped and a slot is free. -/
def Chain {b : Build} (env : Env b) : List CString → LoaderState → Prop
  | [], _ => True
  | dll :: dlls, s => isMissing s dll = true ∧ ∃ path l s₁, env.findDllPath dll = some path ∧
    strcasecmp (copyStr (dllBaseName path) moduleNameSize) dll = 0 ∧
    openDll env path s = (some l, s₁) ∧ ChainLink env l s₁ dlls.head? ∧ Chain env dlls s₁

section

variable {b : Build} {env : Env b} {l : Loading} {s s₁ s' : LoaderState} {path : CString}
  {img : Image} {ntCopy : ImageNtHeaders}

theorem Extends.moduleCount_le (h : Extends s s') (hwf : WellFormed s) (hwf' : WellFormed s') :
  s.list.moduleCount ≤ s'.list.moduleCount
  := by
  rw [hwf.count, hwf'.count]
  apply Finset.card_le_card
  intro i hi
  rw [Table.mem_occupied, isSome_iff_exists] at hi ⊢
  obtain ⟨m, hm⟩ := hi
  exact ⟨m, h.registered hm⟩

variable {dll : CString}

theorem Extends.findModuleByName_isSome (h : Extends s s') (hwf : WellFormed s)
    (hwf' : WellFormed s') (hfind : (findModuleByName s.list dll).isSome = true) :
  (findModuleByName s'.list dll).isSome = true
  := by
  obtain ⟨i, hi⟩ := isSome_iff_exists.mp hfind
  obtain ⟨hlt, hbase, hname⟩ := findModuleByName_spec hi
  have hreg := h.registered (registered_of_base_ne hbase)
  obtain ⟨hbase', -, hname', -⟩ := LoaderState.registered_eq_some_iff.mp hreg
  rw [isSome_iff_exists]
  apply exists_findModuleByName (Nat.lt_of_lt_of_le hlt (h.moduleCount_le hwf hwf')) hbase'
  rw [LoaderState.module] at hname'
  rw [hname']
  exact hname

theorem Extends.not_missing (h : Extends s s') (hwf : WellFormed s) (hwf' : WellFormed s')
    (hdll : isMissing s dll = false) :
  isMissing s' dll = false
  := by
  rw [isMissing, Bool.and_eq_false_iff, isNone_eq_false_iff] at hdll ⊢
  apply hdll.imp_left
  intro hfind
  apply h.findModuleByName_isSome hwf hwf' hfind

theorem Opened.findModuleByName_isSome (h : Opened env path s l s₁ img ntCopy)
    (hext : Extends s₁ s') (hwf' : WellFormed s')
    (hname : strcasecmp (copyStr (dllBaseName path) moduleNameSize) dll = 0) :
  (findModuleByName s'.list dll).isSome = true
  := by
  obtain ⟨hbase, -, hname', -⟩ :=
    LoaderState.registered_eq_some_iff.mp (hext.registered h.self)
  rw [isSome_iff_exists]
  apply exists_findModuleByName (h.mod_lt hext hwf') hbase
  rw [LoaderState.module] at hname'
  rw [hname']
  exact hname

theorem not_missing_of_found (h : (findModuleByName s.list dll).isSome = true) :
  isMissing s dll = false
  := by
  rw [isMissing, Bool.and_eq_false_iff, isNone_eq_false_iff]
  exact Or.inl h

theorem Resolvable.bindImports (h : Resolvable env.ordinalTable l.nt (s.image l.base)) :
  (bindImports env l s).1 = true
  := by
  rw [Loader.bindImports, resolveImports_eq_pass1]
  apply h

theorem attachDll_of_attaches (h : ∀ s, env.dllMain s l.mod = true) (s : LoaderState) :
  (attachDll env l s).1 = some l.mod
  := by
  have hcall : ∀ s, callModuleDllmain env l.mod s = true := by
    intro s
    rw [callModuleDllmain]
    split
    · rfl
    · split_ifs
      · rfl
      · rfl
      · apply h
  simp only [attachDll, hcall, if_true]
  split_ifs
  · rfl
  · rfl

theorem Resolvable.resolveModuleImports
    {load : CString → LoaderState → Option Slot × LoaderState}
    (h : Resolvable env.ordinalTable l.nt (s.image l.base)) (hok : importDirOk l.nt = true)
    (hrun : (dependencyLoop env load l (importDir l.nt)).run (0, s) = (true, s'))
    (himage : s'.image l.base = s.image l.base) :
  ∃ s₂, Loader.resolveModuleImports env load l s = (true, s₂) ∧ Quiet s' s₂
  := by
  have hbind := @Resolvable.bindImports _ env l s' (by rwa [himage])
  have hquiet := quiet_bindImports env l s'
  rw [resolveModuleImports_eq, if_pos hok, hrun]
  simp only
  split
  · next heq =>
    rw [heq] at hbind
    cases hbind
  · next s₂ heq =>
    rw [heq] at hquiet
    exact ⟨_, rfl, hquiet.trans (quietAt_parseExports l.mod s₂).toQuiet⟩

theorem Resolvable.importDirOk {ordinals : List OrdinalEntry} {nt : ImageNtHeaders} {img : Bytes}
    (h : Resolvable ordinals nt img) (hsize : (importDir nt).size ≠ 0) :
  Loader.importDirOk nt = true
  := by
  by_contra hok
  have hpass := h fun _ _ _ => none
  rw [resolveImportPass1_eq, if_neg hok] at hpass
  exact hsize (of_decide_eq_true hpass)

/-! ### The loads of a chain -/

theorem loadDllWith_of_attaches {resolve : Loading → LoaderState → Bool × LoaderState}
    (hopen : openDll env path s = (some l, s₁)) (hresolve : resolve l s₁ = (true, s'))
    (h : ∀ s, env.dllMain s l.mod = true) :
  ∃ s₂, loadDllWith env resolve path s = (some l.mod, s₂) ∧ Quiet s' s₂
  := by
  obtain ⟨s₂, hquiet, hattach | hattach⟩ := attachDll_cases env l s'
  · use s₂
    rw [loadDllWith, hopen]
    simp only [hresolve, hattach]
    exact ⟨trivial, hquiet.toQuiet⟩
  · have hsome := attachDll_of_attaches h s'
    rw [hattach] at hsome
    cases hsome

theorem loadDllWith_of_unresolved {resolve : Loading → LoaderState → Bool × LoaderState}
    (hopen : openDll env path s = (some l, s₁)) (hresolve : (resolve l s₁).1 = false) :
  (loadDllWith env resolve path s).1 = none
  := by
  rw [loadDllWith, hopen]
  simp only
  split
  · rfl
  · next heq =>
    rw [heq] at hresolve
    cases hresolve

theorem loadDll_found {depth : ℤ} {i : Slot} (hwf : WellFormed s)
    (hload : loadDll env path depth s = (some i, s'))
    (hname : strcasecmp (copyStr (dllBaseName path) moduleNameSize) dll = 0) :
  (findModuleByName s'.list dll).isSome = true
  := by
  obtain ⟨l, s₁, img, ntCopy, hopened, -, hkeeps⟩ := loadDll_opened hload
  apply hopened.findModuleByName_isSome hkeeps.toExtends _ hname
  apply hkeeps.wellFormed (hopened.wellFormed hwf)

theorem ChainLink.resolve_last {load : CString → LoaderState → Option Slot × LoaderState}
    (h : ChainLink env l s none) :
  ∃ s', resolveModuleImports env load l s = (true, s')
  := by
  by_cases hsize : (importDir l.nt).size = 0
  · use s
    have hok : ¬ importDirOk l.nt = true := by
      simp [importDirOk, hsize]
    rw [resolveModuleImports_eq, if_neg hok, decide_eq_true hsize]
  · have hok := h.resolvable.importDirOk hsize
    have hrun := @dependencyLoop_present _ env load l s (h.resolvable.directoryOk hok) 0 (by simp)
      (by
        intro j _ hj
        apply (h.imports j hj).resolve_right
        simp)
    rw [Nat.mul_zero] at hrun
    obtain ⟨s', hresolve, -⟩ := h.resolvable.resolveModuleImports hok hrun rfl
    exact ⟨s', hresolve⟩

theorem ChainLink.resolve_next {load : CString → LoaderState → Option Slot × LoaderState}
    {dll : CString} (h : ChainLink env l s (some dll)) (hmissing : isMissing s dll = true)
    (hpath : env.findDllPath dll = some path) :
  ((load path s).1 = none → (resolveModuleImports env load l s).1 = false) ∧
  ∀ {i}, load path s = (some i, s') → s'.image l.base = s.image l.base →
    (∀ d, isMissing s d = false → isMissing s' d = false) → isMissing s' dll = false →
    ∃ s₂, resolveModuleImports env load l s = (true, s₂) ∧ Quiet s' s₂
  := by
  obtain ⟨k, hk, hdll⟩ := h.next dll rfl
  have hsize : (importDir l.nt).size ≠ 0 := by
    intro hzero
    have hle := (hk k (le_refl k)).1
    rw [hzero] at hle
    simp [sizeofImportDescriptor] at hle
  have hok := h.resolvable.importDirOk hsize
  have hothers : ∀ j, DescriptorAt l.nt (s.image l.base) j →
      isMissing s (importDll l.nt (s.image l.base) j) = false ∨
        importDll l.nt (s.image l.base) j = dll := by
    intro j hj
    apply (h.imports j hj).imp_right
    intro heq
    rw [some.injEq] at heq
    exact heq.symm
  obtain ⟨hfail, hsuccess⟩ := @dependencyLoop_next _ env load l s
    (h.resolvable.directoryOk hok) dll path hmissing hpath hothers ⟨k, hk, hdll⟩
  constructor
  · intro hnone
    have hrun := hfail hnone
    rw [resolveModuleImports_eq, if_pos hok]
    split
    · rfl
    · next heq =>
      rw [heq] at hrun
      cases hrun
  · intro i hload himage hkept hdll'
    rw [hload] at hsuccess
    apply h.resolvable.resolveModuleImports hok (hsuccess rfl himage _) himage
    intro j hj
    rcases hothers j hj with hpresent | heq
    · apply hkept _ hpresent
    · rw [heq]
      apply hdll'

/-- What becomes of a chain whose first DLL is loaded at a depth: it is loaded if its last DLL is
below the greatest depth, and else the load fails. -/
theorem Chain.loadDll {dll : CString} {dlls : List CString} {depth : ℤ} (hwf : WellFormed s)
    (h : Chain env (dll :: dlls) s) (hpath : env.findDllPath dll = some path) :
  (depth + 2 * dlls.length + 1 < maxImportDepth →
    ∃ i s', loadDll env path depth s = (some i, s') ∧
      ∀ d ∈ dll :: dlls, (findModuleByName s'.list d).isSome = true) ∧
  (maxImportDepth ≤ depth + 2 * dlls.length + 1 → (loadDll env path depth s).1 = none)
  := by
  induction dlls generalizing s dll path depth with
  | nil =>
    obtain ⟨-, path', l, s₁, hpath', hname, hopen, hlink, -⟩ := h
    rw [hpath, some.injEq] at hpath'
    subst hpath'
    constructor
    · intro hdepth
      obtain ⟨s₂, hresolve⟩ := @ChainLink.resolve_last _ env l s₁
        (fun path => Loader.loadDll env path (depth + 2)) hlink
      obtain ⟨s', hload, -⟩ := loadDllWith_of_attaches hopen hresolve hlink.attaches
      rw [length_nil] at hdepth
      have heq : Loader.loadDll env path depth s = (some l.mod, s') := by
        rw [loadDll_eq, if_neg (by omega), hload]
      refine ⟨l.mod, s', heq, ?_⟩
      rw [forall_mem_singleton]
      apply loadDll_found hwf heq hname
    · intro hdepth
      rw [length_nil] at hdepth
      rw [loadDll_eq, if_pos (by omega)]
      apply loadDllWith_of_unresolved hopen rfl
  | cons next dlls ih =>
    obtain ⟨-, path', l, s₁, hpath', hname, hopen, hlink, hrest⟩ := h
    rw [hpath, some.injEq] at hpath'
    subst hpath'
    obtain ⟨img, ntCopy, hopened⟩ := openDll_some hopen
    have hwf₁ := hopened.wellFormed hwf
    obtain ⟨hmissing, path', -, -, hpath', -⟩ := id hrest
    obtain ⟨hsuccess, hfail⟩ := @ih s₁ path' next (depth + 2) hwf₁ hrest hpath'
    rw [length_cons]
    constructor
    · intro hdepth
      obtain ⟨i, s₂, hload, hfound⟩ := hsuccess (by omega)
      have hkeeps := loadDll_keeps env (depth + 2) hload
      have hwf₂ := hkeeps.wellFormed hwf₁
      obtain ⟨s₃, hresolve, hquiet⟩ := (@ChainLink.resolve_next _ env l s₁ s₂ path'
        (fun path => Loader.loadDll env path (depth + 2)) next hlink hmissing hpath').2 hload
          (hkeeps.image hopened.base_mapped (by simp)).1
          (fun d hd => hkeeps.toExtends.not_missing hwf₁ hwf₂ hd)
          (not_missing_of_found (hfound next mem_cons_self))
      obtain ⟨s', hwith, hquiet'⟩ := loadDllWith_of_attaches hopen hresolve hlink.attaches
      have heq : Loader.loadDll env path depth s = (some l.mod, s') := by
        rw [loadDll_eq, if_neg (by omega), hwith]
      refine ⟨l.mod, s', heq, ?_⟩
      rw [forall_mem_cons]
      use loadDll_found hwf heq hname
      intro d hd
      have hquiet'' := hquiet.trans hquiet'
      apply hquiet''.same.extends.findModuleByName_isSome hwf₂ (hquiet''.wellFormed hwf₂)
      apply hfound d hd
    · intro hdepth
      rw [loadDll_eq]
      split_ifs with hmax
      · apply loadDllWith_of_unresolved hopen rfl
      · apply loadDllWith_of_unresolved hopen
        apply (@ChainLink.resolve_next _ env l s₁ s₁ path'
          (fun path => Loader.loadDll env path (depth + 2)) next hlink hmissing hpath').1
        apply hfail
        omega

end

end Loader
