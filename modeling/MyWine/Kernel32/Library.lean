import MyWine.Kernel32.ProcAddress
import MyWine.Loader.ImportLinks

/-!
# `LoadLibraryA` and `FreeLibraryA`

`LoadLibraryA` of `msvcrt/kernel32_module.c` counts the loads of a registered module or has it
loaded, and `FreeLibraryA` unmaps and removes a module whose count drops to zero.  A module that
another one imports from is not counted when it was registered already, so that it can be freed
while the other one is bound to it (`freeLibrary_dangles`).

In a run in which no module is freed that a registered module imports from, no filled IAT slot of a
registered module points into an image that is unmapped (`no_dangling_imports`).
-/

open Pe SyscallSafe Loader

namespace Kernel32

open Function List Option

def findModuleByNameSafe (s : ModuleList) (name : CString) : Option Slot :=
  Table.firstSlot fun i =>
    decide (i.val < s.moduleCount ∧ strcasecmp (s.modules i).name name = 0)

def addLoadCount (i : Slot) (n : ℤ) (s : LoaderState) : LoaderState :=
  s.setModule i { s.module i with loadCount := (s.module i).loadCount + n }

/-- `LoadLibraryA`, where `load` loads the file. -/
def loadLibraryWith {b : Build} (env : Env b)
    (load : CString → LoaderState → Option Slot × LoaderState) (name : Option CString)
    (s : LoaderState) : Ptr × LoaderState :=
  match name with
  | none => (0, s)
  | some name =>
    match findModuleByNameSafe s.list name with
    | some i => ((s.module i).base, addLoadCount i 1 s)
    | none =>
      match findBuiltinModuleByName name with
      | some m => (m.handle, s)
      | none =>
        match env.findDllPath name with
        | none => (0, s)
        | some path =>
          match load path s with
          | (none, s) => (0, s)
          | (some i, s) => ((s.module i).base, s)

def loadLibraryA {b : Build} (env : Env b) : Option CString → LoaderState → Ptr × LoaderState :=
  loadLibraryWith env fun path => loadDll env path 0

def detachModule (m : LoadedModule) : LoadedModule :=
  match m.nt with
  | none => m
  | some nt =>
    if !m.dllmainCalled ∨ m.base = 0 ∨ peEntryRva nt = 0 then m
    else { m with dllmainCalled := false }

def unmapModule (m : LoadedModule) (s : LoaderState) : LoaderState :=
  match m.nt with
  | none => s
  | some nt => if m.base ≠ 0 then s.munmap m.base (peSizeOfImage nt) else s

def unloadModule (i : Slot) (s : LoaderState) : LoaderState :=
  let m := s.module i
  let s := s.setModule i (resetExportCache (detachModule m))
  let s := ldrRemoveModule s i
  let s := unmapModule m s
  { s with list := removeModule s.list i }

def findLibrary (b : Build) (hModule : Ptr) (s : LoaderState) : Option Slot :=
  if (findBuiltinModuleByHandle hModule).isSome then none else findModuleByAddr b s.list hModule

def freeLibraryA (b : Build) (hModule : Ptr) (s : LoaderState) : Bool × LoaderState :=
  if (findBuiltinModuleByHandle hModule).isSome then (true, s)
  else
    match findModuleByAddr b s.list hModule with
    | none => (false, s)
    | some i =>
      let s := addLoadCount i (-1) s
      if 0 < (s.module i).loadCount then (true, s) else (true, unloadModule i s)

def freedModule (b : Build) (hModule : Ptr) (s : LoaderState) : Option Slot :=
  (findLibrary b hModule s).filter fun i => (s.module i).loadCount + -1 ≤ 0

/-! ### The two lookups of a name -/

/-- The comparison that `find_module_by_name_safe` makes in place of `strcasecmp`. -/
def sameName : List UInt8 → List UInt8 → Bool
  | a :: as, b :: bs => if asciiLower a ≠ asciiLower b then false else sameName as bs
  | as, bs => as = [] ∧ bs = []

theorem sameName_iff {s t : CString} :
  sameName s.bytes t.bytes = true ↔ strcasecmp s t = 0
  := by
  rw [strcasecmp_eq_zero_iff]
  generalize s.bytes = as, t.bytes = bs
  induction as generalizing bs with
  | nil => simp [sameName, eq_comm]
  | cons a as ih =>
    cases bs with
    | nil => simp [sameName]
    | cons b bs => simp [sameName, ih]

/-- The lookups agree exactly when each slot with the name has a module with it at or before it. -/
theorem findModuleByNameSafe_agrees_iff (ops : List RegistryOp) (name : CString) :
  let s := (ops.foldl RegistryRun.step .init).list
  (findModuleByNameSafe s name = findModuleByName s name ∧
      ∀ i, findModuleByNameSafe s name = some i → (s.modules i).base ≠ 0) ↔
    ∀ i : Slot, i.val < s.moduleCount → sameName (s.modules i).name.bytes name.bytes = true →
      ∃ j ≤ i, (s.modules j).base ≠ 0 ∧ sameName (s.modules j).name.bytes name.bytes = true
  := by
  intro s
  have hocc (heq : findModuleByNameSafe s name = findModuleByName s name) :
      ∀ i, findModuleByNameSafe s name = some i → (s.modules i).base ≠ 0 := by
    intro i hi
    apply (findModuleByName_spec (heq.symm.trans hi)).2.1
  rw [and_iff_left_of_imp hocc, findModuleByNameSafe, findModuleByName,
    Table.firstSlot_eq_firstSlot_iff]
  · simp only [decide_eq_true_eq, and_imp, sameName_iff]
    apply forall₃_congr
    intro i hi _
    apply exists_congr
    intro j
    apply and_congr_right
    intro hj
    rw [and_iff_right]
    omega
  · simp only [decide_eq_true_eq]
    rintro i ⟨hi, -, hname⟩
    exact ⟨hi, hname⟩

theorem free_slot_found_by_name :
  let s := ((RegistryRun.addTwoRemove 0).foldl RegistryRun.step .init).list
  findModuleByNameSafe s (.ofString "") = some 0 ∧ (s.modules 0).base = 0 ∧
    findModuleByName s (.ofString "") = none
  := by
  decide +kernel

/-! ### Runs -/

/-- A call of the guest. -/
inductive LibraryCall where
  | load (name : Option CString)
  | free (hModule : Ptr)

def step {b : Build} (env : Env b) (s : LoaderState) : LibraryCall → LoaderState
  | .load name => (loadLibraryA env name s).2
  | .free hModule => (freeLibraryA b hModule s).2

/-- No module is freed into which a filled IAT slot of another registered module points. -/
def NoDangling (b : Build) (s : LoaderState) : LibraryCall → Prop
  | .load _ => True
  | .free hModule => ∀ i m, freedModule b hModule s = some i → s.registered i = some m →
    ∀ j m', j ≠ i → s.registered j = some m' → ∀ f ∈ s.fills m'.base, f.address ∉ m.region

def Unimported (s : LoaderState) (i : Slot) (m : ModuleInfo) : Prop :=
  ∀ j m' nt n, j ≠ i → s.registered j = some m' → m'.nt = some nt →
    DescriptorAt nt (s.image m'.base) n → strcasecmp m.name (importDll nt (s.image m'.base) n) ≠ 0

def NotImported (b : Build) (s : LoaderState) : LibraryCall → Prop
  | .load _ => True
  | .free hModule => ∀ i m, freedModule b hModule s = some i → s.registered i = some m →
    Unimported s i m

/-! ### The calls keep the links -/

section

variable {b : Build} {env : Env b} {s : LoaderState} {i : Slot}

theorem findModuleByNameSafe_spec {list : ModuleList} {name : CString}
    (h : findModuleByNameSafe list name = some i) :
  i.val < list.moduleCount ∧ strcasecmp (list.modules i).name name = 0
  := by
  obtain ⟨hi, -⟩ := Table.firstSlot_eq_some_iff.mp h
  apply of_decide_eq_true hi

theorem not_aligned_handle :
  ∀ m ∈ builtinModules, ¬ pageSize ∣ m.handle
  := by
  decide

theorem findBuiltinModuleByHandle_of_aligned {a : Ptr} (h : pageSize ∣ a) :
  findBuiltinModuleByHandle a = none
  := by
  rw [findBuiltinModuleByHandle, List.find?_eq_none]
  intro m hm heq
  apply not_aligned_handle m hm
  rw [of_decide_eq_true heq]
  apply h

theorem module_addLoadCount (i : Slot) (n : ℤ) (s : LoaderState) (j : Slot) :
  (addLoadCount i n s).module j =
    { s.module j with loadCount := (s.module j).loadCount + if j = i then n else 0 }
  := by
  simp only [addLoadCount, LoaderState.module, LoaderState.setModule]
  rcases eq_or_ne j i with rfl | hne
  · rw [update_self, if_pos rfl]
  · rw [update_of_ne hne, if_neg hne, add_zero]

theorem registered_addLoadCount (i : Slot) (n : ℤ) (s : LoaderState) (j : Slot) :
  (addLoadCount i n s).registered j = (s.registered j).map fun m =>
    { m with loadCount := m.loadCount + if j = i then n else 0 }
  := by
  simp only [LoaderState.registered, module_addLoadCount, LoadedModule.info]
  split
  · rfl
  · rfl

variable {j : Slot} {m m' : ModuleInfo}

theorem addLoadCount_registered {n : ℤ} (h : (addLoadCount i n s).registered j = some m) :
  s.registered j = some { m with loadCount := m.loadCount - if j = i then n else 0 }
  := by
  rw [registered_addLoadCount, map_eq_some_iff] at h
  obtain ⟨m', hm', rfl⟩ := h
  simp [hm']

theorem registered_addLoadCount_of_some (n : ℤ) (h : s.registered j = some m) :
  (addLoadCount i n s).registered j =
    some { m with loadCount := m.loadCount + if j = i then n else 0 }
  := by
  rw [registered_addLoadCount, h, map_some]

theorem wellFormed_addLoadCount (n : ℤ) (h : WellFormed s) :
  WellFormed (addLoadCount i n s)
  where
  count := by
    have hoccupied : Table.occupied (fun m => m.isSome = true) (addLoadCount i n s).registered =
        Table.occupied (fun m => m.isSome = true) s.registered := by
      ext j
      rw [Table.mem_occupied, Table.mem_occupied, registered_addLoadCount, isSome_map]
    rw [hoccupied]
    apply h.count
  linked := by
    intro ldr hldr j hj
    apply h.linked hldr
    intro m hm
    apply hj _ (registered_addLoadCount_of_some n hm)
  nodup := h.nodup

theorem placed_addLoadCount (n : ℤ) (h : Placed s) :
  Placed (addLoadCount i n s)
  := by
  have hregions : (addLoadCount i n s).regions = s.regions := by
    funext j
    rw [LoaderState.regions, registered_addLoadCount, Option.map_map, LoaderState.regions]
    rfl
  rw [placed_iff_owns, hregions]
  exact ⟨wellFormed_addLoadCount n h.wellFormed, (placed_iff_owns.mp h).2⟩

theorem linked_addLoadCount (n : ℤ) (h : Linked env [] s) :
  Linked env [] (addLoadCount i n s)
  where
  placed := placed_addLoadCount n h.placed
  stubs ha := by
    obtain ⟨hmapped, hapart⟩ := h.stubs ha
    use hmapped
    intro j m hj
    have hnot := hapart (addLoadCount_registered hj)
    exact hnot
  fills := by
    intro j m hj hnot f hf
    rcases h.fills (addLoadCount_registered hj) hnot f hf with hstub | hlink
    · exact Or.inl hstub
    · obtain ⟨k, m', nt, n', hk, hpending, hrest⟩ := hlink
      right
      exact ⟨k, _, nt, n', registered_addLoadCount_of_some n hk, hpending, hrest⟩

theorem ldrLinked_detachModule (m : LoadedModule) :
  (detachModule m).ldrLinked = m.ldrLinked
  := by
  rw [detachModule]
  split
  · rfl
  · split_ifs
    · rfl
    · rfl

theorem unmapModule_spec {m : LoadedModule} (hbase : m.base ≠ 0) (s : LoaderState) :
  let s' := unmapModule m s
  s'.list = s.list ∧ s'.pebLdr = s.pebLdr ∧ s'.image = s.image ∧ s'.fills = s.fills ∧
    ∀ x, s'.Mapped x ↔ s.Mapped x ∧ x ∉ pages m.base (m.nt.elim 0 peSizeOfImage)
  := by
  simp only [unmapModule]
  split
  · next hnt =>
    refine ⟨rfl, rfl, rfl, rfl, ?_⟩
    intro x
    have hempty : x ∉ pages m.base 0 := by
      simp only [Region.mem_iff, pages, pageRoundUp]
      omega
    rw [hnt]
    simp [hempty]
  · next nt hnt =>
    rw [if_pos hbase, hnt]
    refine ⟨rfl, rfl, rfl, rfl, ?_⟩
    intro x
    apply LoaderState.mapped_munmap

@[simp]
theorem unloadModule_main (i : Slot) (s : LoaderState) :
  (unloadModule i s).main = s.main
  := by
  have hldr : ∀ s : LoaderState, (ldrRemoveModule s i).main = s.main := by
    intro s
    simp only [ldrRemoveModule]
    split
    · rfl
    · split_ifs
      · rfl
      · rfl
  have hunmap : ∀ m s, (unmapModule m s).main = s.main := by
    intro m s
    rw [unmapModule]
    split
    · rfl
    · split_ifs
      · rfl
      · rfl
  simp only [unloadModule, hunmap, hldr]
  rfl

/-- The module that is unloaded is taken out of the registry and of the lists, and its image is
unmapped. -/
theorem unloadModule_spec (hwf : WellFormed s) (hi : s.registered i = some m)
    (hlt : i.val < s.list.moduleCount) :
  let s' := unloadModule i s
  s'.registered = update s.registered i none ∧
    s'.list.moduleCount = s.list.moduleCount - 1 ∧
    s'.pebLdr = (s.pebLdr.map fun ldr => ldr.map (·.erase i)) ∧
    (∀ x, s'.Mapped x ↔ s.Mapped x ∧ x ∉ m.region) ∧ s'.image = s.image ∧ s'.fills = s.fills
  := by
  obtain ⟨hbase, hbase', -, hnt, -, hlinked⟩ := LoaderState.registered_eq_some_iff.mp hi
  let s₁ := s.setModule i (resetExportCache (detachModule (s.module i)))
  obtain ⟨⟨m₁, hlist₁⟩, hused, himage, hfills, hldr⟩ := ldrRemoveModule_spec s₁ i
  obtain ⟨hlist₂, hldr₂, himage₂, hfills₂, hmapped⟩ :=
    unmapModule_spec hbase (ldrRemoveModule s₁ i)
  have hlist : (unloadModule i s).list =
      ⟨update s.list.modules i .zero, s.list.moduleCount - 1⟩ := by
    rw [← removeModule_update hlt m₁]
    simp only [unloadModule]
    rw [hlist₂, hlist₁]
    simp [s₁, LoaderState.setModule]
  and_intros
  · apply LoaderState.registered_update (i := i) (m := .zero) (by rw [hlist]) rfl
  · rw [hlist]
  · apply hldr₂.trans
    apply hldr
    intro ldr hsome hunlinked
    apply hwf.linked hsome
    intro m' hm'
    rw [hi, some.injEq] at hm'
    rw [← hm', ← hlinked, ← ldrLinked_detachModule, ← hunlinked]
    simp [s₁, LoaderState.module, LoaderState.setModule, resetExportCache]
  · intro x
    apply (hmapped x).trans
    rw [ModuleInfo.region, ← hbase', ← hnt, LoaderState.Mapped, hused]
    rfl
  · exact himage₂.trans himage
  · exact hfills₂.trans hfills

theorem LinkOk.ne_of_unimported {f : Fill} (hun : Unimported s i m) (hi : s.registered i = some m)
    (hj : s.registered j = some m') (hne : j ≠ i) (h : LinkOk env [] s m' f) :
  IsStubAddress env f.address ∨ ∃ k m'' nt n, k ≠ i ∧ s.registered k = some m'' ∧
    strcasecmp m''.name f.dllName = 0 ∧ f.address ∈ m''.region ∧ m'.nt = some nt ∧
    DescriptorAt nt (s.image m'.base) n ∧ f.dllName = importDll nt (s.image m'.base) n
  := by
  rcases h with hstub | ⟨k, m'', nt, n, hk, -, hname, haddr, hnt, hdesc, hdll⟩
  · exact Or.inl hstub
  · right
    refine ⟨k, m'', nt, n, ?_, hk, hname, haddr, hnt, hdesc, hdll⟩
    rintro rfl
    rw [hi, some.injEq] at hk
    subst hk
    apply hun j m' nt n hne hj hnt hdesc
    rwa [← hdll]

theorem registered_of_unloadModule (hwf : WellFormed s) (hi : s.registered i = some m)
    (hlt : i.val < s.list.moduleCount) (hj : (unloadModule i s).registered j = some m') :
  j ≠ i ∧ s.registered j = some m'
  := by
  obtain ⟨hreg, -⟩ := unloadModule_spec hwf hi hlt
  rwa [hreg, update_apply, Option.ite_none_left_eq_some] at hj

theorem placed_unloadModule (h : Placed s) (hi : s.registered i = some m)
    (hlt : i.val < s.list.moduleCount) :
  Placed (unloadModule i s)
  := by
  obtain ⟨hreg, hcount, hldr, hmapped, -⟩ := unloadModule_spec h.wellFormed hi hlt
  have hother {j m'} := @registered_of_unloadModule s i j m m' h.wellFormed hi hlt
  constructor
  · apply h.wellFormed.remove hi hreg hcount hldr
  · intro j m' hj
    apply h.pos (hother hj).2
  · intro j m' hj x hx
    rw [hmapped]
    refine ⟨h.mapped (hother hj).2 x hx, ?_⟩
    apply (h.apart (hother hj).2 hi (hother hj).1).notMem hx
  · intro j k m' m'' hj hk hne
    apply h.apart (hother hj).2 (hother hk).2 hne

theorem linked_unloadModule (h : Linked env [] s) (hi : s.registered i = some m)
    (hlt : i.val < s.list.moduleCount) (hun : Unimported s i m) :
  Linked env [] (unloadModule i s)
  := by
  obtain ⟨hreg, -, -, hmapped, himage, hfills⟩ := unloadModule_spec h.placed.wellFormed hi hlt
  have hother {j m'} := @registered_of_unloadModule s i j m m' h.placed.wellFormed hi hlt
  constructor
  · apply placed_unloadModule h.placed hi hlt
  · intro a ha
    obtain ⟨ham, hapart⟩ := h.stubs ha
    rw [hmapped]
    refine ⟨⟨ham, hapart hi⟩, ?_⟩
    intro j m' hj
    apply hapart (hother hj).2
  · intro j m' hj hnot f hf
    obtain ⟨hne, hj⟩ := hother hj
    rw [hfills] at hf
    rcases LinkOk.ne_of_unimported hun hi hj hne (h.fills hj hnot f hf) with hstub | hlink
    · exact Or.inl hstub
    · obtain ⟨k, m'', nt, n, hk, hreg', hname, haddr, hnt, hdesc, hdll⟩ := hlink
      right
      rw [← himage] at hdesc hdll
      refine ⟨k, m'', nt, n, ?_, not_mem_nil, hname, haddr, hnt, hdesc, hdll⟩
      rwa [hreg, update_of_ne hk]

theorem unimported_addLoadCount {n : ℤ} (h : Unimported s i m) (hname : m'.name = m.name) :
  Unimported (addLoadCount i n s) i m'
  := by
  intro j m'' nt k hne hj hnt hdesc
  rw [hname]
  have hnot := h j _ nt k hne (addLoadCount_registered hj) hnt hdesc
  exact hnot

theorem mem_region_of_containsAddr {a : Ptr} (h : (s.module i).containsAddr b a = true) :
  ∃ m, s.registered i = some m ∧ a ∈ m.region
  := by
  rw [LoadedModule.containsAddr] at h
  split at h
  · cases h
  · next nt hnt =>
    rw [decide_eq_true_eq] at h
    obtain ⟨hbase, hle, hlt⟩ := h
    refine ⟨_, registered_of_base_ne hbase, ?_⟩
    have hwrap : b.wrap ((s.module i).base + peSizeOfImage nt) ≤
        (s.module i).base + peSizeOfImage nt := Nat.mod_le _ _
    rw [ModuleInfo.region, hnt, elim_some, Region.mem_iff]
    refine ⟨hle, lt_of_lt_of_le hlt (hwrap.trans ?_)⟩
    apply Nat.add_le_add_left (le_pageRoundUp _)

theorem registered_of_findModuleByAddr {a : Ptr} (h : findModuleByAddr b s.list a = some i) :
  i.val < s.list.moduleCount ∧ ∃ m, s.registered i = some m
  := by
  obtain ⟨hlt, hcontains⟩ := findModuleByAddr_spec h
  obtain ⟨m, hm, -⟩ := mem_region_of_containsAddr hcontains
  exact ⟨hlt, m, hm⟩

/-- `FreeLibraryA` changes nothing, or it takes one off the count of a registered module, which is
then unloaded or not. -/
theorem freeLibraryA_cases (b : Build) (hModule : Ptr) (s : LoaderState) :
  findLibrary b hModule s = none ∧ freedModule b hModule s = none ∧
      (freeLibraryA b hModule s).2 = s ∨
    ∃ i m, s.registered i = some m ∧ i.val < s.list.moduleCount ∧
      findLibrary b hModule s = some i ∧
      (freedModule b hModule s = none ∧ 1 < m.loadCount ∧
          (freeLibraryA b hModule s).2 = addLoadCount i (-1) s ∨
        freedModule b hModule s = some i ∧ m.loadCount ≤ 1 ∧
          (freeLibraryA b hModule s).2 = unloadModule i (addLoadCount i (-1) s))
  := by
  rw [freeLibraryA, freedModule, findLibrary]
  split_ifs with hbuiltin
  · exact Or.inl ⟨rfl, rfl, rfl⟩
  · cases hfind : findModuleByAddr b s.list hModule with
    | none => exact Or.inl ⟨rfl, rfl, rfl⟩
    | some i =>
      obtain ⟨hlt, m, hi⟩ := registered_of_findModuleByAddr hfind
      obtain ⟨-, -, -, -, hloadCount, -⟩ := LoaderState.registered_eq_some_iff.mp hi
      have heq : ((addLoadCount i (-1) s).module i).loadCount = m.loadCount + -1 := by
        rw [← hloadCount]
        simp [addLoadCount, LoaderState.module, LoaderState.setModule]
      right
      use i, m, hi, hlt, rfl
      simp only [heq, hloadCount, filter_some, decide_eq_true_eq]
      by_cases hcount : 1 < m.loadCount
      · left
        rw [if_neg (by omega), if_pos (by omega)]
        exact ⟨rfl, hcount, rfl⟩
      · right
        rw [if_pos (by omega), if_neg (by omega)]
        exact ⟨rfl, by omega, rfl⟩

theorem loadLibraryA_of_invariant (Inv : LoaderState → Prop) (name : Option CString) (hs : Inv s)
    (hcount : ∀ i, Inv (addLoadCount i 1 s)) (hload : ∀ path, Inv (loadDll env path 0 s).2) :
  Inv (loadLibraryA env name s).2
  := by
  cases name with
  | none => apply hs
  | some name =>
    simp only [loadLibraryA, loadLibraryWith]
    split
    · apply hcount
    · split
      · apply hs
      · split
        · apply hs
        · next path _ =>
          have hpath := hload path
          split
          · next heq => rwa [heq] at hpath
          · next heq => rwa [heq] at hpath

theorem freeLibraryA_of_invariant (Inv : LoaderState → Prop) (hModule : Ptr) (hs : Inv s)
    (hcount : ∀ i, Inv (addLoadCount i (-1) s))
    (hunload : ∀ i m, s.registered i = some m → i.val < s.list.moduleCount →
      freedModule b hModule s = some i → Inv (unloadModule i (addLoadCount i (-1) s))) :
  Inv (freeLibraryA b hModule s).2
  := by
  rcases freeLibraryA_cases b hModule s with ⟨-, -, heq⟩ | ⟨i, m, hi, hlt, -, hcase⟩
  · rwa [heq]
  · rcases hcase with ⟨-, -, heq⟩ | ⟨hfreed, -, heq⟩
    · rw [heq]
      apply hcount
    · rw [heq]
      apply hunload i m hi hlt hfreed

/-- A call of `LoadLibraryA` that succeeds counts a registered module, names a builtin module or
loads a DLL. -/
theorem loadLibraryA_cases {name : CString} (h : (loadLibraryA env (some name) s).1 ≠ 0) :
  (∃ i, findModuleByNameSafe s.list name = some i ∧
      loadLibraryA env (some name) s = ((s.module i).base, addLoadCount i 1 s)) ∨
    findModuleByNameSafe s.list name = none ∧
      ((∃ m, findBuiltinModuleByName name = some m ∧
          loadLibraryA env (some name) s = (m.handle, s)) ∨
        findBuiltinModuleByName name = none ∧
          ∃ path i s', env.findDllPath name = some path ∧ loadDll env path 0 s = (some i, s') ∧
            loadLibraryA env (some name) s = ((s'.module i).base, s'))
  := by
  cases hfind : findModuleByNameSafe s.list name with
  | some i =>
    left
    exact ⟨i, rfl, by simp only [loadLibraryA, loadLibraryWith, hfind]⟩
  | none =>
    right
    use rfl
    cases hbuiltin : findBuiltinModuleByName name with
    | some m =>
      left
      exact ⟨m, rfl, by simp only [loadLibraryA, loadLibraryWith, hfind, hbuiltin]⟩
    | none =>
      right
      use rfl
      cases hpath : env.findDllPath name with
      | none => simp [loadLibraryA, loadLibraryWith, hfind, hbuiltin, hpath] at h
      | some path =>
        rcases hload : loadDll env path 0 s with ⟨_ | i, s'⟩
        · simp [loadLibraryA, loadLibraryWith, hfind, hbuiltin, hpath, hload] at h
        · exact ⟨path, i, s', rfl, hload, by
            simp only [loadLibraryA, loadLibraryWith, hfind, hbuiltin, hpath, hload]⟩

theorem linked_loadLibraryA (hkept : HeadersKept env) (hseparate : IatsSeparate env)
    (name : Option CString) (h : Linked env [] s) :
  Linked env [] (loadLibraryA env name s).2
  := by
  apply loadLibraryA_of_invariant (Linked env []) name h
  · intro i
    apply linked_addLoadCount 1 h
  · intro path
    apply linkSpec hkept hseparate 0 h
    intro p hp
    cases hp

theorem linked_freeLibraryA {hModule : Ptr} (h : Linked env [] s)
    (hnot : NotImported b s (.free hModule)) :
  Linked env [] (freeLibraryA b hModule s).2
  := by
  apply freeLibraryA_of_invariant (Linked env []) hModule h
  · intro i
    apply linked_addLoadCount (-1) h
  · intro i m hi hlt hfreed
    apply linked_unloadModule (linked_addLoadCount (-1) h) (registered_addLoadCount_of_some (-1) hi) hlt
    apply unimported_addLoadCount _ rfl
    apply hnot i m hfreed hi

theorem placed_step (hkept : HeadersKept env) (h : Placed s) (call : LibraryCall) :
  Placed (step env s call)
  := by
  cases call with
  | load name =>
    apply loadLibraryA_of_invariant Placed name h
    · intro i
      apply placed_addLoadCount 1 h
    · intro path
      apply (frameSpec hkept 0).placed h
  | free hModule =>
    apply freeLibraryA_of_invariant Placed hModule h
    · intro i
      apply placed_addLoadCount (-1) h
    · intro i m hi hlt _
      apply placed_unloadModule (placed_addLoadCount (-1) h) (registered_addLoadCount_of_some (-1) hi) hlt

theorem noDangling_of_notImported {call : LibraryCall} (h : Linked env [] s)
    (hnot : NotImported b s call) :
  NoDangling b s call
  := by
  cases call with
  | load name => trivial
  | free hModule =>
    intro i m hfreed hi j m' hne hj f hf haddr
    have hlink := h.fills hj not_mem_nil f hf
    rcases LinkOk.ne_of_unimported (hnot i m hfreed hi) hi hj hne hlink with hstub | hlink
    · exact (h.stubs hstub).2 hi haddr
    · obtain ⟨k, m'', -, -, hk, hreg, -, haddr', -⟩ := hlink
      apply (h.placed.apart hreg hi hk).notMem haddr' haddr

theorem linked_step (hkept : HeadersKept env) (hseparate : IatsSeparate env) {call : LibraryCall}
    (h : Linked env [] s) (hnot : NotImported b s call) :
  Linked env [] (step env s call)
  := by
  cases call with
  | load name => apply linked_loadLibraryA hkept hseparate name h
  | free hModule => apply linked_freeLibraryA h hnot

end

/-! ### The start of the process -/

section

variable {b : Build} {env : Env b}

def initPebLdr (ok : Bool) : Option PebLdrData := if ok then some ⟨[], [], []⟩ else none

def registerMain (ldrOk : Bool) (base : Ptr) (nt : ImageNtHeaders) (s : LoaderState) :
    LoaderState :=
  let s := { s with list := initModuleList, pebLdr := initPebLdr ldrOk }
  if s.pebLdr.isSome ∧ base ≠ 0 then
    match addModule s.list base (.ofString "main.exe") nt with
    | (none, _) => s
    | (some mod, list) => ldrAddModule { s with list } mod
  else s

/-- The main image is mapped apart from the stubs, and its imports have been resolved, which is
done before any module is registered. -/
structure MainBound (env : Env b) (base : Ptr) (nt : ImageNtHeaders) (s : LoaderState) : Prop where
  size : peSizeOfImage nt ≠ 0
  mapped : ∀ x ∈ pages base (peSizeOfImage nt), s.Mapped x
  stubs : ∀ {a}, IsStubAddress env a → s.Mapped a ∧ a ∉ pages base (peSizeOfImage nt)
  bound : ∃ l s₀, l.base = base ∧ s₀.list = initModuleList ∧
    IatSeparate l.nt (s₀.image base) ∧ bindImports env l s₀ = (true, s)

theorem addModule_initModuleList (base : Ptr) (name : CString) (nt : ImageNtHeaders) :
  addModule initModuleList base name nt =
    (some 0, ⟨update (fun _ => .zero) 0 (newModule base name nt), 1⟩)
  := by
  have hfirst : Table.firstSlot (fun i => decide ((initModuleList.modules i).base = 0)) =
      some 0 := by
    rw [Table.firstSlot_eq_some_iff]
    use rfl
    intro j hj
    cases Fin.not_lt_zero j hj
  rw [addModule, hfirst]
  rfl

theorem registerMain_spec (ldrOk : Bool) (base : Ptr) (nt : ImageNtHeaders) (s : LoaderState) :
  let s' := registerMain ldrOk base nt s
  (s'.used = s.used ∧ s'.image = s.image ∧ s'.fills = s.fills) ∧
    (s'.registered = (fun _ => none) ∧ s'.list.moduleCount = 0 ∧
        s'.pebLdr = initPebLdr ldrOk ∧ (ldrOk = false ∨ base = 0) ∨
      ∃ m, s'.registered = update (fun _ => none) 0 (some m) ∧ m.base = base ∧
        m.nt = some nt ∧ m.ldrLinked = true ∧ s'.list.moduleCount = 1 ∧
        s'.pebLdr = some ⟨[0], [0], [0]⟩)
  := by
  simp only [registerMain, addModule_initModuleList]
  split_ifs with hreg
  · obtain ⟨hldr, hbase⟩ := hreg
    cases ldrOk with
    | false => cases hldr
    | true =>
      let s₁ : LoaderState := { s with
        list := ⟨update (fun _ => .zero) 0 (newModule base (.ofString "main.exe") nt), 1⟩
        pebLdr := some ⟨[], [], []⟩ }
      have hmod : s₁.module 0 = newModule base (.ofString "main.exe") nt := by
        simp [s₁, LoaderState.module]
      obtain ⟨hself, -, hothers, hcount, hpeb, hused, himage, hfills⟩ :=
        ldrAddModule_newModule s₁ 0 hmod hbase
      refine ⟨⟨hused, himage, hfills⟩, Or.inr ⟨⟨base, copyStr (.ofString "main.exe") moduleNameSize,
        some nt, 1, true⟩, ?_, rfl, rfl, rfl, hcount, hpeb⟩⟩
      funext j
      rcases eq_or_ne j 0 with rfl | hne
      · rw [update_self]
        exact hself
      · rw [update_of_ne hne, LoaderState.registered_eq_none_iff]
        have hj := congrArg LoadedModule.base (hothers hne)
        apply hj.trans
        simp only [s₁, LoaderState.module, update_of_ne hne, LoadedModule.zero]
  · refine ⟨⟨rfl, rfl, rfl⟩, Or.inl ⟨?_, rfl, rfl, ?_⟩⟩
    · funext j
      rw [LoaderState.registered_eq_none_iff]
      rfl
    · rw [not_and_or, not_not] at hreg
      apply hreg.imp_left
      intro hldr
      cases ldrOk with
      | false => rfl
      | true => cases hldr rfl

@[simp]
theorem registerMain_main (ldrOk : Bool) (base : Ptr) (nt : ImageNtHeaders) (s : LoaderState) :
  (registerMain ldrOk base nt s).main = s.main
  := by
  simp only [registerMain, addModule_initModuleList]
  split_ifs
  · apply ldrAddModule_main
  · rfl

variable {base : Ptr} {nt : ImageNtHeaders} {s : LoaderState}

theorem MainBound.fills (h : MainBound env base nt s) :
  ∀ f ∈ s.fills base, IsStubAddress env f.address
  := by
  obtain ⟨l, s₀, rfl, hlist, hsep, hbind⟩ := h.bound
  have hnone : ∀ j, s₀.registered j = none := by
    intro j
    rw [LoaderState.registered_eq_none_iff, LoaderState.module, hlist]
    rfl
  have hnames : ExportNamesSeparate s₀.list l.base l.nt (s₀.image l.base) := by
    intro j nt' hj hnt'
    rw [hlist] at hnt'
    cases hnt'
  have hmem := bindImports_mem env hnames hsep (by rw [hbind])
  rw [hbind] at hmem
  intro f hf
  rcases hmem f hf with hstub | ⟨j, m, n, hj, -⟩
  · exact hstub
  · rw [hnone] at hj
    cases hj

theorem wellFormed_registerMain (ldrOk : Bool) (base : Ptr) (nt : ImageNtHeaders)
    (s : LoaderState) :
  WellFormed (registerMain ldrOk base nt s)
  := by
  obtain ⟨-, hcase⟩ := registerMain_spec ldrOk base nt s
  rcases hcase with ⟨hreg, hcount, hldr, -⟩ | ⟨m, hreg, -, -, hlinked, hcount, hldr⟩
  · have hempty : ∀ {ldr}, (registerMain ldrOk base nt s).pebLdr = some ldr →
        ldr = ⟨[], [], []⟩ := by
      intro ldr hsome
      rw [hldr, initPebLdr] at hsome
      split_ifs at hsome
      cases hsome
      rfl
    constructor
    · rw [hcount, hreg]
      rfl
    · intro ldr hsome i _
      rw [hempty hsome]
      exact ⟨not_mem_nil, not_mem_nil, not_mem_nil⟩
    · intro ldr hsome
      rw [hempty hsome]
      exact ⟨nodup_nil, nodup_nil, nodup_nil⟩
  · constructor
    · rw [hcount, hreg, Table.occupied_update_of_occ]
      · rfl
      · rfl
    · intro ldr hsome i hi
      rw [hldr, some.injEq] at hsome
      subst hsome
      have hne : i ∉ [(0 : Slot)] := by
        rw [mem_singleton]
        rintro rfl
        have hfalse := hi m (by rw [hreg, update_self])
        rw [hlinked] at hfalse
        cases hfalse
      exact ⟨hne, hne, hne⟩
    · intro ldr hsome
      rw [hldr, some.injEq] at hsome
      subst hsome
      exact ⟨nodup_singleton 0, nodup_singleton 0, nodup_singleton 0⟩

theorem eq_main_of_registerMain {ldrOk : Bool} {i : Slot} {m : ModuleInfo}
    (hi : (registerMain ldrOk base nt s).registered i = some m) :
  i = 0 ∧ m.base = base ∧ m.region = pages base (peSizeOfImage nt)
  := by
  obtain ⟨-, hcase⟩ := registerMain_spec ldrOk base nt s
  rcases hcase with ⟨hreg, -⟩ | ⟨m', hreg, hbase, hnt, -⟩
  · rw [hreg] at hi
    cases hi
  · rw [hreg] at hi
    rcases eq_or_ne i 0 with rfl | hne
    · rw [update_self, some.injEq] at hi
      rw [ModuleInfo.region, ← hi, hbase, hnt]
      exact ⟨rfl, rfl, rfl⟩
    · rw [update_of_ne hne] at hi
      cases hi

theorem mapped_registerMain {ldrOk : Bool} {x : ℕ} (hx : s.Mapped x) :
  (registerMain ldrOk base nt s).Mapped x
  := by
  obtain ⟨⟨hused, -⟩, -⟩ := registerMain_spec ldrOk base nt s
  rwa [LoaderState.Mapped, hused]

theorem placed_registerMain (hsize : peSizeOfImage nt ≠ 0)
    (hmapped : ∀ x ∈ pages base (peSizeOfImage nt), s.Mapped x) (ldrOk : Bool) :
  Placed (registerMain ldrOk base nt s)
  := by
  constructor
  · apply wellFormed_registerMain
  · intro i m hi
    have hle := le_pageRoundUp (peSizeOfImage nt)
    rw [(eq_main_of_registerMain hi).2.2]
    simp only [pages]
    omega
  · intro i m hi x hx
    rw [(eq_main_of_registerMain hi).2.2] at hx
    apply mapped_registerMain (hmapped x hx)
  · intro i j m m' hi hj hne
    rw [(eq_main_of_registerMain hi).1, (eq_main_of_registerMain hj).1] at hne
    cases hne rfl

theorem linked_registerMain (h : MainBound env base nt s) (ldrOk : Bool) :
  Linked env [] (registerMain ldrOk base nt s)
  := by
  obtain ⟨⟨-, -, hfills⟩, -⟩ := registerMain_spec ldrOk base nt s
  constructor
  · apply placed_registerMain h.size h.mapped
  · intro a ha
    obtain ⟨ham, hapart⟩ := h.stubs ha
    use mapped_registerMain ham
    intro i m hi
    rwa [(eq_main_of_registerMain hi).2.2]
  · intro j m hj _ f hf
    rw [hfills, (eq_main_of_registerMain hj).2.1] at hf
    apply Or.inl (h.fills f hf)

end

/-- In a run that frees no module that is imported, no module is freed into which a filled IAT slot
of another one points. -/
theorem no_dangling_imports {b : Build} {env : Env b} (hkept : HeadersKept env)
    (hseparate : IatsSeparate env) {base : Ptr} {nt : ImageNtHeaders} {s : LoaderState}
    (h : MainBound env base nt s) (ldrOk : Bool) {calls : List LibraryCall}
    (hnot : Run.Along (step env) (NotImported b) (registerMain ldrOk base nt s) calls) :
  Run.Along (step env) (NoDangling b) (registerMain ldrOk base nt s) calls
  := by
  apply hnot.imp_of_invariant (Linked env [])
  · intro s' call hlinked hcall
    apply linked_step hkept hseparate hlinked hcall
  · intro s' call hlinked hcall
    apply noDangling_of_notImported hlinked hcall
  · apply linked_registerMain h ldrOk

/-! ### A module that is freed while it is imported -/

def exportingDll : List (ℕ × ℕ × ℕ) :=
  [(180, 4, 1), (184, 4, 0x200), (188, 4, 0x60), (0x210, 4, 1), (0x214, 4, 1), (0x218, 4, 1),
    (0x21C, 4, 0x240), (0x220, 4, 0x248), (0x224, 4, 0x250), (0x240, 4, 0x290), (0x248, 4, 0x258),
    (0x258, 1, 0x66)]

def importingDll : List (ℕ × ℕ × ℕ) :=
  [(180, 4, 2), (192, 4, 0x200), (196, 4, 40), (0x20C, 4, 0x260), (0x210, 4, 0x2A0),
    (0x260, 5, 0x6C6C642E62), (0x282, 1, 0x66), (0x2A0, 4, 0x280)]

def libraryEnv : Env .i386 where
  kernel := .roomy .i386
  file path :=
    if path = .ofString "a.dll" then some (plainDll importingDll)
    else if path = .ofString "b.dll" then some (plainDll exportingDll)
    else none
  findDllPath name := some name
  importTable := []
  ordinalTable := []
  dllMain _ _ := true

def mainHeaders : ImageNtHeaders where
  peType := .pe32
  fileHeader := ⟨0x14C, 0, 0, 0, 0, 224, 0⟩
  optionalHeader := ⟨0, 0, 0x1000, 0, 0, 0, 0, fun _ => ⟨0, 0⟩⟩

def libraryStart : LoaderState := registerMain true 0x00400000 mainHeaders bareState

theorem libraryEnv_file {path : CString} {f : File} (h : libraryEnv.file path = some f) :
  f = plainDll importingDll ∨ f = plainDll exportingDll
  := by
  simp only [libraryEnv] at h
  split_ifs at h
  · cases h
    exact Or.inl rfl
  · cases h
    exact Or.inr rfl

theorem headersKept_libraryEnv :
  HeadersKept libraryEnv
  := by
  apply headersKept_of_isPlain
  intro path f hf
  rcases libraryEnv_file hf with rfl | rfl
  · decide
  · decide

theorem iatsSeparate_libraryEnv :
  IatsSeparate libraryEnv
  := by
  apply iatsSeparate_of_isPlain rfl
  intro path f hf
  rcases libraryEnv_file hf with rfl | rfl
  · exact ⟨importingDll, rfl, by decide, by decide, Or.inl (by decide)⟩
  · exact ⟨exportingDll, rfl, by decide, by decide, Or.inr (by decide)⟩

theorem mainBound_libraryStart :
  MainBound libraryEnv 0x00400000 mainHeaders bareState
  where
  size := by decide
  mapped x hx := ⟨_, mem_singleton_self _, hx⟩
  stubs := by
    rintro a ⟨-, e, he, -⟩
    cases he
  bound := by
    use ⟨0, 0x00400000, 0, mainHeaders⟩, bareState, rfl, rfl
    constructor
    · apply iatSeparate_of_no_descriptor
      apply not_descriptorAt_of_size
      decide
    · have hdir : peGetDataDir mainHeaders directoryEntryImport = none := by decide
      have hpass : ∀ resolve img, resolveImportPass1 [] resolve mainHeaders img =
          (true, ⟨img, []⟩) := by
        intro resolve img
        rw [resolveImportPass1, hdir]
      simp [bindImports, libraryEnv, resolveImports_eq_pass1, hpass, bareState]

theorem loads_grow_two :
  let s' := [(.ofString "b.dll", 0), (.ofString "a.dll", 0)].foldl
    (fun s l => (loadDll libraryEnv l.1 l.2 s).2) libraryStart
  Placed s' ∧ Grows none libraryStart s'
  := by
  apply loads_grow headersKept_libraryEnv
  apply placed_registerMain (by decide) mainBound_libraryStart.mapped

/-- `"b.dll"` is loaded, and then `"a.dll"`, which is bound to it. -/
def bothLoaded : LoaderState :=
  step libraryEnv (step libraryEnv libraryStart (.load (some (.ofString "b.dll"))))
    (.load (some (.ofString "a.dll")))

/-- `"b.dll"` is freed while `"a.dll"` is bound to it. -/
theorem freeLibrary_dangles :
  HeadersKept libraryEnv ∧ IatsSeparate libraryEnv ∧
    MainBound libraryEnv 0x00400000 mainHeaders bareState ∧
    ¬ Run.Along (step libraryEnv) (NoDangling .i386) libraryStart
      [.load (some (.ofString "b.dll")), .load (some (.ofString "a.dll")), .free 0x60000000]
  := by
  refine ⟨headersKept_libraryEnv, iatsSeparate_libraryEnv, mainBound_libraryStart, ?_⟩
  rintro ⟨-, -, hfree, -⟩
  have hfreed : freedModule .i386 0x60000000 bothLoaded = some 1 := by
    decide +kernel
  have hmod : (bothLoaded.registered 1).map (fun m => decide (0x60000290 ∈ m.region)) =
      some true := by
    decide +kernel
  have hother : (bothLoaded.registered 2).map (·.base) = some 0x60001000 := by
    decide +kernel
  have hfill : (bothLoaded.fills 0x60001000).map (·.address) = [0x60000290] := by
    decide +kernel
  obtain ⟨m, hm, hregion⟩ := map_eq_some_iff.mp hmod
  obtain ⟨m', hm', hbase⟩ := map_eq_some_iff.mp hother
  have hmem : (0x60000290 : Ptr) ∈ (bothLoaded.fills m'.base).map (·.address) := by
    rw [hbase, hfill]
    apply mem_singleton_self
  obtain ⟨f, hf, haddr⟩ := mem_map.mp hmem
  apply hfree 1 m hfreed hm 2 m' (by decide) hm' f hf
  rw [haddr]
  exact of_decide_eq_true hregion

theorem notImported_of_no_directory {b : Build} {s : LoaderState} {hModule : Ptr} {i : Slot}
    (hfreed : freedModule b hModule s = some i)
    (h : ∀ j, j ≠ i → ((s.registered j).bind (·.nt)).all (fun nt =>
      decide ((importDir nt).size.toNat < sizeofImportDescriptor)) = true) :
  NotImported b s (.free hModule)
  := by
  intro i' m hfreed' _ j m' nt n hne hj hnt hdesc
  rw [hfreed, some.injEq] at hfreed'
  subst hfreed'
  have hsize := h j hne
  rw [hj, bind_some, hnt, all_some, decide_eq_true_eq] at hsize
  cases not_descriptorAt_of_size hsize n hdesc

/-- `"a.dll"` is freed before `"b.dll"`, which it imports from. -/
theorem no_dangling_imports_in_order :
  let calls : List LibraryCall :=
    [.load (some (.ofString "b.dll")), .load (some (.ofString "a.dll")), .free 0x60001000,
      .free 0x60000000]
  Run.Along (step libraryEnv) (NotImported .i386) libraryStart calls ∧
    Run.Along (step libraryEnv) (NoDangling .i386) libraryStart calls
  := by
  intro calls
  have hnot : Run.Along (step libraryEnv) (NotImported .i386) libraryStart calls := by
    refine ⟨trivial, trivial, ?_, ?_, trivial⟩
    · apply notImported_of_no_directory (i := 2)
      · decide +kernel
      · decide +kernel
    · apply notImported_of_no_directory (i := 1)
      · decide +kernel
      · decide +kernel
  use hnot
  apply no_dangling_imports headersKept_libraryEnv iatsSeparate_libraryEnv mainBound_libraryStart
    true hnot

end Kernel32
