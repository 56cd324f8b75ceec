import MyWine.Kernel32.Library
import MyWine.Kernel32.Resources

/-!
# The main module

The main image is the module in the first slot of the registry.  `GetModuleHandleA` of
`msvcrt/kernel32_module.c` and `wine_resource_get_root` of `msvcrt/resource_win32.c` take that slot
when they are given no module.  Nothing else distinguishes the main image, so that `FreeLibraryA`
unloads it when its count drops to zero.

The `i386` build registers the static `g_nt_headers` of `loader/pe32_entry.c` as its headers.  On
`x64` they are a local variable of `wire_peb_fields` of `loader/teb_peb.c`, whose address is registered
and whose memory is used for other things once the function has returned.  So the run of a guest
(`MainRun`) also has a step that overwrites them.  The main module stays as it was through a run
exactly when it is never freed and its headers are never overwritten (`main_permanent_iff`).
-/

open Pe SyscallSafe Loader

namespace Kernel32

open Function

/-! ### The lookups -/

def getModuleHandleA (name : Option CString) (s : LoaderState) : Ptr :=
  match name with
  | none => if 0 < s.list.moduleCount then (s.module 0).base else 0
  | some name =>
    match findBuiltinModuleByName name with
    | some m => m.handle
    | none =>
      match findModuleByNameSafe s.list name with
      | some i => (s.module i).base
      | none => 0

def directoryEntryResource : Fin 16 := Resource.directoryEntryResource

def sizeofResourceDirectory : ℕ := 16

/-- What `wine_resource_get_root` returns. -/
structure ResourceRoot where
  base : Ptr
  nt : ImageNtHeaders
  root : Ptr
  rootSize : ℕ

def resourceRoot (base : Ptr) (nt : ImageNtHeaders) : Option ResourceRoot :=
  let dir := nt.optionalHeader.dataDirectory directoryEntryResource
  if dir.virtualAddress = 0 ∨ dir.size.toNat < sizeofResourceDirectory then none
  else if !peRvaRangeIsValid dir.virtualAddress.toNat dir.size.toNat (peSizeOfImage nt) then none
  else some ⟨base, nt, base + dir.virtualAddress.toNat, dir.size.toNat⟩

def firstHeaders (s : LoaderState) : Option ImageNtHeaders :=
  if 0 < s.list.moduleCount then (s.module 0).nt else none

def wineResourceGetRoot (b : Build) (hModule : Ptr) (s : LoaderState) : Option ResourceRoot :=
  let base := if hModule = 0 then s.main.imageBase else hModule
  let nt :=
    if hModule = 0 then firstHeaders s
    else
      match findModuleByAddr b s.list hModule with
      | some i => (s.module i).nt
      | none => if hModule = s.main.imageBase then firstHeaders s else none
  if base = 0 then none else nt.bind (resourceRoot base)

/-! ### Runs -/

/-- The loader, and whether the first slot still has the address of the local variable of
`wire_peb_fields`. -/
structure MainRun where
  loader : LoaderState
  dangling : Bool

/-- A call of the guest, or a use of the memory of the local variable. -/
inductive MainCall where
  | load (name : Option CString)
  | free (hModule : Ptr)
  | getModuleHandle (name : Option CString)
  | overwrite (nt : ImageNtHeaders)

namespace MainRun

def init (b : Build) (nt : ImageNtHeaders) (s : LoaderState) : MainRun :=
  ⟨registerMain true s.main.imageBase nt s, decide (b = .x64)⟩

def step {b : Build} (env : Env b) (s : MainRun) : MainCall → MainRun
  | .load name => { s with loader := (loadLibraryA env name s.loader).2 }
  | .free hModule =>
    ⟨(freeLibraryA b hModule s.loader).2,
      s.dangling && decide (freedModule b hModule s.loader ≠ some 0)⟩
  | .getModuleHandle _ => s
  | .overwrite nt =>
    if s.dangling then
      { s with loader := s.loader.setModule 0 { s.loader.module 0 with nt := some nt } }
    else s

/-- The main image at `base` with the headers `nt` is mapped and registered, and it is the module
that is meant when none is given. -/
structure Permanent (b : Build) (base : Ptr) (nt : ImageNtHeaders) (s : MainRun) : Prop where
  registered : ∃ m, s.loader.registered 0 = some m ∧ m.base = base ∧ m.nt = some nt
  mapped : ∀ x ∈ pages base (peSizeOfImage nt), s.loader.Mapped x
  handle : getModuleHandleA none s.loader = s.loader.main.imageBase
  imageBase : s.loader.main.imageBase = base
  resource : wineResourceGetRoot b 0 s.loader = resourceRoot base nt

def Kept (b : Build) (nt : ImageNtHeaders) (s : MainRun) : MainCall → Prop
  | .load _ => True
  | .free hModule => freedModule b hModule s.loader ≠ some 0
  | .getModuleHandle _ => True
  | .overwrite nt' => s.dangling = true → nt' = nt

/-- The main image is registered in the first slot. -/
structure Inv (base : Ptr) (nt : ImageNtHeaders) (s : MainRun) : Prop where
  placed : Placed s.loader
  registered : ∃ m, s.loader.registered 0 = some m ∧ m.base = base ∧ m.nt = some nt
  imageBase : s.loader.main.imageBase = base

section

variable {b : Build} {env : Env b} {base : Ptr} {nt : ImageNtHeaders} {s : MainRun}

theorem Inv.permanent (h : Inv base nt s) :
  Permanent b base nt s
  := by
  obtain ⟨m, hm, hbase, hnt⟩ := h.registered
  obtain ⟨hne, hbase', -, hnt', -⟩ := LoaderState.registered_eq_some_iff.mp hm
  have hcount : 0 < s.loader.list.moduleCount := by
    rw [h.placed.wellFormed.count, Finset.card_pos]
    use 0
    rw [Table.mem_occupied, hm]
    rfl
  constructor
  · apply h.registered
  · intro x hx
    apply h.placed.mapped hm
    rwa [ModuleInfo.region, hbase, hnt]
  · rw [getModuleHandleA, if_pos hcount, h.imageBase, hbase', hbase]
  · apply h.imageBase
  · have hzero : base ≠ 0 := by rwa [← hbase, ← hbase']
    rw [wineResourceGetRoot, if_pos rfl, if_pos rfl, h.imageBase, if_neg hzero, firstHeaders,
      if_pos hcount, hnt', hnt, Option.bind_some]

theorem Inv.of_extends (h : Inv base nt s) {s' : LoaderState} (hplaced : Placed s')
    (hregistered : ∀ m, s.loader.registered 0 = some m →
      ∃ m', s'.registered 0 = some m' ∧ m'.base = m.base ∧ m'.nt = m.nt)
    (hbase : s'.main.imageBase = s.loader.main.imageBase) :
  Inv base nt { s with loader := s' }
  where
  placed := hplaced
  registered := by
    obtain ⟨m, hm, hmbase, hmnt⟩ := h.registered
    obtain ⟨m', hm', hbase', hnt'⟩ := hregistered m hm
    exact ⟨m', hm', hbase'.trans hmbase, hnt'.trans hmnt⟩
  imageBase := hbase.trans h.imageBase

theorem Inv.addLoadCount (h : Inv base nt s) (i : Slot) (n : ℤ) :
  Inv base nt { s with loader := addLoadCount i n s.loader }
  := by
  apply h.of_extends (placed_addLoadCount n h.placed)
  · intro m hm
    exact ⟨_, registered_addLoadCount_of_some n hm, rfl, rfl⟩
  · rfl

theorem loadDll_imageBase (env : Env b) (path : CString) (depth : ℤ) (s : LoaderState) :
  (loadDll env path depth s).2.main.imageBase = s.main.imageBase
  := by
  apply loadDll_main_of_invariant (fun g => g.imageBase = s.main.imageBase)
  · intro path s' h
    rw [openDll_main, MainImage.restore_eq, h]
  · rfl

theorem Inv.load (hkept : HeadersKept env) (h : Inv base nt s) (name : Option CString) :
  Inv base nt (s.step env (.load name))
  := by
  apply loadLibraryA_of_invariant (fun s' => Inv base nt { s with loader := s' }) name h
  · intro i
    apply h.addLoadCount
  · intro path
    apply h.of_extends ((frameSpec hkept 0).placed h.placed)
    · intro m hm
      exact ⟨m, ((frameSpec hkept 0).grows h.placed).registered hm, rfl, rfl⟩
    · apply loadDll_imageBase

theorem Inv.free (h : Inv base nt s) {hModule : Ptr} (hkeep : s.Kept b nt (.free hModule)) :
  Inv base nt (s.step env (.free hModule))
  := by
  have hfreed : freedModule b hModule s.loader ≠ some 0 := hkeep
  rw [step, decide_eq_true hfreed, Bool.and_true]
  apply freeLibraryA_of_invariant (fun s' => Inv base nt { s with loader := s' }) hModule h
  · intro i
    apply h.addLoadCount
  · intro i m hi hlt hfreed
    have hcount := h.addLoadCount i (-1)
    have hi' := registered_addLoadCount_of_some (i := i) (-1) hi
    have hne : 0 ≠ i := by
      rintro rfl
      exact hkeep hfreed
    obtain ⟨hreg, -⟩ := unloadModule_spec hcount.placed.wellFormed hi' hlt
    apply hcount.of_extends (placed_unloadModule hcount.placed hi' hlt)
    · intro m' hm'
      use m'
      rw [hreg, update_of_ne hne]
      exact ⟨hm', rfl, rfl⟩
    · rw [unloadModule_main]

theorem Inv.not_permanent_of_freed (h : Inv base nt s) {hModule : Ptr}
    (hfreed : freedModule b hModule s.loader = some 0) :
  ¬ Permanent b base nt (s.step env (.free hModule))
  := by
  intro hpermanent
  obtain ⟨m, hm, -⟩ := hpermanent.registered
  simp only [step] at hm
  rcases freeLibraryA_cases b hModule s.loader with ⟨-, hnone, -⟩ | ⟨i, m', hi, hlt, -, hcase⟩
  · rw [hfreed] at hnone
    cases hnone
  rcases hcase with ⟨hnone, -⟩ | ⟨hfreed', -, heq⟩
  · rw [hfreed] at hnone
    cases hnone
  · rw [hfreed, Option.some.injEq] at hfreed'
    subst hfreed'
    obtain ⟨hreg, -⟩ := unloadModule_spec (wellFormed_addLoadCount (i := 0) (-1) h.placed.wellFormed)
      (registered_addLoadCount_of_some (-1) hi) hlt
    rw [heq, hreg, update_self] at hm
    cases hm

theorem registered_overwrite {m : ModuleInfo} (hm : s.loader.registered 0 = some m)
    (hdangling : s.dangling = true) (nt' : ImageNtHeaders) :
  (s.step env (.overwrite nt')).loader.registered 0 = some { m with nt := some nt' }
  := by
  obtain ⟨hne, hbase, hname, -, hcount, hlinked⟩ := LoaderState.registered_eq_some_iff.mp hm
  rw [step, if_pos hdangling, LoaderState.registered_eq_some_iff]
  simp only [LoaderState.module, LoaderState.setModule, update_self]
  exact ⟨hne, hbase, hname, trivial, hcount, hlinked⟩

theorem step_overwrite_self (h : Inv base nt s) :
  s.step env (.overwrite nt) = s
  := by
  obtain ⟨m, hm, -, hnt⟩ := h.registered
  obtain ⟨-, -, -, hnt', -⟩ := LoaderState.registered_eq_some_iff.mp hm
  have hself : { s.loader.module 0 with nt := some nt } = s.loader.module 0 := by
    rw [← hnt, ← hnt']
  rw [step, hself, LoaderState.setModule, LoaderState.module, update_eq_self, ite_self]

theorem Inv.of_step (hkept : HeadersKept env) (h : Inv base nt s) {call : MainCall}
    (hkeep : s.Kept b nt call) :
  Inv base nt (s.step env call)
  := by
  cases call with
  | load name => apply h.load hkept
  | free hModule => apply h.free hkeep
  | getModuleHandle name => apply h
  | overwrite nt' =>
    cases hdangling : s.dangling with
    | false => rwa [step, hdangling, if_neg Bool.false_ne_true]
    | true =>
      cases hkeep hdangling
      rwa [step_overwrite_self h]

theorem Inv.kept_of_permanent (h : Inv base nt s) {call : MainCall}
    (hpermanent : Permanent b base nt (s.step env call)) :
  s.Kept b nt call
  := by
  cases call with
  | load name => trivial
  | free hModule =>
    intro hfreed
    exact h.not_permanent_of_freed hfreed hpermanent
  | getModuleHandle name => trivial
  | overwrite nt' =>
    intro hdangling
    obtain ⟨m, hm, -⟩ := h.registered
    obtain ⟨m', hm', -, hnt'⟩ := hpermanent.registered
    rw [registered_overwrite hm hdangling, Option.some.injEq] at hm'
    subst hm'
    cases hnt'
    rfl

theorem inv_init (b : Build) {s : LoaderState} (hbase : s.main.imageBase ≠ 0) (hsize : peSizeOfImage nt ≠ 0)
    (hmapped : ∀ x ∈ pages s.main.imageBase (peSizeOfImage nt), s.Mapped x) :
  Inv s.main.imageBase nt (init b nt s)
  where
  placed := placed_registerMain hsize hmapped true
  registered := by
    obtain ⟨-, hcase⟩ := registerMain_spec true s.main.imageBase nt s
    rcases hcase with ⟨-, -, -, hfalse | hzero⟩ | ⟨m, hreg, hm, hnt, -⟩
    · cases hfalse
    · cases hbase hzero
    · exact ⟨m, by rw [init, hreg, update_self], hm, hnt⟩
  imageBase := by rw [init, registerMain_main]

end

end MainRun

open MainRun

/-- Through a run after the main image has been registered, it stays mapped and registered and is
the module that is meant when none is given, exactly when no call takes its count to zero and, on
`x64`, the memory of the local variable with its headers keeps them. -/
theorem main_permanent_iff {b : Build} {env : Env b} (hkept : HeadersKept env)
    {nt : ImageNtHeaders} {s : LoaderState} (hbase : s.main.imageBase ≠ 0)
    (hsize : peSizeOfImage nt ≠ 0)
    (hmapped : ∀ x ∈ pages s.main.imageBase (peSizeOfImage nt), s.Mapped x)
    (calls : List MainCall) :
  Run.Along (MainRun.step env)
      (fun s' call => Permanent b s.main.imageBase nt (s'.step env call)) (init b nt s) calls ↔
    Run.Along (MainRun.step env) (Kept b nt) (init b nt s) calls
  := by
  apply Run.along_iff_of_invariant (Inv s.main.imageBase nt)
  · intro s' call hinv hpermanent
    apply hinv.of_step hkept (hinv.kept_of_permanent hpermanent)
  · intro s' call hinv
    constructor
    · apply hinv.kept_of_permanent
    · intro hkeep
      apply (hinv.of_step hkept hkeep).permanent
  · apply inv_init b hbase hsize hmapped

/-- `"b.dll"` is loaded and freed. -/
theorem main_permanent_after_load :
  Run.Along (MainRun.step libraryEnv)
    (fun s' call => Permanent .i386 0x00400000 mainHeaders (s'.step libraryEnv call))
    (init .i386 mainHeaders bareState)
    [.load (some (.ofString "b.dll")), .getModuleHandle none, .free 0x60000000]
  := by
  apply (main_permanent_iff headersKept_libraryEnv (s := bareState) (by decide) (by decide)
    mainBound_libraryStart.mapped _).mpr
  refine ⟨trivial, trivial, ?_, trivial⟩
  change freedModule _ _ _ ≠ _
  decide +kernel

/-- The main image is freed, and then no module is meant when none is given.  On `x64` the memory of
the local variable is used, and then the resources of the main image are looked up with what is
there. -/
theorem main_not_permanent :
  ((init .i386 mainHeaders bareState).step libraryEnv (.free 0x00400000)).loader.registered 0 = none ∧
    getModuleHandleA none
      ((init .i386 mainHeaders bareState).step libraryEnv (.free 0x00400000)).loader = 0 ∧
    ¬ Permanent .i386 0x00400000 mainHeaders
      ((init .i386 mainHeaders bareState).step libraryEnv (.free 0x00400000)) ∧
    ∀ env : Env .x64, ¬ Permanent .x64 0x00400000 { mainHeaders with peType := .pe64 }
      ((init .x64 { mainHeaders with peType := .pe64 } bareState).step env
        (.overwrite (RegistryRun.bareHeaders 0)))
  := by
  have hinv : Inv 0x00400000 mainHeaders (init .i386 mainHeaders bareState) :=
    inv_init .i386 (s := bareState) (by decide) (by decide) mainBound_libraryStart.mapped
  have hfreed : freedModule .i386 0x00400000 (init .i386 mainHeaders bareState).loader = some 0 := by
    decide +kernel
  refine ⟨?_, by decide +kernel, hinv.not_permanent_of_freed hfreed, ?_⟩
  · rw [LoaderState.registered_eq_none_iff]
    decide +kernel
  · intro env hpermanent
    have hinv : Inv 0x00400000 _ (init .x64 { mainHeaders with peType := .pe64 } bareState) :=
      inv_init .x64 (s := bareState) (by decide) (by decide) mainBound_libraryStart.mapped
    have hsize := congrArg peSizeOfImage (hinv.kept_of_permanent hpermanent rfl)
    revert hsize
    decide

end Kernel32
