import MyWine.Lib.Run
import MyWine.Lib.Table
import MyWine.SyscallSafeUtils
import MyWine.Pe.Headers

/-!
# The module registry

`loader/module_list.c` registers the loaded images in a table of `16` slots.  A module is the
pointer to its slot, here the index of the slot, and a slot is occupied when its base is not
`NULL`.  `addModule` fills the first free slot and `removeModule` clears a slot in place, while
the lookups and `removeModule` scan only the slots below `moduleCount`, the number of modules.

The registry is followed along runs of additions and removals (`RegistryRun`).  A module that was
added and not removed since is found as long as every removal is of the module in the last
occupied slot, for then the occupied slots are those below `moduleCount` (`Compact`); after the
removal of any other module some module is hidden (`registry_sound_iff`).
-/

open Pe SyscallSafe

namespace Loader

open Function List Option

def maxModules : ℕ := 16

instance : NeZero maxModules := ⟨by decide⟩

def moduleNameSize : ℕ := 260

/-! ### The data -/

structure ExportCache where
  base : Ptr
  exportDirRva : UInt32
  exportDirSize : UInt32
  addressOfFunctions : UInt32
  addressOfNames : UInt32
  addressOfNameOrdinals : UInt32
  numberOfFunctions : ℕ
  numberOfNames : ℕ
  baseOrdinal : UInt32
  nameTable : ℕ → UInt32
  ordinalTable : ℕ → UInt16
  funcTable : ℕ → UInt32

def ExportCache.zero : ExportCache :=
  ⟨0, 0, 0, 0, 0, 0, 0, 0, 0, fun _ => 0, fun _ => 0, fun _ => 0⟩

structure LdrUnicodeString where
  length : UInt16
  maximumLength : UInt16
  buffer : List UInt16

structure LdrDataTableEntry where
  dllBase : Ptr
  entryPoint : Ptr
  sizeOfImage : UInt32
  fullDllName : LdrUnicodeString
  baseDllName : LdrUnicodeString
  loadCount : ℤ
  timeDateStamp : UInt32

/-- `loaded_module_t`.  The headers that `nt` points to belong to the module alone, so that they
are part of it. -/
structure LoadedModule where
  base : Ptr
  name : CString
  nt : Option ImageNtHeaders
  exportCache : ExportCache
  ldrEntry : LdrDataTableEntry
  loadCount : ℤ
  ldrLinked : Bool
  dllmainCalled : Bool

def LoadedModule.zero : LoadedModule where
  base := 0
  name := .ofBytes []
  nt := none
  exportCache := .zero
  ldrEntry := ⟨0, 0, 0, ⟨0, 0, []⟩, ⟨0, 0, []⟩, 0, 0⟩
  loadCount := 0
  ldrLinked := false
  dllmainCalled := false

abbrev Slot : Type := Fin maxModules

/-- The fields `modules` and `module_count` of the loader state. -/
structure ModuleList where
  modules : Slot → LoadedModule
  moduleCount : ℕ

/-! ### The operations -/

def moduleMakeUnicodeString (src : CString) : LdrUnicodeString where
  length := UInt16.ofNat (src.length * 2)
  maximumLength := UInt16.ofNat ((src.length + 1) * 2)
  buffer := (src.bytes.take 260).map UInt8.toUInt16

def moduleInitLdrEntry (base : Ptr) (name : CString) (nt : ImageNtHeaders) : LdrDataTableEntry where
  dllBase := base
  entryPoint := base + peEntryRva nt
  sizeOfImage := nt.optionalHeader.sizeOfImage
  fullDllName := moduleMakeUnicodeString name
  baseDllName := moduleMakeUnicodeString name
  loadCount := 1
  timeDateStamp := nt.fileHeader.timeDateStamp

def initModuleList : ModuleList := ⟨fun _ => .zero, 0⟩

def newModule (base : Ptr) (name : CString) (nt : ImageNtHeaders) : LoadedModule :=
  let name := copyStr name moduleNameSize
  { LoadedModule.zero with
    base, name, nt := some nt, loadCount := 1, ldrEntry := moduleInitLdrEntry base name nt }

def addModule (s : ModuleList) (base : Ptr) (name : CString) (nt : ImageNtHeaders) :
    Option Slot × ModuleList :=
  match Table.firstSlot fun i => decide ((s.modules i).base = 0) with
  | some i =>
    (some i, ⟨update s.modules i (newModule base name nt), s.moduleCount + 1⟩)
  | none => (none, s)

def findModuleByName (s : ModuleList) (name : CString) : Option Slot :=
  Table.firstSlot fun i =>
    decide (i.val < s.moduleCount ∧ (s.modules i).base ≠ 0 ∧ strcasecmp (s.modules i).name name = 0)

/-- The address `a` lies in the image of the module, by the comparison of `find_module_by_addr`. -/
def LoadedModule.containsAddr (b : Build) (m : LoadedModule) (a : Ptr) : Bool :=
  match m.nt with
  | none => false
  | some nt => decide (m.base ≠ 0 ∧ m.base ≤ a ∧ a < b.wrap (m.base + peSizeOfImage nt))

def findModuleByAddr (b : Build) (s : ModuleList) (a : Ptr) : Option Slot :=
  Table.firstSlot fun i => decide (i.val < s.moduleCount) && (s.modules i).containsAddr b a

def removeModule (s : ModuleList) (mod : Slot) : ModuleList :=
  if mod.val < s.moduleCount then
    ⟨update s.modules mod .zero, s.moduleCount - 1⟩
  else s

/-! ### One operation -/

theorem addModule_cases (s : ModuleList) (base : Ptr) (name : CString) (nt : ImageNtHeaders) :
  (∃ i, (s.modules i).base = 0 ∧ (∀ j < i, (s.modules j).base ≠ 0) ∧
      addModule s base name nt =
        (some i, ⟨update s.modules i (newModule base name nt), s.moduleCount + 1⟩)) ∨
    ((∀ i, (s.modules i).base ≠ 0) ∧ addModule s base name nt = (none, s))
  := by
  cases hf : Table.firstSlot fun i => decide ((s.modules i).base = 0) with
  | some i =>
    obtain ⟨hfree, hbefore⟩ := Table.firstSlot_eq_some_iff.mp hf
    left
    use i
    and_intros
    · apply of_decide_eq_true hfree
    · intro j hj
      apply of_decide_eq_false (hbefore j hj)
    · rw [addModule, hf]
  | none =>
    right
    constructor
    · intro i
      apply of_decide_eq_false (Table.firstSlot_eq_none_iff.mp hf i)
    · rw [addModule, hf]

variable {i : Slot} {s : ModuleList}

theorem findModuleByName_spec {name : CString} (h : findModuleByName s name = some i) :
  i.val < s.moduleCount ∧ (s.modules i).base ≠ 0 ∧ strcasecmp (s.modules i).name name = 0
  := by
  obtain ⟨hi, -⟩ := Table.firstSlot_eq_some_iff.mp h
  apply of_decide_eq_true hi

theorem exists_findModuleByName {name : CString} (hlt : i.val < s.moduleCount)
    (hbase : (s.modules i).base ≠ 0) (hname : strcasecmp (s.modules i).name name = 0) :
  ∃ j, findModuleByName s name = some j
  := by
  rw [← isSome_iff_exists, isSome_iff_ne_none]
  intro hnone
  apply of_decide_eq_false (Table.firstSlot_eq_none_iff.mp hnone i)
  exact ⟨hlt, hbase, hname⟩

theorem findModuleByAddr_spec {b : Build} {a : Ptr} (h : findModuleByAddr b s a = some i) :
  i.val < s.moduleCount ∧ (s.modules i).containsAddr b a = true
  := by
  obtain ⟨hi, -⟩ := Table.firstSlot_eq_some_iff.mp h
  simpa using hi

theorem exists_findModuleByAddr {b : Build} {a : Ptr} (hlt : i.val < s.moduleCount)
    (ha : (s.modules i).containsAddr b a = true) :
  ∃ j, findModuleByAddr b s a = some j
  := by
  rw [← isSome_iff_exists, isSome_iff_ne_none]
  intro hnone
  have hi := Table.firstSlot_eq_none_iff.mp hnone i
  simp [hlt, ha] at hi

/-! ### Runs of the registry -/

/-- A module as it was given to `add_module`. -/
structure Registered where
  base : Ptr
  name : CString
  nt : ImageNtHeaders

def Registered.Contains (m : Registered) (a : Ptr) : Prop :=
  m.base ≤ a ∧ a < m.base + peSizeOfImage m.nt

/-- A call that changes the registry. -/
inductive RegistryOp where
  | add (m : Registered)
  | remove (mod : Slot)

/-- The registry, together with the modules that were added and not removed since. -/
structure RegistryRun where
  list : ModuleList
  live : Slot → Option Registered

namespace RegistryRun

def init : RegistryRun := ⟨initModuleList, fun _ => none⟩

def step (s : RegistryRun) : RegistryOp → RegistryRun
  | .add m =>
    match addModule s.list m.base m.name m.nt with
    | (some i, list) => ⟨list, update s.live i (some m)⟩
    | (none, list) => ⟨list, s.live⟩
  | .remove mod => ⟨removeModule s.list mod, update s.live mod none⟩

/-- The calls that may be made: an added image is not at `NULL` and ends inside the address
space, and only a module that was returned and not removed since is removed. -/
def Allowed (b : Build) (s : RegistryRun) : RegistryOp → Prop
  | .add m => m.base ≠ 0 ∧ m.base + peSizeOfImage m.nt < b.ptrLimit
  | .remove mod => (s.live mod).isSome

instance (b : Build) (s : RegistryRun) : DecidablePred (Allowed b s)
  | .add m => inferInstanceAs (Decidable (m.base ≠ 0 ∧ m.base + peSizeOfImage m.nt < b.ptrLimit))
  | .remove mod => inferInstanceAs (Decidable ((s.live mod).isSome = true))

/-- Every registered module is found by its name and by the addresses of its image, and can be
removed, and `moduleCount` is the number of occupied slots. -/
structure Sound (b : Build) (s : RegistryRun) : Prop where
  byName : ∀ i m, s.live i = some m →
    ∃ j m', findModuleByName s.list m.name = some j ∧ s.live j = some m' ∧
      strcasecmp m'.name m.name = 0
  byAddr : ∀ i m a, s.live i = some m → m.Contains a →
    ∃ j m', findModuleByAddr b s.list a = some j ∧ s.live j = some m' ∧ m'.Contains a
  remove : ∀ i, (s.live i).isSome → ((removeModule s.list i).modules i).base = 0
  count : s.list.moduleCount = (Table.occupied (fun m => m.base ≠ 0) s.list.modules).card

/-- The calls after which the registry stays compact: an added name fits its field, unless there
is no free slot, and a removed module is in the last slot below `moduleCount`. -/
def Orderly (s : RegistryRun) : RegistryOp → Prop
  | .add m => m.name.length < moduleNameSize ∨ ∀ i, (s.list.modules i).base ≠ 0
  | .remove mod => mod.val + 1 = s.list.moduleCount

instance (s : RegistryRun) : DecidablePred (Orderly s)
  | .add m =>
    inferInstanceAs
      (Decidable (m.name.length < moduleNameSize ∨ ∀ i, (s.list.modules i).base ≠ 0))
  | .remove mod => inferInstanceAs (Decidable (mod.val + 1 = s.list.moduleCount))

/-- The occupied slots are those below `moduleCount`, and hold the registered modules as they
were given. -/
structure Compact (b : Build) (s : RegistryRun) : Prop where
  occupied : ∀ i, (s.list.modules i).base ≠ 0 ↔ i.val < s.list.moduleCount
  count_le : s.list.moduleCount ≤ maxModules
  live : ∀ i m, s.live i = some m →
    (s.list.modules i).base = m.base ∧ (s.list.modules i).name = m.name ∧
      (s.list.modules i).nt = some m.nt ∧ m.base ≠ 0 ∧
      m.base + peSizeOfImage m.nt < b.ptrLimit
  dead : ∀ i, s.live i = none → (s.list.modules i).base = 0
  name : ∀ i, (s.list.modules i).name.length < moduleNameSize

variable {b : Build} {s : RegistryRun}

theorem compact_init :
  Compact b init
  where
  occupied i := by simp [init, initModuleList, LoadedModule.zero]
  count_le := by simp [init, initModuleList]
  live := by simp [init]
  dead := by simp [init, initModuleList, LoadedModule.zero]
  name i := by simp [init, initModuleList, LoadedModule.zero, CString.ofBytes, CString.length,
    moduleNameSize]

variable {i : Slot} {m : Registered}

section

variable (h : Compact b s)
include h

theorem Compact.lt_of_live (hi : s.live i = some m) :
  i.val < s.list.moduleCount
  := by
  obtain ⟨hbase, -, -, hne, -⟩ := h.live i m hi
  apply (h.occupied i).mp
  rw [hbase]
  apply hne

theorem Compact.exists_live (hi : i.val < s.list.moduleCount) :
  ∃ m, s.live i = some m
  := by
  rw [← isSome_iff_exists, isSome_iff_ne_none]
  intro hnone
  apply (h.occupied i).mpr hi
  apply h.dead i hnone

theorem Compact.containsAddr_iff (hi : s.live i = some m) (a : Ptr) :
  (s.list.modules i).containsAddr b a = true ↔ m.Contains a
  := by
  obtain ⟨hbase, -, hnt, hne, hlt⟩ := h.live i m hi
  simp [LoadedModule.containsAddr, hnt, hbase, hne, Build.wrap_of_lt hlt, Registered.Contains]

theorem Compact.sound :
  Sound b s
  where
  byName i m hi := by
    obtain ⟨hbase, hname, -, hne, -⟩ := h.live i m hi
    have hcmp : strcasecmp (s.list.modules i).name m.name = 0 := by
      rw [hname]
      apply strcasecmp_self
    obtain ⟨j, hj⟩ := exists_findModuleByName (h.lt_of_live hi) (by rw [hbase]; apply hne) hcmp
    obtain ⟨hlt, -, hcmp⟩ := findModuleByName_spec hj
    obtain ⟨m', hm'⟩ := h.exists_live hlt
    obtain ⟨-, hname', -⟩ := h.live j m' hm'
    rw [hname'] at hcmp
    exact ⟨j, m', hj, hm', hcmp⟩
  byAddr i m a hi ha := by
    obtain ⟨j, hj⟩ := exists_findModuleByAddr (h.lt_of_live hi) ((h.containsAddr_iff hi a).mpr ha)
    obtain ⟨hlt, hcontains⟩ := findModuleByAddr_spec hj
    obtain ⟨m', hm'⟩ := h.exists_live hlt
    exact ⟨j, m', hj, hm', (h.containsAddr_iff hm' a).mp hcontains⟩
  remove i hi := by
    obtain ⟨m, hm⟩ := isSome_iff_exists.mp hi
    simp [removeModule, h.lt_of_live hm, LoadedModule.zero]
  count := by
    rw [Table.occupied, Finset.filter_congr fun i _ => h.occupied i, Fin.card_filter_val_lt,
      min_eq_right h.count_le]

theorem Compact.val_eq_count (hfree : (s.list.modules i).base = 0)
    (hbefore : ∀ j < i, (s.list.modules j).base ≠ 0) :
  i.val = s.list.moduleCount
  := by
  have hge : ¬ i.val < s.list.moduleCount := fun hlt => (h.occupied i).mpr hlt hfree
  have hle : ¬ s.list.moduleCount < i.val := by
    intro hlt
    have hocc := hbefore ⟨s.list.moduleCount, by omega⟩ hlt
    have := (h.occupied _).mp hocc
    simp at this
  omega

theorem Compact.step_add (hm : m.base ≠ 0 ∧ m.base + peSizeOfImage m.nt < b.ptrLimit)
    (hname : m.name.length < moduleNameSize ∨ ∀ i, (s.list.modules i).base ≠ 0) :
  Compact b (s.step (.add m))
  := by
  rcases addModule_cases s.list m.base m.name m.nt with ⟨i, hfree, hbefore, he⟩ | ⟨hfull, he⟩
  · have hi := h.val_eq_count hfree hbefore
    have hname : m.name.length < moduleNameSize := hname.resolve_right fun hfull => hfull i hfree
    simp only [step, he]
    constructor
    · intro j
      rcases eq_or_ne j i with rfl | hne
      · simp [newModule, hm.1, hi]
      · have hval : j.val ≠ i.val := fun hv => hne (Fin.ext hv)
        simp only [update_of_ne hne, h.occupied j]
        omega
    · simp only
      omega
    · intro j m' hj
      rcases eq_or_ne j i with rfl | hne
      · simp only [update_self, some.injEq] at hj ⊢
        subst hj
        exact ⟨rfl, copyStr_eq_self hname, rfl, hm⟩
      · simp only [update_of_ne hne] at hj ⊢
        apply h.live j m' hj
    · intro j hj
      rcases eq_or_ne j i with rfl | hne
      · simp at hj
      · simp only [update_of_ne hne] at hj ⊢
        apply h.dead j hj
    · intro j
      rcases eq_or_ne j i with rfl | hne
      · simp only [update_self]
        apply copyStr_length_lt
        decide
      · simp only [update_of_ne hne]
        apply h.name j
  · simp only [step, he]
    apply h

theorem Compact.step_remove {mod : Slot}
    (hmod : mod.val + 1 = s.list.moduleCount) :
  Compact b (s.step (.remove mod))
  := by
  have hlt : mod.val < s.list.moduleCount := by omega
  simp only [step, removeModule, if_pos hlt]
  constructor
  · intro j
    rcases eq_or_ne j mod with rfl | hne
    · simp only [update_self, LoadedModule.zero, ne_eq, not_true_eq_false, false_iff]
      omega
    · have hval : j.val ≠ mod.val := fun hv => hne (Fin.ext hv)
      simp only [update_of_ne hne, h.occupied j]
      omega
  · simp only
    omega
  · intro j m' hj
    rcases eq_or_ne j mod with rfl | hne
    · simp at hj
    · simp only [update_of_ne hne] at hj ⊢
      apply h.live j m' hj
  · intro j hj
    rcases eq_or_ne j mod with rfl | hne
    · simp [LoadedModule.zero]
    · simp only [update_of_ne hne] at hj ⊢
      apply h.dead j hj
  · intro j
    rcases eq_or_ne j mod with rfl | hne
    · simp [LoadedModule.zero, CString.ofBytes, CString.length, moduleNameSize]
    · simp only [update_of_ne hne]
      apply h.name j

theorem Compact.step {op : RegistryOp}
    (hallowed : Allowed b s op) (horderly : Orderly s op) :
  Compact b (s.step op)
  := by
  cases op with
  | add m => apply h.step_add hallowed horderly
  | remove mod => apply h.step_remove horderly

/-- A call that leaves a compact registry sound was orderly: an added name that does not fit is
not found again, and after the removal of a module below the last slot the module in the last slot
cannot be removed. -/
theorem Compact.orderly_of_sound {op : RegistryOp}
    (hallowed : Allowed b s op) (hsound : Sound b (s.step op)) :
  Orderly s op
  := by
  cases op with
  | add m =>
    rcases addModule_cases s.list m.base m.name m.nt with ⟨i, hfree, hbefore, he⟩ | ⟨hfull, -⟩
    · left
      obtain ⟨j, -, hj, -⟩ := hsound.byName i m (by simp [RegistryRun.step, he])
      obtain ⟨-, -, hcmp⟩ := findModuleByName_spec hj
      rw [← length_eq_of_strcasecmp hcmp]
      simp only [RegistryRun.step, he]
      rcases eq_or_ne j i with rfl | hne
      · simp only [update_self]
        apply copyStr_length_lt
        decide
      · simp only [update_of_ne hne]
        apply h.name j
    · right
      apply hfull
  | remove mod =>
    obtain ⟨m, hm⟩ := isSome_iff_exists.mp hallowed
    have hlt := h.lt_of_live hm
    have hle := h.count_le
    by_contra hne
    simp only [Orderly] at hne
    -- The module in the last slot is hidden once `moduleCount` has been decremented.
    have hlast : s.list.moduleCount - 1 < maxModules := by omega
    have hval : (⟨s.list.moduleCount - 1, hlast⟩ : Slot) ≠ mod := by
      rintro rfl
      simp only at hne
      omega
    obtain ⟨m', hm'⟩ := h.exists_live (i := ⟨s.list.moduleCount - 1, hlast⟩) (by simp only; omega)
    obtain ⟨hbase, -, -, hne', -⟩ := h.live _ m' hm'
    have hremove := hsound.remove ⟨s.list.moduleCount - 1, hlast⟩
      (by simp [RegistryRun.step, hval, hm'])
    simp only [RegistryRun.step, removeModule, if_pos hlt, lt_self_iff_false, if_false,
      update_of_ne hval] at hremove
    apply hne'
    rw [← hbase, hremove]

end

theorem compact_of_orderly {ops : List RegistryOp}
    (hallowed : Run.Along RegistryRun.step (Allowed b) init ops)
    (horderly : Run.Along RegistryRun.step Orderly init ops) :
  Compact b (ops.foldl RegistryRun.step init)
  := by
  apply (hallowed.and horderly).invariant (Compact b)
  · intro s op h hop
    apply h.step hop.1 hop.2
  · apply compact_init

/-- In a run of allowed calls, the registry is sound in every state reached exactly when every
call is orderly. -/
theorem registry_sound_iff (b : Build) (ops : List RegistryOp)
    (hallowed : Run.Along step (Allowed b) init ops) :
  (∀ q, q <+: ops → Sound b (q.foldl step init)) ↔ Run.Along step Orderly init ops
  := by
  constructor
  · intro hsound
    induction ops using List.reverseRecOn with
    | nil => trivial
    | append_singleton ops op ih =>
      obtain ⟨hops, hop, -⟩ := (Run.along_append ..).mp hallowed
      have horderly := ih hops fun q hq => hsound q (hq.trans (prefix_append ops [op]))
      have hlast := hsound (ops ++ [op]) (prefix_refl _)
      rw [foldl_append, foldl_cons, foldl_nil] at hlast
      apply (Run.along_append ..).mpr
      use horderly
      use (compact_of_orderly hops horderly).orderly_of_sound hop hlast
      trivial
  · rintro horderly q ⟨r, rfl⟩
    obtain ⟨hallowed, -⟩ := (Run.along_append ..).mp hallowed
    obtain ⟨horderly, -⟩ := (Run.along_append ..).mp horderly
    apply (compact_of_orderly hallowed horderly).sound

def bareHeaders (size : UInt32) : ImageNtHeaders where
  peType := .pe32
  fileHeader := ⟨0x14c, 0, 0, 0, 0, 224, 0⟩
  optionalHeader := ⟨0, 0, size, 0, 0, 0, 0, fun _ => ⟨0, 0⟩⟩

def addTwoRemove (mod : Slot) : List RegistryOp :=
  [.add ⟨0x60000000, .ofString "a.dll", bareHeaders 0x1000⟩,
    .add ⟨0x60001000, .ofString "b.dll", bareHeaders 0x1000⟩, .remove mod]

theorem registry_sound_last_removed :
  Run.Along step (Allowed .i386) init (addTwoRemove 1) ∧
    Sound .i386 ((addTwoRemove 1).foldl step init)
  := by
  have hallowed : Run.Along step (Allowed .i386) init (addTwoRemove 1) := by decide +kernel
  have horderly : Run.Along step Orderly init (addTwoRemove 1) := by decide +kernel
  use hallowed
  apply (registry_sound_iff .i386 _ hallowed).mpr horderly _ (prefix_refl _)

/-- When the first of two modules is removed, the second one can no longer be removed: its slot
is past `moduleCount`. -/
theorem registry_hides_second :
  Run.Along step (Allowed .i386) init (addTwoRemove 0) ∧
    ¬ Sound .i386 ((addTwoRemove 0).foldl step init)
  := by
  constructor
  · decide +kernel
  · intro hsound
    have hremove := hsound.remove 1 (by decide +kernel)
    revert hremove
    decide +kernel

end RegistryRun

end Loader
