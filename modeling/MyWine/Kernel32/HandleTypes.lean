import MyWine.Advapi32.Registry
import MyWine.Kernel32.FindFile
import MyWine.Ntdll.ObjectTables

/-!
# Types of handles

The handles of all kinds of objects share one table.  A slot records the type that its allocator
gave, and each allocator of the program has a type of its own (`Kind.tag`), so that the type of a
live slot tells what the slot was allocated for (`Tagged`).  The functions that read an object
through a handle (`Consumer`) differ in what they ask of the type: `NtMapViewOfSection` and the
registry ask nothing, resources take the handles of `FindFirstFileA` too, and only the functions on
find handles ask for their own type.  All of them cut the handle to 32 bits first.

`handle_types_iff` says for which handles each of them reads only objects of its own kind.
-/

namespace Kernel32

open HandleManager Advapi32 Ntdll

/-! ### Resources -/

def handleTypeHrsrc : UInt8 := 0x72

structure WineResourceHandle where
  data : Ptr
  size : ℕ
  deriving DecidableEq

def resourceObject (t : HandleTable) (resourceHandle : ℕ) : Option Ptr :=
  let handle := resourceHandle % 2 ^ 32
  let type := wineHandleGetType t handle
  if type ≠ handleTypeHrsrc ∧ type ≠ handleTypeHglobal then none
  else
    let res := wineHandleGet t handle
    if res = 0 then none else some res

/-- `wine_resource_lock`, where `resourceAt` is what stands at an address when it is read as a
resource. -/
def wineResourceLock (t : HandleTable) (resourceAt : Ptr → WineResourceHandle)
    (resourceHandle : ℕ) : Ptr :=
  match resourceObject t resourceHandle with
  | none => 0
  | some res => (resourceAt res).data

def wineResourceSize (t : HandleTable) (resourceAt : Ptr → WineResourceHandle)
    (resourceHandle : ℕ) : ℕ :=
  match resourceObject t resourceHandle with
  | none => 0
  | some res => (resourceAt res).size

/-! ### Kinds of objects -/

/-- What a handle is allocated for: the structure that its object is, which is a Linux descriptor
for `file`. -/
inductive Kind where
  | file
  | event
  | mutex
  | thread
  | semaphore
  | «section»
  | dc
  | bitmap
  | palette
  | font
  | cursor
  | soundBuffer
  | window
  | rbWindow
  | rbSurface
  | rbPalette
  | rbCursor
  | midiStream
  | resource
  | find
  | key
  deriving DecidableEq

def Kind.tag : Kind → UInt8
  | .file => handleTypeFile
  | .event => handleTypeEvent
  | .mutex => handleTypeMutex
  | .thread => 0x04
  | .semaphore => handleTypeSemaphore
  | .section => handleTypeSection
  | .dc => 0x20
  | .bitmap => 0x30
  | .palette => 0x31
  | .font => 0x32
  | .cursor => 0x33
  | .soundBuffer => 0x51
  | .window => 0x60
  | .rbWindow => 0x63
  | .rbSurface => 0x64
  | .rbPalette => 0x65
  | .rbCursor => 0x66
  | .midiStream => 0x70
  | .resource => handleTypeHrsrc
  | .find => handleTypeHglobal
  | .key => handleTypeHkey

theorem Kind.tag_injective {k k' : Kind} (h : k.tag = k'.tag) :
  k = k'
  := by
  cases k <;> cases k' <;> first | rfl | exact absurd h (by decide)

theorem Kind.tag_ne_zero (k : Kind) :
  k.tag ≠ 0
  := by
  cases k <;> decide

/-- The handle table, with the kind that each slot was last allocated for. -/
structure KindTable where
  table : HandleTable
  kinds : Fin handleTableSize → Kind

def KindTable.init : KindTable := ⟨wineHandleManagerRuntimeInit, fun _ => .file⟩

/-- An operation on the table by one of the allocators, or by a function that takes or gives back a
reference. -/
inductive KindOp where
  | alloc (kind : Kind) (object : Ptr)
  | addRef (handle : ℕ)
  | free (handle : ℕ)
  deriving DecidableEq

def KindOp.op : KindOp → HandleOp
  | .alloc kind object => .alloc kind.tag object
  | .addRef handle => .addRef handle
  | .free handle => .free handle

def KindTable.step (s : KindTable) (op : KindOp) : KindTable where
  table := HandleManager.step s.table op.op
  kinds :=
    match op with
    | .alloc kind object =>
      match wineHandleSlot (wineHandleAlloc s.table kind.tag object).1 with
      | some i => if 3 ≤ i.val then Function.update s.kinds i kind else s.kinds
      | none => s.kinds
    | _ => s.kinds

def KindTable.run (ops : List KindOp) : KindTable := ops.foldl KindTable.step .init

def AllocatedAs (s : KindTable) (kind : Kind) (h : ℕ) : Prop :=
  ∃ i : Fin handleTableSize, h = i.val ∧ (s.table i).refCount ≠ 0 ∧ s.kinds i = kind

/-! ### The functions that read objects -/

/-- The functions that read an object through a handle. -/
inductive Consumer where
  | ntMapViewOfSection
  | regSetValueExA
  | regQueryValueExA
  | wineResourceLock
  | wineResourceSize
  | findNextFileA
  | findClose
  deriving DecidableEq

def Consumer.kind : Consumer → Kind
  | .ntMapViewOfSection => .section
  | .regSetValueExA | .regQueryValueExA => .key
  | .wineResourceLock | .wineResourceSize => .resource
  | .findNextFileA | .findClose => .find

def sectionObject (t : HandleTable) (sectionHandle : ℕ) : Option Ptr :=
  let sec := wineHandleGet t (sectionHandle % 2 ^ 32)
  if sec = 0 then none else some sec

/-- The object that a function reads as one of its kind when it is called with the handle `h`. -/
def Consumer.object (t : HandleTable) (h : ℕ) : Consumer → Option Ptr
  | .ntMapViewOfSection => sectionObject t h
  | .regSetValueExA => keyObject t h
  | .regQueryValueExA => queriedKey t h
  | .wineResourceLock | .wineResourceSize => resourceObject t h
  | .findNextFileA | .findClose => findObject t h

/-- A function called with the handle `h` returns its error value and changes nothing, whatever its
other arguments are and whatever stands in memory. -/
def Consumer.Rejects (t : HandleTable) (h : ℕ) : Consumer → Prop
  | .ntMapViewOfSection =>
    ∀ b os baseAddress commitSize sectionOffset viewSizePtr protect s w, w.handles = t →
      handlerNtMapViewOfSection b os h baseAddress commitSize sectionOffset viewSizePtr protect s w
        = some (statusInvalidHandle, s, w)
  | .regSetValueExA =>
    ∀ keyAt values lpValueName dwType lpData cbData mem,
      Advapi32.regSetValueExA t keyAt values h lpValueName dwType lpData cbData mem
        = (errorFileNotFound, values)
  | .regQueryValueExA =>
    ∀ keyAt values lpValueName lpType lpData lpcbData mem,
      Advapi32.regQueryValueExA t keyAt values h lpValueName lpType lpData lpcbData mem
        = (errorFileNotFound, mem)
  | .wineResourceLock => ∀ resourceAt, Kernel32.wineResourceLock t resourceAt h = 0
  | .wineResourceSize => ∀ resourceAt, Kernel32.wineResourceSize t resourceAt h = 0
  | .findNextFileA =>
    ∀ stat lpFindFileData s, s.handles = t →
      Kernel32.findNextFileA stat h lpFindFileData s = (none, s)
  | .findClose => ∀ s, s.handles = t → Kernel32.findClose h s = (false, s)

/-- A function called with the handle `h` reads an object only if `h` was allocated for one of its
kind, and returns its error value otherwise. -/
def Consumer.TypeSafe (s : KindTable) (h : ℕ) (c : Consumer) : Prop :=
  AllocatedAs s c.kind h ∨ (c.object s.table h = none ∧ c.Rejects s.table h)

def HasTag (t : HandleTable) (kind : Kind) (h : ℕ) : Prop :=
  h < 2 ^ 32 ∧ wineHandleGetType t h = kind.tag

/-- The type that a function does not check is right.  `NtMapViewOfSection` and the registry look
only for an object, resources do not tell a find handle from a resource, and the number past 32
bits is not looked at by any function. -/
def Consumer.Guarded (t : HandleTable) (h : ℕ) : Consumer → Prop
  | .ntMapViewOfSection => wineHandleGet t (h % 2 ^ 32) = 0 ∨ HasTag t .section h
  | .regSetValueExA => wineHandleGet t (h % 2 ^ 32) = 0 ∨ HasTag t .key h
  | .regQueryValueExA =>
    (h = hkeyCurrentUserWine ∨ wineHandleGet t (h % 2 ^ 32) = 0) ∨ HasTag t .key h
  | .wineResourceLock | .wineResourceSize =>
    ((wineHandleGetType t (h % 2 ^ 32) ≠ handleTypeHrsrc ∧
        wineHandleGetType t (h % 2 ^ 32) ≠ handleTypeHglobal) ∨
      wineHandleGet t (h % 2 ^ 32) = 0) ∨ HasTag t .resource h
  | .findNextFileA =>
    (wineHandleGetType t (h % 2 ^ 32) ≠ handleTypeHglobal ∨ wineHandleGet t (h % 2 ^ 32) = 0) ∨
      HasTag t .find h
  | .findClose => wineHandleGetType t (h % 2 ^ 32) ≠ handleTypeHglobal ∨ HasTag t .find h

/-! ### The type of a slot tells its kind -/

def KindTable.Tagged (s : KindTable) : Prop :=
  ∀ i, (s.table i).refCount ≠ 0 → (s.table i).type = (s.kinds i).tag

theorem tagged_init :
  KindTable.init.Tagged
  := by
  intro i hi
  by_cases h2 : i.val ≤ 2
  · simp [KindTable.init, wineHandleManagerRuntimeInit, h2, Kind.tag]
  · simp [KindTable.init, wineHandleManagerRuntimeInit, h2, WineHandle.empty] at hi

variable {s : KindTable}

theorem KindTable.Tagged.of_slots {s' : KindTable} (hs : s.Tagged) (hkinds : s'.kinds = s.kinds)
    (hslot : ∀ i, s'.table i = s.table i ∨ s'.table i = (s.table i).addRef ∨
      s'.table i = (s.table i).free) :
  s'.Tagged
  := by
  intro i hi
  rw [hkinds]
  by_cases hlive : (s.table i).refCount = 0
  · -- Neither operation acts on a dead slot.
    rcases hslot i with h | h | h
    · rw [h] at hi
      contradiction
    · rw [h] at hi
      simp [WineHandle.addRef, hlive] at hi
    · rw [h] at hi
      simp [WineHandle.free, hlive] at hi
  · rw [← hs i hlive]
    rcases hslot i with h | h | h
    · rw [h]
    · rw [h]
      apply (WineHandle.addRef_of_live hlive).1
    · rw [h] at hi ⊢
      apply ((WineHandle.free_of_live hlive).2 hi).1

theorem KindTable.Tagged.step (hs : s.Tagged) (op : KindOp) :
  (s.step op).Tagged
  := by
  cases op with
  | alloc kind object =>
    rcases wineHandleAlloc_cases s.table kind.tag object with ⟨i, h3, -, he⟩ | ⟨-, he⟩
    · intro j hj
      rcases eq_or_ne j i with rfl | hne
      · simp [KindTable.step, KindOp.op, HandleManager.step, he, h3]
      · simp [KindTable.step, KindOp.op, HandleManager.step, he, h3, hne] at hj ⊢
        apply hs j hj
    · intro j hj
      have h0 : wineHandleSlot 0 = some ⟨0, by decide⟩ := rfl
      simp [KindTable.step, KindOp.op, HandleManager.step, he, h0] at hj ⊢
      apply hs j hj
  | addRef handle =>
    have hkinds : (s.step (.addRef handle)).kinds = s.kinds := rfl
    apply hs.of_slots hkinds
    intro i
    rcases step_apply s.table (.addRef handle) i with ⟨_, _, ⟨⟩, _⟩ | ⟨-, h⟩ | ⟨⟨⟩, _⟩ | ⟨-, -, h⟩
    · right; left
      apply h
    · left
      apply h
  | free handle =>
    have hkinds : (s.step (.free handle)).kinds = s.kinds := rfl
    apply hs.of_slots hkinds
    intro i
    rcases step_apply s.table (.free handle) i with ⟨_, _, ⟨⟩, _⟩ | ⟨⟨⟩, _⟩ | ⟨-, -, h⟩ | ⟨-, -, h⟩
    · right; right
      apply h
    · left
      apply h

theorem tagged_run (ops : List KindOp) :
  (KindTable.run ops).Tagged
  := by
  have hops : Run.Along KindTable.step (fun _ _ => True) .init ops :=
    Run.along_of_forall_mem (fun _ _ _ => trivial) _
  apply hops.invariant KindTable.Tagged
  · intro s op hs _
    apply hs.step op
  · apply tagged_init

theorem KindTable.Tagged.allocatedAs_iff (hs : s.Tagged) (kind : Kind) (h : ℕ) :
  AllocatedAs s kind h ↔ HasTag s.table kind h
  := by
  constructor
  · rintro ⟨i, rfl, hlive, rfl⟩
    constructor
    · apply i.isLt.trans
      decide
    · rw [(get_of_live hlive).2]
      apply hs i hlive
  · rintro ⟨-, htype⟩
    rcases get_cases s.table h with ⟨i, rfl, hlive, -, htype'⟩ | ⟨-, hzero⟩
    · use i, rfl, hlive
      apply Kind.tag_injective
      rw [← hs i hlive, ← htype, htype']
    · exact absurd (htype.symm.trans hzero) kind.tag_ne_zero

/-! ### What the functions reject -/

section

variable {t : HandleTable} {h : ℕ}

theorem ite_none_eq_none_iff {P : Prop} [Decidable P] {o : Option Ptr} :
  (if P then none else o) = none ↔ P ∨ o = none
  := by
  by_cases hP : P <;> simp [hP]

theorem Consumer.guarded_iff {c : Consumer} (hc : c ≠ .findClose) :
  c.Guarded t h ↔ c.object t h = none ∨ HasTag t c.kind h
  := by
  cases c with
  | findClose => contradiction
  | _ =>
    simp only [Guarded, object, sectionObject, keyObject, queriedKey, resourceObject, findObject,
      ite_none_eq_none_iff, reduceCtorEq, or_false, kind]

theorem Consumer.rejects_of_object (c : Consumer) (hc : c ≠ .findClose)
    (hnone : c.object t h = none) :
  c.Rejects t h
  := by
  cases c with
  | ntMapViewOfSection =>
    rintro b os baseAddress commitSize sectionOffset viewSizePtr protect s w rfl
    rw [Consumer.object, sectionObject, ite_none_eq_none_iff] at hnone
    simp only [handlerNtMapViewOfSection, mapView, if_pos (hnone.resolve_right (Option.some_ne_none _))]
    rfl
  | regSetValueExA =>
    intro keyAt values lpValueName dwType lpData cbData mem
    simp only [Consumer.object] at hnone
    simp only [Advapi32.regSetValueExA, hnone]
  | regQueryValueExA =>
    intro keyAt values lpValueName lpType lpData lpcbData mem
    simp only [Consumer.object] at hnone
    simp only [Advapi32.regQueryValueExA, hnone]
  | wineResourceLock =>
    intro resourceAt
    simp only [Consumer.object] at hnone
    simp only [Kernel32.wineResourceLock, hnone]
  | wineResourceSize =>
    intro resourceAt
    simp only [Consumer.object] at hnone
    simp only [Kernel32.wineResourceSize, hnone]
  | findNextFileA =>
    rintro stat lpFindFileData s rfl
    simp only [Consumer.object] at hnone
    simp [Kernel32.findNextFileA, hnone]
  | findClose => contradiction

/-- A function that finds an object does not return its error value for all other arguments and all
contents of memory: it depends on the object. -/
theorem Consumer.not_rejects_of_object (c : Consumer) {p : Ptr} (hobj : c.object t h = some p) :
  ¬ c.Rejects t h
  := by
  intro hr
  cases c with
  | ntMapViewOfSection =>
    have hne : wineHandleGet t (h % 2 ^ 32) ≠ 0 := by
      intro hnull
      rw [Consumer.object, sectionObject, if_pos hnull] at hobj
      cases hobj
    -- A mapping that fails gives another status.
    let os : Os := ⟨fun _ _ => none, fun _ e => e, fun _ _ => .error eperm⟩
    let w : Objects := { KernelState.init.toObjects with handles := t }
    have hstatus := congrArg (Option.map Prod.fst)
      (hr .x64 os (.val 0) 0 (.val 0) (.val 0) 0 ⟨fun _ => 0, fun _ => 0⟩ w rfl)
    simp only [handlerNtMapViewOfSection, mapView, w, os, if_neg hne, sysvMmap, reduceCtorEq,
      false_and, if_false, ite_self, Option.map_some] at hstatus
    exact absurd hstatus (by decide)
  | regSetValueExA =>
    -- The value is stored in an empty table.
    let values : RegValues := fun _ => ⟨.ofBytes [], .ofBytes [], 0, fun _ => 0, 0, false⟩
    have hstored := congrArg Prod.fst (hr (fun _ => ⟨.ofBytes []⟩) values none 0 0 0 fun _ => 0)
    rw [Consumer.object] at hobj
    have hensure : (regEnsureValue values (.ofBytes []) none).isSome := by decide +kernel
    obtain ⟨⟨i, values'⟩, hensure⟩ := Option.isSome_iff_exists.mp hensure
    simp only [Advapi32.regSetValueExA, hobj, hensure] at hstored
    exact absurd hstored (by decide)
  | regQueryValueExA =>
    -- The value is found in a table full of it.
    let values : RegValues := fun _ => ⟨.ofBytes [], .ofBytes [], 0, fun _ => 0, 0, true⟩
    have hfound := congrArg Prod.fst (hr (fun _ => ⟨.ofBytes []⟩) values none 0 0 0 fun _ => 0)
    rw [Consumer.object] at hobj
    have hfind : (regFindValue values (.ofBytes []) none).isSome := by decide +kernel
    obtain ⟨i, hfind⟩ := Option.isSome_iff_exists.mp hfind
    simp only [Advapi32.regQueryValueExA, hobj, hfind, if_true] at hfound
    exact absurd hfound (by decide)
  | wineResourceLock =>
    have hlock := hr fun _ => ⟨1, 1⟩
    rw [Consumer.object] at hobj
    simp [Kernel32.wineResourceLock, hobj] at hlock
  | wineResourceSize =>
    have hsize := hr fun _ => ⟨1, 1⟩
    rw [Consumer.object] at hobj
    simp [Kernel32.wineResourceSize, hobj] at hsize
  | findNextFileA =>
    -- The directory has an entry, and the pattern is empty like its name.
    let empty : CString := .ofBytes []
    let s : FindState := ⟨t, fun _ => ⟨1, empty, empty⟩, fun _ => [empty], [], []⟩
    have hnext := congrArg Prod.fst (hr (fun _ => some ⟨false, 0⟩) 1 s rfl)
    rw [Consumer.object] at hobj
    have hmatch : entryMatches empty empty = true := rfl
    simp [Kernel32.findNextFileA, s, hobj, nextEntry, hmatch] at hnext
  | findClose =>
    have hclose := congrArg Prod.fst (hr ⟨t, fun _ => ⟨0, .ofBytes [], .ofBytes []⟩, fun _ => [],
      [], []⟩ rfl)
    have htype : wineHandleGetType t (h % 2 ^ 32) = handleTypeHglobal := by
      by_contra htype
      rw [Consumer.object, findObject, if_pos htype] at hobj
      cases hobj
    simp only [Kernel32.findClose, htype, ne_eq, not_true_eq_false, if_false, reduceCtorEq]
      at hclose

theorem findClose_rejects_iff :
  Consumer.findClose.Rejects t h ↔ wineHandleGetType t (h % 2 ^ 32) ≠ handleTypeHglobal
  := by
  constructor
  · intro hr htype
    let s : FindState := ⟨t, fun _ => ⟨0, .ofBytes [], .ofBytes []⟩, fun _ => [], [], []⟩
    have hclose : (findClose h s).1 = false := congrArg Prod.fst (hr s rfl)
    simp only [findClose, s, htype, ne_eq, not_true_eq_false, if_false, reduceCtorEq] at hclose
  · rintro htype s rfl
    simp only [findClose, if_pos htype]

end

theorem KindTable.Tagged.typeSafe_iff (hs : s.Tagged) {c : Consumer} (hc : c ≠ .findClose) (h : ℕ) :
  c.TypeSafe s h ↔ c.object s.table h = none ∨ HasTag s.table c.kind h
  := by
  rw [Consumer.TypeSafe, hs.allocatedAs_iff, or_comm,
    and_iff_left_of_imp (Consumer.rejects_of_object c hc)]

/-- In every history, each function reads only objects of its own kind exactly on the handles whose
type it does not have to check. -/
theorem handle_types_iff (ops : List KindOp) (c : Consumer) (h : ℕ) :
  c.TypeSafe (KindTable.run ops) h ↔ c.Guarded (KindTable.run ops).table h
  := by
  have hs := tagged_run ops
  generalize KindTable.run ops = s at hs
  by_cases hc : c = .findClose
  · have hnone (hne : wineHandleGetType s.table (h % 2 ^ 32) ≠ handleTypeHglobal) :
        Consumer.findClose.object s.table h = none := if_pos hne
    rw [hc, Consumer.TypeSafe, hs.allocatedAs_iff, or_comm, findClose_rejects_iff,
      and_iff_right_of_imp hnone]
    rfl
  · rw [hs.typeSafe_iff hc, Consumer.guarded_iff hc]

theorem Consumer.not_typeSafe {c : Consumer} {kind : Kind} {h : ℕ} (hkind : AllocatedAs s kind h)
    (hne : kind ≠ c.kind) (hobj : c.object s.table h ≠ none) :
  ¬ c.TypeSafe s h
  := by
  obtain ⟨i, rfl, -, rfl⟩ := hkind
  rintro (⟨j, hij, -, hj⟩ | ⟨hnone, -⟩)
  · rw [← Fin.ext hij] at hj
    contradiction
  · contradiction

def eventAndFind : List KindOp := [.alloc .event 0x2000, .alloc .find 0x9000]

/-- The event is read as a section and as a key, and the find handle as a resource. -/
theorem handle_types_confused :
  let s := KindTable.run eventAndFind
  (AllocatedAs s .event 3 ∧
      ∀ c ∈ [Consumer.ntMapViewOfSection, .regSetValueExA, .regQueryValueExA],
        c.object s.table 3 = some 0x2000 ∧ ¬ c.Rejects s.table 3 ∧ ¬ c.TypeSafe s 3) ∧
    (AllocatedAs s .find 4 ∧
      ∀ c ∈ [Consumer.wineResourceLock, .wineResourceSize],
        c.object s.table 4 = some 0x9000 ∧ ¬ c.Rejects s.table 4 ∧ ¬ c.TypeSafe s 4)
  := by
  intro s
  have hevent : AllocatedAs s .event 3 :=
    ⟨⟨3, by decide⟩, rfl, by decide +kernel, by decide +kernel⟩
  have hfind : AllocatedAs s .find 4 :=
    ⟨⟨4, by decide⟩, rfl, by decide +kernel, by decide +kernel⟩
  and_intros
  · exact hevent
  · intro c hc
    have hne : .event ≠ c.kind := by
      revert c
      decide
    have hobj : c.object s.table 3 = some 0x2000 := by
      clear hne
      revert c
      decide +kernel
    exact ⟨hobj, c.not_rejects_of_object hobj, Consumer.not_typeSafe hevent hne (by simp [hobj])⟩
  · exact hfind
  · intro c hc
    have hne : .find ≠ c.kind := by
      revert c
      decide
    have hobj : c.object s.table 4 = some 0x9000 := by
      clear hne
      revert c
      decide +kernel
    exact ⟨hobj, c.not_rejects_of_object hobj, Consumer.not_typeSafe hfind hne (by simp [hobj])⟩

end Kernel32
