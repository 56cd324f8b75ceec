import MyWine.Ntdll.Memory
import MyWine.Ntdll.Synchronization

/-!
# The tables of kernel objects

The handlers that create events, mutexes, semaphores and sections, of `msvcrt/ntdll_objects.c`,
`msvcrt/ntdll_synchronization.c` and `msvcrt/ntdll_memory.c`, and `handler_NtClose` of
`msvcrt/ntdll_handle.c`.  An object is the next entry of its table in `g_ko`, and its handle holds
the address of that entry.  The tables only grow: `NtClose` frees the handle and leaves the entry.

The handle of a file holds its descriptor in place of an address, and so `handle_to_fd` takes the
descriptor `0` for `NULL` (`roundTrip_iff`).
-/

namespace Ntdll

open HandleManager Syscall Function

/-! ### The state -/

def handleTypeEvent : UInt8 := 0x02
def handleTypeMutex : UInt8 := 0x03
def handleTypeSemaphore : UInt8 := 0x05
def handleTypeSection : UInt8 := 0x06

structure WineMutex where
  handle : ℤ
  locked : ℤ
  deriving DecidableEq

structure WineSemaphore where
  handle : ℤ
  count : ℤ
  maxCount : ℤ
  deriving DecidableEq

def maxEvents : ℕ := 64
def maxMutexes : ℕ := 64
def maxSemaphores : ℕ := 64

/-- The objects, with the tables of mutexes and semaphores, the number of sections, the descriptors
of `CreateFileA` on the `i386` build, and the descriptors that have been closed. -/
structure KernelState extends Objects where
  sectionCount : ℕ
  mutexes : ℕ → WineMutex
  mutexCount : ℕ
  semaphores : ℕ → WineSemaphore
  semaphoreCount : ℕ
  createfileFds : ℕ → ℤ
  createfileFdCount : ℕ
  closed : List ℤ

def KernelState.init : KernelState where
  handles := wineHandleManagerRuntimeInit
  sectionAt _ := ⟨0, 0, 0⟩
  events _ := ⟨0, 0, 0⟩
  eventCount := 0
  views _ := ⟨0, 0⟩
  viewCount := 0
  sleeps := 0
  sectionCount := 0
  mutexes _ := ⟨0, 0⟩
  mutexCount := 0
  semaphores _ := ⟨0, 0, 0⟩
  semaphoreCount := 0
  createfileFds _ := 0
  createfileFdCount := 0
  closed := []

/-- The addresses of the tables in `g_ko`. -/
structure KoLayout where
  sections : Ptr
  events : Ptr
  mutexes : Ptr
  semaphores : Ptr

def koSection (b : Build) (ko : KoLayout) (i : ℕ) : Ptr :=
  ko.sections + i * match b with
    | .x64 => 32
    | .i386 => 20

def koEvent (ko : KoLayout) (i : ℕ) : Ptr := ko.events + i * 12
def koMutex (ko : KoLayout) (i : ℕ) : Ptr := ko.mutexes + i * 8
def koSemaphore (ko : KoLayout) (i : ℕ) : Ptr := ko.semaphores + i * 12

theorem koEvent_inj {ko : KoLayout} {i j : ℕ} :
  koEvent ko i = koEvent ko j ↔ i = j
  := by
  simp [koEvent]

/-- The operating system, with the size of the file of a descriptor. -/
structure FileOs extends Os where
  fstat : ℤ → Option ℕ

/-! ### The handlers -/

def handlerNtCreateEvent (ko : KoLayout) (eventHandle : Param) (eventType initialState : ℕ)
    (s : Store) (k : KernelState) : ℕ × Store × KernelState :=
  if maxEvents ≤ k.eventCount then (statusMemoryNotAvailable, s, k)
  else
    let slot := k.eventCount
    let (handle, handles) := wineHandleAlloc k.handles handleTypeEvent (koEvent ko slot)
    if handle = 0 then (statusMemoryNotAvailable, s, k)
    else
      (statusSuccess, s.storeUnlessNull handle eventHandle,
        { k with
          handles
          events := update k.events slot
            ⟨toInt handle, if initialState ≠ 0 then 1 else 0, toInt eventType⟩
          eventCount := slot + 1 })

def handlerNtCreateMutex (ko : KoLayout) (mutexHandle : Param) (s : Store) (k : KernelState) :
    ℕ × Store × KernelState :=
  if maxMutexes ≤ k.mutexCount then (statusMemoryNotAvailable, s, k)
  else
    let slot := k.mutexCount
    let (handle, handles) := wineHandleAlloc k.handles handleTypeMutex (koMutex ko slot)
    if handle = 0 then (statusMemoryNotAvailable, s, k)
    else
      (statusSuccess, s.storeUnlessNull handle mutexHandle,
        { k with
          handles
          mutexes := update k.mutexes slot ⟨toInt handle, 0⟩
          mutexCount := slot + 1 })

def handlerNtCreateSemaphore (ko : KoLayout) (semaphoreHandle : Param)
    (initialCount maximumCount : ℕ) (s : Store) (k : KernelState) : ℕ × Store × KernelState :=
  if maximumCount = 0 then (statusInvalidParameter, s, k)
  else if maxSemaphores ≤ k.semaphoreCount then (statusMemoryNotAvailable, s, k)
  else
    let initialCount := if maximumCount < initialCount then maximumCount else initialCount
    let slot := k.semaphoreCount
    let (handle, handles) := wineHandleAlloc k.handles handleTypeSemaphore (koSemaphore ko slot)
    if handle = 0 then (statusMemoryNotAvailable, s, k)
    else
      (statusSuccess, s.storeUnlessNull handle semaphoreHandle,
        { k with
          handles
          semaphores := update k.semaphores slot
            ⟨toInt handle, toInt initialCount, toInt maximumCount⟩
          semaphoreCount := slot + 1 })

def stdinHandle : ℕ := 0x7FFFFFFF
def stdoutHandle : ℕ := 0x7FFFFFFE
def stderrHandle : ℕ := 0x7FFFFFFD

def tableFd (t : HandleTable) (handle : ℕ) : ℤ :=
  if wineHandleGetType t (handle % 2 ^ 32) ≠ handleTypeFile then -1
  else
    let obj := wineHandleGet t (handle % 2 ^ 32)
    if obj = 0 then -1 else toInt obj

def handleToFd (b : Build) (k : KernelState) (handle : ℕ) : ℤ :=
  if handle = stdinHandle then 0
  else if handle = stdoutHandle then 1
  else if handle = stderrHandle then 2
  else if b = .i386 ∧ 3 ≤ handle ∧ handle < 67 ∧ handle - 3 < k.createfileFdCount then
    k.createfileFds (handle - 3)
  else tableFd k.handles handle

/-- The end of `handler_NtCreateSection`: the section is entered and gets its handle, which is not
checked. -/
def addSection (b : Build) (ko : KoLayout) (sectionHandle : Param) (sec : WineSection) (s : Store)
    (k : KernelState) : ℕ × Store × KernelState :=
  let object := koSection b ko k.sectionCount
  let (handle, handles) := wineHandleAlloc k.handles handleTypeSection object
  (statusSuccess, s.store handle sectionHandle,
    { k with
      handles
      sectionAt := update k.sectionAt object sec
      sectionCount := k.sectionCount + 1 })

/-- `handler_NtCreateSection`.  There is no result when the copy of the file faults, because the section
cannot be written or one of the addresses is an error number. -/
def handlerNtCreateSection (b : Build) (os : FileOs) (ko : KoLayout)
    (sectionHandle maxSize : Param) (pageProtection fileHandle : ℕ) (s : Store) (k : KernelState) :
    Option (ℕ × Store × KernelState) :=
  let prot := mapProtect pageProtection
  if maxSections ≤ k.sectionCount then some (statusMemoryNotAvailable, s, k)
  else if fileHandle = 0 then
    let size := b.wrap (s.load maxSize)
    match sysvMmap b (·, s.mem) (os.mmap ⟨0, size, prot, none, 0⟩ s.mem) with
    | none => some (statusMemoryNotAvailable, s, k)
    | some (base, mem) => some (addSection b ko sectionHandle ⟨base, size, -1⟩ { s with mem } k)
  else
    let fd := handleToFd b k fileHandle
    if fd < 0 then some (statusInvalidHandle, s, k)
    else
      match os.fstat fd with
      | none => some (statusUnsuccessful, s, k)
      | some size =>
        let size := b.wrap size
        match sysvMmap b (·, s.mem) (os.mmap ⟨0, size, prot, none, 0⟩ s.mem) with
        | none => some (statusMemoryNotAvailable, s, k)
        | some (base, mem) =>
          -- The file is copied to the section through a mapping of its own.
          match sysvMmap b (·, mem) (os.mmap ⟨0, size, protRead, some fd, 0⟩ mem) with
          | none => some (statusUnsuccessful, { s with mem }, k)
          | some (temp, mem) =>
            if size = 0 ∨ prot &&& protWrite ≠ 0 ∧ isErrno b base = false ∧ isErrno b temp = false then
              some (addSection b ko sectionHandle ⟨base, size, fd⟩
                { s with mem := mem.copy base mem temp size } k)
            else none

/-- The part of `handler_NtClose` before the handle is freed: a descriptor is closed, and a section
is unmapped. -/
def releaseObject (type : UInt8) (object : Ptr) (k : KernelState) : KernelState :=
  if type = handleTypeFile then
    if object ≠ 0 then { k with closed := toInt object :: k.closed } else k
  else if type = handleTypeSection then
    if object ≠ 0 ∧ (k.sectionAt object).base ≠ 0 then
      { k with sectionAt := update k.sectionAt object { k.sectionAt object with base := 0 } }
    else k
  else k

def handlerNtClose (handle : ℕ) (k : KernelState) : ℕ × KernelState :=
  if handle = stdinHandle ∨ handle = stdoutHandle ∨ handle = stderrHandle then (statusSuccess, k)
  else if handle ≤ 2 then (statusSuccess, k)
  else
    let type := wineHandleGetType k.handles (handle % 2 ^ 32)
    if type = 0 then (statusInvalidHandle, k)
    else
      let k := releaseObject type (wineHandleGet k.handles (handle % 2 ^ 32)) k
      (statusSuccess, { k with handles := wineHandleFree k.handles (handle % 2 ^ 32) })

/-! ### The closing of a handle -/

def IsStandard (handle : ℕ) : Prop :=
  (handle = stdinHandle ∨ handle = stdoutHandle ∨ handle = stderrHandle) ∨ handle ≤ 2

instance (handle : ℕ) : Decidable (IsStandard handle) :=
  inferInstanceAs (Decidable (_ ∨ _))

theorem handlerNtClose_of_standard {handle : ℕ} {k : KernelState} (h : IsStandard handle) :
  handlerNtClose handle k = (statusSuccess, k)
  := by
  rcases h with hpseudo | hlow
  · exact if_pos hpseudo
  · simp [handlerNtClose, hlow]

theorem toInt_of_lt {n : ℕ} (h : n < handleTableSize) :
  toInt n = n
  := by
  rw [handleTableSize] at h
  apply Int.bmod_eq_of_le
  · omega
  · omega

theorem releaseObject_frame (type : UInt8) (object : Ptr) (k : KernelState) :
  (releaseObject type object k).handles = k.handles ∧
    (releaseObject type object k).events = k.events ∧
    (releaseObject type object k).eventCount = k.eventCount
  := by
  rw [releaseObject]
  split_ifs
  all_goals exact ⟨rfl, rfl, rfl⟩

def objectDescriptors (x : WineHandle) : List ℤ :=
  if x.type = handleTypeFile ∧ x.object ≠ 0 then [toInt x.object] else []

theorem releaseObject_files (x : WineHandle) (k : KernelState) :
  (releaseObject x.type x.object k).createfileFds = k.createfileFds ∧
    (releaseObject x.type x.object k).createfileFdCount = k.createfileFdCount ∧
    (releaseObject x.type x.object k).closed = objectDescriptors x ++ k.closed
  := by
  rw [releaseObject, objectDescriptors]
  by_cases hfile : x.type = handleTypeFile
  · by_cases hobj : x.object = 0
    · simp [hfile, hobj]
    · simp [hfile, hobj]
  · simp only [hfile, if_false, false_and, List.nil_append]
    split_ifs
    · exact ⟨rfl, rfl, rfl⟩
    · exact ⟨rfl, rfl, rfl⟩
    · exact ⟨rfl, rfl, rfl⟩

theorem not_isStandard {handle : ℕ} (h3 : 3 ≤ handle) (hlt : handle < handleTableSize) :
  ¬ IsStandard handle
  := by
  simp only [IsStandard, stdinHandle, stdoutHandle, stderrHandle, handleTableSize] at hlt ⊢
  omega

theorem handlerNtClose_of_live {k : KernelState} {i : Fin handleTableSize} (h3 : 3 ≤ i.val)
    (hone : (k.handles i).refCount = 1) (htype : (k.handles i).type ≠ 0) :
  handlerNtClose i.val k = (statusSuccess,
    { releaseObject (k.handles i).type (k.handles i).object k with
      handles := update k.handles i .empty })
  := by
  have hlive : (k.handles i).refCount ≠ 0 := by
    rw [hone]
    decide
  have hlt : i.val < 512 := i.isLt
  obtain ⟨hpseudo, hlow⟩ := not_or.mp (not_isStandard h3 i.isLt)
  have hmod : i.val % 2 ^ 32 = i.val := Nat.mod_eq_of_lt (by omega)
  obtain ⟨hobject, htype'⟩ := get_of_live hlive
  simp only [handlerNtClose, if_neg hpseudo, if_neg hlow, hmod, hobject, htype', if_neg htype,
    (releaseObject_frame _ _ k).1, wineHandleFree_of_one h3 hone]

/-! ### Descriptors -/

def fdToHandle (b : Build) (fd : ℤ) (k : KernelState) : ℕ × KernelState :=
  let (handle, handles) := wineHandleAlloc k.handles handleTypeFile (fd % b.ptrLimit).toNat
  (handle, { k with handles })

/-- What is expected of a descriptor: it gets a handle that leads to it while other handles come and
go, and `NtClose` closes the descriptor once and ends the handle. -/
def RoundTrip (fd : ℤ) (k : KernelState) : Prop :=
  ∃ h k₁, fdToHandle .x64 fd k = (h, k₁) ∧ h ≠ 0 ∧
    ∀ (ops : List HandleOp) (k' : KernelState), (∀ op ∈ ops, op ≠ .addRef h ∧ op ≠ .free h) →
      k'.handles = ops.foldl step k₁.handles →
      handleToFd .x64 k' h = fd ∧ (handlerNtClose h k').2.closed = fd :: k'.closed ∧
        handleToFd .x64 (handlerNtClose h k').2 h = -1

section

variable {k : KernelState} {i : Fin handleTableSize} {fd : ℤ}

theorem handleToFd_val (h3 : 3 ≤ i.val) :
  handleToFd .x64 k i.val = tableFd k.handles i.val
  := by
  obtain ⟨hpseudo, -⟩ := not_or.mp (not_isStandard h3 i.isLt)
  rw [not_or, not_or] at hpseudo
  rw [handleToFd, if_neg hpseudo.1, if_neg hpseudo.2.1, if_neg hpseudo.2.2, if_neg nofun]

theorem handleToFd_slot {n : ℕ} (h3 : 3 ≤ i.val)
    (hi : k.handles i = ⟨i.val, handleTypeFile, 1, n⟩) :
  handleToFd .x64 k i.val = (if n = 0 then -1 else toInt n) ∧
    (handlerNtClose i.val k).2.closed = (if n = 0 then [] else [toInt n]) ++ k.closed ∧
    handleToFd .x64 (handlerNtClose i.val k).2 i.val = -1
  := by
  have hmod : i.val % 2 ^ 32 = i.val := Nat.mod_eq_of_lt (i.isLt.trans (by decide))
  have hlive : (k.handles i).refCount ≠ 0 := by simp [hi]
  obtain ⟨hobject, htype⟩ := get_of_live hlive
  rw [hi] at hobject htype
  have hclose := handlerNtClose_of_live h3 (congrArg WineHandle.refCount hi) (by simp [hi, handleTypeFile])
  refine ⟨?_, ?_, ?_⟩
  · rw [handleToFd_val h3, tableFd, hmod, htype, hobject, if_neg (not_not_intro rfl)]
  · rw [hclose]
    apply (releaseObject_files _ k).2.2.trans
    simp [objectDescriptors, hi]
  · rw [hclose, handleToFd_val h3, tableFd, hmod, (get_of_dead _).2, if_pos (by decide)]
    simp [WineHandle.empty]

/-- A descriptor has such a handle if and only if it is not the descriptor `0`, whose object is
`NULL`. -/
theorem roundTrip_iff (h0 : 0 ≤ fd) (hlt : fd < 2 ^ 31)
    (hfree : ∃ i : Fin handleTableSize, 3 ≤ i.val ∧ (k.handles i).refCount = 0) :
  RoundTrip fd k ↔ fd ≠ 0
  := by
  obtain ⟨j, h3, hzero⟩ := hfree
  obtain ⟨n, rfl⟩ := Int.eq_ofNat_of_zero_le h0
  have hobject : ((n : ℤ) % Build.x64.ptrLimit).toNat = n := by
    rw [Int.emod_eq_of_lt h0 (hlt.trans (by decide)), Int.toNat_natCast]
  have htoInt : toInt n = n := Int.bmod_eq_of_le (by omega) (by omega)
  rcases wineHandleAlloc_cases k.handles handleTypeFile n with ⟨i, h3, -, halloc⟩ | ⟨hfull, -⟩
  · obtain ⟨k₁, hhandle, hk₁⟩ : ∃ k₁, fdToHandle .x64 n k = (i.val, k₁) ∧
        k₁.handles i = ⟨i.val, handleTypeFile, 1, n⟩ := by
      refine ⟨_, by rw [fdToHandle, hobject, halloc], ?_⟩
      apply update_self
    rw [RoundTrip, hhandle]
    constructor
    · rintro ⟨h, k₁, ⟨⟩, -, hround⟩ hn
      have hslot := (handleToFd_slot h3 hk₁).1
      rw [(hround [] k₁ nofun rfl).1, if_pos (Int.natCast_eq_zero.mp hn)] at hslot
      omega
    · intro hn
      refine ⟨_, _, rfl, by omega, ?_⟩
      intro ops k' hops hk'
      have hslot : k'.handles i = ⟨i.val, handleTypeFile, 1, n⟩ := by
        rw [hk', foldl_step_of_ne _ hops, hk₁]
        simp [hk₁]
      have hspec := handleToFd_slot h3 hslot
      rwa [if_neg, if_neg, htoInt] at hspec
      · omega
      · omega
  · exact absurd hzero (hfull j h3)

end

theorem roundTrip_seven :
  RoundTrip 7 .init
  :=
  (roundTrip_iff (by decide) (by decide) ⟨⟨3, by decide⟩, by decide, by decide⟩).mpr (by decide)

/-- The descriptor `0` is not found under its handle, and is never closed. -/
theorem fdToHandle_zero :
  (fdToHandle .x64 0 .init).1 = 3 ∧ handleToFd .x64 (fdToHandle .x64 0 .init).2 3 = -1 ∧
    (handlerNtClose 3 (fdToHandle .x64 0 .init).2).2.closed = []
  := by
  decide +kernel

end Ntdll
