import MyWine.Loader.ImageMapper
import MyWine.Ntdll.Memory

/-!
# Virtual memory

The handlers of `NtAllocateVirtualMemory` and `NtFreeVirtualMemory` of `msvcrt/ntdll_memory.c`, and
`find_view`, which `VirtualFree` also uses.  The kernel keeps a list of the regions that are mapped.
Where it puts a new mapping is its own choice, which the handlers are given as a function; it puts
it at a free place (`Grants`).  What `munmap` does is determined (`munmap`).
-/

namespace Ntdll

open Loader

def handleCurrentProcess : ℕ := 0xFFFFFFFF

def statusAccessDenied : ℕ := 0xC0000022

def findView (w : Objects) (base : Ptr) : Option ℕ :=
  (List.range w.viewCount).find? fun i => (w.views i).base = base

/-! ### The kernel -/

/-- The mappings are put at free places. -/
def Grants (b : Build) (mmap : Mmap → Except Errno Ptr) (used : List Region) : Prop :=
  ∀ call a, mmap call = .ok a →
    0 < call.length ∧ Usable b (pages a call.length) ∧ ∀ u ∈ used, (pages a call.length).Apart u

/-- `munmap`, which fails on an address inside a page, on no bytes, and beyond the address space.
The pages need not be mapped. -/
def munmap (b : Build) (a : Ptr) (length : ℕ) (used : List Region) : Option (List Region) :=
  if pageSize ∣ a ∧ length ≠ 0 ∧ (pages a length).stop < b.ptrLimit then
    some (Region.unmap used (pages a length))
  else none

def IsMapped (used : List Region) (x : ℕ) : Prop := ∃ u ∈ used, x ∈ u

instance (used : List Region) (x : ℕ) : Decidable (IsMapped used x) :=
  inferInstanceAs (Decidable (∃ u ∈ used, x ∈ u))

theorem not_pageSize_dvd_of_isErrno {b : Build} {a : Ptr} (h : isErrno b a = true) :
  ¬ pageSize ∣ a
  := by
  have := (of_decide_eq_true h).2
  simp only [pageSize]
  omega

theorem munmap_of_usable {b : Build} {a : Ptr} {length : ℕ} (hlength : 0 < length)
    (h : Usable b (pages a length)) (used : List Region) :
  munmap b a length used = some (Region.unmap used (pages a length))
  := if_pos ⟨h.aligned, Nat.pos_iff_ne_zero.mp hlength, h.stop_lt⟩

/-! ### The handlers -/

/-- `handler_NtAllocateVirtualMemory`.  The pointer `base_address` may be `NULL`; the result is the
status, the value at that pointer afterwards, and what is mapped. -/
def handlerNtAllocateVirtualMemory (b : Build) (mmap : Mmap → Except Errno Ptr) (process : ℕ)
    (baseAddress : Option ℕ) (regionSize protect : ℕ) (used : List Region) :
    ℕ × Option ℕ × List Region :=
  if process ≠ handleCurrentProcess then (statusAccessDenied, baseAddress, used)
  else
    let addr := b.wrap (baseAddress.getD 0)
    let length := b.wrap regionSize
    let answer := mmap ⟨addr, length, mapProtect protect, none, 0⟩
    match sysvMmap b id answer with
    | none => (statusMemoryNotAvailable, baseAddress, used)
    | some result =>
      (statusSuccess, baseAddress.map fun _ => result,
        -- An error that is taken for an address maps nothing.
        if answer.isOk then pages result length :: used else used)

/-- `handler_NtFreeVirtualMemory`.  The result is the status, the values of the two parameters
afterwards, and what is mapped. -/
def handlerNtFreeVirtualMemory (b : Build) (process : ℕ) (baseAddress : Option ℕ) (regionSize : ℕ)
    (used : List Region) : ℕ × Option ℕ × ℕ × List Region :=
  if process ≠ handleCurrentProcess then (statusAccessDenied, baseAddress, regionSize, used)
  else
    let a := baseAddress.getD 0
    if a = 0 then (statusInvalidParameter, baseAddress, regionSize, used)
    else
      match munmap b (b.wrap a) (b.wrap regionSize) used with
      | none => (statusUnsuccessful, baseAddress, regionSize, used)
      | some used => (statusSuccess, some 0, 0, used)

section

variable {b : Build} {used : List Region} {size : ℕ}

theorem handlerNtAllocateVirtualMemory_error {mmap : Mmap → Except Errno Ptr} {base : Option ℕ}
    {protect : ℕ} {e : Errno}
    (h : mmap ⟨b.wrap (base.getD 0), b.wrap size, mapProtect protect, none, 0⟩ = .error e) :
  handlerNtAllocateVirtualMemory b mmap handleCurrentProcess base size protect used =
    if b = .i386 ∧ e ≠ eperm then (statusSuccess, base.map fun _ => 0x100000000 - e.val, used)
    else (statusMemoryNotAvailable, base, used)
  := by
  rw [handlerNtAllocateVirtualMemory, if_neg (not_not.mpr rfl)]
  simp only [h, sysvMmap]
  by_cases herror : b = .i386 ∧ e ≠ eperm
  · rw [if_pos herror, if_pos herror]
    rfl
  · rw [if_neg herror, if_neg herror]

theorem handlerNtAllocateVirtualMemory_ok {mmap : Mmap → Except Errno Ptr} {base : Option ℕ}
    {protect : ℕ} {a : Ptr}
    (h : mmap ⟨b.wrap (base.getD 0), b.wrap size, mapProtect protect, none, 0⟩ = .ok a) :
  handlerNtAllocateVirtualMemory b mmap handleCurrentProcess base size protect used =
    (statusSuccess, base.map fun _ => a, pages a (b.wrap size) :: used)
  := by
  rw [handlerNtAllocateVirtualMemory, if_neg (not_not.mpr rfl)]
  simp only [h, sysvMmap]
  rfl

theorem handlerNtFreeVirtualMemory_some {a : Ptr} (ha : a ≠ 0) {used' : List Region}
    (h : munmap b (b.wrap a) (b.wrap size) used = some used') :
  handlerNtFreeVirtualMemory b handleCurrentProcess (some a) size used =
    (statusSuccess, some 0, 0, used')
  := by
  rw [handlerNtFreeVirtualMemory, if_neg (not_not.mpr rfl)]
  simp [ha, h]

theorem handlerNtFreeVirtualMemory_none {a : Ptr} (ha : a ≠ 0)
    (h : munmap b (b.wrap a) (b.wrap size) used = none) :
  handlerNtFreeVirtualMemory b handleCurrentProcess (some a) size used =
    (statusUnsuccessful, some a, size, used)
  := by
  rw [handlerNtFreeVirtualMemory, if_neg (not_not.mpr rfl)]
  simp [ha, h]

end

end Ntdll
