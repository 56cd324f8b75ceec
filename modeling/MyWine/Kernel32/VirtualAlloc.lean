import MyWine.Ntdll.VirtualMemory

/-!
# The registry of VirtualAlloc

`VirtualAlloc` and `VirtualFree` of `msvcrt/kernel32_memory.c`.  The sizes of the allocations are
kept in a table of `MAX_VM_ALLOCS` entries, in which `VirtualFree` finds the number of bytes that it
releases.

`VirtualFree` looks for the entry that it removes after the handler has set `base` to zero, and so
it never removes one.  The table holds the first allocations of the process, whether or not they
have been released (`Tracks.table`).  On `i386`, `VirtualAlloc` also returns and records most error
numbers of `mmap`.  The releases of a run do what the guest expects exactly when each of them is of an
address that is no error number and finds its allocation among the recorded ones (`releases_ok_iff`).
-/

open Ntdll Loader

namespace Kernel32

open Function List

/-! ### The calls -/

structure VmAlloc where
  base : Ptr
  size : ℕ
  deriving DecidableEq

def VmAlloc.pages (e : VmAlloc) : Region := Loader.pages e.base e.size

def maxVmAllocs : ℕ := 64

/-- `vm_allocs` and `vm_alloc_count`, the kernel objects, and what is mapped. -/
structure VmState where
  allocs : ℕ → VmAlloc
  allocCount : ℕ
  objects : Objects
  used : List Region

def vmAllocFind (s : VmState) (base : Ptr) : Option ℕ :=
  (List.range s.allocCount).find? fun i => (s.allocs i).base = base

def vmAllocAdd (s : VmState) (base : Ptr) (size : ℕ) : VmState :=
  if maxVmAllocs ≤ s.allocCount then s
  else
    { s with
      allocs := update s.allocs s.allocCount ⟨base, size⟩
      allocCount := s.allocCount + 1 }

def vmAllocRemove (s : VmState) (idx : ℕ) : VmState :=
  if s.allocCount ≤ idx then s
  else
    { s with
      allocs := update s.allocs idx (s.allocs (s.allocCount - 1))
      allocCount := s.allocCount - 1 }

/-- `VirtualAlloc`.  The parameters `lpAddress` and `dwSize` have the width of a pointer. -/
def virtualAlloc (b : Build) (mmap : Mmap → Except Errno Ptr) (lpAddress dwSize flProtect : ℕ)
    (s : VmState) : Ptr × VmState :=
  let dwSize := b.wrap dwSize
  if dwSize = 0 then (0, s)
  else
    let (status, base, used) := handlerNtAllocateVirtualMemory b mmap handleCurrentProcess
      (some (b.wrap lpAddress)) dwSize flProtect s.used
    let s := { s with used }
    if status ≠ statusSuccess then (0, s)
    else (base.getD 0, vmAllocAdd s (base.getD 0) dwSize)

def memRelease : ℕ := 0x8000

def releaseSize (s : VmState) (base : Ptr) (dwSize dwFreeType : ℕ) : Option ℕ :=
  if dwFreeType &&& memRelease ≠ 0 ∧ dwSize = 0 then
    match vmAllocFind s base with
    | some idx => some (s.allocs idx).size
    | none => (findView s.objects base).map fun vidx => (s.objects.views vidx).size
  else some dwSize

def virtualFree (b : Build) (lpAddress dwSize dwFreeType : ℕ) (s : VmState) : Bool × VmState :=
  let lpAddress := b.wrap lpAddress
  if lpAddress = 0 then (false, s)
  else
    match releaseSize s lpAddress (b.wrap dwSize) dwFreeType with
    | none => (false, s)
    | some regionSize =>
      let (status, base, _, used) := handlerNtFreeVirtualMemory b handleCurrentProcess
        (some lpAddress) regionSize s.used
      let s := { s with used }
      if status = statusSuccess then
        -- The handler has set `base` to zero.
        match vmAllocFind s (base.getD 0) with
        | some idx => (true, vmAllocRemove s idx)
        | none => (true, s)
      else (false, s)

/-! ### Runs -/

/-- A call of the guest; that of `VirtualAlloc` comes with the answers of the kernel. -/
inductive VmCall where
  | alloc (mmap : Mmap → Except Errno Ptr) (lpAddress dwSize flProtect : ℕ)
  | release (lpAddress : Ptr)

/-- The state of a run: the allocations that succeeded so far, the oldest one first, and those of
them that have not been released. -/
structure VmRun extends VmState where
  history : List VmAlloc
  live : List VmAlloc

section

variable (b : Build)

def vmStep (s : VmRun) : VmCall → VmRun
  | .alloc mmap lpAddress dwSize flProtect =>
    let r := virtualAlloc b mmap lpAddress dwSize flProtect s.toVmState
    if r.1 = 0 then { s with toVmState := r.2 }
    else
      let e : VmAlloc := ⟨r.1, b.wrap dwSize⟩
      { s with toVmState := r.2, history := s.history ++ [e], live := e :: s.live }
  | .release p =>
    let r := virtualFree b p 0 memRelease s.toVmState
    if r.1 then { s with toVmState := r.2, live := s.live.filter fun e => e.base ≠ p }
    else { s with toVmState := r.2 }

/-- The kernel answers with free places, and the guest releases addresses that it was given. -/
def ValidCall (s : VmRun) : VmCall → Prop
  | .alloc mmap _ _ _ => Grants b mmap s.used
  | .release p => ∃ e ∈ s.history, e.base = p

/-- The release of a live allocation succeeds and unmaps its pages and no other ones, in particular
none of another live allocation; the release of an address that is not live fails. -/
def ReleaseOk (s : VmRun) : VmCall → Prop
  | .alloc _ _ _ _ => True
  | .release p =>
    let r := virtualFree b p 0 memRelease s.toVmState
    (∀ e ∈ s.live, e.base = p → r.1 = true ∧
      (∀ x, IsMapped r.2.used x ↔ IsMapped s.used x ∧ x ∉ e.pages) ∧
      ∀ e' ∈ s.live, e' ≠ e → ∀ x ∈ e'.pages, IsMapped s.used x → IsMapped r.2.used x) ∧
    ((∀ e ∈ s.live, e.base ≠ p) → r.1 = false)

def VmRun.recorded (s : VmRun) : List VmAlloc := s.history.take maxVmAllocs

/-- The address that is released is no error number.  If an allocation is recorded at the address, then
there is a live one at that address, and the first one recorded there covers the same mapped pages.
Otherwise no allocation is live at that address. -/
def Recorded (s : VmRun) : VmCall → Prop
  | .alloc _ _ _ _ => True
  | .release p =>
    isErrno b p = false ∧
    match s.recorded.find? fun e => e.base = p with
    | some e' => ∃ e ∈ s.live, e.base = p ∧ ∀ x, IsMapped s.used x → (x ∈ e'.pages ↔ x ∈ e.pages)
    | none => ∀ e ∈ s.live, e.base ≠ p

end

/-! ### What the calls do -/

section

variable {b : Build} {s : VmState}

def VmState.table (s : VmState) : List VmAlloc := (List.range s.allocCount).map s.allocs

theorem vmAllocFind_map (s : VmState) (p : Ptr) :
  (vmAllocFind s p).map s.allocs = s.table.find? fun e => e.base = p
  := by
  rw [vmAllocFind, VmState.table, List.find?_map]
  rfl

theorem table_vmAllocAdd (s : VmState) (base : Ptr) (size : ℕ) :
  (vmAllocAdd s base size).table =
    if maxVmAllocs ≤ s.allocCount then s.table else s.table ++ [⟨base, size⟩]
  := by
  simp only [vmAllocAdd]
  split_ifs
  · rfl
  · simp only [VmState.table, range_succ, map_append, map_cons, map_nil,
      update_self, append_cancel_right_eq]
    apply map_congr_left
    intro i hi
    rw [update_of_ne (Nat.ne_of_lt (mem_range.mp hi))]

@[simp]
theorem used_vmAllocAdd (s : VmState) (base : Ptr) (size : ℕ) :
  (vmAllocAdd s base size).used = s.used
  := by
  rw [vmAllocAdd]
  split_ifs
  · rfl
  · rfl

@[simp]
theorem objects_vmAllocAdd (s : VmState) (base : Ptr) (size : ℕ) :
  (vmAllocAdd s base size).objects = s.objects
  := by
  rw [vmAllocAdd]
  split_ifs
  · rfl
  · rfl

theorem virtualAlloc_spec {mmap : Mmap → Except Errno Ptr} {lpAddress dwSize flProtect : ℕ}
    (hgrants : Grants b mmap s.used) {p : Ptr} {s' : VmState}
    (h : virtualAlloc b mmap lpAddress dwSize flProtect s = (p, s')) :
  (p = 0 ∧ s' = s) ∨
    (0 < b.wrap dwSize ∧ Usable b (pages p (b.wrap dwSize)) ∧
      (∀ u ∈ s.used, (pages p (b.wrap dwSize)).Apart u) ∧
      s' = vmAllocAdd { s with used := pages p (b.wrap dwSize) :: s.used } p (b.wrap dwSize)) ∨
    (isErrno b p = true ∧ s' = vmAllocAdd s p (b.wrap dwSize))
  := by
  have hwrap : b.wrap (b.wrap dwSize) = b.wrap dwSize := Nat.mod_mod _ _
  by_cases hzero : b.wrap dwSize = 0
  · simp only [virtualAlloc, hzero, if_true] at h
    cases h
    exact Or.inl ⟨rfl, rfl⟩
  simp only [virtualAlloc, hzero, if_false] at h
  cases hmmap : mmap ⟨b.wrap ((some (b.wrap lpAddress)).getD 0), b.wrap (b.wrap dwSize),
    mapProtect flProtect, none, 0⟩ with
  | error e =>
    rw [handlerNtAllocateVirtualMemory_error hmmap] at h
    by_cases herror : b = .i386 ∧ e ≠ eperm
    · rw [if_pos herror] at h
      cases h
      exact Or.inr (Or.inr ⟨isErrno_sub herror.1 e, rfl⟩)
    · rw [if_neg herror] at h
      cases h
      exact Or.inl ⟨rfl, rfl⟩
  | ok a =>
    rw [handlerNtAllocateVirtualMemory_ok hmmap] at h
    cases h
    obtain ⟨hlength, husable, hapart⟩ := hgrants _ a hmmap
    rw [hwrap] at hlength husable hapart ⊢
    exact Or.inr (Or.inl ⟨hlength, husable, hapart, rfl⟩)

theorem virtualFree_spec (hnull : ∀ e ∈ s.table, e.base ≠ 0) {p : Ptr} (hp : p ≠ 0)
    (hwrap : b.wrap p = p) :
  virtualFree b p 0 memRelease s =
    match releaseSize s p 0 memRelease with
    | none => (false, s)
    | some size =>
      match munmap b p (b.wrap size) s.used with
      | none => (false, s)
      | some used => (true, { s with used })
  := by
  have hzero : b.wrap 0 = 0 := Nat.zero_mod _
  rw [virtualFree, hwrap, if_neg hp, hzero]
  cases releaseSize s p 0 memRelease with
  | none => rfl
  | some size =>
    cases hunmap : munmap b p (b.wrap size) s.used with
    | none =>
      have hunmap' : munmap b (b.wrap p) (b.wrap size) s.used = none := by rw [hwrap, hunmap]
      simp only [handlerNtFreeVirtualMemory_none hp hunmap', hunmap]
      rfl
    | some used =>
      have hunmap' : munmap b (b.wrap p) (b.wrap size) s.used = some used := by rw [hwrap, hunmap]
      have hfind : vmAllocFind { s with used } 0 = none := by
        rw [vmAllocFind, List.find?_eq_none]
        intro i hi
        simpa using hnull (s.allocs i) (mem_map_of_mem hi)
      simp [handlerNtFreeVirtualMemory_some hp hunmap', hfind, hunmap]

theorem releaseSize_eq (s : VmState) (p : Ptr) :
  releaseSize s p 0 memRelease =
    match s.table.find? fun e => e.base = p with
    | some e => some e.size
    | none => (findView s.objects p).map fun vidx => (s.objects.views vidx).size
  := by
  rw [releaseSize, if_pos ⟨by decide, rfl⟩, ← vmAllocFind_map]
  cases vmAllocFind s p with
  | none => rfl
  | some idx => rfl

end

/-! ### What holds along a run -/

/-- An allocation that the kernel made. -/
structure VmAlloc.Granted (b : Build) (e : VmAlloc) : Prop where
  pos : 0 < e.size
  usable : Usable b e.pages
  wrap : b.wrap e.size = e.size

/-- The table holds the first allocations, and there are no views.  An allocation is made by the kernel
or is an error number, which cannot be released.  The pages of the live allocations are mapped and
apart. -/
structure Tracks (b : Build) (s : VmRun) : Prop where
  table : s.table = s.recorded
  views : s.objects.viewCount = 0
  granted : ∀ e ∈ s.history, e.Granted b ∨ isErrno b e.base = true ∧ e ∈ s.live
  live : ∀ e ∈ s.live, e ∈ s.history ∧ (e.Granted b → ∀ x ∈ e.pages, IsMapped s.used x)
  apart : ∀ e ∈ s.live, e.Granted b → ∀ e' ∈ s.live, e' ≠ e → e'.pages.Apart e.pages

section

variable {b : Build} {s : VmRun}

variable {e : VmAlloc}

theorem VmAlloc.Granted.wrap_base (h : e.Granted b) :
  b.wrap e.base = e.base
  := by
  apply Build.wrap_of_lt
  have hlt := h.usable.stop_lt
  simp only [pages, Loader.pages, Region.stop] at hlt
  omega

theorem VmAlloc.Granted.pages_pos (h : e.Granted b) :
  0 < e.pages.size
  := lt_of_lt_of_le h.pos (le_pageRoundUp e.size)

theorem VmAlloc.Granted.isErrno (h : e.Granted b) :
  isErrno b e.base = false
  := by
  rw [← Bool.not_eq_true]
  intro herror
  apply not_pageSize_dvd_of_isErrno herror h.usable.aligned

theorem VmAlloc.Granted.apart_of_isErrno {e' : VmAlloc} (h : e.Granted b)
    (herror : Ntdll.isErrno b e'.base = true) :
  e'.pages.Apart e.pages
  := by
  obtain ⟨rfl, habove, -⟩ := of_decide_eq_true herror
  have hlt := h.usable.stop_lt
  have hstop : pageSize ∣ e.pages.stop :=
    Nat.dvd_add h.usable.aligned (pageSize_dvd_pageRoundUp e.size)
  simp only [Build.ptrLimit, Build.ptrSize, pageSize] at hlt hstop
  right
  simp only [pages, Loader.pages] at hlt hstop ⊢
  omega

section

variable (h : Tracks b s)
include h

theorem Tracks.base (he : e ∈ s.history) :
  e.base ≠ 0 ∧ b.wrap e.base = e.base
  := by
  rcases h.granted e he with hgranted | ⟨herror, -⟩
  · exact ⟨hgranted.usable.start_ne_zero, hgranted.wrap_base⟩
  · obtain ⟨rfl, habove, hlt⟩ := of_decide_eq_true herror
    exact ⟨Nat.ne_zero_of_lt habove, Build.wrap_of_lt hlt⟩

theorem Tracks.granted_of_isErrno (he : e ∈ s.history) (herror : isErrno b e.base = false) :
  e.Granted b
  := (h.granted e he).resolve_right fun hnot => by simp [herror] at hnot

theorem Tracks.virtualFree_eq (he : e ∈ s.history) :
  virtualFree b e.base 0 memRelease s.toVmState =
    match releaseSize s.toVmState e.base 0 memRelease with
    | none => (false, s.toVmState)
    | some size =>
      match munmap b e.base (b.wrap size) s.used with
      | none => (false, s.toVmState)
      | some used => (true, { s.toVmState with used })
  := by
  apply virtualFree_spec _ (h.base he).1 (h.base he).2
  intro e' he'
  rw [h.table] at he'
  apply (h.base (mem_of_mem_take he')).1

theorem Tracks.virtualFree_errno (he : e ∈ s.history) (herror : isErrno b e.base = true) :
  (virtualFree b e.base 0 memRelease s.toVmState).1 = false
  := by
  rw [h.virtualFree_eq he]
  cases releaseSize s.toVmState e.base 0 memRelease with
  | none => rfl
  | some size =>
    have hnone : munmap b e.base (b.wrap size) s.used = none :=
      if_neg fun hmunmap => not_pageSize_dvd_of_isErrno herror hmunmap.1
    simp only [hnone]

theorem Tracks.virtualFree_recorded {p : Ptr} (herror : isErrno b p = false)
    (hfind : s.recorded.find? (fun e => e.base = p) = some e) :
  virtualFree b p 0 memRelease s.toVmState =
    (true, { s.toVmState with used := Region.unmap s.used e.pages })
  := by
  have hold : e ∈ s.history := mem_of_mem_take (mem_of_find?_eq_some hfind)
  obtain rfl : e.base = p := by simpa using List.find?_some hfind
  have hgranted := h.granted_of_isErrno hold herror
  rw [h.virtualFree_eq hold, releaseSize_eq, h.table, hfind]
  simp only [hgranted.wrap]
  rw [munmap_of_usable hgranted.pos hgranted.usable]
  rfl

theorem Tracks.virtualFree_unrecorded (he : e ∈ s.history)
    (hfind : s.recorded.find? (fun e' => e'.base = e.base) = none) :
  virtualFree b e.base 0 memRelease s.toVmState = (false, s.toVmState)
  := by
  have hview : findView s.objects e.base = none := by
    rw [findView, h.views]
    rfl
  rw [h.virtualFree_eq he, releaseSize_eq, h.table, hfind, hview]
  rfl

theorem Tracks.eq_of_base {e' : VmAlloc} (he : e ∈ s.live) (he' : e' ∈ s.live)
    (hgranted : e.Granted b) (hbase : e'.base = e.base) :
  e' = e
  := by
  by_contra hne
  have happart := h.apart e he hgranted e' he' hne
  have hpos := hgranted.pages_pos
  have hgranted' : e'.Granted b := by
    apply h.granted_of_isErrno (h.live e' he').1
    rw [hbase, hgranted.isErrno]
  have hpos' := hgranted'.pages_pos
  simp only [Region.Apart, Region.stop, VmAlloc.pages, Loader.pages, hbase] at happart hpos hpos'
  omega

theorem Tracks.recorded_iff {call : VmCall} (hvalid : ValidCall b s call) :
  Recorded b s call ↔ ReleaseOk b s call
  := by
  cases call with
  | alloc => exact Iff.rfl
  | release p =>
    obtain ⟨e₀, he₀, rfl⟩ := hvalid
    cases herror : isErrno b e₀.base with
    | true =>
      have hlive : e₀ ∈ s.live :=
        ((h.granted e₀ he₀).resolve_left fun hgranted => by simp [hgranted.isErrno] at herror).2
      refine iff_of_false (fun hrecorded => by simp [hrecorded.1] at herror) fun hok => ?_
      have hsuccess := (hok.1 e₀ hlive rfl).1
      rw [h.virtualFree_errno he₀ herror] at hsuccess
      cases hsuccess
    | false =>
    cases hfind : s.recorded.find? fun e => e.base = e₀.base with
    | none =>
      simp [Recorded, ReleaseOk, herror, hfind, h.virtualFree_unrecorded he₀ hfind]
    | some e' =>
      simp only [Recorded, ReleaseOk, herror, hfind, h.virtualFree_recorded herror hfind, true_and,
        Bool.true_eq_false, imp_false]
      have hgranted {e : VmAlloc} (he : e ∈ s.live) (hbase : e.base = e₀.base) : e.Granted b := by
        apply h.granted_of_isErrno (h.live e he).1
        rw [hbase, herror]
      constructor
      · rintro ⟨e, he, hbase, hsame⟩
        constructor
        · intro e₁ he₁ hbase₁
          obtain rfl := h.eq_of_base he he₁ (hgranted he hbase) (hbase₁.trans hbase.symm)
          have hmapped : ∀ x, IsMapped (Region.unmap s.used e'.pages) x ↔
              IsMapped s.used x ∧ x ∉ e₁.pages := by
            intro x
            rw [IsMapped, Region.exists_mem_unmap]
            apply and_congr_right
            intro hx
            rw [hsame x hx]
          use hmapped
          intro e₂ he₂ hne x hx hused
          rw [hmapped]
          exact ⟨hused, (h.apart e₁ he₁ (hgranted he₁ hbase₁) e₂ he₂ hne).notMem hx⟩
        · intro hdead
          apply hdead e he hbase
      · rintro ⟨hlive, hdead⟩
        push Not at hdead
        obtain ⟨e, he, hbase⟩ := hdead
        use e, he, hbase
        intro x hx
        have hiff := (hlive e he hbase).1 x
        rw [IsMapped, Region.exists_mem_unmap] at hiff
        exact not_iff_not.mp ((and_congr_right_iff.mp hiff) hx)

theorem Tracks.table_alloc (e : VmAlloc) (used : List Region) :
  (vmAllocAdd { s.toVmState with used } e.base e.size).table =
    (s.history ++ [e]).take maxVmAllocs
  := by
  have hcount : s.allocCount = min maxVmAllocs s.history.length := by
    have hlength := congrArg List.length h.table
    simpa [VmState.table, VmRun.recorded] using hlength
  rw [table_vmAllocAdd]
  split_ifs with hfull
  · rw [take_append_of_le_length (by simp only at hfull; omega)]
    exact h.table
  · have hlt : s.history.length < maxVmAllocs := by
      simp only at hfull
      omega
    rw [take_of_length_le (by simp; omega)]
    have htable : s.table = s.history := by
      rw [h.table, VmRun.recorded, take_of_length_le (by omega)]
    exact congrArg (· ++ [e]) htable

theorem Tracks.add {used : List Region} (e : VmAlloc)
    (hnew : e.Granted b ∨ isErrno b e.base = true)
    (hmapped : e.Granted b → ∀ x ∈ e.pages, IsMapped used x)
    (hused : ∀ x, IsMapped s.used x → IsMapped used x)
    (hapart : e.Granted b → ∀ e' ∈ s.live, e'.Granted b → e.pages.Apart e'.pages) :
  Tracks b ⟨vmAllocAdd { s.toVmState with used } e.base e.size, s.history ++ [e], e :: s.live⟩
  := by
  have hother (e' : VmAlloc) (he' : e' ∈ s.live) (hgranted : e.Granted b ∨ e'.Granted b) :
      e.pages.Apart e'.pages := by
    rcases h.granted e' (h.live e' he').1 with hgranted' | ⟨herror, -⟩
    · rcases hnew with hgranted | herror
      · apply hapart hgranted e' he' hgranted'
      · apply hgranted'.apart_of_isErrno herror
    · apply Region.Apart.symm
      have hgranted := hgranted.resolve_right fun hgranted => by simp [hgranted.isErrno] at herror
      apply hgranted.apart_of_isErrno herror
  constructor
  · apply h.table_alloc e
  · rw [objects_vmAllocAdd]
    exact h.views
  · intro e' he'
    rcases mem_append.mp he' with he' | he'
    · apply (h.granted e' he').imp_right
      rintro ⟨herror, hlive⟩
      exact ⟨herror, mem_cons_of_mem _ hlive⟩
    · rw [mem_singleton.mp he']
      apply hnew.imp_right
      intro herror
      exact ⟨herror, mem_cons_self⟩
  · intro e' he'
    simp only [used_vmAllocAdd, mem_append, mem_singleton]
    rcases mem_cons.mp he' with rfl | he'
    · exact ⟨Or.inr rfl, hmapped⟩
    · obtain ⟨hold, hlive⟩ := h.live e' he'
      exact ⟨Or.inl hold, fun hgranted x hx => hused x (hlive hgranted x hx)⟩
  · intro e₁ he₁ hgranted e₂ he₂ hdiff
    rcases mem_cons.mp he₁ with rfl | hlive₁
    · rcases mem_cons.mp he₂ with rfl | hlive₂
      · cases hdiff rfl
      · apply (hother e₂ hlive₂ (Or.inl hgranted)).symm
    · rcases mem_cons.mp he₂ with rfl | hlive₂
      · apply hother e₁ hlive₁ (Or.inr hgranted)
      · apply h.apart e₁ hlive₁ hgranted e₂ hlive₂ hdiff

theorem Tracks.alloc {mmap : Mmap → Except Errno Ptr} {lpAddress dwSize flProtect : ℕ}
    (hgrants : Grants b mmap s.used) :
  Tracks b (vmStep b s (.alloc mmap lpAddress dwSize flProtect))
  := by
  rcases hr : virtualAlloc b mmap lpAddress dwSize flProtect s.toVmState with ⟨p, s'⟩
  simp only [vmStep, hr]
  rcases virtualAlloc_spec hgrants hr with ⟨rfl, rfl⟩ | ⟨hpos, husable, hfree, rfl⟩ | ⟨herror, rfl⟩
  · rw [if_pos rfl]
    exact h
  · have hne : p ≠ 0 := husable.start_ne_zero
    rw [if_neg hne]
    have hgranted : VmAlloc.Granted b ⟨p, b.wrap dwSize⟩ := ⟨hpos, husable, Nat.mod_mod _ _⟩
    apply h.add ⟨p, b.wrap dwSize⟩ (Or.inl hgranted)
    · intro _ x hx
      exact ⟨_, mem_cons_self, hx⟩
    · rintro x ⟨u, hu, hxu⟩
      exact ⟨u, mem_cons_of_mem _ hu, hxu⟩
    · intro _ e he hgranted'
      apply Region.apart_of_forall_notMem hgranted.pages_pos hgranted'.pages_pos
      intro x hx hx'
      obtain ⟨u, hu, hxu⟩ := (h.live e he).2 hgranted' x hx'
      apply (hfree u hu).notMem hx hxu
  · have hnot : ¬ VmAlloc.Granted b ⟨p, b.wrap dwSize⟩ := fun hgranted => by
      simp [hgranted.isErrno] at herror
    rw [if_neg (Nat.ne_zero_of_lt (of_decide_eq_true herror).2.1)]
    exact h.add ⟨p, b.wrap dwSize⟩ (Or.inr herror) (fun hgranted => absurd hgranted hnot) (fun _ => id)
      fun hgranted => absurd hgranted hnot

theorem Tracks.release (he : e ∈ s.live) (hgranted : e.Granted b) {used : List Region}
    (hused : ∀ x, IsMapped used x ↔ IsMapped s.used x ∧ x ∉ e.pages) :
  Tracks b { s with used := used, live := s.live.filter fun e' => e'.base ≠ e.base }
  := by
  have hother : ∀ e' ∈ s.live.filter (fun e' => e'.base ≠ e.base), e' ∈ s.live ∧ e' ≠ e := by
    intro e' he'
    rw [mem_filter, decide_eq_true_eq] at he'
    exact ⟨he'.1, fun heq => he'.2 (by rw [heq])⟩
  constructor
  · exact h.table
  · exact h.views
  · intro e' he'
    apply (h.granted e' he').imp_right
    rintro ⟨herror, hlive⟩
    refine ⟨herror, mem_filter.mpr ⟨hlive, decide_eq_true fun hbase => ?_⟩⟩
    simp [hbase, hgranted.isErrno] at herror
  · intro e' he'
    obtain ⟨hlive, hne⟩ := hother e' he'
    obtain ⟨hold, hmapped⟩ := h.live e' hlive
    use hold
    intro hgranted' x hx
    rw [hused]
    exact ⟨hmapped hgranted' x hx, (h.apart e he hgranted e' hlive hne).notMem hx⟩
  · intro e₁ he₁ hgranted₁ e₂ he₂
    apply h.apart e₁ (hother e₁ he₁).1 hgranted₁ e₂ (hother e₂ he₂).1

theorem Tracks.step {call : VmCall} (hvalid : ValidCall b s call)
    (hok : ReleaseOk b s call) :
  Tracks b (vmStep b s call)
  := by
  cases call with
  | alloc => apply h.alloc hvalid
  | release p =>
    cases hfind : s.recorded.find? fun e => e.base = p with
    | none =>
      obtain ⟨e₀, he₀, rfl⟩ := hvalid
      simp only [vmStep, h.virtualFree_unrecorded he₀ hfind]
      exact h
    | some e' =>
      have hrecorded := (h.recorded_iff hvalid).mpr hok
      simp only [Recorded, hfind] at hrecorded
      obtain ⟨herror, e, he, hbase, -⟩ := hrecorded
      have hused := (hok.1 e he hbase).2.1
      simp only [h.virtualFree_recorded herror hfind] at hused
      simp only [vmStep, h.virtualFree_recorded herror hfind, if_true]
      subst hbase
      apply h.release he (h.granted_of_isErrno (h.live e he).1 herror) hused

end

def VmRun.start (allocs : ℕ → VmAlloc) (objects : Objects) (used : List Region) : VmRun :=
  ⟨⟨allocs, 0, objects, used⟩, [], []⟩

theorem tracks_start (b : Build) {objects : Objects} (hviews : objects.viewCount = 0)
    (allocs : ℕ → VmAlloc) (used : List Region) :
  Tracks b (.start allocs objects used)
  := by
  constructor
  · rfl
  · exact hviews
  · intro e he
    cases he
  · intro e he
    cases he
  · intro e he
    cases he

end

/-- In a process without views, the releases of live allocations succeed and unmap exactly their
pages, and those of other addresses fail, exactly along the runs in which each release is of no error
number and finds the pages of its allocation among the first allocations of the process. -/
theorem releases_ok_iff (b : Build) (allocs : ℕ → VmAlloc) (used : List Region)
    {objects : Objects} (hviews : objects.viewCount = 0) {calls : List VmCall}
    (hvalid : Run.Along (vmStep b) (ValidCall b) (.start allocs objects used) calls) :
  Run.Along (vmStep b) (ReleaseOk b) (.start allocs objects used) calls ↔
    Run.Along (vmStep b) (Recorded b) (.start allocs objects used) calls
  := by
  apply hvalid.iff_of_invariant (Tracks b) _ _ (tracks_start b hviews allocs used)
  · intro s call h hcall hok
    apply h.step hcall hok
  · intro s call h hcall
    apply (h.recorded_iff hcall).symm

/-! ### Runs of two allocations -/

def mapAt (a : Ptr) (size : ℕ) : Mmap → Except Errno Ptr :=
  fun call => if call.length = size then .ok a else .error eperm

theorem grants_mapAt {b : Build} {a : Ptr} {size : ℕ} {used : List Region}
    (h : 0 < size ∧ (pageSize ∣ a ∧ a ≠ 0 ∧ (pages a size).stop < b.ptrLimit) ∧
      ∀ u ∈ used, (pages a size).Apart u) :
  Grants b (mapAt a size) used
  := by
  obtain ⟨hpos, ⟨haligned, hne, hlt⟩, hapart⟩ := h
  intro call a' hcall
  rw [mapAt] at hcall
  split_ifs at hcall with hlength
  cases hcall
  rw [hlength]
  exact ⟨hpos, ⟨haligned, hne, hlt⟩, hapart⟩

def vmStart : VmRun :=
  .start (fun _ => ⟨0, 0⟩) ⟨HandleManager.wineHandleManagerRuntimeInit, fun _ => ⟨0, 0, 0⟩,
    fun _ => ⟨0, 0, 0⟩, 0, fun _ => ⟨0, 0⟩, 0, 0⟩ []

/-- Two pages are allocated and released, and their addresses are given to two allocations of one
page each. -/
def reusingCalls : List VmCall :=
  [.alloc (mapAt 0x10000 0x2000) 0 0x2000 4, .release 0x10000,
    .alloc (mapAt 0x10000 0x1000) 0 0x1000 4, .alloc (mapAt 0x11000 0x1000) 0 0x1000 4]

/-- The release of the first page also unmaps the second one, and a second release succeeds. -/
theorem release_unmaps_another :
  let s := reusingCalls.foldl (vmStep .x64) vmStart
  let r := virtualFree .x64 0x10000 0 memRelease s.toVmState
  Run.Along (vmStep .x64) (ValidCall .x64) vmStart (reusingCalls ++ [.release 0x10000]) ∧
    s.live = [⟨0x11000, 0x1000⟩, ⟨0x10000, 0x1000⟩] ∧ r.1 = true ∧
    IsMapped s.used 0x11000 ∧ ¬ IsMapped r.2.used 0x11000 ∧
    (virtualFree .x64 0x10000 0 memRelease r.2).1 = true ∧
    ¬ Run.Along (vmStep .x64) (ReleaseOk .x64) vmStart (reusingCalls ++ [.release 0x10000])
  := by
  intro s r
  have hlive : s.live = [⟨0x11000, 0x1000⟩, ⟨0x10000, 0x1000⟩] := by decide +kernel
  have hunmapped : ¬ IsMapped r.2.used 0x11000 := by decide +kernel
  refine ⟨?_, hlive, by decide +kernel, by decide +kernel, hunmapped, by decide +kernel, ?_⟩
  · refine ⟨grants_mapAt (by decide), ⟨⟨0x10000, 0x2000⟩, ?_, rfl⟩, grants_mapAt ?_, grants_mapAt ?_,
      ⟨⟨0x10000, 0x1000⟩, ?_, rfl⟩, trivial⟩
    · decide +kernel
    · decide +kernel
    · decide +kernel
    · decide +kernel
  · intro hok
    rw [Run.along_append] at hok
    obtain ⟨hlast, -⟩ := hok.2.1
    have hfirst : (⟨0x10000, 0x1000⟩ : VmAlloc) ∈ s.live := by
      rw [hlive]
      decide
    have hsecond : (⟨0x11000, 0x1000⟩ : VmAlloc) ∈ s.live := by
      rw [hlive]
      decide
    have hmapped := (hlast _ hfirst rfl).2.2 _ hsecond (by decide) 0x11000 (by decide) (by decide +kernel)
    have hr : virtualFree .x64 0x10000 0 memRelease
        (reusingCalls.foldl (vmStep .x64) vmStart).toVmState = r := rfl
    rw [hr] at hmapped
    exact hunmapped hmapped

/-- Two allocations are released in the order in which they were made. -/
theorem releases_ok_in_order :
  Run.Along (vmStep .x64) (ReleaseOk .x64) vmStart
    [.alloc (mapAt 0x10000 0x2000) 0 0x2000 4, .alloc (mapAt 0x20000 0x1000) 0 0x1000 4,
      .release 0x10000, .release 0x20000]
  := by
  apply (releases_ok_iff .x64 _ _ rfl _).mpr
  · refine ⟨trivial, trivial, ?_, ?_, trivial⟩
    · exact ⟨rfl, ⟨0x10000, 0x2000⟩, by decide +kernel, rfl, fun _ _ => Iff.rfl⟩
    · exact ⟨rfl, ⟨0x20000, 0x1000⟩, by decide +kernel, rfl, fun _ _ => Iff.rfl⟩
  · refine ⟨grants_mapAt (by decide), grants_mapAt ?_, ⟨⟨0x10000, 0x2000⟩, ?_, rfl⟩,
      ⟨⟨0x20000, 0x1000⟩, ?_, rfl⟩, trivial⟩
    · decide +kernel
    · decide +kernel
    · decide +kernel

end Kernel32
