import MyWine.Ntdll.State

/-!
# Views of sections

The handler of `NtMapViewOfSection` of `msvcrt/ntdll_memory.c`.
-/

namespace Ntdll

open Syscall

def protRead : ℕ := 1
def protWrite : ℕ := 2
def protExec : ℕ := 4

def mapProtect (protect : ℕ) : ℕ :=
  match toInt protect with
  | 0x02 => protRead
  | 0x04 => protRead ||| protWrite
  | 0x10 => protExec
  | 0x20 => protRead ||| protExec
  | 0x40 => protRead ||| protWrite ||| protExec
  | _ => protRead ||| protWrite

/-- The number of bytes of the view: `commitSize`, or the size of the section if it is zero or
larger. -/
def viewSize (b : Build) (sec : WineSection) (commitSize : ℕ) : ℕ :=
  let viewSz := if commitSize ≠ 0 then b.wrap commitSize else sec.size
  if sec.size < viewSz then sec.size else viewSz

/-- The mapping that `handler_NtMapViewOfSection` makes for the values of its parameters, a `NULL`
pointer having the value zero: its address, the number of its bytes and the memory with it, or the
status if there is none.  There is no result when the copy from the section faults, because the view
cannot be written or is an error number. -/
def mapView (b : Build) (os : Os) (w : Objects) (sectionHandle base commitSize offset protect : ℕ)
    (mem : Bytes) : Option (Except ℕ (Ptr × ℕ × Bytes)) :=
  let sec := HandleManager.wineHandleGet w.handles (sectionHandle % 2 ^ 32)
  if sec = 0 then some (.error statusInvalidHandle)
  else
    let sec := w.sectionAt sec
    let viewSz := viewSize b sec commitSize
    let prot := mapProtect protect
    let addr := if base ≠ 0 then b.wrap base else 0
    if 0 ≤ sec.fd then
      match sysvMmap b (·, mem) (os.mmap ⟨addr, viewSz, prot, some sec.fd, offset⟩ mem) with
      | none => some (.error statusMemoryNotAvailable)
      | some (result, mem) => some (.ok (result, viewSz, mem))
    else
      match sysvMmap b (·, mem) (os.mmap ⟨addr, viewSz, prot, none, 0⟩ mem) with
      | none => some (.error statusMemoryNotAvailable)
      | some (result, mem) =>
        if sec.base = 0 then some (.ok (result, viewSz, mem))
        else if viewSz = 0 ∨ prot &&& protWrite ≠ 0 ∧ isErrno b result = false then
          some (.ok (result, viewSz, mem.copy result mem (b.wrap (sec.base + offset)) viewSz))
        else none

def Objects.addView (w : Objects) (v : WineView) : Objects :=
  if w.viewCount < maxSections then
    { w with views := Function.update w.views w.viewCount v, viewCount := w.viewCount + 1 }
  else w

def handlerNtMapViewOfSection (b : Build) (os : Os) (sectionHandle : ℕ) (baseAddress : Param)
    (commitSize : ℕ) (sectionOffset viewSizePtr : Param) (protect : ℕ) (s : Store) (w : Objects) :
    Option (ℕ × Store × Objects) :=
  (mapView b os w sectionHandle (s.value baseAddress) commitSize (s.value sectionOffset)
    protect s.mem).map fun
  | .error status => (status, s, w)
  | .ok (result, viewSz, mem) =>
    let s := { s with mem := mem }.storeUnlessNull result baseAddress
    (statusSuccess, s.storeUnlessNull viewSz viewSizePtr, w.addView ⟨result, viewSz⟩)

/-- The kernel puts mappings where no byte is in use, and leaves the bytes in use alone. -/
def Os.Fresh (os : Os) (inUse : ℕ → Prop) : Prop :=
  ∀ call mem result mem', os.mmap call mem = .ok (result, mem') →
    ∀ x, inUse x → mem' x = mem x ∧ ¬ (result ≤ x ∧ x < result + call.length)

theorem isErrno_sub {b : Build} (hb : b = .i386) (e : Errno) :
  isErrno b (0x100000000 - e) = true
  := by
  obtain ⟨hpos, hlt⟩ := e.property
  apply decide_eq_true
  use hb
  omega

theorem sysvMmap_eq_some {α : Type} {b : Build} {result : Ptr → α} {answer : Except Errno α} {r : α}
    (h : sysvMmap b result answer = some r) :
  answer = .ok r ∨ ∃ a, isErrno b a = true ∧ r = result a
  := by
  cases answer with
  | ok r' =>
    cases h
    exact Or.inl rfl
  | error e =>
    rw [sysvMmap] at h
    split_ifs at h with herror
    cases h
    exact Or.inr ⟨_, isErrno_sub herror.1 e, rfl⟩

theorem mapView_apply_of_inUse {b : Build} {os : Os} {inUse : ℕ → Prop} {w : Objects}
    {sectionHandle base commitSize offset protect result viewSz : ℕ} {mem mem' : Bytes}
    (hos : os.Fresh inUse)
    (h : mapView b os w sectionHandle base commitSize offset protect mem =
      some (.ok (result, viewSz, mem'))) {x : ℕ} (hx : inUse x) :
  mem' x = mem x
  := by
  have hkept {call : Mmap} {a : Ptr} {m : Bytes}
      (hmap : sysvMmap b (·, mem) (os.mmap call mem) = some (a, m)) :
      m x = mem x ∧ (isErrno b a = false → ¬ (a ≤ x ∧ x < a + call.length)) := by
    rcases sysvMmap_eq_some hmap with hok | ⟨a', herror, heq⟩
    · obtain ⟨hmem, hout⟩ := hos _ _ _ _ hok x hx
      exact ⟨hmem, fun _ => hout⟩
    · cases heq
      exact ⟨rfl, fun hnot => absurd herror (by simp [hnot])⟩
  revert h
  simp only [mapView]
  split
  · nofun
  · split
    · split
      · nofun
      · next hmap =>
        rintro ⟨⟩
        apply (hkept hmap).1
    · split
      · nofun
      · next hmap =>
        obtain ⟨hmem, hout⟩ := hkept hmap
        split_ifs with hbase hcopy
        · rintro ⟨⟩
          apply hmem
        · rintro ⟨⟩
          rw [Bytes.copy, if_neg, hmem]
          rintro hin
          rcases hcopy with hzero | ⟨-, herror⟩
          · omega
          · apply hout herror hin
        · nofun

end Ntdll
