import MyWine.Ntdll.ObjectTables
import MyWine.Ntdll.VirtualMemory

/-!
# Objects that cannot be created

A handler that cannot create its object should change nothing.  The handlers for events, mutexes and
semaphores look at the handle before they enter the object.  `handler_NtCreateSection` maps the memory
of the section first and never unmaps it, and it does not look at the handle at all; on `i386` it also
takes most errors of `mmap` for addresses.  So it changes nothing exactly when no mapping is made and
the last error is recognised (`creation_unchanged_iff`).
-/

namespace Ntdll

open HandleManager Loader Syscall

/-- What is mapped after an answer of `mmap`. -/
def usedAfterMmap (answer : Except Errno (Ptr × Bytes)) (size : ℕ) (used : List Region) : List Region :=
  match answer with
  | .ok (a, _) => pages a size :: used
  | .error _ => used

/-- What is mapped after `handler_NtCreateSection`, which maps the memory of the section, and in
between also the file. -/
def createSectionUsed (b : Build) (os : FileOs) (maxSize : Param) (pageProtection fileHandle : ℕ)
    (s : Store) (k : KernelState) (used : List Region) : List Region :=
  if maxSections ≤ k.sectionCount then used
  else if fileHandle = 0 then
    let size := b.wrap (s.load maxSize)
    usedAfterMmap (os.mmap ⟨0, size, mapProtect pageProtection, none, 0⟩ s.mem) size used
  else
    let fd := handleToFd b k fileHandle
    if fd < 0 then used
    else
      match os.fstat fd with
      | none => used
      | some size =>
        let size := b.wrap size
        let answer := os.mmap ⟨0, size, mapProtect pageProtection, none, 0⟩ s.mem
        match sysvMmap b (·, s.mem) answer with
        | none => used
        | some (_, mem) =>
          let used := usedAfterMmap answer size used
          let answer := os.mmap ⟨0, size, protRead, some fd, 0⟩ mem
          match sysvMmap b (·, mem) answer with
          | none => used
          | some (temp, _) =>
            let used := usedAfterMmap answer size used
            (munmap b temp size used).getD used

/-- A call that creates an object. -/
inductive Creation where
  | event (eventType initialState : ℕ)
  | mutex
  | semaphore (initialCount maximumCount : ℕ)
  | fromFile (os : FileOs) (maxSize : Param) (pageProtection fileHandle : ℕ)

namespace Creation

variable (b : Build) (ko : KoLayout) (handle : Param) (s : Store) (k : KernelState)
  (used : List Region)

def run : Creation → Option (ℕ × Store × KernelState)
  | .event eventType initialState => some (handlerNtCreateEvent ko handle eventType initialState s k)
  | .mutex => some (handlerNtCreateMutex ko handle s k)
  | .semaphore initialCount maximumCount =>
    some (handlerNtCreateSemaphore ko handle initialCount maximumCount s k)
  | .fromFile os maxSize pageProtection fileHandle =>
    handlerNtCreateSection b os ko handle maxSize pageProtection fileHandle s k

def usedAfter : Creation → List Region
  | .fromFile os maxSize pageProtection fileHandle =>
    createSectionUsed b os maxSize pageProtection fileHandle s k used
  | _ => used

/-- The answers to the mappings that the call makes, that of the section and that of the file. -/
def mappings : Creation → List (Except Errno (Ptr × Bytes))
  | .fromFile os maxSize pageProtection fileHandle =>
    if maxSections ≤ k.sectionCount then []
    else if fileHandle = 0 then
      [os.mmap ⟨0, b.wrap (s.load maxSize), mapProtect pageProtection, none, 0⟩ s.mem]
    else
      let fd := handleToFd b k fileHandle
      if fd < 0 then []
      else
        match os.fstat fd with
        | none => []
        | some size =>
          let answer := os.mmap ⟨0, b.wrap size, mapProtect pageProtection, none, 0⟩ s.mem
          match sysvMmap b (·, s.mem) answer with
          | none => [answer]
          | some (_, mem) => [answer, os.mmap ⟨0, b.wrap size, protRead, some fd, 0⟩ mem]
  | _ => []

def Impossible (c : Creation) : Prop :=
  (∀ i : Fin handleTableSize, 3 ≤ i.val → (k.handles i).refCount ≠ 0) ∨
    ∃ e, .error e ∈ c.mappings b s k

/-- The call fails, and the variable for the handle, the objects and the mappings are as before. -/
def Unchanged (c : Creation) : Prop :=
  ∃ r, c.run b ko handle s k = some r ∧ r.1 ≠ statusSuccess ∧
    r.2.1.load handle = s.load handle ∧ r.2.2 = k ∧ c.usedAfter b s k used = used

/-- No mapping is made, and the last error, if there is one, is recognised as an error, which on `i386`
only `EPERM` is. -/
def Refused (c : Creation) : Prop :=
  (∀ answer ∈ c.mappings b s k, ∃ e, answer = .error e) ∧
    ∀ e, (c.mappings b s k).getLast? = some (.error e) → b = .i386 → e = eperm

variable {b ko handle s k used}

theorem unchanged_of_eq {c : Creation} (status : ℕ) (hne : status ≠ statusSuccess)
    (hrun : c.run b ko handle s k = some (status, s, k)) (hused : c.usedAfter b s k used = used) :
  c.Unchanged b ko handle s k used
  := ⟨_, hrun, hne, rfl, rfl, hused⟩

end Creation

section

variable {α : Type} {b : Build} {result : Ptr → α} {answer file : Except Errno α}

theorem sysvMmap_eq_none_iff :
  sysvMmap b result answer = none ↔
    (∃ e, answer = .error e) ∧ ∀ e, answer = .error e → b = .i386 → e = eperm
  := by
  cases answer with
  | ok r => simp [sysvMmap]
  | error e => simp [sysvMmap]

theorem refused_nil :
  (∀ a ∈ ([] : List (Except Errno α)), ∃ e, a = .error e) ∧
    ∀ e, ([] : List (Except Errno α)).getLast? = some (.error e) → b = .i386 → e = eperm
  := by
  simp

theorem refused_singleton_iff (result : Ptr → α) :
  ((∀ a ∈ [answer], ∃ e, a = .error e) ∧
    ∀ e, [answer].getLast? = some (.error e) → b = .i386 → e = eperm) ↔
    sysvMmap b result answer = none
  := by
  rw [sysvMmap_eq_none_iff]
  simp

theorem refused_pair_iff (result : Ptr → α) :
  ((∀ a ∈ [answer, file], ∃ e, a = .error e) ∧
    ∀ e, [answer, file].getLast? = some (.error e) → b = .i386 → e = eperm) ↔
    (∃ e, answer = .error e) ∧ sysvMmap b result file = none
  := by
  rw [sysvMmap_eq_none_iff]
  simp [and_assoc]

end

theorem Creation.fromFile_unchanged_iff {b : Build} {ko : KoLayout} {handle : Param} {s : Store}
    {k : KernelState} {used : List Region} {os : FileOs} {maxSize : Param}
    {pageProtection fileHandle : ℕ} :
  (fromFile os maxSize pageProtection fileHandle).Unchanged b ko handle s k used ↔
    (fromFile os maxSize pageProtection fileHandle).Refused b s k
  := by
  have hkept (status : ℕ) (hne : status ≠ statusSuccess) :
      ∃ r : ℕ × Store × KernelState, some (status, s, k) = some r ∧ r.1 ≠ statusSuccess ∧
        r.2.1.load handle = s.load handle ∧ r.2.2 = k ∧ used = used :=
    ⟨_, rfl, hne, rfl, rfl, rfl⟩
  simp only [Unchanged, Refused, run, usedAfter, mappings, handlerNtCreateSection, createSectionUsed]
  split_ifs with hmax hanonymous hfd
  · apply iff_of_true (hkept statusMemoryNotAvailable (by decide)) refused_nil
  · generalize os.mmap ⟨0, b.wrap (s.load maxSize), mapProtect pageProtection, none, 0⟩ s.mem = answer
    rw [refused_singleton_iff (·, s.mem)]
    cases hanswer : sysvMmap b (·, s.mem) answer with
    | none =>
      obtain ⟨⟨e, rfl⟩, -⟩ := sysvMmap_eq_none_iff.mp hanswer
      apply iff_of_true (hkept statusMemoryNotAvailable (by decide)) rfl
    | some p =>
      apply iff_of_false _ (Option.some_ne_none p)
      rintro ⟨r, hr, hne, -⟩
      cases hr
      exact hne rfl
  · apply iff_of_true (hkept statusInvalidHandle (by decide)) refused_nil
  · cases os.fstat (handleToFd b k fileHandle) with
    | none => apply iff_of_true (hkept statusUnsuccessful (by decide)) refused_nil
    | some size =>
      simp only
      generalize os.mmap ⟨0, b.wrap size, mapProtect pageProtection, none, 0⟩ s.mem = answer
      cases hanswer : sysvMmap b (·, s.mem) answer with
      | none =>
        rw [refused_singleton_iff (·, s.mem), hanswer]
        apply iff_of_true (hkept statusMemoryNotAvailable (by decide)) rfl
      | some p =>
        obtain ⟨base, mem⟩ := p
        simp only
        generalize os.mmap ⟨0, b.wrap size, protRead, some (handleToFd b k fileHandle), 0⟩ mem = file
        rw [refused_pair_iff (·, mem)]
        cases hfile : sysvMmap b (·, mem) file with
        | none =>
          cases answer with
          | ok p =>
            -- The mapping of the section stays.
            apply iff_of_false _ (by simp)
            rintro ⟨r, -, -, -, -, hused⟩
            exact List.cons_ne_self _ _ hused
          | error e =>
            rw [sysvMmap] at hanswer
            split_ifs at hanswer
            cases hanswer
            apply iff_of_true (hkept statusUnsuccessful (by decide)) ⟨⟨e, rfl⟩, rfl⟩
        | some p =>
          refine iff_of_false ?_ fun hrefused => Option.some_ne_none p hrefused.2
          rintro ⟨r, hr, hne, -⟩
          simp only at hr
          split_ifs at hr
          cases hr
          exact hne rfl

/-- A call that cannot create its object changes nothing if and only if no mapping is made and the last
error is seen. -/
theorem creation_unchanged_iff (b : Build) (ko : KoLayout) (handle : Param) (s : Store)
    (k : KernelState) (used : List Region) (c : Creation) (h : c.Impossible b s k) :
  c.Unchanged b ko handle s k used ↔ c.Refused b s k
  := by
  have hfull (hempty : c.mappings b s k = []) (type : UInt8) (object : Ptr) :
      wineHandleAlloc k.handles type object = (0, k.handles) := by
    rcases wineHandleAlloc_cases k.handles type object with ⟨i, h3, hfree, -⟩ | ⟨-, halloc⟩
    · exact absurd hfree ((h.resolve_right (by simp [hempty])) i h3)
    · apply halloc
  cases c with
  | event eventType initialState =>
    apply iff_of_true (Creation.unchanged_of_eq statusMemoryNotAvailable (by decide) _ rfl) refused_nil
    simp [Creation.run, handlerNtCreateEvent, hfull rfl]
  | mutex =>
    apply iff_of_true (Creation.unchanged_of_eq statusMemoryNotAvailable (by decide) _ rfl) refused_nil
    simp [Creation.run, handlerNtCreateMutex, hfull rfl]
  | semaphore initialCount maximumCount =>
    refine iff_of_true ?_ refused_nil
    by_cases hmaximum : maximumCount = 0
    · apply Creation.unchanged_of_eq statusInvalidParameter (by decide) _ rfl
      simp [Creation.run, handlerNtCreateSemaphore, hmaximum]
    · apply Creation.unchanged_of_eq statusMemoryNotAvailable (by decide) _ rfl
      simp [Creation.run, handlerNtCreateSemaphore, hmaximum, hfull rfl]
  | fromFile os maxSize pageProtection fileHandle => apply Creation.fromFile_unchanged_iff

def fullState : KernelState := { KernelState.init with handles := fun i => ⟨i.val, handleTypeFile, 1, 1⟩ }

theorem mutex_unchanged_full :
  Creation.mutex.Unchanged .x64 ⟨0, 0, 0, 0⟩ (.val 0x1000) ⟨fun _ => 1, fun _ => 0⟩ fullState []
  :=
  (creation_unchanged_iff .x64 ⟨0, 0, 0, 0⟩ (.val 0x1000) ⟨fun _ => 1, fun _ => 0⟩ fullState [] .mutex
    (Or.inl fun _ _ => (by decide : (1 : UInt8) ≠ 0))).mpr refused_nil

def anonymousOs : FileOs where
  nanosleep _ _ := none
  others _ events := events
  mmap call mem := if call.fd = none then .ok (0x10000, mem) else .error ⟨12, by decide⟩
  fstat _ := some 16

/-- The mapping of a section is left when the file cannot be mapped; and without a free handle the
call succeeds and counts the section. -/
theorem section_left :
  let s : Store := ⟨fun _ => 1, fun _ => 0⟩
  let run (b : Build) (fileHandle : ℕ) (k : KernelState) :=
    (handlerNtCreateSection b anonymousOs ⟨0, 0, 0, 0⟩ (.val 0x1000) (.val 0x2000) 4 fileHandle s k).map
      fun r => (r.1, r.2.2.sectionCount)
  (run .x64 stdinHandle .init = some (statusUnsuccessful, 0) ∧
      createSectionUsed .x64 anonymousOs (.val 0x2000) 4 stdinHandle s .init [] = [⟨0x10000, 4096⟩]) ∧
    run .x64 0 fullState = some (statusSuccess, 1) ∧ run .i386 stdinHandle .init = none
  := by
  decide +kernel

end Ntdll
