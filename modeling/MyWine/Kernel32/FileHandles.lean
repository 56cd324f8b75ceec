import Mathlib.Data.Finset.Card
import MyWine.Kernel32.HandleTypes

/-!
# The handles of files

`CreateFileA` and `CloseHandle` of `msvcrt/kernel32_file.c`.  On the `i386` build `CreateFileA` does
not use the handle table: it enters the descriptor at the end of an array of `64` of its own, and
the handle is `3` and the index.  An entry is never used again.  `CloseHandle` looks at the array
before it looks at the handle table, which also gives out the numbers from `3` on.

So a file and another object may have the same handle, and `CreateFileA` may fail while few files
are open.  `file_handles_iff` says for which calls this does not happen: a file gets a number that
no live object has, another object finds a free slot below the numbers of all open files, and the
array is full only of open files.
-/

namespace Kernel32

open HandleManager Ntdll Function

/-! ### The functions -/

def genericWrite : ℕ := 0x40000000

def invalidHandleValue (b : Build) : ℕ := b.ptrLimit - 1

def openFlags (dwDesiredAccess dwCreationDisposition : ℕ) : ℕ :=
  let oflags := if dwDesiredAccess &&& genericWrite ≠ 0 then 2 else 0
  match dwCreationDisposition with
  | 1 => oflags ||| (0o200 ||| 0o100)
  | 2 => oflags ||| (0o1000 ||| 0o100)
  | 4 => oflags ||| 0o100
  | 5 => oflags ||| 0o1000
  | _ => oflags

/-- What `wine_resolve_path` and `openat` answer. -/
structure FileSystem where
  resolve : CString → Option CString
  openat : CString → ℕ → ℤ

/-- The descriptor that `openat` returns to `CreateFileA`, if it is called and succeeds. -/
def openedFd (fs : FileSystem) (lpFileName : Option CString)
    (dwDesiredAccess dwCreationDisposition : ℕ) : Option ℤ :=
  match lpFileName.bind fs.resolve with
  | none => none
  | some path =>
    let fd := fs.openat path (openFlags dwDesiredAccess dwCreationDisposition)
    if fd < 0 then none else some fd

def maxCreatefileFds : ℕ := 64

def enterFd (b : Build) (fd : ℤ) (k : KernelState) : ℕ × KernelState :=
  match b with
  | .i386 =>
    let idx := k.createfileFdCount
    if maxCreatefileFds ≤ idx then (invalidHandleValue b, { k with closed := fd :: k.closed })
    else
      (3 + idx,
        { k with
          createfileFds := update k.createfileFds idx fd
          createfileFdCount := idx + 1 })
  | .x64 =>
    let (handle, handles) := wineHandleAlloc k.handles handleTypeFile fd.toNat
    if handle = 0 then (invalidHandleValue b, { k with closed := fd :: k.closed })
    else (handle, { k with handles })

def createFileA (b : Build) (fs : FileSystem) (lpFileName : Option CString)
    (dwDesiredAccess dwCreationDisposition : ℕ) (k : KernelState) : ℕ × KernelState :=
  match openedFd fs lpFileName dwDesiredAccess dwCreationDisposition with
  | none => (invalidHandleValue b, k)
  | some fd => enterFd b fd k

def closeFile (idx : ℕ) (k : KernelState) : KernelState :=
  { k with
    createfileFds := update k.createfileFds idx (-1)
    closed := k.createfileFds idx :: k.closed }

def closeHandle (b : Build) (hObject : ℕ) (k : KernelState) : Bool × KernelState :=
  if hObject = stdinHandle ∨ hObject = stdoutHandle ∨ hObject = stderrHandle then (true, k)
  else if hObject ≤ 2 then (true, k)
  else
    let idx := toInt hObject - 3
    if b = .i386 ∧ (0 ≤ idx ∧ idx < k.createfileFdCount) ∧ 0 ≤ k.createfileFds idx.toNat then
      (true, closeFile idx.toNat k)
    else
      let r := handlerNtClose hObject k
      (r.1 = statusSuccess, r.2)

/-! ### Runs -/

/-- A call of the guest on the `i386` build.  The objects of other kinds are created by an
allocation in the handle table, and closed by `NtClose` or by a function for their kind. -/
inductive FileCall where
  | createFile (fs : FileSystem) (lpFileName : Option CString)
      (dwDesiredAccess dwCreationDisposition : ℕ)
  | closeHandle (hObject : UInt32)
  | create (kind : Kind) (object : Ptr)
  | close (kind : Kind) (handle : UInt32)
  | ntClose (handle : UInt32)

def fileStep (k : KernelState) : FileCall → KernelState
  | .createFile fs lpFileName dwDesiredAccess dwCreationDisposition =>
    (createFileA .i386 fs lpFileName dwDesiredAccess dwCreationDisposition k).2
  | .closeHandle hObject => (closeHandle .i386 hObject.toNat k).2
  | .create kind object => { k with handles := (wineHandleAlloc k.handles kind.tag object).2 }
  | .close kind handle =>
    if wineHandleGetType k.handles handle.toNat = kind.tag then
      { k with handles := wineHandleFree k.handles handle.toNat }
    else k
  | .ntClose handle => (handlerNtClose handle.toNat k).2

/-- A file by its index, or an object of another kind by its slot. -/
inductive ObjectId where
  | file (idx : ℕ)
  | slot (i : Fin handleTableSize)
  deriving DecidableEq

def ObjectId.number : ObjectId → ℕ
  | .file idx => 3 + idx
  | .slot i => i.val

section

variable (k k' : KernelState)

def Alive : ObjectId → Prop
  | .file idx => idx < k.createfileFdCount ∧ 0 ≤ k.createfileFds idx
  | .slot i => 3 ≤ i.val ∧ (k.handles i).refCount ≠ 0

def Distinct : Prop :=
  ∀ x y, Alive k x → Alive k y → x.number = y.number → x = y

def openFiles : Finset ℕ :=
  (Finset.range k.createfileFdCount).filter fun idx => 0 ≤ k.createfileFds idx

def Same : ObjectId → Prop
  | .file idx => k'.createfileFds idx = k.createfileFds idx
  | .slot i => k'.handles i = k.handles i

def descriptors : ObjectId → List ℤ
  | .file idx => [k.createfileFds idx]
  | .slot i => objectDescriptors (k.handles i)

def Creates (h : ℕ) : Prop :=
  ∃ x, x.number = h ∧ ¬ Alive k x ∧ ∀ y, Alive k' y ↔ Alive k y ∨ y = x

def Closes (x : ObjectId) : Prop :=
  (∀ y, Alive k' y ↔ Alive k y ∧ y ≠ x) ∧ (∀ y ≠ x, Same k k' y) ∧
    k'.closed = descriptors k x ++ k.closed

/-- What a call should do: the handles stay distinct, a file or an object that is created gets the
handle that is returned, `CreateFileA` lacks a handle only if `64` files are open, and
`CloseHandle` closes the object that has the handle, and says so. -/
def Correct (call : FileCall) : Prop :=
  Distinct (fileStep k call) ∧
    match call with
    | .createFile fs lpFileName access disposition =>
      let h := (createFileA .i386 fs lpFileName access disposition k).1
      if h = invalidHandleValue .i386 then
        openedFd fs lpFileName access disposition ≠ none → 64 ≤ (openFiles k).card
      else Creates k (fileStep k call) h
    | .closeHandle hObject =>
      ∀ x, Alive k x → x.number = hObject.toNat →
        (closeHandle .i386 hObject.toNat k).1 = true ∧ Closes k (fileStep k call) x
    | .create kind object =>
      let h := (wineHandleAlloc k.handles kind.tag object).1
      h ≠ 0 → Creates k (fileStep k call) h
    | .close _ _ | .ntClose _ => True

/-- The numbers that a call needs are free: for a file the number after that of the last file, and
for another object one below those of all open files.  A file is not opened when the array is full
unless all files in it are open. -/
def NumbersFree : FileCall → Prop
  | .createFile fs lpFileName access disposition =>
    openedFd fs lpFileName access disposition ≠ none →
      if k.createfileFdCount < maxCreatefileFds then
        ∀ i : Fin handleTableSize, i.val = 3 + k.createfileFdCount → (k.handles i).refCount = 0
      else ∀ idx < maxCreatefileFds, 0 ≤ k.createfileFds idx
  | .create _ _ =>
    ∀ idx, Alive k (.file idx) →
      ∃ i : Fin handleTableSize, 3 ≤ i.val ∧ i.val < 3 + idx ∧ (k.handles i).refCount = 0
  | .closeHandle _ | .close _ _ | .ntClose _ => True

/-- The live slots have a type and one reference, and the array of the files has `64` entries. -/
structure FilesOk : Prop where
  slot : ∀ i : Fin handleTableSize, 3 ≤ i.val → (k.handles i).refCount ≠ 0 →
    (k.handles i).refCount = 1 ∧ (k.handles i).type ≠ 0
  count : k.createfileFdCount ≤ maxCreatefileFds

end

section

variable {k k' : KernelState}

/-! ### Live objects -/

theorem distinct_iff :
  Distinct k ↔ ∀ idx i, Alive k (.file idx) → Alive k (.slot i) → i.val ≠ 3 + idx
  := by
  constructor
  · intro h idx i hfile hslot hnumber
    cases h (.file idx) (.slot i) hfile hslot hnumber.symm
  · rintro h (idx | i) (idx' | i') hx hy hnumber
    · simp only [ObjectId.number, Nat.add_left_cancel_iff] at hnumber
      rw [hnumber]
    · exact absurd hnumber.symm (h idx i' hx hy)
    · exact absurd hnumber (h idx' i hy hx)
    · rw [Fin.ext hnumber]

theorem Distinct.mono (h : Distinct k) (hsub : ∀ y, Alive k' y → Alive k y) :
  Distinct k'
  := by
  intro x y hx hy hnumber
  apply h x y (hsub x hx) (hsub y hy) hnumber

variable {x : ObjectId}

theorem Closes.distinct (hcloses : Closes k k' x) (h : Distinct k) :
  Distinct k'
  := by
  apply h.mono
  intro y hy
  apply ((hcloses.1 y).mp hy).1

theorem alive_of_files (hfds : k'.createfileFds = k.createfileFds)
    (hcount : k'.createfileFdCount = k.createfileFdCount) (idx : ℕ) :
  Alive k' (.file idx) ↔ Alive k (.file idx)
  := by
  rw [Alive, Alive, hfds, hcount]

theorem FilesOk.number_range (hk : FilesOk k) (hx : Alive k x) :
  3 ≤ x.number ∧ x.number < handleTableSize
  := by
  cases x with
  | file idx =>
    have hlt := hx.1.trans_le hk.count
    simp only [ObjectId.number, handleTableSize, maxCreatefileFds] at hlt ⊢
    omega
  | slot i => exact ⟨hx.1, i.isLt⟩

theorem FilesOk.of_slots (hk : FilesOk k)
    (hslot : ∀ i, k'.handles i = k.handles i ∨ (k'.handles i).refCount = 0 ∨
      ((k'.handles i).refCount = 1 ∧ (k'.handles i).type ≠ 0))
    (hcount : k'.createfileFdCount ≤ maxCreatefileFds) :
  FilesOk k'
  where
  slot i h3 hlive := by
    rcases hslot i with h | h | h
    · rw [h] at hlive ⊢
      apply hk.slot i h3 hlive
    · contradiction
    · exact h
  count := hcount

/-! ### The closing of an object -/

def closeSlot (i : Fin handleTableSize) (k : KernelState) : KernelState :=
  { releaseObject (k.handles i).type (k.handles i).object k with
    handles := update k.handles i .empty }

theorem closes_closeSlot (i : Fin handleTableSize) (k : KernelState) :
  Closes k (closeSlot i k) (.slot i)
  := by
  obtain ⟨hfds, hcount, hclosed⟩ := releaseObject_files (k.handles i) k
  and_intros
  · rintro (idx | j)
    · have hfile : Alive (closeSlot i k) (.file idx) ↔ Alive k (.file idx) :=
        alive_of_files hfds hcount idx
      simp [hfile]
    · rcases eq_or_ne j i with rfl | hne
      · simp [Alive, closeSlot, WineHandle.empty]
      · simp [Alive, closeSlot, hne]
  · rintro (idx | j) hne
    · apply congrFun hfds
    · have hne : j ≠ i := fun h => hne (h ▸ rfl)
      simp [Same, closeSlot, hne]
  · apply hclosed

theorem closes_closeFile (idx : ℕ) (k : KernelState) :
  Closes k (closeFile idx k) (.file idx)
  := by
  and_intros
  · rintro (idx' | j)
    · rcases eq_or_ne idx' idx with rfl | hne
      · simp [Alive, closeFile]
      · simp [Alive, closeFile, hne]
    · simp [Alive, closeFile]
  · rintro (idx' | j) hne
    · have hne : idx' ≠ idx := fun h => hne (h ▸ rfl)
      simp [Same, closeFile, hne]
    · rfl
  · rfl

theorem FilesOk.free (hk : FilesOk k) (h : ℕ) :
  wineHandleFree k.handles h = k.handles ∨
    ∃ i : Fin handleTableSize, wineHandleFree k.handles h = update k.handles i .empty
  := by
  rcases wineHandleFree_cases k.handles h with ⟨i, rfl, h3, hlive, -⟩ | hfree
  · right
    use i
    apply wineHandleFree_of_one h3 (hk.slot i h3 hlive).1
  · exact .inl hfree

theorem FilesOk.ntClose (hk : FilesOk k) {h : ℕ} (hlt : h < 2 ^ 32) :
  (∃ i : Fin handleTableSize, i.val = h ∧ Alive k (.slot i) ∧
      handlerNtClose h k = (statusSuccess, closeSlot i k)) ∨
    (handlerNtClose h k).2 = k ∧ ∀ i : Fin handleTableSize, i.val = h → ¬ Alive k (.slot i)
  := by
  by_cases hex : ∃ i : Fin handleTableSize, i.val = h ∧ Alive k (.slot i)
  · obtain ⟨i, rfl, hi⟩ := hex
    left
    use i, rfl, hi
    obtain ⟨hone, htype⟩ := hk.slot i hi.1 hi.2
    apply handlerNtClose_of_live hi.1 hone htype
  · right
    rw [not_exists] at hex
    constructor
    · by_cases hstandard : IsStandard h
      · rw [handlerNtClose_of_standard hstandard]
      · rw [IsStandard, not_or] at hstandard
        -- A handle with a type is that of a live slot.
        have hzero : wineHandleGetType k.handles (h % 2 ^ 32) = 0 := by
          rw [Nat.mod_eq_of_lt hlt]
          rcases get_cases k.handles h with ⟨i, rfl, hlive, -⟩ | ⟨-, htype⟩
          · exact absurd ⟨rfl, by omega, hlive⟩ (hex i)
          · exact htype
        simp only [handlerNtClose, if_neg hstandard.1, if_neg hstandard.2, if_pos hzero]
    · intro i hi hlive
      apply hex i ⟨hi, hlive⟩

theorem toInt_eq_of_nonneg {h : ℕ} (hlt : h < 2 ^ 32) (hnonneg : 0 ≤ toInt h) :
  toInt h = h
  := by
  unfold toInt at hnonneg ⊢
  rw [Int.bmod_def] at hnonneg ⊢
  split_ifs at hnonneg ⊢
  · omega
  · omega

/-- `CloseHandle` of the number of a live object closes an object with that number, and it does
nothing when there is none. -/
theorem FilesOk.closeHandle_cases (hk : FilesOk k) {h : ℕ} (hlt : h < 2 ^ 32) :
  (∃ x, Alive k x ∧ x.number = h ∧ (closeHandle .i386 h k).1 = true ∧
      Closes k (closeHandle .i386 h k).2 x) ∨
    (closeHandle .i386 h k).2 = k ∧ ∀ x, Alive k x → x.number ≠ h
  := by
  by_cases hstandard : IsStandard h
  · right
    constructor
    · rcases hstandard with hpseudo | hlow
      · rw [closeHandle, if_pos hpseudo]
      · simp [closeHandle, hlow]
    · rintro x hx rfl
      obtain ⟨h3, hlt⟩ := hk.number_range hx
      apply not_isStandard h3 hlt hstandard
  · rw [IsStandard, not_or] at hstandard
    by_cases hfile : (0 ≤ toInt h - 3 ∧ toInt h - 3 < k.createfileFdCount) ∧
        0 ≤ k.createfileFds (toInt h - 3).toNat
    · left
      have hint := toInt_eq_of_nonneg hlt (by omega)
      use .file (toInt h - 3).toNat
      have hr : closeHandle .i386 h k = (true, closeFile (toInt h - 3).toNat k) := by
        simp only [closeHandle, if_neg hstandard.1, if_neg hstandard.2, true_and, if_pos hfile]
      rw [hr]
      and_intros
      · omega
      · apply hfile.2
      · simp only [ObjectId.number]
        omega
      · rfl
      · apply (closes_closeFile _ _).1
      · apply (closes_closeFile _ _).2.1
      · apply (closes_closeFile _ _).2.2
    · have hr : closeHandle .i386 h k =
          (decide ((handlerNtClose h k).1 = statusSuccess), (handlerNtClose h k).2) := by
        simp only [closeHandle, if_neg hstandard.1, if_neg hstandard.2, true_and, if_neg hfile]
      rw [hr]
      rcases hk.ntClose hlt with ⟨i, rfl, hi, hclose⟩ | ⟨hsame, hnone⟩
      · left
        use .slot i, hi, rfl
        rw [hclose]
        exact ⟨rfl, closes_closeSlot i k⟩
      · right
        use hsame
        rintro (idx | i) hx hnumber
        · -- A live file would have been found in the array.
          apply hfile
          have hint : toInt h = h := toInt_of_lt (hnumber ▸ (hk.number_range hx).2)
          simp only [ObjectId.number] at hnumber
          have hidx : (toInt h - 3).toNat = idx := by omega
          rw [hidx]
          refine ⟨⟨by omega, ?_⟩, hx.2⟩
          have hcount := hx.1
          omega
        · apply hnone i hnumber hx

/-! ### One call -/

theorem Distinct.of_update_empty (h : Distinct k) (i : Fin handleTableSize) :
  Distinct { k with handles := update k.handles i .empty }
  := by
  apply h.mono
  rintro (idx | j) hy
  · apply hy
  · rcases eq_or_ne j i with rfl | hne
    · simp [Alive, WineHandle.empty] at hy
    · simpa [Alive, hne] using hy

theorem FilesOk.of_closes (hk : FilesOk k) (hcloses : Closes k k' x)
    (hcount : k'.createfileFdCount = k.createfileFdCount) :
  FilesOk k'
  where
  slot i h3 hlive := by
    obtain ⟨halive, hne⟩ := (hcloses.1 (.slot i)).mp ⟨h3, hlive⟩
    rw [show k'.handles i = k.handles i from hcloses.2.1 (.slot i) hne]
    apply hk.slot i h3 halive.2
  count := hcount ▸ hk.count

theorem handlerNtClose_count (h : ℕ) (k : KernelState) :
  (handlerNtClose h k).2.createfileFdCount = k.createfileFdCount
  := by
  simp only [handlerNtClose, releaseObject]
  split_ifs <;> rfl

theorem closeHandle_count (b : Build) (h : ℕ) (k : KernelState) :
  (closeHandle b h k).2.createfileFdCount = k.createfileFdCount
  := by
  simp only [closeHandle]
  split_ifs
  · rfl
  · rfl
  · rfl
  · apply handlerNtClose_count

theorem FilesOk.step (hk : FilesOk k) (call : FileCall) :
  FilesOk (fileStep k call)
  := by
  cases call with
  | createFile fs lpFileName access disposition =>
    simp only [fileStep, createFileA]
    cases openedFd fs lpFileName access disposition with
    | none => exact hk
    | some fd =>
      simp only [enterFd]
      split_ifs with hfull
      · exact ⟨hk.slot, hk.count⟩
      · exact ⟨hk.slot, Nat.lt_of_not_le hfull⟩
  | closeHandle hObject =>
    rcases hk.closeHandle_cases hObject.toNat_lt with ⟨x, -, -, -, hcloses⟩ | ⟨hsame, -⟩
    · apply hk.of_closes hcloses (closeHandle_count _ _ _)
    · rw [fileStep, hsame]
      exact hk
  | create kind object =>
    refine hk.of_slots ?_ hk.count
    intro i
    rcases wineHandleAlloc_cases k.handles kind.tag object with ⟨j, -, -, he⟩ | ⟨-, he⟩
    · simp only [fileStep, he]
      rcases eq_or_ne i j with rfl | hne
      · right; right
        simp [kind.tag_ne_zero]
      · left
        apply update_of_ne hne
    · left
      simp only [fileStep, he]
  | close kind handle =>
    simp only [fileStep]
    split_ifs
    · rcases hk.free handle.toNat with hsame | ⟨i, hupdate⟩
      · rw [hsame]
        exact hk
      · rw [hupdate]
        refine hk.of_slots ?_ hk.count
        intro j
        rcases eq_or_ne j i with rfl | hne
        · right; left
          simp [WineHandle.empty]
        · left
          apply update_of_ne hne
    · exact hk
  | ntClose handle =>
    rcases hk.ntClose handle.toNat_lt with ⟨i, -, -, hclose⟩ | ⟨hsame, -⟩
    · simp only [fileStep, hclose]
      apply hk.of_closes (closes_closeSlot i k) (releaseObject_files (k.handles i) k).2.1
    · rw [fileStep, hsame]
      exact hk

theorem FilesOk.closeHandle_correct (hk : FilesOk k) (hdistinct : Distinct k) (hObject : UInt32) :
  Correct k (.closeHandle hObject)
  := by
  rcases hk.closeHandle_cases hObject.toNat_lt with ⟨x, hx, hnumber, htrue, hcloses⟩ | ⟨hsame, hnone⟩
  · constructor
    · apply hcloses.distinct hdistinct
    · intro y hy hy'
      rw [hdistinct y x hy hx (hy'.trans hnumber.symm)]
      exact ⟨htrue, hcloses⟩
  · constructor
    · rw [fileStep, hsame]
      exact hdistinct
    · intro y hy hy'
      exact absurd hy' (hnone y hy)

theorem alive_enterFd {fd : ℤ} (hfd : 0 ≤ fd) (hroom : k.createfileFdCount < maxCreatefileFds)
    (y : ObjectId) :
  Alive (enterFd .i386 fd k).2 y ↔ Alive k y ∨ y = .file k.createfileFdCount
  := by
  simp only [enterFd, if_neg (Nat.not_le_of_lt hroom)]
  cases y with
  | file idx =>
    rcases eq_or_ne idx k.createfileFdCount with rfl | hne
    · simp [Alive, hfd]
    · simp only [Alive, update_of_ne hne, ObjectId.file.injEq, hne, or_false]
      omega
  | slot i => simp [Alive]

theorem openedFd_nonneg {fs : FileSystem} {lpFileName : Option CString} {access disposition : ℕ}
    {fd : ℤ} (h : openedFd fs lpFileName access disposition = some fd) :
  0 ≤ fd
  := by
  rw [openedFd] at h
  split at h
  · cases h
  · simp only [Option.ite_none_left_eq_some, Option.some.injEq] at h
    omega

theorem card_openFiles_iff (hcount : k.createfileFdCount = maxCreatefileFds) :
  64 ≤ (openFiles k).card ↔ ∀ idx < maxCreatefileFds, 0 ≤ k.createfileFds idx
  := by
  have hle : (openFiles k).card ≤ 64 := by
    apply (Finset.card_filter_le _ _).trans
    rw [Finset.card_range, hcount, maxCreatefileFds]
  have heq : 64 ≤ (openFiles k).card ↔ (openFiles k).card = (Finset.range maxCreatefileFds).card := by
    rw [Finset.card_range, maxCreatefileFds]
    omega
  rw [heq, openFiles, hcount, Finset.card_filter_eq_iff]
  simp

/-- `CreateFileA` does what it should exactly when the number after that of the last file is free,
or all files of the full array are open. -/
theorem FilesOk.createFile_iff (hk : FilesOk k) (hdistinct : Distinct k) (fs : FileSystem)
    (lpFileName : Option CString) (access disposition : ℕ) :
  NumbersFree k (.createFile fs lpFileName access disposition) ↔
    Correct k (.createFile fs lpFileName access disposition)
  := by
  cases hopened : openedFd fs lpFileName access disposition with
  | none =>
    have hr : createFileA .i386 fs lpFileName access disposition k = (invalidHandleValue .i386, k)
        := by
      simp only [createFileA, hopened]
    simp [NumbersFree, Correct, fileStep, hr, hopened, hdistinct]
  | some fd =>
    have hfd := openedFd_nonneg hopened
    have hr : createFileA .i386 fs lpFileName access disposition k = enterFd .i386 fd k := by
      simp only [createFileA, hopened]
    simp only [NumbersFree, Correct, fileStep, hr, hopened]
    by_cases hroom : k.createfileFdCount < maxCreatefileFds
    · have halive := alive_enterFd hfd hroom
      have hresult : (enterFd .i386 fd k).1 = 3 + k.createfileFdCount := by
        simp only [enterFd, if_neg (Nat.not_le_of_lt hroom)]
      have hvalid : 3 + k.createfileFdCount ≠ invalidHandleValue .i386 := by
        rw [maxCreatefileFds] at hroom
        simp only [invalidHandleValue, Build.ptrLimit, Build.ptrSize]
        omega
      have hcreates : Creates k (enterFd .i386 fd k).2 (3 + k.createfileFdCount) := by
        use .file k.createfileFdCount, rfl
        constructor
        · simp [Alive]
        · apply halive
      simp only [hroom, if_true, hresult, if_neg hvalid, hcreates, and_true, ne_eq, reduceCtorEq,
        not_false_eq_true, forall_const]
      rw [distinct_iff]
      constructor
      · intro hfree idx i hfile hslot hnumber
        rcases (halive _).mp hfile with hfile | hnew
        · apply distinct_iff.mp hdistinct idx i hfile _ hnumber
          apply ((halive _).mp hslot).resolve_right
          simp
        · obtain rfl : idx = k.createfileFdCount := by simpa using hnew
          have hslot := ((halive _).mp hslot).resolve_right (by simp)
          apply hslot.2 (hfree i hnumber)
      · intro h i hi
        by_contra hlive
        apply h k.createfileFdCount i _ _ hi
        · apply (halive _).mpr (Or.inr rfl)
        · apply (halive (.slot i)).mpr (Or.inl ⟨by omega, hlive⟩)
    · have hcount := Nat.le_antisymm hk.count (Nat.le_of_not_lt hroom)
      have hr : enterFd .i386 fd k = (invalidHandleValue .i386, { k with closed := fd :: k.closed })
          := by
        simp [enterFd, hcount]
      have hdistinct' : Distinct { k with closed := fd :: k.closed } := hdistinct.mono fun _ h => h
      simp [if_neg hroom, hr, hdistinct', card_openFiles_iff hcount]

/-- The creation of another object does what it should exactly when there is a free slot below the
numbers of all open files. -/
theorem FilesOk.create_iff (hk : FilesOk k) (hdistinct : Distinct k) (kind : Kind) (object : Ptr) :
  NumbersFree k (.create kind object) ↔ Correct k (.create kind object)
  := by
  -- The slot with the number of an open file is free.
  have hfree (idx : ℕ) (hfile : Alive k (.file idx)) (i : Fin handleTableSize)
      (hi : i.val = 3 + idx) : (k.handles i).refCount = 0 := by
    by_contra hlive
    apply distinct_iff.mp hdistinct idx i hfile ⟨by omega, hlive⟩ hi
  have hfirst {j : Fin handleTableSize} := @wineHandleAlloc_first k.handles kind.tag object j
  rcases wineHandleAlloc_cases k.handles kind.tag object with ⟨i, h3, h0, he⟩ | ⟨hfull, he⟩
  · have halive (y : ObjectId) :
        Alive { k with handles := update k.handles i ⟨i.val, kind.tag, 1, object⟩ } y ↔
          Alive k y ∨ y = .slot i := by
      cases y with
      | file idx => simp [Alive]
      | slot j =>
        rcases eq_or_ne j i with rfl | hne
        · simp [Alive, h3]
        · simp [Alive, hne]
    simp only [NumbersFree, Correct, fileStep, he]
    rw [he] at hfirst
    constructor
    · intro hbelow
      constructor
      · rw [distinct_iff]
        intro idx j hfile hslot hnumber
        have hfile := ((halive _).mp hfile).resolve_right (by simp)
        rcases (halive _).mp hslot with hslot | hnew
        · apply distinct_iff.mp hdistinct idx j hfile hslot hnumber
        · obtain rfl : j = i := by simpa using hnew
          obtain ⟨m, hm3, hmlt, hm0⟩ := hbelow idx hfile
          apply hfirst hm3 _ hm0
          omega
      · intro _
        use .slot i, rfl
        constructor
        · simp [Alive, h0]
        · apply halive
    · rintro ⟨hdistinct', -⟩ idx hfile
      use i, h3
      refine ⟨?_, h0⟩
      have hne : i.val ≠ 3 + idx := by
        apply distinct_iff.mp hdistinct' idx i
        · apply (halive _).mpr (Or.inl hfile)
        · apply (halive _).mpr (Or.inr rfl)
      by_contra hle
      have hlt := (hk.number_range hfile).2
      obtain ⟨j, hj⟩ : ∃ j : Fin handleTableSize, j.val = 3 + idx := ⟨⟨3 + idx, hlt⟩, rfl⟩
      apply hfirst _ _ (hfree idx hfile j hj)
      · omega
      · simp only
        omega
  · -- There is no free slot, and so no open file.
    simp only [NumbersFree, Correct, fileStep, he]
    apply iff_of_true
    · intro idx hfile
      obtain ⟨j, hj⟩ : ∃ j : Fin handleTableSize, j.val = 3 + idx :=
        ⟨⟨3 + idx, (hk.number_range hfile).2⟩, rfl⟩
      exact absurd (hfree idx hfile j hj) (hfull j (by omega))
    · exact ⟨hdistinct, fun h => absurd rfl h⟩

/-- In the states of the invariant, a call does what it should exactly when its numbers are
free. -/
theorem FilesOk.correct_iff (hk : FilesOk k) (hdistinct : Distinct k) (call : FileCall) :
  NumbersFree k call ↔ Correct k call
  := by
  cases call with
  | createFile fs lpFileName access disposition =>
    apply hk.createFile_iff hdistinct
  | closeHandle hObject =>
    exact iff_of_true trivial (hk.closeHandle_correct hdistinct hObject)
  | create kind object =>
    apply hk.create_iff hdistinct
  | close kind handle =>
    refine iff_of_true trivial ⟨?_, trivial⟩
    simp only [fileStep]
    split_ifs
    · rcases hk.free handle.toNat with hsame | ⟨i, hupdate⟩
      · rw [hsame]
        exact hdistinct
      · rw [hupdate]
        apply hdistinct.of_update_empty
    · exact hdistinct
  | ntClose handle =>
    refine iff_of_true trivial ⟨?_, trivial⟩
    rcases hk.ntClose handle.toNat_lt with ⟨i, -, -, hclose⟩ | ⟨hsame, -⟩
    · simp only [fileStep, hclose]
      apply (closes_closeSlot i k).distinct hdistinct
    · rw [fileStep, hsame]
      exact hdistinct

end

/-! ### Whole runs -/

theorem filesOk_init :
  FilesOk .init
  where
  slot i h3 hlive := by
    have hlow : ¬ i.val ≤ 2 := by omega
    simp [KernelState.init, wineHandleManagerRuntimeInit, hlow, WineHandle.empty] at hlive
  count := Nat.zero_le _

theorem distinct_init :
  Distinct .init
  := by
  rw [distinct_iff]
  intro idx i hfile _ _
  exact absurd hfile.1 (Nat.not_lt_zero idx)

/-- The calls of a run from the start all do what they should exactly when the numbers that they
need are free. -/
theorem file_handles_iff (calls : List FileCall) :
  Run.Along fileStep Correct .init calls ↔ Run.Along fileStep NumbersFree .init calls
  := by
  apply Run.along_iff_of_invariant fun k => FilesOk k ∧ Distinct k
  · rintro k call ⟨hk, -⟩ hcorrect
    exact ⟨hk.step call, hcorrect.1⟩
  · rintro k call ⟨hk, hdistinct⟩
    exact (hk.correct_iff hdistinct call).symm
  · exact ⟨filesOk_init, distinct_init⟩

def someFiles : FileSystem := ⟨some, fun _ _ => 7⟩

def openSome : FileCall := .createFile someFiles (some (.ofString "a")) 0 3

def openAndClose : List FileCall :=
  (List.range 64).flatMap fun i => [openSome, .closeHandle (UInt32.ofNat (3 + i))]

/-- A file and an event get the handle `3`, and `CloseHandle` of it closes the file and not the
event.  After `64` files have been opened and closed, `CreateFileA` fails with no file open. -/
theorem file_handles_clash :
  let k := [openSome, .create .event 0x2000].foldl fileStep .init
  let k' := openAndClose.foldl fileStep .init
  (¬ Distinct k ∧ ¬ Correct k (.closeHandle 3)) ∧
    (openFiles k').card = 0 ∧
      (createFileA .i386 someFiles (some (.ofString "a")) 0 3 k').1 = invalidHandleValue .i386
  := by
  intro k k'
  have hfile : Alive k (.file 0) := by
    constructor
    · decide
    · decide
  have hslot : Alive k (.slot ⟨3, by decide⟩) := by
    constructor
    · decide
    · decide +kernel
  and_intros
  · intro h
    cases h _ _ hfile hslot rfl
  · intro h
    -- The file is not closed with the event.
    obtain ⟨-, hcloses⟩ := h.2 (.slot ⟨3, by decide⟩) hslot rfl
    have hclosed : ¬ Alive (fileStep k (.closeHandle 3)) (.file 0) := by
      intro halive
      exact absurd halive.2 (by decide +kernel)
    apply hclosed
    apply (hcloses.1 _).mpr
    exact ⟨hfile, by simp⟩
  · decide +kernel
  · decide +kernel

end Kernel32
