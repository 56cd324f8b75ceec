import MyWine.Advapi32.Registry
import MyWine.Lib.SlotMap

/-!
# The registry as a map

A `RegMap` is what the registry is for: the paths of the open keys by their handles, and a map from
the path of a key and the name of a value to a type and bytes.  `RegMap.after` is the map after a
call, given its result, and `RegMap.Allows` says which results are right: a query returns what the map
holds, and a set fails only when the map has no room.

The buffers of the program are part of this design.  A path is cut to 255 bytes and data to 512 bytes,
the type 0 stands for `REG_SZ`, a root that is not an open key stands for `HKCU`, and the predefined key
itself has no values.  A name is cut to 127 bytes when it is stored but not when it is looked up, so that
the registry is a map only as long as the names that are set fit (`Registry.Admits`).
-/

namespace Advapi32

open HandleManager Run Function List Option

/-! ### The map -/

/-- The open keys with their paths, and the values. -/
structure RegMap where
  paths : ℕ → Option CString
  value : CString × CString → Option (ℕ × List UInt8)

def RegMap.empty : RegMap := ⟨fun _ => none, fun _ => none⟩

def subPath (path : CString) : Option CString → CString
  | none => path
  | some subkey =>
    if subkey.length = 0 then path else (path.append (.ofString "\\")).append subkey

def storedType (dwType : ℕ) : ℕ := if dwType ≠ 0 then dwType else regSz

def bytesAt (mem : Bytes) (a n : ℕ) : List UInt8 := (List.range n).map fun i => mem (a + i)

def valueName (lpValueName : Option CString) : CString := lpValueName.getD (.ofBytes [])

/-- A call of the registry, with the memory that it reads or writes. -/
inductive RegCall where
  | createKey (hKey : ℕ) (lpSubKey : Option CString) (phkResult key : Ptr)
  | openKey (hKey : ℕ) (lpSubKey : Option CString) (phkResult key : Ptr)
  | closeKey (hKey : ℕ)
  | setValueEx (hKey : ℕ) (lpValueName : Option CString) (dwType : ℕ) (lpData : Ptr) (cbData : ℕ)
      (mem : Bytes)
  | queryValueEx (hKey : ℕ) (lpValueName : Option CString) (lpType lpData lpcbData : Ptr)
      (mem : Bytes)
  | deleteKey (hKey : ℕ) (lpSubKey : Option CString)

/-- The error code of a call, the handle it stored, and the memory it left. -/
structure RegResult where
  code : ℕ
  handle : Option ℕ
  mem : Option Bytes

namespace RegMap

def path (a : RegMap) (hKey : ℕ) : Option CString :=
  if hKey = hkeyCurrentUserWine then none else a.paths (hKey % 2 ^ 32)

def keyPath (a : RegMap) (hKey : ℕ) (lpSubKey : Option CString) : CString :=
  (subPath ((a.path hKey).getD (.ofString "HKCU")) lpSubKey).take (regPathSize - 1)

def openKey (a : RegMap) (path : CString) : Option ℕ → RegMap
  | some handle =>
    if handle = 0 then a else { a with paths := update a.paths handle (some path) }
  | none => a

def after (a : RegMap) (r : RegResult) : RegCall → RegMap
  | .createKey hKey lpSubKey _ _ | .openKey hKey lpSubKey _ _ =>
    a.openKey (a.keyPath hKey lpSubKey) r.handle
  | .closeKey hKey =>
    if hKey = hkeyCurrentUserWine then a
    else { a with paths := update a.paths (hKey % 2 ^ 32) none }
  | .setValueEx hKey lpValueName dwType lpData cbData mem =>
    match a.path hKey with
    | none => a
    | some path =>
      if r.code = 0 then
        { a with
          value := update a.value (path, valueName lpValueName)
            (some (storedType dwType, (bytesAt mem lpData cbData).take regDataSize)) }
      else a
  | .queryValueEx .. => a
  | .deleteKey hKey lpSubKey =>
    { a with value := fun k => if k.1 = a.keyPath hKey lpSubKey then none else a.value k }

/-- What a query of a value returns: a missing value is an error, and a buffer that is too small gets
the size of the data. -/
def answer (value : Option (ℕ × List UInt8)) (lpType lpData lpcbData : Ptr) (mem : Bytes) :
    ℕ × Bytes :=
  match value with
  | none => (errorFileNotFound, mem)
  | some (type, data) =>
    let mem := if lpType ≠ 0 then mem.writeLE lpType 4 type else mem
    if lpcbData = 0 then (0, mem)
    else if lpData = 0 ∨ mem.readLE lpcbData 4 < data.length then
      (errorMoreData, mem.writeLE lpcbData 4 data.length)
    else
      (0, (mem.copy lpData (fun i => data.getD i 0) 0 data.length).writeLE lpcbData 4 data.length)

def Full (a : RegMap) : Prop :=
  ∃ keys : Fin maxRegValues → CString × CString, keys.Injective ∧ ∀ i, a.value (keys i) ≠ none

def Allows (a : RegMap) (r : RegResult) : RegCall → Prop
  | .createKey .. | .openKey .. =>
    (r.code = 0 ∨ r.code = errorNotEnoughMemory)
      ∧ ∀ handle ∈ r.handle, handle ≠ 0 → a.paths handle = none
  | .closeKey _ => r.code = 0
  | .setValueEx hKey lpValueName _ _ _ _ =>
    match a.path hKey with
    | none => r.code = errorFileNotFound
    | some path =>
      r.code = 0 ∨ r.code = errorNotEnoughMemory
        ∧ a.value (path, valueName lpValueName) = none ∧ a.Full
  | .queryValueEx hKey lpValueName lpType lpData lpcbData mem =>
    (r.code, r.mem) = (answer ((a.path hKey).bind fun path => a.value (path, valueName lpValueName))
      lpType lpData lpcbData mem).map id some
  | .deleteKey .. => r.code = 0

end RegMap

/-! ### The registry -/

namespace Registry

/-- What a call does. -/
def call (s : Registry) : RegCall → RegResult × Registry
  | .createKey hKey lpSubKey phkResult key =>
    let (code, handle, s) := regCreateKeyA s hKey lpSubKey phkResult key
    (⟨code, handle, none⟩, s)
  | .openKey hKey lpSubKey phkResult key =>
    let (code, handle, s) := regOpenKeyA s hKey lpSubKey phkResult key
    (⟨code, handle, none⟩, s)
  | .closeKey hKey =>
    let (code, s) := regCloseKey s hKey
    (⟨code, none, none⟩, s)
  | .setValueEx hKey lpValueName dwType lpData cbData mem =>
    let (code, values) :=
      regSetValueExA s.table s.keyAt s.values hKey lpValueName dwType lpData cbData mem
    (⟨code, none, none⟩, { s with values })
  | .queryValueEx hKey lpValueName lpType lpData lpcbData mem =>
    let (code, mem) :=
      regQueryValueExA s.table s.keyAt s.values hKey lpValueName lpType lpData lpcbData mem
    (⟨code, none, some mem⟩, s)
  | .deleteKey hKey lpSubKey =>
    let (code, s) := regDeleteKeyA s hKey lpSubKey
    (⟨code, none, none⟩, s)

def IsKey (h : WineHandle) : Prop := h.refCount ≠ 0 ∧ h.type = handleTypeHkey

instance (h : WineHandle) : Decidable (IsKey h) :=
  inferInstanceAs (Decidable (_ ∧ _))

def NoOther (s : Registry) (hKey : ℕ) : Prop :=
  wineHandleGet s.table (hKey % 2 ^ 32) = 0
    ∨ wineHandleGetType s.table (hKey % 2 ^ 32) = handleTypeHkey

instance (s : Registry) (hKey : ℕ) : Decidable (s.NoOther hKey) :=
  inferInstanceAs (Decidable (_ ∨ _))

def Unused (s : Registry) (key : Ptr) : Prop := ∀ i, IsKey (s.table i) → (s.table i).object ≠ key

instance (s : Registry) (key : Ptr) : Decidable (s.Unused key) :=
  inferInstanceAs (Decidable (∀ i, IsKey (s.table i) → (s.table i).object ≠ key))

/-- What a call may rely on: `malloc` works, the handle of a value is not one of another kind of object,
and a set has a name that fits and its data. -/
def Admits (s : Registry) : RegCall → Prop
  | .createKey _ _ _ key | .openKey _ _ _ key => s.Unused key
  | .closeKey _ | .deleteKey .. => True
  | .setValueEx hKey lpValueName _ lpData cbData _ =>
    s.NoOther hKey ∧ (valueName lpValueName).length < regNameSize ∧ (lpData = 0 → cbData = 0)
  | .queryValueEx hKey .. => s.NoOther hKey

instance (s : Registry) : DecidablePred s.Admits
  | .createKey _ _ _ key | .openKey _ _ _ key => inferInstanceAs (Decidable (s.Unused key))
  | .closeKey _ | .deleteKey .. => inferInstanceAs (Decidable True)
  | .setValueEx .. => inferInstanceAs (Decidable (_ ∧ _ ∧ _))
  | .queryValueEx hKey .. => inferInstanceAs (Decidable (s.NoOther hKey))

def step (s : Registry × RegMap) (c : RegCall) : Registry × RegMap :=
  ((s.1.call c).2, s.2.after (s.1.call c).1 c)

/-- The registry when no key is open and no value is there. -/
structure Fresh (s : Registry) : Prop where
  keys : ∀ i, ¬ IsKey (s.table i)
  values : ∀ i, (s.values i).used = false

end Registry

/-! ### Paths -/

theorem joinPath_eq_take (pre : CString) (subkey : Option CString) (n : ℕ) :
  joinPath pre subkey (n + 1) = (subPath pre subkey).take n
  := by
  cases subkey with
  | none => rfl
  | some subkey =>
    simp only [joinPath, subPath, Nat.add_sub_cancel]
    by_cases hempty : subkey.length = 0
    · have hbytes : subkey.bytes = [] := length_eq_zero_iff.mp hempty
      apply CString.ext
      simp [hempty, hbytes, CString.append, CString.take]
    · rw [if_neg hempty]
      by_cases hroom : pre.length < n
      · have hpre : pre.take n = pre := CString.take_of_length_le hroom.le
        rw [if_pos ⟨hempty, by rw [hpre]; omega⟩, hpre]
        apply CString.ext
        simp only [CString.append, CString.take, CString.length] at hroom ⊢
        have hone : (CString.ofString "\\").bytes.length = 1 := by decide
        have hfits : (pre.bytes ++ (CString.ofString "\\").bytes).length ≤ n := by
          rw [length_append, hone]
          exact hroom
        rw [take_append, take_of_length_le hfits]
      · have hlength : (pre.take n).length = n := by
          rw [CString.take_length]
          omega
        rw [if_neg (by rw [hlength]; omega), hlength, Nat.sub_self]
        apply CString.ext
        simp only [CString.append, CString.take, CString.length, take_zero,
          append_nil] at hroom ⊢
        rw [append_assoc, take_append_of_le_length (by omega)]

/-! ### Values -/

def WineRegValue.key (v : WineRegValue) : Option (CString × CString) :=
  if v.used then some (v.path, v.name) else none

def WineRegValue.value (v : WineRegValue) : ℕ × List UInt8 := (v.type, bytesAt v.data 0 v.size)

theorem regFindValue_eq_find (values : RegValues) (path : CString) (name : Option CString) :
  regFindValue values path name = SlotMap.find WineRegValue.key values (path, valueName name)
  := by
  rw [regFindValue, SlotMap.find]
  congr
  funext i
  rw [WineRegValue.key]
  cases (values i).used with
  | false => simp
  | true => simp [valueName]

theorem regEnsureValue_cases
    {values : RegValues} {path : CString} {name : Option CString}
    (hpath : path.length < regPathSize) (hname : (valueName name).length < regNameSize) :
  let k := (path, valueName name)
  (∃ i v, SlotMap.Takes WineRegValue.key values i k ∧ v.key = some k
      ∧ regEnsureValue values path name = some (i, update values i v))
    ∨ regEnsureValue values path name = none
      ∧ SlotMap.find WineRegValue.key values k = none ∧ ∀ i, (values i).used = true
  := by
  rw [regEnsureValue, regFindValue_eq_find]
  cases hfind : SlotMap.find WineRegValue.key values (path, valueName name) with
  | some i =>
    left
    use i, values i
    have hkey := SlotMap.key_of_find hfind
    refine ⟨Or.inl hkey, hkey, ?_⟩
    rw [update_eq_self]
  | none =>
    cases hfree : Table.firstSlot fun i => !(values i).used with
    | some i =>
      left
      use i, newRegValue path name
      have hunused := (Table.firstSlot_eq_some_iff.mp hfree).1
      rw [Bool.not_eq_true'] at hunused
      refine ⟨Or.inr ⟨?_, hfind⟩, ?_, ?_⟩
      · rw [WineRegValue.key, hunused]
        rfl
      · have hcopy : regCopyCstr regPathSize (some path) = path :=
          CString.take_of_length_le (Nat.le_sub_one_of_lt hpath)
        have hcopy' : regCopyCstr regNameSize name = valueName name :=
          CString.take_of_length_le (Nat.le_sub_one_of_lt hname)
        simp [WineRegValue.key, newRegValue, hcopy, hcopy']
      · rfl
    | none =>
      right
      rw [Table.firstSlot_eq_none_iff] at hfree
      refine ⟨rfl, hfind, ?_⟩
      intro i
      have hi := hfree i
      rwa [Bool.not_eq_false'] at hi

theorem bytesAt_copy (data mem : Bytes) (a n : ℕ) :
  bytesAt (data.copy 0 mem a n) 0 n = bytesAt mem a n
  := by
  apply map_congr_left
  intro i hi
  rw [Bytes.copy, if_pos ⟨Nat.zero_le _, by simpa using hi⟩, Nat.zero_add, Nat.sub_zero]

theorem take_bytesAt (mem : Bytes) (a n k : ℕ) :
  (bytesAt mem a n).take k = bytesAt mem a (min k n)
  := by
  rw [bytesAt, bytesAt, ← map_take, take_range]

/-- What `RegSetValueExA` does with a key: the value is put into its slot, or there is no slot for
it. -/
theorem regSetValueExA_cases
    {s : Registry} {hKey : ℕ} {key : Ptr} (hobj : keyObject s.table hKey = some key)
    (hpath : (s.keyAt key).path.length < regPathSize) {name : Option CString}
    (hname : (valueName name).length < regNameSize) (dwType : ℕ) {lpData : Ptr} {cbData : ℕ}
    (hdata : lpData = 0 → cbData = 0) (mem : Bytes) :
  let k := ((s.keyAt key).path, valueName name)
  let r := regSetValueExA s.table s.keyAt s.values hKey name dwType lpData cbData mem
  (∃ i v, SlotMap.Takes WineRegValue.key s.values i k ∧ v.key = some k
      ∧ v.value = (storedType dwType, (bytesAt mem lpData cbData).take regDataSize)
      ∧ r = (0, update s.values i v))
    ∨ r = (errorNotEnoughMemory, s.values) ∧ SlotMap.find WineRegValue.key s.values k = none
      ∧ ∀ i, (s.values i).used = true
  := by
  intro k r
  rcases @regEnsureValue_cases s.values _ _ hpath hname with
    ⟨i, v, htakes, hkey, hensure⟩ | ⟨hensure, hfull⟩
  · left
    have hsize : (if regDataSize < cbData then regDataSize else cbData) = min regDataSize cbData := by
      split <;> omega
    simp only [r, regSetValueExA, hobj, hensure, hsize, update_idem, update_self]
    refine ⟨i, _, htakes, ?_, ?_, rfl⟩
    · exact hkey
    · rw [take_bytesAt, WineRegValue.value]
      congr 1
      by_cases hempty : lpData ≠ 0 ∧ 0 < min regDataSize cbData
      · rw [if_pos hempty, bytesAt_copy]
      · have hzero : min regDataSize cbData = 0 := by
          rcases eq_or_ne lpData 0 with hnull | hnull
          · rw [hdata hnull, Nat.min_zero]
          · exact Nat.eq_zero_of_not_pos fun hpos => hempty ⟨hnull, hpos⟩
        rw [hzero]
        rfl
  · right
    simp only [r, regSetValueExA, hobj, hensure]
    exact ⟨trivial, hfull⟩

theorem regQueryValueExA_eq_answer
    {s : Registry} {hKey : ℕ} {key : Ptr} (hobj : queriedKey s.table hKey = some key)
    (name : Option CString) (lpType lpData lpcbData : Ptr) (mem : Bytes) :
  regQueryValueExA s.table s.keyAt s.values hKey name lpType lpData lpcbData mem
    = RegMap.answer
        (SlotMap.lookup WineRegValue.key WineRegValue.value s.values
          ((s.keyAt key).path, valueName name))
        lpType lpData lpcbData mem
  := by
  simp only [regQueryValueExA, hobj, regFindValue_eq_find, SlotMap.lookup]
  cases SlotMap.find WineRegValue.key s.values ((s.keyAt key).path, valueName name) with
  | none => rfl
  | some i =>
    have hlength : (bytesAt (s.values i).data 0 (s.values i).size).length = (s.values i).size := by
      simp [bytesAt]
    have hcopy (mem : Bytes) :
        mem.copy lpData (fun j => (bytesAt (s.values i).data 0 (s.values i).size).getD j 0) 0
            (s.values i).size
          = mem.copy lpData (s.values i).data 0 (s.values i).size := by
      funext x
      rw [Bytes.copy, Bytes.copy]
      split
      · rename_i hin
        have hlt : x - lpData < (s.values i).size := by omega
        simp [bytesAt, hlt]
      · rfl
    simp only [RegMap.answer, map_some, WineRegValue.value, hlength, hcopy]

/-! ### The registry is a map -/

namespace Registry

def openPath (s : Registry) (handle : ℕ) : Option CString :=
  match wineHandleSlot handle with
  | none => none
  | some i => if IsKey (s.table i) then some (s.keyAt (s.table i).object).path else none

theorem openPath_val (s : Registry) (i : Fin handleTableSize) :
  s.openPath i.val = if IsKey (s.table i) then some (s.keyAt (s.table i).object).path else none
  := by
  rw [openPath, wineHandleSlot_val]

theorem openPath_eq_some_iff {s : Registry} {handle : ℕ} {path : CString} :
  s.openPath handle = some path
    ↔ ∃ i : Fin handleTableSize, handle = i.val ∧ IsKey (s.table i)
        ∧ (s.keyAt (s.table i).object).path = path
  := by
  have hbind : s.openPath handle = (wineHandleSlot handle).bind fun i =>
      if IsKey (s.table i) then some (s.keyAt (s.table i).object).path else none := by
    rw [openPath]
    cases wineHandleSlot handle with
    | none => rfl
    | some i => rfl
  simp only [hbind, bind_eq_some_iff, wineHandleSlot_eq_some_iff, ite_none_right_eq_some, some.injEq]

theorem getType_eq_hkey_iff {t : HandleTable} {handle : ℕ} :
  wineHandleGetType t handle = handleTypeHkey
    ↔ ∃ i : Fin handleTableSize, handle = i.val ∧ IsKey (t i)
  := by
  constructor
  · intro h
    rcases get_cases t handle with ⟨i, hi, hlive, -, htype⟩ | ⟨-, htype⟩
    · exact ⟨i, hi, hlive, htype.symm.trans h⟩
    · rw [htype] at h
      cases h
  · rintro ⟨i, rfl, hlive, htype⟩
    rw [(get_of_live hlive).2, htype]

/-- The map is the one that the registry holds.  The open keys have one reference each and objects of
their own. -/
structure Refines (s : Registry) (a : RegMap) : Prop where
  reserved : ∀ i, IsKey (s.table i) → 3 ≤ i.val
  single : ∀ i, IsKey (s.table i) → (s.table i).refCount = 1
  object : ∀ i, IsKey (s.table i) → (s.table i).object ≠ 0
  fits : ∀ i, IsKey (s.table i) → (s.keyAt (s.table i).object).path.length < regPathSize
  apart : ∀ i j, IsKey (s.table i) → IsKey (s.table j) →
    (s.table i).object = (s.table j).object → i = j
  paths : ∀ handle, a.paths handle = s.openPath handle
  distinct : SlotMap.Distinct WineRegValue.key s.values
  value : ∀ k, a.value k = SlotMap.lookup WineRegValue.key WineRegValue.value s.values k

theorem Fresh.refines {s : Registry} (h : s.Fresh) :
  s.Refines .empty
  := by
  have hkey (i) : (s.values i).key = none := by
    rw [WineRegValue.key, h.values]
    rfl
  constructor
  case reserved | single | object | fits =>
    intro i hi
    exact absurd hi (h.keys i)
  case apart =>
    intro i j hi
    exact absurd hi (h.keys i)
  case paths =>
    intro handle
    symm
    rw [RegMap.empty, eq_none_iff_forall_ne_some]
    intro path hpath
    obtain ⟨i, -, hi, -⟩ := openPath_eq_some_iff.mp hpath
    exact h.keys i hi
  case distinct =>
    intro i j k hi
    rw [hkey] at hi
    cases hi
  case value =>
    intro k
    symm
    apply SlotMap.lookup_eq_none_iff.mpr
    intro i hi
    rw [hkey] at hi
    cases hi

section

variable {s : Registry} {a : RegMap} (h : s.Refines a)

include h

theorem Refines.path_eq (hKey : ℕ) :
  a.path hKey = s.openPath (hKey % 2 ^ 32)
  := by
  rw [RegMap.path]
  split
  case isTrue heq =>
    have hslot : wineHandleSlot (hkeyCurrentUserWine % 2 ^ 32) = none := by decide
    rw [heq, openPath, hslot]
  · apply h.paths

variable {hKey : ℕ}

theorem Refines.keyObject_of_path {path : CString} (hpath : a.path hKey = some path) :
  ∃ key, hKey ≠ hkeyCurrentUserWine ∧ keyObject s.table hKey = some key
    ∧ (s.keyAt key).path = path ∧ path.length < regPathSize
  := by
  have hne : hKey ≠ hkeyCurrentUserWine := by
    rintro rfl
    rw [RegMap.path, if_pos rfl] at hpath
    cases hpath
  rw [h.path_eq] at hpath
  obtain ⟨i, hi, hkey, rfl⟩ := openPath_eq_some_iff.mp hpath
  use (s.table i).object, hne
  rw [keyObject, hi, (get_of_live hkey.1).1]
  exact ⟨if_neg (h.object i hkey), rfl, h.fits i hkey⟩

theorem Refines.keyObject_of_path_none (hother : s.NoOther hKey) (hpath : a.path hKey = none) :
  keyObject s.table hKey = none
  := by
  rw [h.path_eq] at hpath
  rcases hother with hzero | htype
  · rw [keyObject, hzero]
    rfl
  · obtain ⟨i, hi, hkey⟩ := getType_eq_hkey_iff.mp htype
    rw [hi, openPath_val, if_pos hkey] at hpath
    cases hpath

theorem Refines.rootPath_eq (root : ℕ) :
  s.rootPath root = (a.path root).getD (.ofString "HKCU")
  := by
  rw [Registry.rootPath]
  split
  case isTrue hroot =>
    obtain ⟨hne, htype⟩ := hroot
    obtain ⟨i, hi, hkey⟩ := getType_eq_hkey_iff.mp htype
    rw [h.path_eq, hi, openPath_val, if_pos hkey, (get_of_live hkey.1).1,
      if_pos (h.object i hkey)]
    rfl
  case isFalse hroot =>
    have hpath : a.path root = none := by
      rw [eq_none_iff_forall_ne_some]
      intro path hpath
      apply hroot
      obtain ⟨key, hne, -⟩ := h.keyObject_of_path hpath
      rw [h.path_eq] at hpath
      obtain ⟨i, hi, hkey, -⟩ := openPath_eq_some_iff.mp hpath
      use hne
      apply getType_eq_hkey_iff.mpr ⟨i, hi, hkey⟩
    rw [hpath]
    rfl

theorem Refines.regJoinPath_eq (hKey : ℕ) (lpSubKey : Option CString) :
  regJoinPath s hKey lpSubKey regPathSize = a.keyPath hKey lpSubKey
  := by
  rw [regJoinPath, h.rootPath_eq, RegMap.keyPath]
  apply joinPath_eq_take

/-! ### Opening and closing keys -/

omit h in
theorem keyPath_length (hKey : ℕ) (lpSubKey : Option CString) :
  (a.keyPath hKey lpSubKey).length < regPathSize
  := by
  rw [RegMap.keyPath, CString.take_length, regPathSize]
  omega

theorem Refines.storeKey {key : Ptr} (hunused : s.Unused key) (v : WineHkey) :
  { s with keyAt := update s.keyAt key v }.Refines a
  := by
  have hkeyAt (i) (hi : IsKey (s.table i)) :
      update s.keyAt key v (s.table i).object = s.keyAt (s.table i).object :=
    update_of_ne (hunused i hi) ..
  refine ⟨h.reserved, h.single, h.object, ?_, h.apart, ?_, h.distinct, h.value⟩
  · intro i hi
    simp only [hkeyAt i hi]
    apply h.fits i hi
  · intro handle
    rw [h.paths]
    apply Option.ext
    intro path
    rw [openPath_eq_some_iff, openPath_eq_some_iff]
    apply exists_congr
    intro i
    apply and_congr_right'
    apply and_congr_right
    intro hkey
    simp only [hkeyAt i hkey]

/-- What a slot must be to hold a key. -/
structure Holds (s : Registry) (i : Fin handleTableSize) (w : WineHandle) : Prop where
  reserved : 3 ≤ i.val
  single : w.refCount = 1
  object : w.object ≠ 0
  fits : (s.keyAt w.object).path.length < regPathSize
  apart : s.Unused w.object

theorem Refines.updateSlot
    {i : Fin handleTableSize} {w : WineHandle} (hw : IsKey w → Holds s i w) :
  { s with table := update s.table i w }.Refines
    { a with
      paths := update a.paths i.val
        (if IsKey w then some (s.keyAt w.object).path else none) }
  := by
  have hother {j} (hj : j ≠ i) : update s.table i w j = s.table j :=
    update_of_ne hj ..
  -- what holds of the new key and of the keys that were there holds of all keys
  have hall {P : Fin handleTableSize → WineHandle → Prop}
      (hnew : IsKey w → P i w) (hold : ∀ j, IsKey (s.table j) → P j (s.table j))
      (j) (hj : IsKey (update s.table i w j)) : P j (update s.table i w j) := by
    rcases eq_or_ne j i with rfl | hji
    · rw [update_self] at hj ⊢
      exact hnew hj
    · rw [hother hji] at hj ⊢
      exact hold j hj
  refine ⟨?_, ?_, ?_, ?_, ?_, ?_, h.distinct, h.value⟩
  · exact hall (P := fun j _ => 3 ≤ j.val) (fun hkey => (hw hkey).reserved) h.reserved
  · exact hall (P := fun _ w => w.refCount = 1) (fun hkey => (hw hkey).single) h.single
  · exact hall (P := fun _ w => w.object ≠ 0) (fun hkey => (hw hkey).object) h.object
  · exact hall (P := fun _ w => (s.keyAt w.object).path.length < regPathSize)
      (fun hkey => (hw hkey).fits) h.fits
  · intro j j' hj hj' hobject
    rcases eq_or_ne j i with rfl | hji
    · rcases eq_or_ne j' j with rfl | hji'
      · rfl
      · simp only [update_self, hother hji'] at hj hj' hobject
        exact absurd hobject.symm ((hw hj).apart j' hj')
    · simp only [hother hji] at hj hobject
      rcases eq_or_ne j' i with rfl | hji'
      · simp only [update_self] at hj' hobject
        exact absurd hobject ((hw hj').apart j hj)
      · simp only [hother hji'] at hj' hobject
        exact h.apart j j' hj hj' hobject
  · intro handle
    cases hslot : wineHandleSlot handle with
    | none =>
      have hne : handle ≠ i.val := by
        rintro rfl
        rw [wineHandleSlot_val] at hslot
        cases hslot
      simp only [update_of_ne hne, h.paths, openPath, hslot]
    | some j =>
      obtain rfl := wineHandleSlot_eq_some_iff.mp hslot
      rw [openPath_val]
      rcases eq_or_ne j i with rfl | hji
      · simp
      · have hne : j.val ≠ i.val := fun heq => hji (Fin.ext heq)
        simp only [update_of_ne hne, hother hji, h.paths, openPath_val]

theorem Refines.regCreateKeyA
    {key : Ptr} (hunused : s.Unused key) (hKey : ℕ) (lpSubKey : Option CString) (phkResult : Ptr) :
  let r := Advapi32.regCreateKeyA s hKey lpSubKey phkResult key
  ((r.1 = 0 ∨ r.1 = errorNotEnoughMemory)
      ∧ ∀ handle ∈ r.2.1, handle ≠ 0 → a.paths handle = none)
    ∧ r.2.2.Refines (a.openKey (a.keyPath hKey lpSubKey) r.2.1)
  := by
  have hcopy : regCopyCstr regPathSize (a.keyPath hKey lpSubKey) = a.keyPath hKey lpSubKey := by
    apply CString.take_of_length_le
    apply Nat.le_sub_one_of_lt (keyPath_length hKey lpSubKey)
  simp only [Advapi32.regCreateKeyA, h.regJoinPath_eq, hcopy]
  by_cases hnull : key = 0
  · rw [if_pos hnull]
    exact ⟨⟨Or.inr rfl, by simp⟩, h⟩
  rw [if_neg hnull]
  have hstore := h.storeKey hunused ⟨a.keyPath hKey lpSubKey⟩
  by_cases hresult : phkResult = 0
  · rw [if_pos hresult]
    exact ⟨⟨Or.inl rfl, by simp⟩, hstore⟩
  rw [if_neg hresult]
  rcases wineHandleAlloc_cases s.table handleTypeHkey key with
    ⟨i, h3, hfree, halloc⟩ | ⟨-, halloc⟩
  · rw [halloc]
    refine ⟨⟨Or.inl rfl, ?_⟩, ?_⟩
    · rintro handle hhandle -
      obtain rfl : i.val = handle := by simpa using hhandle
      rw [h.paths, openPath_val, if_neg]
      exact fun hi => hi.1 hfree
    · have hne : i.val ≠ 0 := by omega
      have hone : (1 : UInt8) ≠ 0 := by decide
      have hkey : IsKey ⟨i.val, handleTypeHkey, 1, key⟩ := ⟨hone, rfl⟩
      have hkeyAt : update s.keyAt key ⟨a.keyPath hKey lpSubKey⟩ key
          = ⟨a.keyPath hKey lpSubKey⟩ := update_self ..
      have hslot := @Refines.updateSlot _ _ hstore i ⟨i.val, handleTypeHkey, 1, key⟩ fun _ =>
        ⟨h3, rfl, hnull, by simp only [hkeyAt]; apply keyPath_length, hunused⟩
      simp only [if_pos hkey, hkeyAt] at hslot
      simp only [RegMap.openKey, if_neg hne]
      exact hslot
  · rw [halloc]
    refine ⟨⟨Or.inl rfl, ?_⟩, hstore⟩
    intro handle hhandle hne
    obtain rfl : 0 = handle := by simpa using hhandle
    exact absurd rfl hne

theorem Refines.closeNone {handle : ℕ} (hnone : a.paths handle = none) :
  s.Refines { a with paths := update a.paths handle none }
  := by
  have heq : update a.paths handle none = a.paths := by
    rw [← hnone, update_eq_self]
  rw [heq]
  exact h

theorem Refines.regCloseKey (hKey : ℕ) (r : RegResult) :
  (Advapi32.regCloseKey s hKey).1 = 0
    ∧ (Advapi32.regCloseKey s hKey).2.Refines (a.after r (.closeKey hKey))
  := by
  rw [Advapi32.regCloseKey]
  by_cases hpre : hKey = hkeyCurrentUserWine
  · rw [if_neg (fun hand => hand.2.1 hpre)]
    simp only [RegMap.after, if_pos hpre]
    exact ⟨trivial, h⟩
  simp only [RegMap.after, if_neg hpre]
  by_cases htype : wineHandleGetType s.table (hKey % 2 ^ 32) = handleTypeHkey
  · obtain ⟨i, hi, hkey⟩ := getType_eq_hkey_iff.mp htype
    have h3 := h.reserved i hkey
    rw [if_pos ⟨by omega, hpre, htype⟩]
    have hfree := wineHandleFree_of_one h3 (h.single i hkey)
    have hempty : ¬ IsKey WineHandle.empty := fun hkey => hkey.1 rfl
    have hslot := @Refines.updateSlot _ _ h i .empty fun hkey => absurd hkey hempty
    rw [if_neg hempty] at hslot
    rw [hi, hfree]
    exact ⟨rfl, hslot⟩
  · rw [if_neg (fun hand => htype hand.2.2)]
    use rfl
    apply h.closeNone
    rw [h.paths, eq_none_iff_forall_ne_some]
    intro path hpath
    obtain ⟨i, hi, hkey, -⟩ := openPath_eq_some_iff.mp hpath
    apply htype
    apply getType_eq_hkey_iff.mpr ⟨i, hi, hkey⟩

/-! ### Values of keys -/

theorem Refines.withValues
    {values : RegValues} {value : CString × CString → Option (ℕ × List UInt8)}
    (hdistinct : SlotMap.Distinct WineRegValue.key values)
    (hvalue : ∀ k, value k = SlotMap.lookup WineRegValue.key WineRegValue.value values k) :
  { s with values := values }.Refines { a with value := value }
  := ⟨h.reserved, h.single, h.object, h.fits, h.apart, h.paths, hdistinct, hvalue⟩

theorem Refines.setValueEx {lpValueName : Option CString} {dwType : ℕ} {lpData : Ptr} {cbData : ℕ}
    {mem : Bytes} (hadmits : s.Admits (.setValueEx hKey lpValueName dwType lpData cbData mem)) :
  let c := RegCall.setValueEx hKey lpValueName dwType lpData cbData mem
  a.Allows (s.call c).1 c ∧ (s.call c).2.Refines (a.after (s.call c).1 c)
  := by
  obtain ⟨hother, hname, hdata⟩ := hadmits
  simp only [RegMap.Allows, RegMap.after, Registry.call]
  cases hpath : a.path hKey with
  | none =>
    have hnone := h.keyObject_of_path_none hother hpath
    simp only [regSetValueExA, hnone]
    exact ⟨trivial, h⟩
  | some path =>
    obtain ⟨key, -, hobj, rfl, hfits⟩ := h.keyObject_of_path hpath
    rcases regSetValueExA_cases hobj hfits hname dwType hdata mem with
      ⟨i, v, htakes, hkey, hvalue, hset⟩ | ⟨hset, hnone, hfull⟩
    · simp only [hset, if_true, true_or, true_and]
      apply h.withValues
      · exact h.distinct.update htakes hkey
      · intro k
        rw [h.distinct.lookup_update htakes hkey, hvalue, ← h.value, update_apply]
    · have hcode : errorNotEnoughMemory ≠ 0 := by decide
      simp only [hset, hcode, if_false, false_or, true_and]
      refine ⟨⟨?_, ?_⟩, h⟩
      · rw [h.value, SlotMap.lookup, hnone]
        rfl
      · have hslot (i) : (s.values i).key = some ((s.values i).path, (s.values i).name) := by
          rw [WineRegValue.key, if_pos (hfull i)]
        use fun i => ((s.values i).path, (s.values i).name)
        constructor
        · intro i j hij
          apply h.distinct (hslot i)
          rw [hslot j]
          exact congrArg some hij.symm
        · intro i hi
          rw [h.value, SlotMap.lookup_eq_none_iff] at hi
          exact hi i (hslot i)

theorem Refines.queryValueEx {lpValueName : Option CString} {lpType lpData lpcbData : Ptr}
    {mem : Bytes} (hadmits : s.Admits (.queryValueEx hKey lpValueName lpType lpData lpcbData mem)) :
  let c := RegCall.queryValueEx hKey lpValueName lpType lpData lpcbData mem
  a.Allows (s.call c).1 c ∧ (s.call c).2.Refines (a.after (s.call c).1 c)
  := by
  simp only [RegMap.Allows, RegMap.after, Registry.call]
  refine ⟨?_, h⟩
  cases hpath : a.path hKey with
  | none =>
    have hnone : queriedKey s.table hKey = none := by
      rw [queriedKey, h.keyObject_of_path_none hadmits hpath, ite_self]
    simp only [regQueryValueExA, hnone]
    rfl
  | some path =>
    obtain ⟨key, hne, hobj, rfl, -⟩ := h.keyObject_of_path hpath
    have hquery : queriedKey s.table hKey = some key := by
      rw [queriedKey, if_neg hne, hobj]
    rw [regQueryValueExA_eq_answer hquery, bind_some, h.value]
    rfl

theorem Refines.regDeleteKeyA (hKey : ℕ) (lpSubKey : Option CString) (r : RegResult) :
  (Advapi32.regDeleteKeyA s hKey lpSubKey).2.Refines (a.after r (.deleteKey hKey lpSubKey))
  := by
  simp only [Advapi32.regDeleteKeyA, h.regJoinPath_eq, RegMap.after]
  have hcleared : WineRegValue.cleared.key = none := rfl
  apply h.withValues
  · exact h.distinct.clear
      (p := fun v => v.used && decide (v.path = a.keyPath hKey lpSubKey)) hcleared
  · intro k
    rw [h.value]
    symm
    apply h.distinct.lookup_clear
      (p := fun v => v.used && decide (v.path = a.keyPath hKey lpSubKey)) hcleared
    intro i k hkey
    rw [WineRegValue.key, ite_none_right_eq_some, some.injEq] at hkey
    obtain ⟨hused, rfl⟩ := hkey
    simp [hused]

theorem Refines.call {c : RegCall} (hadmits : s.Admits c) :
  a.Allows (s.call c).1 c ∧ (s.call c).2.Refines (a.after (s.call c).1 c)
  := by
  cases c with
  | createKey hKey lpSubKey phkResult key => apply h.regCreateKeyA hadmits
  | openKey hKey lpSubKey phkResult key => apply h.regCreateKeyA hadmits
  | closeKey hKey => apply h.regCloseKey
  | setValueEx hKey lpValueName dwType lpData cbData mem => apply h.setValueEx hadmits
  | queryValueEx hKey lpValueName lpType lpData lpcbData mem => apply h.queryValueEx hadmits
  | deleteKey hKey lpSubKey => exact ⟨rfl, h.regDeleteKeyA hKey lpSubKey _⟩

end

/-- In every sequence of calls, each call has the result that the map allows. -/
theorem calls_allowed
    {s : Registry} (hfresh : s.Fresh) {calls : List RegCall}
    (h : Along step (fun s c => s.1.Admits c) (s, .empty) calls) :
  Along step (fun s c => s.2.Allows (s.1.call c).1 c) (s, .empty) calls
  := by
  apply h.imp_of_invariant fun s => s.1.Refines s.2
  · intro s c hs hc
    exact (hs.call hc).2
  · intro s c hs hc
    exact (hs.call hc).1
  · exact hfresh.refines

def start : Registry := ⟨wineHandleManagerRuntimeInit, fun _ => ⟨.ofBytes []⟩, fun _ => .cleared⟩

theorem fresh_start :
  start.Fresh
  := by
  constructor
  · decide +kernel
  · intro i
    rfl

def bufferMem : Bytes := Bytes.writeLE (fun _ => 7) 32 4 1024

/-- A value with the given name, type and size is set in `HKCU\A` and queried, and the key is deleted. -/
def setAndQuery (name : CString) (dwType cbData : ℕ) : List RegCall :=
  [.createKey hkeyCurrentUserWine (some (.ofString "A")) 8 0x1000,
    .setValueEx 3 name dwType 4096 cbData bufferMem,
    .queryValueEx 3 name 16 8192 32 bufferMem,
    .deleteKey hkeyCurrentUserWine (some (.ofString "A")),
    .queryValueEx 3 name 16 8192 32 bufferMem,
    .closeKey 3]

theorem calls_allowed_setAndQuery :
  (start.Fresh
      ∧ Along step (fun s c => s.1.Admits c) (start, .empty) (setAndQuery (.ofString "v") 4 12))
    ∧ Along step (fun s c => s.2.Allows (s.1.call c).1 c) (start, .empty)
      (setAndQuery (.ofString "v") 4 12)
  := by
  have hadmits :
      Along step (fun s c => s.1.Admits c) (start, .empty) (setAndQuery (.ofString "v") 4 12) := by
    decide +kernel
  exact ⟨⟨fresh_start, hadmits⟩, calls_allowed fresh_start hadmits⟩

def lastResult (calls : List RegCall) : Option RegResult :=
  calls.getLast?.map fun c => ((calls.dropLast.foldl step (start, .empty)).1.call c).1

/-- A set of type 0 with 513 bytes succeeds, and a query then returns the type 1 and 512 bytes.  A set
with a name of 128 bytes succeeds too, and a query then finds no value. -/
theorem set_not_read_back :
  ((lastResult ((setAndQuery (.ofString "v") 0 513).take 2)).map RegResult.code = some 0
      ∧ (lastResult ((setAndQuery (.ofString "v") 0 513).take 3)).map RegResult.code = some 0
      ∧ ((lastResult ((setAndQuery (.ofString "v") 0 513).take 3)).bind RegResult.mem).map
          (fun mem => (mem.readLE 16 4, mem.readLE 32 4)) = some (1, 512))
    ∧ (lastResult ((setAndQuery (.ofBytes (List.replicate 128 97)) 1 4).take 2)).map RegResult.code
        = some 0
    ∧ (lastResult ((setAndQuery (.ofBytes (List.replicate 128 97)) 1 4).take 3)).map RegResult.code
        = some errorFileNotFound
  := by
  decide +kernel

end Registry

end Advapi32
