import MyWine.HandleManager
import MyWine.Lib.CString

/-!
# The registry

`msvcrt/advapi32_registry.c` keeps the values of all keys in the table `g_reg_values`, each with the
path of its key.  A key is an object that holds its path, and `keyAt` is what stands at an address
when it is read as a `wine_hkey`.  The C library is not modelled: two strings are compared by
equality, and a string that is copied to a buffer is cut to its size.
-/

namespace Advapi32

open HandleManager

def hkeyCurrentUserWine : ℕ := 0x80000001

def handleTypeHkey : UInt8 := 0x80

def regSz : ℕ := 1

def errorFileNotFound : ℕ := 2
def errorNotEnoughMemory : ℕ := 8
def errorMoreData : ℕ := 234

structure WineHkey where
  path : CString
  deriving DecidableEq

structure WineRegValue where
  path : CString
  name : CString
  type : ℕ
  data : Bytes
  size : ℕ
  used : Bool

def maxRegValues : ℕ := 64
def regPathSize : ℕ := 256
def regNameSize : ℕ := 128
def regDataSize : ℕ := 512

abbrev RegValues : Type := Fin maxRegValues → WineRegValue

def regCopyCstr (dstSize : ℕ) (src : Option CString) : CString :=
  (src.getD (.ofBytes [])).take (dstSize - 1)

def regFindValue (values : RegValues) (path : CString) (name : Option CString) :
    Option (Fin maxRegValues) :=
  Table.firstSlot fun i =>
    (values i).used && decide ((values i).path = path ∧ (values i).name = name.getD (.ofBytes []))

def newRegValue (path : CString) (name : Option CString) : WineRegValue where
  path := regCopyCstr regPathSize path
  name := regCopyCstr regNameSize name
  type := 0
  data _ := 0
  size := 0
  used := true

/-- `reg_ensure_value`: the slot of the value, which is a new one if the value was not there. -/
def regEnsureValue (values : RegValues) (path : CString) (name : Option CString) :
    Option (Fin maxRegValues × RegValues) :=
  match regFindValue values path name with
  | some i => some (i, values)
  | none =>
    (Table.firstSlot fun i => !(values i).used).map fun i =>
      (i, Function.update values i (newRegValue path name))

def keyObject (t : HandleTable) (hKey : ℕ) : Option Ptr :=
  let key := wineHandleGet t (hKey % 2 ^ 32)
  if key = 0 then none else some key

section

variable (t : HandleTable) (keyAt : Ptr → WineHkey) (values : RegValues) (hKey : ℕ)

def queriedKey : Option Ptr :=
  if hKey = hkeyCurrentUserWine then none else keyObject t hKey

/-- `RegQueryValueExA`: the error code, and the memory with the type, the size and the data. -/
def regQueryValueExA (lpValueName : Option CString) (lpType lpData lpcbData : Ptr) (mem : Bytes) :
    ℕ × Bytes :=
  match queriedKey t hKey with
  | none => (errorFileNotFound, mem)
  | some key =>
    match regFindValue values (keyAt key).path lpValueName with
    | none => (errorFileNotFound, mem)
    | some i =>
      let value := values i
      let mem := if lpType ≠ 0 then mem.writeLE lpType 4 value.type else mem
      if lpcbData = 0 then (0, mem)
      else if lpData = 0 ∨ mem.readLE lpcbData 4 < value.size then
        (errorMoreData, mem.writeLE lpcbData 4 value.size)
      else (0, (mem.copy lpData value.data 0 value.size).writeLE lpcbData 4 value.size)

def regSetValueExA (lpValueName : Option CString) (dwType : ℕ) (lpData : Ptr) (cbData : ℕ)
    (mem : Bytes) : ℕ × RegValues :=
  match keyObject t hKey with
  | none => (errorFileNotFound, values)
  | some key =>
    match regEnsureValue values (keyAt key).path lpValueName with
    | none => (errorNotEnoughMemory, values)
    | some (i, values) =>
      let cbData := if regDataSize < cbData then regDataSize else cbData
      let value := values i
      (0, Function.update values i
        { value with
          type := if dwType ≠ 0 then dwType else regSz
          data := if lpData ≠ 0 ∧ 0 < cbData then value.data.copy 0 mem lpData cbData
            else value.data
          size := cbData })

end

/-! ### Keys -/

/-- The handle table, the key objects and the values. -/
structure Registry where
  table : HandleTable
  keyAt : Ptr → WineHkey
  values : RegValues

/-- The prefix that `reg_join_path` starts with: the path of a key, or `HKCU` for any other handle. -/
def Registry.rootPath (s : Registry) (root : ℕ) : CString :=
  if root ≠ hkeyCurrentUserWine ∧ wineHandleGetType s.table (root % 2 ^ 32) = handleTypeHkey then
    let key := wineHandleGet s.table (root % 2 ^ 32)
    if key ≠ 0 then (s.keyAt key).path else .ofString "HKCU"
  else .ofString "HKCU"

/-- The loops of `reg_join_path`, which copy the prefix, a backslash and the subkey as long as there is
room. -/
def joinPath (pre : CString) (subkey : Option CString) (outSize : ℕ) : CString :=
  let out := pre.take (outSize - 1)
  match subkey with
  | none => out
  | some subkey =>
    let out :=
      if subkey.length ≠ 0 ∧ out.length + 1 < outSize then out.append (.ofString "\\") else out
    out.append (subkey.take (outSize - 1 - out.length))

def regJoinPath (s : Registry) (root : ℕ) (subkey : Option CString) (outSize : ℕ) : CString :=
  joinPath (s.rootPath root) subkey outSize

/-- `RegCreateKeyA`, where `key` is the result of `malloc`: the error code, what is stored at
`phkResult` unless it is `NULL`, and the registry after the call. -/
def regCreateKeyA (s : Registry) (hKey : ℕ) (lpSubKey : Option CString) (phkResult key : Ptr) :
    ℕ × Option ℕ × Registry :=
  let path := regJoinPath s hKey lpSubKey regPathSize
  if key = 0 then (errorNotEnoughMemory, none, s)
  else
    let s := { s with keyAt := Function.update s.keyAt key ⟨regCopyCstr regPathSize path⟩ }
    if phkResult = 0 then (0, none, s)
    else
      let (handle, table) := wineHandleAlloc s.table handleTypeHkey key
      (0, some handle, { s with table })

def regOpenKeyA (s : Registry) (hKey : ℕ) (lpSubKey : Option CString) (phkResult key : Ptr) :
    ℕ × Option ℕ × Registry :=
  regCreateKeyA s hKey lpSubKey phkResult key

def regCloseKey (s : Registry) (hKey : ℕ) : ℕ × Registry :=
  let handle := hKey % 2 ^ 32
  if handle ≠ 0 ∧ hKey ≠ hkeyCurrentUserWine
      ∧ wineHandleGetType s.table handle = handleTypeHkey then
    (0, { s with table := wineHandleFree s.table handle })
  else (0, s)

def WineRegValue.cleared : WineRegValue := ⟨.ofBytes [], .ofBytes [], 0, fun _ => 0, 0, false⟩

def regDeleteKeyA (s : Registry) (hKey : ℕ) (lpSubKey : Option CString) : ℕ × Registry :=
  let path := regJoinPath s hKey lpSubKey regPathSize
  (0, { s with
    values := fun i =>
      if (s.values i).used && decide ((s.values i).path = path) then .cleared else s.values i })

end Advapi32
