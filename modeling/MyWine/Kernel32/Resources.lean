import MyWine.Lib.Region
import MyWine.Lib.Trace
import MyWine.Pe.Headers

/-!
# Resources

`wine_resource_find` of `msvcrt/resource_win32.c`.  The resources of an image form a tree of three
levels, of directories of types, of names and of languages, and everything in it is found by offsets
from its root.  A query is a pointer: below `2 ^ 16` it is an id, and otherwise the address of a string.

The lookup is a computation whose trace is the memory it reads, as a part of the directory or as a part
of a query.
-/

open Pe

namespace Resource

/-- A range of memory that is read, for the directory or for a query. -/
inductive Access where
  | directory (r : Region)
  | query (r : Region)
  deriving DecidableEq

abbrev Reads (α : Type) : Type := Traced Access α

variable (b : Build) (m : Bytes)

def queryByte (a : ℕ) : Reads UInt8 := ⟨m a, [.query ⟨a, 1⟩]⟩

def directoryU16 (a : ℕ) : Reads ℕ := ⟨m.readLE a 2, [.directory ⟨a, 2⟩]⟩

def directoryU32 (a : ℕ) : Reads ℕ := ⟨m.readLE a 4, [.directory ⟨a, 4⟩]⟩

/-! ### Queries -/

/-- The loop of `wine_resource_ascii_eq_utf16`, with the number of characters that are left. -/
def asciiEqUtf16 (ascii wide : ℕ) : ℕ → Reads Bool
  | 0 => do
    let ch ← queryByte m ascii
    pure (ch = 0)
  | n + 1 => do
    let ch ← queryByte m ascii
    if ch = 0 then pure false
    else
      let w ← directoryU16 m wide
      if 0x7f < w ∨ ch.toNat ≠ w then pure false
      else asciiEqUtf16 (ascii + 1) (wide + 2) n

def matchesLiteral (p : ℕ) : List UInt8 → Reads Bool
  | [] => pure true
  | c :: cs => do
    let ch ← queryByte m p
    if ch = c then matchesLiteral (p + 1) cs else pure false

/-- The loop that reads the decimal digits after `#`.  The first argument bounds the number of rounds. -/
def parseDigits : ℕ → ℕ → ℕ → Reads ℕ
  | 0, _, value => pure value
  | n + 1, p, value => do
    let ch ← queryByte m p
    if 48 ≤ ch ∧ ch ≤ 57 then parseDigits n (p + 1) ((value * 10 + (ch.toNat - 48)) % 2 ^ 32)
    else pure value

/-- The bytes of `DIALOG`, `STRING`, `GROUP_ICON` and `VERSION` with their terminating `NUL`, and the
types they stand for. -/
def builtinTypes : List (List UInt8 × ℕ) := [
  ([68, 73, 65, 76, 79, 71, 0], 5),
  ([83, 84, 82, 73, 78, 71, 0], 6),
  ([71, 82, 79, 85, 80, 95, 73, 67, 79, 78, 0], 14),
  ([86, 69, 82, 83, 73, 79, 78, 0], 16)]

def builtinTypeNamed (type : ℕ) : List (List UInt8 × ℕ) → Reads ℕ
  | [] => pure 0
  | (literal, id) :: rest => do
    if ← matchesLiteral m type literal then pure id else builtinTypeNamed type rest

def builtinType (type : ℕ) : Reads ℕ := do
  if type = 0 then pure 0
  else
    let ch ← queryByte m type
    if ch = 35 then parseDigits m b.ptrLimit (type + 1) 0
    else builtinTypeNamed m type builtinTypes

def typeQuery (type : ℕ) : Reads ℕ := do
  if type ≠ 0 ∧ type / 2 ^ 16 ≠ 0 then
    let id ← builtinType b m type
    pure (if id ≠ 0 then id else type)
  else pure type

/-! ### Directories -/

/-- `sizeof(IMAGE_RESOURCE_DIRECTORY_WINE)`, `sizeof(IMAGE_RESOURCE_DIRECTORY_ENTRY_WINE)` and
`sizeof(IMAGE_RESOURCE_DATA_ENTRY_WINE)`. -/
def sizeofDirectory : ℕ := 16
def sizeofEntry : ℕ := 8
def sizeofDataEntry : ℕ := 16

section

variable (root rootSize : ℕ)

def nameMatches (query entry : ℕ) : Reads Bool := do
  if query = 0 then pure false
  else
    let name ← directoryU32 m entry
    if query / 2 ^ 16 = 0 then pure (name < 2 ^ 31 ∧ name % 2 ^ 16 = query)
    else if name < 2 ^ 31 then pure false
    else
      let nameRva := name % 2 ^ 31
      if rootSize < nameRva + 2 then pure false
      else
        let nameLen ← directoryU16 m (b.wrap (root + nameRva))
        if rootSize < nameRva + 2 + nameLen * 2 then pure false
        else asciiEqUtf16 m query (b.wrap (root + nameRva + 2)) nameLen

def entryCount (dir : ℕ) : Reads ℕ := do
  let named ← directoryU16 m (b.wrap (dir + 12))
  let ids ← directoryU16 m (b.wrap (dir + 14))
  pure ((named + ids) % 2 ^ 16)

def entryAt (dir : ℕ) (i : ℕ) : ℕ := b.wrap (dir + sizeofDirectory + sizeofEntry * i)

def findEntry (dir query : ℕ) : Reads (Option ℕ) := do
  let total ← entryCount b m dir
  Traced.first (fun i => nameMatches b m root rootSize query (entryAt b dir i)) 0 total

/-- The directory that an entry points to: the test of the high bit and the offset from the root. -/
def subdirectory (dir query : ℕ) : Reads (Option ℕ) := do
  match ← findEntry b m root rootSize dir query with
  | none => pure none
  | some i =>
    let offset ← directoryU32 m (b.wrap (entryAt b dir i + 4))
    pure (if offset < 2 ^ 31 then none else some (offset % 2 ^ 31))

/-- The data entry of the first language in the directory at the offset `lang`: its RVA and its size. -/
def dataEntry (lang : ℕ) : Reads (Option (ℕ × ℕ)) := do
  let langDir := b.wrap (root + lang)
  if b.wrap (root + rootSize) < b.wrap (langDir + sizeofDirectory + sizeofEntry) then pure none
  else
    let named ← directoryU16 m (b.wrap (langDir + 12))
    let ids ← directoryU16 m (b.wrap (langDir + 14))
    if named + ids = 0 then pure none
    else
      let offset ← directoryU32 m (b.wrap (langDir + sizeofDirectory + 4))
      if 2 ^ 31 ≤ offset then pure none
      else
        let entry := b.wrap (root + offset)
        if b.wrap (root + rootSize) < b.wrap (entry + sizeofDataEntry) then pure none
        else
          let rva ← directoryU32 m entry
          let size ← directoryU32 m (b.wrap (entry + 4))
          pure (some (rva, size))

def findData (type name : ℕ) : Reads (Option (ℕ × ℕ)) := do
  let query ← typeQuery b m type
  match ← subdirectory b m root rootSize root query with
  | none => pure none
  | some nameDir =>
    match ← subdirectory b m root rootSize (b.wrap (root + nameDir)) name with
    | none => pure none
    | some langDir => dataEntry b m root rootSize langDir

end

/-! ### Modules -/

/-- What the loader knows of the modules: the base of the program, its headers if it is loaded, and
`find_module_by_addr`. -/
structure Modules where
  imageBase : ℕ
  mainNt : Option ImageNtHeaders
  findModuleByAddr : ℕ → Option ImageNtHeaders

def directoryEntryResource : Fin 16 := ⟨2, by decide⟩

def Modules.find (l : Modules) (hModule : ℕ) : Option (ℕ × ImageNtHeaders) :=
  let base := if hModule = 0 then l.imageBase else hModule
  let nt :=
    if hModule = 0 then l.mainNt
    else
      match l.findModuleByAddr base with
      | some nt => some nt
      | none => if base = l.imageBase then l.mainNt else none
  if base = 0 then none else nt.map (base, ·)

def resourceDirectory (nt : ImageNtHeaders) : ImageDataDirectory :=
  nt.optionalHeader.dataDirectory directoryEntryResource

/-- `wine_resource_get_root`: the base, the headers, and the RVA and the size of the directory. -/
def getRoot (l : Modules) (hModule : ℕ) : Option (ℕ × ImageNtHeaders × ℕ × ℕ) :=
  match l.find hModule with
  | none => none
  | some (base, nt) =>
    let dir := resourceDirectory nt
    if dir.virtualAddress = 0 ∨ dir.size.toNat < sizeofDirectory then none
    else if !peRvaRangeIsValid dir.virtualAddress.toNat dir.size.toNat (peSizeOfImage nt) then none
    else some (base, nt, dir.virtualAddress.toNat, dir.size.toNat)

/-- `wine_resource_find`, where `mem` tells whether `malloc` succeeds: the data pointer and the size that
the handle gets.  The query for the type is made before the root is known. -/
def wineResourceFind (l : Modules) (mem : Bool) (hModule type name : ℕ) :
    Reads (Option (ℕ × ℕ)) := do
  match getRoot l hModule with
  | none =>
    let _ ← typeQuery b m type
    pure none
  | some (base, nt, rva, size) =>
    match ← findData b m (base + rva) size type name with
    | none => pure none
    | some (dataRva, dataSize) =>
      if mem = false then pure none
      else if !peRvaRangeIsValid dataRva dataSize (peSizeOfImage nt) then pure none
      else pure (some (base + dataRva, dataSize))

end Resource
