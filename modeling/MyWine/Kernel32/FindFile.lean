import MyWine.HandleManager
import MyWine.Lib.CString

/-!
# Enumeration of files

`FindNextFileA` of `msvcrt/kernel32_file.c`, `FindFirstFileA` and `FindClose` of
`msvcrt/launcher_kernel32_stubs.c`, and `wine_resolve_path` of `msvcrt/kernel32_path.c`.
A find handle holds a `wine_find_handle`, and `findAt` is what stands at an address when it is read
as one.  An open directory is the list of the names that `readdir` has not returned yet.
-/

namespace Kernel32

open HandleManager Function

def handleTypeHglobal : UInt8 := 0x73

structure WineFindHandle where
  dir : Ptr
  directory : CString
  pattern : CString
  deriving DecidableEq

/-- What `stat` says about a file. -/
structure FileStat where
  isDir : Bool
  size : ℕ

/-- The fields of `WIN32_FIND_DATAA_WINE` that are not zero. -/
structure FindData where
  dwFileAttributes : ℕ
  nFileSizeHigh : ℕ
  nFileSizeLow : ℕ
  cFileName : CString
  deriving DecidableEq

def fileAttributeDirectory : ℕ := 0x10
def fileAttributeNormal : ℕ := 0x80

/-- The find handles by their addresses, the names left in the open directories, and what has been
closed and freed. -/
structure FindState where
  handles : HandleTable
  findAt : Ptr → WineFindHandle
  entries : Ptr → List CString
  closedDirs : List Ptr
  freed : List Ptr

def foldCase (c : UInt8) : UInt8 := c ||| 32

/-- The loop of `FindNextFileA` over a pattern: whether the pattern matched, whether it had a star,
and what is left of the text. -/
def matchLoop (star : Bool) : List UInt8 → List UInt8 → Bool × Bool × List UInt8
  | [], text => (true, star, text)
  | c :: pattern, text =>
    if c = 42 then
      match pattern with
      | [] => (true, true, text)
      | d :: _ => matchLoop true pattern (text.dropWhile fun e => foldCase d ≠ foldCase e)
    else
      match text with
      | [] => (false, star, [])
      | e :: text' =>
        if c ≠ 63 ∧ foldCase c ≠ foldCase e then (false, star, text)
        else matchLoop star pattern text'

def entryMatches (pattern name : CString) : Bool :=
  let (matched, star, text) := matchLoop false pattern.bytes name.bytes
  matched && (star || text.isEmpty)

def fullPath (directory name : CString) : CString where
  bytes := (directory.bytes ++ 47 :: name.bytes).take 1399
  zero_notMem h := by
    have h := List.mem_of_mem_take h
    simp only [List.mem_append, List.mem_cons] at h
    rcases h with h | h | h
    · apply directory.zero_notMem h
    · revert h
      decide
    · apply name.zero_notMem h

section

variable (stat : CString → Option FileStat)

def findData (name : CString) (st : FileStat) : FindData where
  dwFileAttributes := if st.isDir then fileAttributeDirectory else fileAttributeNormal
  nFileSizeHigh := st.size / 2 ^ 32 % 2 ^ 32
  nFileSizeLow := st.size % 2 ^ 32
  cFileName := name.take 259

/-- The loop of `FindNextFileA`: the first of the names that matches and has a status, and the names
after it. -/
def nextEntry (find : WineFindHandle) : List CString → Option FindData × List CString
  | [] => (none, [])
  | name :: names =>
    if entryMatches find.pattern name then
      match stat (fullPath find.directory name) with
      | none => nextEntry find names
      | some st => (some (findData name st), names)
    else nextEntry find names

def findObject (t : HandleTable) (hFindFile : ℕ) : Option Ptr :=
  if wineHandleGetType t (hFindFile % 2 ^ 32) ≠ handleTypeHglobal then none
  else
    let find := wineHandleGet t (hFindFile % 2 ^ 32)
    if find = 0 then none else some find

/-- `FindNextFileA`: what is stored at `lpFindFileData`, or `none` if the result is zero, and the
state after the call. -/
def findNextFileA (hFindFile : ℕ) (lpFindFileData : Ptr) (s : FindState) :
    Option FindData × FindState :=
  if lpFindFileData = 0 then (none, s)
  else
    match findObject s.handles hFindFile with
    | none => (none, s)
    | some find =>
      let find := s.findAt find
      if find.dir = 0 then (none, s)
      else
        let (data, names) := nextEntry stat find (s.entries find.dir)
        (data, { s with entries := update s.entries find.dir names })

end

def closeFind (s : FindState) (obj : Ptr) : FindState :=
  let dir := (s.findAt obj).dir
  { s with
    closedDirs := if dir ≠ 0 then dir :: s.closedDirs else s.closedDirs
    freed := obj :: s.freed }

def findClose (hFindFile : ℕ) (s : FindState) : Bool × FindState :=
  if wineHandleGetType s.handles (hFindFile % 2 ^ 32) ≠ handleTypeHglobal then (false, s)
  else
    let s := match findObject s.handles hFindFile with
      | none => s
      | some obj => closeFind s obj
    (true, { s with handles := wineHandleFree s.handles (hFindFile % 2 ^ 32) })

/-! ### `FindFirstFileA` -/

/-- `struct dirent`: the name of an entry, and the memory behind its terminating `NUL`. -/
structure Dirent where
  name : CString
  rest : List UInt8
  name_length : name.length ≤ 255
  slash_notMem : 47 ∉ name.bytes
  deriving DecidableEq

def Dirent.text (d : Dirent) : List UInt8 := d.name.bytes ++ 0 :: d.rest

def tailsToNul : List UInt8 → List (List UInt8)
  | [] => [[]]
  | c :: text => (c :: text) :: if c = 0 then [] else tailsToNul text

/-- `wildcard_match_ci`.  The text is the memory from a pointer on, with a `NUL` at its end. -/
def wildcardMatchCi : List UInt8 → List UInt8 → Bool
  | [], text => text.headD 0 = 0
  | c :: pattern, text =>
    if c = 42 then
      if pattern = [] then true else (tailsToNul text).any fun text => wildcardMatchCi pattern text
    else if c = 63 then text.headD 0 ≠ 0 && wildcardMatchCi pattern text.tail
    else if foldCase c ≠ foldCase (text.headD 0) then false
    else wildcardMatchCi pattern text.tail

def splitLastSlash (path : CString) : Option (CString × CString) :=
  if 47 ∈ path.bytes then
    let name := (path.bytes.reverse.takeWhile (· ≠ 47)).reverse
    some (path.take (path.length - name.length - 1), .ofBytes name)
  else none

/-- The loop of `wine_resolve_path` over the source: backslashes become slashes, and of several slashes
in a row one is kept. -/
def copyPath (size : ℕ) : List UInt8 → List UInt8 → List UInt8
  | [], dst => dst
  | c :: src, dst =>
    if dst.length + 1 < size then
      let ch := if c = 92 then 47 else c
      if ch = 47 ∧ dst.getLast? = some 47 then copyPath size src dst
      else copyPath size src (dst ++ [ch])
    else dst

def isSlash (c : UInt8) : Bool := c = 47 ∨ c = 92

def wineResolvePath (cwd src : CString) (size : ℕ) : CString :=
  .ofBytes <|
    match src.bytes with
    | _ :: 58 :: src =>
      let src := match src with
        | c :: rest => if isSlash c then rest else src
        | [] => src
      copyPath size src [47]
    | c :: rest =>
      if isSlash c then copyPath size ((c :: rest).dropWhile isSlash) [47]
      else relative (c :: rest)
    | [] => relative []
where
  /-- A path from the current directory on. -/
  relative (src : List UInt8) : List UInt8 :=
    let dst := cwd.bytes.take (size - 1)
    let dst := if dst.getLast? = some 47 then dst else dst ++ [47]
    copyPath size src dst

def fillFindData (resolvedPath : CString) (st : FileStat) : FindData :=
  let name := match splitLastSlash resolvedPath with
    | some (_, name) => name
    | none => resolvedPath
  findData name st

def resolvedSize : ℕ := 1024
def patternSize : ℕ := 260

def hasWildcard (lpFileName : CString) : Bool := 42 ∈ lpFileName.bytes ∨ 63 ∈ lpFileName.bytes

section

variable (stat : CString → Option FileStat) (opendir : CString → Option (Ptr × List Dirent))

def findHandleNextMatch (directory pattern : CString) :
    List Dirent → Option (FindData × List Dirent)
  | [] => none
  | d :: entries =>
    if wildcardMatchCi pattern.bytes d.text then
      match stat (fullPath directory d.name) with
      | none => findHandleNextMatch directory pattern entries
      | some st => some (fillFindData (fullPath directory d.name) st, entries)
    else findHandleNextMatch directory pattern entries

/-- `FindFirstFileA`, where `find` is the result of `calloc`: the handle and what is stored at
`lpFindFileData`, or `none` if the result is `INVALID_HANDLE_VALUE`, and the state after the call. -/
def findFirstFileA (cwd : CString) (find : Ptr) (lpFileName : Option CString) (lpFindFileData : Ptr)
    (s : FindState) : Option (ℕ × FindData) × FindState :=
  match lpFileName with
  | none => (none, s)
  | some lpFileName =>
    if lpFindFileData = 0 then (none, s)
    else
      let resolved := wineResolvePath cwd lpFileName resolvedSize
      let failed := { s with freed := find :: s.freed }
      if find = 0 then (none, s)
      else if hasWildcard lpFileName then
        match splitLastSlash resolved with
        | none => (none, failed)
        | some (directory, name) =>
          let pattern := name.take (patternSize - 1)
          match opendir directory with
          | none => (none, failed)
          | some (dir, entries) =>
            let closed := { failed with closedDirs := dir :: s.closedDirs }
            match findHandleNextMatch stat directory pattern entries with
            | none => (none, closed)
            | some (data, entries) =>
              let (handle, handles) := wineHandleAlloc s.handles handleTypeHglobal find
              if handle = 0 then (none, closed)
              else
                (some (handle, data),
                  { s with
                    handles := handles
                    findAt := update s.findAt find ⟨dir, directory, pattern⟩
                    entries := update s.entries dir (entries.map Dirent.name) })
      else
        match stat resolved with
        | none => (none, failed)
        | some st =>
          let (handle, handles) := wineHandleAlloc s.handles handleTypeHglobal find
          if handle = 0 then (none, failed)
          else
            (some (handle, fillFindData resolved st),
              { s with
                handles := handles
                findAt := update s.findAt find ⟨0, resolved, .ofBytes []⟩ })

def findNextFiles (hFindFile : ℕ) (lpFindFileData : Ptr) : ℕ → FindState → List FindData
  | 0, _ => []
  | n + 1, s =>
    match findNextFileA stat hFindFile lpFindFileData s with
    | (none, _) => []
    | (some data, s) => data :: findNextFiles hFindFile lpFindFileData n s

def findFiles (cwd : CString) (find : Ptr) (lpFileName : CString) (lpFindFileData : Ptr) (n : ℕ)
    (s : FindState) : List FindData :=
  match findFirstFileA stat opendir cwd find lpFileName lpFindFileData s with
  | (none, _) => []
  | (some (handle, data), s) => data :: findNextFiles stat handle lpFindFileData n s

end

end Kernel32
