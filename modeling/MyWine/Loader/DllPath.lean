import MyWine.Loader.DllLoader

/-!
# The path of a DLL

`find_dll_path` of `loader/dll_path.c` looks for the file of a DLL.  A name with a separator is
taken as a path, and any other name is looked for in the current directory, in the directory of the
main image and in the directories of `WINE_DLL_PATH`.  A name without an extension is also tried
with `.dll`, and every name is also tried in upper case.
-/

open SyscallSafe

namespace Loader

/-- What the search depends on: the files that can be opened, the path of the main image and
`WINE_DLL_PATH`. -/
structure DllSearch where
  pathExists : CString → Bool
  pePath : CString
  wineDllPath : CString

def dllPathSize : ℕ := 512

def dllNameHasExtension (dllName : CString) : Bool := dllName.bytes.contains 0x2E

def dllNameHasPathSeparator (dllName : CString) : Bool :=
  dllName.bytes.contains 0x2F || dllName.bytes.contains 0x5C

def asciiUpper (c : UInt8) : UInt8 := if 97 ≤ c ∧ c ≤ 122 then c - 32 else c

def dllAsciiUpperCopy (dstSize : ℕ) (src : CString) : CString :=
  .ofBytes ((src.bytes.take (dstSize - 1)).map asciiUpper)

def dirPart (path : CString) : List UInt8 := (path.bytes.reverse.dropWhile (· ≠ 0x2F)).reverse

def upperBase (path : CString) : CString :=
  .ofBytes (dirPart path ++ (dllBaseName path).bytes.map asciiUpper)

def tryUpper (fs : DllSearch) (candidate upper : CString) : Option CString :=
  if fs.pathExists candidate then some candidate
  else if upper ≠ candidate ∧ fs.pathExists upper then some upper
  else none

def tryDllExplicitPath (fs : DllSearch) (dllName : CString) : Option CString :=
  let candidate := copyStr dllName dllPathSize
  let dll := CString.append candidate (.ofString ".dll")
  let upperDll := CString.append candidate (.ofString ".DLL")
  (tryUpper fs candidate (upperBase candidate)).or
    (if dllNameHasExtension dllName then none
    else if dllPathSize ≤ candidate.length + 4 then none
    else
      (tryUpper fs dll (upperBase dll)).or
        (if fs.pathExists upperDll then some upperDll else none))

def buildPath (dir name : CString) : Option CString :=
  if dllPathSize < dir.length + 1 + name.length + 1 then none
  else some (CString.append (CString.append dir (.ofString "/")) name)

def tryInDir (fs : DllSearch) (dir name : CString) : Option CString :=
  (buildPath dir name).filter fun path => fs.pathExists path

def tryDllCandidateInDir (fs : DllSearch) (dir dllName : CString) : Option CString :=
  let upperName := dllAsciiUpperCopy 128 dllName
  (tryInDir fs dir dllName).or
    (if upperName ≠ dllName then tryInDir fs dir upperName else none)

def exeDir (pePath : CString) : CString :=
  let dir := (dirPart pePath).dropLast
  if dir = [] then .ofString "." else .ofBytes (dir.take 511)

def pathSegments (wineDllPath : CString) : List CString :=
  let segments := (copyStr wineDllPath 1024).bytes.splitOn 0x3B
  let segments := if segments.getLast? = some [] then segments.dropLast else segments
  (segments.take 32).map .ofBytes

def dllCandidates (dllName : CString) : List CString :=
  if !dllNameHasExtension dllName ∧ dllName.length + 4 < 128 then
    [dllName, CString.append dllName (.ofString ".dll")]
  else [dllName]

def dllDirs (fs : DllSearch) : List CString :=
  .ofString "." ::
    ((if exeDir fs.pePath = .ofString "." then [] else [exeDir fs.pePath]) ++
      pathSegments fs.wineDllPath)

def findDllPath (fs : DllSearch) (dllName : CString) : Option CString :=
  if dllNameHasPathSeparator dllName then tryDllExplicitPath fs dllName
  else
    (dllDirs fs).findSome? fun dir =>
      (dllCandidates dllName).findSome? fun name => tryDllCandidateInDir fs dir name

end Loader
