import Mathlib.Data.List.Sort
import MyWine.SyscallSafeUtils
import MyWine.Loader.ImageMapper

/-!
# Jumps through the import address table

`pe_rip_scan.c` looks for the indirect jumps in the code section of an image and collects the RVAs
of the pointers that they jump through (`scanRipRelativeJumps`).  The code section is the first with
one of the usual names, or the first that has code and may be executed (`findCodeSection`).
-/

open Pe SyscallSafe

namespace Loader

def scnCntCode : UInt32 := 0x20

def maxThunkTargets : ℕ := 256

def sectionNamed (m : Bytes) (off : ℕ) (name : CString) : Bool :=
  ((List.range name.length).map fun i => asciiLower (m (off + i))) = name.bytes.map asciiLower &&
    m (off + name.length) = 0

def codeNames : List CString :=
  [.ofString ".text", .ofString "BEGTEXT", .ofString "TEXT", .ofString "CODE"]

def findCodeSection (nt : ImageNtHeaders) (img : Bytes) (table : ℕ) : Option ImageSectionHeader :=
  let headers := (List.range (peSectionCount nt)).map fun i => table + sizeofSectionHeader * i
  let named := codeNames.findSome? fun name => headers.find? fun off => sectionNamed img off name
  let executable := headers.find? fun off =>
    let flags := (readSectionHeader img off).characteristics
    flags &&& scnCntCode ≠ 0 && flags &&& scnMemExecute ≠ 0
  (named.or executable).map (readSectionHeader img)

/-- The smaller size of the section, where a virtual size of zero does not count. -/
def textLength (text : ImageSectionHeader) : ℕ :=
  if text.virtualSize = 0 ∨ text.sizeOfRawData < text.virtualSize then text.sizeOfRawData.toNat
  else text.virtualSize.toNat

/-- The RVA that the jump at `rva` reads. -/
def jumpTarget (nt : ImageNtHeaders) (base : Ptr) (img : Bytes) (rva : ℕ) : ℕ :=
  let disp := img.u32 (rva + 2)
  if peIsPe32 nt then (disp - UInt32.ofNat base).toNat
  else (((rva + 6 : ℤ) + disp.toInt32.toInt) % 2 ^ 64).toNat

/-- A jump, or a call of a 32-bit image, through a pointer. -/
def isJump (nt : ImageNtHeaders) (img : Bytes) (rva : ℕ) : Bool :=
  img rva = 0xFF && (img (rva + 1) = 0x25 || peIsPe32 nt && img (rva + 1) = 0x15)

/-- The pointer of a jump, if it lies in the image. -/
def scanAt (nt : ImageNtHeaders) (base : Ptr) (img : Bytes) (rva : ℕ) : Option ℕ :=
  let target := jumpTarget nt base img rva
  if isJump nt img rva && target < 2 ^ 32 &&
      peRvaRangeIsValid target (if peIsPe32 nt then 4 else 8) (peSizeOfImage nt) then some target
  else none

def scanRipJumps (nt : ImageNtHeaders) (base : Ptr) (img : Bytes) : List ℕ :=
  match findCodeSection nt img (getImageSections nt img) with
  | none => []
  | some text =>
    let start := text.virtualAddress.toNat
    let len := textLength text
    if 2 ^ 32 - 1 - len < start ∨ len < 6 ∨
        !peRvaRangeIsValid start len (peSizeOfImage nt) then []
    else (List.range (len - 5)).filterMap fun off => scanAt nt base img (start + off)

/-- A target is kept once, as long as there is room. -/
def collectTarget (maxTargets : ℕ) (targets : List ℕ) (target : ℕ) : List ℕ :=
  if target ∈ targets then targets
  else if targets.length < maxTargets then targets ++ [target]
  else targets

def scanRipRelativeJumps (nt : ImageNtHeaders) (base : Ptr) (img : Bytes) (maxTargets : ℕ) :
    List ℕ :=
  ((scanRipJumps nt base img).foldl (collectTarget maxTargets) []).insertionSort (· ≤ ·)

end Loader
