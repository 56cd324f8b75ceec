import MyWine.Kernel32.FileEnumeration

/-!
# The buffer of a resolved path

`wine_resolve_path` of `msvcrt/kernel32_path.c` stops to copy when its buffer is full, and returns `1`
all the same.  After a current directory that fills the buffer it still appends a slash, so that the
terminating `NUL` is behind the buffer.  The call keeps to its buffer and returns a complete path if
and only if this path fits (`wineResolvePath_inBuffer_iff`).
-/

namespace Kernel32

open List

/-- A call of `wine_resolve_path` for a buffer of `size` bytes: the result, and the bytes that are
written with their indices in the buffer. -/
def resolveInto (cwd src : CString) (size : ℕ) : Bool × List (UInt8 × ℕ) :=
  if size < 2 then (false, [])
  else (true, ((wineResolvePath cwd src size).bytes ++ [0]).zipIdx)

def completePath (cwd src : CString) : CString :=
  wineResolvePath cwd src (cwd.length + src.length + 3)

/-- What is expected of a call: it writes into its buffer, where it puts a terminating `NUL`, and
returns `1` only if the buffer has the complete path. -/
structure InBuffer (cwd src : CString) (size : ℕ) (r : Bool × List (UInt8 × ℕ)) : Prop where
  writes : ∀ w ∈ r.2, w.2 < size
  terminated : ∃ i < size, (0, i) ∈ r.2
  complete : r.1 = true → r.2 = ((completePath cwd src).bytes ++ [0]).zipIdx

section

variable {cwd src : CString} {size big : ℕ}

theorem copyPath_of_fits {src dst : List UInt8} (hbig : dst.length + src.length < big)
    (hfits : (copyPath big src dst).length < size) :
  copyPath size src dst = copyPath big src dst
  := by
  induction src generalizing dst with
  | nil => rfl
  | cons c src ih =>
    rw [length_cons] at hbig
    by_cases hroom : dst.length + 1 < size
    · simp only [copyPath, hroom, show dst.length + 1 < big by omega, if_true] at hfits ⊢
      generalize (if c = 92 then 47 else c) = ch at hfits ⊢
      split_ifs at hfits ⊢
      · apply ih _ hfits
        omega
      · apply ih _ hfits
        rw [length_append, length_singleton]
        omega
    · -- The rest of the source has only slashes, which are left out.
      rw [copyPath, if_neg hroom]
      apply (copyPath_start big (c :: src) dst).eq_of_length_le
      omega

/-- The path is what the loop appends to the root or to the current directory, if there is room for
the latter. -/
theorem exists_copyPath (cwd src : CString) :
  ∃ rest dst, 0 ∉ rest ∧ 0 ∉ dst ∧ dst.length + rest.length < cwd.length + src.length + 3 ∧
    ∀ size, dst.length < size → wineResolvePath cwd src size = .ofBytes (copyPath size rest dst)
  := by
  simp only [wineResolvePath_eq]
  cases hroot : afterRoot src.bytes with
  | some rest =>
    have hsuffix := suffix_of_afterRoot hroot
    have hle := hsuffix.length_le
    refine ⟨rest, [47], fun hmem => src.zero_notMem (hsuffix.subset hmem), by decide, ?_, ?_⟩
    · rw [length_singleton, CString.length, CString.length]
      omega
    · intro size _
      rfl
  | none =>
    refine ⟨src.bytes, if cwd.bytes.getLast? = some 47 then cwd.bytes else cwd.bytes ++ [47],
      src.zero_notMem, ?_, ?_, ?_⟩
    · split
      · apply cwd.zero_notMem
      · simp [cwd.zero_notMem]
    · rw [CString.length, CString.length]
      split
      · omega
      · rw [length_append, length_singleton]
        omega
    · intro size hlt
      have hle : cwd.bytes.length ≤ size - 1 := by
        split at hlt
        · omega
        · rw [length_append] at hlt
          omega
      simp only [wineResolvePath.relative, take_of_length_le hle]

theorem wineResolvePath_of_fits (h : (completePath cwd src).length < size) :
  wineResolvePath cwd src size = completePath cwd src
  := by
  obtain ⟨rest, dst, hrest, hdst, hbig, heq⟩ := exists_copyPath cwd src
  have hcomplete : completePath cwd src = .ofBytes (copyPath _ rest dst) := heq _ (by omega)
  rw [hcomplete, CString.length, CString.ofBytes_bytes (copyPath_spec _ _ _ hrest hdst).2] at h
  have hle := (copyPath_start (cwd.length + src.length + 3) rest dst).length_le
  rw [hcomplete, heq size (by omega), copyPath_of_fits hbig h]

/-- A call keeps to its buffer and returns a complete path if and only if this path fits. -/
theorem wineResolvePath_inBuffer_iff (cwd src : CString) (size : ℕ) (hsize : 2 ≤ size) :
  InBuffer cwd src size (resolveInto cwd src size) ↔ (completePath cwd src).length < size
  := by
  rw [resolveInto, if_neg (not_lt.mpr hsize)]
  constructor
  · rintro ⟨hwrites, -, hcomplete⟩
    apply hwrites (0, (completePath cwd src).length)
    rw [hcomplete rfl, mk_mem_zipIdx_iff_getElem?]
    apply getElem?_concat_length
  · intro hfits
    rw [wineResolvePath_of_fits hfits]
    refine ⟨?_, ⟨_, hfits, ?_⟩, fun _ => rfl⟩
    · intro w hw
      have hlt := (snd_lt_of_mem_zipIdx hw)
      rw [length_append, length_singleton] at hlt
      apply lt_of_lt_of_le hlt hfits
    · rw [mk_mem_zipIdx_iff_getElem?]
      apply getElem?_concat_length

end

/-- The path `/a`. -/
theorem resolveInto_fits :
  InBuffer (.ofString "/") (.ofString "a") 3 (resolveInto (.ofString "/") (.ofString "a") 3)
  :=
  (wineResolvePath_inBuffer_iff _ _ 3 (by decide)).mpr (by decide +kernel)

/-- With the current directory `/ab`, a buffer of four bytes gets a fifth one. -/
theorem resolveInto_overflows :
  (resolveInto (.ofString "/ab") (.ofString "c") 4).1 = true ∧
    (0, 4) ∈ (resolveInto (.ofString "/ab") (.ofString "c") 4).2
  := by
  decide +kernel

end Kernel32
