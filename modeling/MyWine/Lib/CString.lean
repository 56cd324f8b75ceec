import Mathlib.Data.List.TakeWhile
import MyWine.Lib.Bytes

/-!
# C strings

A C string is the list of the bytes before its terminating `NUL`, so that none of them is zero.
`CString.ofBytes` cuts a list of bytes at its first `NUL`, and `CString.ofString` is the string of
an ASCII literal.  `Bytes.cstr m a n` is the string in a memory from `a` on, read up to a `NUL` or
for `n` bytes; it depends only on its own bytes (`Bytes.cstr_congr`).
-/

/-- The bytes of a C string, without the terminating `NUL`. -/
structure CString where
  bytes : List UInt8
  zero_notMem : 0 ∉ bytes
  deriving DecidableEq

namespace CString

open List

@[ext]
theorem ext {s t : CString} (h : s.bytes = t.bytes) :
  s = t
  := by
  cases s
  cases t
  congr

/-- The bytes of `l` before the first `NUL`. -/
def ofBytes (l : List UInt8) : CString where
  bytes := l.takeWhile (· != 0)
  zero_notMem h := by simpa using mem_takeWhile_imp h

/-- The string of an ASCII literal. -/
def ofString (s : String) : CString :=
  ofBytes (s.toList.map fun c => UInt8.ofNat c.toNat)

/-- The first `n` bytes of a string. -/
def take (n : ℕ) (s : CString) : CString where
  bytes := s.bytes.take n
  zero_notMem h := s.zero_notMem (mem_of_mem_take h)

/-- Two strings one after the other. -/
def append (s t : CString) : CString where
  bytes := s.bytes ++ t.bytes
  zero_notMem := by simp [s.zero_notMem, t.zero_notMem]

/-- The number of bytes of a string. -/
def length (s : CString) : ℕ := s.bytes.length

@[simp]
theorem take_length (s : CString) (n : ℕ) :
  (s.take n).length = min n s.length
  := length_take

theorem ofBytes_bytes {l : List UInt8} (h : 0 ∉ l) :
  (ofBytes l).bytes = l
  := by
  rw [ofBytes, takeWhile_eq_self_iff]
  intro c hc
  rw [bne_iff_ne]
  rintro rfl
  exact h hc

theorem take_of_length_le {s : CString} {n : ℕ} (h : s.length ≤ n) :
  s.take n = s
  := ext (List.take_of_length_le h)

end CString

namespace Bytes

/-- The bytes from `a` on before the first `NUL`, at most `n` of them. -/
def cstrBytes (m : Bytes) (a : ℕ) : ℕ → List UInt8
  | 0 => []
  | n + 1 => if m a = 0 then [] else m a :: cstrBytes m (a + 1) n

/-- There is a `NUL` among the `n` bytes from `a` on. -/
def hasNul (m : Bytes) (a : ℕ) : ℕ → Bool
  | 0 => false
  | n + 1 => if m a = 0 then true else hasNul m (a + 1) n

theorem zero_notMem_cstrBytes (m : Bytes) (a n : ℕ) :
  0 ∉ cstrBytes m a n
  := by
  induction n generalizing a with
  | zero => simp [cstrBytes]
  | succ n ih =>
    rw [cstrBytes]
    split_ifs with h
    · simp
    · rw [List.mem_cons, not_or]
      exact ⟨fun h0 => h h0.symm, ih (a + 1)⟩

/-- The string from `a` on, read up to a `NUL` or for `n` bytes. -/
def cstr (m : Bytes) (a n : ℕ) : CString := ⟨cstrBytes m a n, zero_notMem_cstrBytes m a n⟩

/-- A string that ends has fewer bytes than were read. -/
theorem cstr_length_lt {m : Bytes} {a n : ℕ} (h : hasNul m a n = true) :
  (cstr m a n).length < n
  := by
  induction n generalizing a with
  | zero => cases h
  | succ n ih =>
    by_cases hzero : m a = 0
    · simp [cstr, cstrBytes, CString.length, hzero]
    · rw [hasNul, if_neg hzero] at h
      have hlt := ih h
      simp only [cstr, CString.length] at hlt
      simp only [cstr, cstrBytes, CString.length, hzero, if_false, List.length_cons]
      omega

/-- Of a string that ends, one byte more than another one has tells whether the two are the same. -/
theorem cstr_eq_iff {m : Bytes} {a n : ℕ} (h : hasNul m a n = true) {s : CString} :
  cstr m a n = s ↔ cstr m a (s.length + 1) = s
  := by
  have hbytes (l : List UInt8) : cstrBytes m a n = l ↔ cstrBytes m a (l.length + 1) = l := by
    induction n generalizing a l with
    | zero => cases h
    | succ n ih =>
      by_cases hzero : m a = 0
      · rw [cstrBytes, cstrBytes, if_pos hzero, if_pos hzero]
      · rw [hasNul, if_neg hzero] at h
        rw [cstrBytes, cstrBytes, if_neg hzero, if_neg hzero]
        cases l with
        | nil => simp
        | cons c l => rw [List.cons.injEq, List.cons.injEq, ih h, List.length_cons]
  rw [CString.ext_iff, CString.ext_iff]
  apply hbytes

/-- A string is determined by its bytes and its `NUL`. -/
theorem cstr_congr {m m' : Bytes} {a n : ℕ}
    (h : ∀ x, a ≤ x → x ≤ a + (cstr m a n).length → x < a + n → m' x = m x) :
  cstr m' a n = cstr m a n ∧ hasNul m' a n = hasNul m a n
  := by
  induction n generalizing a with
  | zero => exact ⟨rfl, rfl⟩
  | succ n ih =>
    have hhead : m' a = m a := h a (le_refl a) (by omega) (by omega)
    by_cases hzero : m a = 0
    · simp [cstr, cstrBytes, hasNul, hhead, hzero]
    · have hlength : (cstr m a (n + 1)).length = (cstr m (a + 1) n).length + 1 := by
        simp [cstr, cstrBytes, CString.length, hzero]
      rw [hlength] at h
      obtain ⟨hcstr, hnul⟩ := @ih (a + 1) fun x hx hle hlt =>
        h x (by omega) (by omega) (by omega)
      simp only [cstr, CString.mk.injEq] at hcstr
      simp [cstr, cstrBytes, hasNul, hhead, hcstr, hnul]

end Bytes
