import Mathlib.Tactic.Ring

/-!
# Builds and pointers

The program is built twice, for `x86_64` and for `i386`.  Pointers and sizes are natural numbers,
and `Build.wrap` reduces the result of an operation on `size_t` or `uintptr_t` to its width.
-/

abbrev Ptr : Type := ℕ

/-- The two builds of the program. -/
inductive Build where
  | x64
  | i386
  deriving DecidableEq, Repr

namespace Build

def ptrSize : Build → ℕ
  | x64 => 8
  | i386 => 4

def ptrLimit (b : Build) : ℕ := 256 ^ b.ptrSize

def wrap (b : Build) (n : ℕ) : ℕ := n % b.ptrLimit

theorem wrap_of_lt {b : Build} {n : ℕ} (h : n < b.ptrLimit) :
  b.wrap n = n
  := Nat.mod_eq_of_lt h

end Build

def pageSize : ℕ := 4096

/-- `n & ~PAGE_MASK`. -/
def pageStart (n : ℕ) : ℕ := n / 4096 * 4096

/-- `(n + PAGE_MASK) & ~PAGE_MASK`: the end of the page of `n`, or `n` itself at a page
boundary. -/
def pageRoundUp (n : ℕ) : ℕ := (n + 4095) / 4096 * 4096

theorem pageSize_dvd_pageRoundUp (n : ℕ) :
  pageSize ∣ pageRoundUp n
  := Nat.dvd_mul_left _ _

theorem pageRoundUp_le_iff {n m : ℕ} (h : pageSize ∣ m) :
  pageRoundUp n ≤ m ↔ n ≤ m
  := by
  obtain ⟨k, rfl⟩ := h
  simp only [pageRoundUp, pageSize]
  omega

theorem le_pageRoundUp (n : ℕ) :
  n ≤ pageRoundUp n
  := by
  simp only [pageRoundUp]
  omega

theorem pageRoundUp_add {m : ℕ} (h : pageSize ∣ m) (n : ℕ) :
  pageRoundUp (m + n) = m + pageRoundUp n
  := by
  obtain ⟨k, rfl⟩ := h
  simp only [pageRoundUp, pageSize]
  omega
