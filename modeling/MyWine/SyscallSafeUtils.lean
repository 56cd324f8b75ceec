import MyWine.Lib.CString

/-!
# String utilities

The string functions of `include/syscall_safe_utils.h`, which replace those of the C library.  A
string is compared through the `NUL` that ends it; `strcmp` vanishes exactly on equal strings and
`strcasecmp` exactly on strings with the same lower-case form.
-/

namespace SyscallSafe

open List

def asciiLower (c : UInt8) : UInt8 :=
  if 65 ≤ c ∧ c ≤ 90 then c + 32 else c

/-- The difference at the first place where the strings differ. -/
def strcmpBytes : List UInt8 → List UInt8 → ℤ
  | a :: as, b :: bs => if a ≠ b then (a.toNat : ℤ) - b.toNat else strcmpBytes as bs
  | [], b :: _ => - (b.toNat : ℤ)
  | a :: _, [] => a.toNat
  | [], [] => 0

def strcmp (s t : CString) : ℤ := strcmpBytes s.bytes t.bytes

def strcasecmp (s t : CString) : ℤ :=
  strcmpBytes (s.bytes.map asciiLower) (t.bytes.map asciiLower)

def copyStr (src : CString) (maxLen : ℕ) : CString := src.take (maxLen - 1)

theorem asciiLower_eq_zero {c : UInt8} (h : asciiLower c = 0) :
  c = 0
  := by
  rw [asciiLower] at h
  split at h
  · next hc =>
    have h90 : c.toNat ≤ 90 := UInt8.le_iff_toNat_le.mp hc.2
    have hsum : (c + 32).toNat = 0 := congrArg UInt8.toNat h
    rw [UInt8.toNat_add] at hsum
    simp at hsum
    omega
  · apply h

theorem toNat_pos_of_notMem {a : UInt8} {as : List UInt8} (h : 0 ∉ a :: as) :
  0 < a.toNat
  := by
  rw [Nat.pos_iff_ne_zero]
  intro ha
  apply h
  have ha : a = 0 := UInt8.toNat_inj.mp ha
  rw [ha]
  apply mem_cons_self

theorem strcmpBytes_eq_zero_iff {as bs : List UInt8} (ha : 0 ∉ as) (hb : 0 ∉ bs) :
  strcmpBytes as bs = 0 ↔ as = bs
  := by
  induction as, bs using strcmpBytes.induct with
  | case1 a as b bs hne =>
    have hne' : a.toNat ≠ b.toNat := fun h => hne (UInt8.toNat_inj.mp h)
    simp only [strcmpBytes, if_pos hne, cons.injEq, hne, false_and, iff_false]
    omega
  | case2 a as b bs heq ih =>
    rw [ne_eq, not_not] at heq
    subst heq
    simp only [strcmpBytes, ne_eq, not_true_eq_false, if_false, cons.injEq, true_and]
    apply ih
    · intro h
      apply ha (mem_cons_of_mem _ h)
    · intro h
      apply hb (mem_cons_of_mem _ h)
  | case3 b bs =>
    have hpos := toNat_pos_of_notMem hb
    simp only [strcmpBytes, reduceCtorEq, iff_false]
    omega
  | case4 a as =>
    have hpos := toNat_pos_of_notMem ha
    simp only [strcmpBytes, reduceCtorEq, iff_false]
    omega
  | case5 => simp [strcmpBytes]

/-- Swapping the strings changes the sign. -/
theorem strcmpBytes_swap (as bs : List UInt8) :
  strcmpBytes bs as = - strcmpBytes as bs
  := by
  induction as, bs using strcmpBytes.induct with
  | case1 a as b bs hne =>
    have hne' : b ≠ a := fun h => hne h.symm
    simp only [strcmpBytes, if_pos hne, if_pos hne']
    omega
  | case2 a as b bs heq ih =>
    rw [ne_eq, not_not] at heq
    subst heq
    simp [strcmpBytes, ih]
  | case3 b bs => simp [strcmpBytes]
  | case4 a as => simp [strcmpBytes]
  | case5 => rfl

theorem strcmp_swap (s t : CString) :
  strcmp t s = - strcmp s t
  := strcmpBytes_swap s.bytes t.bytes

/-- The comparison is transitive. -/
theorem strcmpBytes_trans {as bs cs : List UInt8} (ha : 0 ∉ as) (hab : strcmpBytes as bs ≤ 0)
    (hbc : strcmpBytes bs cs ≤ 0) :
  strcmpBytes as cs ≤ 0
  := by
  induction as, bs using strcmpBytes.induct generalizing cs with
  | case1 a as b bs hne =>
    have hne' : a.toNat ≠ b.toNat := fun h => hne (UInt8.toNat_inj.mp h)
    simp only [strcmpBytes, if_pos hne] at hab
    cases cs with
    | nil =>
      simp only [strcmpBytes] at hbc
      omega
    | cons c cs =>
      have hle : b.toNat ≤ c.toNat := by
        by_cases hbc' : b = c
        · rw [hbc']
        · simp only [strcmpBytes, ne_eq, hbc', not_false_eq_true, if_true] at hbc
          omega
      have hac : a ≠ c := by
        rintro rfl
        omega
      simp only [strcmpBytes, if_pos hac]
      omega
  | case2 a as b bs heq ih =>
    rw [ne_eq, not_not] at heq
    subst heq
    simp only [strcmpBytes, ne_eq, not_true_eq_false, if_false] at hab
    cases cs with
    | nil => apply hbc
    | cons c cs =>
      by_cases hac : a = c
      · subst hac
        simp only [strcmpBytes, ne_eq, not_true_eq_false, if_false] at hbc ⊢
        apply ih (fun h => ha (mem_cons_of_mem a h)) hab hbc
      · simp only [strcmpBytes, ne_eq, hac, not_false_eq_true, if_true] at hbc ⊢
        apply hbc
  | case3 b bs =>
    cases cs with
    | nil => simp [strcmpBytes]
    | cons c cs => simp [strcmpBytes]
  | case4 a as =>
    have hpos := toNat_pos_of_notMem ha
    simp only [strcmpBytes] at hab
    omega
  | case5 => apply hbc

variable {s t : CString}

theorem strcmp_trans {u : CString} (hst : strcmp s t ≤ 0) (htu : strcmp t u ≤ 0) :
  strcmp s u ≤ 0
  := strcmpBytes_trans s.zero_notMem hst htu

theorem zero_notMem_lower (s : CString) :
  0 ∉ s.bytes.map asciiLower
  := by
  intro h
  obtain ⟨c, hc, h0⟩ := mem_map.mp h
  apply s.zero_notMem
  rw [← asciiLower_eq_zero h0]
  apply hc

@[simp]
theorem strcmp_eq_zero_iff :
  strcmp s t = 0 ↔ s = t
  := by
  rw [strcmp, strcmpBytes_eq_zero_iff s.zero_notMem t.zero_notMem]
  constructor
  · apply CString.ext
  · rintro rfl
    rfl

/-- `strcasecmp` vanishes on strings that differ in case only. -/
theorem strcasecmp_eq_zero_iff :
  strcasecmp s t = 0 ↔ s.bytes.map asciiLower = t.bytes.map asciiLower
  := by
  apply strcmpBytes_eq_zero_iff (zero_notMem_lower s) (zero_notMem_lower t)

@[simp]
theorem strcasecmp_self (s : CString) :
  strcasecmp s s = 0
  := strcasecmp_eq_zero_iff.mpr rfl

theorem length_eq_of_strcasecmp (h : strcasecmp s t = 0) :
  s.length = t.length
  := by
  have hlen := congrArg List.length (strcasecmp_eq_zero_iff.mp h)
  simpa [CString.length] using hlen

theorem copyStr_eq_self {n : ℕ} (h : s.length < n) :
  copyStr s n = s
  := by
  apply CString.take_of_length_le
  omega

theorem copyStr_length_lt (s : CString) {n : ℕ} (h : 0 < n) :
  (copyStr s n).length < n
  := by
  rw [copyStr, CString.take_length]
  omega

end SyscallSafe
