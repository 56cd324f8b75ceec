import Mathlib.Data.Nat.Basic
import Mathlib.Tactic.Ring

/-!
# Bytes

A memory is a function `m : ℕ → UInt8` from addresses to bytes.  `readLE m a n` is the number
stored little-endian in the `n` bytes from `a` on, and `u16`, `u32`, `u64` are such numbers of a
fixed width.  `writeLE`, `copy` and `fill` are the memories after a store, a `memcpy` and a
`memset`; each changes the bytes of one interval, and a read whose bytes did not change did not
change either (`readLE_congr`).
-/

/-- The bytes of a memory, a file or a structure, by address or offset. -/
abbrev Bytes : Type := ℕ → UInt8

namespace Bytes

/-- The number stored little-endian in the `n` bytes from `a` on. -/
def readLE (m : Bytes) (a : ℕ) : ℕ → ℕ
  | 0 => 0
  | n + 1 => (m a).toNat + 256 * readLE m (a + 1) n

/-- The byte at `a`, `a + 1` as a number. -/
def u16 (m : Bytes) (a : ℕ) : UInt16 := UInt16.ofNat (readLE m a 2)

/-- The four bytes from `a` on as a number. -/
def u32 (m : Bytes) (a : ℕ) : UInt32 := UInt32.ofNat (readLE m a 4)

/-- The eight bytes from `a` on as a number. -/
def u64 (m : Bytes) (a : ℕ) : UInt64 := UInt64.ofNat (readLE m a 8)

/-- The memory after storing the low `n` bytes of `v` little-endian from `a` on. -/
def writeLE (m : Bytes) (a n v : ℕ) : Bytes := fun x =>
  if a ≤ x ∧ x < a + n then UInt8.ofNat (v / 256 ^ (x - a)) else m x

/-- The memory after copying the `n` bytes of `src` from `s` on to `d`. -/
def copy (m : Bytes) (d : ℕ) (src : Bytes) (s n : ℕ) : Bytes := fun x =>
  if d ≤ x ∧ x < d + n then src (s + (x - d)) else m x

/-- The memory after setting the `n` bytes from `d` on to `v`. -/
def fill (m : Bytes) (d : ℕ) (v : UInt8) (n : ℕ) : Bytes := fun x =>
  if d ≤ x ∧ x < d + n then v else m x

theorem readLE_congr {m m' : Bytes} {a n : ℕ} (h : ∀ x, a ≤ x → x < a + n → m x = m' x) :
  readLE m a n = readLE m' a n
  := by
  induction n generalizing a with
  | zero => rfl
  | succ n ih =>
    have hhead : m a = m' a := h a (le_refl a) (by omega)
    have htail : readLE m (a + 1) n = readLE m' (a + 1) n := by
      apply ih
      intro x hx hlt
      apply h x (by omega) (by omega)
    rw [readLE, readLE, hhead, htail]

/-- A number of `n` bytes is below `256 ^ n`. -/
theorem readLE_lt (m : Bytes) (a n : ℕ) :
  readLE m a n < 256 ^ n
  := by
  induction n generalizing a with
  | zero => simp [readLE]
  | succ n ih =>
    have hbyte : (m a).toNat < 256 := (m a).toNat_lt
    have htail := ih (a + 1)
    rw [readLE, pow_succ]
    omega

variable {n k : ℕ}

/-- The bytes of a store, read from its `k`-th byte on. -/
theorem readLE_writeLE_add {j : ℕ} (m : Bytes) (a v : ℕ) (h : k + j ≤ n) :
  readLE (writeLE m a n v) (a + k) j = v / 256 ^ k % 256 ^ j
  := by
  induction j generalizing k with
  | zero => simp [readLE, Nat.mod_one]
  | succ j ih =>
    have hin : a ≤ a + k ∧ a + k < a + n := by omega
    have hbyte : (writeLE m a n v (a + k)).toNat = v / 256 ^ k % 256 := by
      rw [writeLE, if_pos hin, Nat.add_sub_cancel_left]
      simp
    have htail : readLE (writeLE m a n v) (a + k + 1) j = v / 256 ^ k / 256 % 256 ^ j := by
      rw [add_assoc, ih (by omega), pow_succ, Nat.div_div_eq_div_mul]
    rw [readLE, hbyte, htail, pow_succ', Nat.mod_mul]

/-- What was stored is read back. -/
theorem readLE_writeLE (m : Bytes) (a n v : ℕ) :
  readLE (writeLE m a n v) a n = v % 256 ^ n
  := by
  simpa using readLE_writeLE_add (k := 0) m a v (by omega : 0 + n ≤ n)

/-- A store does not change the bytes outside. -/
theorem writeLE_of_notMem {a x : ℕ} (m : Bytes) (v : ℕ) (h : x < a ∨ a + n ≤ x) :
  writeLE m a n v x = m x
  := by
  rw [writeLE, if_neg]
  omega

/-- A store outside the bytes read does not change them. -/
theorem readLE_writeLE_of_disjoint {a b : ℕ} (m : Bytes) (v : ℕ) (h : a + n ≤ b ∨ b + k ≤ a) :
  readLE (writeLE m b k v) a n = readLE m a n
  := by
  apply readLE_congr
  intro x hx hlt
  apply writeLE_of_notMem
  omega

/-- A byte of a number that is read. -/
theorem byte_readLE (m : Bytes) (a : ℕ) (h : k < n) :
  UInt8.ofNat (readLE m a n / 256 ^ k) = m (a + k)
  := by
  induction k generalizing a n with
  | zero =>
    cases n with
    | zero => omega
    | succ n =>
      apply UInt8.toNat_inj.mp
      have hbyte : (m a).toNat < 256 := (m a).toNat_lt
      simp only [readLE, pow_zero, Nat.div_one, Nat.add_zero, UInt8.toNat_ofNat']
      omega
  | succ k ih =>
    cases n with
    | zero => omega
    | succ n =>
      have hbyte : (m a).toNat < 256 := (m a).toNat_lt
      have hdiv : readLE m a (n + 1) / 256 = readLE m (a + 1) n := by
        rw [readLE]
        omega
      rw [pow_succ', ← Nat.div_div_eq_div_mul, hdiv, ih (a + 1) (by omega),
        show a + 1 + k = a + (k + 1) by omega]

/-- Storing back what was read changes nothing. -/
theorem writeLE_readLE (m : Bytes) (a : ℕ) (h : k ≤ n) :
  writeLE m a k (readLE m a n) = m
  := by
  funext x
  rw [writeLE]
  split
  · rename_i hin
    rw [byte_readLE m a (by omega), Nat.add_sub_cancel' hin.1]
  · rfl

/-- A store of fewer bytes of a number has the same effect as one of more bytes if the remaining
bytes are there already. -/
theorem writeLE_eq_writeLE_iff (m : Bytes) (a v : ℕ) (h : n ≤ k) :
  writeLE m a n v = writeLE m a k v ↔ ∀ j, n ≤ j → j < k → m (a + j) = UInt8.ofNat (v / 256 ^ j)
  := by
  constructor
  · intro heq j hn hk
    have hbyte := congrFun heq (a + j)
    rwa [writeLE, writeLE, if_neg (by omega), if_pos (by omega), Nat.add_sub_cancel_left] at hbyte
  · intro hbytes
    funext x
    rcases Nat.lt_or_ge x (a + n) with hlt | hge
    · rw [writeLE, writeLE]
      rcases Nat.lt_or_ge x a with hbefore | hafter
      · rw [if_neg (by omega), if_neg (by omega)]
      · rw [if_pos (by omega), if_pos (by omega)]
    · rw [writeLE, if_neg (by omega), writeLE]
      split
      · have hbyte := hbytes (x - a) (by omega) (by omega)
        rwa [Nat.add_sub_cancel' (by omega)] at hbyte
      · rfl

end Bytes
