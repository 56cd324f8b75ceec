import MyWine.Basic

/-!
# The position of a file

`SetFilePointer` widens the signed distance without its sign, so that the `x86_64` build moves forwards
by a negative distance without a high part.  It narrows the result to `long` for `lseek`, so that the
`i386` build forgets the high part.
-/

namespace Kernel32

open BitVec Option

structure SeekFile where
  position : ℕ
  size : ℕ
  deriving DecidableEq

inductive Whence where
  | seekSet
  | seekCur
  | seekEnd

def Whence.origin (f : SeekFile) : Whence → ℕ
  | seekSet => 0
  | seekCur => f.position
  | seekEnd => f.size

def moveWhence (dwMoveMethod : BitVec 32) : Whence :=
  if dwMoveMethod = 1 then .seekCur
  else if dwMoveMethod = 2 then .seekEnd
  else .seekSet

/-- The position is returned as a `long`, and the file has it even if it is too large for one. -/
def lseek (b : Build) (f : SeekFile) (offset : ℤ) (whence : Whence) : ℤ × SeekFile :=
  let pos := whence.origin f + offset
  if pos < 0 ∨ 2 ^ 63 ≤ pos then (-22, f)
  else (if 2 * pos < b.ptrLimit then pos else -75, { f with position := pos.toNat })

section

variable (b : Build) (distance : BitVec 32) (high : Option (BitVec 32))

def moveDistance : BitVec 64 :=
  match high with
  | none => distance.setWidth 64
  | some high => distance.setWidth 64 ||| high.signExtend 64 <<< 32

def toLong (n : BitVec 64) : ℤ := (n.setWidth (8 * b.ptrSize)).toInt

/-- The file is absent if `handle_to_fd` finds no descriptor. -/
def setFilePointer (dwMoveMethod : BitVec 32) (file : Option SeekFile) :
    BitVec 32 × Option (BitVec 32) × Option SeekFile :=
  match file with
  | none => (0xffffffff, high, none)
  | some f =>
    let (pos, f') := lseek b f (toLong b (moveDistance distance high)) (moveWhence dwMoveMethod)
    if pos < 0 then (0xffffffff, high, some f')
    else (BitVec.ofInt 32 pos, high.map fun _ => BitVec.ofInt 32 (pos / 2 ^ 32), some f')

/-! ### The distance -/

def signedDistance : Option (BitVec 32) → ℤ
  | none => distance.toInt
  | some high => 2 ^ 32 * high.toInt + distance.toNat

/-- The distance by which the code moves. -/
def movedDistance : Build → ℤ
  | .x64 => high.elim 0 (2 ^ 32 * ·.toInt) + distance.toNat
  | .i386 => distance.toInt

/-- The position is the origin and the signed distance, or the call fails and it stays. -/
def MovesTo (method : BitVec 32) (f : SeekFile) : Prop :=
  let target := (moveWhence method).origin f + signedDistance distance high
  let result := setFilePointer b distance high method (some f)
  (target < 0 → result.1 = 0xffffffff ∧ result.2.2 = some f) ∧
    (0 ≤ target → target < 2 ^ 63 → result.2.2 = some { f with position := target.toNat })

/-- Another distance does no harm: the right position is too large for a file; or the code cannot move,
and it ought to fail or to stay; or it stays and reports an error, and it ought to fail. -/
def Harmless (method : BitVec 32) (f : SeekFile) : Prop :=
  let target := (moveWhence method).origin f + signedDistance distance high
  let pos := (moveWhence method).origin f + movedDistance distance high b
  2 ^ 63 ≤ target ∨ (pos < 0 ∨ 2 ^ 63 ≤ pos) ∧ (target < 0 ∨ target = f.position) ∨
    target < 0 ∧ pos = f.position ∧ (b.ptrLimit ≤ 2 * pos ∨ pos % 2 ^ 32 = 0xffffffff)

theorem moveDistance_some (distance high : BitVec 32) :
  moveDistance distance (some high) = high ++ distance
  := by
  apply eq_of_getLsbD_eq
  intro i hi
  rw [moveDistance, getLsbD_or, getLsbD_append, getLsbD_setWidth,
    getLsbD_shiftLeft, getLsbD_signExtend]
  by_cases hlow : i < 32
  · simp [hlow, hi]
  · simp [hlow, hi]
    grind

theorem toLong_moveDistance :
  toLong b (moveDistance distance high) = movedDistance distance high b
  := by
  cases b with
  | x64 =>
    change ((moveDistance distance high).setWidth 64).toInt = _
    rw [setWidth_eq]
    cases high with
    | none =>
      rw [moveDistance, toInt_setWidth, movedDistance, elim_none, zero_add]
      apply Int.bmod_eq_of_le <;> omega
    | some high =>
      rw [moveDistance_some, toInt_append]
      rfl
  | i386 =>
    change ((moveDistance distance high).setWidth 32).toInt = _
    cases high with
    | none => rw [moveDistance, setWidth_setWidth_of_le _ (by decide), setWidth_eq, movedDistance]
    | some high => rw [moveDistance_some, setWidth_append, dif_pos le_rfl, setWidth_eq, movedDistance]

section

variable (f : SeekFile) (method : BitVec 32)

theorem file_setFilePointer :
  (setFilePointer b distance high method (some f)).2.2 =
    let pos := (moveWhence method).origin f + movedDistance distance high b
    some { f with position := if 0 ≤ pos ∧ pos < 2 ^ 63 then pos.toNat else f.position }
  := by
  simp only [setFilePointer, lseek, toLong_moveDistance]
  split_ifs <;> first | rfl | omega

theorem setFilePointer_fails_iff :
  (setFilePointer b distance high method (some f)).1 = 0xffffffff ↔
    let pos := (moveWhence method).origin f + movedDistance distance high b
    (pos < 0 ∨ 2 ^ 63 ≤ pos) ∨ b.ptrLimit ≤ 2 * pos ∨ pos % 2 ^ 32 = 0xffffffff
  := by
  simp only [setFilePointer, lseek, toLong_moveDistance]
  generalize ((moveWhence method).origin f : ℤ) + movedDistance distance high b = pos
  by_cases hrange : pos < 0 ∨ 2 ^ 63 ≤ pos
  · rw [if_pos hrange]
    exact iff_of_true rfl (Or.inl hrange)
  rw [if_neg hrange, or_iff_right hrange]
  by_cases hlong : 2 * pos < b.ptrLimit
  · have hones : (0xffffffff : BitVec 32).toNat = 0xffffffff := rfl
    simp only [if_pos hlong, if_neg (show ¬ pos < 0 by omega), ← toNat_inj, toNat_ofInt, hones]
    omega
  · simp only [if_neg hlong]
    exact iff_of_true rfl (Or.inl (by omega))

/-- Exactly with the signed distance, or if another one does no harm, the position is the right one. -/
theorem movesTo_iff_distance :
  MovesTo b distance high method f ↔
    movedDistance distance high b = signedDistance distance high ∨ Harmless b distance high method f
  := by
  have hstays (position : ℕ) : { f with position } = f ↔ position = f.position := by
    rw [SeekFile.mk.injEq, eq_self, and_true]
  simp only [MovesTo, Harmless, file_setFilePointer, setFilePointer_fails_iff, some.injEq, hstays,
    SeekFile.mk.injEq, and_true]
  split_ifs <;> omega

theorem movesTo_iff :
  MovesTo b distance high method f ↔
    (match b with
      | .x64 => high = none → 0 ≤ distance.toInt
      | .i386 => ∀ h ∈ high, h.toInt = if distance.toInt < 0 then -1 else 0) ∨
    Harmless b distance high method f
  := by
  have hlow := distance.isLt
  rw [movesTo_iff_distance]
  apply or_congr_left
  cases high <;> cases b <;> simp only [movedDistance, signedDistance, elim_none, elim_some] <;> grind

end

end

/-- The 64-bit build moves forwards when it is told to move back by one byte. -/
theorem setFilePointer_backwards :
  setFilePointer .x64 (-1) none 1 (some ⟨10, 20⟩) = (9, none, some ⟨4294967305, 20⟩) ∧
    setFilePointer .i386 (-1) none 1 (some ⟨10, 20⟩) = (9, none, some ⟨9, 20⟩)
  := by
  decide

end Kernel32
