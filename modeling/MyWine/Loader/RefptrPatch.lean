import MyWine.Loader.Protections
import MyWine.Loader.RelocationWalk

/-!
# The slots of the C runtime

`apply_refptr_patch` of `msvcrt/crt_refptrs.c` stores the address of a variable of the loader in a slot
of the image.  It stores eight bytes in the images of both types, makes only the page of the first byte
writable, and only compares the start of the slot with the size of the image.  So it changes the slot and
nothing else exactly when the other bytes have their values before and the next page, if the store
reaches it, is writable (`refptrPatched_eq_iff`).
-/

open Pe

namespace Loader

variable {b : Build} (k : Kernel b) (nt : ImageNtHeaders) (base : Ptr) (prot : ℕ → Prot) (img : Bytes)
  (rva target : ℕ)

def slotWritable : Bool := k.mprotect (base + pageStart rva) pageSize Prot.all

/-- The eight bytes from the RVA on are in the page that was made writable, or writable before. -/
def storeWritable : Bool :=
  (List.range 8).all fun j => rva + j < pageStart rva + pageSize ∨ (prot (rva + j)).write

/-- The image after `apply_refptr_patch`, unless the store faults. -/
def refptrPatched : Option Bytes :=
  if peSizeOfImage nt ≤ rva then some img
  else if slotWritable k base rva then
    if storeWritable prot rva then some (img.writeLE rva 8 target) else none
  else some img

/-- The size of the slot: that of a pointer of the image, or zero if it does not fit in the image. -/
def slotSize : ℕ :=
  let size := if peIsPe32 nt then 4 else 8
  if rva + size ≤ peSizeOfImage nt then size else 0

def slotPatched : Bytes :=
  if slotWritable k base rva then img.writeLE rva (slotSize nt rva) target else img

theorem slotSize_le :
  slotSize nt rva ≤ 8
  := by
  simp only [slotSize]
  split_ifs
  all_goals decide

theorem slotSize_of_le (h : peSizeOfImage nt ≤ rva) :
  slotSize nt rva = 0
  := by
  simp only [slotSize]
  split_ifs
  all_goals omega

/-- The patch changes the slot, if this is in the image, and nothing else, if and only if the store does
not fault and the bytes that it stores besides are there already. -/
theorem refptrPatched_eq_iff :
  refptrPatched k nt base prot img rva target = some (slotPatched k nt base img rva target) ↔
    (rva < peSizeOfImage nt → slotWritable k base rva = true → storeWritable prot rva = true ∧
      ∀ j, slotSize nt rva ≤ j → j < 8 → img (rva + j) = UInt8.ofNat (target / 256 ^ j))
  := by
  rw [refptrPatched, slotPatched]
  rcases le_or_gt (peSizeOfImage nt) rva with hle | hlt
  · have hnone : img.writeLE rva 0 target = img := by
      funext x
      apply Bytes.writeLE_of_notMem
      omega
    rw [if_pos hle, slotSize_of_le nt rva hle, hnone, ite_self]
    exact iff_of_true rfl fun hlt => absurd hlt (not_lt.mpr hle)
  · rw [if_neg (not_le.mpr hlt)]
    by_cases hwritable : slotWritable k base rva = true
    · rw [if_pos hwritable, if_pos hwritable]
      by_cases hstore : storeWritable prot rva = true
      · rw [if_pos hstore, Option.some.injEq, eq_comm,
          Bytes.writeLE_eq_writeLE_iff img rva target (slotSize_le nt rva)]
        exact ⟨fun h _ _ => ⟨hstore, h⟩, fun h => (h hlt hwritable).2⟩
      · rw [if_neg hstore]
        exact iff_of_false (by simp) fun h => hstore (h hlt hwritable).1
    · rw [if_neg hwritable, if_neg hwritable]
      exact iff_of_true rfl fun _ h => absurd h hwritable

/-- In a PE32 image the four bytes after the slot are overwritten, and a slot at the end of the image
is written past the end, or faults there. -/
theorem refptrPatched_overwrites :
  let nt := pageHeaders .pe32 ⟨0, 0⟩
  let patched := fun p rva => refptrPatched (.lenient .i386) nt 0x400000 (fun _ => p) (fun _ => 1) rva
    0x500000
  (patched Prot.rw 0x100).map (· 0x104) = some 0 ∧ 0x104 ∉ (⟨0x100, slotSize nt 0x100⟩ : Region) ∧
    (patched Prot.rw 0xffe).map (· 0x1000) = some 0x50 ∧ (patched Prot.r 0xffe).isNone ∧
    peSizeOfImage nt = 0x1000
  := by
  decide +kernel

end Loader
