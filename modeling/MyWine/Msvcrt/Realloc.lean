import MyWine.Lib.Bytes
import MyWine.Lib.Region
import MyWine.Lib.Trace

/-!
# `realloc` of the 64-bit C runtime

`msvcrt/crt_stdlib.c` has no way to ask the allocator for the size of a block, so `wine_realloc`
copies as many bytes as the new block has.  The allocator behind `sysv_malloc` and `sysv_free` is
described by its contract, `SysvHeap`: a new block is at a free place, and the bytes of the live
blocks are left alone.  Under this contract `wine_realloc` moves the bytes of a block to the new one,
but it reads past the end of the old one when the new one is larger (`wineRealloc_ok_iff`).
-/

namespace Msvcrt

open List

/-- The bytes of the memory, and the live blocks. -/
structure CrtState where
  mem : Bytes
  blocks : List Region

def CrtState.Live (s : CrtState) (x : ℕ) : Prop := ∃ r ∈ s.blocks, x ∈ r

def CrtState.release (s : CrtState) (p : ℕ) : CrtState :=
  { s with blocks := s.blocks.filter fun r => r.start ≠ p }

/-- `sysv_malloc` returns an address, zero if it fails, and `sysv_free` takes one; both may change the
bytes outside of the live blocks. -/
structure SysvHeap where
  malloc : ℕ → CrtState → ℕ × Bytes
  free : ℕ → CrtState → Bytes
  malloc_mem : ∀ n s x, s.Live x → (malloc n s).2 x = s.mem x
  malloc_fresh : ∀ n s, (malloc n s).1 ≠ 0 → ∀ r ∈ s.blocks,
    r.start ≠ (malloc n s).1 ∧ r.Disjoint ⟨(malloc n s).1, n⟩
  free_mem : ∀ p s x, (s.release p).Live x → free p s x = s.mem x

def wineMalloc (a : SysvHeap) (size : ℕ) (s : CrtState) : ℕ × CrtState :=
  let (p, mem) := a.malloc size s
  if p = 0 then (0, { s with mem := mem }) else (p, ⟨mem, ⟨p, size⟩ :: s.blocks⟩)

def wineFree (a : SysvHeap) (ptr : ℕ) (s : CrtState) : CrtState :=
  if ptr = 0 then s else { s.release ptr with mem := a.free ptr s }

def sysvMemcpy (dest src n : ℕ) (s : CrtState) : Traced Region CrtState :=
  ⟨{ s with mem := s.mem.copy dest s.mem src n }, [⟨src, n⟩]⟩

def wineRealloc (a : SysvHeap) (ptr size : ℕ) (s : CrtState) : Traced Region (ℕ × CrtState) :=
  if ptr = 0 then pure (wineMalloc a size s)
  else if size = 0 then pure (0, wineFree a ptr s)
  else
    let (newPtr, s) := wineMalloc a size s
    if newPtr = 0 then pure (0, s)
    else do
      let s ← sysvMemcpy newPtr ptr size s
      pure (newPtr, wineFree a ptr s)

/-- What is expected of a call for a block of `m` bytes: it reads the block only; a block that it
returns has the bytes of the old one, which is released, as it is for the size zero; and if it fails
the old block is as it was. -/
structure ReallocOk (s : CrtState) (p m n : ℕ) (r : Traced Region (ℕ × CrtState)) : Prop where
  reads : ∀ u ∈ r.trace, ∀ x ∈ u, x ∈ (⟨p, m⟩ : Region)
  moved : r.value.1 ≠ 0 →
    (∀ i < min m n, r.value.2.mem (r.value.1 + i) = s.mem (p + i)) ∧
      r.value.2.blocks = ⟨r.value.1, n⟩ :: (s.release p).blocks
  failed : r.value.1 = 0 → n ≠ 0 →
    r.value.2.blocks = s.blocks ∧ ∀ i < m, r.value.2.mem (p + i) = s.mem (p + i)
  released : n = 0 → r.value.2.blocks = (s.release p).blocks

section

variable {a : SysvHeap} {s : CrtState} {p m n : ℕ}

theorem CrtState.live_of_lt (h : ⟨p, m⟩ ∈ s.blocks) {i : ℕ} (hi : i < m) :
  s.Live (p + i)
  :=
  ⟨_, h, Nat.le_add_right p i, Nat.add_lt_add_left hi p⟩

theorem wineRealloc_moved (hp : p ≠ 0) (hblock : ⟨p, m⟩ ∈ s.blocks) (hn : n ≠ 0)
    (hq : (a.malloc n s).1 ≠ 0) :
  (wineRealloc a p n s).trace = [⟨p, n⟩] ∧ (wineRealloc a p n s).value.1 = (a.malloc n s).1 ∧
    (∀ i < min m n, (wineRealloc a p n s).value.2.mem ((a.malloc n s).1 + i) = s.mem (p + i)) ∧
    (wineRealloc a p n s).value.2.blocks = ⟨(a.malloc n s).1, n⟩ :: (s.release p).blocks
  := by
  have hne : (a.malloc n s).1 ≠ p := (a.malloc_fresh n s hq _ hblock).1.symm
  have hblocks (mem : Bytes) : (CrtState.release ⟨mem, ⟨(a.malloc n s).1, n⟩ :: s.blocks⟩ p).blocks =
      ⟨(a.malloc n s).1, n⟩ :: (s.release p).blocks := by
    simp only [CrtState.release]
    rw [filter_cons_of_pos]
    apply decide_eq_true hne
  simp only [wineRealloc, if_neg hp, if_neg hn, wineMalloc, if_neg hq, wineFree, sysvMemcpy]
  refine ⟨rfl, rfl, ?_, hblocks _⟩
  intro i hi
  -- the block is live after the old one is released, and the old one was live in the call
  have hlive : s.Live (p + i) := CrtState.live_of_lt hblock (by omega)
  rw [← a.malloc_mem n s _ hlive]
  apply (a.free_mem p _ _ _).trans
  · simp only [Bytes.copy]
    rw [if_pos ⟨Nat.le_add_right .., Nat.add_lt_add_left (by omega) _⟩, Nat.add_sub_cancel_left]
  · apply CrtState.live_of_lt (m := n) _ (by omega)
    rw [hblocks]
    apply mem_cons_self

end

/-- A call does what is expected if and only if the block does not grow or the allocation fails. -/
theorem wineRealloc_ok_iff (a : SysvHeap) (s : CrtState) (p m n : ℕ) (hp : p ≠ 0)
    (hblock : ⟨p, m⟩ ∈ s.blocks) :
  ReallocOk s p m n (wineRealloc a p n s) ↔ n ≤ m ∨ (a.malloc n s).1 = 0
  := by
  by_cases hn : n = 0
  · subst hn
    have heq : wineRealloc a p 0 s = pure (0, wineFree a p s) := by
      rw [wineRealloc, if_neg hp, if_pos rfl]
    have hok : ReallocOk s p m 0 (wineRealloc a p 0 s) := by
      rw [heq]
      refine ⟨nofun, nofun, nofun, fun _ => ?_⟩
      rw [Traced.value_pure, wineFree, if_neg hp]
    apply iff_of_true hok (Or.inl (Nat.zero_le m))
  · by_cases hq : (a.malloc n s).1 = 0
    · have heq : wineRealloc a p n s = pure (0, { s with mem := (a.malloc n s).2 }) := by
        simp [wineRealloc, if_neg hn, wineMalloc, if_pos hq]
      have hok : ReallocOk s p m n (wineRealloc a p n s) := by
        rw [heq]
        refine ⟨nofun, nofun, fun _ _ => ⟨rfl, ?_⟩, fun hzero => absurd hzero hn⟩
        intro i hi
        apply a.malloc_mem n s _ (CrtState.live_of_lt hblock hi)
      apply iff_of_true hok (Or.inr hq)
    · obtain ⟨htrace, hvalue, hmoved⟩ := wineRealloc_moved hp hblock hn hq
      constructor
      · intro h
        have hlast := h.reads ⟨p, n⟩ (htrace ▸ mem_singleton_self _) (p + (n - 1))
        simp only [Region.mem_iff] at hlast
        omega
      · intro h
        refine ⟨?_, ?_, fun hzero => absurd (hvalue ▸ hzero) hq, fun hzero => absurd hzero hn⟩
        · rw [htrace]
          intro u hu x hx
          rw [mem_singleton.mp hu] at hx
          simp only [Region.mem_iff] at hx ⊢
          omega
        · intro _
          rw [hvalue]
          apply hmoved

theorem next_fresh (n : ℕ) (blocks : List Region) (r : Region) (hr : r ∈ blocks) :
  r.start ≠ (blocks.map Region.stop).max?.getD 0 + 1 ∧
    r.Disjoint ⟨(blocks.map Region.stop).max?.getD 0 + 1, n⟩
  := by
  have hle : r.stop ≤ (blocks.map Region.stop).max?.getD 0 :=
    le_max?_getD_of_mem (mem_map_of_mem hr)
  constructor
  · rw [Region.stop] at hle
    omega
  · rintro x ⟨-, hx⟩ ⟨hin, -⟩
    dsimp only at hin
    omega

def SysvHeap.next : SysvHeap where
  malloc _ s := ((s.blocks.map Region.stop).max?.getD 0 + 1, s.mem)
  free _ s := s.mem
  malloc_mem _ _ _ _ := rfl
  malloc_fresh n s _ := next_fresh n s.blocks
  free_mem _ _ _ _ := rfl

/-- A block of sixteen bytes that is made smaller. -/
theorem wineRealloc_ok_shrink :
  ReallocOk ⟨fun _ => 0, [⟨0x1000, 16⟩]⟩ 0x1000 16 8
    (wineRealloc .next 0x1000 8 ⟨fun _ => 0, [⟨0x1000, 16⟩]⟩)
  :=
  (wineRealloc_ok_iff .next _ 0x1000 16 8 (by decide) mem_cons_self).mpr (Or.inl (by decide))

/-- A block of one byte that grows to sixteen is read past its end. -/
theorem wineRealloc_grow_reads :
  ⟨0x1000, 16⟩ ∈ (wineRealloc .next 0x1000 16 ⟨fun _ => 0, [⟨0x1000, 1⟩]⟩).trace ∧
    0x100f ∈ (⟨0x1000, 16⟩ : Region) ∧ 0x100f ∉ (⟨0x1000, 1⟩ : Region)
  := by
  decide

end Msvcrt
