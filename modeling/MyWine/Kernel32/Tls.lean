import MyWine.Basic
import MyWine.Lib.Run
import MyWine.Lib.Table

/-!
# Thread-local storage

`msvcrt/kernel32_tls.c` has 64 slots and a bitmap of 32 bits.  The processor takes the count of the
shift `1u << i` modulo `32`, as `<<<` does here, so that the indices `i` and `i + 32` share a bit.
The guest sees the indices that were returned to it and not freed, with the values that it set
(`TlsRun.live`).  Among the first 32 indices the calls are right (`tls_along`), but no index from `32`
on is ever allocated, and freeing one of them frees the index below that has the same bit.
-/

namespace Kernel32

open Function

/-- `g_tls_bitmap` and `g_tls_values`. -/
structure TlsState where
  bitmap : UInt32
  values : ℕ → Ptr

def tlsSlotsMax : ℕ := 64

def tlsMask (i : UInt32) : UInt32 := 1 <<< i

def tlsAlloc (s : TlsState) : UInt32 × TlsState :=
  match Table.firstSlot fun i : Fin tlsSlotsMax => s.bitmap &&& tlsMask (.ofNat i) = 0 with
  | some i => (.ofNat i, ⟨s.bitmap ||| tlsMask (.ofNat i), update s.values i 0⟩)
  | none => (0xffffffff, s)

def tlsFree (i : UInt32) (s : TlsState) : Bool × TlsState :=
  if tlsSlotsMax ≤ i.toNat then (false, s)
  else (true, ⟨s.bitmap &&& ~~~tlsMask i, update s.values i.toNat 0⟩)

def tlsSetValue (i : UInt32) (v : Ptr) (s : TlsState) : Bool × TlsState :=
  if tlsSlotsMax ≤ i.toNat ∨ s.bitmap &&& tlsMask i = 0 then (false, s)
  else (true, { s with values := update s.values i.toNat v })

def tlsGetValue (i : UInt32) (s : TlsState) : Ptr :=
  if tlsSlotsMax ≤ i.toNat ∨ s.bitmap &&& tlsMask i = 0 then 0 else s.values i.toNat

/-! ### Runs -/

/-- A call of the guest. -/
inductive TlsCall where
  | alloc
  | free (i : UInt32)
  | setValue (i : UInt32) (v : Ptr)
  | getValue (i : UInt32)

/-- The slots, and the values of the indices that the guest has allocated and not freed. -/
structure TlsRun where
  tls : TlsState
  live : ℕ → Option Ptr

def tlsStep (s : TlsRun) : TlsCall → TlsRun
  | .alloc =>
    let (i, tls) := tlsAlloc s.tls
    ⟨tls, if i = 0xffffffff then s.live else update s.live i.toNat (some 0)⟩
  | .free i => ⟨(tlsFree i s.tls).2, update s.live i.toNat none⟩
  | .setValue i v => ⟨(tlsSetValue i v s.tls).2, update s.live i.toNat ((s.live i.toNat).map fun _ => v)⟩
  | .getValue _ => s

/-- What the guest may expect: a new index is one that it does not have, and is refused only if it has
them all; and an index that it has gives the value that was set. -/
def TlsOk (s : TlsRun) : TlsCall → Prop
  | .alloc =>
    if (tlsAlloc s.tls).1 = 0xffffffff then ∀ i < tlsSlotsMax, (s.live i).isSome
    else (tlsAlloc s.tls).1.toNat < tlsSlotsMax ∧ s.live (tlsAlloc s.tls).1.toNat = none
  | .getValue i => ∀ v, s.live i.toNat = some v → tlsGetValue i s.tls = v
  | _ => True

/-- One of the first 32 indices is not allocated when one is allocated, and a larger index is freed
only if the index with the same bit is not allocated. -/
def TlsMeets (s : TlsRun) : TlsCall → Prop
  | .alloc => ∃ i < 32, s.live i = none
  | .free i => 32 ≤ i.toNat → i.toNat < tlsSlotsMax → s.live (i.toNat - 32) = none
  | _ => True

instance (s : TlsRun) (c : TlsCall) : Decidable (TlsMeets s c) :=
  match c with
  | .alloc => inferInstanceAs (Decidable (∃ i < 32, s.live i = none))
  | .free i => inferInstanceAs (Decidable (32 ≤ i.toNat → i.toNat < 64 → s.live (i.toNat - 32) = none))
  | .setValue _ _ => inferInstanceAs (Decidable True)
  | .getValue _ => inferInstanceAs (Decidable True)

def TlsRun.start : TlsRun := ⟨⟨0, fun _ => 0⟩, fun _ => none⟩

/-! ### Bits -/

section

variable {b i j : UInt32}

theorem toBitVec_tlsMask (i : UInt32) :
  (tlsMask i).toBitVec = BitVec.twoPow 32 (i.toNat % 32)
  := by
  simp [tlsMask, BitVec.twoPow, BitVec.toNat_umod]

theorem and_tlsMask_eq_zero_iff :
  b &&& tlsMask i = 0 ↔ b.toBitVec.getLsbD (i.toNat % 32) = false
  := by
  have hlt : i.toNat % 32 < 32 := Nat.mod_lt _ (by decide)
  have hne : BitVec.twoPow 32 (i.toNat % 32) ≠ 0#32 := by
    intro hzero
    have hbit := congrArg (fun x => x.getLsbD (i.toNat % 32)) hzero
    simp [hlt] at hbit
  rw [← UInt32.toBitVec_inj, UInt32.toBitVec_and, toBitVec_tlsMask, BitVec.and_twoPow]
  cases b.toBitVec.getLsbD (i.toNat % 32) <;> simp [hne]

theorem or_tlsMask_eq_zero_iff :
  (b ||| tlsMask j) &&& tlsMask i = 0 ↔ b &&& tlsMask i = 0 ∧ j.toNat % 32 ≠ i.toNat % 32
  := by
  have hlt : j.toNat % 32 < 32 := Nat.mod_lt _ (by decide)
  simp [and_tlsMask_eq_zero_iff, toBitVec_tlsMask, hlt]

theorem and_not_tlsMask_eq_zero_iff :
  (b &&& ~~~tlsMask j) &&& tlsMask i = 0 ↔ b &&& tlsMask i = 0 ∨ j.toNat % 32 = i.toNat % 32
  := by
  have hlt : i.toNat % 32 < 32 := Nat.mod_lt _ (by decide)
  simp only [and_tlsMask_eq_zero_iff, UInt32.toBitVec_and, UInt32.toBitVec_not, toBitVec_tlsMask,
    BitVec.getLsbD_and, BitVec.getLsbD_not, BitVec.getLsbD_twoPow, hlt]
  cases b.toBitVec.getLsbD (i.toNat % 32) <;> simp +contextual [hlt]

end

/-! ### The first 32 indices -/

/-- The bits are those of the allocated indices, which are among the first 32. -/
structure TlsRun.Tracks (s : TlsRun) : Prop where
  used : ∀ i : UInt32, i.toNat < 32 → (s.tls.bitmap &&& tlsMask i = 0 ↔ s.live i.toNat = none)
  live : ∀ {i v}, s.live i = some v → i < 32 ∧ s.tls.values i = v

namespace TlsRun.Tracks

variable {s : TlsRun} {i : UInt32} {v : Ptr}

theorem update (h : s.Tracks) {j : ℕ} {o : Option Ptr} {bitmap : UInt32} {values : ℕ → Ptr}
    (hused : ∀ i : UInt32, i.toNat < 32 →
      (bitmap &&& tlsMask i = 0 ↔ Function.update s.live j o i.toNat = none))
    (ho : ∀ v, o = some v → j < 32 ∧ values j = v) (hvalues : ∀ i ≠ j, values i = s.tls.values i) :
  Tracks ⟨⟨bitmap, values⟩, Function.update s.live j o⟩
  := by
  refine ⟨hused, ?_⟩
  intro i v hv
  rcases eq_or_ne i j with rfl | hne
  · simp only [update_self] at hv
    apply ho v hv
  · simp only [update_of_ne hne] at hv ⊢
    rw [hvalues i hne]
    apply h.live hv

theorem exists_alloc (h : s.Tracks) (hfree : ∃ i < 32, s.live i = none) :
  ∃ j : UInt32, j.toNat < 32 ∧ s.live j.toNat = none ∧
    tlsAlloc s.tls = (j, ⟨s.tls.bitmap ||| tlsMask j, Function.update s.tls.values j.toNat 0⟩)
  := by
  have htoNat {k : ℕ} (hk : k < 32) : (UInt32.ofNat k).toNat = k :=
    UInt32.toNat_ofNat_of_lt (Nat.lt_trans hk (by decide))
  obtain ⟨i, hi, hnone⟩ := hfree
  have hzero : s.tls.bitmap &&& tlsMask (.ofNat i) = 0 := by
    rw [h.used _ (by rwa [htoNat hi]), htoNat hi, hnone]
  have hmax : i < tlsSlotsMax := Nat.lt_trans hi (by decide)
  cases hslot : Table.firstSlot fun i : Fin tlsSlotsMax =>
      decide (s.tls.bitmap &&& tlsMask (.ofNat i) = 0) with
  | none => exact absurd hzero (of_decide_eq_false (Table.firstSlot_eq_none_iff.mp hslot ⟨i, hmax⟩))
  | some j =>
    obtain ⟨hj, hbefore⟩ := Table.firstSlot_eq_some_iff.mp hslot
    have hle : j.val ≤ i := by
      by_contra hlt
      exact of_decide_eq_false (hbefore ⟨i, hmax⟩ (Nat.lt_of_not_le hlt)) hzero
    have heq := htoNat (Nat.lt_of_le_of_lt hle hi)
    refine ⟨.ofNat j, by omega, ?_, ?_⟩
    · rw [← h.used _ (by omega)]
      apply of_decide_eq_true hj
    · rw [tlsAlloc, hslot, heq]

theorem alloc (h : s.Tracks) (hfree : ∃ i < 32, s.live i = none) :
  TlsOk s .alloc ∧ (tlsStep s .alloc).Tracks
  := by
  obtain ⟨j, hj, hnone, halloc⟩ := h.exists_alloc hfree
  have hne : j ≠ 0xffffffff := by
    rintro rfl
    revert hj
    decide
  simp only [TlsOk, tlsStep, halloc, if_neg hne]
  refine ⟨⟨Nat.lt_trans hj (by decide), hnone⟩, h.update ?_ ?_ fun i hi => update_of_ne hi _ _⟩
  · intro i hi
    rw [or_tlsMask_eq_zero_iff, h.used i hi, Nat.mod_eq_of_lt hi, Nat.mod_eq_of_lt hj]
    rcases eq_or_ne i.toNat j.toNat with heq | hne
    · simp [heq]
    · simp [hne, hne.symm]
  · rintro v ⟨⟩
    exact ⟨hj, update_self _ _ _⟩

theorem free (h : s.Tracks) (hi : TlsMeets s (.free i)) :
  (tlsStep s (.free i)).Tracks
  := by
  rw [tlsStep, tlsFree]
  split_ifs with hmax
  · apply h.update (o := none) _ nofun fun _ _ => rfl
    intro k hk
    have hne : k.toNat ≠ i.toNat := by
      rw [tlsSlotsMax] at hmax
      omega
    rw [update_of_ne hne, h.used k hk]
  · apply h.update (o := none) _ nofun fun k hk => update_of_ne hk _ _
    intro k hk
    rw [and_not_tlsMask_eq_zero_iff, h.used k hk, Nat.mod_eq_of_lt hk]
    rcases eq_or_ne k.toNat i.toNat with heq | hne
    · rw [← heq, Nat.mod_eq_of_lt hk, update_self]
      simp
    · rw [update_of_ne hne, or_iff_left_iff_imp]
      -- the index with the same bit is the one 32 below
      intro hmod
      rw [tlsSlotsMax] at hmax
      have hk' : k.toNat = i.toNat - 32 := by omega
      rw [hk']
      apply hi (by omega)
      rw [tlsSlotsMax]
      omega

theorem eq_none_of_unset (h : s.Tracks) :
  (tlsSlotsMax ≤ i.toNat ∨ s.tls.bitmap &&& tlsMask i = 0) → s.live i.toNat = none
  := by
  intro hunset
  cases hv : s.live i.toNat with
  | none => rfl
  | some v =>
    have hlow := (h.live hv).1
    rcases hunset with hmax | hzero
    · rw [tlsSlotsMax] at hmax
      omega
    · rw [h.used i hlow, hv] at hzero
      cases hzero

theorem setValue (h : s.Tracks) (i : UInt32) (v : Ptr) :
  (tlsStep s (.setValue i v)).Tracks
  := by
  have hused (k : UInt32) (hk : k.toNat < 32) : s.tls.bitmap &&& tlsMask k = 0 ↔
      Function.update s.live i.toNat ((s.live i.toNat).map fun _ => v) k.toNat = none := by
    rw [h.used k hk]
    rcases eq_or_ne k.toNat i.toNat with heq | hne
    · simp [heq]
    · rw [update_of_ne hne]
  rw [tlsStep, tlsSetValue]
  split_ifs with hunset
  · apply h.update hused _ fun _ _ => rfl
    rw [h.eq_none_of_unset hunset]
    nofun
  · apply h.update hused _ fun k hk => update_of_ne hk _ _
    intro v' hv
    obtain ⟨w, hw, rfl⟩ := Option.map_eq_some_iff.mp hv
    exact ⟨(h.live hw).1, update_self _ _ _⟩

theorem getValue (h : s.Tracks) (hv : s.live i.toNat = some v) :
  tlsGetValue i s.tls = v
  := by
  rw [tlsGetValue, if_neg, (h.live hv).2]
  intro hunset
  rw [h.eq_none_of_unset hunset] at hv
  cases hv

end TlsRun.Tracks

/-- In every run whose calls meet the conditions, the guest gets what it may expect. -/
theorem tls_along (calls : List TlsCall) (h : Run.Along tlsStep TlsMeets .start calls) :
  Run.Along tlsStep TlsOk .start calls
  := by
  apply h.imp_of_invariant TlsRun.Tracks
  · intro s c hs hc
    cases c with
    | alloc => apply (hs.alloc hc).2
    | free i => apply hs.free hc
    | setValue i v => apply hs.setValue
    | getValue i => apply hs
  · intro s c hs hc
    cases c with
    | alloc => apply (hs.alloc hc).1
    | free i => trivial
    | setValue i v => trivial
    | getValue i => apply fun v => hs.getValue
  · exact ⟨fun i _ => by simp [TlsRun.start], nofun⟩

/-- All 32 indices are allocated and set, and one of them is freed and allocated again. -/
theorem tls_along_all :
  Run.Along tlsStep TlsOk .start
    (List.replicate 32 .alloc ++ [.setValue 5 7, .getValue 5, .free 3, .free 70, .alloc, .getValue 5])
  :=
  tls_along _ (by decide +kernel)

def freedTwin : TlsRun := (List.replicate 6 TlsCall.alloc ++ [TlsCall.free 37]).foldl tlsStep .start

/-- The index `32` is refused although half of the slots are free, and `TlsFree(37)` makes the index
`5`, which is allocated, be allocated again. -/
theorem tls_aliased :
  (tlsAlloc ((List.replicate 32 .alloc).foldl tlsStep .start).tls).1 = 0xffffffff ∧
    ((List.replicate 32 .alloc).foldl tlsStep .start).live 32 = none ∧
    (tlsAlloc freedTwin.tls).1 = 5 ∧ freedTwin.live 5 = some 0
  := by
  decide +kernel

end Kernel32
