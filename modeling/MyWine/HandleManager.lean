import MyWine.Basic
import MyWine.Lib.Run
import MyWine.Lib.Table

/-!
# The handle table

`msvcrt/handle_manager.c` keeps the handles of the process in a table of `512` slots, each with a
reference count of eight bits.  The handle of an object is the index of its slot; the first three
slots hold the standard streams.  `wineHandleAlloc`, `wineHandleAddRef` and `wineHandleFree` change
the table, `wineHandleGet` and `wineHandleGetType` observe it.  Every operation holds the lock of
the table, so that a history of the table is a list of operations (`HandleOp`).

An allocated slot is followed through a history by `holds_of_noExcess`: it keeps its object and
its type as long as the frees do not exceed the references counted in its favour, and
`dead_of_excess`: it is dead from the first excess on.
-/

namespace HandleManager

open Function List

def handleTableSize : ℕ := 512

def handleTypeFile : UInt8 := 0x01

structure WineHandle where
  id : ℕ
  type : UInt8
  refCount : UInt8
  object : Ptr
  deriving DecidableEq

def WineHandle.empty : WineHandle := ⟨0, 0, 0, 0⟩

abbrev HandleTable : Type := Fin handleTableSize → WineHandle

/-- `wine_handle_manager_runtime_init`: the standard streams in the slots `0`, `1` and `2`, all
other slots empty. -/
def wineHandleManagerRuntimeInit : HandleTable := fun i =>
  if i.val ≤ 2 then ⟨i.val, handleTypeFile, 1, i.val⟩ else .empty

def wineHandleSlot (handle : ℕ) : Option (Fin handleTableSize) :=
  if h : handle < handleTableSize then some ⟨handle, h⟩ else none

/-- `wine_handle_alloc`: the handle, or `0` when there is no free slot, and the table after the
call. -/
def wineHandleAlloc (t : HandleTable) (type : UInt8) (object : Ptr) : ℕ × HandleTable :=
  match Table.firstSlot fun i => decide (3 ≤ i.val ∧ (t i).refCount = 0) with
  | some i => (i.val, update t i ⟨i.val, type, 1, object⟩)
  | none => (0, t)

def wineHandleGet (t : HandleTable) (handle : ℕ) : Ptr :=
  match wineHandleSlot handle with
  | none => 0
  | some i => if (t i).refCount = 0 then 0 else (t i).object

def wineHandleGetType (t : HandleTable) (handle : ℕ) : UInt8 :=
  match wineHandleSlot handle with
  | none => 0
  | some i => if (t i).refCount = 0 then 0 else (t i).type

def WineHandle.addRef (s : WineHandle) : WineHandle :=
  if s.refCount ≠ 0 ∧ s.refCount < 255 then { s with refCount := s.refCount + 1 } else s

def WineHandle.free (s : WineHandle) : WineHandle :=
  if s.refCount ≠ 0 then
    let refCount := s.refCount - 1
    if refCount = 0 then .empty else { s with refCount }
  else s

def wineHandleAddRef (t : HandleTable) (handle : ℕ) : HandleTable :=
  match wineHandleSlot handle with
  | none => t
  | some i => update t i (t i).addRef

def wineHandleFree (t : HandleTable) (handle : ℕ) : HandleTable :=
  if handle ≤ 2 then t else
    match wineHandleSlot handle with
    | none => t
    | some i => update t i (t i).free

/-- An operation on the table. -/
inductive HandleOp where
  | alloc (type : UInt8) (object : Ptr)
  | addRef (handle : ℕ)
  | free (handle : ℕ)
  deriving DecidableEq

def step (t : HandleTable) : HandleOp → HandleTable
  | .alloc type object => (wineHandleAlloc t type object).2
  | .addRef handle => wineHandleAddRef t handle
  | .free handle => wineHandleFree t handle

def run (ops : List HandleOp) : HandleTable :=
  ops.foldl step wineHandleManagerRuntimeInit

def Live (t : HandleTable) (h : ℕ) : Prop :=
  ∃ i, wineHandleSlot h = some i ∧ (t i).refCount ≠ 0

def Returns (h : ℕ) (t : HandleTable) (op : HandleOp) : Prop :=
  ∃ type object, op = .alloc type object ∧ (wineHandleAlloc t type object).1 = h

/-! ### One operation and one slot -/

@[simp]
theorem wineHandleSlot_val (i : Fin handleTableSize) :
  wineHandleSlot i.val = some i
  := by
  simp [wineHandleSlot]

variable {h : ℕ} {i : Fin handleTableSize} {t : HandleTable} {object : Ptr} {type : UInt8}
  {ops : List HandleOp} {s : WineHandle}

theorem wineHandleSlot_eq_some_iff :
  wineHandleSlot h = some i ↔ h = i.val
  := by
  constructor
  · intro he
    simp only [wineHandleSlot, Option.dite_none_right_eq_some, Option.some.injEq] at he
    obtain ⟨_, rfl⟩ := he
    rfl
  · rintro rfl
    apply wineHandleSlot_val

theorem live_val_iff :
  Live t i.val ↔ (t i).refCount ≠ 0
  := by
  simp [Live]

theorem get_of_live (h : (t i).refCount ≠ 0) :
  wineHandleGet t i.val = (t i).object ∧ wineHandleGetType t i.val = (t i).type
  := by
  simp [wineHandleGet, wineHandleGetType, h]

theorem get_of_dead (h : (t i).refCount = 0) :
  wineHandleGet t i.val = 0 ∧ wineHandleGetType t i.val = 0
  := by
  simp [wineHandleGet, wineHandleGetType, h]

/-- What is read for a handle is that of its slot, if this has references, or zero. -/
theorem get_cases (t : HandleTable) (h : ℕ) :
  (∃ i : Fin handleTableSize, h = i.val ∧ (t i).refCount ≠ 0 ∧ wineHandleGet t h = (t i).object ∧
      wineHandleGetType t h = (t i).type) ∨
    wineHandleGet t h = 0 ∧ wineHandleGetType t h = 0
  := by
  cases hslot : wineHandleSlot h with
  | none => simp [wineHandleGet, wineHandleGetType, hslot]
  | some i =>
    obtain rfl := wineHandleSlot_eq_some_iff.mp hslot
    by_cases hdead : (t i).refCount = 0
    · exact .inr (get_of_dead hdead)
    · exact .inl ⟨i, rfl, hdead, get_of_live hdead⟩

theorem wineHandleFree_val (h3 : 3 ≤ i.val) :
  wineHandleFree t i.val = update t i (t i).free
  := by
  rw [wineHandleFree, if_neg (by omega), wineHandleSlot_val]

/-- A call that frees acts on a slot with references past the standard streams, or on none. -/
theorem wineHandleFree_cases (t : HandleTable) (h : ℕ) :
  (∃ i : Fin handleTableSize, h = i.val ∧ 3 ≤ i.val ∧ (t i).refCount ≠ 0 ∧
      wineHandleFree t h = update t i (t i).free) ∨
    wineHandleFree t h = t
  := by
  by_cases h2 : h ≤ 2
  · exact .inr (if_pos h2)
  · cases hslot : wineHandleSlot h with
    | none => simp [wineHandleFree, hslot]
    | some i =>
      obtain rfl := wineHandleSlot_eq_some_iff.mp hslot
      by_cases hdead : (t i).refCount = 0
      · simp [wineHandleFree, h2, WineHandle.free, hdead]
      · exact .inl ⟨i, rfl, by omega, hdead, wineHandleFree_val (by omega)⟩

theorem wineHandleFree_of_one (h3 : 3 ≤ i.val) (hone : (t i).refCount = 1) :
  wineHandleFree t i.val = update t i .empty
  := by
  rw [wineHandleFree_val h3, WineHandle.free, hone]
  rfl

/-- What an allocation does: it takes the first slot from `3` on without references, or fails
when there is none. -/
theorem wineHandleAlloc_cases (t : HandleTable) (type : UInt8) (object : Ptr) :
  (∃ i, 3 ≤ i.val ∧ (t i).refCount = 0 ∧
      wineHandleAlloc t type object = (i.val, update t i ⟨i.val, type, 1, object⟩)) ∨
    ((∀ i : Fin handleTableSize, 3 ≤ i.val → (t i).refCount ≠ 0) ∧
      wineHandleAlloc t type object = (0, t))
  := by
  cases hf : Table.firstSlot fun i => decide (3 ≤ i.val ∧ (t i).refCount = 0) with
  | some i =>
    obtain ⟨hfree, -⟩ := Table.firstSlot_eq_some_iff.mp hf
    obtain ⟨h3, h0⟩ := of_decide_eq_true hfree
    left
    exact ⟨i, h3, h0, by rw [wineHandleAlloc, hf]⟩
  | none =>
    rw [Table.firstSlot_eq_none_iff] at hf
    right
    constructor
    · intro i h3 h0
      apply of_decide_eq_false (hf i) ⟨h3, h0⟩
    · rw [wineHandleAlloc, Table.firstSlot_eq_none_iff.mpr hf]

theorem wineHandleAlloc_first
    {t : HandleTable} {type : UInt8} {object : Ptr} {j : Fin handleTableSize} (h3 : 3 ≤ j.val)
    (hlt : j.val < (wineHandleAlloc t type object).1) :
  (t j).refCount ≠ 0
  := by
  cases hf : Table.firstSlot fun i => decide (3 ≤ i.val ∧ (t i).refCount = 0) with
  | some i =>
    obtain ⟨-, hfirst⟩ := Table.firstSlot_eq_some_iff.mp hf
    simp only [wineHandleAlloc, hf] at hlt
    intro h0
    apply of_decide_eq_false (hfirst j hlt) ⟨h3, h0⟩
  | none =>
    simp only [wineHandleAlloc, hf] at hlt
    omega

/-- An allocation that returns a handle returns that of a slot from `3` on that had no
references, and stores the type and the object there with one reference. -/
theorem wineHandleAlloc_spec {t' : HandleTable} (halloc : wineHandleAlloc t type object = (h, t'))
    (hne : h ≠ 0) :
  ∃ i : Fin handleTableSize, 3 ≤ i.val ∧ h = i.val ∧ t' i = ⟨i.val, type, 1, object⟩ ∧
    (t i).refCount = 0
  := by
  rcases wineHandleAlloc_cases t type object with ⟨i, h3, h0, he⟩ | ⟨-, he⟩
  · rw [halloc, Prod.mk.injEq] at he
    obtain ⟨rfl, rfl⟩ := he
    exact ⟨i, h3, rfl, update_self .., h0⟩
  · rw [halloc, Prod.mk.injEq] at he
    apply absurd he.1 hne

/-- What an operation does to the slot `i`: an allocation that returns `i` fills it, an `add_ref`
of `i` and, past the standard streams, a `free` of `i` act on it, and every other operation leaves
it alone. -/
theorem step_apply (t : HandleTable) (op : HandleOp) (i : Fin handleTableSize) :
  (∃ type object, op = .alloc type object ∧ Returns i.val t op ∧ 3 ≤ i.val ∧
      (t i).refCount = 0 ∧ step t op i = ⟨i.val, type, 1, object⟩) ∨
    (op = .addRef i.val ∧ step t op i = (t i).addRef) ∨
    (op = .free i.val ∧ 3 ≤ i.val ∧ step t op i = (t i).free) ∨
    (op ≠ .addRef i.val ∧ (op = .free i.val → i.val ≤ 2) ∧ step t op i = t i)
  := by
  cases op with
  | alloc type object =>
    rcases wineHandleAlloc_cases t type object with ⟨j, h3, h0, he⟩ | ⟨-, he⟩
    · rcases eq_or_ne i j with rfl | hne
      · left
        exact ⟨type, object, rfl, ⟨type, object, rfl, by rw [he]⟩, h3, h0, by simp [step, he]⟩
      · simp [step, he, hne]
    · simp [step, he]
  | addRef handle =>
    rcases eq_or_ne handle i.val with rfl | hne
    · simp [step, wineHandleAddRef]
    · right; right; right
      cases hs : wineHandleSlot handle with
      | none => simp [step, wineHandleAddRef, hs, hne]
      | some j =>
        obtain rfl := wineHandleSlot_eq_some_iff.mp hs
        have hij : i ≠ j := fun h => hne (h ▸ rfl)
        simp [step, wineHandleAddRef, hij, hne]
  | free handle =>
    rcases eq_or_ne handle i.val with rfl | hne
    · by_cases h2 : i.val ≤ 2
      · simp [step, wineHandleFree, h2]
      · simp [step, wineHandleFree, h2]
        omega
    · right; right; right
      rcases wineHandleFree_cases t handle with ⟨j, rfl, -, -, hfree⟩ | hfree
      · have hij : i ≠ j := fun h => hne (h ▸ rfl)
        simp [step, hfree, hij, hne]
      · simp [step, hfree, hne]

theorem foldl_step_of_ne (hlive : (t i).refCount ≠ 0)
    (hops : ∀ op ∈ ops, op ≠ .addRef i.val ∧ op ≠ .free i.val) :
  ops.foldl step t i = t i
  := by
  induction ops generalizing t with
  | nil => rfl
  | cons op ops ih =>
    obtain ⟨⟨hadd, hfree⟩, hrest⟩ := forall_mem_cons.mp hops
    have hkeep : step t op i = t i := by
      rcases step_apply t op i with ⟨_, _, _, _, _, h0, _⟩ | ⟨rfl, _⟩ | ⟨rfl, _⟩ | ⟨_, _, hs⟩
      · contradiction
      · contradiction
      · contradiction
      · apply hs
    rw [foldl_cons, ih (hkeep ▸ hlive) hrest, hkeep]

/-! ### Counting references -/

def frees (h : ℕ) (ops : List HandleOp) : ℕ := ops.count (.free h)

def addRefs (h : ℕ) (ops : List HandleOp) : ℕ := ops.count (.addRef h)

/-- The number of `add_ref` calls on `h` that count in a history that follows the allocation of
`h`: one made while `255` references are outstanding, the allocation and the calls counted so far
less the frees, does not count. -/
def countedAddRefs (h : ℕ) (ops : List HandleOp) : ℕ :=
  (ops.foldl tally (0, 0)).1
where
  /-- The counted `add_ref` calls and the frees after one more operation. -/
  tally (n : ℕ × ℕ) : HandleOp → ℕ × ℕ
    | .alloc _ _ => n
    | .addRef k => if k = h ∧ n.1 + 1 < n.2 + 255 then (n.1 + 1, n.2) else n
    | .free k => if k = h then (n.1, n.2 + 1) else n

@[simp]
theorem frees_nil (h : ℕ) :
  frees h [] = 0
  := rfl

theorem frees_concat (h : ℕ) (ops : List HandleOp) (op : HandleOp) :
  frees h (ops ++ [op]) = frees h ops + if op = .free h then 1 else 0
  := by
  simp [frees, count_singleton]

theorem tally_snd (h : ℕ) (ops : List HandleOp) :
  (ops.foldl (countedAddRefs.tally h) (0, 0)).2 = frees h ops
  := by
  induction ops using List.reverseRecOn with
  | nil => rfl
  | append_singleton ops op ih =>
    rw [foldl_append, frees_concat, ← ih]
    cases op with
    | alloc type object => simp [countedAddRefs.tally]
    | addRef k =>
      simp only [foldl_cons, foldl_nil, countedAddRefs.tally, reduceCtorEq, if_false]
      split <;> rfl
    | free k =>
      simp only [foldl_cons, foldl_nil, countedAddRefs.tally, HandleOp.free.injEq]
      split <;> rfl

/-- One more operation counts if it is an `add_ref` of `h` while fewer than `255` references are
outstanding. -/
theorem countedAddRefs_concat (h : ℕ) (ops : List HandleOp) (op : HandleOp) :
  countedAddRefs h (ops ++ [op]) = countedAddRefs h ops +
    if op = .addRef h ∧ countedAddRefs h ops + 1 < frees h ops + 255 then 1 else 0
  := by
  rw [countedAddRefs, countedAddRefs, foldl_append, ← tally_snd]
  cases op with
  | alloc type object => simp [countedAddRefs.tally]
  | addRef k =>
    simp only [foldl_cons, foldl_nil, countedAddRefs.tally, HandleOp.addRef.injEq]
    split <;> rfl
  | free k =>
    simp only [foldl_cons, foldl_nil, countedAddRefs.tally, reduceCtorEq, false_and,
      if_false]
    split <;> rfl

/-- No part of the history from its beginning frees `h` more often than references count in
favour of `h`. -/
def NoExcess (h : ℕ) (ops : List HandleOp) : Prop :=
  ∀ q, q <+: ops → frees h q ≤ countedAddRefs h q

theorem noExcess_concat {op : HandleOp} :
  NoExcess h (ops ++ [op]) ↔
    NoExcess h ops ∧ frees h (ops ++ [op]) ≤ countedAddRefs h (ops ++ [op])
  := by
  simp [NoExcess, prefix_concat_iff, or_imp, forall_and, and_comm]

/-! ### The life of an allocated slot -/

theorem WineHandle.refCount_ne_zero_iff :
  s.refCount ≠ 0 ↔ 0 < s.refCount.toNat
  := by
  rw [Nat.pos_iff_ne_zero, ne_eq, ← UInt8.toNat_inj]
  rfl

/-- An `add_ref` of a live slot adds a reference unless there are `255`, and changes nothing
else. -/
theorem WineHandle.addRef_of_live (h : s.refCount ≠ 0) :
  s.addRef.type = s.type ∧ s.addRef.object = s.object ∧
    s.addRef.refCount.toNat = s.refCount.toNat + if s.refCount.toNat < 255 then 1 else 0
  := by
  by_cases hlt : s.refCount < 255
  · have hlt' : s.refCount.toNat < 255 := UInt8.lt_iff_toNat_lt.mp hlt
    simp [WineHandle.addRef, h, hlt, hlt', UInt8.toNat_add]
    omega
  · have hlt' : ¬ s.refCount.toNat < 255 := fun hn => hlt (UInt8.lt_iff_toNat_lt.mpr hn)
    simp [WineHandle.addRef, hlt, hlt']

/-- A `free` of a live slot takes one reference away, and changes the object and the type only
when it takes the last one. -/
theorem WineHandle.free_of_live (h : s.refCount ≠ 0) :
  s.free.refCount.toNat + 1 = s.refCount.toNat ∧
    (s.free.refCount ≠ 0 → s.free.type = s.type ∧ s.free.object = s.object)
  := by
  have hpos := refCount_ne_zero_iff.mp h
  have hsub : (s.refCount - 1).toNat + 1 = s.refCount.toNat := by
    have h1 : (1 : UInt8) ≤ s.refCount := UInt8.le_iff_toNat_le.mpr hpos
    rw [UInt8.toNat_sub_of_le _ _ h1]
    simp
    omega
  by_cases h1 : s.refCount - 1 = 0
  · rw [h1] at hsub
    simp [WineHandle.free, h, h1, WineHandle.empty, ← hsub]
  · simp [WineHandle.free, h, h1, hsub]

/-- As long as the frees do not exceed the counted references, a slot filled by an allocation
keeps its type and its object, and its reference count is the difference. -/
theorem holds_of_noExcess (h3 : 3 ≤ i.val) (ht : t i = ⟨i.val, type, 1, object⟩)
    (h : NoExcess i.val ops) :
  (ops.foldl step t i).type = type ∧ (ops.foldl step t i).object = object ∧
    (ops.foldl step t i).refCount.toNat + frees i.val ops = countedAddRefs i.val ops + 1
  := by
  induction ops using List.reverseRecOn with
  | nil => simp [ht, countedAddRefs]
  | append_singleton ops op ih =>
    obtain ⟨hops, hop⟩ := noExcess_concat.mp h
    obtain ⟨htype, hobject, hcount⟩ := ih hops
    have hle := hops ops (prefix_refl ops)
    have hlive : (ops.foldl step t i).refCount ≠ 0 :=
      WineHandle.refCount_ne_zero_iff.mpr (by omega)
    rw [frees_concat, countedAddRefs_concat] at hop ⊢
    rw [foldl_append, foldl_cons, foldl_nil]
    rcases step_apply (ops.foldl step t) op i with
      ⟨_, _, _, _, _, h0, _⟩ | ⟨rfl, hs⟩ | ⟨rfl, _, hs⟩ | ⟨hadd, hfree, hs⟩
    · contradiction
    · obtain ⟨ht', ho', hc'⟩ := WineHandle.addRef_of_live hlive
      rw [hs, ht', ho', hc']
      use htype, hobject
      simp only [reduceCtorEq, if_false, true_and]
      split_ifs <;> omega
    · obtain ⟨hc', hkeep⟩ := WineHandle.free_of_live hlive
      simp only [if_true, reduceCtorEq, false_and, if_false, Nat.add_zero] at hop ⊢
      obtain ⟨ht', ho'⟩ := hkeep (WineHandle.refCount_ne_zero_iff.mpr (by omega))
      rw [hs, ht', ho']
      use htype, hobject
      omega
    · have hnot : op ≠ .free i.val := fun he => by have := hfree he; omega
      rw [hs]
      simpa [hadd, hnot] using ⟨htype, hobject, hcount⟩

/-- A slot filled by an allocation is live as long as the frees do not exceed the counted
references. -/
theorem live_of_noExcess (h3 : 3 ≤ i.val) (ht : t i = ⟨i.val, type, 1, object⟩)
    (h : NoExcess i.val ops) :
  (ops.foldl step t i).refCount ≠ 0
  := by
  obtain ⟨-, -, hcount⟩ := holds_of_noExcess h3 ht h
  have hle := h ops (prefix_refl ops)
  apply WineHandle.refCount_ne_zero_iff.mpr
  omega

/-- Once the frees exceed the counted references, a slot filled by an allocation is dead until an
allocation returns it again. -/
theorem dead_of_excess (h3 : 3 ≤ i.val) (ht : t i = ⟨i.val, type, 1, object⟩)
    (hops : Run.Along step (fun t op => ¬ Returns i.val t op) t ops) (h : ¬ NoExcess i.val ops) :
  (ops.foldl step t i).refCount = 0
  := by
  induction ops using List.reverseRecOn with
  | nil =>
    apply absurd _ h
    intro q hq
    obtain rfl := prefix_nil.mp hq
    simp
  | append_singleton ops op ih =>
    obtain ⟨hops, hop, -⟩ := (Run.along_append ..).mp hops
    rw [foldl_append, foldl_cons, foldl_nil]
    by_cases hno : NoExcess i.val ops
    -- The last operation is the free that exceeds the count.
    · obtain ⟨-, -, hcount⟩ := holds_of_noExcess h3 ht hno
      have hle := hno ops (prefix_refl ops)
      have hlt : countedAddRefs i.val (ops ++ [op]) < frees i.val (ops ++ [op]) := by
        rw [← not_le]
        intro hle'
        apply h
        apply noExcess_concat.mpr ⟨hno, hle'⟩
      rw [frees_concat, countedAddRefs_concat] at hlt
      have hfree : op = .free i.val := by
        by_contra hne
        rw [if_neg hne] at hlt
        omega
      subst hfree
      simp only [if_true, reduceCtorEq, false_and, if_false, Nat.add_zero] at hlt
      obtain ⟨hc', -⟩ := WineHandle.free_of_live (live_of_noExcess h3 ht hno)
      rw [step, wineHandleFree_val h3, update_self]
      apply UInt8.toNat_inj.mp
      simp
      omega
    · have hdead := ih hops hno
      rcases step_apply (ops.foldl step t) op i with
        ⟨_, _, _, hret, _⟩ | ⟨_, hs⟩ | ⟨_, _, hs⟩ | ⟨_, _, hs⟩
      · contradiction
      · rw [hs, WineHandle.addRef, if_neg (by simp [hdead]), hdead]
      · rw [hs, WineHandle.free, if_neg (by simp [hdead]), hdead]
      · rw [hs, hdead]

/-! ### The contract of the handle table -/

/-- The handle `h` is live, and observed with the object `object` of type `type`. -/
structure Observed (t : HandleTable) (h : ℕ) (type : UInt8) (object : Ptr) : Prop where
  live : Live t h
  get : wineHandleGet t h = object
  getType : wineHandleGetType t h = type

/-- The handle `h` is dead, and observed as `NULL` of type `0`. -/
structure Dead (t : HandleTable) (h : ℕ) : Prop where
  not_live : ¬ Live t h
  get : wineHandleGet t h = 0
  getType : wineHandleGetType t h = 0

theorem observed_val_iff :
  Observed t i.val type object ↔
    (t i).refCount ≠ 0 ∧ (t i).object = object ∧ (t i).type = type
  := by
  constructor
  · rintro ⟨hlive, rfl, rfl⟩
    rw [live_val_iff] at hlive
    obtain ⟨hget, htype⟩ := get_of_live hlive
    rw [hget, htype]
    exact ⟨hlive, rfl, rfl⟩
  · rintro ⟨hlive, rfl, rfl⟩
    obtain ⟨hget, htype⟩ := get_of_live hlive
    exact ⟨live_val_iff.mpr hlive, hget, htype⟩

theorem dead_val_of_refCount (h : (t i).refCount = 0) :
  Dead t i.val
  := by
  obtain ⟨hget, htype⟩ := get_of_dead h
  constructor
  · rw [live_val_iff, not_not]
    apply h
  · apply hget
  · apply htype

/-- A slot filled by an allocation is observed with its type and its object as long as the frees
do not exceed the counted references. -/
theorem observed_of_noExcess (h3 : 3 ≤ i.val) (ht : t i = ⟨i.val, type, 1, object⟩)
    (h : NoExcess i.val ops) :
  Observed (ops.foldl step t) i.val type object
  := by
  obtain ⟨htype, hobject, -⟩ := holds_of_noExcess h3 ht h
  apply observed_val_iff.mpr
  exact ⟨live_of_noExcess h3 ht h, hobject, htype⟩

theorem wineHandleAlloc_eq_zero_iff (t : HandleTable) (type : UInt8) (object : Ptr) :
  (wineHandleAlloc t type object).1 = 0 ↔ ∀ h, 3 ≤ h → h < handleTableSize → Live t h
  := by
  rcases wineHandleAlloc_cases t type object with ⟨i, h3, h0, he⟩ | ⟨hall, he⟩
  · rw [he]
    constructor
    · intro hi
      omega
    · intro hlive
      apply absurd h0
      apply live_val_iff.mp (hlive i.val h3 i.isLt)
  · simp only [he, true_iff]
    intro h h3 hlt
    apply live_val_iff (i := ⟨h, hlt⟩).mpr
    apply hall _ h3

theorem observed_standard (ops : List HandleOp) (hh : h ≤ 2) :
  Observed (run ops) h handleTypeFile h
  := by
  have hlt : h < handleTableSize := by
    rw [handleTableSize]
    omega
  apply observed_val_iff (i := ⟨h, hlt⟩).mpr
  induction ops using List.reverseRecOn with
  | nil => simp [run, wineHandleManagerRuntimeInit, hh]
  | append_singleton ops op ih =>
    obtain ⟨hlive, hobject, htype⟩ := ih
    rw [run, foldl_append, foldl_cons, foldl_nil]
    rcases step_apply (run ops) op ⟨h, hlt⟩ with
      ⟨_, _, _, _, h3, _⟩ | ⟨_, hs⟩ | ⟨_, h3, _⟩ | ⟨_, _, hs⟩
    · simp only at h3
      omega
    · obtain ⟨ht', ho', hc'⟩ := WineHandle.addRef_of_live hlive
      have hpos := WineHandle.refCount_ne_zero_iff.mp hlive
      rw [← run, hs, ht', ho']
      exact ⟨WineHandle.refCount_ne_zero_iff.mpr (by omega), hobject, htype⟩
    · simp only at h3
      omega
    · rw [← run, hs]
      exact ⟨hlive, hobject, htype⟩

/-- The contract of the handle table in every history from the initial table.  A handle returned
by an allocation is observed with its type and its object until the frees exceed the counted
references, and is dead from then until it is returned again; a handle returned while another one
is live differs from it; an allocation fails exactly when all slots from `3` on are live; and the
standard streams are never affected. -/
theorem handle_lifecycle :
  (∀ (pre post : List HandleOp) (type : UInt8) (object : Ptr) (h : ℕ) (t : HandleTable),
      wineHandleAlloc (run pre) type object = (h, t) → h ≠ 0 →
      (NoExcess h post → Observed (post.foldl step t) h type object) ∧
      (¬ NoExcess h post → Run.Along step (fun t op => ¬ Returns h t op) t post →
        Dead (post.foldl step t) h)) ∧
    (∀ (pre mid : List HandleOp) (type₁ type₂ : UInt8) (object₁ object₂ : Ptr) (h₁ h₂ : ℕ)
        (t₁ t₂ : HandleTable),
      wineHandleAlloc (run pre) type₁ object₁ = (h₁, t₁) → h₁ ≠ 0 → NoExcess h₁ mid →
      wineHandleAlloc (mid.foldl step t₁) type₂ object₂ = (h₂, t₂) → h₂ ≠ 0 → h₂ ≠ h₁) ∧
    (∀ (ops : List HandleOp) (type : UInt8) (object : Ptr),
      (wineHandleAlloc (run ops) type object).1 = 0 ↔
        ∀ h, 3 ≤ h → h < handleTableSize → Live (run ops) h) ∧
    (∀ (ops : List HandleOp) (h : ℕ), h ≤ 2 → Observed (run ops) h handleTypeFile h)
  := by
  and_intros
  · intro pre post type object h t halloc hne
    obtain ⟨i, h3, rfl, ht, -⟩ := wineHandleAlloc_spec halloc hne
    constructor
    · intro hno
      exact observed_of_noExcess h3 ht hno
    · intro hex hret
      apply dead_val_of_refCount
      apply dead_of_excess h3 ht hret hex
  · rintro pre mid type₁ type₂ object₁ object₂ h₁ h₂ t₁ t₂ halloc₁ hne₁ hno halloc₂ hne₂ rfl
    obtain ⟨i, h3, rfl, ht, -⟩ := wineHandleAlloc_spec halloc₁ hne₁
    obtain ⟨hlive, -⟩ := observed_of_noExcess h3 ht hno
    obtain ⟨j, -, hij, -, hfree⟩ := wineHandleAlloc_spec halloc₂ hne₂
    obtain rfl := Fin.ext hij
    apply live_val_iff.mp hlive hfree
  · intro ops type object
    apply wineHandleAlloc_eq_zero_iff
  · intro ops h hh
    apply observed_standard ops hh

/-- The handle `3` is observed after a matched `add_ref` and `free`, and dead after a second
`free`. -/
theorem handle_lifecycle_three :
  ∃ t, wineHandleAlloc (run []) 2 7 = (3, t) ∧
    Observed ([.addRef 3, .free 3].foldl step t) 3 2 7 ∧
    Dead ([.addRef 3, .free 3, .free 3].foldl step t) 3
  := by
  obtain ⟨t, ht⟩ : ∃ t, wineHandleAlloc (run []) 2 7 = (3, t) :=
    ⟨_, Prod.ext (by decide +kernel) rfl⟩
  have hlife := fun post => handle_lifecycle.1 [] post 2 7 3 t ht (by decide)
  refine ⟨t, ht, ?_, ?_⟩
  · apply (hlife [.addRef 3, .free 3]).1
    simp only [NoExcess, ← mem_inits]
    decide
  · apply (hlife [.addRef 3, .free 3, .free 3]).2
    · simp only [NoExcess, ← mem_inits]
      decide
    · simp [Returns]

/-- After `255` calls of `add_ref` the count is `255`, not `256`: the same number of frees makes
the handle dead, although at no point the frees exceed the `add_ref` calls. -/
theorem addRef_clamped :
  ∃ t, wineHandleAlloc (run []) 2 7 = (3, t) ∧
    ∃ ops, (∀ q, q <+: ops → frees 3 q ≤ addRefs 3 q) ∧ Dead (ops.foldl step t) 3
  := by
  obtain ⟨t, ht⟩ : ∃ t, wineHandleAlloc (run []) 2 7 = (3, t) :=
    ⟨_, Prod.ext (by decide +kernel) rfl⟩
  refine ⟨t, ht, List.replicate 255 (.addRef 3) ++ List.replicate 255 (.free 3), ?_, ?_⟩
  · intro q hq
    -- A part of the history that frees `h` contains all calls of `add_ref`.
    obtain ⟨r, hr⟩ := hq
    rcases append_eq_append_iff.mp hr with ⟨p, hp, -⟩ | ⟨p, rfl, hp⟩
    · have h0 : frees 3 q = 0 := by
        rw [frees, count_eq_zero]
        intro hmem
        have hmem : HandleOp.free 3 ∈ q ++ p := mem_append_left p hmem
        rw [← hp] at hmem
        cases eq_of_mem_replicate hmem
      omega
    · have hlen := congrArg List.length hp
      have hle := count_le_length (a := HandleOp.free 3) (l := p)
      rw [length_append, length_replicate] at hlen
      rw [frees, addRefs, count_append, count_append, count_replicate_self,
        count_replicate, if_neg (by decide)]
      omega
  · obtain ⟨i, h3, hi, hslot, -⟩ := wineHandleAlloc_spec ht (by decide)
    have hex : ¬ NoExcess 3 (List.replicate 255 (.addRef 3) ++ List.replicate 255 (.free 3)) := by
      intro h
      apply absurd (h _ (prefix_refl _))
      decide +kernel
    have hret (t : HandleTable) (op : HandleOp)
        (hop : op ∈ List.replicate 255 (HandleOp.addRef 3) ++ List.replicate 255 (.free 3)) :
        ¬ Returns 3 t op := by
      rintro ⟨type, object, rfl, -⟩
      rcases mem_append.mp hop with hop | hop
      · cases eq_of_mem_replicate hop
      · cases eq_of_mem_replicate hop
    rw [hi] at hex hret ⊢
    apply dead_val_of_refCount
    apply dead_of_excess h3 hslot (Run.along_of_forall_mem hret t) hex

end HandleManager
