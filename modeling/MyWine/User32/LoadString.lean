import MyWine.Kernel32.HandleTypes
import MyWine.Kernel32.ResourceReads

/-!
# Strings from the resources

`LoadStringA` of `user32_dialog_resources.c`.  A block of the string table has sixteen entries, each a
length and as many units.  The entries before the one that is asked for are checked against the size of
the block, but that one is not, and the size of the buffer is narrowed to 16 bits before it is compared
with the length (`entryLoaded_iff`).

The lookup of the block allocates a handle, and no exit frees it: as long as there is room in the handle
table, every call that finds a block takes a slot (`repeatable_iff`).
-/

open HandleManager Kernel32 List

namespace User32

section

variable (m : Bytes) (data size : ℕ)

def blockUnit (pos : ℕ) : Traced ℕ ℕ := ⟨m.readLE (data + pos) 2, [pos]⟩

def skipEntries : ℕ → ℕ → Traced ℕ (Option ℕ)
  | 0, pos => pure (some pos)
  | n + 1, pos =>
    if size < pos + 2 then pure none
    else do
      let len ← blockUnit m data pos
      if size < pos + 2 + 2 * len then pure none else skipEntries n (pos + 2 + 2 * len)

def toAscii (ch : ℕ) : UInt8 := if ch ≤ 0x7f then .ofNat ch else 63

def copyUnits : ℕ → ℕ → Traced ℕ (List UInt8)
  | 0, _ => pure []
  | n + 1, pos => do
    let ch ← blockUnit m data pos
    let s ← copyUnits n (pos + 2)
    pure (toAscii ch :: s)

/-- `LoadStringA` after the lookup, for a buffer of `cch` bytes: what is stored in the buffer. -/
def loadEntry (entryId cch : ℕ) : Traced ℕ (Option (List UInt8)) :=
  if size < 2 then pure none
  else do
    match ← skipEntries m data size entryId 0 with
    | none => pure none
    | some pos =>
      let len ← blockUnit m data pos
      let s ← copyUnits m data (if cch % 2 ^ 16 ≤ len then (cch - 1) % 2 ^ 16 else len) (pos + 2)
      pure (some (s ++ [0]))

/-! ### The entries of a block -/

def entryStart : ℕ → ℕ
  | 0 => 0
  | n + 1 => entryStart n + 2 + 2 * m.readLE (data + entryStart n) 2

def entryLength (n : ℕ) : ℕ := m.readLE (data + entryStart m data n) 2

def entryText (n len : ℕ) : List UInt8 :=
  (range len).map fun i => toAscii (m.readLE (data + (entryStart m data n + 2 + 2 * i)) 2)

/-- The block is read only inside of its size, the buffer is not overrun, and if the sixteen entries
are inside of the block, the buffer gets the entry, as far as there is room for it. -/
structure EntryLoaded (entryId cch : ℕ) : Prop where
  reads : (loadEntry m data size entryId cch).All (· + 2 ≤ size)
  writes : ∀ s ∈ (loadEntry m data size entryId cch).value, s.length ≤ cch
  result : entryStart m data 16 ≤ size → (loadEntry m data size entryId cch).value =
    some (entryText m data entryId (min (entryLength m data entryId) (cch - 1)) ++ [0])

/-- The block ends before the entry, or has what is read of the entry.  The size of the buffer is below
`2 ^ 16`, or is still longer than the entry when it is narrowed; otherwise the block is not well formed,
or the entry has as many characters as are left of the size. -/
def EntryFits (entryId cch : ℕ) : Prop :=
  size < 2 ∨ size < entryStart m data entryId ∨
    if cch < 2 ^ 16 ∨ entryLength m data entryId < cch % 2 ^ 16 then
      entryStart m data entryId + 2 + 2 * min (entryLength m data entryId) (cch - 1) ≤ size
    else
      entryStart m data entryId + 2 + 2 * ((cch - 1) % 2 ^ 16) ≤ size ∧
        (entryStart m data 16 ≤ size → entryLength m data entryId = (cch - 1) % 2 ^ 16)

end

section

variable {m : Bytes} {data size : ℕ}

theorem entryStart_mono {k n : ℕ} (h : k ≤ n) :
  entryStart m data k ≤ entryStart m data n
  := by
  apply monotone_nat_of_le_succ _ h
  intro k
  rw [entryStart]
  omega

theorem skipEntries_spec (m : Bytes) (data n k : ℕ) (hk : entryStart m data k ≤ size) :
  (skipEntries m data size n (entryStart m data k)).All (· + 2 ≤ size) ∧
    (skipEntries m data size n (entryStart m data k)).value =
      if entryStart m data (k + n) ≤ size then some (entryStart m data (k + n)) else none
  := by
  induction n generalizing k with
  | zero =>
    rw [skipEntries, Nat.add_zero, if_pos hk]
    exact ⟨Traced.all_pure _, rfl⟩
  | succ n ih =>
    have hmono : entryStart m data (k + 1) ≤ entryStart m data (k + (n + 1)) :=
      entryStart_mono (by omega)
    have hsucc : entryStart m data (k + 1) =
        entryStart m data k + 2 + 2 * m.readLE (data + entryStart m data k) 2 := rfl
    rw [skipEntries]
    by_cases hsize : size < entryStart m data k + 2
    · rw [if_pos hsize, if_neg (by omega)]
      exact ⟨Traced.all_pure _, rfl⟩
    · simp only [if_neg hsize, blockUnit, Traced.all_bind, Traced.value_bind, Traced.all_mk, ← hsucc]
      by_cases hnext : size < entryStart m data (k + 1)
      · rw [if_pos hnext, if_neg (by omega)]
        exact ⟨⟨by omega, Traced.all_pure _⟩, rfl⟩
      · rw [if_neg hnext, show k + (n + 1) = k + 1 + n by omega]
        obtain ⟨hreads, hvalue⟩ := ih (k + 1) (by omega)
        exact ⟨⟨by omega, hreads⟩, hvalue⟩

theorem copyUnits_spec (m : Bytes) (data size n pos : ℕ) :
  ((copyUnits m data n pos).All (· + 2 ≤ size) ↔ n = 0 ∨ pos + 2 * n ≤ size) ∧
    (copyUnits m data n pos).value =
      (range n).map fun i => toAscii (m.readLE (data + (pos + 2 * i)) 2)
  := by
  induction n generalizing pos with
  | zero => exact ⟨iff_of_true (Traced.all_pure _) (Or.inl rfl), rfl⟩
  | succ n ih =>
    obtain ⟨hreads, hvalue⟩ := ih (pos + 2)
    simp only [copyUnits, blockUnit, Traced.all_bind, Traced.all_mk, Traced.value_bind, Traced.value_pure,
      Traced.all_pure, hreads, hvalue, and_true]
    constructor
    · omega
    · rw [range_succ_eq_map, map_cons, map_map]
      congr 1
      apply map_congr_left
      intro i _
      rw [Function.comp_apply, show pos + 2 * i.succ = pos + 2 + 2 * i by omega]

theorem loadEntry_spec {entryId cch len : ℕ}
    (hlen : len = if cch % 2 ^ 16 ≤ entryLength m data entryId then (cch - 1) % 2 ^ 16
      else entryLength m data entryId)
    (hsize : 2 ≤ size) (hstart : entryStart m data entryId ≤ size) :
  ((loadEntry m data size entryId cch).All (· + 2 ≤ size) ↔
      entryStart m data entryId + 2 + 2 * len ≤ size) ∧
    (loadEntry m data size entryId cch).value = some (entryText m data entryId len ++ [0])
  := by
  obtain ⟨hskip, hpos⟩ := skipEntries_spec m data entryId 0 (Nat.zero_le size)
  rw [Nat.zero_add, if_pos hstart] at hpos
  obtain ⟨hreads, hvalue⟩ := copyUnits_spec m data size len (entryStart m data entryId + 2)
  rw [loadEntry, if_neg (by omega), Traced.all_bind, Traced.value_bind]
  simp only [entryStart] at hskip hpos
  rw [hpos]
  simp only [blockUnit, Traced.all_bind, Traced.all_mk, Traced.value_bind, Traced.value_pure, Traced.all_pure,
    and_true]
  rw [entryLength] at hlen
  rw [← hlen, hreads, hvalue]
  refine ⟨?_, rfl⟩
  simp only [hskip, true_and]
  omega

theorem loadEntry_none {entryId : ℕ} (cch : ℕ) (h : size < 2 ∨ size < entryStart m data entryId) :
  (loadEntry m data size entryId cch).All (· + 2 ≤ size) ∧
    (loadEntry m data size entryId cch).value = none
  := by
  obtain ⟨hskip, hpos⟩ := skipEntries_spec m data entryId 0 (Nat.zero_le size)
  rw [loadEntry]
  by_cases hsize : size < 2
  · rw [if_pos hsize]
    exact ⟨Traced.all_pure _, rfl⟩
  · rw [Nat.zero_add, if_neg (by omega)] at hpos
    simp only [entryStart] at hskip hpos
    rw [if_neg hsize, Traced.all_bind, Traced.value_bind, hpos]
    exact ⟨⟨hskip, Traced.all_pure _⟩, rfl⟩

/-- The entry of an id is loaded as it should be if and only if it fits. -/
theorem entryLoaded_iff (m : Bytes) (data size uID : ℕ) {cch : ℕ} (hcch : 0 < cch) :
  EntryLoaded m data size (uID % 16) cch ↔ EntryFits m data size (uID % 16) cch
  := by
  have hid : uID % 16 < 16 := Nat.mod_lt _ (by decide)
  generalize uID % 16 = entryId at hid ⊢
  have hmono : entryStart m data (entryId + 1) ≤ entryStart m data 16 := entryStart_mono hid
  have hnext : entryStart m data (entryId + 1) =
      entryStart m data entryId + 2 + 2 * entryLength m data entryId := rfl
  have hlt : entryLength m data entryId < 2 ^ 16 := m.readLE_lt _ 2
  rw [EntryFits, ← or_assoc]
  by_cases hout : size < 2 ∨ size < entryStart m data entryId
  · obtain ⟨hreads, hvalue⟩ := loadEntry_none cch hout
    refine iff_of_true ⟨hreads, ?_, fun hwell => ?_⟩ (Or.inl hout)
    · rw [hvalue]
      rintro s ⟨⟩
    · omega
  · obtain ⟨len, hlen⟩ : ∃ len, len = if cch % 2 ^ 16 ≤ entryLength m data entryId then (cch - 1) % 2 ^ 16
      else entryLength m data entryId := ⟨_, rfl⟩
    obtain ⟨hreads, hvalue⟩ := @loadEntry_spec m data size entryId cch len hlen (by omega) (by omega)
    have htext (n : ℕ) : some (entryText m data entryId len ++ [0]) =
        some (entryText m data entryId n ++ [0]) ↔ len = n := by
      constructor
      · intro h
        simpa [entryText] using congrArg (Option.map length) h
      · rintro rfl
        rfl
    have hright : EntryLoaded m data size entryId cch ↔
        entryStart m data entryId + 2 + 2 * len ≤ size ∧
          (entryStart m data 16 ≤ size → len = min (entryLength m data entryId) (cch - 1)) := by
      rw [← hreads, ← htext, ← hvalue]
      refine ⟨fun h => ⟨h.reads, h.result⟩, fun h => ⟨h.1, ?_, h.2⟩⟩
      rw [hvalue]
      rintro s ⟨⟩
      simp only [entryText, length_append, length_map, length_range, length_singleton]
      split_ifs at hlen <;> omega
    rw [hright, or_iff_right hout]
    split_ifs at hlen ⊢ <;> omega

end

/-- A block with the strings `"a"`, `"bc"` and `"def"`, and thirteen empty ones. -/
def stringBlock : Bytes := fun a =>
  [1, 0, 0x61, 0, 2, 0, 0x62, 0, 0x63, 0, 3, 0, 0x64, 0, 0x65, 0, 0x66, 0].getD a 0

theorem entryLoaded_strings :
  (0 < 10 ∧ EntryLoaded stringBlock 0 44 (17 % 16) 10) ∧ 0 < 3 ∧ EntryLoaded stringBlock 0 44 (2 % 16) 3
  := by
  refine ⟨⟨by decide, (entryLoaded_iff _ 0 44 17 (by decide)).mpr (Or.inr (Or.inr ?_))⟩, by decide,
    (entryLoaded_iff _ 0 44 2 (by decide)).mpr (Or.inr (Or.inr ?_))⟩
  · decide
  · decide

/-- An entry of three units is read from a block of two bytes, and an empty string is loaded into a
buffer of 65536 bytes as 65535 characters. -/
theorem loadEntry_outside :
  ¬ (loadEntry (fun a => if a = 0 then 3 else 0) 0 2 0 10).All (· + 2 ≤ 2) ∧
    entryStart (fun _ => 0) 0 16 ≤ 32 ∧
    (loadEntry (fun _ => 0) 0 32 0 65536).value = some (entryText (fun _ => 0) 0 0 65535 ++ [0])
  := by
  refine ⟨?_, by decide, ?_⟩
  · intro hall
    exact absurd (hall 2 (by decide)) (by decide)
  · exact (loadEntry_spec (by decide) (by decide) (by decide)).2

/-! ### The handles -/

/-- A call of `LoadStringA`, with the memory and the modules at its time, and the pointer that `malloc`
returns in it. -/
structure LoadStringCall where
  memory : Bytes
  modules : Resource.Modules
  object : Ptr
  hInstance : ℕ
  uID : ℕ
  lpBuffer : ℕ
  cchBufferMax : ℤ

def LoadStringCall.block (b : Build) (c : LoadStringCall) : Option (ℕ × ℕ) :=
  if c.lpBuffer = 0 ∨ c.cchBufferMax ≤ 0 then none
  else (Resource.wineResourceFind b c.memory c.modules (c.object ≠ 0) c.hInstance 6 (c.uID / 16 + 1)).value

/-- `LoadStringA`: the result, what is stored in the buffer, and the handle table after the call. -/
def loadStringA (b : Build) (t : HandleTable) (c : LoadStringCall) :
    (ℕ × Option (List UInt8)) × HandleTable :=
  match c.block b with
  | none => ((0, none), t)
  | some (data, size) =>
    let (res, t) := wineHandleAlloc t handleTypeHrsrc c.object
    if res = 0 then ((0, none), t)
    else
      let table := wineResourceLock t (fun _ => ⟨data, size⟩) res
      if table = 0 then ((0, none), t)
      else
        match (loadEntry c.memory table size (c.uID % 16) c.cchBufferMax.toNat).value with
        | none => ((0, none), t)
        | some s => ((s.length - 1, some s), t)

def afterLoads (b : Build) (t : HandleTable) (calls : List LoadStringCall) : HandleTable :=
  calls.foldl (fun t c => (loadStringA b t c).2) t

/-- Every one of the calls leaves the live handles as they are, and does what it would have done as the
first one. -/
structure Repeatable (b : Build) (t : HandleTable) (calls : List LoadStringCall) : Prop where
  live : ∀ before c, before ++ [c] <+: calls → ∀ h,
    Live (afterLoads b t (before ++ [c])) h ↔ Live (afterLoads b t before) h
  same : ∀ before c, before ++ [c] <+: calls →
    (loadStringA b (afterLoads b t before) c).1 = (loadStringA b t c).1

section

variable {b : Build} {t : HandleTable} {c : LoadStringCall} {calls : List LoadStringCall}

theorem loadStringA_snd {data size : ℕ} (h : c.block b = some (data, size)) :
  (loadStringA b t c).2 = (wineHandleAlloc t handleTypeHrsrc c.object).2
  := by
  simp only [loadStringA, h]
  split_ifs
  · rfl
  · rfl
  · split <;> rfl

theorem loadStringA_unchanged
    (h : (∀ h, 3 ≤ h → h < handleTableSize → Live t h) ∨ c.block b = none) :
  (loadStringA b t c).2 = t
  := by
  rcases hblock : c.block b with _ | ⟨data, size⟩
  · simp only [loadStringA, hblock]
  · rw [hblock] at h
    have hfull := (wineHandleAlloc_eq_zero_iff t handleTypeHrsrc c.object).mpr
      (h.resolve_right (Option.some_ne_none _))
    rw [loadStringA_snd hblock]
    rcases wineHandleAlloc_cases t handleTypeHrsrc c.object with ⟨i, h3, -, he⟩ | ⟨-, he⟩
    · rw [he] at hfull
      dsimp only at hfull
      omega
    · rw [he]

theorem full_of_live {data size : ℕ} (h : c.block b = some (data, size))
    (hlive : ∀ h, Live (loadStringA b t c).2 h ↔ Live t h) :
  ∀ h, 3 ≤ h → h < handleTableSize → Live t h
  := by
  rw [loadStringA_snd h] at hlive
  rcases wineHandleAlloc_cases t handleTypeHrsrc c.object with ⟨i, -, h0, he⟩ | ⟨hall, -⟩
  · have hi : Live (wineHandleAlloc t handleTypeHrsrc c.object).2 i.val := by
      simp [live_val_iff, he]
    exact absurd h0 (live_val_iff.mp ((hlive i.val).mp hi))
  · intro h h3 hlt
    exact live_val_iff (i := ⟨h, hlt⟩).mpr (hall _ h3)

theorem afterLoads_unchanged
    (h : (∀ h, 3 ≤ h → h < handleTableSize → Live t h) ∨ ∀ c ∈ calls, c.block b = none) :
  afterLoads b t calls = t
  := by
  induction calls with
  | nil => rfl
  | cons c calls ih =>
    rw [forall_mem_cons] at h
    rw [afterLoads, foldl_cons, loadStringA_unchanged (h.imp id And.left)]
    exact ih (h.imp id And.right)

/-- A sequence of calls leaks no handle if and only if the handle table is full, or no call comes to its
allocation. -/
theorem repeatable_iff (b : Build) (t : HandleTable) (calls : List LoadStringCall) :
  Repeatable b t calls ↔
    (∀ h, 3 ≤ h → h < handleTableSize → Live t h) ∨ ∀ c ∈ calls, c.block b = none
  := by
  constructor
  · rintro ⟨hlive, -⟩
    induction calls with
    | nil => exact Or.inr (forall_mem_nil _)
    | cons c calls ih =>
      rcases hblock : c.block b with _ | ⟨data, size⟩
      · have hfirst := loadStringA_unchanged (t := t) (Or.inr hblock)
        have hrest := ih fun before d hd h => by
          have hcall := hlive (c :: before) d (cons_prefix_cons.mpr ⟨rfl, hd⟩) h
          simpa only [cons_append, afterLoads, foldl_cons, hfirst] using hcall
        rw [forall_mem_cons]
        exact hrest.imp id fun h => ⟨hblock, h⟩
      · exact Or.inl (full_of_live hblock (hlive [] c (cons_prefix_cons.mpr ⟨rfl, nil_prefix⟩)))
  · intro h
    have hunchanged {before : List LoadStringCall} {c : LoadStringCall} (hpre : before ++ [c] <+: calls) :
        afterLoads b t before = t ∧ afterLoads b t (before ++ [c]) = t :=
      ⟨afterLoads_unchanged (h.imp id fun h c hc => h c (hpre.subset (mem_append_left _ hc))),
        afterLoads_unchanged (h.imp id fun h c hc => h c (hpre.subset hc))⟩
    constructor
    · intro before c hpre h
      rw [(hunchanged hpre).1, (hunchanged hpre).2]
    · intro before c hpre
      rw [(hunchanged hpre).1]

end

def sampleCall : LoadStringCall := ⟨Resource.sampleMem 6, Resource.sampleModules 0x80, 16, 0, 0, 1, 10⟩

theorem loadStringA_leaks :
  ¬ ∀ h, Live (loadStringA .x64 wineHandleManagerRuntimeInit sampleCall).2 h ↔
    Live wineHandleManagerRuntimeInit h
  := by
  intro hlive
  have hblock : sampleCall.block .x64 = some (0x401058, 4) := by decide +kernel
  obtain ⟨i, hi, h3⟩ := full_of_live hblock hlive 3 (by decide) (by decide)
  cases hi
  exact h3 rfl

end User32
