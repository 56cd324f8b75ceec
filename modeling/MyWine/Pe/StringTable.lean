import MyWine.Lib.Trace
import MyWine.Pe.SymbolScan

/-!
# Names in the string table

A name of more than eight characters is given by its offset in the string table, which starts with its
own length in four bytes.  `parse_symbol_table_from_file` returns the address behind these four bytes,
and `get_symbol_name` adds the offset to it without a check, so that a lookup compares the query with
what stands four bytes behind the start of the name.  It finds the right record when this makes no
difference for the records that it passes (`lookupsRight_iff`).
-/

namespace Pe.SymbolTable

open List Option

def compareCstr (m : Bytes) : ℕ → List UInt8 → Traced ℕ Bool
  | a, [] => ⟨m a = 0, [a]⟩
  | a, c :: name => do
    let x ← (⟨m a, [a]⟩ : Traced ℕ UInt8)
    if x = c then compareCstr m (a + 1) name else pure false

section

variable (t : SymbolTable) (table : List ImageSectionHeader) (name : CString)

def nameOffset (i : ℕ) : ℕ := (t.buf.u32 (sizeofSymbol * i + 4)).toNat

/-- The comparison with the name of a record, with the addresses of the strings that are read. -/
def compareSymbol (i : ℕ) : Traced ℕ Bool :=
  if t.buf (sizeofSymbol * i) ≠ 0 then pure (t.buf.cstr (sizeofSymbol * i) 8 = name)
  else
    match t.stringTable with
    | none => pure false
    | some strings => compareCstr t.buf (strings + t.nameOffset i) name.bytes

def lookupRecord (accept : ℕ → Bool) : Traced ℕ (Option ℕ) :=
  if name.length = 0 then pure none
  else t.symbols.findM? fun i => do
    let named ← t.compareSymbol name i
    pure (named && accept i)

def lookupSymbolValue : ℕ := ((t.lookupRecord name fun _ => true).value.map t.value).getD 0

/-- The name is that of the record, where an offset counts from the length of the string table. -/
def coffNamed (i : ℕ) : Bool :=
  if t.buf (sizeofSymbol * i) ≠ 0 then t.buf.cstr (sizeofSymbol * i) 8 = name
  else
    match t.stringTable with
    | none => false
    | some strings => t.buf.cstr (strings - 4 + t.nameOffset i) (name.length + 1) = name

def InStrings (a : ℕ) : Prop :=
  ∃ strings, t.stringTable = some strings ∧ strings - 4 ≤ a ∧ a < strings - 4 + t.stringSize

/-- A lookup finds the first accepted record that has the name, and reads only the string table. -/
structure RecordFound (accept : ℕ → Bool) : Prop where
  record : (t.lookupRecord name accept).value =
    if name.length = 0 then none else t.symbols.find? fun i => t.coffNamed name i && accept i
  reads : (t.lookupRecord name accept).All t.InStrings

def LookupsRight : Prop :=
  t.RecordFound name (fun _ => true) ∧ t.RecordFound name fun i => (t.symbolRva table i).isSome

/-- What is compared with the name for a record with a long name: it is in the string table as far as it
agrees with the name, and it is the name if and only if the record has the name. -/
structure LongNameAgrees (accept : ℕ → Bool) (i strings : ℕ) : Prop where
  inside : ∀ k ≤ name.length, (∀ j < k, name.bytes[j]? = some (t.buf (strings + t.nameOffset i + j))) →
    t.InStrings (strings + t.nameOffset i + k)
  same : accept i → (t.buf.cstr (strings + t.nameOffset i) (name.length + 1) = name ↔
    t.buf.cstr (strings - 4 + t.nameOffset i) (name.length + 1) = name)

def LongNamesAgree (accept : ℕ → Bool) : Prop :=
  name.length ≠ 0 → ∀ before i after, t.symbols = before ++ i :: after →
    (∀ j ∈ before, (t.coffNamed name j && accept j) = false) → t.buf (sizeofSymbol * i) = 0 →
      ∀ strings, t.stringTable = some strings → t.LongNameAgrees name accept i strings

end

variable {t : SymbolTable} {name : CString}

theorem compareCstr_spec (m : Bytes) (P : ℕ → Prop) (a : ℕ) {s : List UInt8} (hs : 0 ∉ s) :
  (compareCstr m a s).value = decide (m.cstrBytes a (s.length + 1) = s) ∧
    ((compareCstr m a s).All P ↔
      ∀ k ≤ s.length, (∀ j < k, s[j]? = some (m (a + j))) → P (a + k))
  := by
  induction s generalizing a with
  | nil =>
    constructor
    · by_cases h : m a = 0 <;> simp [compareCstr, Bytes.cstrBytes, h]
    · simp [compareCstr]
  | cons c s ih =>
    rw [mem_cons, not_or] at hs
    obtain ⟨hvalue, hall⟩ := ih (a + 1) hs.2
    rw [compareCstr, Traced.value_bind, Traced.all_bind, Traced.all_mk, length_cons, Bytes.cstrBytes]
    by_cases hc : m a = c
    · have hne : m a ≠ 0 := fun h => hs.1 (h.symm.trans hc)
      rw [if_pos hc, hvalue, hall, if_neg hne, hc]
      refine ⟨by simp, ?_⟩
      constructor
      · rintro ⟨hfirst, hrest⟩ k hk hj
        cases k with
        | zero => apply hfirst
        | succ k =>
          rw [show a + (k + 1) = a + 1 + k by omega]
          apply hrest k (by omega)
          intro j hlt
          rw [show a + 1 + j = a + (j + 1) by omega, ← hj (j + 1) (by omega), getElem?_cons_succ]
      · intro h
        refine ⟨h 0 (by omega) (by omega), fun k hk hj => ?_⟩
        rw [show a + 1 + k = a + (k + 1) by omega]
        apply h (k + 1) (by omega)
        intro j hlt
        cases j with
        | zero => rw [getElem?_cons_zero, Nat.add_zero, hc]
        | succ j => rw [getElem?_cons_succ, hj j (by omega), show a + 1 + j = a + (j + 1) by omega]
    · rw [if_neg hc]
      constructor
      · rw [Traced.value_pure, eq_comm, decide_eq_false_iff_not]
        split
        · apply (cons_ne_nil _ _).symm
        · exact fun h => hc (cons.inj h).1
      · simp only [Traced.all_pure, and_true]
        refine ⟨fun hfirst k _ hj => ?_, fun h => h 0 (by omega) (by omega)⟩
        cases k with
        | zero => apply hfirst
        | succ k => exact absurd (Option.some.inj (hj 0 (by omega))).symm hc

theorem value_compareCstr (m : Bytes) (a : ℕ) (name : CString) :
  (compareCstr m a name.bytes).value = decide (m.cstr a (name.length + 1) = name)
  := by
  rw [(compareCstr_spec m (fun _ => True) a name.zero_notMem).1, decide_eq_decide, CString.ext_iff]
  rfl

theorem nodup_symbols (t : SymbolTable) :
  t.symbols.Nodup
  := (t.pairwise_symbolsFrom ..).imp Nat.ne_of_lt

theorem compareSymbol_iff (name : CString) (accept : ℕ → Bool) (i : ℕ) :
  ((t.compareSymbol name i).All t.InStrings ∧
      ((t.compareSymbol name i).value && accept i) = (t.coffNamed name i && accept i)) ↔
    (t.buf (sizeofSymbol * i) = 0 → ∀ strings, t.stringTable = some strings →
      t.LongNameAgrees name accept i strings)
  := by
  rw [compareSymbol, coffNamed]
  by_cases hshort : t.buf (sizeofSymbol * i) = 0
  · rw [if_neg (not_not.mpr hshort), if_neg (not_not.mpr hshort)]
    cases hstrings : t.stringTable with
    | none => exact iff_of_true ⟨Traced.all_pure _, rfl⟩ fun _ _ h => absurd h (Option.some_ne_none _).symm
    | some strings =>
      simp only [value_compareCstr, (compareCstr_spec _ _ _ name.zero_notMem).2]
      constructor
      · rintro ⟨hinside, hsame⟩ - _ ⟨⟩
        refine ⟨hinside, fun haccept => ?_⟩
        simpa [haccept] using hsame
      · intro h
        obtain ⟨hinside, hsame⟩ := h hshort strings rfl
        refine ⟨hinside, ?_⟩
        cases haccept : accept i with
        | false => rw [Bool.and_false, Bool.and_false]
        | true => simp only [hsame haccept]
  · rw [if_pos hshort, if_pos hshort]
    exact iff_of_true ⟨Traced.all_pure _, rfl⟩ fun h => absurd h hshort

theorem recordFound_iff (name : CString) (accept : ℕ → Bool) :
  t.RecordFound name accept ↔ t.LongNamesAgree name accept
  := by
  have hfields : t.RecordFound name accept ↔ _ ∧ _ := ⟨fun h => ⟨h.record, h.reads⟩, fun h => ⟨h.1, h.2⟩⟩
  rw [hfields, LongNamesAgree, lookupRecord]
  by_cases hname : name.length = 0
  · rw [if_pos hname, if_pos hname]
    exact iff_of_true ⟨rfl, Traced.all_pure _⟩ fun h => absurd hname h
  · rw [if_neg hname, if_neg hname, Traced.findM?_iff (nodup_symbols t)]
    simp [hname, compareSymbol_iff]

/-- The lookups are right if and only if the long names agree with what is compared. -/
theorem lookupsRight_iff (t : SymbolTable) (table : List ImageSectionHeader) (name : CString) :
  t.LookupsRight table name ↔
    t.LongNamesAgree name (fun _ => true) ∧ t.LongNamesAgree name fun i => (t.symbolRva table i).isSome
  := by
  rw [LookupsRight, recordFound_iff, recordFound_iff]

theorem lookupSymbolRva_eq (table : List ImageSectionHeader) (name : CString) :
  t.lookupSymbolRva table name =
    ((t.lookupRecord name fun i => (t.symbolRva table i).isSome).value.bind (t.symbolRva table)).getD 0
  := by
  have hnamed (i : ℕ) : (t.compareSymbol name i).value = t.symbolNamed i name := by
    rw [compareSymbol, symbolNamed]
    split_ifs
    · rfl
    · cases t.stringTable with
      | none => rfl
      | some strings =>
        apply value_compareCstr
  rw [lookupSymbolRva, lookupRecord]
  split_ifs
  · rfl
  · simp [Traced.value_findM?, hnamed, lookupFrom_find, symbols]

def longSymbol : SymbolTable where
  buf x := ([0, 0, 0, 0, 4, 0, 0, 0, 7, 0, 0, 0, 0, 0, 0, 0, 2, 0, 14, 0, 0, 0]
    ++ (CString.ofString "mainmainx").bytes ++ [0]).getD x 0
  count := 1
  stringTable := some 22
  stringSize := 14

theorem longSymbol_lookup :
  (longSymbol.lookupRecord (.ofString "mainmainx") fun _ => true).value = none
    ∧ longSymbol.symbols.find? (longSymbol.coffNamed (.ofString "mainmainx")) = some 0
    ∧ longSymbol.lookupSymbolValue (.ofString "mainx") = 7
  := by
  decide +kernel

end Pe.SymbolTable
