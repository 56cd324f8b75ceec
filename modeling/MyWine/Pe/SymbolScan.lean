import Mathlib.Data.List.Infix
import MyWine.Pe.Symbols

/-!
# The symbol scan of the CRT offset discovery

`msvcrt/crt_offset_discovery.c` looks names up in the same symbol tables as `lookup_symbol_rva`, but its
scan (`findMatchingSymbol`) also accepts the `.refptr.` symbols of a name and longer names that contain it,
prefers a symbol in a section to an absolute one, and takes auxiliary records for symbols.

The two agree when the first record that the scan may take is a symbol with the very name, and it is in
a section or the only one (`Undisputed`, `lookupSymbolRva_eq_iff`).
-/

namespace Pe.SymbolTable

open List Option

variable (t : SymbolTable) (table : List ImageSectionHeader)

/-! ### Records -/

/-- The long names end within `limit` bytes. -/
def NamesEnd (limit : ℕ) : Prop :=
  ∀ i < t.count, t.buf (sizeofSymbol * i) = 0 → ∀ strings, t.stringTable = some strings →
    t.buf.hasNul (strings + (t.buf.u32 (sizeofSymbol * i + 4)).toNat) limit

/-- A short name stands in the record, a long one in the string table. -/
def symbolName (limit i : ℕ) : Option CString :=
  let sym := sizeofSymbol * i
  if t.buf sym ≠ 0 then some (t.buf.cstr sym 8)
  else t.stringTable.map fun strings => t.buf.cstr (strings + (t.buf.u32 (sym + 4)).toNat) limit

def value (i : ℕ) : ℕ := (t.buf.u32 (sizeofSymbol * i + 8)).toNat
def sectionNumber (i : ℕ) : ℕ := (t.buf.u16 (sizeofSymbol * i + 12)).toNat

/-- The section number, a signed one, is that of a section. -/
def inSection (i : ℕ) : Bool :=
  0 < t.sectionNumber i ∧ t.sectionNumber i < 2 ^ 15 ∧ t.sectionNumber i ≤ table.length

def isAbsolute (i : ℕ) : Bool := t.sectionNumber i = 0

def sectionAddress (i : ℕ) : ℕ :=
  match table[t.sectionNumber i - 1]? with
  | none => 0
  | some s => s.virtualAddress.toNat

/-! ### The scan -/

def computeRvaFromSymbol (i : ℕ) : ℕ :=
  if t.inSection table i then
    if t.value i > 2 ^ 32 - 1 - t.sectionAddress table i then 0 else t.sectionAddress table i + t.value i
  else if t.isAbsolute i then t.value i
  else 0

def matchesWith (pre symName name : CString) : Bool :=
  symName.length = pre.length + name.length ∧ pre.bytes = symName.bytes.take pre.length
    ∧ name.bytes = symName.bytes.drop pre.length

/-- The symbol is the name, with or without a prefix, or a long one that contains it. -/
def matchSymbolName (symName name : CString) : Bool :=
  matchesWith (.ofString ".rdata$.refptr.") symName name
    || matchesWith (.ofString ".refptr.") symName name
    || symName = name
    || (8 < symName.length ∧ name.bytes <:+: symName.bytes)

def accepts (limit : ℕ) (name : CString) (i : ℕ) : Bool :=
  match t.symbolName limit i with
  | none => false
  | some symName => matchSymbolName symName name

/-- The variables of `find_matching_symbol`. -/
structure Best where
  idx : Option ℕ
  rva : ℕ
  hasSectionMatch : Bool
  deriving DecidableEq

def scanRound (limit : ℕ) (name : CString) (best : Best) (i : ℕ) : Best :=
  if t.accepts limit name i then
    if t.inSection table i then
      if best.hasSectionMatch then best else ⟨some i, t.computeRvaFromSymbol table i, true⟩
    else if t.isAbsolute i ∧ best.hasSectionMatch = false then
      { best with idx := some i, rva := t.computeRvaFromSymbol table i }
    else best
  else best

def findMatchingSymbol (limit : ℕ) (name : CString) : Option ℕ × ℕ :=
  let best := (range t.count).foldl (t.scanRound table limit name) ⟨none, 0, false⟩
  (best.idx, best.rva)

/-! ### The symbols of the table -/

/-- The records that are symbols, from the record `i` on: those that do not belong to the one before. -/
def symbolsFrom : ℕ → ℕ → List ℕ
  | 0, _ => []
  | fuel + 1, i =>
    if t.count ≤ i then []
    else i :: symbolsFrom fuel (i + (t.buf (sizeofSymbol * i + 17)).toNat + 1)

def symbols : List ℕ := t.symbolsFrom t.count 0

/-- The record is the first symbol with the name that is in a section or absolute. -/
def FirstNamed (name : CString) (i : ℕ) : Prop :=
  name.length ≠ 0 ∧ i ∈ t.symbols ∧ t.symbolNamed i name ∧ (t.inSection table i ∨ t.isAbsolute i)
    ∧ ∀ j ∈ t.symbols, j < i → t.symbolNamed j name → ¬ (t.inSection table j ∨ t.isAbsolute j)

/-- The section address and the value of a record that is in a section, or else the value. -/
def address (i : ℕ) : ℕ :=
  if t.inSection table i then (t.sectionAddress table i + t.value i) % 2 ^ 32 else t.value i

/-- The first of the names whose record has an address other than zero has the address `r`. -/
def NamedAt : List CString → ℕ → Prop
  | [], _ => False
  | name :: names, r =>
    (∃ i, t.FirstNamed table name i ∧ t.address table i = r ∧ r ≠ 0)
      ∨ (∀ i, t.FirstNamed table name i → t.address table i = 0) ∧ NamedAt names r

def Candidate (limit : ℕ) (name : CString) (i : ℕ) : Prop :=
  i < t.count ∧ t.accepts limit name i ∧ (t.inSection table i ∨ t.isAbsolute i)

/-- The record is the first one that the scan may take. -/
def FirstCandidate (limit : ℕ) (name : CString) (i : ℕ) : Prop :=
  t.Candidate table limit name i ∧ ∀ j < i, ¬ t.Candidate table limit name j

/-- The first record that the scan may take is a symbol with the very name, and it is in a section, at an
address that fits, or it is absolute and the only one. -/
structure Undisputed (limit : ℕ) (name : CString) : Prop where
  named : ∀ i, t.FirstCandidate table limit name i → i ∈ t.symbols ∧ t.symbolNamed i name
  placed : ∀ i, t.FirstCandidate table limit name i →
    t.inSection table i ∧ t.sectionAddress table i + t.value i < 2 ^ 32
      ∨ t.isAbsolute i ∧ ∀ j, t.Candidate table limit name j → j = i

variable {t table} {limit : ℕ} {name : CString} {i : ℕ}

/-! ### Names and addresses -/

theorem symbolNamed_iff (hnames : t.NamesEnd limit) (hi : i < t.count) :
  t.symbolNamed i name = true ↔ t.symbolName limit i = some name
  := by
  by_cases hshort : t.buf (sizeofSymbol * i) = 0
  · simp only [symbolNamed, symbolName, ne_eq, hshort, not_true_eq_false, if_false]
    cases hstrings : t.stringTable with
    | none => simp
    | some strings =>
      simp only [decide_eq_true_eq, map_some, some.injEq]
      rw [Bytes.cstr_eq_iff (hnames i hi hshort strings hstrings)]
  · simp [symbolNamed, symbolName, hshort]

theorem accepts_of_symbolNamed (hnames : t.NamesEnd limit) (hi : i < t.count)
    (hnamed : t.symbolNamed i name = true) :
  t.accepts limit name i = true
  := by
  rw [accepts, (symbolNamed_iff hnames hi).mp hnamed]
  simp [matchSymbolName]

theorem symbolRva_of_inSection (h : t.inSection table i = true) :
  t.symbolRva table i = some ((t.sectionAddress table i + t.value i) % 2 ^ 32)
  := by
  have hsec : 0 < (t.buf.u16 (sizeofSymbol * i + 12)).toNat
      ∧ (t.buf.u16 (sizeofSymbol * i + 12)).toNat < 2 ^ 15
      ∧ (t.buf.u16 (sizeofSymbol * i + 12)).toNat ≤ table.length := of_decide_eq_true h
  have hlt : t.sectionNumber i - 1 < table.length := by
    rw [sectionNumber]
    omega
  have hget := getElem?_eq_getElem hlt
  simp only [sectionNumber] at hget
  simp only [symbolRva, if_pos hsec, sectionAddress, sectionNumber, hget, map_some, value,
    UInt32.toNat_add]

theorem symbolRva_of_isAbsolute (h : t.isAbsolute i = true) :
  t.symbolRva table i = some (t.value i)
  := by
  have hsec : (t.buf.u16 (sizeofSymbol * i + 12)).toNat = 0 := of_decide_eq_true h
  simp [symbolRva, hsec, value]

theorem symbolRva_of_none (h : ¬ (t.inSection table i ∨ t.isAbsolute i)) :
  t.symbolRva table i = none
  := by
  rw [not_or, inSection, isAbsolute, decide_eq_true_eq, decide_eq_true_eq] at h
  simp only [sectionNumber] at h
  simp only [symbolRva, if_neg h.1, if_neg h.2]

theorem symbolRva_eq_address (h : t.inSection table i ∨ t.isAbsolute i) :
  t.symbolRva table i = some (t.address table i)
  := by
  rw [address]
  split_ifs with hsection
  · apply symbolRva_of_inSection hsection
  · apply symbolRva_of_isAbsolute (h.resolve_left hsection)

theorem candidate_of_symbolRva (hnames : t.NamesEnd limit) (hi : i < t.count)
    (hnamed : t.symbolNamed i name = true) {rva : ℕ} (hrva : t.symbolRva table i = some rva) :
  t.Candidate table limit name i
  := by
  refine ⟨hi, accepts_of_symbolNamed hnames hi hnamed, ?_⟩
  by_contra hnone
  rw [symbolRva_of_none hnone] at hrva
  cases hrva

/-! ### The lookup -/

theorem le_of_mem_symbolsFrom {fuel j : ℕ} (h : j ∈ t.symbolsFrom fuel i) :
  i ≤ j ∧ j < t.count
  := by
  induction fuel generalizing i with
  | zero => cases h
  | succ fuel ih =>
    rw [symbolsFrom] at h
    split at h
    · cases h
    case isFalse hlt =>
      rcases mem_cons.mp h with rfl | h
      · omega
      · have hle := ih h
        omega

theorem pairwise_symbolsFrom (fuel i : ℕ) :
  (t.symbolsFrom fuel i).Pairwise (· < ·)
  := by
  induction fuel generalizing i with
  | zero => exact Pairwise.nil
  | succ fuel ih =>
    rw [symbolsFrom]
    split
    · exact Pairwise.nil
    · apply Pairwise.cons _ (ih _)
      intro j hj
      have hle := (le_of_mem_symbolsFrom hj).1
      omega

theorem lookupFrom_find (fuel i : ℕ) :
  t.lookupFrom table name fuel i = (((t.symbolsFrom fuel i).find? fun k =>
    t.symbolNamed k name && (t.symbolRva table k).isSome).bind (t.symbolRva table)).getD 0
  := by
  induction fuel generalizing i with
  | zero => rfl
  | succ fuel ih =>
    rw [lookupFrom, symbolsFrom]
    split_ifs with hcount hmatch
    · rfl
    · cases hrva : t.symbolRva table i with
      | none => simp [hrva, ih]
      | some rva => simp [hmatch, hrva]
    · simp [hmatch, ih]

theorem lookupFrom_eq {fuel j rva : ℕ} (hj : j ∈ t.symbolsFrom fuel i)
    (hnamed : t.symbolNamed j name = true) (hrva : t.symbolRva table j = some rva)
    (hfirst : ∀ k ∈ t.symbolsFrom fuel i, k < j → t.symbolNamed k name = true →
      t.symbolRva table k = none) :
  t.lookupFrom table name fuel i = rva
  := by
  have hsorted := t.pairwise_symbolsFrom fuel i
  obtain ⟨l, l', hl⟩ := append_of_mem hj
  rw [hl] at hsorted hfirst
  have hfind : (l ++ j :: l').find? (fun k => t.symbolNamed k name && (t.symbolRva table k).isSome) =
      some j := by
    apply find?_eq_some_iff_append.mpr
    refine ⟨by rw [hnamed, hrva]; rfl, l, l', rfl, ?_⟩
    intro k hk
    have hlt := (pairwise_append.mp hsorted).2.2 k hk j mem_cons_self
    cases hmatch : t.symbolNamed k name with
    | false => rfl
    | true => rw [hfirst k (mem_append_left _ hk) hlt hmatch]; rfl
  rw [lookupFrom_find, hl, hfind, bind_some, hrva, getD_some]

theorem lookupFrom_eq_zero {fuel : ℕ}
    (hnone : ∀ k ∈ t.symbolsFrom fuel i, t.symbolNamed k name = true → t.symbolRva table k = none) :
  t.lookupFrom table name fuel i = 0
  := by
  rw [lookupFrom_find, find?_eq_none.mpr]
  · rfl
  · intro k hk
    rw [Bool.and_eq_true, not_and]
    intro hmatch
    rw [hnone k hk hmatch]
    exact Bool.false_ne_true

theorem lookup_of_firstNamed (h : t.FirstNamed table name i) :
  t.lookupSymbolRva table name = t.address table i
  := by
  obtain ⟨hne, hi, hnamed, hplaced, hfirst⟩ := h
  rw [lookupSymbolRva, if_neg hne]
  apply lookupFrom_eq hi hnamed (symbolRva_eq_address hplaced)
  intro k hk hlt hk'
  apply symbolRva_of_none (hfirst k hk hlt hk')

theorem lookup_of_forall_not_firstNamed (h : ∀ i, ¬ t.FirstNamed table name i) :
  t.lookupSymbolRva table name = 0
  := by
  classical
  rw [lookupSymbolRva]
  split_ifs with hne
  · rfl
  · apply lookupFrom_eq_zero
    intro k hk hnamed
    apply symbolRva_of_none
    intro hplaced
    have hex : ∃ j, j ∈ t.symbols ∧ t.symbolNamed j name ∧ (t.inSection table j ∨ t.isAbsolute j) :=
      ⟨k, hk, hnamed, hplaced⟩
    obtain ⟨hmem, hnamed', hplaced'⟩ := Nat.find_spec hex
    apply h (Nat.find hex) ⟨hne, hmem, hnamed', hplaced', _⟩
    intro j hj hlt hjnamed hjplaced
    apply Nat.find_min hex hlt ⟨hj, hjnamed, hjplaced⟩

theorem lookup_eq_zero_iff :
  t.lookupSymbolRva table name = 0 ↔ ∀ i, t.FirstNamed table name i → t.address table i = 0
  := by
  constructor
  · intro hzero i hi
    rw [← lookup_of_firstNamed hi, hzero]
  · intro hall
    by_cases hex : ∃ i, t.FirstNamed table name i
    · obtain ⟨i, hi⟩ := hex
      rw [lookup_of_firstNamed hi, hall i hi]
    · apply lookup_of_forall_not_firstNamed (not_exists.mp hex)

theorem lookup_eq_iff {r : ℕ} (hr : r ≠ 0) :
  t.lookupSymbolRva table name = r ↔ ∃ i, t.FirstNamed table name i ∧ t.address table i = r
  := by
  constructor
  · intro heq
    by_contra hnone
    apply hr
    rw [← heq]
    apply lookup_of_forall_not_firstNamed
    intro i hi
    apply hnone ⟨i, hi, (lookup_of_firstNamed hi).symm.trans heq⟩
  · rintro ⟨i, hi, heq⟩
    rw [lookup_of_firstNamed hi, heq]

/-- The RVA that is looked up first, of those that are not zero. -/
def firstRva (lookup : CString → ℕ) (names : List CString) : ℕ :=
  ((names.map lookup).find? (· ≠ 0)).getD 0

theorem firstRva_cons (lookup : CString → ℕ) (name : CString) (names : List CString) :
  firstRva lookup (name :: names) = if lookup name ≠ 0 then lookup name else firstRva lookup names
  := by
  rw [firstRva, map_cons, find?_cons]
  by_cases hzero : lookup name = 0
  · simp [hzero, firstRva]
  · simp [hzero]

theorem namedAt_iff {names : List CString} {r : ℕ} :
  t.NamedAt table names r ↔ r ≠ 0 ∧ firstRva (t.lookupSymbolRva table) names = r
  := by
  induction names with
  | nil =>
    rw [NamedAt, false_iff]
    rintro ⟨hr, heq⟩
    exact hr heq.symm
  | cons name names ih =>
    rw [NamedAt, ← lookup_eq_zero_iff, ih, firstRva_cons]
    by_cases hzero : t.lookupSymbolRva table name = 0
    · have hnone : ¬ ∃ i, t.FirstNamed table name i ∧ t.address table i = r ∧ r ≠ 0 := by
        rintro ⟨i, hi, heq, hr⟩
        apply hr
        rw [← heq, ← lookup_of_firstNamed hi, hzero]
      simp [hzero, hnone]
    · simp only [hzero, false_and, or_false, ne_eq, not_false_eq_true, if_true]
      constructor
      · rintro ⟨i, hi, heq, hr⟩
        exact ⟨hr, (lookup_eq_iff hr).mpr ⟨i, hi, heq⟩⟩
      · rintro ⟨hr, heq⟩
        obtain ⟨i, hi, heq⟩ := (lookup_eq_iff hr).mp heq
        exact ⟨i, hi, heq, hr⟩

/-! ### The choice of the scan -/

theorem scanRound_of_not_candidate (hi : i < t.count) (h : ¬ t.Candidate table limit name i) (best : Best) :
  t.scanRound table limit name best i = best
  := by
  rw [scanRound]
  split_ifs with haccepts hsection _ habsolute
  · rfl
  · apply absurd ⟨hi, haccepts, Or.inl hsection⟩ h
  · apply absurd ⟨hi, haccepts, Or.inr habsolute.1⟩ h
  · rfl
  · rfl

theorem scanRound_of_section {best : Best} (h : best.hasSectionMatch = true) (i : ℕ) :
  t.scanRound table limit name best i = best
  := by
  simp [scanRound, h]

theorem foldl_eq_self {σ α : Type} {f : σ → α → σ} {s : σ} {l : List α} (h : ∀ x ∈ l, f s x = s) :
  l.foldl f s = s
  := by
  induction l with
  | nil => rfl
  | cons x l ih =>
    rw [foldl_cons, h x mem_cons_self]
    apply ih
    intro y hy
    apply h y (mem_cons_of_mem _ hy)

theorem findMatchingSymbol_eq (hi : i < t.count) (hfirst : ∀ j < i, ¬ t.Candidate table limit name j)
    {best : Best} (hround : t.scanRound table limit name ⟨none, 0, false⟩ i = best)
    (hrest : ∀ j, i < j → j < t.count → t.scanRound table limit name best j = best) :
  t.findMatchingSymbol table limit name = (best.idx, best.rva)
  := by
  have hsplit : range t.count
      = range i ++ i :: (range (t.count - i - 1)).map (i + 1 + ·) := by
    have hcount : t.count = i + (1 + (t.count - i - 1)) := by omega
    conv_lhs => rw [hcount, List.range_add, Nat.add_comm 1, List.range_succ_eq_map, List.map_cons,
      List.map_map]
    congr 2
    apply List.map_congr_left
    intro j _
    simp only [Function.comp_apply]
    omega
  have hbefore : (range i).foldl (t.scanRound table limit name) ⟨none, 0, false⟩
      = ⟨none, 0, false⟩ := by
    apply foldl_eq_self
    intro j hj
    rw [mem_range] at hj
    apply scanRound_of_not_candidate (by omega) (hfirst j hj)
  have hafter : ((range (t.count - i - 1)).map (i + 1 + ·)).foldl (t.scanRound table limit name) best
      = best := by
    apply foldl_eq_self
    intro j hj
    obtain ⟨k, hk, rfl⟩ := mem_map.mp hj
    rw [mem_range] at hk
    apply hrest
    · omega
    · omega
  simp [findMatchingSymbol, hsplit, hbefore, hround, hafter]

theorem findMatchingSymbol_eq_none (h : ∀ j, ¬ t.Candidate table limit name j) :
  t.findMatchingSymbol table limit name = (none, 0)
  := by
  have hfold : (range t.count).foldl (t.scanRound table limit name) ⟨none, 0, false⟩
      = ⟨none, 0, false⟩ := by
    apply foldl_eq_self
    intro j hj
    apply scanRound_of_not_candidate (mem_range.mp hj) (h j)
  simp only [findMatchingSymbol, hfold]

/-! ### Agreement -/

theorem lookup_of_first (hnames : t.NamesEnd limit) (hne : name.length ≠ 0)
    (h : t.Undisputed table limit name) (hfirst : t.FirstCandidate table limit name i) :
  t.findMatchingSymbol table limit name = (some i, t.lookupSymbolRva table name)
  := by
  obtain ⟨hsymbol, hnamed⟩ := h.named i hfirst
  have hplaced := h.placed i hfirst
  obtain ⟨hi, hfirst⟩ := hfirst
  have hlookup {rva : ℕ} (hrva : t.symbolRva table i = some rva) :
      t.lookupSymbolRva table name = rva := by
    rw [lookupSymbolRva, if_neg hne]
    apply lookupFrom_eq hsymbol hnamed hrva
    intro k hk hlt hk'
    cases hrva' : t.symbolRva table k with
    | none => rfl
    | some rva' =>
      apply absurd _ (hfirst k hlt)
      apply candidate_of_symbolRva hnames (le_of_mem_symbolsFrom hk).2 hk' hrva'
  rcases hplaced with ⟨hsection, hfits⟩ | ⟨habsolute, honly⟩
  · have hcompute : t.computeRvaFromSymbol table i = t.sectionAddress table i + t.value i := by
      have hle : ¬ t.value i > 2 ^ 32 - 1 - t.sectionAddress table i := by omega
      rw [computeRvaFromSymbol, if_pos hsection, if_neg hle]
    have hround : t.scanRound table limit name ⟨none, 0, false⟩ i
        = ⟨some i, t.sectionAddress table i + t.value i, true⟩ := by
      simp [scanRound, if_pos hi.2.1, if_pos hsection, hcompute]
    rw [hlookup (symbolRva_of_inSection hsection), Nat.mod_eq_of_lt hfits]
    apply findMatchingSymbol_eq hi.1 hfirst hround
    intro j _ _
    apply scanRound_of_section rfl
  · have hsection : ¬ t.inSection table i = true := by
      rw [isAbsolute, decide_eq_true_eq] at habsolute
      rw [inSection, habsolute, decide_eq_true_eq]
      omega
    have hcompute : t.computeRvaFromSymbol table i = t.value i := by
      rw [computeRvaFromSymbol, if_neg hsection, if_pos habsolute]
    have hround : t.scanRound table limit name ⟨none, 0, false⟩ i = ⟨some i, t.value i, false⟩ := by
      simp [scanRound, if_pos hi.2.1, if_neg hsection, habsolute, hcompute]
    rw [hlookup (symbolRva_of_isAbsolute habsolute)]
    apply findMatchingSymbol_eq hi.1 hfirst hround
    intro j hlt hj
    apply scanRound_of_not_candidate hj
    intro hcandidate
    have heq := honly j hcandidate
    omega

/-- The scan of an undisputed name finds what the lookup does. -/
theorem findMatchingSymbol_of_undisputed (hnames : t.NamesEnd limit) (hne : name.length ≠ 0)
    (h : t.Undisputed table limit name) :
  (∃ i, t.findMatchingSymbol table limit name = (some i, t.lookupSymbolRva table name))
    ∨ t.findMatchingSymbol table limit name = (none, 0) ∧ t.lookupSymbolRva table name = 0
  := by
  classical
  by_cases hex : ∃ i, t.Candidate table limit name i
  · left
    have hfirst : t.FirstCandidate table limit name (Nat.find hex) := by
      use Nat.find_spec hex
      intro j hj
      apply Nat.find_min hex hj
    exact ⟨_, lookup_of_first hnames hne h hfirst⟩
  · right
    rw [not_exists] at hex
    use findMatchingSymbol_eq_none hex
    apply lookup_of_forall_not_firstNamed
    rintro k ⟨-, hk, hnamed, hplaced, -⟩
    apply hex k
    apply candidate_of_symbolRva hnames (le_of_mem_symbolsFrom hk).2 hnamed
    apply symbolRva_eq_address hplaced

/-- If the first record that the scan may take is undisputed, the lookup returns an RVA for a name
exactly when the scan finds the name with this RVA. -/
theorem lookupSymbolRva_eq_iff (hnames : t.NamesEnd limit) (hne : name.length ≠ 0)
    (h : t.Undisputed table limit name) {rva : ℕ} (hrva : rva ≠ 0) :
  t.lookupSymbolRva table name = rva ↔ ∃ i, t.findMatchingSymbol table limit name = (some i, rva)
  := by
  rcases findMatchingSymbol_of_undisputed hnames hne h with ⟨i, hfind⟩ | ⟨hfind, hzero⟩
  · rw [hfind]
    constructor
    · rintro rfl
      exact ⟨i, rfl⟩
    · rintro ⟨j, heq⟩
      rw [Prod.mk.injEq] at heq
      apply heq.2
  · rw [hfind, hzero]
    constructor
    · intro heq
      apply absurd heq.symm hrva
    · rintro ⟨i, heq⟩
      cases heq

def mainSymbol (value sectionNumber : UInt8) : List UInt8 :=
  [109, 97, 105, 110, 0, 0, 0, 0, value, 0, 0, 0, sectionNumber, 0, 0, 0, 2, 0]

def mainSymbols (symbols : List (UInt8 × UInt8)) : SymbolTable where
  buf x := (symbols.flatMap fun s => mainSymbol s.1 s.2).getD x 0
  count := symbols.length
  stringTable := none

def oneSection : List ImageSectionHeader := [⟨0x200, 0x1000, 0x200, 0x400, 0⟩]

/-- `main` at 0x1010 and `mainCRTStartup` at 0x1020, whose name is in the string table. -/
def startupSymbols : SymbolTable where
  buf x := (mainSymbol 16 1 ++ [0, 0, 0, 0, 4, 0, 0, 0, 32, 0, 0, 0, 1, 0, 0, 0, 2, 0, 23, 0, 0, 0]
    ++ (CString.ofString "xxxxmainCRTStartup").bytes ++ [0]).getD x 0
  count := 2
  stringTable := some 40
  stringSize := 23

/-- The scan accepts both symbols for `main`, and takes the first. -/
theorem lookupSymbolRva_eq_iff_main :
  startupSymbols.symbolName 32 1 = some (.ofString "mainCRTStartup")
    ∧ startupSymbols.accepts 32 (.ofString "main") 1 = true
    ∧ startupSymbols.findMatchingSymbol oneSection 32 (.ofString "main") = (some 0, 0x1010)
    ∧ startupSymbols.lookupSymbolRva oneSection (.ofString "main") = 0x1010
  := by
  have hscan : startupSymbols.findMatchingSymbol oneSection 32 (.ofString "main")
      = (some 0, 0x1010) := by
    decide +kernel
  refine ⟨by decide +kernel, by decide +kernel, hscan, ?_⟩
  have hmain : startupSymbols.Candidate oneSection 32 (.ofString "main") 0 :=
    ⟨by decide, by decide +kernel, by decide +kernel⟩
  have hzero {i : ℕ} (hi : startupSymbols.FirstCandidate oneSection 32 (.ofString "main") i) :
      i = 0 := by
    by_contra hne
    exact hi.2 0 (Nat.pos_of_ne_zero hne) hmain
  apply (lookupSymbolRva_eq_iff _ (by decide) _ (by decide)).mpr ⟨0, hscan⟩
  · have hends : ∀ i < 2, startupSymbols.buf.hasNul
        (40 + (startupSymbols.buf.u32 (sizeofSymbol * i + 4)).toNat) 32 := by
      decide +kernel
    rintro i hi - _ ⟨⟩
    apply hends i hi
  · constructor
    · intro i hi
      rw [hzero hi]
      decide +kernel
    · intro i hi
      rw [hzero hi]
      left
      decide +kernel

/-- With an absolute symbol before the one in a section, the lookup takes the first and the scan the
second. -/
theorem lookupSymbolRva_ne_scan :
  (mainSymbols [(5, 0), (16, 1)]).NamesEnd 32
    ∧ (mainSymbols [(5, 0), (16, 1)]).lookupSymbolRva oneSection (.ofString "main") = 5
    ∧ (mainSymbols [(5, 0), (16, 1)]).findMatchingSymbol oneSection 32 (.ofString "main")
      = (some 1, 0x1010)
  := by
  refine ⟨?_, by decide +kernel, by decide +kernel⟩
  intro i _ _ strings hstrings
  cases hstrings

end Pe.SymbolTable
