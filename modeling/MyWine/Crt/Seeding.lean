import MyWine.Lib.Region
import MyWine.Pe.SymbolScan

/-!
# The variables of the CRT

`mingw_discover_offsets` and `watcom_discover_offsets` keep the RVAs of `argc`, `argv` and `environ` as
offsets from `.bss`, where zero stands for no symbol, and `mingw_seed_bss` and `watcom_seed_bss` add the
offsets to the address of `.bss`.  A variable at the start of `.bss` is taken for one without a symbol,
in a 64-bit process the offset of a variable before `.bss` leads behind the image, and only the pages of
`.bss` are made writable (`seeded_iff`).
-/

open Pe

namespace Crt

inductive CrtVar where
  | argc
  | argv
  | environ
  deriving DecidableEq

inductive CrtModule where
  | mingw
  | watcom
  deriving DecidableEq

def CrtVar.symbolNames : CrtVar → List CString
  | .argc => [.ofString "_argc", .ofString "__argc"]
  | .argv => [.ofString "_argv", .ofString "__argv"]
  | .environ => [.ofString "_environ", .ofString "__envp"]

/-- `MINGW_BSS_ARGC` and the like, which agree with `WATCOM_BSS_ARGC` and the like. -/
def CrtVar.bssOffset : CrtVar → UInt32
  | .argc => 0x28
  | .argv => 0x20
  | .environ => 0x18

/-- The lookup of a symbol: `find_symbol_rva_from_file`, with its bound for names, or
`lookup_symbol_rva`. -/
def CrtModule.lookup (crt : CrtModule) (t : SymbolTable) (table : List ImageSectionHeader) (limit : ℕ)
    (name : CString) : ℕ :=
  match crt with
  | .mingw => (t.findMatchingSymbol table limit name).2
  | .watcom => t.lookupSymbolRva table name

/-- The scan of `find_symbol_rva_from_file` is undisputed for the names up to the first one that has an
address. -/
def FoundBy (t : SymbolTable) (table : List ImageSectionHeader) (limit : ℕ) : List CString → Prop
  | [] => True
  | name :: names =>
    (name.length ≠ 0 ∧ t.NamesEnd limit ∧ t.Undisputed table limit name) ∧
      ((∀ i, t.FirstNamed table name i → t.address table i = 0) → FoundBy t table limit names)

def CrtVar.rva (v : CrtVar) (lookup : CString → ℕ) : ℕ := SymbolTable.firstRva lookup v.symbolNames

/-- `mingw_discover_offsets` and `watcom_discover_offsets`. -/
def discoverOffset (lookup : CString → ℕ) (bss : UInt32) (v : CrtVar) : UInt32 :=
  let off := if v.rva lookup ≠ 0 then UInt32.ofNat (v.rva lookup) - bss else 0
  if off = 0 then v.bssOffset else off

/-- A store into the image. -/
structure Seed where
  address : ℕ
  size : ℕ
  value : ℕ
  deriving DecidableEq

/-- What becomes of a store: it is left out, made, or faults. -/
inductive Seeding where
  | skip
  | store (s : Seed)
  | fault
  deriving DecidableEq

/-- The image in the process: its base, its size and type, the `argv` and `environ` of a program in
a 32-bit process, the size of `.bss`, whether `mprotect` opens it, and which addresses are writable
before. -/
structure SeedTarget where
  b : Build
  base : ℕ
  sizeOfImage : ℕ
  pe32 : Bool
  argvPtr : ℕ
  envpPtr : ℕ
  bssSize : ℕ
  opens : Bool
  writable : ℕ → Bool

namespace SeedTarget

variable (i : SeedTarget)

def size : CrtVar → ℕ
  | .argc => 4
  | .argv | .environ => if i.pe32 then 4 else 8

def value : CrtVar → ℕ
  | .argc => 1
  | .argv => if i.pe32 ∧ i.b = .i386 then i.argvPtr else 0
  | .environ => if i.pe32 ∧ i.b = .i386 then i.envpPtr else 0

def bssPages (bss : UInt32) : Region :=
  ⟨pageStart (i.base + bss.toNat), i.b.wrap (pageRoundUp i.bssSize)⟩

/-- All `n` bytes from `a` on can be written once `.bss` is open. -/
def isWritable (bss : UInt32) (a n : ℕ) : Bool :=
  (List.range n).all fun j => a + j ∈ i.bssPages bss || i.writable (a + j)

/-- `mingw_seed_bss` and `watcom_seed_bss` for a variable with an offset.  A `.bss` at the RVA zero
counts as none. -/
def seedBss (bss off : UInt32) (v : CrtVar) : Seeding :=
  if bss = 0 ∨ i.opens = false ∨ off = 0 then .skip
  else
    let a := i.b.wrap (i.base + bss.toNat + off.toNat)
    if i.isWritable bss a (i.size v) then .store ⟨a, i.size v, i.value v⟩ else .fault

/-- A variable with a symbol is stored there, and one without a symbol in the image. -/
def Seeded (t : SymbolTable) (table : List ImageSectionHeader) (lookup : CString → ℕ) (bss : UInt32)
    (v : CrtVar) : Prop :=
  (∀ r, t.NamedAt table v.symbolNames r →
    i.seedBss bss (discoverOffset lookup bss v) v = .store ⟨i.base + r, i.size v, i.value v⟩) ∧
  ((∀ r, ¬ t.NamedAt table v.symbolNames r) →
    i.seedBss bss (discoverOffset lookup bss v) v ≠ .fault ∧
    ∀ s, i.seedBss bss (discoverOffset lookup bss v) v = .store s →
      i.base ≤ s.address ∧ s.address + s.size ≤ i.base + i.sizeOfImage)

/-- A variable with a symbol is not at the start of `.bss`, nor before it in a 64-bit process, and can be
written.  There is room in the image for one without a symbol, which can be written there. -/
def SeedFits (t : SymbolTable) (table : List ImageSectionHeader) (bss : UInt32) (v : CrtVar) : Prop :=
  (∀ r, t.NamedAt table v.symbolNames r →
    bss ≠ 0 ∧ i.opens = true ∧ r ≠ bss.toNat ∧ (i.b = .x64 → bss.toNat ≤ r) ∧
      i.isWritable bss (i.base + r) (i.size v)) ∧
  ((∀ r, ¬ t.NamedAt table v.symbolNames r) → bss ≠ 0 → i.opens = true →
    bss.toNat + v.bssOffset.toNat + i.size v ≤ i.sizeOfImage ∧
      i.isWritable bss (i.base + bss.toNat + v.bssOffset.toNat) (i.size v))

end SeedTarget

theorem CrtVar.bssOffset_bounds (v : CrtVar) :
  v.bssOffset ≠ 0 ∧ v.bssOffset.toNat ≠ 0 ∧ v.bssOffset.toNat ≤ 0x28
  := by
  cases v <;> decide

section

variable {i : SeedTarget} {bss : UInt32} (hbase : pageSize ≤ i.base)
  (hmapped : i.base + i.sizeOfImage ≤ i.b.ptrLimit) (hbss : bss.toNat < i.sizeOfImage)
include hmapped hbss

/-- The address of a symbol at another place than the start of `.bss`. -/
theorem wrap_symbol_eq_iff {rva : ℕ} (hsize : i.sizeOfImage < 2 ^ 32) (hrva : rva < i.sizeOfImage)
    (hne : rva ≠ bss.toNat) :
  i.b.wrap (i.base + bss.toNat + (UInt32.ofNat rva - bss).toNat) = i.base + rva ↔
    (i.b = .x64 → bss.toNat ≤ rva)
  := by
  rw [UInt32.toNat_sub, UInt32.toNat_ofNat', Nat.mod_eq_of_lt (hrva.trans hsize)]
  rcases lt_or_gt_of_ne hne with hlt | hgt
  · -- The sum is that of the symbol and `2 ^ 32`.
    rw [Nat.mod_eq_of_lt (by omega), Build.wrap]
    cases hb : i.b with
    | x64 =>
      have hlimit : Build.x64.ptrLimit = 2 ^ 64 := by decide
      rw [hb, hlimit] at hmapped
      simp only [hlimit, true_implies]
      omega
    | i386 =>
      have hlimit : Build.i386.ptrLimit = 2 ^ 32 := by decide
      rw [hb, hlimit] at hmapped
      simp only [hlimit, reduceCtorEq, false_implies, iff_true]
      omega
  · have hsub : (2 ^ 32 - bss.toNat + rva) % 2 ^ 32 = rva - bss.toNat := by omega
    rw [hsub, Build.wrap_of_lt (by omega)]
    omega

include hbase

/-- An offset from the start of `.bss` stays in the address space, or leads out of the image and around. -/
theorem wrap_bss_cases {off : ℕ} (hoff : off < pageSize) :
  i.b.wrap (i.base + bss.toNat + off) = i.base + bss.toNat + off ∨
    i.b.wrap (i.base + bss.toNat + off) < i.base ∧ i.sizeOfImage ≤ bss.toNat + off
  := by
  by_cases hlt : i.base + bss.toNat + off < i.b.ptrLimit
  · exact Or.inl (Build.wrap_of_lt hlt)
  · rw [Build.wrap, Nat.mod_eq_sub_mod (by omega), Nat.mod_eq_of_lt (by omega)]
    omega

end

/-- Both lookups find the symbols of a variable at their addresses. -/
theorem rva_lookup_eq (crt : CrtModule) {t : SymbolTable} {table : List ImageSectionHeader} {limit : ℕ}
    {v : CrtVar} (hfound : crt = .mingw → FoundBy t table limit v.symbolNames) :
  v.rva (crt.lookup t table limit) = v.rva (t.lookupSymbolRva table)
  := by
  cases crt with
  | watcom => rfl
  | mingw =>
    specialize hfound rfl
    rw [CrtVar.rva, CrtVar.rva]
    generalize v.symbolNames = names at hfound
    induction names with
    | nil => rfl
    | cons name names ih =>
      obtain ⟨⟨hne, hnames, hundisputed⟩, hrest⟩ := hfound
      have hlookup : CrtModule.mingw.lookup t table limit name = t.lookupSymbolRva table name := by
        rw [CrtModule.lookup]
        rcases SymbolTable.findMatchingSymbol_of_undisputed hnames hne hundisputed with
          ⟨i, hfind⟩ | ⟨hfind, hzero⟩
        · rw [hfind]
        · rw [hfind, hzero]
      rw [SymbolTable.firstRva_cons, SymbolTable.firstRva_cons, hlookup]
      split_ifs with hne
      · rfl
      · apply ih (hrest (SymbolTable.lookup_eq_zero_iff.mp (not_not.mp hne)))

section

variable {i : SeedTarget} {bss : UInt32} {v : CrtVar} {lookup : CString → ℕ}
  (hmapped : i.base + i.sizeOfImage ≤ i.b.ptrLimit) (hbss : bss.toNat < i.sizeOfImage)
include hmapped hbss

omit hmapped hbss in
theorem seedBss_eq_store_iff {off : UInt32} {s : Seed} :
  i.seedBss bss off v = .store s ↔
    bss ≠ 0 ∧ i.opens = true ∧ off ≠ 0 ∧ i.isWritable bss s.address (i.size v) ∧
      s = ⟨i.b.wrap (i.base + bss.toNat + off.toNat), i.size v, i.value v⟩
  := by
  rw [SeedTarget.seedBss]
  grind

/-- The store for a variable whose symbol is found at an RVA. -/
theorem seedBss_symbol_iff {r : ℕ} (hbase : pageSize ≤ i.base) (hsize : i.sizeOfImage < 2 ^ 32)
    (hr : r < i.sizeOfImage) (hr0 : r ≠ 0) (hrva : v.rva lookup = r) :
  i.seedBss bss (discoverOffset lookup bss v) v = .store ⟨i.base + r, i.size v, i.value v⟩ ↔
    bss ≠ 0 ∧ i.opens = true ∧ r ≠ bss.toNat ∧ (i.b = .x64 → bss.toNat ≤ r) ∧
      i.isWritable bss (i.base + r) (i.size v)
  := by
  obtain ⟨hoffset, hoff, hle⟩ := v.bssOffset_bounds
  have hzero : UInt32.ofNat r - bss = 0 ↔ r = bss.toNat := by
    rw [← UInt32.toNat_inj, UInt32.toNat_sub, UInt32.toNat_ofNat', UInt32.toNat_zero]
    omega
  rw [discoverOffset, hrva, if_pos hr0]
  by_cases hstart : r = bss.toNat
  · -- The offset zero is replaced by the one for variables without a symbol.
    refine iff_of_false ?_ fun h => h.2.2.1 hstart
    simp only [if_pos (hzero.mpr hstart), seedBss_eq_store_iff, Seed.mk.injEq]
    have hwrap := wrap_bss_cases hbase hmapped hbss (hle.trans_lt (by decide))
    rintro ⟨-, -, -, -, heq, -⟩
    omega
  · have hsymbol := wrap_symbol_eq_iff hmapped hbss hsize hr hstart
    simp only [if_neg (mt hzero.mp hstart), seedBss_eq_store_iff, ← hsymbol]
    have hne := mt hzero.mp hstart
    grind

/-- The store for a variable that is not found. -/
theorem seedBss_unnamed_iff (hbase : pageSize ≤ i.base) (hrva : v.rva lookup = 0) :
  (i.seedBss bss (discoverOffset lookup bss v) v ≠ .fault ∧
    ∀ s, i.seedBss bss (discoverOffset lookup bss v) v = .store s →
      i.base ≤ s.address ∧ s.address + s.size ≤ i.base + i.sizeOfImage) ↔
    (bss ≠ 0 → i.opens = true → bss.toNat + v.bssOffset.toNat + i.size v ≤ i.sizeOfImage ∧
      i.isWritable bss (i.base + bss.toNat + v.bssOffset.toNat) (i.size v))
  := by
  obtain ⟨hoffset, hoff, hle⟩ := v.bssOffset_bounds
  have hpos : 0 < i.size v := by
    cases v <;> rw [SeedTarget.size] <;> first | split <;> decide | decide
  rw [discoverOffset, hrva]
  simp only [ne_eq, not_true_eq_false, if_false, if_true, SeedTarget.seedBss, hoffset, or_false]
  rcases wrap_bss_cases hbase hmapped hbss (hle.trans_lt (by decide)) with hwrap | hwrap
  · rw [hwrap]
    split_ifs with hskip hwritable
    · grind
    · grind
    · grind
  · split_ifs with hskip hwritable
    · grind
    · grind
    · grind

end

/-- In a mapped image, the variables are seeded as they should be if and only if they fit. -/
theorem seeded_iff (crt : CrtModule) (t : SymbolTable) (table : List ImageSectionHeader) (limit : ℕ)
    (i : SeedTarget) (bss : UInt32) (hbase : pageSize ≤ i.base)
    (hmapped : i.base + i.sizeOfImage ≤ i.b.ptrLimit) (hsize : i.sizeOfImage < 2 ^ 32)
    (hbss : bss.toNat < i.sizeOfImage)
    (hinside : ∀ v : CrtVar, ∀ r, t.NamedAt table v.symbolNames r → r < i.sizeOfImage)
    (hfound : crt = .mingw → ∀ v : CrtVar, FoundBy t table limit v.symbolNames) :
  (∀ v, i.Seeded t table (crt.lookup t table limit) bss v) ↔ ∀ v, i.SeedFits t table bss v
  := by
  apply forall_congr'
  intro v
  have hrva := rva_lookup_eq crt fun h => hfound h v
  rw [SeedTarget.Seeded, SeedTarget.SeedFits]
  refine and_congr (forall₂_congr fun r hr => ?_) (forall_congr' fun hnone => ?_)
  · obtain ⟨hr0, hfirst⟩ := SymbolTable.namedAt_iff.mp hr
    apply seedBss_symbol_iff hmapped hbss hbase hsize (hinside v r hr) hr0 (hrva.trans hfirst)
  · apply seedBss_unnamed_iff hmapped hbss hbase
    rw [hrva]
    by_contra hne
    apply hnone _ (SymbolTable.namedAt_iff.mpr ⟨hne, rfl⟩)

/-- A 64-bit program at `0x400000` with a `.bss` of `0x100` bytes. -/
def seedTarget (writable : ℕ → Bool) : SeedTarget :=
  ⟨.x64, 0x400000, 0x4000, false, 0, 0, 0x100, true, writable⟩

/-- `.data` at `0x1000`, `.bss` at `0x2000` and `.rdata` at `0x3000`. -/
def seedSections : List ImageSectionHeader :=
  [⟨0x200, 0x1000, 0, 0, 0⟩, ⟨0x100, 0x2000, 0, 0, 0⟩, ⟨0x200, 0x3000, 0, 0, 0⟩]

/-- A table with one symbol, of the name `_argc`, in a section. -/
def argcSymbol (sectionNumber value : UInt8) : SymbolTable where
  buf x := ([95, 97, 114, 103, 99, 0, 0, 0, value, 0, 0, 0, sectionNumber]).getD x 0
  count := 1
  stringTable := none

theorem argcSymbol_undisputed {name : CString}
    (h : (argcSymbol 2 0x10).accepts 32 name 0 = true → (argcSymbol 2 0x10).symbolNamed 0 name = true) :
  (argcSymbol 2 0x10).Undisputed seedSections 32 name
  := by
  have hzero {i : ℕ} (hi : (argcSymbol 2 0x10).FirstCandidate seedSections 32 name i) : i = 0 :=
    Nat.lt_one_iff.mp hi.1.1
  constructor
  · intro i hi
    have haccepts := hi.1.2.1
    rw [hzero hi] at haccepts ⊢
    exact ⟨by decide, h haccepts⟩
  · intro i hi
    rw [hzero hi]
    left
    decide +kernel

theorem seeded_argc :
  (argcSymbol 2 0x10).NamedAt seedSections CrtVar.argc.symbolNames 0x2010 ∧
    ∀ v, (seedTarget fun _ => false).Seeded (argcSymbol 2 0x10) seedSections
      (CrtModule.mingw.lookup (argcSymbol 2 0x10) seedSections 32) 0x2000 v
  := by
  have hrva (v : CrtVar) : v.rva ((argcSymbol 2 0x10).lookupSymbolRva seedSections) =
      if v = .argc then 0x2010 else 0 := by
    cases v <;> decide +kernel
  have hargc : (argcSymbol 2 0x10).NamedAt seedSections CrtVar.argc.symbolNames 0x2010 :=
    SymbolTable.namedAt_iff.mpr ⟨by decide, hrva .argc⟩
  have hnamed {v : CrtVar} {r : ℕ} (h : (argcSymbol 2 0x10).NamedAt seedSections v.symbolNames r) :
      v = .argc ∧ r = 0x2010 := by
    obtain ⟨hr, heq⟩ := SymbolTable.namedAt_iff.mp h
    have hv := hrva v
    rw [CrtVar.rva, heq] at hv
    split_ifs at hv with hargc
    · exact ⟨hargc, hv⟩
    · cases hr hv
  have hends : (argcSymbol 2 0x10).NamesEnd 32 := by
    rintro i - - strings hstrings
    cases hstrings
  use hargc
  apply (seeded_iff .mingw (argcSymbol 2 0x10) seedSections 32 (seedTarget fun _ => false) 0x2000
    (by decide) (by decide) (by decide) (by decide) ?_ ?_).mpr
  · intro v
    constructor
    · intro r hr
      obtain ⟨rfl, rfl⟩ := hnamed hr
      decide +kernel
    · intro _ _ _
      cases v <;> decide +kernel
  · intro v r hr
    rw [(hnamed hr).2]
    decide
  · intro _ v
    have hfound {name : CString} (hlength : name.length ≠ 0) (h : (argcSymbol 2 0x10).accepts 32 name 0 =
        true → (argcSymbol 2 0x10).symbolNamed 0 name = true) :=
      (⟨hlength, hends, argcSymbol_undisputed h⟩ : _ ∧ _ ∧ _)
    cases v <;> exact ⟨hfound (by decide) (by decide +kernel),
      fun _ => ⟨hfound (by decide) (by decide +kernel), fun _ => trivial⟩⟩

/-- With `argc` at the start of `.bss`, or before it in a 64-bit process, another address is written, and
with `argc` in `.rdata` the store faults. -/
theorem seedBss_elsewhere :
  (argcSymbol 2 0).NamedAt seedSections CrtVar.argc.symbolNames 0x2000 ∧
    (seedTarget fun _ => true).seedBss 0x2000 (discoverOffset
      (CrtModule.watcom.lookup (argcSymbol 2 0) seedSections 0) 0x2000 .argc) .argc =
        .store ⟨0x402028, 4, 1⟩ ∧
    (argcSymbol 1 0x10).NamedAt seedSections CrtVar.argc.symbolNames 0x1010 ∧
    (seedTarget fun _ => true).seedBss 0x2000 (discoverOffset
      (CrtModule.watcom.lookup (argcSymbol 1 0x10) seedSections 0) 0x2000 .argc) .argc =
        .store ⟨0x100401010, 4, 1⟩ ∧
    (argcSymbol 3 0x10).NamedAt seedSections CrtVar.argc.symbolNames 0x3010 ∧
    (seedTarget fun _ => false).seedBss 0x2000 (discoverOffset
      (CrtModule.watcom.lookup (argcSymbol 3 0x10) seedSections 0) 0x2000 .argc) .argc = .fault
  := by
  simp only [SymbolTable.namedAt_iff]
  decide +kernel

end Crt
