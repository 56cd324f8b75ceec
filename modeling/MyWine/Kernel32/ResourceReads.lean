import MyWine.Kernel32.Resources

/-!
# What a resource lookup reads

A lookup should read the directory only inside of the resource data, and the queries only up to their
terminating `NUL` (`LookupSafe`).  Nothing bounds the entries of a directory of types or names, nor the
directory of names that an entry points to, so that a lookup is safe only if the entries it looks at are
there (`SearchFits`).  A type such as `#70000` is an id that is too large for an id, and is compared as
if it were the address of a string.  The directory of languages and the data entry are checked, but by a
comparison of pointers, which wrap around on `i386` (`DataFits`).
-/

open Pe

namespace Resource

open Option

/-! ### The property and its condition -/

def InString (m : Bytes) (p a : ℕ) : Prop := p ≤ a ∧ ∀ x, p ≤ x → x < a → m x ≠ 0

def InQueries (m : Bytes) (type name a : ℕ) : Prop :=
  2 ^ 16 ≤ type ∧ InString m type a ∨ 2 ^ 16 ≤ name ∧ InString m name a

/-- A read of a query lies in the bytes `S`, and one of the directory in the region `r`. -/
def Access.Ok (S : ℕ → Prop) (r : Region) : Access → Prop
  | .directory s => ∀ a ∈ s, a ∈ r
  | .query s => ∀ a ∈ s, S a

def rootRegion (l : Modules) (hModule : ℕ) : Region :=
  match getRoot l hModule with
  | none => ⟨0, 0⟩
  | some (base, _, rva, size) => ⟨base + rva, size⟩

/-- The lookup reads only the queries and the resource data, and the data it finds lies in the image. -/
structure LookupSafe (b : Build) (m : Bytes) (l : Modules) (mem : Bool) (hModule type name : ℕ) :
    Prop where
  reads : (wineResourceFind b m l mem hModule type name).All
    (Access.Ok (InQueries m type name) (rootRegion l hModule))
  data : ∀ p n, (wineResourceFind b m l mem hModule type name).value = some (p, n) →
    ∃ base nt, l.find hModule = some (base, nt) ∧ base ≤ p ∧ p + n ≤ base + peSizeOfImage nt

section

variable (b : Build) (m : Bytes) (root size : ℕ)

def NamedIn (entry : ℕ) : Prop :=
  2 ^ 31 ≤ m.readLE entry 4 ∧ m.readLE entry 4 % 2 ^ 31 + 2 ≤ size
    ∧ m.readLE entry 4 % 2 ^ 31 + 2
        + m.readLE (b.wrap (root + m.readLE entry 4 % 2 ^ 31)) 2 * 2 ≤ size

/-- The search in the directory at the offset `off` gets to the entry `i`: there is such an entry, and
none of the entries before it matches. -/
def Visits (off : ℕ) (query : ℕ) (i : ℕ) : Prop :=
  i < (entryCount b m (b.wrap (root + off))).value
    ∧ ∀ j < i,
        (nameMatches b m root size query (entryAt b (b.wrap (root + off)) j)).value = false

/-- What a search in the directory at the offset `off` looks at lies in the resource data: the header of
the directory, the names of the entries, and the entry that matches.  The query is the address of a query
string if it is compared with a name. -/
structure SearchFits (S : ℕ → Prop) (off : ℕ) (query : ℕ) : Prop where
  header : off + sizeofDirectory ≤ size
  names : ∀ i, Visits b m root size off query i → query ≠ 0 →
    off + sizeofDirectory + sizeofEntry * i + 4 ≤ size
  string : ∀ i, Visits b m root size off query i → 2 ^ 16 ≤ query →
    NamedIn b m root size (entryAt b (b.wrap (root + off)) i) → S query
  found : ∀ i, Visits b m root size off query i →
    (nameMatches b m root size query (entryAt b (b.wrap (root + off)) i)).value = true →
    off + sizeofDirectory + sizeofEntry * (i + 1) ≤ size

/-- The addresses of the directory of languages at the offset `lang` and of its data entry do not wrap
around. -/
structure DataFits (lang : ℕ) : Prop where
  directory : root + lang + 24 < b.ptrLimit
  entry : lang + 24 ≤ size →
    m.readLE (root + lang + 12) 2 + m.readLE (root + lang + 14) 2 ≠ 0 →
    m.readLE (root + lang + 20) 4 < 2 ^ 31 →
    root + m.readLE (root + lang + 20) 4 + 16 < b.ptrLimit

/-- The searches on the way to the data fit. -/
structure WalkFits (type name : ℕ) : Prop where
  types : SearchFits b m root size (InQueries m type name) 0 (typeQuery b m type).value
  names : ∀ nameDir, (subdirectory b m root size root (typeQuery b m type).value).value = some nameDir →
    SearchFits b m root size (InQueries m type name) nameDir name
  languages : ∀ nameDir langDir,
    (subdirectory b m root size root (typeQuery b m type).value).value = some nameDir →
    (subdirectory b m root size (b.wrap (root + nameDir)) name).value = some langDir →
    DataFits b m root size langDir

end

def LookupFits (b : Build) (m : Bytes) (l : Modules) (hModule type name : ℕ) : Prop :=
  ∀ base nt rva size, getRoot l hModule = some (base, nt, rva, size) →
    WalkFits b m (base + rva) size type name

/-- The image of a module is mapped: it does not reach into the last page of the address space. -/
def Mapped (b : Build) (l : Modules) (hModule : ℕ) : Prop :=
  ∀ base nt, l.find hModule = some (base, nt) → base + peSizeOfImage nt + pageSize ≤ b.ptrLimit

/-! ### Addresses -/

theorem two_pow_32_le_ptrLimit (b : Build) :
  2 ^ 32 ≤ b.ptrLimit
  := by
  cases b <;> decide

theorem wrap_wrap_add (b : Build) (x y : ℕ) :
  b.wrap (b.wrap x + y) = b.wrap (x + y)
  := by
  simp [Build.wrap]

variable {b : Build} {m : Bytes} {root size : ℕ} {S : ℕ → Prop}

variable {n d p : ℕ}

/-- A read at the offset `d` lies in the resource data when its end does, also if its address wraps
around. -/
theorem ok_directory_iff (hroot : root + size < b.ptrLimit) (hd : d < 2 ^ 32) (hn : 0 < n) :
  Access.Ok S ⟨root, size⟩ (.directory ⟨b.wrap (root + d), n⟩) ↔ d + n ≤ size
  := by
  have hlimit := two_pow_32_le_ptrLimit b
  simp only [Access.Ok, Region.mem_iff]
  by_cases hwrap : root + d < b.ptrLimit
  · rw [Build.wrap_of_lt hwrap]
    constructor
    · intro h
      have hlast := h (root + d + n - 1)
      omega
    · intro h a ha
      omega
  · have hwrapped : b.wrap (root + d) + b.ptrLimit = root + d := by
      rw [Build.wrap, Nat.mod_eq_sub_mod (by omega), Nat.mod_eq_of_lt (by omega)]
      omega
    constructor
    · intro h
      have hfirst := h (b.wrap (root + d))
      omega
    · intro h
      omega

theorem entryAt_wrap (off i : ℕ) :
  entryAt b (b.wrap (root + off)) i = b.wrap (root + (off + sizeofDirectory + sizeofEntry * i))
  := by
  rw [entryAt, Nat.add_assoc, wrap_wrap_add]
  simp only [Nat.add_assoc]

/-! ### Queries -/

def UpToNul (m : Bytes) (S : ℕ → Prop) : Prop := ∀ a, S a → m a ≠ 0 → S (a + 1)

theorem upToNul_inString (p : ℕ) :
  UpToNul m (InString m p)
  := by
  rintro a ⟨hle, hbefore⟩ ha
  use by omega
  · intro x hx hlt
    rcases eq_or_ne x a with rfl | hne
    · apply ha
    · apply hbefore x hx (by omega)

theorem upToNul_inQueries (type name : ℕ) :
  UpToNul m (InQueries m type name)
  := by
  rintro a (⟨hid, hstring⟩ | ⟨hid, hstring⟩) ha
  · left
    exact ⟨hid, upToNul_inString type a hstring ha⟩
  · right
    exact ⟨hid, upToNul_inString name a hstring ha⟩

theorem inString_self (p : ℕ) :
  InString m p p
  := by
  use le_refl p
  intro x hx hlt
  omega

variable {r : Region}

theorem all_queryByte {a : ℕ} :
  (queryByte m a).All (Access.Ok S r) ↔ S a
  := by
  rw [queryByte, Traced.all_mk, Access.Ok]
  simp only [Region.mem_iff]
  constructor
  · intro h
    apply h a
    omega
  · intro h x hx
    obtain rfl : x = a := by omega
    apply h

theorem all_asciiEqUtf16 (hS : UpToNul m S) {ascii wide : ℕ}
    (hwide : ∀ a, wide ≤ a → a < wide + n * 2 → a ∈ r) :
  (asciiEqUtf16 m ascii wide n).All (Access.Ok S r) ↔ S ascii
  := by
  induction n generalizing ascii wide with
  | zero => simp [asciiEqUtf16, all_queryByte]
  | succ n ih =>
    simp only [asciiEqUtf16, Traced.all_bind, all_queryByte]
    constructor
    · rintro ⟨h, -⟩
      apply h
    · intro h
      use h
      rw [Traced.all_ite]
      constructor
      · intro _
        apply Traced.all_pure
      · intro hch
        rw [Traced.all_bind, Traced.all_ite]
        refine ⟨?_, fun _ => Traced.all_pure _, fun _ => ?_⟩
        · rw [directoryU16, Traced.all_mk]
          intro a ha
          simp only [Region.mem_iff] at ha
          apply hwide a (by omega) (by omega)
        · rw [ih]
          · apply hS ascii h hch
          · intro a hle hlt
            apply hwide a (by omega) (by omega)

theorem all_matchesLiteral (hS : UpToNul m S) (hp : S p) {literal : List UInt8}
    (hliteral : 0 ∉ literal.dropLast) :
  (matchesLiteral m p literal).All (Access.Ok S r)
  := by
  induction literal generalizing p with
  | nil => apply Traced.all_pure
  | cons c cs ih =>
    rw [matchesLiteral, Traced.all_bind, all_queryByte, Traced.all_ite]
    refine ⟨hp, fun hch => ?_, fun _ => Traced.all_pure _⟩
    cases cs with
    | nil => apply Traced.all_pure
    | cons c' cs =>
      rw [List.dropLast_cons_cons, List.mem_cons, not_or] at hliteral
      apply ih
      · apply hS p hp
        intro hzero
        apply hliteral.1
        rw [← hzero, ← hch]
        rfl
      · apply hliteral.2

theorem all_parseDigits (hS : UpToNul m S) {value : ℕ} (hp : S p) :
  (parseDigits m n p value).All (Access.Ok S r)
  := by
  induction n generalizing p value with
  | zero => apply Traced.all_pure
  | succ n ih =>
    rw [parseDigits, Traced.all_bind, all_queryByte, Traced.all_ite]
    refine ⟨hp, fun hch => ?_, fun _ => Traced.all_pure _⟩
    apply ih
    apply hS p hp
    intro hzero
    have hle : (48 : UInt8) ≤ m p := hch.1
    rw [hzero] at hle
    revert hle
    decide

theorem all_builtinTypeNamed
    (hS : UpToNul m S) {type : ℕ} (htype : S type) {types : List (List UInt8 × ℕ)}
    (htypes : ∀ t ∈ types, 0 ∉ t.1.dropLast) :
  (builtinTypeNamed m type types).All (Access.Ok S r)
  := by
  induction types with
  | nil => apply Traced.all_pure
  | cons t types ih =>
    rw [builtinTypeNamed, Traced.all_bind, Traced.all_ite]
    refine ⟨?_, fun _ => Traced.all_pure _, fun _ => ?_⟩
    · apply all_matchesLiteral hS htype
      apply htypes t List.mem_cons_self
    · apply ih
      intro t' ht'
      apply htypes t' (List.mem_cons_of_mem t ht')

theorem all_typeQuery (type name : ℕ) :
  (typeQuery b m type).All (Access.Ok (InQueries m type name) r)
  := by
  have hS := @upToNul_inQueries m type name
  rw [typeQuery, Traced.all_ite]
  refine ⟨fun hstring => ?_, fun _ => Traced.all_pure _⟩
  have htype : InQueries m type name type := by
    left
    use by omega
    apply inString_self
  rw [Traced.all_bind]
  refine ⟨?_, Traced.all_pure _⟩
  rw [builtinType, if_neg hstring.1, Traced.all_bind, all_queryByte, Traced.all_ite]
  refine ⟨htype, fun hch => ?_, fun _ => ?_⟩
  · apply all_parseDigits hS
    apply hS type htype
    intro hzero
    have hch : m type = 35 := hch
    rw [hzero] at hch
    revert hch
    decide
  · apply all_builtinTypeNamed hS htype
    decide

/-! ### Directories -/

theorem all_directoryU16 (hroot : root + size < b.ptrLimit) (hd : d < 2 ^ 32) :
  (directoryU16 m (b.wrap (root + d))).All (Access.Ok S ⟨root, size⟩) ↔ d + 2 ≤ size
  := by
  rw [directoryU16, Traced.all_mk]
  apply ok_directory_iff hroot hd (by decide)

theorem all_directoryU32 (hroot : root + size < b.ptrLimit) (hd : d < 2 ^ 32) :
  (directoryU32 m (b.wrap (root + d))).All (Access.Ok S ⟨root, size⟩) ↔ d + 4 ≤ size
  := by
  rw [directoryU32, Traced.all_mk]
  apply ok_directory_iff hroot hd (by decide)

theorem all_entryCount {off : ℕ} (hroot : root + size < b.ptrLimit) (hoff : off < 2 ^ 31) :
  (entryCount b m (b.wrap (root + off))).All (Access.Ok S ⟨root, size⟩)
    ↔ off + sizeofDirectory ≤ size
  := by
  simp only [entryCount, Traced.all_bind, Traced.all_pure, and_true, wrap_wrap_add, Nat.add_assoc]
  rw [all_directoryU16 hroot (by omega), all_directoryU16 hroot (by omega), sizeofDirectory]
  omega

theorem entryCount_lt (dir : ℕ) :
  (entryCount b m dir).value < 2 ^ 16
  := by
  apply Nat.mod_lt
  decide

/-- The comparison of an entry with a query reads the name of the entry, and the query if the name is a
string. -/
theorem all_nameMatches
    {d query : ℕ} (hroot : root + size < b.ptrLimit) (hd : d < 2 ^ 32) (hS : UpToNul m S) :
  (nameMatches b m root size query (b.wrap (root + d))).All (Access.Ok S ⟨root, size⟩)
    ↔ (query ≠ 0 → d + 4 ≤ size)
      ∧ (2 ^ 16 ≤ query → NamedIn b m root size (b.wrap (root + d)) → S query)
  := by
  rw [nameMatches]
  by_cases hnull : query = 0
  · rw [if_pos hnull]
    simp only [Traced.all_pure, true_iff]
    omega
  rw [if_neg hnull, Traced.all_bind, all_directoryU32 hroot hd]
  simp only [ne_eq, hnull, not_false_eq_true, forall_const]
  apply and_congr_right
  intro _
  generalize hname : (directoryU32 m (b.wrap (root + d))).value = name
  have hread : m.readLE (b.wrap (root + d)) 4 = name := hname
  have hlt : name % 2 ^ 31 < 2 ^ 31 := Nat.mod_lt name (by decide)
  rw [NamedIn, hread]
  by_cases hid : query / 2 ^ 16 = 0
  · rw [if_pos hid]
    simp only [Traced.all_pure, true_iff]
    omega
  have hquery : 2 ^ 16 ≤ query := by omega
  rw [if_neg hid]
  simp only [hquery, forall_const]
  by_cases hnumber : name < 2 ^ 31
  · rw [if_pos hnumber]
    simp only [Traced.all_pure, true_iff]
    omega
  rw [if_neg hnumber]
  by_cases hstart : size < name % 2 ^ 31 + 2
  · rw [if_pos hstart]
    simp only [Traced.all_pure, true_iff]
    omega
  rw [if_neg hstart, Traced.all_bind, all_directoryU16 hroot (by omega)]
  have hvalue : (directoryU16 m (b.wrap (root + name % 2 ^ 31))).value
      = m.readLE (b.wrap (root + name % 2 ^ 31)) 2 := rfl
  rw [hvalue]
  by_cases hend : size < name % 2 ^ 31 + 2 + m.readLE (b.wrap (root + name % 2 ^ 31)) 2 * 2
  · rw [if_pos hend]
    simp only [Traced.all_pure, and_true]
    constructor
    · intro _ hin
      omega
    · intro _
      omega
  rw [if_neg hend, Build.wrap_of_lt (by omega : root + name % 2 ^ 31 + 2 < b.ptrLimit)]
  rw [all_asciiEqUtf16 hS]
  · constructor
    · rintro ⟨-, h⟩ -
      apply h
    · intro h
      refine ⟨by omega, h ⟨by omega, by omega, by omega⟩⟩
  · intro a hle hlt
    simp only [Region.mem_iff]
    omega

theorem all_subdirectory
    {off query : ℕ} (hroot : root + size < b.ptrLimit) (hoff : off < 2 ^ 31) (hS : UpToNul m S) :
  (subdirectory b m root size (b.wrap (root + off)) query).All (Access.Ok S ⟨root, size⟩)
    ↔ SearchFits b m root size S off query
  := by
  have hcount := @entryCount_lt b m (b.wrap (root + off))
  have hd (i : ℕ) (hi : i < (entryCount b m (b.wrap (root + off))).value) :
      off + sizeofDirectory + sizeofEntry * i < 2 ^ 32 - 4 := by
    simp only [sizeofDirectory, sizeofEntry]
    omega
  have hentry (i : ℕ) (hi : Visits b m root size off query i) :=
    @all_nameMatches b m root size S (off + sizeofDirectory + sizeofEntry * i) query hroot
      (by have := hd i hi.1; omega) hS
  rw [subdirectory, Traced.all_bind]
  set search := findEntry b m root size (b.wrap (root + off)) query with hsearch
  have hfound (i : ℕ) : search.value = some i ↔ Visits b m root size off query i
      ∧ (nameMatches b m root size query (entryAt b (b.wrap (root + off)) i)).value = true := by
    rw [hsearch, findEntry, Traced.value_bind, Traced.value_first_eq_some_iff]
    simp only [Nat.zero_le, Nat.zero_add, forall_const, true_and, Visits]
    rw [← and_assoc, and_right_comm]
  -- the reads of the search, and the read of the offset of the entry that matches
  have hreads : search.All (Access.Ok S ⟨root, size⟩) ↔ off + sizeofDirectory ≤ size ∧
      ∀ i, Visits b m root size off query i →
        (query ≠ 0 → off + sizeofDirectory + sizeofEntry * i + 4 ≤ size) ∧
        (2 ^ 16 ≤ query → NamedIn b m root size (entryAt b (b.wrap (root + off)) i) → S query) := by
    rw [hsearch, findEntry, Traced.all_bind, all_entryCount hroot hoff, Traced.all_first]
    apply and_congr_right
    intro _
    simp only [Nat.zero_le, Nat.zero_add, forall_const, Visits, and_imp]
    apply forall₃_congr
    intro i hlt hbefore
    rw [entryAt_wrap]
    apply hentry i ⟨hlt, hbefore⟩
  trans search.All (Access.Ok S ⟨root, size⟩) ∧ ∀ i, search.value = some i →
    off + sizeofDirectory + sizeofEntry * (i + 1) ≤ size
  · apply and_congr_right
    intro _
    cases hvalue : search.value with
    | none => simp
    | some i =>
      have hlt := hd i ((hfound i).mp hvalue).1.1
      simp only [Traced.all_bind, Traced.all_pure, and_true, entryAt_wrap, wrap_wrap_add,
        some.injEq, forall_eq']
      rw [Nat.add_assoc root, all_directoryU32 hroot (by omega)]
      simp only [sizeofEntry]
      omega
  · simp only [hreads, hfound, and_imp]
    constructor
    · rintro ⟨⟨hheader, hnames⟩, hentries⟩
      exact ⟨hheader, fun i hi => (hnames i hi).1, fun i hi => (hnames i hi).2, hentries⟩
    · intro h
      exact ⟨⟨h.header, fun i hi => ⟨h.names i hi, h.string i hi⟩⟩, h.found⟩

theorem subdirectory_lt {dir query off : ℕ} (h : (subdirectory b m root size dir query).value = some off) :
  off < 2 ^ 31
  := by
  simp only [subdirectory, Traced.value_bind] at h
  split at h
  · cases h
  · simp only [Traced.value_bind, Traced.value_pure] at h
    split at h
    · cases h
    · cases h
      apply Nat.mod_lt
      decide

/-! ### Languages and data -/

theorem wrap_lt_iff (hroot : root + size < b.ptrLimit) (h : root + d + n < b.ptrLimit) :
  b.wrap (root + size) < b.wrap (b.wrap (root + d) + n) ↔ size < d + n
  := by
  rw [wrap_wrap_add, Build.wrap_of_lt hroot, Build.wrap_of_lt h]
  omega

theorem not_wrap_lt (hroot : root + size < b.ptrLimit) (hd : d + n < 2 ^ 32)
    (h : b.ptrLimit ≤ root + d + n) :
  ¬ b.wrap (root + size) < b.wrap (b.wrap (root + d) + n)
  := by
  have hlimit := two_pow_32_le_ptrLimit b
  have hwrapped : b.wrap (root + d + n) = root + d + n - b.ptrLimit := by
    rw [Build.wrap, Nat.mod_eq_sub_mod h, Nat.mod_eq_of_lt (by omega)]
  rw [wrap_wrap_add, Build.wrap_of_lt hroot, hwrapped]
  omega

theorem all_readDataEntry
    {offset : ℕ} (hroot : root + size + pageSize ≤ b.ptrLimit) (hoffset : offset < 2 ^ 31) :
  (if b.wrap (root + size) < b.wrap (b.wrap (root + offset) + sizeofDataEntry) then pure none
    else do
      let rva ← directoryU32 m (b.wrap (root + offset))
      let size ← directoryU32 m (b.wrap (b.wrap (root + offset) + 4))
      pure (some (rva, size)) : Reads (Option (ℕ × ℕ))).All (Access.Ok S ⟨root, size⟩)
    ↔ root + offset + 16 < b.ptrLimit
  := by
  have hroot' : root + size < b.ptrLimit := by
    simp only [pageSize] at hroot
    omega
  simp only [Traced.all_ite, Traced.all_pure, Traced.all_bind, implies_true, true_and, and_true]
  rw [all_directoryU32 hroot' (by omega), wrap_wrap_add b (root + offset) 4,
    Nat.add_assoc root offset 4, all_directoryU32 hroot' (by omega)]
  by_cases hwrap : root + offset + sizeofDataEntry < b.ptrLimit
  · rw [wrap_lt_iff hroot' hwrap]
    simp only [sizeofDataEntry] at hwrap ⊢
    omega
  · have hnot := not_wrap_lt (b := b) hroot' (by simp only [sizeofDataEntry]; omega)
      (Nat.le_of_not_lt hwrap)
    simp only [sizeofDataEntry, pageSize] at hwrap hroot
    omega

theorem all_dataEntry
    {lang : ℕ} (hroot : root + size + pageSize ≤ b.ptrLimit) (hlang : lang < 2 ^ 31) :
  (dataEntry b m root size lang).All (Access.Ok S ⟨root, size⟩) ↔ DataFits b m root size lang
  := by
  have hroot' : root + size < b.ptrLimit := by
    simp only [pageSize] at hroot
    omega
  have h24 : sizeofDirectory + sizeofEntry = 24 := rfl
  have h20 : sizeofDirectory + 4 = 20 := rfl
  simp only [dataEntry, Nat.add_assoc _ sizeofDirectory, h24, h20]
  by_cases hwrap : root + lang + 24 < b.ptrLimit
  · by_cases hpast : size < lang + 24
    · rw [if_pos ((wrap_lt_iff hroot' hwrap).mpr hpast)]
      simp only [Traced.all_pure, true_iff]
      exact ⟨hwrap, by omega⟩
    · have haddr (n : ℕ) (hn : n ≤ 24) : b.wrap (b.wrap (root + lang) + n) = root + lang + n := by
        rw [wrap_wrap_add, Build.wrap_of_lt (by omega)]
      have hread (n k : ℕ) (hk : 0 < k) (h : n + k ≤ 24) :
          Access.Ok S ⟨root, size⟩ (.directory ⟨root + lang + n, k⟩) := by
        intro a ha
        simp only [Region.mem_iff] at ha ⊢
        omega
      rw [if_neg (fun h => hpast ((wrap_lt_iff hroot' hwrap).mp h)), haddr 12 (by decide),
        haddr 14 (by decide), haddr 20 (by decide)]
      simp only [Traced.all_bind, directoryU16, Traced.all_mk, hread 12 2, hread 14 2, Nat.reduceLT,
        Nat.reduceAdd, Nat.reduceLeDiff, true_and]
      rw [Traced.all_ite]
      simp only [Traced.all_pure, implies_true, true_and, Traced.all_bind]
      constructor
      · intro h
        refine ⟨hwrap, fun _ hcount hoffset => ?_⟩
        obtain ⟨-, hdata⟩ := h hcount
        rw [if_neg (by simpa [directoryU32] using hoffset)] at hdata
        apply (all_readDataEntry hroot hoffset).mp hdata
      · intro h hcount
        refine ⟨?_, ?_⟩
        · rw [directoryU32, Traced.all_mk]
          apply hread <;> decide
        · rw [Traced.all_ite]
          refine ⟨fun _ => Traced.all_pure _, fun hoffset => ?_⟩
          have hoffset : m.readLE (root + lang + 20) 4 < 2 ^ 31 := Nat.lt_of_not_le hoffset
          apply (all_readDataEntry hroot hoffset).mpr
          apply h.entry (by omega) hcount hoffset
  · rw [if_neg (not_wrap_lt hroot' (by omega) (Nat.le_of_not_lt hwrap))]
    constructor
    · intro h
      simp only [Traced.all_bind, wrap_wrap_add, Nat.add_assoc root lang] at h
      have hheader := (all_directoryU16 hroot' (by omega)).mp h.1
      simp only [pageSize] at hroot
      omega
    · intro h
      apply absurd h.directory hwrap

/-! ### Lookups -/

theorem all_findData (hroot : root + size + pageSize ≤ b.ptrLimit) (type name : ℕ) :
  (findData b m root size type name).All (Access.Ok (InQueries m type name) ⟨root, size⟩)
    ↔ WalkFits b m root size type name
  := by
  have hroot' : root + size < b.ptrLimit := by
    simp only [pageSize] at hroot
    omega
  have hS := @upToNul_inQueries m type name
  have hstart : b.wrap (root + 0) = root := Build.wrap_of_lt (by omega)
  have htypes := @all_subdirectory b m root size _ 0 (typeQuery b m type).value hroot' (by decide) hS
  rw [hstart] at htypes
  have hfits : WalkFits b m root size type name ↔ _ ∧ (∀ nameDir, _ → _) ∧
      ∀ nameDir, _ → ∀ langDir, _ → _ :=
    ⟨fun h => ⟨h.types, h.names, fun n hn l => h.languages n l hn⟩,
      fun h => ⟨h.1, h.2.1, fun n l hn => h.2.2 n hn l⟩⟩
  simp only [findData, Traced.all_bind, all_typeQuery, true_and, htypes, hfits]
  apply and_congr_right
  intro _
  cases hname : (subdirectory b m root size root (typeQuery b m type).value).value with
  | none => simp
  | some nameDir =>
    have hnames := @all_subdirectory b m root size _ nameDir name hroot' (subdirectory_lt hname) hS
    simp only [Traced.all_bind, hnames, some.injEq, forall_eq']
    apply and_congr_right
    intro _
    cases hlang : (subdirectory b m root size (b.wrap (root + nameDir)) name).value with
    | none => simp
    | some langDir => simp [all_dataEntry hroot (subdirectory_lt hlang)]

theorem getRoot_eq_some {l : Modules} {hModule base rva : ℕ} {nt : ImageNtHeaders}
    (h : getRoot l hModule = some (base, nt, rva, n)) :
  l.find hModule = some (base, nt) ∧ rva + n ≤ peSizeOfImage nt
  := by
  rw [getRoot] at h
  cases hfind : l.find hModule with
  | none =>
    rw [hfind] at h
    cases h
  | some p =>
    obtain ⟨base', nt'⟩ := p
    simp only [hfind] at h
    split at h
    · cases h
    split at h
    · cases h
    · rename_i hvalid
      cases h
      rw [Bool.not_eq_true', Bool.not_eq_false, peRvaRangeIsValid_iff] at hvalid
      exact ⟨rfl, hvalid⟩

theorem wineResourceFind_data {l : Modules} {mem : Bool} {hModule type name : ℕ}
    (h : (wineResourceFind b m l mem hModule type name).value = some (p, n)) :
  ∃ base nt, l.find hModule = some (base, nt) ∧ base ≤ p ∧ p + n ≤ base + peSizeOfImage nt
  := by
  rw [wineResourceFind] at h
  cases hroot : getRoot l hModule with
  | none =>
    rw [hroot] at h
    cases h
  | some q =>
    obtain ⟨base, nt, rva, size⟩ := q
    use base, nt, (getRoot_eq_some hroot).1
    simp only [hroot, Traced.value_bind] at h
    split at h
    · cases h
    split at h
    · cases h
    split at h
    · cases h
    · rename_i hvalid
      cases h
      rw [Bool.not_eq_true', Bool.not_eq_false, peRvaRangeIsValid_iff] at hvalid
      omega

/-- A lookup in a mapped module is safe exactly when everything it looks at is in the resource data. -/
theorem lookup_safe_iff
    (m : Bytes) {l : Modules} (mem : Bool) {hModule : ℕ} (hmapped : Mapped b l hModule)
    (type name : ℕ) :
  LookupSafe b m l mem hModule type name ↔ LookupFits b m l hModule type name
  := by
  have hreads : (wineResourceFind b m l mem hModule type name).All
        (Access.Ok (InQueries m type name) (rootRegion l hModule))
      ↔ LookupFits b m l hModule type name := by
    rw [LookupFits, wineResourceFind, rootRegion]
    cases hroot : getRoot l hModule with
    | none =>
      simp [all_typeQuery]
    | some q =>
      obtain ⟨base, nt, rva, size⟩ := q
      obtain ⟨hfind, hsize⟩ := getRoot_eq_some hroot
      have hlimit : base + rva + size + pageSize ≤ b.ptrLimit := by
        have := hmapped base nt hfind
        omega
      -- after the walk, only the image's headers are looked at
      simp only [Traced.all_bind, all_findData hlimit]
      constructor
      · rintro ⟨h, -⟩ _ _ _ _ heq
        cases heq
        apply h
      · intro h
        use h base nt rva size rfl
        split
        · apply Traced.all_pure
        · rw [Traced.all_ite, Traced.all_ite]
          exact ⟨fun _ => Traced.all_pure _, fun _ => ⟨fun _ => Traced.all_pure _,
            fun _ => Traced.all_pure _⟩⟩
  constructor
  · intro h
    apply hreads.mp h.reads
  · intro h
    exact ⟨hreads.mpr h, fun p n => wineResourceFind_data⟩

/-! ### A module with one resource -/

/-- The headers of an image of `0x2000` bytes with resource data of the given size at `0x1000`. -/
def sampleNt (size : ℕ) : ImageNtHeaders where
  peType := .pe64
  fileHeader := ⟨0, 0, 0, 0, 0, 0, 0⟩
  optionalHeader :=
    { addressOfEntryPoint := 0
      imageBase := 0
      sizeOfImage := 0x2000
      sizeOfHeaders := 0
      sizeOfStackReserve := 0
      sizeOfStackCommit := 0
      numberOfRvaAndSizes := 16
      dataDirectory := fun i =>
        if i = directoryEntryResource then ⟨0x1000, UInt32.ofNat size⟩ else ⟨0, 0⟩ }

def sampleModules (size : ℕ) : Modules := ⟨0x400000, some (sampleNt size), fun _ => none⟩

/-- A dialog with the name 1 and one language, whose data has four bytes.  The type has the id 5 or the
name `x`, and the string `#70000` stands at `0x20000`. -/
def sampleMem (typeName : ℕ) : Bytes :=
  (File.ofFields 0x402000 [
    (0x40100e, 2, 1), (0x401010, 4, typeName), (0x401014, 4, 0x80000018),
    (0x401026, 2, 1), (0x401028, 4, 1), (0x40102c, 4, 0x80000030),
    (0x40103e, 2, 1), (0x401040, 4, 0x409), (0x401044, 4, 0x48),
    (0x401048, 4, 0x1058), (0x40104c, 4, 4),
    (0x401060, 2, 1), (0x401062, 2, 0x78),
    (0x20000, 6, 0x303030303723)]).byte

theorem mapped_sample (size : ℕ) :
  Mapped .x64 (sampleModules size) 0
  := by
  intro base nt h
  cases h
  have hlimit : 0x400000 + 0x2000 + pageSize ≤ Build.x64.ptrLimit := by decide
  exact hlimit

theorem lookupFits_sample :
  LookupFits .x64 (sampleMem 5) (sampleModules 0x80) 0 5 1
  := by
  intro base nt rva size h
  cases h
  change WalkFits .x64 (sampleMem 5) (0x400000 + 0x1000) 0x80 5 1
  have hcount (off : ℕ) (hoff : off = 0 ∨ off = 0x18) :
      (entryCount .x64 (sampleMem 5) (Build.x64.wrap (0x400000 + 0x1000 + off))).value = 1 := by
    rcases hoff with rfl | rfl <;> decide
  have hfits (off query : ℕ) (hoff : off = 0 ∨ off = 0x18) (hquery : query < 2 ^ 16) :
      SearchFits .x64 (sampleMem 5) (0x400000 + 0x1000) 0x80 (InQueries (sampleMem 5) 5 1)
        off query := by
    have hzero (i : ℕ)
        (hi : Visits .x64 (sampleMem 5) (0x400000 + 0x1000) 0x80 off query i) : i = 0 := by
      have hlt := hi.1
      rw [hcount off hoff] at hlt
      omega
    constructor
    case string => omega
    case header => rcases hoff with rfl | rfl <;> decide
    all_goals
      intro i hi _
      rw [hzero i hi]
      rcases hoff with rfl | rfl <;> decide
  constructor
  case types => apply hfits 0 5 (Or.inl rfl) (by decide)
  case names =>
    intro nameDir hname
    have hvalue : (subdirectory .x64 (sampleMem 5) (0x400000 + 0x1000) 0x80 (0x400000 + 0x1000)
        (typeQuery .x64 (sampleMem 5) 5).value).value = some 0x18 := by decide
    obtain rfl : 0x18 = nameDir := by simpa using hvalue.symm.trans hname
    apply hfits 0x18 1 (Or.inr rfl) (by decide)
  case languages =>
    intro nameDir langDir hname hlang
    have hlt := subdirectory_lt hlang
    have hlimit : Build.x64.ptrLimit = 2 ^ 64 := by decide
    constructor
    · omega
    · omega

theorem lookup_safe_sample :
  Mapped .x64 (sampleModules 0x80) 0
    ∧ LookupSafe .x64 (sampleMem 5) (sampleModules 0x80) true 0 5 1
    ∧ (wineResourceFind .x64 (sampleMem 5) (sampleModules 0x80) true 0 5 1).value
        = some (0x401058, 4)
  := by
  refine ⟨mapped_sample 0x80, ?_, ?_⟩
  · apply (lookup_safe_iff (sampleMem 5) true (mapped_sample 0x80) 5 1).mpr
    exact lookupFits_sample
  · decide

/-- With resource data of 16 bytes, the lookup reads an entry past it.  With the type `#70000`, it reads
at the address 70000. -/
theorem lookup_not_safe :
  ¬ LookupSafe .x64 (sampleMem 5) (sampleModules 16) true 0 5 1
    ∧ ¬ LookupSafe .x64 (sampleMem 0x80000060) (sampleModules 0x80) true 0 0x20000 1
  := by
  constructor
  · intro h
    have hread : Access.directory ⟨0x401010, 4⟩
        ∈ (wineResourceFind .x64 (sampleMem 5) (sampleModules 16) true 0 5 1).trace := by
      decide
    have hok := h.reads _ hread
    have hin := hok 0x401010 (by decide)
    revert hin
    decide
  · intro h
    have hread : Access.query ⟨70000, 1⟩
        ∈ (wineResourceFind .x64 (sampleMem 0x80000060) (sampleModules 0x80) true 0 0x20000 1).trace := by
      decide
    have hok := h.reads _ hread
    rcases hok 70000 (by decide) with ⟨-, hle, -⟩ | ⟨hid, -⟩ <;> omega

end Resource
