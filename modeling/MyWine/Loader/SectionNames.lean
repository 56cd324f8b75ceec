import MyWine.Lib.Trace
import MyWine.Loader.Protections
import MyWine.Loader.RelocationWalk

/-!
# Names of sections

The name of a section has eight bytes and ends with them or with a `NUL`.  `find_section_by_name` of
`pe_headers.c` asks for a `NUL` in any case, and takes the ninth byte of the header for it when the
name has eight characters.  It finds the sections with shorter names, and a longer one only if there is
none (`sectionLookup_iff`).
-/

open Pe SyscallSafe

namespace Loader

open List Option

/-- The comparison of the name in the header at `off` with a name, from its byte `j` on, with the
indices of the bytes that are read. -/
def compareName (m : Bytes) (off : ℕ) : ℕ → List UInt8 → Traced ℕ Bool
  | j, [] => ⟨m (off + j) = 0, [j]⟩
  | j, c :: name => do
    let x ← ⟨m (off + j), [j]⟩
    if asciiLower x = asciiLower c then compareName m off (j + 1) name else pure false

def FieldNamed (m : Bytes) (off : ℕ) (name : CString) : Prop := strcasecmp (m.cstr off 8) name = 0

instance (m : Bytes) (off : ℕ) (name : CString) : Decidable (FieldNamed m off name) :=
  inferInstanceAs (Decidable (_ = _))

section

variable (nt : ImageNtHeaders) (img : Bytes) (table : ℕ) (name : CString)

def sectionOffsets : List ℕ := (List.range (peSectionCount nt)).map fun i => table + sizeofSectionHeader * i

/-- What is expected of the two lookups: the first section with the name is found, its name and those
before it are not read past their eight bytes, and the code section is the first one with one of the
names in their order, or else the first that is flagged as code and executable. -/
structure SectionLookup : Prop where
  found : findSectionByName nt img table name =
    ((sectionOffsets nt table).find? fun off => FieldNamed img off name).map (readSectionHeader img)
  reads : (Traced.first (fun i => compareName img (table + sizeofSectionHeader * i) 0 name.bytes) 0
    (peSectionCount nt)).All (· < 8)
  code : findCodeSection nt img table =
    (codeNames.findSome? (findSectionByName nt img table)).or
      (((sectionOffsets nt table).map (readSectionHeader img)).find? fun s =>
        s.characteristics &&& scnCntCode ≠ 0 && s.characteristics &&& scnMemExecute ≠ 0)

end

section

variable {nt : ImageNtHeaders} {img m : Bytes} {table off j n : ℕ} {name : CString} {l : List UInt8}

theorem sectionNamed_eq (m : Bytes) (off : ℕ) (name : CString) :
  sectionNamed m off name = (compareName m off 0 name.bytes).value
  := by
  have hfrom (l : List UInt8) (j : ℕ) : (compareName m off j l).value =
      (decide (((List.range l.length).map fun i => asciiLower (m (off + j + i))) = l.map asciiLower) &&
        decide (m (off + j + l.length) = 0)) := by
    induction l generalizing j with
    | nil => simp [compareName]
    | cons c l ih =>
      rw [compareName, Traced.value_bind, List.length_cons, List.range_succ_eq_map]
      simp only [map_cons, List.map_map, cons.injEq, Bool.decide_and, Nat.add_zero]
      by_cases hc : asciiLower (m (off + j)) = asciiLower c
      · rw [if_pos hc, ih]
        simp [hc, Function.comp_def, add_assoc, add_comm 1]
      · simp [hc]
  rw [hfrom]
  rfl

/-- A name of at most `n` bytes is compared with the first `n` bytes of the field, and with one more if
they all agree. -/
theorem compareName_spec (m : Bytes) (off j : ℕ) (hl : 0 ∉ l) (hlength : l.length ≤ n) :
  ((compareName m off j l).value = true ↔
      (m.cstrBytes (off + j) n).map asciiLower = l.map asciiLower ∧
        (l.length = n → m (off + j + n) = 0)) ∧
    ((compareName m off j l).All (· < j + n) ↔
      (l.length = n → (m.cstrBytes (off + j) n).map asciiLower ≠ l.map asciiLower))
  := by
  induction l generalizing j n with
  | nil =>
    cases n with
    | zero => simp [compareName, Bytes.cstrBytes]
    | succ n => simp [compareName, Bytes.cstrBytes]
  | cons c l ih =>
    cases n with
    | zero => cases hlength
    | succ n =>
      rw [mem_cons, not_or] at hl
      obtain ⟨hvalue, hall⟩ := ih (j + 1) hl.2 (Nat.le_of_succ_le_succ hlength)
      rw [compareName, Traced.value_bind, Traced.all_bind, Traced.all_mk,
        show j + (n + 1) = j + 1 + n by omega, show off + j + (n + 1) = off + (j + 1) + n by omega,
        Bytes.cstrBytes, show off + j + 1 = off + (j + 1) by omega]
      by_cases hc : asciiLower (m (off + j)) = asciiLower c
      · have hne : m (off + j) ≠ 0 := by
          intro hzero
          rw [hzero] at hc
          exact hl.1 (asciiLower_eq_zero hc.symm).symm
        have hlt : j < j + 1 + n := by omega
        rw [if_pos hc, if_neg hne, hvalue, hall]
        simp [hc, hlt]
      · have hfield : (if m (off + j) = 0 then [] else m (off + j) :: m.cstrBytes (off + (j + 1)) n).map
            asciiLower ≠ (c :: l).map asciiLower := by
          split
          · apply (cons_ne_nil _ _).symm
          · simp [hc]
        rw [if_neg hc]
        simp only [Traced.value_pure, Bool.false_eq_true, hfield, false_and, Traced.all_pure, and_true,
          ne_eq, not_false_eq_true, implies_true, iff_true, true_and]
        omega

theorem compareName_field (img : Bytes) (off : ℕ) (hname : name.length ≤ 8) :
  ((compareName img off 0 name.bytes).value = true ↔
      FieldNamed img off name ∧ (name.length = 8 → img (off + 8) = 0)) ∧
    ((compareName img off 0 name.bytes).All (· < 8) ↔
      (name.length = 8 → ¬ FieldNamed img off name))
  := by
  rw [FieldNamed, strcasecmp_eq_zero_iff]
  have hspec := compareName_spec img off 0 name.zero_notMem hname
  simpa [Bytes.cstr, CString.length] using hspec

theorem findCodeSection_eq (nt : ImageNtHeaders) (img : Bytes) (table : ℕ) :
  findCodeSection nt img table =
    (codeNames.findSome? (findSectionByName nt img table)).or
      (((sectionOffsets nt table).map (readSectionHeader img)).find? fun s =>
        s.characteristics &&& scnCntCode ≠ 0 && s.characteristics &&& scnMemExecute ≠ 0)
  := by
  have hname : codeNames.findSome? (findSectionByName nt img table) = (codeNames.findSome? fun name =>
      (sectionOffsets nt table).find? fun off => sectionNamed img off name).map (readSectionHeader img) := by
    rw [List.map_findSome?]
    rfl
  rw [hname, List.find?_map, ← Option.map_or]
  rfl

/-- The lookups are right if and only if no section has a name of eight characters that is looked up. -/
theorem sectionLookup_iff (nt : ImageNtHeaders) (img : Bytes) (table : ℕ) (name : CString)
    (hname : name.length ≤ 8) :
  SectionLookup nt img table name ↔
    (name.length = 8 → ∀ off ∈ sectionOffsets nt table, ¬ FieldNamed img off name)
  := by
  have hspec (off : ℕ) := compareName_field img off hname
  constructor
  · rintro ⟨-, hreads, -⟩ h8 off hoff
    obtain ⟨i, hi, rfl⟩ := mem_map.mp hoff
    rw [mem_range] at hi
    rw [Traced.all_first] at hreads
    induction i using Nat.strong_induction_on with
    | h i ih =>
      apply ((hspec _).2.mp (hreads i (Nat.zero_le i) (by omega) _)) h8
      intro j _ hj
      apply Bool.eq_false_iff.mpr
      intro hvalue
      have hlt : j < peSectionCount nt := by omega
      exact ih j hj hlt (List.mem_map_of_mem (mem_range.mpr hlt)) ((hspec _).1.mp hvalue).1
  · intro hnone
    refine ⟨?_, ?_, findCodeSection_eq nt img table⟩
    · simp only [findSectionByName, if_neg (not_lt.mpr hname)]
      congr 1
      apply find?_congr
      intro off hoff
      rw [sectionNamed_eq, Bool.eq_iff_iff, (hspec off).1, decide_eq_true_eq]
      exact and_iff_left_of_imp fun hnamed h8 => absurd hnamed (hnone h8 off hoff)
    · rw [Traced.all_first]
      intro i _ hi _
      apply (hspec _).2.mpr
      intro h8
      apply hnone h8
      apply List.mem_map_of_mem
      rw [mem_range]
      omega

end

def oneSection : ImageNtHeaders :=
  { pageHeaders .pe32 ⟨0, 0⟩ with fileHeader := { (pageHeaders .pe32 ⟨0, 0⟩).fileHeader with
    numberOfSections := 1 } }

def textbss : Bytes := fun x => [46, 116, 101, 120, 116, 98, 115, 115, 16].getD x 0

theorem sectionLookup_text :
  SectionLookup oneSection textbss 0 (.ofString ".text")
  :=
  (sectionLookup_iff _ _ _ _ (by decide)).mpr (by decide)

/-- The section `.textbss` is not found under its name. -/
theorem textbss_not_found :
  findSectionByName oneSection textbss 0 (.ofString ".textbss") = none ∧
    0 ∈ sectionOffsets oneSection 0 ∧ FieldNamed textbss 0 (.ofString ".textbss")
  := by
  decide +kernel

end Loader
