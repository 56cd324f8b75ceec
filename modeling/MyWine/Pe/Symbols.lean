import MyWine.Lib.CString
import MyWine.Pe.Headers

/-!
# The COFF symbol table

`pe_symbols.c` copies the symbol table and the string table of a file into a buffer and looks names
up in it.  The number of symbols is that of the headers, so that on a 32-bit build, where the size
of the table may wrap around, symbols may lie outside the buffer; so may the strings, whose offsets
are not checked.  The memory behind the buffer is a parameter.
-/

namespace Pe

def sizeofSymbol : ℕ := 18

/-- The symbols that `parse_symbol_table_from_file` returns: the buffer, the number of symbols, and
the offset of the strings in the buffer if there are any.  `stringSize` is how much of the string
table is in the buffer, from its length on. -/
structure SymbolTable where
  buf : Bytes
  count : ℕ
  stringTable : Option ℕ
  stringSize : ℕ := 0

/-- `parse_symbol_table_from_file`, where a result that is not positive is `none`.  `file` is the
file if it can be opened and mapped, and `heap` the memory that `malloc` returns. -/
def parseSymbolTableFromFile (b : Build) (file : Option File) (heap : Option Bytes)
    (nt : ImageNtHeaders) : Option SymbolTable :=
  let ptr := pePointerToSymbolTable nt
  let count := peNumberOfSymbols nt
  if ptr = 0 ∨ count = 0 then none
  else
    let symTableSize := b.wrap (count * sizeofSymbol)
    match file with
    | none => none
    | some f =>
      let strOff := b.wrap (ptr + symTableSize)
      if f.size < strOff then none
      else
        let strDataSize :=
          if b.wrap (strOff + 4) ≤ f.size then
            min (f.byte.u32 strOff).toNat (b.wrap (f.size + b.ptrLimit - strOff - 4))
          else 0
        match heap with
        | none => none
        | some heap =>
          let buf : Bytes := fun x =>
            if x < symTableSize then f.byte (ptr + x)
            else if x < symTableSize + 4 + strDataSize ∧ 0 < strDataSize then
              f.byte (strOff + (x - symTableSize))
            else if x < symTableSize + 4 then 0
            else heap x
          if 2 ^ 31 ≤ count then none
          else some ⟨buf, count, if 0 < strDataSize then some (symTableSize + 4) else none,
            min (f.byte.u32 strOff).toNat (strDataSize + 4)⟩

namespace SymbolTable

variable (t : SymbolTable)

def symbolNamed (i : ℕ) (name : CString) : Bool :=
  let sym := sizeofSymbol * i
  if t.buf sym ≠ 0 then t.buf.cstr sym 8 = name
  else
    match t.stringTable with
    | none => false
    | some strings =>
      t.buf.cstr (strings + (t.buf.u32 (sym + 4)).toNat) (name.length + 1) = name

/-- The RVA of the symbol `i`: in its section, or its value if it is absolute.  A symbol of no
section has none. -/
def symbolRva (table : List ImageSectionHeader) (i : ℕ) : Option ℕ :=
  let sym := sizeofSymbol * i
  let value := t.buf.u32 (sym + 8)
  let secNum := (t.buf.u16 (sym + 12)).toNat
  if 0 < secNum ∧ secNum < 2 ^ 15 ∧ secNum ≤ table.length then
    table[secNum - 1]?.map fun s => (s.virtualAddress + value).toNat
  else if secNum = 0 then some value.toNat
  else none

/-- The loop of `lookup_symbol_rva` from the symbol `i` on, which skips auxiliary symbols. -/
def lookupFrom (table : List ImageSectionHeader) (name : CString) : ℕ → ℕ → ℕ
  | 0, _ => 0
  | fuel + 1, i =>
    if t.count ≤ i then 0
    else
      match if t.symbolNamed i name then t.symbolRva table i else none with
      | some rva => rva
      | none => lookupFrom table name fuel (i + (t.buf (sizeofSymbol * i + 17)).toNat + 1)

def lookupSymbolRva (table : List ImageSectionHeader) (name : CString) : ℕ :=
  if name.length = 0 then 0 else t.lookupFrom table name t.count 0

variable {t}

theorem symbolRva_lt {table : List ImageSectionHeader} {i rva : ℕ}
    (h : t.symbolRva table i = some rva) :
  rva < 2 ^ 32
  := by
  simp only [symbolRva] at h
  split_ifs at h
  · obtain ⟨s, -, rfl⟩ := Option.map_eq_some_iff.mp h
    apply UInt32.toNat_lt
  · cases h
    apply UInt32.toNat_lt

theorem lookupSymbolRva_lt (table : List ImageSectionHeader) (name : CString) :
  t.lookupSymbolRva table name < 2 ^ 32
  := by
  have hloop (fuel i : ℕ) : t.lookupFrom table name fuel i < 2 ^ 32 := by
    induction fuel generalizing i with
    | zero => simp [lookupFrom]
    | succ fuel ih =>
      rw [lookupFrom]
      split_ifs with hcount hnamed
      · decide
      · cases hrva : t.symbolRva table i with
        | none => apply ih
        | some rva => apply symbolRva_lt hrva
      · apply ih
  rw [lookupSymbolRva]
  split_ifs
  · decide
  · apply hloop

end SymbolTable

end Pe
