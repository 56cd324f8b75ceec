import Mathlib.Data.Nat.Bitwise
import Mathlib.Logic.Function.Basic
import MyWine.Lib.CString

/-!
# The lines that are written for debugging

The formatters of `import_lookup.c`, `import_resolve.c` and `dispatcher.c` write a line into a buffer on
the stack, at an index that goes up with each byte.  A line stays in its buffer exactly if
`Message.Fits` holds (`top_le_size_iff`): long names overrun the buffers of the loader, and the line
for an unknown system call always overruns its own.
-/

namespace DebugLines

open List

/-- A buffer that is being filled: its bytes, the index of the next one, and one more than the last
index that was written. -/
structure Line where
  buf : ℕ → UInt8
  i : ℕ
  top : ℕ
  le : i ≤ top

namespace Line

/-- `buf[i++] = c` -/
def put (l : Line) (c : UInt8) : Line where
  buf := Function.update l.buf l.i c
  i := l.i + 1
  top := max l.top (l.i + 1)
  le := le_max_right ..

/-- `buf[i] = '\0'` -/
def terminate (l : Line) : Line where
  buf := Function.update l.buf l.i 0
  i := l.i
  top := max l.top (l.i + 1)
  le := l.le.trans (le_max_left ..)

def putAll (s : List UInt8) (l : Line) : Line := s.foldl put l

/-- The loop that copies a string while `i < limit`. -/
def append (limit : ℕ) : List UInt8 → Line → Line
  | [], l => l
  | c :: s, l => if l.i < limit then append limit s (l.put c) else l

variable (l : Line)

@[simp]
theorem putAll_i_top (s : List UInt8) :
  (l.putAll s).i = l.i + s.length ∧ (l.putAll s).top = max l.top (l.i + s.length)
  := by
  induction s generalizing l with
  | nil => simp [putAll, l.le]
  | cons c s ih =>
    obtain ⟨hi, htop⟩ := ih (l.put c)
    rw [putAll, foldl_cons, ← putAll, hi, htop]
    simp only [put, length_cons]
    omega

@[simp]
theorem append_i_top (limit : ℕ) (s : List UInt8) :
  (l.append limit s).i = max l.i (min limit (l.i + s.length)) ∧
    (l.append limit s).top = max l.top (l.append limit s).i
  := by
  induction s generalizing l with
  | nil =>
    have := l.le
    simp only [append, length_nil]
    omega
  | cons c s ih =>
    have hle := l.le
    obtain ⟨hi, htop⟩ := ih (l.put c)
    rw [append, length_cons]
    split_ifs with h
    · rw [htop, hi]
      simp only [put]
      omega
    · omega

end Line

def text (s : String) : List UInt8 := s.toList.map fun c => UInt8.ofNat c.toNat

def hexDigits (table : String) (nibbles val : ℕ) : List UInt8 :=
  (range nibbles).map fun i => (text table).getD (val >>> ((nibbles - 1 - i) * 4) % 16) 0

/-- `syscall_safe_format_hex` with 8 nibbles, after which the callers add 8 to the index. -/
def safeFormatHex (val : ℕ) (l : Line) : Line := l.putAll (hexDigits "0123456789abcdef" 8 val)

/-- `format_hex`, after which the callers add 16 to the index. -/
def formatHex (bufSize val : ℕ) (l : Line) : Line :=
  if bufSize < 17 then l else (l.putAll (hexDigits "0123456789abcdef" 16 val)).terminate

/-- Four decimal digits, the lowest first; the tests `v >= 0` leave out those of a negative number. -/
def decimal (v : ℤ) : List UInt8 :=
  if v < 0 then [] else (range 4).map fun k => UInt8.ofNat (48 + v.toNat / 10 ^ k % 10)

theorem length_decimal (v : ℤ) :
  (decimal v).length = if v < 0 then 0 else 4
  := by
  rw [decimal]
  split_ifs <;> simp

inductive Message where
  | resolvedImport (dllName funcName : CString) (addr : ℕ)
  | iatWrite (idx : ℕ) (dllName : CString) (ilt iat : ℕ)
  | iatWritten (is32 : Bool) (addr readback : ℕ) (offset : ℤ)
  | traceSyscall (nr : ℕ)
  | invalidRsp (rsp : ℕ)
  | rspCheck (rsp : ℕ)
  | guestPtr (ptr : ℕ) (name : CString)
  | unhandledSyscall (nr : ℕ)

namespace Message

/-- The size of the buffer that the caller passes. -/
def size : Message → ℕ
  | resolvedImport .. | iatWrite .. | iatWritten .. => 256
  | traceSyscall _ => 48
  | invalidRsp _ | rspCheck _ | guestPtr .. => 64
  | unhandledSyscall _ => 39

/-- The line for a message at a debug level, in a buffer `l` of which nothing is filled. -/
def format (level : ℕ) (l : Line) : Message → Line
  | resolvedImport dllName funcName addr =>
    if level < 2 then l
    else
      let l := (l.append 250 (text "resolve_import: ")).append 250 dllName.bytes
      let l := (l.append 250 (text "!")).append 250 funcName.bytes
      let l := l.append 250 (text " -> ")
      let l := if addr = 0 then l.append 255 (text "(null)")
        else safeFormatHex addr (l.append 250 (text "0x"))
      l.append 255 (text "\n")
  | iatWrite idx dllName ilt iat =>
    if level < 3 then l
    else
      let l := (l.append 240 (text "IAT write: idx=")).putAll (decimal idx)
      let l := (l.append 240 (text ", dll=")).append 245 dllName.bytes
      let l := safeFormatHex ilt (l.append 245 (text ", ILT=0x"))
      let l := safeFormatHex iat (l.append 245 (text ", IAT=0x"))
      l.putAll (text "\n")
  | iatWritten is32 addr readback offset =>
    if level < 3 then l
    else
      let l := safeFormatHex addr (l.append 245 (text "  IAT written=0x"))
      let l := safeFormatHex readback (l.append 245 (text ", readback=0x"))
      let l := if is32 then (l.append 245 (text ", offset=")).putAll (decimal offset) else l
      l.putAll (text "\n")
  | traceSyscall nr =>
    if level < 2 then l
    else ((formatHex 29 nr (l.putAll (text "TRACE: syscall 0x"))).putAll (text "\n")).terminate
  | invalidRsp rsp =>
    ((formatHex 38 rsp (l.putAll (text "dispatcher: invalid RSP 0x"))).putAll
      (text " in read_guest_stack\n")).terminate
  | rspCheck rsp =>
    ((formatHex 46 rsp (l.putAll (text "dispatcher: RSP 0x"))).putAll
      (text " failed guest-ptr check\n")).terminate
  | guestPtr ptr name =>
    let l := (l.putAll (text "dispatcher: invalid guest ptr 0x")).putAll
      (hexDigits "0123456789ABCDEF" 8 ptr)
    ((l.putAll (text " at ")).append (64 - 2) name.bytes |>.putAll (text "\n")).terminate
  | unhandledSyscall nr =>
    ((formatHex 19 nr (l.putAll (text "my_wine: unhandled syscall 0x"))).putAll
      (text "\n")).terminate

def Fits (level : ℕ) : Message → Prop
  | resolvedImport dllName funcName addr =>
    level < 2 ∨ addr = 0 ∨ dllName.length + funcName.length ≤ 225
  | iatWrite _ dllName _ _ => level < 3 ∨ dllName.length ≤ 206
  | unhandledSyscall _ => False
  | _ => True

/-- The bytes that are written lie in the buffer exactly if the message fits. -/
theorem top_le_size_iff (level : ℕ) (buf : ℕ → UInt8) (m : Message) :
  (m.format level ⟨buf, 0, 0, le_rfl⟩).top ≤ m.size ↔ m.Fits level
  := by
  cases m with
  | resolvedImport dllName funcName addr =>
    simp only [format, size, Fits, CString.length]
    split_ifs with hlevel haddr
    · simp [hlevel]
    · simp [haddr, text]
    · simp [hlevel, haddr, text, safeFormatHex, hexDigits]
      omega
  | iatWrite idx dllName ilt iat =>
    simp only [format, size, Fits, CString.length]
    split_ifs with hlevel
    · simp [hlevel]
    · have hdigits : (decimal idx).length = 4 := by simp [length_decimal]
      simp [hlevel, text, safeFormatHex, hexDigits, hdigits]
      omega
  | iatWritten is32 addr readback offset =>
    simp only [format, size, Fits, iff_true]
    split_ifs
    · simp
    · have hdigits : (decimal offset).length ≤ 4 := by grind [length_decimal]
      simp [text, safeFormatHex, hexDigits]
      omega
    · simp [text, safeFormatHex, hexDigits]
  | guestPtr ptr name =>
    have hname : min 62 (44 + name.bytes.length) + 1 < 64 := by omega
    simp [format, size, Fits, text, hexDigits, Line.terminate, hname]
  | traceSyscall nr =>
    simp only [format, size, Fits, iff_true]
    split_ifs
    · simp
    · simp [text, formatHex, hexDigits, Line.terminate]
  | invalidRsp rsp => simp [format, size, Fits, text, formatHex, hexDigits, Line.terminate]
  | rspCheck rsp => simp [format, size, Fits, text, formatHex, hexDigits, Line.terminate]
  | unhandledSyscall nr => simp [format, size, Fits, text, formatHex, hexDigits, Line.terminate]

theorem unhandledSyscall_overruns :
  let m := unhandledSyscall 0x1234
  m.size = 39 ∧ (m.format 0 ⟨fun _ => 0, 0, 0, le_rfl⟩).top = 47
  := by
  decide +kernel

end Message

end DebugLines
