import MyWine.Lib.Bytes

/-!
# A fragment of x86

The instructions that push and pop registers, load constants, call through a register and return,
with their encoding in 64-bit and 32-bit mode (`decode`), and the instructions that move
registers to and from named variables of a program.  A state has the general registers, the
flags, the instruction pointer, the memory and the variables; an operation on addresses wraps
around at the word size of the mode.  `runToCall` executes encoded code up to the first call.
-/

namespace X86

/-- The modes of the processor. -/
inductive Mode where
  | long
  | legacy
  deriving DecidableEq

/-- The number of bytes of a register. -/
def Mode.wordSize : Mode → ℕ
  | long => 8
  | legacy => 4

/-- The number of values of a register. -/
def Mode.limit (m : Mode) : ℕ := 256 ^ m.wordSize

/-- The general registers, in the order of their encoding. -/
inductive Reg where
  | ax | cx | dx | bx | sp | bp | si | di
  | r8 | r9 | r10 | r11 | r12 | r13 | r14 | r15
  deriving DecidableEq

/-- The register encoded by `n`. -/
def Reg.ofCode (n : ℕ) : Reg :=
  [.ax, .cx, .dx, .bx, .sp, .bp, .si, .di, .r8, .r9, .r10, .r11, .r12, .r13, .r14].getD n .r15

/-- A state of the machine.  The variables of the program are named by `κ`. -/
structure State (κ : Type*) where
  regs : Reg → ℕ
  flags : ℕ
  ip : ℕ
  mem : Bytes
  var : κ → ℕ

/-- The instructions. -/
inductive Instr (κ : Type*) where
  | push (r : Reg)
  | pop (r : Reg)
  | movImm (r : Reg) (v : ℕ)
  | call (r : Reg)
  | ret
  | pushf
  | popf
  | store (c : κ) (r : Reg)
  | load (r : Reg) (c : κ)
  | loadStack (r : Reg) (offset : ℕ)

variable {κ : Type*} [DecidableEq κ] (m : Mode)

namespace State

/-- The state with `v` in the register `r`. -/
def setReg (s : State κ) (r : Reg) (v : ℕ) : State κ :=
  { s with regs := Function.update s.regs r v }

/-- The state after pushing the word `v`. -/
def pushWord (s : State κ) (v : ℕ) : State κ :=
  let sp := (s.regs .sp + m.limit - m.wordSize) % m.limit
  { s with regs := Function.update s.regs .sp sp, mem := s.mem.writeLE sp m.wordSize v }

/-- A stack pointer with room for `n` bytes below does not wrap around. -/
theorem wrapped_sub {sp n limit : ℕ} (hn : n ≤ sp) (hlt : sp < limit) :
  (sp + limit - n) % limit = sp - n
  := by
  rw [Nat.sub_add_comm hn, Nat.add_mod_right, Nat.mod_eq_of_lt (by omega)]

/-- The word on top of the stack. -/
def topWord (s : State κ) : ℕ := s.mem.readLE (s.regs .sp) m.wordSize

/-- The state after dropping the word on top of the stack. -/
def dropWord (s : State κ) : State κ :=
  s.setReg .sp ((s.regs .sp + m.wordSize) % m.limit)

end State

/-- The state after an instruction. -/
def exec (s : State κ) : Instr κ → State κ
  | .push r => s.pushWord m (s.regs r)
  | .pop r => (s.dropWord m).setReg r (s.topWord m)
  | .movImm r v => s.setReg r v
  | .call r => { s.pushWord m s.ip with ip := s.regs r }
  | .ret => { s.dropWord m with ip := s.topWord m }
  | .pushf => s.pushWord m s.flags
  | .popf => { s.dropWord m with flags := s.topWord m }
  | .store c r => { s with var := Function.update s.var c (s.regs r) }
  | .load r c => s.setReg r (s.var c)
  | .loadStack r offset =>
    s.setReg r (s.mem.readLE ((s.regs .sp + offset) % m.limit) m.wordSize)

/-- The state after a list of instructions. -/
def execAll (s : State κ) (is : List (Instr κ)) : State κ := is.foldl (exec m) s

/-- The number stored little-endian in a list of bytes. -/
def ofLE : List UInt8 → ℕ
  | [] => 0
  | b :: bs => b.toNat + 256 * ofLE bs

/-- The low `n` bytes of a number, little-endian. -/
def toLE : ℕ → ℕ → List UInt8
  | 0, _ => []
  | n + 1, v => UInt8.ofNat v :: toLE n (v / 256)

@[simp]
theorem length_toLE (n v : ℕ) :
  (toLE n v).length = n
  := by
  induction n generalizing v with
  | zero => rfl
  | succ n ih => simp [toLE, ih]

theorem ofLE_toLE (n v : ℕ) :
  ofLE (toLE n v) = v % 256 ^ n
  := by
  induction n generalizing v with
  | zero => simp [toLE, ofLE, Nat.mod_one]
  | succ n ih => simp [toLE, ofLE, ih, pow_succ', Nat.mod_mul]

/-- The constant of `n` bytes at the beginning of the code, and the code after it. -/
def takeLE (n : ℕ) (code : List UInt8) : Option (ℕ × List UInt8) :=
  if n ≤ code.length then some (ofLE (code.take n), code.drop n) else none

@[simp]
theorem takeLE_toLE_append (n v : ℕ) (rest : List UInt8) :
  takeLE n (toLE n v ++ rest) = some (v % 256 ^ n, rest)
  := by
  simp [takeLE, ofLE_toLE]

/-- The instruction at the beginning of the code after the prefix, and the code after it.  With
the bit `w` of the prefix the operands have 64 bits, and with the bit `b` the registers are those
from `r8` on. -/
def decodeOp (w b : Bool) : List UInt8 → Option (Instr κ × List UInt8)
  | [] => none
  | op :: code =>
    let reg (base : UInt8) : Reg := .ofCode (op.toNat - base.toNat + if b then 8 else 0)
    if 0x50 ≤ op ∧ op < 0x58 then some (.push (reg 0x50), code)
    else if 0x58 ≤ op ∧ op < 0x60 then some (.pop (reg 0x58), code)
    else if 0xB8 ≤ op ∧ op < 0xC0 then
      match takeLE (if w then 8 else 4) code with
      | some (v, rest) => some (.movImm (reg 0xB8) v, rest)
      | none => none
    else if op = 0xC7 then
      match code with
      | [] => none
      | modrm :: code =>
        match takeLE 4 code with
        | some (v, rest) =>
          -- The constant is sign-extended; only constants without sign are covered.
          if w ∧ !b ∧ 0xC0 ≤ modrm ∧ modrm < 0xC8 ∧ v < 2 ^ 31 then
            some (.movImm (.ofCode (modrm.toNat - 0xC0)) v, rest)
          else none
        | none => none
    else if op = 0xFF then
      match code with
      | [] => none
      | modrm :: code =>
        if !b ∧ 0xD0 ≤ modrm ∧ modrm < 0xD8 then
          some (.call (.ofCode (modrm.toNat - 0xD0)), code)
        else none
    else if op = 0xC3 then some (.ret, code)
    else none

/-- The instruction at the beginning of the code, and the code after it.  In 64-bit mode the bytes
from `40` to `4F` are prefixes. -/
def decode (m : Mode) : List UInt8 → Option (Instr κ × List UInt8)
  | [] => none
  | byte :: code =>
    if m = .long ∧ 0x40 ≤ byte ∧ byte < 0x50 then
      decodeOp (byte.toNat.testBit 3) (byte.toNat.testBit 0) code
    else decodeOp false false (byte :: code)

/-- The state after the code is executed up to and including its first call, or `none` if an
instruction cannot be decoded before a call. -/
def runToCall : ℕ → List UInt8 → State κ → Option (State κ)
  | 0, _, _ => none
  | fuel + 1, code, s =>
    match decode m code with
    | none => none
    | some (i, rest) =>
      let s := { s with ip := s.ip + (code.length - rest.length) }
      match i with
      | .call r => some (exec m s (.call r))
      | i => runToCall fuel rest (exec m s i)

section runToCall

variable {m} {fuel : ℕ} {code rest : List UInt8} {s : State κ}

theorem runToCall_call {r : Reg} (h : decode m code = some ((.call r : Instr κ), rest)) :
  runToCall m (fuel + 1) code s =
    some (exec m { s with ip := s.ip + (code.length - rest.length) } (.call r))
  := by
  simp only [runToCall, h]

theorem runToCall_of_ne_call {i : Instr κ} (h : decode m code = some (i, rest))
    (hi : ∀ r, i ≠ .call r) :
  runToCall m (fuel + 1) code s =
    runToCall m fuel rest (exec m { s with ip := s.ip + (code.length - rest.length) } i)
  := by
  simp only [runToCall, h]

end runToCall

end X86
