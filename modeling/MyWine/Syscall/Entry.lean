import MyWine.Lib.X86
import MyWine.Syscall.Dispatcher

/-!
# Thunks and the entry of the dispatcher

A guest calls a system call through a thunk: code that `write_thunk_at` and `write_thunk_at_32`
write, and that pushes a register, loads the number of the system call and calls
`__wine_dispatcher`.  The entry of the dispatcher saves the registers of the guest, on `i386` after
it pushed the flags.  `enter` is the guest as the dispatcher then finds it.

The words above the stack pointer are those of `frameWord`, and the arguments of the guest's call
are those of `guestArg`.  `arguments_decoded_iff` says when the handler gets the arguments.
-/

open X86

namespace Syscall

open List

/-! ### Code -/

def Build.mode : Build → Mode
  | .x64 => .long
  | .i386 => .legacy

def writeThunkAt (nr addr : ℕ) : List UInt8 :=
  0x41 :: 0x57 :: 0x48 :: 0xC7 :: 0xC7 :: (toLE 4 nr ++
    0x48 :: 0xB8 :: (toLE 8 addr ++ [0xFF, 0xD0, 0x5F, 0xC3]))

def writeThunkAt32 (nr addr : ℕ) : List UInt8 :=
  0x55 :: 0xB8 :: (toLE 4 addr ++ 0xBA :: (toLE 4 nr ++ [0xFF, 0xD0, 0x5D, 0xC3]))

def thunk (b : Build) (nr addr : ℕ) : List UInt8 :=
  match b with
  | .x64 => writeThunkAt nr addr
  | .i386 => writeThunkAt32 nr addr

def wineDispatcher : Build → List (Instr GuestReg)
  | .x64 =>
    [.loadStack .ax 0, .store .retAddr .ax, .store .rsp .sp, .store .rcx .cx, .store .rdx .dx,
      .store .r8 .r8, .store .r9 .r9, .store .rsi .si, .store .rbx .bx, .store .r12 .r12,
      .store .r13 .r13, .store .r14 .r14, .store .r15 .r15]
  | .i386 =>
    [.store .edx .dx, .pushf, .store .esp .sp, .loadStack .dx 4, .store .eip .dx,
      .loadStack .dx 0, .store .eflags .dx, .load .dx .edx, .store .ecx .cx, .store .ebx .bx,
      .store .esi .si, .store .edi .di]

def numberReg : Build → Reg
  | .x64 => .di
  | .i386 => .dx

/-- The number and the guest that `c_dispatch_syscall` finds after the guest, in the state `s`, has
called the thunk of the system call `nr`. -/
def enter (b : Build) (nr addr : ℕ) (s : State GuestReg) : Option (ℕ × Guest) :=
  (runToCall (Build.mode b) (thunk b nr addr).length (thunk b nr addr) s).map fun s' =>
    let s'' := execAll (Build.mode b) s' (wineDispatcher b)
    (s''.regs (numberReg b), ⟨s''.var, s''.mem⟩)

/-! ### The frame -/

def frameSize : Build → ℕ
  | .x64 => 16
  | .i386 => 12

/-- The state of a guest that has called a thunk: its registers hold words, the thunk does not wrap
around, and the stack pointer is aligned, in user space and has room for the frame below. -/
structure GuestCall (b : Build) (s : State GuestReg) : Prop where
  regs : ∀ r, s.regs r < (Build.mode b).limit
  flags : s.flags < (Build.mode b).limit
  ip : s.ip + 23 ≤ (Build.mode b).limit
  aligned : s.regs .sp % b.ptrSize = 0
  room : frameSize b < s.regs .sp
  top : s.regs .sp ≤ maxGuestPtr b

/-- The `k`-th argument of the guest's call, counted from one: of the 64-bit convention, with four
registers and home words for them above the return address, and of the `i386` one, with all
arguments above the return address. -/
def guestArg (b : Build) (s : State GuestReg) (k : ℕ) : ℕ :=
  match b, k with
  | .x64, 1 => s.regs .cx
  | .x64, 2 => s.regs .dx
  | .x64, 3 => s.regs .r8
  | .x64, 4 => s.regs .r9
  | .x64, k => s.mem.readLE (s.regs .sp + 8 * k) 8
  | .i386, k => s.mem.readLE (s.regs .sp + 4 * k) 4

/-- The words from the dispatcher's stack pointer on: what the thunk and the entry pushed, and then
the stack of the guest, which begins with the return address of its call. -/
def frameWord (b : Build) (s : State GuestReg) (index : ℕ) : ℕ :=
  match b, index with
  | .x64, 0 => s.ip + 21
  | .x64, 1 => s.regs .r15
  | .x64, k + 2 => s.mem.readLE (s.regs .sp + 8 * k) 8
  | .i386, 0 => s.flags
  | .i386, 1 => s.ip + 13
  | .i386, 2 => s.regs .bp
  | .i386, k + 3 => s.mem.readLE (s.regs .sp + 4 * k) 4

def frameMem (b : Build) (s : State GuestReg) : Bytes :=
  let sp := s.regs .sp
  match b with
  | .x64 => (s.mem.writeLE (sp - 8) 8 (s.regs .r15)).writeLE (sp - 16) 8 (s.ip + 21)
  | .i386 =>
    ((s.mem.writeLE (sp - 4) 4 (s.regs .bp)).writeLE (sp - 8) 4 (s.ip + 13)).writeLE (sp - 12) 4
      s.flags

variable {nr addr : ℕ} {s : State GuestReg}

theorem decode_movRdi (hnr : nr < 2 ^ 16) (rest : List UInt8) :
  decode .long (0x48 :: 0xC7 :: 0xC7 :: (toLE 4 nr ++ rest)) =
    some ((.movImm .di nr : Instr GuestReg), rest)
  := by
  simp [decode, decodeOp, Reg.ofCode, show Nat.testBit 72 3 = true by decide]
  omega

theorem decode_movRax (haddr : addr < 2 ^ 64) (rest : List UInt8) :
  decode .long (0x48 :: 0xB8 :: (toLE 8 addr ++ rest)) =
    some ((.movImm .ax addr : Instr GuestReg), rest)
  := by
  simp [decode, decodeOp, Reg.ofCode, show Nat.testBit 72 3 = true by decide]
  omega

theorem decode_callAx (m : Mode) (rest : List UInt8) :
  decode m (0xFF :: 0xD0 :: rest) = some ((.call .ax : Instr GuestReg), rest)
  := by
  cases m <;> simp [decode, decodeOp, Reg.ofCode]

theorem runToCall_writeThunkAt (hnr : nr < 2 ^ 16) (haddr : addr < 2 ^ 64) :
  runToCall .long (writeThunkAt nr addr).length (writeThunkAt nr addr) s =
    some (exec .long { ((s.pushWord .long (s.regs .r15)).setReg .di nr).setReg .ax addr with
      ip := s.ip + 21 } (.call .ax))
  := by
  have hlength : (writeThunkAt nr addr).length = 19 + 1 + 1 + 1 + 1 := by simp [writeThunkAt]
  have hpush (rest : List UInt8) :
    decode .long (0x41 :: 0x57 :: rest) = some ((.push .r15 : Instr GuestReg), rest) := rfl
  rw [hlength, writeThunkAt, runToCall_of_ne_call (hpush _) nofun,
    runToCall_of_ne_call (decode_movRdi hnr _) nofun,
    runToCall_of_ne_call (decode_movRax haddr _) nofun, runToCall_call (decode_callAx _ _)]
  simp [exec, State.pushWord, State.setReg]

theorem decode_movLegacy {r : Reg} {op : UInt8} {v : ℕ} (hop : op = 0xB8 ∧ r = .ax ∨ op = 0xBA ∧ r = .dx)
    (hv : v < 2 ^ 32) (rest : List UInt8) :
  decode .legacy (op :: (toLE 4 v ++ rest)) = some ((.movImm r v : Instr GuestReg), rest)
  := by
  rcases hop with ⟨rfl, rfl⟩ | ⟨rfl, rfl⟩
  all_goals
    simp [decode, decodeOp, Reg.ofCode]
    omega

theorem runToCall_writeThunkAt32 (hnr : nr < 2 ^ 16) (haddr : addr < 2 ^ 32) :
  runToCall .legacy (writeThunkAt32 nr addr).length (writeThunkAt32 nr addr) s =
    some (exec .legacy { ((s.pushWord .legacy (s.regs .bp)).setReg .ax addr).setReg .dx nr with
      ip := s.ip + 13 } (.call .ax))
  := by
  have hlength : (writeThunkAt32 nr addr).length = 11 + 1 + 1 + 1 + 1 := by simp [writeThunkAt32]
  have hpush (rest : List UInt8) :
    decode .legacy (0x55 :: rest) = some ((.push .bp : Instr GuestReg), rest) := rfl
  rw [hlength, writeThunkAt32, runToCall_of_ne_call (hpush _) nofun,
    runToCall_of_ne_call (decode_movLegacy (Or.inl ⟨rfl, rfl⟩) haddr _) nofun,
    runToCall_of_ne_call (decode_movLegacy (Or.inr ⟨rfl, rfl⟩) (by omega) _) nofun,
    runToCall_call (decode_callAx _ _)]
  simp [exec, State.pushWord, State.setReg]

/-- What the dispatcher finds after the thunk and its entry: the memory with the frame, the stack
pointer below it and, on the 64-bit build, the registers of the arguments. -/
structure Entered (b : Build) (s : State GuestReg) (g : Guest) : Prop where
  mem : g.mem = frameMem b s
  sp : g.sp b = s.regs .sp - frameSize b
  args : ∀ k, b = .x64 → arg b g k = guestArg b s k.index

theorem entered_x64 (h : GuestCall .x64 s) (hnr : nr < 2 ^ 16) (haddr : addr < 2 ^ 64) :
  ∃ g, enter .x64 nr addr s = some (nr, g) ∧ Entered .x64 s g
  := by
  have hroom : 16 < s.regs .sp := h.room
  have hlt : s.regs .sp < Mode.long.limit := h.regs .sp
  have h₁ := State.wrapped_sub (n := 8) (by omega) hlt
  have h₂ := State.wrapped_sub (by omega : 8 ≤ s.regs .sp - 8) ((Nat.sub_le _ 8).trans_lt hlt)
  have hg : ∃ g, enter .x64 nr addr s = some (nr, g) ∧ g.mem = frameMem .x64 s ∧
      g.regs .rsp = s.regs .sp - 16 ∧ g.regs .rcx = s.regs .cx ∧ g.regs .rdx = s.regs .dx ∧
      g.regs .r8 = s.regs .r8 ∧ g.regs .r9 = s.regs .r9 := by
    simp [enter, thunk, Build.mode, runToCall_writeThunkAt hnr haddr, exec, wineDispatcher,
      execAll, numberReg, State.pushWord, State.setReg, Mode.wordSize, h₁, h₂, frameMem,
      Nat.sub_sub]
  obtain ⟨g, hg, hmem, hsp, hcx, hdx, hr8, hr9⟩ := hg
  use g, hg, hmem, hsp
  intro k _
  cases k with
  | arg1 => apply hcx
  | arg2 => apply hdx
  | arg3 => apply hr8
  | arg4 => apply hr9

theorem entered_i386 (h : GuestCall .i386 s) (hnr : nr < 2 ^ 16) (haddr : addr < 2 ^ 32) :
  ∃ g, enter .i386 nr addr s = some (nr, g) ∧ Entered .i386 s g
  := by
  have hroom : 12 < s.regs .sp := h.room
  have hlt : s.regs .sp < Mode.legacy.limit := h.regs .sp
  have h₁ := State.wrapped_sub (n := 4) (by omega) hlt
  have h₂ := State.wrapped_sub (by omega : 4 ≤ s.regs .sp - 4) ((Nat.sub_le _ 4).trans_lt hlt)
  have h₃ := State.wrapped_sub (by omega : 4 ≤ s.regs .sp - 8) ((Nat.sub_le _ 8).trans_lt hlt)
  have hg : ∃ g, enter .i386 nr addr s = some (nr, g) ∧ g.mem = frameMem .i386 s ∧
      g.regs .esp = s.regs .sp - 12 := by
    simp [enter, thunk, Build.mode, runToCall_writeThunkAt32 hnr haddr, exec, wineDispatcher,
      execAll, numberReg, State.pushWord, State.setReg, Mode.wordSize, h₁, h₂, h₃, frameMem,
      Nat.sub_sub]
  obtain ⟨g, hg, hmem, hsp⟩ := hg
  use g, hg, hmem, hsp
  nofun

theorem readLE_frameMem {b : Build} (h : GuestCall b s) (index : ℕ) :
  (frameMem b s).readLE (s.regs .sp - frameSize b + b.ptrSize * index) b.ptrSize =
    frameWord b s index
  := by
  have hroom := h.room
  have hip := h.ip
  cases b with
  | x64 =>
    simp only [frameSize, Build.mode, Mode.limit, Mode.wordSize, Build.ptrSize, frameMem] at *
    rcases index with _ | _ | k
    · rw [show s.regs .sp - 16 + 8 * 0 = s.regs .sp - 16 by omega, Bytes.readLE_writeLE]
      apply Nat.mod_eq_of_lt (by omega : s.ip + 21 < 256 ^ 8)
    · rw [Bytes.readLE_writeLE_of_disjoint _ _ (by omega),
        show s.regs .sp - 16 + 8 * (0 + 1) = s.regs .sp - 8 by omega, Bytes.readLE_writeLE]
      apply Nat.mod_eq_of_lt (h.regs .r15)
    · rw [Bytes.readLE_writeLE_of_disjoint _ _ (by omega),
        Bytes.readLE_writeLE_of_disjoint _ _ (by omega),
        show s.regs .sp - 16 + 8 * (k + 1 + 1) = s.regs .sp + 8 * k by omega]
      rfl
  | i386 =>
    simp only [frameSize, Build.mode, Mode.limit, Mode.wordSize, Build.ptrSize, frameMem] at *
    rcases index with _ | _ | _ | k
    · rw [show s.regs .sp - 12 + 4 * 0 = s.regs .sp - 12 by omega, Bytes.readLE_writeLE]
      apply Nat.mod_eq_of_lt h.flags
    · rw [Bytes.readLE_writeLE_of_disjoint _ _ (by omega),
        show s.regs .sp - 12 + 4 * (0 + 1) = s.regs .sp - 8 by omega, Bytes.readLE_writeLE]
      apply Nat.mod_eq_of_lt (by omega : s.ip + 13 < 256 ^ 4)
    · rw [Bytes.readLE_writeLE_of_disjoint _ _ (by omega),
        Bytes.readLE_writeLE_of_disjoint _ _ (by omega),
        show s.regs .sp - 12 + 4 * (0 + 1 + 1) = s.regs .sp - 4 by omega, Bytes.readLE_writeLE]
      apply Nat.mod_eq_of_lt (h.regs .bp)
    · rw [Bytes.readLE_writeLE_of_disjoint _ _ (by omega),
        Bytes.readLE_writeLE_of_disjoint _ _ (by omega),
        Bytes.readLE_writeLE_of_disjoint _ _ (by omega),
        show s.regs .sp - 12 + 4 * (k + 1 + 1 + 1) = s.regs .sp + 4 * k by omega]
      rfl

theorem readGuestStack_of_entered {b : Build} {g : Guest} {index : ℕ} (h : GuestCall b s)
    (hg : Entered b s g) (hindex : index ≤ 15) :
  readGuestStack b g index = frameWord b s index
  := by
  have hroom := h.room
  have htop := h.top
  have haligned : (s.regs .sp - frameSize b) % b.ptrSize = 0 := by
    have := h.aligned
    cases b <;> simp only [frameSize, Build.ptrSize] at * <;> omega
  have hvalid : guestPtrIsValid b (s.regs .sp - frameSize b) = true := by
    simp only [guestPtrIsValid, decide_eq_true_eq]
    exact ⟨by omega, by omega, haligned⟩
  rw [readGuestStack, hg.sp, hg.mem, if_neg (by omega), if_neg (by omega), if_neg (by omega),
    hvalid, if_neg (by decide), readLE_frameMem h]

def Feed.source (b : Build) (s : State GuestReg) : Feed → ℕ
  | .reg k => guestArg b s k.index
  | .stack index => frameWord b s index

/-- The position of the argument that a feed by `argN` is. -/
@[simp]
def Feed.position : Feed → Option ℕ
  | .reg k => some k.index
  | .stack _ => none

def Feed.index : Feed → ℕ
  | .reg _ => 0
  | .stack index => index

theorem word_of_entered {b : Build} {g : Guest} {f : Feed} (h : GuestCall b s) (hg : Entered b s g)
    (hf : f.index ≤ 15) :
  f.word b g = f.source b s
  := by
  cases f with
  | stack index => apply readGuestStack_of_entered h hg hf
  | reg k =>
    cases b with
    | x64 => apply hg.args k rfl
    | i386 =>
      have hindex : k.index + 3 ≤ 15 := by cases k <;> decide
      apply readGuestStack_of_entered h hg hindex

/-! ### The arguments -/

def Entry.positions (e : Entry) : List (ParamSpec × ℕ) := e.params.zipIdx 1

/-- What the handler should find in its parameters: the arguments of the guest's call, and in a
local whose address it gets the value at the argument. -/
def expected (b : Build) (e : Entry) (s : State GuestReg) : List Passed :=
  e.call.mapIdx fun i a =>
    match a with
    | .addr _ => .pointee (valueAt (frameMem b s) (guestArg b s (i + 1)))
    | _ => .value (guestArg b s (i + 1))

def ArgsOk (b : Build) (e : Entry) (s : State GuestReg) : Prop :=
  ∀ x ∈ e.positions, x.1.checked = true → PtrOk b (guestArg b s x.2)

/-- A call of the thunk of an entry reaches its handler if the pointers among the arguments are
valid, and whenever it does the handler finds the arguments. -/
def Decodes (b : Build) (addr : ℕ) (e : Entry) (s : State GuestReg) : Prop :=
  ∃ g, enter b e.num addr s = some (e.num, g) ∧ findEntry e.num = some e ∧
    (ArgsOk b e s → ∃ call, marshal b g (genCase e) = .ok call) ∧
    ∀ call, marshal b g (genCase e) = .ok call → call.passed = expected b e s

def WordsOk (b : Build) (e : Entry) (s : State GuestReg) : Prop :=
  ∀ x ∈ e.positions, x.1.checked = true → PtrOk b (x.1.feed.source b s)

def WordsAgree (b : Build) (e : Entry) (s : State GuestReg) : Prop :=
  ∀ x ∈ e.positions, ∀ index, x.1.feed = .stack index →
    x.1.passes (frameMem b s) (frameWord b s index) =
      x.1.passes (frameMem b s) (guestArg b s x.2)

theorem num_lt :
  ∀ e ∈ ntSyscalls, e.num < 2 ^ 16
  := by
  decide

theorem position_eq :
  ∀ e ∈ ntSyscalls, ∀ x ∈ e.positions, x.1.feed.position.getD x.2 = x.2
  := by
  decide

theorem index_le :
  ∀ e ∈ ntSyscalls, ∀ x ∈ e.positions, x.1.feed.index ≤ 15
  := by
  decide

theorem expected_eq (b : Build) (s : State GuestReg) :
  ∀ e ∈ ntSyscalls,
    expected b e s = e.positions.map fun x => x.1.passes (frameMem b s) (guestArg b s x.2)
  := by
  intro e he
  fin_cases he <;> rfl

section Entered

variable {b : Build} {s : State GuestReg} {g : Guest} {e : Entry}

theorem forall_params_iff {P : ParamSpec → Prop} :
  (∀ p ∈ e.params, P p) ↔ ∀ x ∈ e.positions, P x.1
  := by
  rw [← forall_mem_map (f := Prod.fst), Entry.positions, zipIdx_map_fst]

theorem reaches_handler_iff (h : GuestCall b s) (hg : Entered b s g) (he : e ∈ ntSyscalls) :
  (∃ call, marshal b g (genCase e) = .ok call) ↔ WordsOk b e s
  := by
  simp only [marshal_eq_ok_iff he, exists_and_left, exists_eq, and_true]
  rw [forall_params_iff]
  apply forall₂_congr
  intro x hx
  rw [word_of_entered h hg (index_le e he x hx)]

theorem passed_eq_expected_iff (h : GuestCall b s) (hg : Entered b s g) (he : e ∈ ntSyscalls) :
  ((genCase e).call b g).passed = expected b e s ↔ WordsAgree b e s
  := by
  have hparams : e.params = e.positions.map Prod.fst := by
    rw [Entry.positions, zipIdx_map_fst]
  rw [passed_call b g e he, expected_eq b s e he, hparams, map_map, map_inj_left]
  apply forall₂_congr
  intro x hx
  rw [Function.comp_apply, word_of_entered h hg (index_le e he x hx), hg.mem]
  cases hfeed : x.1.feed with
  | stack index => simp [Feed.source]
  | reg k =>
    have hposition : k.index = x.2 := by simpa [hfeed] using position_eq e he x hx
    simp [Feed.source, hposition]

theorem decodes_iff {addr : ℕ} (h : GuestCall b s) (he : e ∈ ntSyscalls) (haddr : addr < b.ptrLimit) :
  Decodes b addr e s ↔
    (ArgsOk b e s → WordsOk b e s) ∧ (WordsOk b e s → WordsAgree b e s)
  := by
  obtain ⟨g, henter, hg⟩ : ∃ g, enter b e.num addr s = some (e.num, g) ∧ Entered b s g := by
    cases b with
    | x64 => apply entered_x64 h (num_lt e he) haddr
    | i386 => apply entered_i386 h (num_lt e he) haddr
  have hreach := reaches_handler_iff h hg he
  have hpassed := passed_eq_expected_iff h hg he
  simp only [Decodes, henter, Option.some.injEq, Prod.mk.injEq, true_and, findEntry_num e he,
    exists_eq_left', hreach]
  apply and_congr_right
  rintro -
  constructor
  · intro hfinds hok
    obtain ⟨call, hcall⟩ := hreach.mpr hok
    obtain ⟨-, rfl⟩ := (marshal_eq_ok_iff he).mp hcall
    apply hpassed.mp (hfinds _ hcall)
  · intro hagree call hcall
    obtain ⟨-, rfl⟩ := (marshal_eq_ok_iff he).mp hcall
    apply hpassed.mpr (hagree (hreach.mp ⟨_, hcall⟩))

end Entered

/-- The handler of an entry gets the arguments of the guest's call exactly when the words of the
frame that are taken for arguments agree with them, or some checked word is no pointer, and the
words are pointers if the arguments are. -/
theorem arguments_decoded_iff (b : Build) (e : Entry) (he : e ∈ ntSyscalls) (addr : ℕ)
    (haddr : addr < b.ptrLimit) (s : State GuestReg) (h : GuestCall b s) :
  Decodes b addr e s ↔
    (ArgsOk b e s → WordsOk b e s) ∧ (WordsOk b e s → WordsAgree b e s)
  := decodes_iff h he haddr

/-- A guest that calls a system call with `0x1000` and `4` as the fifth and sixth arguments, with
`r15` as given. -/
def call64 (r15 : ℕ) : State GuestReg where
  regs
    | .sp => 0x500000
    | .cx => 0x7000
    | .dx => 0x6000
    | .r9 => 0x6008
    | .r15 => r15
    | _ => 0
  flags := 0
  ip := 0x10000
  mem := (Bytes.writeLE (fun _ => 0) 0x500028 8 0x1000).writeLE 0x500030 8 4
  var := fun _ => 0

def call32 : State GuestReg where
  regs
    | .sp => 0x500000
    | _ => 0
  flags := 0
  ip := 0x10000
  mem := (Bytes.writeLE (fun _ => 0) 0x500014 4 0x1000).writeLE 0x500018 4 4
  var := fun _ => 0

theorem guestCall_call64 {r15 : ℕ} (h : r15 < Mode.long.limit) :
  GuestCall .x64 (call64 r15)
  where
  regs r := by
    cases r
    case r15 => apply h
    all_goals simp [call64, Build.mode, Mode.limit, Mode.wordSize]
  flags := by simp [call64, Build.mode, Mode.limit, Mode.wordSize]
  ip := by simp [call64, Build.mode, Mode.limit, Mode.wordSize]
  aligned := by
    change 0x500000 % 8 = 0
    decide
  room := by simp [call64, frameSize]
  top := by simp [call64, maxGuestPtr]

theorem guestCall_call32 :
  GuestCall .i386 call32
  where
  regs r := by cases r <;> decide
  flags := by decide
  ip := by decide
  aligned := by decide
  room := by decide
  top := by decide

/-- The handler of `NtCreateEvent` gets its fifth argument if it is also in `r15`. -/
theorem createEvent_decoded :
  ∃ e ∈ ntSyscalls, e.handler = .createEvent ∧ 0x20000 < Build.x64.ptrLimit ∧
    GuestCall .x64 (call64 0x1000) ∧ Decodes .x64 0x20000 e (call64 0x1000)
  := by
  have he : ntSyscalls.get ⟨13, by decide⟩ ∈ ntSyscalls := get_mem _ _
  have hcall : GuestCall .x64 (call64 0x1000) := guestCall_call64 (by decide)
  refine ⟨_, he, rfl, by decide, hcall, ?_⟩
  apply (arguments_decoded_iff .x64 _ he 0x20000 (by decide) _ hcall).mpr
  constructor
  · intro _ x hx
    fin_cases hx <;> decide +kernel
  · intro _ x hx index hfeed
    fin_cases hx <;> cases hfeed
    decide +kernel

/-- The handler of `NtAllocateVirtualMemory` gets the word in `r15`, and on `i386` the return
address of the thunk, as the fifth argument. -/
theorem allocate_misread :
  ∃ e ∈ ntSyscalls, e.handler = .allocateVirtualMemory ∧
    (GuestCall .x64 (call64 0) ∧ ¬ Decodes .x64 0x20000 e (call64 0)) ∧
    (GuestCall .i386 call32 ∧ ¬ Decodes .i386 0x20000 e call32)
  := by
  have he : ntSyscalls.get ⟨3, by decide⟩ ∈ ntSyscalls := get_mem _ _
  have hcall : GuestCall .x64 (call64 0) := guestCall_call64 (by decide)
  refine ⟨_, he, rfl, ⟨hcall, ?_⟩, guestCall_call32, ?_⟩
  · rw [decodes_iff hcall he (by decide)]
    rintro ⟨-, hagree⟩
    have hok : WordsOk .x64 (ntSyscalls.get ⟨3, by decide⟩) (call64 0) := by
      intro x hx
      fin_cases hx <;> decide +kernel
    have h := hagree hok (⟨.stack 1, false, false⟩, 5) (by decide) 1 rfl
    revert h
    decide +kernel
  · rw [decodes_iff guestCall_call32 he (by decide)]
    rintro ⟨-, hagree⟩
    have hok : WordsOk .i386 (ntSyscalls.get ⟨3, by decide⟩) call32 := by
      intro x hx
      fin_cases hx <;> decide +kernel
    have h := hagree hok (⟨.stack 1, false, false⟩, 5) (by decide) 1 rfl
    revert h
    decide +kernel

end Syscall
