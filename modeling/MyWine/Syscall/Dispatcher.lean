import Mathlib.Tactic.FinCases
import MyWine.Basic
import MyWine.Lib.Bytes
import MyWine.Syscall.Def

/-!
# The dispatcher

The dispatcher runs the generated `case` of a system call on the saved registers and the memory
of the guest.  `marshal` executes its declarations and checks and evaluates the arguments of the
handler, and `dispatcherCore` calls the handler with them and executes the write-backs.  A handler
gets numbers and addresses of locals (`Param`), and can change the memory and the locals.

The words that `marshal` passes come from registers and from the stack of the guest: `Entry.params`
is the `Feed` of each parameter, and `marshal_eq_ok_iff` and `passed_of_marshal` say that a call is
made when the checked words are pointers, and with the words of the feeds.
-/

namespace Syscall

open Function

/-! ### Reading the guest -/

/-- The fields of `struct guest_regs`, of the 64-bit build and then of the `i386` build. -/
inductive GuestReg where
  | rcx | rdx | r8 | r9 | rdi | rsi | rsp | retAddr | rax | rbx | r12 | r13 | r14 | r15
  | eax | ebx | ecx | edx | esi | edi | ebp | esp | eip | eflags
  deriving DecidableEq

/-- The guest as the dispatcher sees it: the registers that its entry saved, and the memory. -/
structure Guest where
  regs : GuestReg → ℕ
  mem : Bytes

def maxGuestPtr : Build → ℕ
  | .x64 => 0xfffffffffffe0000
  | .i386 => 0xFFFF8000

def guestPtrIsValid (b : Build) (ptr : ℕ) : Bool :=
  ptr ≠ 0 ∧ ptr ≤ maxGuestPtr b ∧ ptr % b.ptrSize = 0

def Guest.sp (g : Guest) : Build → ℕ
  | .x64 => g.regs .rsp
  | .i386 => g.regs .esp

/-- `read_guest_stack`: the word of the given index, or zero if the index or the stack pointer is
not valid. -/
def readGuestStack (b : Build) (g : Guest) (index : ℕ) : ℕ :=
  if 15 < index then 0
  else if g.sp b = 0 then 0
  else if maxGuestPtr b < g.sp b then 0
  else if !guestPtrIsValid b (g.sp b) then 0
  else g.mem.readLE (g.sp b + b.ptrSize * index) b.ptrSize

/-- The macros `arg1` to `arg4`: registers of the 64-bit build, and words of the stack above those
that `pushf` and the thunk push on `i386`. -/
def arg (b : Build) (g : Guest) (k : ArgN) : ℕ :=
  match b, k with
  | .x64, .arg1 => g.regs .rcx
  | .x64, .arg2 => g.regs .rdx
  | .x64, .arg3 => g.regs .r8
  | .x64, .arg4 => g.regs .r9
  | .i386, k => readGuestStack .i386 g (k.index + 3)

/-- A pointer that was refused, with the label of the check. -/
structure InvalidPtr where
  ptr : ℕ
  name : String

/-- `read_guest_ptr`: the value at the address `ptr` and the address, or zeros for `NULL`. -/
def readGuestPtr (b : Build) (mem : Bytes) (ptr : ℕ) (name : String) :
    Except InvalidPtr (ℕ × Ptr) :=
  if ptr = 0 then .ok (0, 0)
  else if !guestPtrIsValid b ptr then .error ⟨ptr, name⟩
  else .ok (mem.readLE ptr 8, ptr)

/-! ### Executing a case -/

/-- The locals of a case: the numbers `h_name` and the pointers `p_name`. -/
structure Locals where
  val : Local → ℕ
  ptr : Local → Ptr

def Source.eval (b : Build) (g : Guest) (l : Locals) : Source → ℕ
  | .arg k => Syscall.arg b g k
  | .loc n => l.val n

def Decl.exec (b : Build) (g : Guest) (l : Locals) : Decl → Locals
  | .stackLocal n index => { l with val := update l.val n (readGuestStack b g index) }
  | .zeroLocal n => { l with val := update l.val n 0 }
  | .ptr n => { l with ptr := update l.ptr n 0 }

def Check.exec (b : Build) (g : Guest) (l : Locals) : Check → Except InvalidPtr Locals
  | .inout src n label => do
    let (v, p) ← readGuestPtr b g.mem (src.eval b g l) label
    return ⟨update l.val n v, update l.ptr n p⟩
  | .readOnly src label => do
    let _ ← readGuestPtr b g.mem (src.eval b g l) label
    return l

/-- A parameter of a handler: a number, or the address of a local. -/
inductive Param where
  | val (v : ℕ)
  | ref (n : Local)
  deriving DecidableEq

def Expr.eval (b : Build) (g : Guest) (l : Locals) : Expr → Param
  | .arg k => .val (Syscall.arg b g k)
  | .loc n => .val (l.val n)
  | .addrOf n => .ref n
  | .readGuestStack index => .val (Syscall.readGuestStack b g index)

/-- The call of a handler. -/
structure Call where
  handler : Nt
  args : List Param
  locals : Locals

def marshal (b : Build) (g : Guest) (c : Case) : Except InvalidPtr Call := do
  let declared := c.decls.foldl (Decl.exec b g) ⟨fun _ => 0, fun _ => 0⟩
  let l ← c.checks.foldlM (Check.exec b g) declared
  return ⟨c.handler, c.args.map (Expr.eval b g l), l⟩

/-- What a handler can read and write: the memory of the guest and the locals of the case. -/
structure Store where
  mem : Bytes
  val : Local → ℕ

abbrev Handlers (ω : Type*) : Type _ :=
  Nt → List Param → Store → ω → Option (ℕ × Store × ω)

def WriteBack.exec (ptr : Local → Ptr) (val : Local → ℕ) (mem : Bytes) : WriteBack → Bytes
  | .word64 n => if ptr n ≠ 0 then mem.writeLE (ptr n) 8 (val n) else mem
  | .word32 n => if ptr n ≠ 0 then mem.writeLE (ptr n) 4 (val n) else mem

def toResult (b : Build) (status : ℕ) : ℕ := b.wrap status

def statusAccessViolation : ℕ := 0xFFFFFFFFC0000005

def statusNotImplemented : ℕ := 0xC00000B7

def dispatcherCore {ω : Type*} (b : Build) (h : Handlers ω) (nr : ℕ) (g : Guest) (w : ω) :
    Option (ℕ × Bytes × ω) :=
  match findEntry nr with
  | none => some (toResult b statusNotImplemented, g.mem, w)
  | some e =>
    match marshal b g (genCase e) with
    | .error _ => some (toResult b statusAccessViolation, g.mem, w)
    | .ok call =>
      match h call.handler call.args ⟨g.mem, call.locals.val⟩ w with
      | none => none
      | some (status, store, w') =>
        some (toResult b status,
          (genCase e).writeBacks.foldl (WriteBack.exec call.locals.ptr store.val) store.mem, w')

/-! ### The words that are passed -/

/-- Where the word for a parameter comes from: one of `arg1` to `arg4`, or a word of the stack. -/
inductive Feed where
  | reg (k : ArgN)
  | stack (index : ℕ)
  deriving DecidableEq

def Feed.word (b : Build) (g : Guest) : Feed → ℕ
  | .reg k => arg b g k
  | .stack index => readGuestStack b g index

def Entry.localFeed (e : Entry) (n : Local) : Option Feed :=
  e.args.findSome? fun
    | .stack index m => if m = n then some (.stack index) else none
    | _ => none

def Entry.sourceFeed (e : Entry) : Source → Option Feed
  | .arg k => some (.reg k)
  | .loc n => e.localFeed n

def Entry.checked (e : Entry) : List (Source × Option Local) :=
  e.args.filterMap fun
    | .wb src n _ => some (src, some n)
    | .wb32 src n _ => some (src, some n)
    | .ro src _ _ => some (src, none)
    | .stack _ _ => none

/-- A parameter of a handler: its feed, whether the handler gets the address of a local that holds
the value at the word (`byRef`), and whether the word is checked to be a pointer. -/
structure ParamSpec where
  feed : Feed
  byRef : Bool
  checked : Bool
  deriving DecidableEq

def Entry.param (e : Entry) (a : CallArg) : Option ParamSpec :=
  let value (src : Source) : Option ParamSpec :=
    (e.sourceFeed src).map fun f => ⟨f, false, e.checked.any fun (src', _) => src' = src⟩
  match a with
  | .arg k => value (.arg k)
  | .loc n => value (.loc n)
  | .raw => (findRawSource e.args).bind fun k => value (.arg k)
  | .stack index => some ⟨.stack index, false, false⟩
  | .addr n => (e.checked.find? fun (_, m) => m = some n).bind fun (src, _) =>
    (e.sourceFeed src).map fun f => ⟨f, true, true⟩

def Entry.params (e : Entry) : List ParamSpec := e.call.filterMap e.param

def PtrOk (b : Build) (ptr : ℕ) : Prop := ptr = 0 ∨ guestPtrIsValid b ptr = true

instance (b : Build) (ptr : ℕ) : Decidable (PtrOk b ptr) :=
  inferInstanceAs (Decidable (_ ∨ _))

def valueAt (mem : Bytes) (ptr : ℕ) : ℕ := if ptr = 0 then 0 else mem.readLE ptr 8

/-- What a handler finds in a parameter: a number, or the number in a local. -/
inductive Passed where
  | value (v : ℕ)
  | pointee (v : ℕ)
  deriving DecidableEq

def Call.passed (c : Call) : List Passed :=
  c.args.map fun
    | .val v => .value v
    | .ref n => .pointee (c.locals.val n)

def ParamSpec.passes (p : ParamSpec) (mem : Bytes) (w : ℕ) : Passed :=
  if p.byRef then .pointee (valueAt mem w) else .value w

theorem readGuestPtr_eq (b : Build) (mem : Bytes) (ptr : ℕ) (name : String) :
  readGuestPtr b mem ptr name =
    if PtrOk b ptr then .ok (valueAt mem ptr, ptr) else .error ⟨ptr, name⟩
  := by
  rcases eq_or_ne ptr 0 with rfl | hne
  · simp [readGuestPtr, PtrOk, valueAt]
  · cases hvalid : guestPtrIsValid b ptr <;> simp [readGuestPtr, PtrOk, valueAt, hne, hvalid]

/-! ### The checks -/

def Check.src : Check → Source
  | .inout src _ _ => src
  | .readOnly src _ => src

def Check.target : Check → Option Local
  | .inout _ n _ => some n
  | .readOnly _ _ => none

/-- The locals `l` after a check that lets its pointer pass, the source being evaluated in the
locals `declared`. -/
def Check.pass (b : Build) (g : Guest) (declared l : Locals) (c : Check) : Locals :=
  let w := c.src.eval b g declared
  match c.target with
  | some n => ⟨update l.val n (valueAt g.mem w), update l.ptr n w⟩
  | none => l

def Independent (cs : List Check) : Prop :=
  cs.Pairwise fun c c' => c.target.map .loc ≠ some c'.src

instance (cs : List Check) : Decidable (Independent cs) :=
  inferInstanceAs (Decidable (List.Pairwise _ _))

theorem Check.exec_cases (b : Build) (g : Guest) (l : Locals) (c : Check) :
  (¬ PtrOk b (c.src.eval b g l) ∧ ∃ r, c.exec b g l = .error r) ∨
    (PtrOk b (c.src.eval b g l) ∧ c.exec b g l = .ok (c.pass b g l l))
  := by
  rcases Decidable.em (PtrOk b (c.src.eval b g l)) with hok | hno
  · right
    cases c <;> simp_all [Check.exec, readGuestPtr_eq, Check.src, Check.pass, Check.target]
  · left
    cases c <;> simp_all [Check.exec, readGuestPtr_eq, Check.src]

variable {b : Build} {g : Guest}

theorem Check.eval_pass {declared l : Locals} {c : Check} {src : Source}
    (h : c.target.map .loc ≠ some src) :
  src.eval b g (c.pass b g declared l) = src.eval b g l
  := by
  cases ht : c.target with
  | none => simp [Check.pass, ht]
  | some n =>
    cases src with
    | arg k => simp [Source.eval]
    | loc m =>
      have hne : m ≠ n := by
        rintro rfl
        simp [ht] at h
      simp [Check.pass, ht, Source.eval, hne]

theorem foldlM_exec_eq_ok_iff {declared l : Locals} {cs : List Check} (l' : Locals)
    (hind : Independent cs) (hsrc : ∀ c ∈ cs, c.src.eval b g l = c.src.eval b g declared) :
  cs.foldlM (Check.exec b g) l = .ok l' ↔
    (∀ c ∈ cs, PtrOk b (c.src.eval b g declared)) ∧ cs.foldl (Check.pass b g declared) l = l'
  := by
  induction cs generalizing l with
  | nil => simp [pure, Except.pure]
  | cons c cs ih =>
    obtain ⟨hc, hcs⟩ := List.pairwise_cons.mp hind
    have hhead : c.src.eval b g l = c.src.eval b g declared := hsrc c List.mem_cons_self
    have hpass : c.pass b g l l = c.pass b g declared l := by
      simp [Check.pass, hhead]
    rcases c.exec_cases b g l with ⟨hno, r, he⟩ | ⟨hok, he⟩
    · rw [hhead] at hno
      simp [List.foldlM_cons, he, bind, Except.bind, hno]
    · have hrest (c' : Check) (hc' : c' ∈ cs) :
          c'.src.eval b g (c.pass b g declared l) = c'.src.eval b g declared := by
        rw [Check.eval_pass (hc c' hc')]
        apply hsrc c' (List.mem_cons_of_mem c hc')
      rw [hhead] at hok
      rw [List.foldlM_cons, he, hpass, List.foldl_cons, List.forall_mem_cons, and_iff_right hok]
      apply ih hcs hrest

/-! ### The call -/

def Case.declared (b : Build) (g : Guest) (c : Case) : Locals :=
  c.decls.foldl (Decl.exec b g) ⟨fun _ => 0, fun _ => 0⟩

def Case.call (b : Build) (g : Guest) (c : Case) : Call :=
  let l := c.checks.foldl (Check.pass b g (c.declared b g)) (c.declared b g)
  ⟨c.handler, c.args.map (Expr.eval b g l), l⟩

theorem marshal_eq_ok_iff_checks {c : Case} {call : Call} (hind : Independent c.checks) :
  marshal b g c = .ok call ↔
    (∀ k ∈ c.checks, PtrOk b (k.src.eval b g (c.declared b g))) ∧ call = c.call b g
  := by
  have h (l : Locals) := foldlM_exec_eq_ok_iff (b := b) (g := g) l hind
    fun k _ => (rfl : k.src.eval b g (c.declared b g) = _)
  rw [marshal, ← Case.declared]
  cases hl : c.checks.foldlM (Check.exec b g) (c.declared b g) with
  | error r =>
    simp only [hl, reduceCtorEq, false_iff, not_and] at h
    simp only [bind, Except.bind, reduceCtorEq, false_iff, not_and]
    intro hok
    cases h _ hok rfl
  | ok l =>
    obtain ⟨hok, rfl⟩ := (h l).mp hl
    rw [and_iff_right hok]
    simp only [bind, Except.bind, pure, Except.pure, Except.ok.injEq, Case.call]
    apply eq_comm

theorem findEntry_num :
  ∀ e ∈ ntSyscalls, findEntry e.num = some e
  := by
  decide

theorem independent_checks :
  ∀ e ∈ ntSyscalls, Independent (genCase e).checks
  := by
  decide

theorem checkedWords_eq (b : Build) (g : Guest) :
  ∀ e ∈ ntSyscalls, (genCase e).checks.map (fun k => k.src.eval b g ((genCase e).declared b g)) =
    (e.params.filter (·.checked)).map fun p => p.feed.word b g
  := by
  intro e he
  fin_cases he <;> rfl

theorem marshal_eq_ok_iff {e : Entry} {call : Call} (he : e ∈ ntSyscalls) :
  marshal b g (genCase e) = .ok call ↔
    (∀ p ∈ e.params, p.checked = true → PtrOk b (p.feed.word b g)) ∧ call = (genCase e).call b g
  := by
  rw [marshal_eq_ok_iff_checks (independent_checks e he)]
  apply and_congr_left
  rintro -
  rw [← List.forall_mem_map (P := PtrOk b), checkedWords_eq b g e he, List.forall_mem_map,
    List.forall_mem_filter]

theorem passed_call (b : Build) (g : Guest) :
  ∀ e ∈ ntSyscalls, ((genCase e).call b g).passed =
    e.params.map fun p => p.passes g.mem (p.feed.word b g)
  := by
  intro e he
  fin_cases he <;> rfl

end Syscall
