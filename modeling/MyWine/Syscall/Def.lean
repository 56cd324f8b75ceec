import Mathlib.Data.List.Basic

/-!
# The table of system calls and the generator

`include/nt_syscalls.def` describes each system call by the pointers to be checked, the locals to
be made and the call of its handler.  `scripts/gen_dispatcher.py` turns each entry into the body
of a `case` of the dispatcher.  An entry is a value of `Entry`, the body is a value of `Case`, and
`genCase` is the translation.
-/

namespace Syscall

/-! ### Entries -/

/-- The locals that the entries name. -/
inductive Local where
  | hRetLen | hBaseAddr | hRegionSz | hSectionOff | hViewSz | hBuffer | hBytesRead | hBytesWritten
  | hHandle | hMaxSz | hCounter | hFreq | hPrev | hFtVal | hTimeout
  deriving DecidableEq, Repr

/-- The macros `arg1` to `arg4`, the first four arguments of a system call. -/
inductive ArgN where
  | arg1 | arg2 | arg3 | arg4
  deriving DecidableEq, Repr

def ArgN.index : ArgN → ℕ
  | arg1 => 1
  | arg2 => 2
  | arg3 => 3
  | arg4 => 4

/-- The source of a pointer: one of `arg1` to `arg4`, or a local. -/
inductive Source where
  | arg (k : ArgN)
  | loc (n : Local)
  deriving DecidableEq, Repr

/-- The parts of an `args:` line. -/
inductive ArgSpec where
  | wb (src : Source) (name : Local) (label : String)
  | wb32 (src : Source) (name : Local) (label : String)
  | ro (src : Source) (name label : String)
  | stack (index : ℕ) (name : Local)
  deriving DecidableEq, Repr

/-- The arguments of a `call:` line: `argN`, `&h_name`, `h_name`, `STACK(N)` and `raw`. -/
inductive CallArg where
  | arg (k : ArgN)
  | addr (n : Local)
  | loc (n : Local)
  | stack (index : ℕ)
  | raw
  deriving DecidableEq, Repr

/-- The system calls. -/
inductive Nt where
  | callbackReturn | queryInformationProcess | close | allocateVirtualMemory | freeVirtualMemory
  | getContextThread | setContextThread | mapViewOfSection | unmapViewOfSection
  | terminateProcess | readFile | writeFile | createMutex | createEvent | createSection
  | createSemaphore | createThreadEx | openFile | queryPerformanceCounter
  | queryPerformanceFrequency | setEvent | resetEvent | querySystemTime | delayExecution
  | releaseMutex | waitForSingleObject
  deriving DecidableEq, Repr

/-- An entry of the table: the number of the system call, its handler, and its `args:` and
`call:` lines. -/
structure Entry where
  num : ℕ
  handler : Nt
  args : List ArgSpec
  call : List CallArg
  deriving DecidableEq, Repr

/-- The entries of `nt_syscalls.def`, in order. -/
def ntSyscalls : List Entry :=
  [⟨0x05, .callbackReturn, [], []⟩,
   ⟨0x07, .queryInformationProcess,
    [.stack 1 .hRetLen, .ro (.arg .arg3) "buffer" "buffer",
      .ro (.loc .hRetLen) "return_length" "return_length"],
    [.arg .arg1, .arg .arg2, .raw, .arg .arg4, .loc .hRetLen]⟩,
   ⟨0x0F, .close, [], [.arg .arg1]⟩,
   ⟨0x18, .allocateVirtualMemory,
    [.wb (.arg .arg2) .hBaseAddr "h_baseAddr", .wb (.arg .arg4) .hRegionSz "h_regionSz"],
    [.arg .arg1, .addr .hBaseAddr, .arg .arg3, .addr .hRegionSz, .stack 1, .stack 2]⟩,
   ⟨0x19, .freeVirtualMemory,
    [.wb (.arg .arg2) .hBaseAddr "h_baseAddr", .wb (.arg .arg3) .hRegionSz "h_regionSz"],
    [.arg .arg1, .addr .hBaseAddr, .addr .hRegionSz, .arg .arg4]⟩,
   ⟨0x24, .getContextThread, [.ro (.arg .arg2) "context" "context"], [.arg .arg1, .arg .arg2]⟩,
   ⟨0x26, .setContextThread, [.ro (.arg .arg2) "context" "context"], [.arg .arg1, .arg .arg2]⟩,
   ⟨0x28, .mapViewOfSection,
    [.wb (.arg .arg3) .hBaseAddr "h_baseAddr", .stack 1 .hSectionOff, .stack 2 .hViewSz,
      .wb (.loc .hSectionOff) .hSectionOff "section_offset",
      .wb (.loc .hViewSz) .hViewSz "view_size"],
    [.arg .arg1, .arg .arg2, .addr .hBaseAddr, .arg .arg4, .stack 1, .addr .hSectionOff, .addr .hViewSz,
      .stack 4, .stack 5, .stack 6]⟩,
   ⟨0x29, .unmapViewOfSection, [], [.arg .arg1, .arg .arg2]⟩,
   ⟨0x2A, .terminateProcess, [], [.arg .arg1, .arg .arg2]⟩,
   ⟨0x3C, .readFile,
    [.stack 1 .hBuffer, .stack 4 .hBytesRead, .ro (.loc .hBuffer) "buffer" "buffer",
      .ro (.loc .hBytesRead) "bytes_read" "bytes_read"],
    [.arg .arg1, .arg .arg2, .arg .arg3, .arg .arg4, .loc .hBuffer, .stack 2, .stack 3, .loc .hBytesRead]⟩,
   ⟨0x3D, .writeFile,
    [.stack 1 .hBuffer, .stack 4 .hBytesWritten, .ro (.loc .hBuffer) "buffer" "buffer",
      .ro (.loc .hBytesWritten) "bytes_written" "bytes_written"],
    [.arg .arg1, .arg .arg2, .arg .arg3, .arg .arg4, .loc .hBuffer, .stack 2, .stack 3, .loc .hBytesWritten]⟩,
   ⟨0x44, .createMutex, [.wb (.arg .arg1) .hHandle "h_handle"], [.addr .hHandle, .arg .arg2, .arg .arg3]⟩,
   ⟨0x48, .createEvent, [.wb (.arg .arg1) .hHandle "h_handle"],
    [.addr .hHandle, .arg .arg2, .arg .arg3, .arg .arg4, .stack 1]⟩,
   ⟨0x4A, .createSection,
    [.wb (.arg .arg1) .hHandle "h_handle", .wb (.arg .arg4) .hMaxSz "h_maxSz"],
    [.addr .hHandle, .arg .arg2, .arg .arg3, .addr .hMaxSz, .stack 1, .stack 2, .stack 3]⟩,
   ⟨0x4C, .createSemaphore, [.wb (.arg .arg1) .hHandle "h_handle"],
    [.addr .hHandle, .arg .arg2, .arg .arg3, .arg .arg4, .stack 1]⟩,
   ⟨0x4E, .createThreadEx, [.wb (.arg .arg1) .hHandle "h_handle"],
    [.addr .hHandle, .arg .arg2, .arg .arg3, .arg .arg4, .stack 1, .stack 2, .stack 3, .stack 4, .stack 5,
      .stack 6, .stack 7]⟩,
   ⟨0x4F, .openFile,
    [.wb (.arg .arg1) .hHandle "h_handle", .ro (.arg .arg3) "object_attributes" "object_attributes",
      .ro (.arg .arg4) "io_status_block" "io_status_block"],
    [.addr .hHandle, .arg .arg2, .arg .arg3, .arg .arg4, .stack 1, .stack 2]⟩,
   ⟨0x55, .queryPerformanceCounter, [.wb (.arg .arg1) .hCounter "h_counter"], [.addr .hCounter]⟩,
   ⟨0x56, .queryPerformanceFrequency, [.wb (.arg .arg1) .hFreq "h_freq"], [.addr .hFreq]⟩,
   ⟨0x5C, .setEvent, [.wb32 (.arg .arg2) .hPrev "h_prev"], [.arg .arg1, .addr .hPrev]⟩,
   ⟨0x5E, .resetEvent, [.wb32 (.arg .arg2) .hPrev "h_prev"], [.arg .arg1, .addr .hPrev]⟩,
   ⟨0x09, .querySystemTime, [.wb (.arg .arg1) .hFtVal "h_ftVal"], [.addr .hFtVal]⟩,
   ⟨0x1A, .delayExecution, [.wb (.arg .arg2) .hTimeout "h_timeout"], [.arg .arg1, .addr .hTimeout]⟩,
   ⟨0x1E, .releaseMutex, [], [.arg .arg1, .arg .arg2]⟩,
   ⟨0x03, .waitForSingleObject, [.wb (.arg .arg3) .hTimeout "h_timeout"],
    [.arg .arg1, .arg .arg2, .addr .hTimeout]⟩]

/-! ### The generated code -/

/-- The expressions in the calls of the generated code: the macros `arg1` to `arg4`, a local, its
address and `read_guest_stack(index)`. -/
inductive Expr where
  | arg (k : ArgN)
  | loc (n : Local)
  | addrOf (n : Local)
  | readGuestStack (index : ℕ)
  deriving DecidableEq, Repr

/-- The declarations of the generated code.  The pointer `p_name` that belongs to the local
`h_name` is named by the local. -/
inductive Decl where
  /-- `uint64_t h_name = read_guest_stack(index);` -/
  | stackLocal (n : Local) (index : ℕ)
  /-- `uint64_t h_name = 0;` -/
  | zeroLocal (n : Local)
  /-- `void *p_name = NULL;` -/
  | ptr (n : Local)
  deriving DecidableEq, Repr

/-- The checks of the generated code. -/
inductive Check where
  /-- `if (dispatch_ptr_inout(src, &h_name, &p_name, "label", &result) != 0) break;` -/
  | inout (src : Source) (n : Local) (label : String)
  /-- `status = read_guest_ptr(src, NULL, NULL, "label"); if (status != 0) return status;` -/
  | readOnly (src : Source) (label : String)
  deriving DecidableEq, Repr

/-- The write-backs of the generated code. -/
inductive WriteBack where
  /-- `if (p_name) *(uint64_t *)p_name = h_name;` -/
  | word64 (n : Local)
  /-- `if (p_name) *(uint32_t *)p_name = (uint32_t)h_name;` -/
  | word32 (n : Local)
  deriving DecidableEq, Repr

/-- The body of a `case`: declarations, checks, the call of the handler and write-backs. -/
structure Case where
  decls : List Decl
  checks : List Check
  handler : Nt
  args : List Expr
  writeBacks : List WriteBack
  deriving DecidableEq, Repr

/-- The declarations for the pointers `ptrs`, the locals `declared` being declared already. -/
def ptrDecls (declared : List Local) : List Local → List Decl
  | [] => []
  | n :: ptrs =>
    if n ∈ declared then .ptr n :: ptrDecls declared ptrs
    else .zeroLocal n :: .ptr n :: ptrDecls (n :: declared) ptrs

/-- `gen_decls`: the locals on the stack first, then those of the pointers, without a second
declaration of a local. -/
def genDecls (args : List ArgSpec) : List Decl :=
  let stack := args.filterMap fun
    | .stack index name => some (name, index)
    | _ => none
  let ptrs := args.filterMap fun
    | .wb _ name _ => some name
    | .wb32 _ name _ => some name
    | _ => none
  (stack.map fun (name, index) => .stackLocal name index) ++ ptrDecls (stack.map Prod.fst) ptrs

/-- `gen_validation`: the pointers that are written back, then those that are only read. -/
def genValidation (args : List ArgSpec) : List Check :=
  (args.filterMap fun
    | .wb src name label => some (.inout src name label)
    | .wb32 src name label => some (.inout src name label)
    | _ => none) ++
  args.filterMap fun
    | .ro src _ label => some (.readOnly src label)
    | _ => none

def findRawSource (args : List ArgSpec) : Option ArgN :=
  args.findSome? fun
    | .ro (.arg k) _ _ => some k
    | _ => none

/-- `expand_call` on one argument.  `STACK(N)` becomes `read_guest_stack(N)` in the text, so that
the macro of that name, which adds an offset on `i386`, is not used.  If there is no source for
`raw`, the word stays in the text, which then does not compile. -/
def expandCallArg (args : List ArgSpec) : CallArg → Option Expr
  | .arg k => some (.arg k)
  | .addr n => some (.addrOf n)
  | .loc n => some (.loc n)
  | .stack index => some (.readGuestStack index)
  | .raw => (findRawSource args).map .arg

def genWriteback (args : List ArgSpec) : List WriteBack :=
  args.filterMap fun
    | .wb _ name _ => some (.word64 name)
    | .wb32 _ name _ => some (.word32 name)
    | _ => none

def genCase (e : Entry) : Case where
  decls := genDecls e.args
  checks := genValidation e.args
  handler := e.handler
  args := e.call.filterMap (expandCallArg e.args)
  writeBacks := genWriteback e.args

def findEntry (nr : ℕ) : Option Entry := ntSyscalls.find? fun e => e.num = nr

end Syscall
