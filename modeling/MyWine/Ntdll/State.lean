import MyWine.HandleManager
import MyWine.Syscall.Dispatcher

/-!
# Kernel objects

The state that the handlers of `ntdll` share: the tables of `g_ko` and the handle table.  What the
handlers ask of the operating system is a parameter `Os`: how long a sleep lasted and what the
other threads did to the events in the meantime, and where a mapping was put.

A pointer of a handler is a `Param`: an address of the guest, or a local of the dispatcher.
`Store.load` and `Store.store` access eight bytes through either.
-/

namespace Ntdll

open Syscall

structure WineEvent where
  handle : ℤ
  signaled : ℤ
  eventType : ℤ
  deriving DecidableEq

structure WineSection where
  base : Ptr
  size : ℕ
  fd : ℤ
  deriving DecidableEq

structure WineView where
  base : Ptr
  size : ℕ
  deriving DecidableEq

def maxSections : ℕ := 64

/-- The tables of `g_ko` that the handlers use, the handle table, the sections by the address of
the object, and the number of sleeps so far. -/
structure Objects where
  handles : HandleManager.HandleTable
  sectionAt : Ptr → WineSection
  events : ℕ → WineEvent
  eventCount : ℕ
  views : ℕ → WineView
  viewCount : ℕ
  sleeps : ℕ

/-- The arguments of `mmap`. -/
structure Mmap where
  addr : Ptr
  length : ℕ
  prot : ℕ
  fd : Option ℤ
  offset : ℕ

abbrev Errno := {e : ℕ // 0 < e ∧ e < 4096}

def eperm : Errno := ⟨1, by decide⟩

/-- The operating system: for the `n`-th sleep, the remainder in nanoseconds if it was interrupted,
and the events as the other threads left them; and for a mapping its address and the memory with
it, or an error number. -/
structure Os where
  nanosleep : ℕ → ℕ → Option ℕ
  others : ℕ → (ℕ → WineEvent) → ℕ → WineEvent
  mmap : Mmap → Bytes → Except Errno (Ptr × Bytes)

/-- What `sysv_mmap` returns, where `MAP_FAILED` is `none`.  On `i386` a call that fails returns the
negative error number, and only that of `EPERM` is `MAP_FAILED`. -/
def sysvMmap {α : Type} (b : Build) (result : Ptr → α) : Except Errno α → Option α
  | .ok r => some r
  | .error e => if b = .i386 ∧ e ≠ eperm then some (result (0x100000000 - e)) else none

/-- The address is a negative error number. -/
def isErrno (b : Build) (a : ℕ) : Bool := b = .i386 ∧ 0xFFFFF000 < a ∧ a < 0x100000000

def statusSuccess : ℕ := 0
def statusUnsuccessful : ℕ := 0xC0000001
def statusInvalidHandle : ℕ := 0xC0000008
def statusInvalidParameter : ℕ := 0xC000000D
def statusMemoryNotAvailable : ℕ := 0xC0000098
def statusTimeout : ℕ := 0x80

def toInt (n : ℕ) : ℤ := Int.bmod n (2 ^ 32)

def ofInt (z : ℤ) : ℕ := (z % 2 ^ 64).toNat

end Ntdll

namespace Syscall

def Param.isNull : Param → Bool
  | .val p => p = 0
  | .ref _ => false

def Store.load (s : Store) : Param → ℕ
  | .val p => s.mem.readLE p 8
  | .ref n => s.val n

def Store.value (s : Store) (p : Param) : ℕ := if p.isNull then 0 else s.load p

def Store.store (s : Store) (v : ℕ) : Param → Store
  | .val p => { s with mem := s.mem.writeLE p 8 v }
  | .ref n => { s with val := Function.update s.val n v }

def Store.storeUnlessNull (s : Store) (v : ℕ) (p : Param) : Store :=
  if p.isNull then s else s.store v p

end Syscall
