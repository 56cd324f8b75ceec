import MyWine.Ntdll.State

/-!
# Events and sleeps

The handlers of `NtSetEvent`, `NtResetEvent` and `NtWaitForSingleObject` of
`msvcrt/ntdll_synchronization.c`, and that of `NtDelayExecution` of `msvcrt/ntdll_time.c`.  The
loops of a wait need not end: they are given a number of iterations, and a wait that ends has a
result for all large numbers.
-/

namespace Ntdll

open Syscall

def findEvent (w : Objects) (handle : ℤ) : Option ℕ :=
  (List.range w.eventCount).find? fun i => (w.events i).handle = handle

def Objects.signaled (w : Objects) (slot : ℕ) : Bool := (w.events slot).signaled ≠ 0

def Objects.setSignaled (w : Objects) (slot : ℕ) (v : ℤ) : Objects :=
  { w with events := Function.update w.events slot { w.events slot with signaled := v } }

def changeEvent (v : ℤ) (handle : ℕ) (previousState : Param) (s : Store) (w : Objects) :
    ℕ × Store × Objects :=
  match findEvent w (toInt handle) with
  | none => (statusInvalidHandle, s, w)
  | some slot =>
    (statusSuccess, s.storeUnlessNull (ofInt (w.events slot).signaled) previousState,
      w.setSignaled slot v)

def handlerNtSetEvent (handle : ℕ) (previousState : Param) (s : Store) (w : Objects) :
    ℕ × Store × Objects :=
  changeEvent 1 handle previousState s w

def handlerNtResetEvent (handle : ℕ) (previousState : Param) (s : Store) (w : Objects) :
    ℕ × Store × Objects :=
  changeEvent 0 handle previousState s w

def Os.sleep (os : Os) (ns : ℕ) (w : Objects) : Option ℕ × Objects :=
  (os.nanosleep w.sleeps ns,
    { w with events := os.others w.sleeps w.events, sleeps := w.sleeps + 1 })

def Objects.consume (w : Objects) (slot : ℕ) : Objects :=
  if (w.events slot).eventType = 1 then w.setSignaled slot 0 else w

def poll (slot : ℕ) (w : Objects) : ℕ × Objects :=
  if w.signaled slot then (statusSuccess, w.consume slot) else (statusTimeout, w)

def waitForever (os : Os) (slot : ℕ) : ℕ → Objects → Option Objects
  | 0, _ => none
  | fuel + 1, w =>
    if w.signaled slot then some (w.consume slot)
    else waitForever os slot fuel (os.sleep 1000000 w).2

/-- The loop of a wait for `delayNs` nanoseconds, of which `elapsed` are over.  The remainder of an
interrupted sleep is added as if it were the time slept. -/
def waitRelative (os : Os) (slot delayNs : ℕ) : ℕ → ℕ → Objects → Option (ℕ × Objects)
  | 0, _, _ => none
  | fuel + 1, elapsed, w =>
    if elapsed < delayNs then
      if w.signaled slot then some (statusSuccess, w.consume slot)
      else
        let remaining := delayNs - elapsed
        let sleepUs := min (remaining / 1000) 100000
        let (rem, w) := os.sleep (sleepUs * 1000) w
        let slept := rem.getD (sleepUs * 1000)
        waitRelative os slot delayNs fuel ((elapsed + slept) % 2 ^ 64) w
    else some (poll slot w)

/-- The part of `handler_NtWaitForSingleObject` for a timeout that is given: zero and absolute times
look at the event once, a negative number is a duration in units of 100 nanoseconds. -/
def waitTimeout (os : Os) (fuel slot timeout : ℕ) (w : Objects) : Option (ℕ × Objects) :=
  if timeout = 0 then some (poll slot w)
  else if 2 ^ 63 ≤ timeout then
    waitRelative os slot ((2 ^ 64 - timeout) * 100 % 2 ^ 64) fuel 0 w
  else some (poll slot w)

def handlerNtWaitForSingleObject (os : Os) (fuel : ℕ) (handle : ℕ) (timeoutPtr : Param) (s : Store)
    (w : Objects) : Option (ℕ × Store × Objects) :=
  match findEvent w (toInt handle) with
  | none => some (statusInvalidHandle, s, w)
  | some slot =>
    if timeoutPtr.isNull then
      (waitForever os slot fuel w).map fun w => (statusSuccess, s, w)
    else
      (waitTimeout os fuel slot (s.load timeoutPtr) w).map fun (status, w) => (status, s, w)

def handlerNtDelayExecution (os : Os) (timeoutPtr : Param) (s : Store) (w : Objects) :
    ℕ × Store × Objects :=
  if timeoutPtr.isNull then (statusSuccess, s, w)
  else
    let timeout := s.load timeoutPtr
    if timeout < 2 ^ 63 then (statusSuccess, s, w)
    else
      let (rem, w) := os.sleep ((2 ^ 64 - timeout) * 100) w
      (if rem.isSome then statusUnsuccessful else statusSuccess, s, w)

end Ntdll
