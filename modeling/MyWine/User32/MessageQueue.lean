import MyWine.Lib.RingBuffer
import MyWine.Basic

/-!
# Message queues

`msvcrt/user32_message_queue.c`, and `GetMessageA` and `PeekMessageA` of `msvcrt/user32_message.c`.
Messages are posted by the guest or come from the backend.  The posted ones are kept in one ring
buffer, and those of the backend that a call had to pass over or only looked at in another one.

Every message that is accepted gets a serial number (`Arrival`), and the state logs what becomes of
it.  The program knows neither.  What the backend answers during a call is an argument of the call:
the messages that `rb_event_wait` or `rb_event_peek` would return one after the other, until there is
none.
-/

namespace User32

structure RbMsg where
  hwnd : ℕ
  message : ℕ
  wParam : ℕ
  lParam : ℤ
  time : ℕ
  ptX : ℤ
  ptY : ℤ
  deriving DecidableEq

/-- Where a message comes from. -/
inductive Source where
  | posted
  | backend
  deriving DecidableEq

/-- A message that has been accepted. -/
structure Arrival where
  msg : RbMsg
  source : Source
  serial : ℕ
  deriving DecidableEq

def wmQuit : ℕ := 0x0012
def wmKeydown : ℕ := 0x0100
def wmKeyup : ℕ := 0x0101
def wmSyskeydown : ℕ := 0x0104
def wmSyskeyup : ℕ := 0x0105

def queueCapacity : ℕ := 64

/-- The queues `g_posted_queue` and `g_translated_queue` by where their messages come from, the pending
quit message, the windows that `get_window_entry` finds, and the log: the messages that were accepted,
delivered by a call that removes them, discarded because their window is gone, and lost. -/
structure MsgState where
  queue : Source → RingBuffer Arrival queueCapacity
  quitPending : Bool
  quitExitCode : ℤ
  alive : ℕ → Bool
  arrived : List Arrival
  delivered : List Arrival
  discarded : List Arrival
  lost : List Arrival

def MsgState.arrival (s : MsgState) (source : Source) (msg : RbMsg) : Arrival :=
  ⟨msg, source, s.arrived.length⟩

/-! ### Filters -/

/-- The window and the range of messages that a call asks for. -/
structure MsgFilter where
  hwnd : ℕ
  min : ℕ
  max : ℕ

def isKeyboardMessage (message : ℕ) : Bool :=
  message = wmKeydown ∨ message = wmKeyup ∨ message = wmSyskeydown ∨ message = wmSyskeyup

section

variable (alive : ℕ → Bool)

def messageTargetAlive (a : Arrival) : Bool :=
  a.msg.message = wmQuit ∨ a.msg.hwnd = 0 ∨ alive a.msg.hwnd

def messageMatchesFilter (f : MsgFilter) (a : Arrival) : Bool :=
  let message := a.msg.message
  if message = wmQuit then true
  else
    let hwnd := if isKeyboardMessage message then 0 else f.hwnd
    let hwnd := if hwnd ≠ 0 ∧ alive hwnd = false then 0 else hwnd
    if hwnd ≠ 0 ∧ a.msg.hwnd ≠ hwnd then false
    else if f.min = 0 ∧ f.max = 0 then true
    else if f.max = 0 then f.min ≤ message
    else f.min ≤ message ∧ message ≤ f.max

/-! ### The queues -/

def takeMatching (remove : Bool) (f : MsgFilter) (q : RingBuffer Arrival queueCapacity) :
    Option Arrival × RingBuffer Arrival queueCapacity :=
  let q := q.keep (messageTargetAlive alive)
  match q.takeFirst remove (messageMatchesFilter alive f) with
  | none => (none, q)
  | some (a, q) => (some a, q)

def deadMessages (q : RingBuffer Arrival queueCapacity) : List Arrival :=
  q.toList.filter fun a => !messageTargetAlive alive a

end

def MsgState.deliver (remove : Bool) (a : Arrival) (s : MsgState) : MsgState :=
  if remove then { s with delivered := s.delivered ++ [a] } else s

def MsgState.setQueue (source : Source) (q : RingBuffer Arrival queueCapacity) (s : MsgState) :
    MsgState :=
  { s with queue := Function.update s.queue source q }

@[simp]
theorem MsgState.queue_setQueue (source : Source) (q : RingBuffer Arrival queueCapacity)
    (s : MsgState) :
  (s.setQueue source q).queue source = q
  := by
  simp [setQueue]

def MsgState.take (source : Source) (remove : Bool) (f : MsgFilter) (s : MsgState) :
    Option Arrival × MsgState :=
  let q := s.queue source
  let r := takeMatching s.alive remove f q
  let s := { s.setQueue source r.2 with discarded := s.discarded ++ deadMessages s.alive q }
  match r.1 with
  | none => (none, s)
  | some a => (some a, s.deliver remove a)

def MsgState.queued (s : MsgState) : List Arrival :=
  (s.queue .posted).toList ++ (s.queue .backend).toList

/-- The loop of `user32_fetch_queued_message`, for the messages that the backend has.  A message is
lost if it is `WM_NULL`, and if there is no room for it when it should be kept. -/
def fetchLoop (remove : Bool) (f : MsgFilter) :
    List RbMsg → MsgState → Option Arrival × MsgState
  | [], s => (none, s)
  | msg :: incoming, s =>
    let a := s.arrival .backend msg
    let s := { s with arrived := s.arrived ++ [a] }
    if msg.message = 0 then (none, { s with lost := s.lost ++ [a] })
    else if !messageTargetAlive s.alive a then
      fetchLoop remove f incoming { s with discarded := s.discarded ++ [a] }
    else if messageMatchesFilter s.alive f a then
      if remove then (some a, s.deliver true a)
      else
        match (s.queue .backend).push a with
        | none => (none, { s with lost := s.lost ++ [a] })
        | some q => (some a, s.setQueue .backend q)
    else
      match (s.queue .backend).push a with
      | none => (none, { s with lost := s.lost ++ [a] })
      | some q => fetchLoop remove f incoming (s.setQueue .backend q)

def fetchQueuedMessage (remove : Bool) (f : MsgFilter) (incoming : List RbMsg) (s : MsgState) :
    Option Arrival × MsgState :=
  match s.take .posted remove f with
  | (some a, s) => (some a, s)
  | (none, s) =>
    match s.take .backend remove f with
    | (some a, s) => (some a, s)
    | (none, s) => fetchLoop remove f incoming s

/-! ### The calls -/

def postMessageA (hwnd message wParam : ℕ) (lParam : ℤ) (s : MsgState) : Bool × MsgState :=
  if hwnd ≠ 0 ∧ s.alive hwnd = false then (false, s)
  else
    let a := s.arrival .posted ⟨hwnd, message, wParam, lParam, 0, 0, 0⟩
    match (s.queue .posted).push a with
    | none => (false, s)
    | some q => (true, { s.setQueue .posted q with arrived := s.arrived ++ [a] })

def postQuitMessage (exitCode : ℤ) (s : MsgState) : MsgState :=
  { s with quitPending := true, quitExitCode := exitCode }

def synthesizeQuitMessage (b : Build) (remove : Bool) (s : MsgState) : Option (RbMsg × MsgState) :=
  if s.quitPending then
    some (⟨0, wmQuit, (s.quitExitCode % b.ptrLimit).toNat, 0, 0, 0, 0⟩,
      if remove then { s with quitPending := false } else s)
  else none

def getMessageA (b : Build) (lpMsg : Ptr) (f : MsgFilter) (incoming : List RbMsg) (s : MsgState) :
    Bool × Option RbMsg × MsgState :=
  if lpMsg = 0 then (false, none, s)
  else
    match synthesizeQuitMessage b true s with
    | some (msg, s) => (false, some msg, s)
    | none =>
      match fetchQueuedMessage true f incoming s with
      | (none, s) => (false, none, s)
      | (some a, s) => (a.msg.message ≠ wmQuit, some a.msg, s)

def peekMessageA (b : Build) (lpMsg : Ptr) (f : MsgFilter) (wRemoveMsg : ℕ) (incoming : List RbMsg)
    (s : MsgState) : Bool × Option RbMsg × MsgState :=
  if lpMsg = 0 then (false, none, s)
  else
    let remove := wRemoveMsg &&& 1 ≠ 0
    match synthesizeQuitMessage b remove s with
    | some (msg, s) => (true, some msg, s)
    | none =>
      match fetchQueuedMessage remove f incoming s with
      | (none, s) => (false, none, s)
      | (some a, s) => (true, some a.msg, s)

end User32
