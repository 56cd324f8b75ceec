import MyWine.Lib.Loop
import MyWine.User32.MessageQueue
import Mathlib.Data.Int.Notation

/-!
# Events of the SDL backend

`backend/sdl2/rb_event_keyboard.c`, the synthetic queue and the routes of `rb_event_state.c`, the
Alt key and the focus of `rb_event_focus.c`, and `rb_event_wait` and `rb_event_peek` of
`rb_event_queue.c`.

A key event reaches the guest on one of two ways.  SDL calls `rb_event_watch` when the event enters
its queue, and the watch puts a message into the synthetic queue and notes the event.  When the event
comes out of SDL's queue, `rb_event_translate_key_event` drops it if it was noted, and otherwise
translates it.

The messages of the model carry the key event they were made from, and the state logs the key events
that entered SDL's queue and the messages that the guest was given.  The program knows neither.  What
`rb_keyboard_note_key_event` keeps for `GetAsyncKeyState` is left out.  The events of the mouse and of
windows other than the focus events are translated to a message that comes with the event.
-/

namespace Sdl2

open User32 (RbMsg wmKeydown wmKeyup wmSyskeydown wmSyskeyup)

def wmActivate : ℕ := 0x0006
def wmSetfocus : ℕ := 0x0007
def wmKillfocus : ℕ := 0x0008
def wmClose : ℕ := 0x0010
def wmChar : ℕ := 0x0102

def vkF4 : ℕ := 0x73

/-! ### Keys -/

/-- `SDL_KeyboardEvent`: `down` tells `SDL_KEYDOWN` from `SDL_KEYUP`. -/
structure KeyEvent where
  down : Bool
  timestamp : ℕ
  windowID : ℕ
  scancode : ℕ
  sym : ℤ
  mod : ℕ
  isRepeat : Bool
  deriving DecidableEq

def scancodeToKeycode (scancode : ℕ) : ℤ := 0x40000000 + scancode

def sdlkLalt : ℤ := scancodeToKeycode 226
def sdlkRalt : ℤ := scancodeToKeycode 230

def kmodAlt : ℕ := 0x300

/-- The entries of `g_vk_to_scancode` outside of the ranges of digits, letters and function keys. -/
def vkScancodes : List (ℕ × ℕ) := [
  (0x08, 42), (0x09, 43), (0x0D, 40), (0x13, 72), (0x1B, 41), (0x20, 44),
  -- `VK_PRIOR`, `VK_NEXT`, `VK_END`, `VK_HOME`, the arrows, `VK_INSERT` and `VK_DELETE`
  (0x21, 75), (0x22, 78), (0x23, 77), (0x24, 74), (0x25, 80), (0x26, 82), (0x27, 79), (0x28, 81),
  (0x2D, 73), (0x2E, 76),
  (0x30, 39), (0x60, 98),
  -- the left and right modifiers, and the generic ones, which stand for the left ones
  (0xA0, 225), (0xA1, 229), (0xA2, 224), (0xA3, 228), (0xA4, 226), (0xA5, 230),
  (0x10, 225), (0x11, 224), (0x12, 226)]

def vkToScancode (vk : ℕ) : ℕ :=
  if 0x31 ≤ vk ∧ vk ≤ 0x39 then 30 + (vk - 0x31)
  else if 0x41 ≤ vk ∧ vk ≤ 0x5A then 4 + (vk - 0x41)
  else if 0x61 ≤ vk ∧ vk ≤ 0x69 then 89 + (vk - 0x61)
  else if 0x70 ≤ vk ∧ vk ≤ 0x7B then 58 + (vk - 0x70)
  else (vkScancodes.lookup vk).getD 0

def scancodeToVk (scancode : ℕ) : Option ℕ :=
  (List.range 256).find? fun vk => vkToScancode vk = scancode

/-- The cases of the `switch` in `rb_keycode_to_vk`. -/
def keycodeVks : List (ℤ × ℕ) := [
  (0x08, 0x08), (0x09, 0x09), (0x0D, 0x0D), (0x1B, 0x1B), (0x20, 0x20),
  (scancodeToKeycode 75, 0x21), (scancodeToKeycode 78, 0x22), (scancodeToKeycode 77, 0x23),
  (scancodeToKeycode 74, 0x24), (scancodeToKeycode 80, 0x25), (scancodeToKeycode 82, 0x26),
  (scancodeToKeycode 79, 0x27), (scancodeToKeycode 81, 0x28), (scancodeToKeycode 73, 0x2D),
  (0x7F, 0x2E),
  -- `SDLK_F1` to `SDLK_F12`
  (scancodeToKeycode 58, 0x70), (scancodeToKeycode 59, 0x71), (scancodeToKeycode 60, 0x72),
  (scancodeToKeycode 61, 0x73), (scancodeToKeycode 62, 0x74), (scancodeToKeycode 63, 0x75),
  (scancodeToKeycode 64, 0x76), (scancodeToKeycode 65, 0x77), (scancodeToKeycode 66, 0x78),
  (scancodeToKeycode 67, 0x79), (scancodeToKeycode 68, 0x7A), (scancodeToKeycode 69, 0x7B),
  -- the modifiers
  (scancodeToKeycode 225, 0xA0), (scancodeToKeycode 229, 0xA1), (scancodeToKeycode 224, 0xA2),
  (scancodeToKeycode 228, 0xA3), (sdlkLalt, 0xA4), (sdlkRalt, 0xA5)]

def keycodeToVk (sym : ℤ) (scancode : ℕ) : Option ℕ :=
  if 97 ≤ sym ∧ sym ≤ 122 then some (0x41 + (sym - 97).toNat)
  else if 48 ≤ sym ∧ sym ≤ 57 then some (0x30 + (sym - 48).toNat)
  else
    match keycodeVks.lookup sym with
    | some vk => some vk
    | none => scancodeToVk scancode

def KeyEvent.vk (k : KeyEvent) : Option ℕ := keycodeToVk k.sym k.scancode

/-- The cases of the `switch` in `rb_build_key_lparam`: the scancode of SDL, the one of the keyboard,
and whether the key is an extended one. -/
def keyboardScancodes : List (ℕ × ℕ × Bool) := [
  (41, 0x01, false), (30, 0x02, false), (31, 0x03, false), (32, 0x04, false), (33, 0x05, false),
  (34, 0x06, false), (35, 0x07, false), (36, 0x08, false), (37, 0x09, false), (38, 0x0a, false),
  (39, 0x0b, false), (45, 0x0c, false), (46, 0x0d, false), (42, 0x0e, false), (43, 0x0f, false),
  -- from `SDL_SCANCODE_Q`
  (20, 0x10, false), (26, 0x11, false), (8, 0x12, false), (21, 0x13, false), (23, 0x14, false),
  (28, 0x15, false), (24, 0x16, false), (12, 0x17, false), (18, 0x18, false), (19, 0x19, false),
  (47, 0x1a, false), (48, 0x1b, false), (40, 0x1c, false), (224, 0x1d, false), (228, 0x1d, true),
  -- from `SDL_SCANCODE_A`
  (4, 0x1e, false), (22, 0x1f, false), (7, 0x20, false), (9, 0x21, false), (10, 0x22, false),
  (11, 0x23, false), (13, 0x24, false), (14, 0x25, false), (15, 0x26, false), (51, 0x27, false),
  (52, 0x28, false), (53, 0x29, false), (225, 0x2a, false), (49, 0x2b, false),
  -- from `SDL_SCANCODE_Z`
  (29, 0x2c, false), (27, 0x2d, false), (6, 0x2e, false), (25, 0x2f, false), (5, 0x30, false),
  (17, 0x31, false), (16, 0x32, false), (54, 0x33, false), (55, 0x34, false), (56, 0x35, false),
  (229, 0x36, false), (85, 0x37, false), (226, 0x38, false), (230, 0x38, true), (44, 0x39, false),
  (57, 0x3a, false),
  -- from `SDL_SCANCODE_F1`
  (58, 0x3b, false), (59, 0x3c, false), (60, 0x3d, false), (61, 0x3e, false), (62, 0x3f, false),
  (63, 0x40, false), (64, 0x41, false), (65, 0x42, false), (66, 0x43, false), (67, 0x44, false),
  (74, 0x47, true), (82, 0x48, true), (75, 0x49, true), (80, 0x4b, true), (79, 0x4d, true),
  (77, 0x4f, true), (81, 0x50, true), (78, 0x51, true), (73, 0x52, true), (76, 0x53, true),
  (68, 0x57, false), (69, 0x58, false)]

def isSystemKeyEvent (alt : Bool) (k : KeyEvent) : Bool :=
  k.sym = sdlkLalt ∨ k.sym = sdlkRalt ∨ alt ∨ k.mod &&& kmodAlt ≠ 0

def buildKeyLparam (alt : Bool) (k : KeyEvent) (isKeyup : Bool) : ℕ :=
  let code := (keyboardScancodes.lookup k.scancode).getD (k.scancode &&& 0x7f, false)
  let lparam := 1 ||| ((code.1 &&& 0xff) <<< 16)
  let lparam := if isSystemKeyEvent alt k then lparam ||| (1 <<< 29) else lparam
  let lparam := if code.2 then lparam ||| (1 <<< 24) else lparam
  let lparam := if k.isRepeat ∨ isKeyup then lparam ||| (1 <<< 30) else lparam
  if isKeyup then lparam ||| (1 <<< 31) else lparam

def keyMessage (alt : Bool) (k : KeyEvent) (vk hwnd : ℕ) : RbMsg where
  hwnd := hwnd
  message :=
    if k.down then (if isSystemKeyEvent alt k then wmSyskeydown else wmKeydown)
    else (if isSystemKeyEvent alt k then wmSyskeyup else wmKeyup)
  wParam := vk
  lParam :=
    let lparam := buildKeyLparam alt k (!k.down)
    if k.down then (lparam &&& 0xbfffffff : ℕ) else lparam
  time := k.timestamp
  ptX := 0
  ptY := 0

/-! ### The state -/

/-- An event of SDL: a key event, a text event, a focus event of a window, or another event with the
message that its translation gives. -/
inductive SdlEvent where
  | key (k : KeyEvent)
  | text (windowID char timestamp : ℕ)
  | focus (gained : Bool) (windowID : ℕ)
  | other (msg : Option RbMsg)
  deriving DecidableEq

def SdlEvent.key? : SdlEvent → Option KeyEvent
  | .key k => some k
  | _ => none

structure WatchEntry where
  down : Bool
  timestamp : ℕ
  windowID : ℕ
  scancode : ℕ
  sym : ℤ
  deriving DecidableEq

def KeyEvent.watchEntry (k : KeyEvent) : WatchEntry :=
  ⟨k.down, k.timestamp, k.windowID, k.scancode, k.sym⟩

/-- A message with the key event that it was made from. -/
structure Tagged where
  origin : Option KeyEvent
  msg : RbMsg
  deriving DecidableEq

/-- `g_alt_key_down`, `g_active_window`, the windows and the SDL windows of `g_window_routes`,
`g_key_watch_queue`, `g_synthetic_queue` with its capacity, the queue of SDL, and the log. -/
structure Events where
  altKeyDown : Bool
  activeWindow : ℕ
  windowRoutes : List (ℕ × ℕ)
  keyWatchQueue : List WatchEntry
  syntheticQueue : List Tagged
  syntheticCapacity : ℕ
  sdlQueue : List SdlEvent
  entered : List KeyEvent
  delivered : List Tagged
  deriving DecidableEq

def Events.initial : Events := ⟨false, 0, [], [], [], 0, [], [], []⟩

namespace Events

def resolveHwnd (s : Events) (windowID : ℕ) : ℕ :=
  if windowID = 0 then 0
  else
    match s.windowRoutes.find? fun r => r.1 ≠ 0 ∧ r.2 = windowID with
    | some r => r.1
    | none => 0

/-- The window that an event goes to: the one of its SDL window, or else the active one. -/
def target (s : Events) (windowID : ℕ) : ℕ :=
  if s.resolveHwnd windowID = 0 then s.activeWindow else s.resolveHwnd windowID

/-- `rb_event_push_synthetic`, where `mem` tells whether `realloc` succeeds if it is called. -/
def pushSynthetic (s : Events) (mem : Bool) (m : Tagged) : Option Events :=
  let needed := s.syntheticQueue.length + 1
  if needed ≤ s.syntheticCapacity then some { s with syntheticQueue := s.syntheticQueue ++ [m] }
  else if mem then
    let first := if s.syntheticCapacity = 0 then 8 else s.syntheticCapacity * 2
    some { s with
      syntheticQueue := s.syntheticQueue ++ [m]
      syntheticCapacity := Loop.doubleCapacity needed needed first }
  else none

def post (s : Events) (mem : Bool) (m : Tagged) : Events := (s.pushSynthetic mem m).getD s

def popSynthetic (s : Events) : Option (Tagged × Events) :=
  match s.syntheticQueue with
  | [] => none
  | m :: queue => some (m, { s with syntheticQueue := queue })

/-! ### The watch -/

def keyWatchQueueCapacity : ℕ := 64

def noteWatchedKey (s : Events) (k : KeyEvent) : Events :=
  let queue :=
    if keyWatchQueueCapacity ≤ s.keyWatchQueue.length then s.keyWatchQueue.tail
    else s.keyWatchQueue
  { s with keyWatchQueue := queue ++ [k.watchEntry] }

def takeWatchedKey (s : Events) (k : KeyEvent) : Option Events :=
  if k.watchEntry ∈ s.keyWatchQueue then
    some { s with keyWatchQueue := s.keyWatchQueue.erase k.watchEntry }
  else none

def watch (s : Events) (mem : Bool) : SdlEvent → Events
  | .key k =>
    match k.vk with
    | none => s
    | some vk =>
      let hwnd := s.target k.windowID
      if hwnd = 0 then s
      else (s.post mem ⟨some k, keyMessage s.altKeyDown k vk hwnd⟩).noteWatchedKey k
  | _ => s

/-- An event that enters SDL's queue, and whether there is memory for the message of the watch. -/
structure Arrival where
  event : SdlEvent
  mem : Bool

def arrive (s : Events) (a : Arrival) : Events :=
  let s := s.watch a.mem a.event
  { s with
    sdlQueue := s.sdlQueue ++ [a.event]
    entered := s.entered ++ a.event.key?.toList }

def pump (s : Events) (arrivals : List Arrival) : Events := arrivals.foldl arrive s

/-! ### Translation -/

def noteAltKey (s : Events) (down : Bool) (sym : ℤ) : Events :=
  if sym = sdlkLalt ∨ sym = sdlkRalt then { s with altKeyDown := down } else s

def translateKeyEvent (s : Events) (k : KeyEvent) : Events × Option Tagged :=
  match s.takeWatchedKey k with
  | some s => (s, none)
  | none =>
    let hwnd := s.target k.windowID
    if hwnd = 0 then (s, none)
    else
      let s := if k.down then s.noteAltKey true k.sym else s
      match k.vk with
      | none => (s, none)
      | some vk =>
        if k.down ∧ isSystemKeyEvent s.altKeyDown k ∧ vk = vkF4 then
          (s, some ⟨some k, ⟨hwnd, wmClose, 0, 0, k.timestamp, 0, 0⟩⟩)
        else if k.down = false ∧ isSystemKeyEvent s.altKeyDown k ∧ vk = vkF4 then
          (s.noteAltKey false k.sym, none)
        else
          let m : Tagged := ⟨some k, keyMessage s.altKeyDown k vk hwnd⟩
          if k.down then (s, some m) else (s.noteAltKey false k.sym, some m)

/-- `rb_event_queue_focus_messages`, with the results of `realloc` for the two messages. -/
def queueFocusMessages (s : Events) (mem : Bool × Bool) (hwnd : ℕ) (gained : Bool) : Events :=
  if hwnd = 0 then s
  else
    let activate : RbMsg := ⟨hwnd, wmActivate, if gained then 1 else 0, 0, 0, 0, 0⟩
    let focus : RbMsg := ⟨hwnd, if gained then wmSetfocus else wmKillfocus, 0, 0, 0, 0, 0⟩
    (s.post mem.1 ⟨none, activate⟩).post mem.2 ⟨none, focus⟩

def activateWindow (s : Events) (mem : Bool × Bool) (hwnd : ℕ) : Events :=
  if hwnd = 0 then s
  else { s with activeWindow := hwnd }.queueFocusMessages mem hwnd true

def popOrNone (s : Events) : Events × Option Tagged :=
  match s.popSynthetic with
  | some (m, s) => (s, some m)
  | none => (s, none)

def translateFocusWindowEvent (s : Events) (mem : Bool × Bool) (gained : Bool) (hwnd : ℕ) :
    Events × Option Tagged :=
  if hwnd = 0 then (s, none)
  else if gained then ({ s with activeWindow := hwnd }.queueFocusMessages mem hwnd true).popOrNone
  else if s.activeWindow = hwnd then
    let s := s.queueFocusMessages mem hwnd false
    { s with activeWindow := 0, altKeyDown := false }.popOrNone
  else (s, none)

def translateSdlEvent (s : Events) (mem : Bool × Bool) : SdlEvent → Events × Option Tagged
  | .key k => s.translateKeyEvent k
  | .text windowID char timestamp =>
    let hwnd := s.target windowID
    if hwnd = 0 then (s, none)
    else (s, some ⟨none, ⟨hwnd, wmChar, char, 0, timestamp, 0, 0⟩⟩)
  | .focus gained windowID => s.translateFocusWindowEvent mem gained (s.resolveHwnd windowID)
  | .other msg => (s, msg.map (⟨none, ·⟩))

/-! ### Waiting and peeking -/

def next (s : Events) (mem : Bool × Bool) : Events × Option Tagged :=
  match s.sdlQueue with
  | [] => (s, none)
  | e :: queue => { s with sdlQueue := queue }.translateSdlEvent mem e

/-- What SDL and the rest of the backend do in a call of `rb_event_peek`, or in a round of the loop of
`rb_event_wait`: the events that enter SDL's queue, the message of `rb_event_translate_shutdown` or
`rb_event_translate_bad_window`, and the results of `realloc` in a translation. -/
structure Round where
  arrivals : List Arrival
  close : Option RbMsg
  mem : Bool × Bool

def peek (s : Events) (r : Round) : Events × Option Tagged :=
  let s := s.pump r.arrivals
  match s.popSynthetic with
  | some (m, s) => (s, some m)
  | none =>
    match r.close with
    | some m => (s, some ⟨none, m⟩)
    | none => s.next r.mem

/-- A round of the loop of `rb_event_wait`, which ends with the first message.
`SDL_WaitEventTimeout` lets events enter SDL's queue before it takes the first one. -/
def waitRound (s : Events) (r : Round) : Events × Option Tagged :=
  match s.popSynthetic with
  | some (m, s) => (s, some m)
  | none =>
    match r.close with
    | some m => (s, some ⟨none, m⟩)
    | none => (s.pump r.arrivals).next r.mem

/-! ### Runs -/

/-- What happens in a run: SDL pumps events, the guest peeks or goes through a round of waiting, a
message is pushed with `rb_event_push`, a window is activated, or the routes and the active window
change. -/
inductive Op where
  | pump (arrivals : List Arrival)
  | peek (r : Round)
  | waitRound (r : Round)
  | push (msg : RbMsg) (mem : Bool)
  | activate (hwnd : ℕ) (mem : Bool × Bool)
  | reroute (routes : List (ℕ × ℕ)) (active : ℕ)

def deliver : Events × Option Tagged → Events
  | (s, none) => s
  | (s, some m) => { s with delivered := s.delivered ++ [m] }

def step (s : Events) : Op → Events
  | .pump arrivals => s.pump arrivals
  | .peek r => deliver (s.peek r)
  | .waitRound r => deliver (s.waitRound r)
  | .push msg mem => s.post mem ⟨none, msg⟩
  | .activate hwnd mem => s.activateWindow mem hwnd
  | .reroute routes active => { s with windowRoutes := routes, activeWindow := active }

/-- The events that enter SDL's queue in a step.  A round of waiting that finds a message does not get to
SDL. -/
def arrivals (s : Events) : Op → List Arrival
  | .pump arrivals => arrivals
  | .peek r => r.arrivals
  | .waitRound r => if s.syntheticQueue = [] ∧ r.close = none then r.arrivals else []
  | _ => []

end Events

end Sdl2
