import MyWine.HandleManager

/-!
# Creation and destruction of windows

`msvcrt/user32_window_lifecycle.c`, with `CreateWindowExA` and `DestroyWindow` of
`msvcrt/user32_window.c` and the focus of `msvcrt/user32_focus.c`.  Both calls send messages to the
procedure of the window, which is guest code and may call them again.  So the guest is a sequence of
calls and of returns from procedures (`WinCall`), and what is left to do of the pending calls is a
stack (`Frame`).  `WM_ACTIVATE`, `WM_KILLFOCUS` and `WM_SETFOCUS` are sent to procedures that do
nothing about windows.

The entries of windows are numbered in the order of their allocation, and the number of an entry
stands for its address.  A number is not given twice, so that an entry that has been freed can be told
from a later one.  The state records which entries have been freed, and whether one was used after
that.
-/

namespace User32

open HandleManager

def handleTypeHwin : UInt8 := 0x60

def handleTypeRbWindow : UInt8 := 0x63

def toHandle (hwnd : ℕ) : ℕ := hwnd % 2 ^ 32

def getWindowEntry (t : HandleTable) (hwnd : ℕ) : Ptr :=
  let obj := wineHandleGet t (toHandle hwnd)
  if obj = 0 ∨ wineHandleGetType t (toHandle hwnd) ≠ handleTypeHwin then 0 else obj

/-- `wine_window_entry`, as far as creation and destruction read it. -/
structure WindowEntry where
  sdlWindow : ℕ
  wndProc : Ptr
  destroyInProgress : Bool

/-- A call that waits for the procedure of a window to return, by the message that was sent. -/
inductive Frame where
  | ncCreate (entry : Ptr) (handle rbWin : ℕ)
  | create (entry : Ptr) (handle rbWin : ℕ)
  | destroy (hwnd : ℕ) (entry : Ptr)
  | ncDestroy (hwnd : ℕ) (entry : Ptr)

/-- The handle table, the entries of windows, the variables of `user32_window_lifecycle.c` and
`user32_focus.c`, and the calls that wait. -/
structure WinState where
  handles : HandleTable
  entries : Ptr → WindowEntry
  allocated : ℕ
  freed : List Ptr
  usedFreed : Bool
  liveWindows : ℤ
  activeWindow : ℕ
  focusWindow : ℕ
  stack : List Frame

namespace WinState

def use (entry : Ptr) (s : WinState) : WinState :=
  { s with usedFreed := s.usedFreed || s.freed.contains entry }

def heapFree (entry : Ptr) (s : WinState) : WinState :=
  { s with freed := s.freed ++ [entry] }

end WinState

/-! ### The backend -/

/-- `rb_window_create`, when the host has made the record `win` of a window, or none if `win` is
`NULL`. -/
def rbWindowCreate (t : HandleTable) (win : Ptr) : ℕ × HandleTable :=
  if win = 0 then (0, t) else wineHandleAlloc t handleTypeRbWindow win

def rbWindowDestroy (t : HandleTable) (win : ℕ) : HandleTable :=
  if wineHandleGetType t (toHandle win) = handleTypeRbWindow ∧ wineHandleGet t (toHandle win) ≠ 0 then
    wineHandleFree t (toHandle win)
  else t

/-! ### Focus -/

def getActiveWindow (s : WinState) : ℕ :=
  if getWindowEntry s.handles s.activeWindow ≠ 0 then s.activeWindow else 0

def getFocusWindow (s : WinState) : ℕ :=
  if getWindowEntry s.handles s.focusWindow ≠ 0 then s.focusWindow else 0

def findReplacementWindow (t : HandleTable) (exclude : ℕ) : ℕ :=
  let found := Table.firstSlot fun i : Fin handleTableSize =>
    decide (1 ≤ i.val ∧ i.val ≠ exclude ∧ wineHandleGetType t i.val = handleTypeHwin ∧
      wineHandleGet t i.val ≠ 0)
  match found with
  | some i => i.val
  | none => 0

def sendFocusTransition (previous target : ℕ) (s : WinState) : WinState :=
  let prevEntry := getWindowEntry s.handles previous
  let targetEntry := getWindowEntry s.handles target
  if previous = target then s
  else
    let s := if prevEntry ≠ 0 then s.use prevEntry else s
    if targetEntry ≠ 0 then s.use targetEntry else s

def setForegroundFocus (target : ℕ) (s : WinState) : WinState :=
  let previousFocus := getFocusWindow s
  let previousActive := getActiveWindow s
  let window := if getWindowEntry s.handles target ≠ 0 then target else 0
  let s := { s with focusWindow := window, activeWindow := window }
  sendFocusTransition (if previousFocus ≠ 0 then previousFocus else previousActive) target s

def updateWindowOwnershipAfterDestroy (destroyed : ℕ) (s : WinState) : WinState :=
  let replacement := findReplacementWindow s.handles destroyed
  { s with
    activeWindow := if s.activeWindow = destroyed then replacement else s.activeWindow
    focusWindow := if s.focusWindow = destroyed then replacement else s.focusWindow }

/-! ### Creation -/

def cleanupFailedCreate (entry : Ptr) (rbWin handle : ℕ) (decrementLiveWindows : Bool)
    (s : WinState) : WinState :=
  let live := if decrementLiveWindows ∧ 0 < s.liveWindows then s.liveWindows - 1 else s.liveWindows
  let t := if rbWin ≠ 0 then rbWindowDestroy s.handles rbWin else s.handles
  let t := if handle ≠ 0 then wineHandleFree t (toHandle handle) else t
  let s := { s with liveWindows := live, handles := t }
  if entry ≠ 0 then s.heapFree entry else s

def afterCreate (entry : Ptr) (handle rbWin : ℕ) (result : ℤ) (s : WinState) : WinState :=
  if result = -1 then cleanupFailedCreate entry rbWin handle true s
  else setForegroundFocus handle s

def afterNcCreate (entry : Ptr) (handle rbWin : ℕ) (result : ℤ) (s : WinState) : WinState :=
  if result = 0 then cleanupFailedCreate entry rbWin handle true s
  else
    let s := s.use entry
    if (s.entries entry).wndProc ≠ 0 then
      { s with stack := .create entry handle rbWin :: s.stack }
    else afterCreate entry handle rbWin 0 s

/-- What a call of `CreateWindowExA` meets: whether there is a backend, the procedure of the class if
it is registered, whether there is memory for the entry, the window of the host, and whether it can be
attached. -/
structure CreateArgs where
  backend : Bool
  wndProc : Option Ptr
  memory : Bool
  win : Ptr
  attached : Bool

/-- The part of `user32_finish_window_create` from the handle of the window to the first message. -/
def registerWindow (entry : Ptr) (rbWin : ℕ) (attached : Bool) (s : WinState) : WinState :=
  let r := wineHandleAlloc s.handles handleTypeHwin entry
  let handle := r.1
  if handle = 0 then cleanupFailedCreate entry rbWin 0 false { s with handles := r.2 }
  else
    let s := { s with handles := r.2, liveWindows := s.liveWindows + 1 }
    if !attached then cleanupFailedCreate entry rbWin handle true s
    else
      let s := s.use entry
      if (s.entries entry).wndProc ≠ 0 then
        { s with stack := .ncCreate entry handle rbWin :: s.stack }
      else afterNcCreate entry handle rbWin 1 s

def finishWindowCreate (entry : Ptr) (win : Ptr) (attached : Bool) (s : WinState) : WinState :=
  let r := rbWindowCreate s.handles win
  let rbWin := r.1
  let s := { s with handles := r.2 }
  if rbWin = 0 then cleanupFailedCreate entry 0 0 false s
  else
    let s := s.use entry
    let s := { s with
      entries := Function.update s.entries entry { s.entries entry with sdlWindow := rbWin } }
    registerWindow entry rbWin attached s

def createWindowExA (args : CreateArgs) (s : WinState) : WinState :=
  if !args.backend then s
  else
    match args.wndProc with
    | none => s
    | some wndProc =>
      if !args.memory then s
      else
        let entry := s.allocated + 1
        let s := { s with
          allocated := entry
          entries := Function.update s.entries entry ⟨0, wndProc, false⟩ }
        finishWindowCreate entry args.win args.attached s

/-! ### Destruction -/

/-- The rest of `user32_finish_window_destroy` when the procedure has returned from
`WM_NCDESTROY`. -/
def afterNcDestroy (hwnd : ℕ) (entry : Ptr) (s : WinState) : WinState :=
  let s := s.use entry
  let t := rbWindowDestroy s.handles (s.entries entry).sdlWindow
  let t := wineHandleFree t (toHandle hwnd)
  let s := { s with handles := t }
  let s := s.heapFree entry
  let s := { s with liveWindows := if 0 < s.liveWindows then s.liveWindows - 1 else s.liveWindows }
  updateWindowOwnershipAfterDestroy hwnd s

def WinState.setDestroyInProgress (entry : Ptr) (s : WinState) : WinState :=
  { s with
    entries := Function.update s.entries entry { s.entries entry with destroyInProgress := true } }

def destroyWindow (hwnd : ℕ) (s : WinState) : WinState :=
  let entry := getWindowEntry s.handles hwnd
  if entry = 0 then s
  else
    let s := s.use entry
    if (s.entries entry).destroyInProgress then s
    else
      let s := s.setDestroyInProgress entry
      if (s.entries entry).wndProc ≠ 0 then { s with stack := .destroy hwnd entry :: s.stack }
      else afterNcDestroy hwnd entry s

/-! ### Steps -/

def resume (result : ℤ) (s : WinState) : Frame → WinState
  | .ncCreate entry handle rbWin => afterNcCreate entry handle rbWin result s
  | .create entry handle rbWin => afterCreate entry handle rbWin result s
  | .destroy hwnd entry =>
    let s := s.use entry
    if (s.entries entry).wndProc ≠ 0 then { s with stack := .ncDestroy hwnd entry :: s.stack }
    else afterNcDestroy hwnd entry s
  | .ncDestroy hwnd entry => afterNcDestroy hwnd entry s

/-- What the guest does: a call, or the return from the procedure that was called last. -/
inductive WinCall where
  | create (args : CreateArgs)
  | destroy (hwnd : ℕ)
  | ret (result : ℤ)

def winStep (s : WinState) : WinCall → WinState
  | .create args => createWindowExA args s
  | .destroy hwnd => destroyWindow hwnd s
  | .ret result =>
    match s.stack with
    | [] => s
    | frame :: stack => resume result { s with stack } frame

def WinState.start (t : HandleTable) : WinState where
  handles := t
  entries _ := ⟨0, 0, false⟩
  allocated := 0
  freed := []
  usedFreed := false
  liveWindows := 0
  activeWindow := 0
  focusWindow := 0
  stack := []

end User32
