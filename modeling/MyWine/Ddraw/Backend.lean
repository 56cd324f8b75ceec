import MyWine.Ddraw.Calls
import MyWine.User32.WindowLifecycle

/-!
# Backend surfaces

The surfaces and windows of `backend/sdl2/rb_surface.c`, `rb_window.c` and `rb_window_state.c`, as far
as their handles go, and the calls of the guest with the backend behind them.  The records of surfaces
and of windows are numbered from `1` on in the order in which they are made, so that no number is given
twice.  The handles are those of the handle table, which are given again.  `destroyed` counts how often
each surface has been destroyed.

A handle of a surface is the index of a slot of type `HANDLE_TYPE_RB_SURFACE` whose object is the
record.  The window of a flip chain has the handles of its primary surface and of its backbuffer, and
`rb_surface_destroy` of the former destroys the latter too.
-/

namespace Ddraw

open HandleManager References User32 Function

def handleTypeRbSurface : UInt8 := 0x64

def objectOf (t : HandleTable) (type : UInt8) (handle : ℕ) : Option Ptr :=
  if wineHandleGetType t handle = type then some (wineHandleGet t handle) else none

/-- `rb_window`, as far as its surfaces go. -/
structure RbWindow where
  primarySurface : ℕ
  backbuffer : ℕ

/-- The handle table, the records of surfaces, of which only `window` is kept, and of windows, and how
many have been made of each. -/
structure Backend where
  handles : HandleTable
  surfaceWindow : Ptr → ℕ
  windows : Ptr → RbWindow
  surfacesMade : ℕ
  windowsMade : ℕ
  destroyed : Ptr → ℕ

namespace Backend

def getSurface (b : Backend) (surf : ℕ) : Option Ptr := objectOf b.handles handleTypeRbSurface surf

def getWindow (b : Backend) (win : ℕ) : Option Ptr := objectOf b.handles handleTypeRbWindow win

def setWindow (w : Ptr) (wnd : RbWindow) (b : Backend) : Backend :=
  { b with windows := update b.windows w wnd }

def setSurfaceWindow (surf win : ℕ) (b : Backend) : Backend :=
  match b.getSurface surf with
  | none => b
  | some s => { b with surfaceWindow := update b.surfaceWindow s win }

def freeSurface (surf : ℕ) (s : Ptr) (b : Backend) : Backend :=
  { b with handles := wineHandleFree b.handles surf, destroyed := more b.destroyed s }

end Backend

/-! ### Surfaces -/

/-- `rb_surface_create`, where `memory` says that SDL has made the surface and that there is memory for
the record.  The record stays when there is no handle for it. -/
def rbSurfaceCreate (memory : Bool) (b : Backend) : ℕ × Backend :=
  if !memory then (0, b)
  else
    let s := b.surfacesMade + 1
    let r := wineHandleAlloc b.handles handleTypeRbSurface s
    (r.1, { b with
      handles := r.2
      surfaceWindow := update b.surfaceWindow s 0
      surfacesMade := s })

/-- `rb_surface_destroy` of a surface whose `window` has been set to `0`, which is the call for the
backbuffer of a window. -/
def rbSurfaceFree (surf : ℕ) (b : Backend) : Backend :=
  match b.getSurface surf with
  | none => b
  | some s => b.freeSurface surf s

/-- The window of a surface that is destroyed forgets it, and if it is the primary surface of the
window, the backbuffer is destroyed. -/
def rbSurfaceForget (surf : ℕ) (s : Ptr) (b : Backend) : Backend :=
  let win := b.surfaceWindow s
  match if win ≠ 0 then b.getWindow win else none with
  | none => b
  | some w =>
    let wnd := b.windows w
    if wnd.primarySurface = surf then
      let b := b.setWindow w ⟨0, 0⟩
      if wnd.backbuffer ≠ 0 ∧ wnd.backbuffer ≠ surf then
        rbSurfaceFree wnd.backbuffer (b.setSurfaceWindow wnd.backbuffer 0)
      else b
    else if wnd.backbuffer = surf then b.setWindow w { wnd with backbuffer := 0 }
    else b

def rbSurfaceDestroy (surf : ℕ) (b : Backend) : Backend :=
  match b.getSurface surf with
  | none => b
  | some s => (rbSurfaceForget surf s b).freeSurface surf s

def rbSurfaceCreateFlipChain (win : ℕ) (backbufferCount : ℤ) (memory backMemory : Bool) (b : Backend) :
    ℕ × Backend :=
  let r := rbSurfaceCreate memory b
  let primary := r.1
  if primary = 0 then (0, r.2)
  else
    let b := r.2.setSurfaceWindow primary win
    match b.getWindow win with
    | none => (primary, b)
    | some w =>
      let wnd := b.windows w
      let b := if wnd.primarySurface ≠ 0 ∧ wnd.primarySurface ≠ primary then
          b.setSurfaceWindow wnd.primarySurface 0
        else b
      let b := if wnd.backbuffer ≠ 0 then
          rbSurfaceFree wnd.backbuffer (b.setSurfaceWindow wnd.backbuffer 0)
        else b
      let b := b.setWindow w ⟨primary, 0⟩
      if 0 < backbufferCount then
        let r := rbSurfaceCreate backMemory b
        if r.1 ≠ 0 then (primary, (r.2.setSurfaceWindow r.1 win).setWindow w ⟨primary, r.1⟩)
        else (primary, r.2)
      else (primary, b)

/-- The backbuffer of a new flip chain in `ddraw_create_flip_chain_surface`: that of the window, or
one that is made for it. -/
def chainBackbuffer (win : ℕ) (memory : Bool) (b : Backend) : ℕ × Backend :=
  match if win ≠ 0 then b.getWindow win else none with
  | none => (0, b)
  | some w =>
    let wnd := b.windows w
    if wnd.backbuffer ≠ 0 then (wnd.backbuffer, b)
    else
      let r := rbSurfaceCreate memory b
      if r.1 ≠ 0 then (r.1, r.2.setWindow w { wnd with backbuffer := r.1 }) else (0, r.2)

/-! ### Windows -/

/-- `rb_window_create`, where `created` says that the host has made the window and the record. -/
def Backend.createWindow (created : Bool) (b : Backend) : ℕ × Backend :=
  if !created then (0, b)
  else
    let w := b.windowsMade + 1
    let r := wineHandleAlloc b.handles handleTypeRbWindow w
    (r.1, { b with
      handles := r.2
      windows := update b.windows w ⟨0, 0⟩
      windowsMade := w })

def rbWindowDetachSurfaces (w : Ptr) (b : Backend) : Backend :=
  let wnd := b.windows w
  let b := if wnd.primarySurface ≠ 0 then b.setSurfaceWindow wnd.primarySurface 0 else b
  let b := if wnd.backbuffer ≠ 0 then
      rbSurfaceFree wnd.backbuffer (b.setSurfaceWindow wnd.backbuffer 0)
    else b
  b.setWindow w ⟨0, 0⟩

def Backend.destroyWindow (win : ℕ) (b : Backend) : Backend :=
  match b.getWindow win with
  | none => b
  | some w =>
    let b := rbWindowDetachSurfaces w b
    { b with handles := wineHandleFree b.handles win }

/-! ### The calls with the backend -/

/-- What a call of `CreateSurface` meets: whether there is a backend, whether there is memory for the
surfaces of the flip chain and for a backbuffer that is made after it, and for the objects. -/
structure Creation where
  backend : Bool
  primary : Bool
  chained : Bool
  fallback : Bool
  memory : Bool
  backMemory : Bool

def surfaceResults (o : Objects) (dd caps : ℕ) (backbufferCount : ℤ) (env : Creation) (b : Backend) :
    SurfaceResults × Backend :=
  let unmade := (⟨env.backend, 0, 0, env.memory, env.backMemory⟩, b)
  match o.dds dd with
  | none => unmade
  | some d =>
    if !env.backend then unmade
    else if caps &&& ddscapsPrimarysurface ≠ 0 ∧ d.rbWindow = 0 then unmade
    else if isFlipChain caps then
      let r := rbSurfaceCreateFlipChain d.rbWindow backbufferCount env.primary env.chained b
      if r.1 ≠ 0 ∧ env.memory then
        let r' := chainBackbuffer d.rbWindow env.fallback r.2
        (⟨env.backend, r.1, r'.1, env.memory, env.backMemory⟩, r'.2)
      else (⟨env.backend, r.1, 0, env.memory, env.backMemory⟩, r.2)
    else
      let r := rbSurfaceCreate env.primary b
      (⟨env.backend, r.1, 0, env.memory, env.backMemory⟩, r.2)

/-- The window that a DirectDraw object owns and that goes away with its last reference. -/
def ownedWindow (o : Objects) : ComCall → Option ℕ
  | .release (.dd dd) =>
    (o.dds dd).bind fun d =>
      if decrement d.refCount = 0 ∧ d.ownsWindow ∧ d.rbWindow ≠ 0 then some d.rbWindow else none
  | _ => none

/-- The objects with the references of the guest, the backend, and for each surface the backend surface
that was made for it. -/
structure SurfaceState where
  com : ComState
  backend : Backend
  made : ℕ → Ptr

/-- A call of the guest, with what it meets, and what happens to windows and to other handles. -/
inductive SurfaceCall
  | createSurface (dd caps : ℕ) (backbufferCount : ℤ) (env : Creation)
  | setDisplayMode (dd : ℕ) (supported created : Bool)
  | com (c : ComCall)
  | createWindow (created : Bool)
  | destroyWindow (win : ℕ)
  | handles (op : HandleOp)

namespace SurfaceState

/-- A call of the guest with the results that the backend has given, and the backend after them. -/
def call (c : ComCall) (b : Backend) (s : SurfaceState) : SurfaceState :=
  let r := comCall s.com.objs c
  let destroyed := r.destroyed.foldl (fun b surf => rbSurfaceDestroy surf b) b
  ⟨comStep s.com c,
    match ownedWindow s.com.objs c with
    | none => destroyed
    | some win => destroyed.destroyWindow win,
    fun x =>
      if x < s.com.objs.allocated then s.made x
      else ((r.objs.surfaces x).bind fun m => b.getSurface m.rbSurface).getD 0⟩

def step (s : SurfaceState) : SurfaceCall → SurfaceState
  | .createSurface dd caps backbufferCount env =>
    let r := surfaceResults s.com.objs dd caps backbufferCount env s.backend
    s.call (.createSurface dd caps r.1) r.2
  | .setDisplayMode dd supported created =>
    let r := match s.com.objs.dds dd with
      | none => (0, s.backend)
      | some d =>
        if supported ∧ d.rbWindow = 0 then s.backend.createWindow created else (0, s.backend)
    s.call (.setDisplayMode dd supported r.1) r.2
  | .com c => s.call c s.backend
  | .createWindow created => { s with backend := (s.backend.createWindow created).2 }
  | .destroyWindow win => { s with backend := s.backend.destroyWindow win }
  | .handles op =>
    { s with backend := { s.backend with handles := HandleManager.step s.backend.handles op } }

def start : SurfaceState :=
  ⟨.start, ⟨wineHandleManagerRuntimeInit, fun _ => 0, fun _ => ⟨0, 0⟩, 0, 0, fun _ => 0⟩, fun _ => 0⟩

end SurfaceState

end Ddraw
