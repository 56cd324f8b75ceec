import MyWine.Basic
import MyWine.Lib.References

/-!
# DirectDraw objects

The objects of `msvcrt/ddraw_core.c`, `ddraw_surface.c`, `ddraw_surface_ops.c`, `ddraw_backend.c`,
`ddraw_palette.c` and `ddraw_clipper.c`, with their reference counts and the pointers between them.
An object is named by a number that stands for its address and is not given twice.  A palette and a
clipper are only their reference counts here.  The list of the surfaces of a DirectDraw object serves
to reset their `dd_owner` and is not kept.

What the backend answers is an argument: the handles of new backend surfaces, and whether there is
memory.  The release of a surface returns the handles of the backend surfaces that
`rb_surface_destroy` is called with, in order, because the objects do not depend on what it does.
-/

namespace Ddraw

open References Function

/-- `my_surface_t`, as far as references go. -/
structure Surface where
  refCount : ℕ
  rbSurface : ℕ
  ddOwner : Option ℕ
  next : Option ℕ
  palette : Option ℕ
  clipper : Option ℕ

/-- `my_dd_t`, as far as references go. -/
structure DirectDraw where
  refCount : ℕ
  rbWindow : ℕ
  ownsWindow : Bool
  primarySurface : Option ℕ

/-- The objects that are there, and the next number. -/
structure Objects where
  dds : ℕ → Option DirectDraw
  surfaces : ℕ → Option Surface
  palettes : ℕ → Option ℕ
  clippers : ℕ → Option ℕ
  allocated : ℕ

def refLimit : ℕ := 2 ^ 32

def ddscapsBackbuffer : ℕ := 0x4
def ddscapsFlip : ℕ := 0x10
def ddscapsPrimarysurface : ℕ := 0x200

namespace Objects

def setSurface (surf : ℕ) (m : Surface) (o : Objects) : Objects :=
  { o with surfaces := update o.surfaces surf (some m) }

def freeSurface (surf : ℕ) (o : Objects) : Objects :=
  { o with surfaces := update o.surfaces surf none }

def setDd (dd : ℕ) (d : DirectDraw) (o : Objects) : Objects :=
  { o with dds := update o.dds dd (some d) }

end Objects

/-! ### Palettes and clippers -/

def paletteAddRef (o : Objects) : Option ℕ → Objects
  | none => o
  | some pal => { o with palettes := addRef refLimit o.palettes pal }

def paletteRelease (o : Objects) : Option ℕ → Objects
  | none => o
  | some pal => { o with palettes := release o.palettes pal }

def clipperAddRef (o : Objects) : Option ℕ → Objects
  | none => o
  | some clipper => { o with clippers := addRef refLimit o.clippers clipper }

def clipperRelease (o : Objects) : Option ℕ → Objects
  | none => o
  | some clipper => { o with clippers := release o.clippers clipper }

/-! ### Surfaces -/

def surfaceAlloc (dd rbSurface : ℕ) (o : Objects) : Objects :=
  { o.setSurface o.allocated ⟨1, rbSurface, some dd, none, none, none⟩ with
    allocated := o.allocated + 1 }

def surfaceAddRef (surf : ℕ) (o : Objects) : Objects :=
  match o.surfaces surf with
  | none => o
  | some m => o.setSurface surf { m with refCount := (m.refCount + 1) % refLimit }

def clearPrimary (owner : Option ℕ) (surf : ℕ) (o : Objects) : Objects :=
  match owner with
  | none => o
  | some dd =>
    match o.dds dd with
    | none => o
    | some d => if d.primarySurface = some surf then o.setDd dd { d with primarySurface := none } else o

/-- `ddraw_surface_release` with `ddraw_destroy_surface`.  The attached surface is released first, then
the palette and the clipper.  Each surface in the chain uses up some of the fuel. -/
def surfaceRelease : ℕ → ℕ → Objects → Objects × List ℕ
  | 0, _, o => (o, [])
  | fuel + 1, surf, o =>
    match o.surfaces surf with
    | none => (o, [])
    | some m =>
      let refCount := decrement m.refCount
      let o := o.setSurface surf { m with refCount }
      if refCount ≠ 0 then (o, [])
      else
        let o := clearPrimary m.ddOwner surf o
        let r :=
          match m.next with
          | none => (o, [])
          | some attached =>
            surfaceRelease fuel attached (o.setSurface surf { m with refCount, next := none })
        let o := clipperRelease (paletteRelease r.1 m.palette) m.clipper
        (o.freeSurface surf, r.2 ++ [m.rbSurface])

def Objects.releaseSurface (surf : ℕ) (o : Objects) : Objects × List ℕ :=
  surfaceRelease o.allocated surf o

def addAttachedSurface (surf : ℕ) (attached : Option ℕ) (o : Objects) : Objects :=
  match o.surfaces surf, attached with
  | some m, some attached =>
    if m.next.isSome then o
    else
      let o := surfaceAddRef attached o
      match o.surfaces surf with
      | none => o
      | some m => o.setSurface surf { m with next := some attached }
  | _, _ => o

def deleteAttachedSurface (surf : ℕ) (attached : Option ℕ) (o : Objects) : Objects × List ℕ :=
  match o.surfaces surf, attached with
  | some m, some attached =>
    if m.next ≠ some attached then (o, [])
    else (o.setSurface surf { m with next := none }).releaseSurface attached
  | _, _ => (o, [])

def attachedSurface (surf caps : ℕ) (out : Bool) (o : Objects) : Option ℕ :=
  if !out then none
  else if caps &&& ddscapsBackbuffer ≠ 0 then (o.surfaces surf).bind Surface.next
  else none

/-- `surface_SetPalette`.  Whether the backend takes the palette makes no difference to the
references. -/
def setPalette (surf : ℕ) (pal : Option ℕ) (o : Objects) : Objects :=
  match o.surfaces surf with
  | none => o
  | some m =>
    let o := if m.palette ≠ pal then paletteRelease o m.palette else o
    paletteAddRef (o.setSurface surf { m with palette := pal }) pal

def setClipper (surf : ℕ) (clipper : Option ℕ) (o : Objects) : Objects :=
  match o.surfaces surf with
  | none => o
  | some m =>
    if clipper = m.clipper then o
    else
      let o := clipperRelease o m.clipper
      clipperAddRef (o.setSurface surf { m with clipper := clipper }) clipper

/-! ### DirectDraw -/

def setPrimary (dd primary : ℕ) (o : Objects) : Objects :=
  match o.dds dd with
  | none => o
  | some d => surfaceAddRef primary (o.setDd dd { d with primarySurface := some primary })

/-- `ddraw_create_flip_chain_surface`, when the backend has made the surfaces: the new primary surface,
the objects after the call, and the backend surfaces that are destroyed.  Without memory for the surface
of the backbuffer the primary surface is freed again. -/
def createFlipChainSurface (dd rbPrimary rbBackbuffer : ℕ) (memory backMemory : Bool) (o : Objects) :
    Option ℕ × Objects × List ℕ :=
  if rbPrimary = 0 then (none, o, [])
  else if !memory then (none, o, [])
  else
    let primary := o.allocated
    let o := surfaceAlloc dd rbPrimary o
    if rbBackbuffer = 0 then (some primary, setPrimary dd primary o, [])
    else if !backMemory then (none, o.freeSurface primary, [rbPrimary])
    else
      let backbuffer := o.allocated
      let o := surfaceAlloc dd rbBackbuffer o
      let o := match o.surfaces primary with
        | none => o
        | some m => o.setSurface primary { m with next := some backbuffer }
      (some primary, setPrimary dd primary o, [])

def createRegularSurface (dd caps rbPrimary : ℕ) (memory : Bool) (o : Objects) :
    Option ℕ × Objects × List ℕ :=
  if rbPrimary = 0 then (none, o, [])
  else if !memory then (none, o, [rbPrimary])
  else
    let primary := o.allocated
    let o := surfaceAlloc dd rbPrimary o
    if caps &&& ddscapsPrimarysurface ≠ 0 then (some primary, setPrimary dd primary o, [])
    else (some primary, o, [])

/-- What a call of `CreateSurface` meets: whether there is a backend, the handles of the backend
surfaces, and whether there is memory for the objects. -/
structure SurfaceResults where
  backend : Bool
  rbPrimary : ℕ
  rbBackbuffer : ℕ
  memory : Bool
  backMemory : Bool

def isFlipChain (caps : ℕ) : Bool :=
  caps &&& ddscapsPrimarysurface ≠ 0 && caps &&& ddscapsFlip ≠ 0

def createSurface (dd caps : ℕ) (r : SurfaceResults) (o : Objects) : Option ℕ × Objects × List ℕ :=
  match o.dds dd with
  | none => (none, o, [])
  | some d =>
    if !r.backend then (none, o, [])
    else if caps &&& ddscapsPrimarysurface ≠ 0 ∧ d.rbWindow = 0 then (none, o, [])
    else if isFlipChain caps then
      createFlipChainSurface dd r.rbPrimary r.rbBackbuffer r.memory r.backMemory o
    else createRegularSurface dd caps r.rbPrimary r.memory o

def createInstance (o : Objects) : Objects :=
  { o.setDd o.allocated ⟨1, 0, false, none⟩ with allocated := o.allocated + 1 }

def ddAddRef (dd : ℕ) (o : Objects) : Objects :=
  match o.dds dd with
  | none => o
  | some d => o.setDd dd { d with refCount := (d.refCount + 1) % refLimit }

def disown (dd : ℕ) (o : Objects) : Objects :=
  { o with
    surfaces := fun x => (o.surfaces x).map fun m =>
      if m.ddOwner = some dd then { m with ddOwner := none } else m }

/-- `ddraw_release`, up to the window of the DirectDraw object: the objects, and the backend surfaces
that are destroyed. -/
def ddRelease (dd : ℕ) (o : Objects) : Objects × List ℕ :=
  match o.dds dd with
  | none => (o, [])
  | some d =>
    let refCount := decrement d.refCount
    let o := o.setDd dd { d with refCount }
    if refCount ≠ 0 then (o, [])
    else
      let o := disown dd o
      let r := match d.primarySurface with
        | none => (o, [])
        | some primary =>
          (o.setDd dd { d with refCount, primarySurface := none }).releaseSurface primary
      ({ r.1 with dds := update r.1.dds dd none }, r.2)

end Ddraw
