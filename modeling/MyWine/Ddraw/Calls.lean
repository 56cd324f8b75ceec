import MyWine.Ddraw.Objects

/-!
# The calls of the guest

The methods of `ddraw_interface.c`, `ddraw_surface_ops.c`, `ddraw_palette.c` and `ddraw_clipper.c` that
create objects or change references, with `DirectDrawCreate`.  A pointer that is null is `none`, and a
flag says whether the guest gives a pointer for the result.  `ComState` has the objects together with
the references that the guest has been given and has not released.
-/

namespace Ddraw

open References

/-- An object that the guest can have a pointer to. -/
inductive ComObject
  | dd (x : ℕ)
  | surface (x : ℕ)
  | palette (x : ℕ)
  | clipper (x : ℕ)
  deriving DecidableEq

/-- The references that no object has. -/
structure Outside where
  surface : ℕ → ℕ
  palette : ℕ → ℕ
  clipper : ℕ → ℕ

namespace Outside

def gain (r : Outside) : Option ComObject → Outside
  | some (.surface x) => { r with surface := more r.surface x }
  | some (.palette x) => { r with palette := more r.palette x }
  | some (.clipper x) => { r with clipper := more r.clipper x }
  | _ => r

def lose (r : Outside) : Option ComObject → Outside
  | some (.surface x) => { r with surface := less r.surface x }
  | some (.palette x) => { r with palette := less r.palette x }
  | some (.clipper x) => { r with clipper := less r.clipper x }
  | _ => r

def Has (r : Outside) : ComObject → Prop
  | .dd _ => True
  | .surface x => 0 < r.surface x
  | .palette x => 0 < r.palette x
  | .clipper x => 0 < r.clipper x

instance (r : Outside) (obj : ComObject) : Decidable (r.Has obj) := by
  cases obj <;> unfold Has <;> infer_instance

end Outside

namespace Objects

def nextOf (o : Objects) : ℕ → Option ℕ := (Option.bind · Surface.next) ∘ o.surfaces

def paletteOf (o : Objects) : ℕ → Option ℕ := (Option.bind · Surface.palette) ∘ o.surfaces

def clipperOf (o : Objects) : ℕ → Option ℕ := (Option.bind · Surface.clipper) ∘ o.surfaces

def primaryOf (o : Objects) : ℕ → Option ℕ := (Option.bind · DirectDraw.primarySurface) ∘ o.dds

def count (o : Objects) : ComObject → Option ℕ
  | .dd x => (o.dds x).map DirectDraw.refCount
  | .surface x => (o.surfaces x).map Surface.refCount
  | .palette x => o.palettes x
  | .clipper x => o.clippers x

def addReference (o : Objects) : Option ComObject → Objects
  | none => o
  | some (.dd x) => ddAddRef x o
  | some (.surface x) => surfaceAddRef x o
  | some (.palette x) => paletteAddRef o (some x)
  | some (.clipper x) => clipperAddRef o (some x)

def releaseReference (o : Objects) : ComObject → Objects × List ℕ
  | .dd x => ddRelease x o
  | .surface x => o.releaseSurface x
  | .palette x => (paletteRelease o (some x), [])
  | .clipper x => (clipperRelease o (some x), [])

def createPalette (o : Objects) : Objects :=
  { o with palettes := Function.update o.palettes o.allocated (some 1), allocated := o.allocated + 1 }

def createClipper (o : Objects) : Objects :=
  { o with clippers := Function.update o.clippers o.allocated (some 1), allocated := o.allocated + 1 }

def setCooperativeLevel (dd : ℕ) (window : Option ℕ) (o : Objects) : Objects :=
  match o.dds dd, window with
  | some d, some window => o.setDd dd { d with rbWindow := window }
  | _, _ => o

/-- `ddraw_SetDisplayMode` with a mode that is supported, where `window` is the handle that
`rb_window_create` returns. -/
def setDisplayMode (dd window : ℕ) (o : Objects) : Objects :=
  match o.dds dd with
  | none => o
  | some d =>
    if d.rbWindow ≠ 0 then o
    else o.setDd dd { d with rbWindow := window, ownsWindow := d.ownsWindow || window ≠ 0 }

end Objects

/-! ### The calls -/

/-- A call. -/
inductive ComCall
  | directDrawCreate (memory : Bool)
  | createSurface (dd caps : ℕ) (r : SurfaceResults)
  | createPalette (dd : ℕ) (created : Bool)
  | createClipper (dd : ℕ) (created : Bool)
  | setCooperativeLevel (dd : ℕ) (window : Option ℕ)
  | setDisplayMode (dd : ℕ) (supported : Bool) (window : ℕ)
  | getGDISurface (dd : ℕ) (out : Bool)
  | queryInterface (obj : ComObject) (known : Bool)
  | addRef (obj : ComObject)
  | release (obj : ComObject)
  | addAttachedSurface (surf : ℕ) (attached : Option ℕ)
  | deleteAttachedSurface (surf : ℕ) (attached : Option ℕ)
  | getAttachedSurface (surf caps : ℕ) (out : Bool)
  | setPalette (surf : ℕ) (pal : Option ℕ)
  | getPalette (surf : ℕ) (out : Bool)
  | setClipper (surf : ℕ) (clipper : Option ℕ)
  | getClipper (surf : ℕ) (out : Bool)

namespace ComCall

def uses : ComCall → List ComObject
  | directDrawCreate _ => []
  | createSurface dd _ _ => [.dd dd]
  | createPalette dd _ => [.dd dd]
  | createClipper dd _ => [.dd dd]
  | setCooperativeLevel dd _ => [.dd dd]
  | setDisplayMode dd _ _ => [.dd dd]
  | getGDISurface dd _ => [.dd dd]
  | queryInterface obj _ => [obj]
  | addRef obj => [obj]
  | release obj => [obj]
  | addAttachedSurface surf attached => .surface surf :: attached.toList.map .surface
  | deleteAttachedSurface surf attached => .surface surf :: attached.toList.map .surface
  | getAttachedSurface surf _ _ => [.surface surf]
  | setPalette surf pal => .surface surf :: pal.toList.map .palette
  | getPalette surf _ => [.surface surf]
  | setClipper surf clipper => .surface surf :: clipper.toList.map .clipper
  | getClipper surf _ => [.surface surf]

def givenUp : ComCall → Option ComObject
  | release obj => some obj
  | _ => none

def got (o : Objects) : ComCall → Option ComObject
  | getGDISurface dd out => if out then (o.primaryOf dd).map .surface else none
  | queryInterface obj known => if known then some obj else none
  | addRef obj => some obj
  | getAttachedSurface surf caps out => (attachedSurface surf caps out o).map .surface
  | getPalette surf out => if out then (o.paletteOf surf).map .palette else none
  | getClipper surf out => if out then (o.clipperOf surf).map .clipper else none
  | _ => none

def referenced (o : Objects) : ComCall → Option ComObject
  | addAttachedSurface surf attached => if (o.nextOf surf).isSome then none else attached.map .surface
  | setPalette _ pal => pal.map .palette
  | setClipper surf clipper => if clipper = o.clipperOf surf then none else clipper.map .clipper
  | c => c.got o

end ComCall

/-- What a call does: the object of which the guest gets a reference, the objects after the call, and
the backend surfaces that are destroyed. -/
structure ComResult where
  returned : Option ComObject
  objs : Objects
  destroyed : List ℕ

/-- A call. -/
def comCall (o : Objects) : ComCall → ComResult
  | .directDrawCreate memory =>
    if memory then ⟨some (.dd o.allocated), createInstance o, []⟩ else ⟨none, o, []⟩
  | .createSurface dd caps r =>
    let created := createSurface dd caps r o
    ⟨created.1.map .surface, created.2.1, created.2.2⟩
  | .createPalette _ created =>
    if created then ⟨some (.palette o.allocated), o.createPalette, []⟩ else ⟨none, o, []⟩
  | .createClipper _ created =>
    if created then ⟨some (.clipper o.allocated), o.createClipper, []⟩ else ⟨none, o, []⟩
  | .setCooperativeLevel dd window => ⟨none, o.setCooperativeLevel dd window, []⟩
  | .setDisplayMode dd supported window =>
    ⟨none, if supported then o.setDisplayMode dd window else o, []⟩
  | .release obj => ⟨none, (o.releaseReference obj).1, (o.releaseReference obj).2⟩
  | .addAttachedSurface surf attached => ⟨none, addAttachedSurface surf attached o, []⟩
  | .deleteAttachedSurface surf attached =>
    ⟨none, (deleteAttachedSurface surf attached o).1, (deleteAttachedSurface surf attached o).2⟩
  | .setPalette surf pal => ⟨none, setPalette surf pal o, []⟩
  | .setClipper surf clipper => ⟨none, setClipper surf clipper o, []⟩
  | c => ⟨c.got o, o.addReference (c.got o), []⟩

/-! ### Runs -/

/-- The objects, and the references of the guest. -/
structure ComState where
  objs : Objects
  held : Outside

def ComState.start : ComState :=
  ⟨⟨fun _ => none, fun _ => none, fun _ => none, fun _ => none, 1⟩,
    ⟨fun _ => 0, fun _ => 0, fun _ => 0⟩⟩

def comStep (s : ComState) (c : ComCall) : ComState :=
  let r := comCall s.objs c
  ⟨r.objs, (s.held.lose c.givenUp).gain r.returned⟩

/-- The guest makes calls with objects that are there, and gives back only references that it has. -/
def Permitted (s : ComState) (c : ComCall) : Prop :=
  (∀ obj ∈ c.uses, (s.objs.count obj).isSome) ∧ ∀ obj ∈ c.givenUp, s.held.Has obj

instance (s : ComState) (c : ComCall) : Decidable (Permitted s c) := by
  unfold Permitted
  infer_instance

end Ddraw
