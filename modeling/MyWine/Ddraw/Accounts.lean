import MyWine.Ddraw.Calls

/-!
# The references to DirectDraw objects

A surface is referred to by the surfaces that it is attached to and by the DirectDraw object whose
primary surface it is, a palette and a clipper by the surfaces that have them.  There are references
besides these, those of the guest (`Outside`).  `Accounts` says that the reference counts are right,
and `surfaceRelease_released` that they are right again when one of the references from outside is
given up, however many objects go away.
-/

namespace Ddraw

open References Function Option

namespace Objects

def surfaceCount (o : Objects) : ℕ → Option ℕ := Option.map Surface.refCount ∘ o.surfaces

def surfaceRefs (o : Objects) (outside : ℕ → ℕ) (x : ℕ) : ℕ :=
  outside x + holders o.allocated o.nextOf x + holders o.allocated o.primaryOf x

def paletteRefs (o : Objects) (outside : ℕ → ℕ) (p : ℕ) : ℕ :=
  outside p + holders o.allocated o.paletteOf p

def clipperRefs (o : Objects) (outside : ℕ → ℕ) (c : ℕ) : ℕ :=
  outside c + holders o.allocated o.clipperOf c

def liveSurfaces (o : Objects) : ℕ :=
  ((Finset.range o.allocated).filter fun x => 0 < (o.surfaceCount x).getD 0).card

end Objects

/-- Numbers that have not been given name no objects. -/
structure InRange (o : Objects) : Prop where
  dds : ∀ x, o.allocated ≤ x → o.dds x = none
  surfaces : ∀ x, o.allocated ≤ x → o.surfaces x = none
  palettes : ∀ x, o.allocated ≤ x → o.palettes x = none
  clippers : ∀ x, o.allocated ≤ x → o.clippers x = none

/-- The reference counts are right. -/
structure Counted (o : Objects) (r : Outside) : Prop where
  range : InRange o
  surfaces : Balanced o.surfaceCount (o.surfaceRefs r.surface)
  palettes : Balanced o.palettes (o.paletteRefs r.palette)
  clippers : Balanced o.clippers (o.clipperRefs r.clipper)
  palettePos : Positive o.palettes
  clipperPos : Positive o.clippers

/-- The reference counts are right, and the objects without references have gone away. -/
structure Accounts (o : Objects) (r : Outside) : Prop extends Counted o r where
  surfacePos : Positive o.surfaceCount

section

variable {o : Objects} {r : Outside} {surf : ℕ} {m m' : Surface}

theorem lt_of_some {α : Type} {f : ℕ → Option α} {a x : ℕ} {v : α} (h : ∀ x, a ≤ x → f x = none)
    (hx : f x = some v) :
  x < a
  := by
  by_contra hle
  rw [h x (not_lt.mp hle)] at hx
  cases hx

theorem update_eq_none {α : Type} {f : ℕ → Option α} {a a' k : ℕ} (h : ∀ x, a ≤ x → f x = none)
    (hle : a ≤ a') (hk : k < a') (v : Option α) (x : ℕ) (hx : a' ≤ x) :
  update f k v x = none
  := by
  rw [update_of_ne (hk.trans_le hx).ne']
  exact h x (hle.trans hx)

theorem InRange.lt_of_surface (h : InRange o) (hm : o.surfaces surf = some m) :
  surf < o.allocated
  := lt_of_some h.surfaces hm

theorem InRange.setSurface (h : InRange o) (hm : o.surfaces surf = some m) (m' : Surface) :
  InRange (o.setSurface surf m')
  := { h with surfaces := update_eq_none h.surfaces le_rfl (h.lt_of_surface hm) _ }

/-! ### A surface changes -/

theorem surfaceCount_setSurface (o : Objects) (surf : ℕ) (m : Surface) :
  (o.setSurface surf m).surfaceCount = update o.surfaceCount surf (some m.refCount)
  := Function.comp_update ..

theorem surfaceCount_freeSurface (o : Objects) (surf : ℕ) :
  (o.freeSurface surf).surfaceCount = update o.surfaceCount surf none
  := Function.comp_update ..

section

variable (hm : o.surfaces surf = some m)
include hm

theorem surfaceCount_of :
  o.surfaceCount surf = some m.refCount
  := by
  rw [Objects.surfaceCount, Function.comp_apply, hm, map_some]

theorem nextOf_of :
  o.nextOf surf = m.next
  := by
  rw [Objects.nextOf, Function.comp_apply, hm, bind_some]

theorem paletteOf_of :
  o.paletteOf surf = m.palette
  := by
  rw [Objects.paletteOf, Function.comp_apply, hm, bind_some]

theorem clipperOf_of :
  o.clipperOf surf = m.clipper
  := by
  rw [Objects.clipperOf, Function.comp_apply, hm, bind_some]

end

/-- A surface is replaced or goes away, and with it go its pointers. -/
theorem refs_update (h : InRange o) (hm : o.surfaces surf = some m) (v : Option Surface) (r : Outside)
    (k : ℕ) :
  let o' := { o with surfaces := update o.surfaces surf v }
  o'.surfaceRefs r.surface k + (if m.next = some k then 1 else 0) =
      o.surfaceRefs r.surface k + (if v.bind Surface.next = some k then 1 else 0) ∧
    o'.paletteRefs r.palette k + (if m.palette = some k then 1 else 0) =
      o.paletteRefs r.palette k + (if v.bind Surface.palette = some k then 1 else 0) ∧
    o'.clipperRefs r.clipper k + (if m.clipper = some k then 1 else 0) =
      o.clipperRefs r.clipper k + (if v.bind Surface.clipper = some k then 1 else 0)
  := by
  have hholders (f : Surface → Option ℕ) :
      holders o.allocated ((Option.bind · f) ∘ update o.surfaces surf v) k +
          (if f m = some k then 1 else 0) =
        holders o.allocated ((Option.bind · f) ∘ o.surfaces) k +
          (if v.bind f = some k then 1 else 0) := by
    have hupdate := @holders_update _ _ _ _ ((Option.bind · f) ∘ o.surfaces) (h.lt_of_surface hm)
      (v.bind f) k
    rw [Function.comp_apply, hm, bind_some] at hupdate
    rw [Function.comp_update, hupdate]
  have hnext := hholders Surface.next
  have hpalette := hholders Surface.palette
  have hclipper := hholders Surface.clipper
  simp only [Objects.surfaceRefs, Objects.paletteRefs, Objects.clipperRefs, Objects.nextOf,
    Objects.paletteOf, Objects.clipperOf, Objects.primaryOf]
  and_intros <;> omega

/-- The references that the surface `m'` does not have in the place of `m` come from outside, or the
other way round. -/
structure Moved (surf : ℕ) (m m' : Surface) (r r' : Outside) : Prop where
  next : ∀ x, r'.surface x + (if m'.next = some x then 1 else 0) +
      (if x = surf then m.refCount else 0) =
    r.surface x + (if m.next = some x then 1 else 0) + (if x = surf then m'.refCount else 0)
  palette : ∀ p, r'.palette p + (if m'.palette = some p then 1 else 0) =
    r.palette p + (if m.palette = some p then 1 else 0)
  clipper : ∀ c, r'.clipper c + (if m'.clipper = some c then 1 else 0) =
    r.clipper c + (if m.clipper = some c then 1 else 0)

theorem Counted.setSurface {r' : Outside} (h : Counted o r) (hm : o.surfaces surf = some m)
    (hmoved : Moved surf m m' r r') :
  Counted (o.setSurface surf m') r'
  := by
  constructor
  · exact h.range.setSurface hm m'
  · intro x
    have hrefs : (o.setSurface surf m').surfaceRefs r.surface x + _ = _ :=
      (refs_update h.range hm (some m') r x).1
    have hx := h.surfaces x
    have hnextx := hmoved.next x
    simp only [Objects.surfaceRefs, bind_some] at hrefs hx ⊢
    rw [surfaceCount_setSurface]
    by_cases hxs : x = surf
    · rw [hxs, surfaceCount_of hm, getD_some] at hx
      rw [hxs] at hrefs hnextx ⊢
      rw [if_pos rfl, if_pos rfl] at hnextx
      rw [update_self, getD_some]
      omega
    · rw [if_neg hxs, if_neg hxs] at hnextx
      rw [update_of_ne hxs]
      omega
  · intro p
    have hrefs : (o.setSurface surf m').paletteRefs r.palette p + _ = _ :=
      (refs_update h.range hm (some m') r p).2.1
    have hp : (o.palettes p).getD 0 = _ := h.palettes p
    have hpalettep := hmoved.palette p
    change (o.palettes p).getD 0 = (o.setSurface surf m').paletteRefs r'.palette p
    simp only [Objects.paletteRefs, bind_some] at hrefs hp ⊢
    omega
  · intro c
    have hrefs : (o.setSurface surf m').clipperRefs r.clipper c + _ = _ :=
      (refs_update h.range hm (some m') r c).2.2
    have hc : (o.clippers c).getD 0 = _ := h.clippers c
    have hclipperc := hmoved.clipper c
    change (o.clippers c).getD 0 = (o.setSurface surf m').clipperRefs r'.clipper c
    simp only [Objects.clipperRefs, bind_some] at hrefs hc ⊢
    omega
  · exact h.palettePos
  · exact h.clipperPos

/-! ### A surface goes away -/

theorem paletteRelease_eq (o : Objects) (pal : Option ℕ) :
  paletteRelease o pal = { o with palettes := pal.elim o.palettes (release o.palettes) }
  := by
  cases pal <;> rfl

theorem clipperRelease_eq (o : Objects) (clipper : Option ℕ) :
  clipperRelease o clipper = { o with clippers := clipper.elim o.clippers (release o.clippers) }
  := by
  cases clipper <;> rfl

theorem balanced_elim_release {count : ℕ → Option ℕ} {refs : ℕ → ℕ} {obj : Option ℕ}
    (h : Balanced count fun k => refs k + if obj = some k then 1 else 0) (hpos : Positive count) :
  Balanced (obj.elim count (release count)) refs ∧ Positive (obj.elim count (release count))
  := by
  cases obj with
  | none =>
    refine ⟨?_, hpos⟩
    intro k
    exact h k
  | some obj =>
    refine ⟨?_, hpos.release obj⟩
    apply Balanced.release
    intro k
    rw [h k]
    simp [more, eq_comm]

theorem elim_release_of_ne {count : ℕ → Option ℕ} {k : ℕ} {obj : Option ℕ} (h : obj ≠ some k) :
  obj.elim count (release count) k = count k
  := by
  cases obj with
  | none => rfl
  | some obj =>
    apply update_of_ne
    rintro rfl
    exact h rfl

theorem elim_release_eq_none {count : ℕ → Option ℕ} {k : ℕ} (h : count k = none) (obj : Option ℕ) :
  obj.elim count (release count) k = none
  := by
  by_cases hk : obj = some k
  · rw [hk, elim_some, release, update_self, h, bind_none]
  · rw [elim_release_of_ne hk, h]

/-- The counts are right after a surface without references and without an attached surface has gone
away with its palette and its clipper. -/
theorem Counted.free (h : Counted o r) (hm : o.surfaces surf = some m) (hzero : m.refCount = 0)
    (hnext : m.next = none) :
  Counted ((clipperRelease (paletteRelease o m.palette) m.clipper).freeSurface surf) r
  := by
  have hrefs := refs_update h.range hm none r
  obtain ⟨hpalettes, hpalettePos⟩ :=
    @balanced_elim_release o.palettes ((o.freeSurface surf).paletteRefs r.palette) m.palette (by
      intro k
      rw [h.palettes k]
      exact (hrefs k).2.1.symm) h.palettePos
  obtain ⟨hclippers, hclipperPos⟩ :=
    @balanced_elim_release o.clippers ((o.freeSurface surf).clipperRefs r.clipper) m.clipper (by
      intro k
      rw [h.clippers k]
      exact (hrefs k).2.2.symm) h.clipperPos
  rw [clipperRelease_eq, paletteRelease_eq]
  constructor
  · constructor
    · exact h.range.dds
    · exact update_eq_none h.range.surfaces le_rfl (h.range.lt_of_surface hm) _
    · intro x hx
      apply elim_release_eq_none (h.range.palettes x hx)
    · intro x hx
      apply elim_release_eq_none (h.range.clippers x hx)
  · intro x
    change ((o.freeSurface surf).surfaceCount x).getD 0 = (o.freeSurface surf).surfaceRefs r.surface x
    have hx := h.surfaces x
    have hrefsx : (o.freeSurface surf).surfaceRefs r.surface x + _ = _ := (hrefs x).1
    rw [hnext, if_neg (by simp), bind_none, if_neg (by simp), Nat.add_zero, Nat.add_zero] at hrefsx
    rw [hrefsx, ← hx, surfaceCount_freeSurface]
    by_cases hxs : x = surf
    · rw [hxs, update_self, surfaceCount_of hm, hzero]
      rfl
    · rw [update_of_ne hxs]
  · exact hpalettes
  · exact hclippers
  · exact hpalettePos
  · exact hclipperPos

/-! ### The release of a surface -/

/-- What the release of a surface does: the counts are right, and surfaces that are about to go away
stay as they are. -/
structure Released (o : Objects) (r : Outside) (o' : Objects) : Prop extends Counted o' r where
  allocated : o'.allocated = o.allocated
  dds : o'.dds = o.dds
  kept : ∀ x m, o.surfaces x = some m → m.refCount = 0 → o'.surfaces x = some m
  zero : ∀ x, o'.surfaceCount x = some 0 → o.surfaceCount x = some 0

theorem clearPrimary_eq (hrange : InRange o) (hprimary : holders o.allocated o.primaryOf surf = 0)
    (owner : Option ℕ) :
  clearPrimary owner surf o = o
  := by
  cases owner with
  | none => rfl
  | some dd =>
    simp only [clearPrimary]
    cases hd : o.dds dd with
    | none => rfl
    | some d =>
      simp only
      rw [if_neg]
      intro hsurf
      have hpos := @holders_pos _ _ _ _ o.primaryOf surf (lt_of_some hrange.dds hd) (by
        rw [Objects.primaryOf, Function.comp_apply, hd, bind_some, hsurf])
      omega

theorem liveSurfaces_setSurface (hrange : InRange o) (hm : o.surfaces surf = some m)
    (hpos : 0 < m.refCount) (hzero : m'.refCount = 0) :
  (o.setSurface surf m').liveSurfaces + 1 = o.liveSurfaces
  := by
  have hmem : surf ∈ (Finset.range o.allocated).filter fun x => 0 < (o.surfaceCount x).getD 0 := by
    rw [Finset.mem_filter, Finset.mem_range, surfaceCount_of hm, getD_some]
    exact ⟨hrange.lt_of_surface hm, hpos⟩
  have herase : ((Finset.range o.allocated).filter fun x =>
      0 < ((o.setSurface surf m').surfaceCount x).getD 0) =
      ((Finset.range o.allocated).filter fun x => 0 < (o.surfaceCount x).getD 0).erase surf := by
    ext x
    rw [Finset.mem_erase, Finset.mem_filter, Finset.mem_filter, surfaceCount_setSurface]
    by_cases hx : x = surf
    · rw [hx, update_self, hzero]
      simp
    · rw [update_of_ne hx]
      simp [hx]
  rw [Objects.liveSurfaces, Objects.liveSurfaces]
  have hallocated : (o.setSurface surf m').allocated = o.allocated := rfl
  rw [hallocated, herase, Finset.card_erase_add_one hmem]

/-- A surface that has lost its last reference and its attached surface goes away after what was
attached has been released. -/
theorem Released.free {o' : Objects} (h : Released (o.setSurface surf m') r o')
    (hm : o.surfaces surf = some m) (hpos : 0 < m.refCount) (hzero : m'.refCount = 0)
    (hnext : m'.next = none) :
  Released o r ((clipperRelease (paletteRelease o' m'.palette) m'.clipper).freeSurface surf)
  := by
  have hsurf : o'.surfaces surf = some m' := by
    apply h.kept surf m' _ hzero
    simp [Objects.setSurface]
  have hcounted := h.toCounted.free hsurf hzero hnext
  generalize hfreed : (clipperRelease (paletteRelease o' m'.palette) m'.clipper).freeSurface surf = o''
    at hcounted ⊢
  have hsame : o''.surfaces = update o'.surfaces surf none ∧ o''.allocated = o'.allocated ∧
      o''.dds = o'.dds := by
    rw [← hfreed, clipperRelease_eq, paletteRelease_eq]
    exact ⟨rfl, rfl, rfl⟩
  obtain ⟨hsurfaces, hallocated, hdds⟩ := hsame
  constructor
  · exact hcounted
  · exact hallocated.trans h.allocated
  · exact hdds.trans h.dds
  · intro x mx hx hmx
    have hne : x ≠ surf := by
      rintro rfl
      rw [hm] at hx
      cases hx
      omega
    rw [hsurfaces, update_of_ne hne]
    apply h.kept x mx _ hmx
    simp only [Objects.setSurface, update_of_ne hne]
    exact hx
  · intro x hx
    have hcount : o''.surfaceCount = update o'.surfaceCount surf none := by
      rw [Objects.surfaceCount, hsurfaces]
      apply Function.comp_update
    rw [hcount, update_apply, Option.ite_none_left_eq_some] at hx
    have hold := h.zero x hx.2
    rw [surfaceCount_setSurface, update_of_ne hx.1] at hold
    exact hold

theorem Counted.released (h : Counted o r) :
  Released o r o
  := by
  refine ⟨h, rfl, rfl, ?_, ?_⟩
  · intro x m hm _
    exact hm
  · intro x hx
    exact hx

theorem Counted.exists_surface (h : Counted o r) (hpos : 0 < o.surfaceRefs r.surface surf) :
  ∃ m, o.surfaces surf = some m ∧ m.refCount = o.surfaceRefs r.surface surf
  := by
  obtain ⟨n, hn, hrefs⟩ := h.surfaces.exists_of_pos hpos
  rw [Objects.surfaceCount, Function.comp_apply, map_eq_some_iff] at hn
  obtain ⟨m, hm, rfl⟩ := hn
  exact ⟨m, hm, hrefs⟩

theorem surfaceRefs_more (o : Objects) (outside : ℕ → ℕ) (surf x : ℕ) :
  o.surfaceRefs (more outside surf) x = o.surfaceRefs outside x + if x = surf then 1 else 0
  := by
  rw [Objects.surfaceRefs, Objects.surfaceRefs, more]
  omega

theorem setSurface_setSurface (o : Objects) (surf : ℕ) (m m' : Surface) :
  (o.setSurface surf m).setSurface surf m' = o.setSurface surf m'
  := by
  simp [Objects.setSurface]

/-- A reference from outside is given up and the surface loses what is attached to it, if it has been
the last one.  Then that has a reference from outside instead. -/
theorem Counted.decrement (h : Counted o { r with surface := more r.surface surf })
    (hm : o.surfaces surf = some m) (hcount : m.refCount = o.surfaceRefs r.surface surf + 1)
    {next : Option ℕ} {outside : ℕ → ℕ}
    (hnext : ∀ x, outside x + (if next = some x then 1 else 0) =
      r.surface x + (if m.next = some x then 1 else 0)) :
  Counted (o.setSurface surf { m with refCount := o.surfaceRefs r.surface surf, next := next })
    { r with surface := outside }
  := by
  refine Counted.setSurface h hm ⟨?_, fun p => rfl, fun c => rfl⟩
  intro x
  have hnextx := hnext x
  simp only [more]
  split_ifs at hnextx ⊢ <;> omega

/-- The release of a surface that has a reference from outside: when it is the last one, the surface
goes away after what is attached to it has been released. -/
theorem surfaceRelease_eq (h : Counted o { r with surface := more r.surface surf }) (fuel : ℕ) :
  ∃ m, o.surfaces surf = some m ∧ m.refCount = o.surfaceRefs r.surface surf + 1 ∧
    surfaceRelease (fuel + 1) surf o =
      if o.surfaceRefs r.surface surf ≠ 0 then
        (o.setSurface surf { m with refCount := o.surfaceRefs r.surface surf }, [])
      else
        let rest := match m.next with
          | none => (o.setSurface surf { m with refCount := 0, next := none }, [])
          | some attached =>
            surfaceRelease fuel attached (o.setSurface surf { m with refCount := 0, next := none })
        ((clipperRelease (paletteRelease rest.1 m.palette) m.clipper).freeSurface surf,
          rest.2 ++ [m.rbSurface])
  := by
  obtain ⟨m, hm, hcount⟩ := @Counted.exists_surface _ _ surf h (by
    simp only [surfaceRefs_more, if_pos]
    omega)
  simp only [surfaceRefs_more, if_pos] at hcount
  have hdecrement : References.decrement m.refCount = o.surfaceRefs r.surface surf := by
    rw [References.decrement]
    split_ifs <;> omega
  refine ⟨m, hm, hcount, ?_⟩
  rw [surfaceRelease, hm]
  simp only [hdecrement]
  by_cases hlast : o.surfaceRefs r.surface surf = 0
  · have hprimary : holders o.allocated o.primaryOf surf = 0 := by
      rw [Objects.surfaceRefs] at hlast
      omega
    rw [if_neg (not_not_intro hlast), if_neg (not_not_intro hlast), hlast,
      clearPrimary_eq (h.range.setSurface hm _) hprimary]
    cases hnext : m.next with
    | none => rfl
    | some attached => simp only [setSurface_setSurface]
  · rw [if_pos hlast, if_pos hlast]

theorem surfaceRelease_released {fuel : ℕ}
    (h : Counted o { r with surface := more r.surface surf }) (hfuel : o.liveSurfaces ≤ fuel) :
  Released o r (surfaceRelease fuel surf o).1
  := by
  -- The induction is on the fuel, which bounds the number of surfaces that have references.
  induction fuel generalizing surf o with
  | zero =>
    obtain ⟨m, hm, hcount, -⟩ := surfaceRelease_eq h 0
    have hlive := @liveSurfaces_setSurface o surf m { m with refCount := 0 } h.range hm (by omega) rfl
    omega
  | succ fuel ih =>
    obtain ⟨m, hm, hcount, heq⟩ := surfaceRelease_eq h fuel
    rw [heq]
    by_cases hlast : o.surfaceRefs r.surface surf = 0
    · rw [if_neg (not_not_intro hlast)]
      cases hnext : m.next with
      | none =>
        have hcounted := @Counted.decrement o r surf m h hm hcount none r.surface fun x => by
          rw [hnext]
        rw [hlast] at hcounted
        apply Released.free hcounted.released hm (by omega) rfl rfl
      | some attached =>
        have hcounted := @Counted.decrement o r surf m h hm hcount none (more r.surface attached)
          fun x => by
            rw [hnext, if_neg (by simp), more]
            simp only [some.injEq, eq_comm]
            omega
        rw [hlast] at hcounted
        have hlive := @liveSurfaces_setSurface o surf m { m with refCount := 0, next := none } h.range hm
          (by omega) rfl
        apply Released.free (ih hcounted (by omega)) hm (by omega) rfl rfl
    · rw [if_pos hlast]
      have hcounted := @Counted.decrement o r surf m h hm hcount m.next r.surface fun x => rfl
      constructor
      · exact hcounted
      · rfl
      · rfl
      · intro x mx hx hmx
        have hne : x ≠ surf := by
          rintro rfl
          rw [hm] at hx
          cases hx
          omega
        simp only [Objects.setSurface, update_of_ne hne]
        exact hx
      · intro x hx
        rw [surfaceCount_setSurface] at hx
        by_cases hne : x = surf
        · rw [hne, update_self, some.injEq] at hx
          exact absurd hx hlast
        · rw [update_of_ne hne] at hx
          exact hx

end

end Ddraw
