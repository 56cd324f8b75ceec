import MyWine.Ddraw.References

/-!
# The surfaces that go away with a call

Each surface has the handle of a backend surface (`Objects.handleOf`).  When a reference to a surface
is given up, the surfaces of a chain go away (`doomed`), and `rb_surface_destroy` is called with their
handles.  All other surfaces keep theirs (`Fate`, `comCall_fate`).
-/

namespace Ddraw

open References Function List Option

/-- The handle of the backend surface. -/
def Objects.handleOf (o : Objects) : ℕ → Option ℕ := Option.map Surface.rbSurface ∘ o.surfaces

/-- The surfaces that go away when a reference to `surf` is given up: `surf` if it has no other one,
and then those that go away with the reference that it has. -/
def doomed : ℕ → ℕ → (ℕ → Option Surface) → List ℕ
  | 0, _, _ => []
  | fuel + 1, surf, surfaces =>
    match surfaces surf with
    | none => []
    | some m =>
      if decrement m.refCount ≠ 0 then []
      else
        surf :: match m.next with
          | none => []
          | some attached => doomed fuel attached surfaces

/-- The surfaces that go away with a call. -/
def ComCall.doomed (o : Objects) : ComCall → List ℕ
  | .release (.surface surf) => Ddraw.doomed o.allocated surf o.surfaces
  | .release (.dd dd) =>
    match o.dds dd with
    | none => []
    | some d =>
      if decrement d.refCount ≠ 0 then []
      else match d.primarySurface with
        | none => []
        | some primary => Ddraw.doomed o.allocated primary o.surfaces
  | .deleteAttachedSurface surf (some attached) =>
    match o.surfaces surf with
    | none => []
    | some m =>
      if m.next ≠ some attached then []
      else Ddraw.doomed o.allocated attached (o.setSurface surf { m with next := none }).surfaces
  | _ => []

/-- The surfaces `gone` go away between `o` and `o'`, `destroyed` are their handles, and the other
surfaces keep theirs. -/
structure Fate (o : Objects) (gone : List ℕ) (o' : Objects) (destroyed : List ℕ) : Prop where
  handleOf : ∀ x, o'.handleOf x = if x ∈ gone then none else o.handleOf x
  destroyed : ∀ surf, surf ∈ destroyed ↔ ∃ x ∈ gone, o.handleOf x = some surf

section

variable {o o' : Objects} {r : Outside} {surf : ℕ} {m m' : Surface}

theorem handleOf_of (hm : o.surfaces surf = some m) :
  o.handleOf surf = some m.rbSurface
  := by
  rw [Objects.handleOf, Function.comp_apply, hm, map_some]

theorem handleOf_setSurface (o : Objects) (surf : ℕ) (m : Surface) :
  (o.setSurface surf m).handleOf = update o.handleOf surf (some m.rbSurface)
  := Function.comp_update ..

theorem handleOf_setSurface_of (hm : o.surfaces surf = some m) (hrb : m'.rbSurface = m.rbSurface) :
  (o.setSurface surf m').handleOf = o.handleOf
  := by
  rw [handleOf_setSurface]
  apply update_eq_self_iff.mpr
  rw [handleOf_of hm, hrb]

theorem Fate.of_handleOf (h : o'.handleOf = o.handleOf) :
  Fate o [] o' []
  := by
  constructor
  · intro x
    rw [h, if_neg not_mem_nil]
  · intro surf
    simp

theorem Fate.congr {o₁ : Objects} {gone destroyed : List ℕ} (h : Fate o₁ gone o' destroyed)
    (heq : o₁.handleOf = o.handleOf) :
  Fate o gone o' destroyed
  := by
  constructor
  · rw [← heq]
    exact h.handleOf
  · rw [← heq]
    exact h.destroyed

/-! ### The release of a surface -/

theorem nextOf_ne_of_holders (hrange : InRange o) (h : holders o.allocated o.nextOf surf = 0) (x : ℕ) :
  o.nextOf x ≠ some surf
  := by
  intro hx
  have hpos := holders_pos (lt_of_bind hrange.surfaces hx) hx
  omega

theorem doomed_setSurface (hnext : ∀ x, o.nextOf x ≠ some surf) {fuel a : ℕ} (ha : a ≠ surf) :
  doomed fuel a (o.setSurface surf m').surfaces = doomed fuel a o.surfaces
  := by
  induction fuel generalizing a with
  | zero => rfl
  | succ fuel ih =>
    have hsame : (o.setSurface surf m').surfaces a = o.surfaces a := update_of_ne ha ..
    rw [doomed, doomed, hsame]
    cases hm : o.surfaces a with
    | none => rfl
    | some m =>
      simp only
      cases hnext' : m.next with
      | none => rfl
      | some attached =>
        have hattached : attached ≠ surf := by
          rintro rfl
          exact hnext a ((nextOf_of hm).trans hnext')
        simp only [ih hattached]

theorem handleOf_release (pal clipper : Option ℕ) (surf : ℕ) (o : Objects) :
  ((clipperRelease (paletteRelease o pal) clipper).freeSurface surf).handleOf =
    update o.handleOf surf none
  := by
  have hsurfaces : (clipperRelease (paletteRelease o pal) clipper).surfaces = o.surfaces := by
    cases pal <;> cases clipper <;> rfl
  rw [Objects.handleOf, Objects.freeSurface, hsurfaces]
  exact Function.comp_update ..

/-- One more surface goes away after the others. -/
theorem Fate.cons {o₁ : Objects} {gone destroyed : List ℕ} (h : Fate o gone o₁ destroyed)
    (hm : o.surfaces surf = some m) (pal clipper : Option ℕ) :
  Fate o (surf :: gone) ((clipperRelease (paletteRelease o₁ pal) clipper).freeSurface surf)
    (destroyed ++ [m.rbSurface])
  := by
  constructor
  · intro x
    rw [handleOf_release]
    by_cases hx : x = surf
    · rw [hx, update_self, if_pos mem_cons_self]
    · rw [update_of_ne hx, h.handleOf x]
      simp [hx]
  · intro handle
    rw [mem_append, mem_singleton, h.destroyed]
    constructor
    · rintro (⟨x, hx, hhandle⟩ | rfl)
      · exact ⟨x, mem_cons_of_mem _ hx, hhandle⟩
      · exact ⟨surf, mem_cons_self, handleOf_of hm⟩
    · rintro ⟨x, hx, hhandle⟩
      rcases mem_cons.mp hx with rfl | hx
      · rw [handleOf_of hm] at hhandle
        cases hhandle
        exact Or.inr rfl
      · exact Or.inl ⟨x, hx, hhandle⟩

/-- A release destroys the surfaces of the chain that are doomed. -/
theorem surfaceRelease_fate {fuel : ℕ}
    (h : Counted o { r with surface := more r.surface surf }) :
  Fate o (doomed fuel surf o.surfaces) (surfaceRelease fuel surf o).1 (surfaceRelease fuel surf o).2
  := by
  induction fuel generalizing surf o with
  | zero => exact Fate.of_handleOf rfl
  | succ fuel ih =>
    obtain ⟨m, hm, hcount, heq⟩ := surfaceRelease_eq h fuel
    have hdecrement : decrement m.refCount = o.surfaceRefs r.surface surf := by
      rw [decrement]
      split_ifs <;> omega
    rw [heq, doomed, hm]
    simp only [hdecrement]
    by_cases hlast : o.surfaceRefs r.surface surf = 0
    · rw [if_neg (not_not_intro hlast), if_neg (not_not_intro hlast)]
      cases hnext : m.next with
      | none =>
        apply Fate.cons (m := m) _ hm
        exact Fate.of_handleOf (handleOf_setSurface_of hm rfl)
      | some attached =>
        -- What is attached to the surface is another surface, as nobody refers to this one.
        have hholders : holders o.allocated o.nextOf surf = 0 := by
          rw [Objects.surfaceRefs] at hlast
          omega
        have hnever := nextOf_ne_of_holders h.range hholders
        have hattached : attached ≠ surf := by
          rintro rfl
          exact hnever attached ((nextOf_of hm).trans hnext)
        have hcounted := @Counted.decrement o r surf m h hm hcount none (more r.surface attached)
          fun x => by
            rw [hnext, if_neg (by simp), more]
            simp only [some.injEq, eq_comm]
            omega
        rw [hlast] at hcounted
        have hrest := ih hcounted
        rw [doomed_setSurface hnever hattached] at hrest
        apply Fate.cons (hrest.congr _) hm
        exact handleOf_setSurface_of hm rfl
    · rw [if_pos hlast, if_pos hlast]
      exact Fate.of_handleOf (handleOf_setSurface_of hm rfl)

theorem releaseSurface_fate (h : Accounts o (r.gain (some (.surface surf)))) :
  Fate o (doomed o.allocated surf o.surfaces) (o.releaseSurface surf).1 (o.releaseSurface surf).2
  := surfaceRelease_fate h.toCounted

/-! ### The other calls -/

theorem doomed_disown (dd fuel a : ℕ) (o : Objects) :
  doomed fuel a (disown dd o).surfaces = doomed fuel a o.surfaces
  := by
  induction fuel generalizing a with
  | zero => rfl
  | succ fuel ih =>
    rw [doomed, doomed]
    simp only [disown] at ih ⊢
    cases o.surfaces a with
    | none => rfl
    | some m =>
      rw [map_some]
      split_ifs
      all_goals
        cases hnext : m.next with
        | none => simp only [hnext]
        | some attached => simp only [hnext, ih]

theorem handleOf_disown (dd : ℕ) (o : Objects) :
  (disown dd o).handleOf = o.handleOf
  := by
  funext x
  simp only [Objects.handleOf, Function.comp_apply, disown]
  cases o.surfaces x with
  | none => rfl
  | some m =>
    rw [map_some, map_some, map_some]
    split_ifs <;> rfl

theorem ddRelease_fate (h : Accounts o r) (dd : ℕ) :
  Fate o (ComCall.doomed o (.release (.dd dd))) (ddRelease dd o).1 (ddRelease dd o).2
  := by
  rw [ComCall.doomed, ddRelease]
  cases hd : o.dds dd with
  | none => exact Fate.of_handleOf rfl
  | some d =>
    simp only
    split_ifs with hcount
    · exact Fate.of_handleOf rfl
    · cases hprimary : d.primarySurface with
      | none => exact Fate.of_handleOf (handleOf_disown dd o)
      | some primary =>
        have hgiven := dropPrimary_accounts h hd hprimary (decrement d.refCount)
        rw [hprimary] at hgiven
        have hfate := (releaseSurface_fate hgiven).congr (handleOf_disown dd o)
        change Fate o (doomed o.allocated primary (disown dd o).surfaces) _ _ at hfate
        rw [doomed_disown] at hfate
        exact ⟨hfate.handleOf, hfate.destroyed⟩

theorem handleOf_surfaceAddRef (surf : ℕ) (o : Objects) :
  (surfaceAddRef surf o).handleOf = o.handleOf
  := by
  rw [surfaceAddRef]
  cases hm : o.surfaces surf with
  | none => rfl
  | some m => exact handleOf_setSurface_of hm rfl

theorem handleOf_addAttachedSurface (surf : ℕ) (attached : Option ℕ) (o : Objects) :
  (addAttachedSurface surf attached o).handleOf = o.handleOf
  := by
  cases hm : o.surfaces surf with
  | none => simp only [addAttachedSurface, hm]
  | some m =>
    cases attached with
    | none => simp only [addAttachedSurface, hm]
    | some attached =>
      simp only [addAttachedSurface, hm]
      split_ifs
      · rfl
      · have hadded := handleOf_surfaceAddRef attached o
        cases hm' : (surfaceAddRef attached o).surfaces surf with
        | none => exact hadded
        | some m' =>
          have hset := @handleOf_setSurface_of _ surf m' { m' with next := some attached } hm' rfl
          exact hset.trans hadded

theorem handleOf_setPalette (surf : ℕ) (pal : Option ℕ) (o : Objects) :
  (setPalette surf pal o).handleOf = o.handleOf
  := by
  rw [setPalette]
  cases hm : o.surfaces surf with
  | none => rfl
  | some m =>
    have hset := @handleOf_setSurface_of o surf m { m with palette := pal } hm rfl
    simp only
    split_ifs
    · cases m.palette <;> cases pal <;> exact hset
    · cases pal <;> exact hset

theorem handleOf_setClipper (surf : ℕ) (clipper : Option ℕ) (o : Objects) :
  (setClipper surf clipper o).handleOf = o.handleOf
  := by
  rw [setClipper]
  cases hm : o.surfaces surf with
  | none => rfl
  | some m =>
    have hset := @handleOf_setSurface_of o surf m { m with clipper := clipper } hm rfl
    simp only
    split_ifs
    · rfl
    · cases m.clipper <;> cases clipper <;> exact hset

theorem handleOf_addReference (obj : Option ComObject) (o : Objects) :
  (o.addReference obj).handleOf = o.handleOf
  := by
  rcases obj with - | obj
  · rfl
  · cases obj with
    | dd x =>
      simp only [Objects.addReference, ddAddRef]
      cases o.dds x <;> rfl
    | surface x => exact handleOf_surfaceAddRef x o
    | palette x => rfl
    | clipper x => rfl

def ComCall.MakesNoSurface : ComCall → Prop
  | .createSurface .. => False
  | _ => True

/-- A call destroys the surfaces that are doomed by it. -/
theorem comCall_fate (h : Accounts o r) {c : ComCall} (hgiven : ∀ obj ∈ c.givenUp, r.Has obj)
    (hc : c.MakesNoSurface) :
  Fate o (c.doomed o) (comCall o c).objs (comCall o c).destroyed
  := by
  cases c with
  | directDrawCreate memory => cases memory <;> exact Fate.of_handleOf rfl
  | createSurface dd caps results => exact hc.elim
  | createPalette dd created => cases created <;> exact Fate.of_handleOf rfl
  | createClipper dd created => cases created <;> exact Fate.of_handleOf rfl
  | setCooperativeLevel dd window =>
    apply Fate.of_handleOf
    simp only [comCall, Objects.setCooperativeLevel]
    cases o.dds dd <;> cases window <;> rfl
  | setDisplayMode dd supported window =>
    apply Fate.of_handleOf
    simp only [comCall, Objects.setDisplayMode]
    cases supported <;> cases o.dds dd
    · rfl
    · rfl
    · rfl
    · simp only [if_true]
      split_ifs <;> rfl
  | release obj =>
    have hobj := hgiven obj rfl
    cases obj with
    | dd x => exact ddRelease_fate h x
    | surface x =>
      rw [← gain_lose hobj] at h
      exact releaseSurface_fate h
    | palette x => exact Fate.of_handleOf rfl
    | clipper x => exact Fate.of_handleOf rfl
  | addAttachedSurface surf attached =>
    exact Fate.of_handleOf (handleOf_addAttachedSurface surf attached o)
  | deleteAttachedSurface surf attached =>
    cases attached with
    | none =>
      simp only [comCall, deleteAttachedSurface]
      cases o.surfaces surf <;> exact Fate.of_handleOf rfl
    | some attached =>
      simp only [comCall, deleteAttachedSurface, ComCall.doomed]
      cases hm : o.surfaces surf with
      | none => exact Fate.of_handleOf rfl
      | some m =>
        simp only
        by_cases hnext : m.next = some attached
        · simp only [hnext, ne_eq, not_true_eq_false, if_false]
          have hdetached := @Accounts.moveSurface _ _ _ _ none h hm
          rw [hnext] at hdetached
          exact (releaseSurface_fate hdetached).congr (handleOf_setSurface_of hm rfl)
        · simp only [ne_eq, hnext, not_false_eq_true, if_true]
          exact Fate.of_handleOf rfl
  | setPalette surf pal => exact Fate.of_handleOf (handleOf_setPalette surf pal o)
  | setClipper surf clipper => exact Fate.of_handleOf (handleOf_setClipper surf clipper o)
  | _ => exact Fate.of_handleOf (handleOf_addReference _ o)

end

end Ddraw
