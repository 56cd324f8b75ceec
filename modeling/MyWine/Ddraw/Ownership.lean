import MyWine.Ddraw.BackendSurfaces
import MyWine.Ddraw.Fate

/-!
# Surfaces own backend surfaces

Each surface has the handle of the backend surface that was made for it, and each backend surface that
has a handle belongs to a surface (`Owns`).  The backend breaks this in three places, because the
backbuffer of a window belongs to the window too.  A new flip chain for the window, the destruction of
the window, and the destruction of the primary surface of the window all destroy the backbuffer, although
its surface may have references.
-/

namespace Ddraw

open References Run HandleManager User32 Function List Option

/-! ### References of the guest -/

/-- There are at least the references in `r`. -/
structure Outside.Le (r r' : Outside) : Prop where
  surface : ∀ x, r.surface x ≤ r'.surface x
  palette : ∀ x, r.palette x ≤ r'.palette x
  clipper : ∀ x, r.clipper x ≤ r'.clipper x

section

variable {r r' : Outside}

theorem Outside.Le.has (h : r.Le r') {obj : ComObject} (hobj : r.Has obj) :
  r'.Has obj
  := by
  cases obj with
  | dd x => trivial
  | surface x => exact Nat.lt_of_lt_of_le hobj (h.surface x)
  | palette x => exact Nat.lt_of_lt_of_le hobj (h.palette x)
  | clipper x => exact Nat.lt_of_lt_of_le hobj (h.clipper x)

theorem more_le_more {refs refs' : ℕ → ℕ} (h : ∀ x, refs x ≤ refs' x) (k x : ℕ) :
  more refs k x ≤ more refs' k x
  := Nat.add_le_add_right (h x) _

theorem less_le_less {refs refs' : ℕ → ℕ} (h : ∀ x, refs x ≤ refs' x) (k x : ℕ) :
  less refs k x ≤ less refs' k x
  := Nat.sub_le_sub_right (h x) _

theorem Outside.Le.gain (h : r.Le r') (obj : Option ComObject) :
  (r.gain obj).Le (r'.gain obj)
  := by
  rcases obj with - | obj
  · exact h
  · cases obj with
    | dd x => exact h
    | surface x => exact ⟨more_le_more h.surface x, h.palette, h.clipper⟩
    | palette x => exact ⟨h.surface, more_le_more h.palette x, h.clipper⟩
    | clipper x => exact ⟨h.surface, h.palette, more_le_more h.clipper x⟩

theorem Outside.Le.lose (h : r.Le r') (obj : Option ComObject) :
  (r.lose obj).Le (r'.lose obj)
  := by
  rcases obj with - | obj
  · exact h
  · cases obj with
    | dd x => exact h
    | surface x => exact ⟨less_le_less h.surface x, h.palette, h.clipper⟩
    | palette x => exact ⟨h.surface, less_le_less h.palette x, h.clipper⟩
    | clipper x => exact ⟨h.surface, h.palette, less_le_less h.clipper x⟩

theorem Outside.Le.gain_right (h : r.Le r') (obj : Option ComObject) :
  r.Le (r'.gain obj)
  := by
  have hmore {refs refs' : ℕ → ℕ} (h : ∀ x, refs x ≤ refs' x) (k x : ℕ) : refs x ≤ more refs' k x :=
    (h x).trans (Nat.le_add_right ..)
  rcases obj with - | obj
  · exact h
  · cases obj with
    | dd x => exact h
    | surface x => exact ⟨hmore h.surface x, h.palette, h.clipper⟩
    | palette x => exact ⟨h.surface, hmore h.palette x, h.clipper⟩
    | clipper x => exact ⟨h.surface, h.palette, hmore h.clipper x⟩

end

/-- The counts are right for the references of the guest and for those that have been lost. -/
def Accounted (s : ComState) : Prop :=
  ∃ r, Accounts s.objs r ∧ s.held.Le r

theorem Accounted.step {s : ComState} (h : Accounted s) {c : ComCall} (hpermitted : Permitted s c)
    (hroom : HasRoom s.objs c) (hmemory : HasMemory c) :
  Accounted (comStep s c)
  := by
  obtain ⟨r, haccounts, hle⟩ := h
  have hgiven : ∀ obj ∈ c.givenUp, r.Has obj := fun obj hobj => hle.has (hpermitted.2 obj hobj)
  obtain ⟨lost, haccounts', -⟩ := comCall_accounts haccounts hpermitted.1 hgiven hroom hmemory
  exact ⟨_, haccounts', ((hle.lose _).gain _).gain_right lost⟩

/-! ### Ownership -/

/-- Each surface has the backend surface that was made for it, which is its own, and there are no
others. -/
structure Owns (o : Objects) (b : Backend) (made : ℕ → Ptr) : Prop where
  sound : b.Sound
  surface : ∀ x surf, o.handleOf x = some surf → b.getSurface surf = some (made x)
  owner : ∀ surf s, b.getSurface surf = some s → ∃ x, o.handleOf x = some surf
  distinct : ∀ x x' surf, o.handleOf x = some surf → o.handleOf x' = some surf → x = x'

section

variable {o o' : Objects} {b b' : Backend} {made made' : ℕ → Ptr} {hs : List ℕ}

theorem InRange.lt_of_handleOf (h : InRange o) {x surf : ℕ} (hx : o.handleOf x = some surf) :
  x < o.allocated
  := by
  obtain ⟨m, hm, -⟩ := map_eq_some_iff.mp hx
  exact h.lt_of_surface hm

theorem Owns.of_getSurface (h : Owns o b made) (hsound : b'.Sound) (hget : b'.getSurface = b.getSurface) :
  Owns o b' made
  := by
  refine ⟨hsound, ?_, ?_, h.distinct⟩
  · rw [hget]
    exact h.surface
  · rw [hget]
    exact h.owner

theorem Owns.make (h : Owns o b made) (hrange : InRange o) (hmade : Backend.Made b b' hs)
    (hhandle : ∀ x, o'.handleOf x = if x < o.allocated then o.handleOf x else hs[x - o.allocated]?)
    (hmade' : ∀ x surf, o'.handleOf x = some surf →
      made' x = if x < o.allocated then made x else (b'.getSurface surf).getD 0) :
  Owns o' b' made'
  := by
  -- Handles of new surfaces did not have a backend surface before.
  have hnot {x surf : ℕ} (hx : o.handleOf x = some surf) : surf ∉ hs := by
    intro hmem
    have hnone := (hmade.fresh surf hmem).1
    rw [h.surface x surf hx] at hnone
    cases hnone
  have hcases {x surf : ℕ} (hx : o'.handleOf x = some surf) :
      x < o.allocated ∧ o.handleOf x = some surf ∨
        o.allocated ≤ x ∧ hs[x - o.allocated]? = some surf := by
    rw [hhandle] at hx
    split_ifs at hx with hlt
    · exact Or.inl ⟨hlt, hx⟩
    · exact Or.inr ⟨not_lt.mp hlt, hx⟩
  constructor
  · exact hmade.sound
  · intro x surf hx
    rw [hmade' x surf hx]
    rcases hcases hx with ⟨hlt, hold⟩ | ⟨hle, hnew⟩
    · rw [if_pos hlt, hmade.old surf (hnot hold)]
      exact h.surface x surf hold
    · rw [if_neg (not_lt.mpr hle)]
      obtain ⟨s, hs'⟩ := isSome_iff_exists.mp (hmade.fresh surf (mem_of_getElem? hnew)).2
      rw [hs', getD_some]
  · intro surf s hs'
    by_cases hmem : surf ∈ hs
    · obtain ⟨i, hi⟩ := mem_iff_getElem?.mp hmem
      use o.allocated + i
      rw [hhandle, if_neg (not_lt.mpr (Nat.le_add_right ..)), Nat.add_sub_cancel_left]
      exact hi
    · rw [hmade.old surf hmem] at hs'
      obtain ⟨x, hx⟩ := h.owner surf s hs'
      use x
      rw [hhandle, if_pos (hrange.lt_of_handleOf hx)]
      exact hx
  · intro x x' surf hx hx'
    rcases hcases hx with ⟨-, hold⟩ | ⟨hle, hnew⟩ <;> rcases hcases hx' with ⟨-, hold'⟩ | ⟨hle', hnew'⟩
    · exact h.distinct x x' surf hold hold'
    · exact absurd (mem_of_getElem? hnew') (hnot hold)
    · exact absurd (mem_of_getElem? hnew) (hnot hold')
    · obtain ⟨hlt, hget⟩ := List.getElem?_eq_some_iff.mp hnew
      obtain ⟨hlt', hget'⟩ := List.getElem?_eq_some_iff.mp hnew'
      have hindex := (hmade.nodup.getElem_inj_iff).mp (hget.trans hget'.symm)
      omega

theorem Owns.of_made (h : Owns o b made) (hmade : ∀ x surf, o.handleOf x = some surf → made' x = made x) :
  Owns o b made'
  := by
  refine ⟨h.sound, ?_, h.owner, h.distinct⟩
  intro x surf hx
  rw [hmade x surf hx]
  exact h.surface x surf hx

/-! ### Surfaces that go away -/

def GoesWith (o : Objects) (b : Backend) (gone : List ℕ) (surf : ℕ) : Prop :=
  (b.getSurface surf).isSome → ∃ x ∈ gone, o.handleOf x = some surf

def SafeRelease (o : Objects) (b : Backend) (gone : List ℕ) : Prop :=
  ∀ x ∈ gone, ∀ surf ∈ o.handleOf x, ∀ s ∈ b.getSurface surf, ∀ w ∈ b.getWindow (b.surfaceWindow s),
    (b.windows w).primarySurface = surf → GoesWith o b gone (b.windows w).backbuffer

def SafeWindow (o : Objects) (b : Backend) (gone : List ℕ) (win : ℕ) : Prop :=
  ∀ w ∈ b.getWindow win, GoesWith o b gone (b.windows w).backbuffer

instance (o : Objects) (b : Backend) (gone : List ℕ) (surf : ℕ) : Decidable (GoesWith o b gone surf) :=
  inferInstanceAs (Decidable (_ → _))

instance (o : Objects) (b : Backend) (gone : List ℕ) : Decidable (SafeRelease o b gone) := by
  unfold SafeRelease
  infer_instance

instance (o : Objects) (b : Backend) (gone : List ℕ) (win : ℕ) : Decidable (SafeWindow o b gone win) := by
  unfold SafeWindow
  infer_instance

theorem Owns.fate {gone destroyed : List ℕ} (h : Owns o b made) (hfate : Fate o gone o' destroyed)
    (hsafe : SafeRelease o b gone) :
  let b' := destroyed.foldl (fun b surf => rbSurfaceDestroy surf b) b
  Owns o' b' made ∧ Backend.Shrinks destroyed b b' ∧ ∀ surf ∈ destroyed, b'.getSurface surf = none
  := by
  have hclosed : Backend.Closed destroyed b := by
    intro surf hsurf s hs w hw hprimary hback
    obtain ⟨x, hx, hhandle⟩ := (hfate.destroyed surf).mp hsurf
    exact (hfate.destroyed _).mpr (hsafe x hx surf hhandle s hs w hw hprimary hback)
  obtain ⟨hshrinks, hget⟩ := Backend.foldl_rbSurfaceDestroy h.sound hclosed
  refine ⟨?_, hshrinks, fun surf hsurf => by rw [hget, if_pos hsurf]⟩
  have hcases {x surf : ℕ} (hx : o'.handleOf x = some surf) : x ∉ gone ∧ o.handleOf x = some surf := by
    rw [hfate.handleOf] at hx
    split_ifs at hx with hgone
    exact ⟨hgone, hx⟩
  constructor
  · exact hshrinks.sound
  · intro x surf hx
    obtain ⟨hgone, hold⟩ := hcases hx
    rw [hget, if_neg]
    · exact h.surface x surf hold
    · intro hmem
      obtain ⟨y, hy, hhandle⟩ := (hfate.destroyed surf).mp hmem
      rw [h.distinct x y surf hold hhandle] at hgone
      exact hgone hy
  · intro surf s hs
    rw [hget] at hs
    split_ifs at hs with hmem
    obtain ⟨x, hx⟩ := h.owner surf s hs
    use x
    rw [hfate.handleOf, if_neg]
    · exact hx
    · intro hgone
      exact hmem ((hfate.destroyed surf).mpr ⟨x, hgone, hx⟩)
  · intro x x' surf hx hx'
    exact h.distinct x x' surf (hcases hx).2 (hcases hx').2

theorem Owns.destroyWindow {gone destroyed : List ℕ} {win : ℕ} (h : Owns o' b' made)
    (hshrinks : Backend.Shrinks destroyed b b')
    (hnone : ∀ surf ∈ destroyed, b'.getSurface surf = none) (hfate : Fate o gone o' destroyed)
    (hsafe : SafeWindow o b gone win) :
  Owns o' (b'.destroyWindow win) made
  := by
  obtain ⟨hsound, hget⟩ := @Backend.Sound.destroyWindow b' h.sound win (by
    intro w hw
    rw [hshrinks.getWindow] at hw
    by_contra hsome
    obtain ⟨s, hs⟩ := ne_none_iff_exists'.mp hsome
    have h3 := hshrinks.sound.three_le hs
    have hback : (b'.windows w).backbuffer = (b.windows w).backbuffer := by
      rcases hshrinks.backbuffer w with heq | hzero
      · exact heq
      · omega
    rw [hback] at hs
    have hgoes := hsafe w hw (by rw [hshrinks.old _ s hs]; rfl)
    rw [hnone _ ((hfate.destroyed _).mpr hgoes)] at hs
    cases hs)
  exact h.of_getSurface hsound hget

/-! ### A call that makes no surface -/

def Owned (s : SurfaceState) : Prop := Owns s.com.objs s.backend s.made

variable {s : SurfaceState} {dd caps : ℕ}

theorem Owns.call {c : ComCall} (hb : Owns s.com.objs b s.made) (haccounted : Accounted s.com)
    (hpermitted : Permitted s.com c) (hc : c.MakesNoSurface)
    (hsafe : SafeRelease s.com.objs b (c.doomed s.com.objs))
    (hwindow : ∀ win ∈ ownedWindow s.com.objs c, SafeWindow s.com.objs b (c.doomed s.com.objs) win) :
  Owned (s.call c b)
  := by
  obtain ⟨r, haccounts, hle⟩ := haccounted
  have hgiven : ∀ obj ∈ c.givenUp, r.Has obj := fun obj hobj => hle.has (hpermitted.2 obj hobj)
  have hfate := comCall_fate haccounts hgiven hc
  obtain ⟨howns, hshrinks, hnone⟩ := hb.fate hfate hsafe
  have hsame : ∀ x surf, (comCall s.com.objs c).objs.handleOf x = some surf →
      (s.call c b).made x = s.made x := by
    intro x surf hx
    rw [hfate.handleOf] at hx
    split_ifs at hx
    exact if_pos (haccounts.range.lt_of_handleOf hx)
  have howns' := howns.of_made hsame
  cases hwin : ownedWindow s.com.objs c with
  | none =>
    simp only [Owned, SurfaceState.call, hwin]
    exact howns'
  | some win =>
    simp only [Owned, SurfaceState.call, hwin]
    exact howns'.destroyWindow hshrinks hnone hfate (hwindow win hwin)

/-! ### A call that makes surfaces -/

theorem handleOf_surfaceAlloc (dd rbSurface : ℕ) (o : Objects) :
  (surfaceAlloc dd rbSurface o).handleOf = update o.handleOf o.allocated (some rbSurface)
  := Function.comp_update ..

theorem handleOf_setPrimary (dd primary : ℕ) (o : Objects) :
  (setPrimary dd primary o).handleOf = o.handleOf
  := by
  rw [setPrimary]
  cases o.dds dd with
  | none => rfl
  | some d => exact handleOf_surfaceAddRef primary _

theorem update_handle {f : ℕ → Option ℕ} {a : ℕ} (hf : ∀ x, a ≤ x → f x = none) (p x : ℕ) :
  update f a (some p) x = if x < a then f x else [p][x - a]?
  := by
  rcases lt_or_ge x a with hlt | hge
  · rw [if_pos hlt, update_of_ne hlt.ne]
  · obtain ⟨i, rfl⟩ := Nat.exists_eq_add_of_le hge
    rw [if_neg (not_lt.mpr hge), Nat.add_sub_cancel_left]
    cases i with
    | zero => rw [Nat.add_zero, update_self, List.getElem?_cons_zero]
    | succ i =>
      rw [update_of_ne (by omega), hf _ hge, List.getElem?_cons_succ, List.getElem?_nil]

theorem update_handles {f : ℕ → Option ℕ} {a : ℕ} (hf : ∀ x, a ≤ x → f x = none) (p q x : ℕ) :
  update (update f a (some p)) (a + 1) (some q) x =
    if x < a then f x else [p, q][x - a]?
  := by
  have hf' (x : ℕ) (hx : a + 1 ≤ x) : update f a (some p) x = none := by
    rw [update_of_ne (by omega), hf x (by omega)]
  rw [update_handle hf' q x, update_handle hf p x]
  rcases lt_trichotomy x a with hlt | rfl | hgt
  · rw [if_pos (by omega), if_pos hlt, if_pos hlt]
  · rw [if_pos (by omega), if_neg (by omega), if_neg (by omega), Nat.sub_self]
    rfl
  · rw [if_neg (by omega), if_neg (by omega), show x - a = x - (a + 1) + 1 by omega]
    rfl

theorem InRange.handleOf_eq_none (h : InRange o) (x : ℕ) (hx : o.allocated ≤ x) :
  o.handleOf x = none
  := by
  rw [Objects.handleOf, Function.comp_apply, h.surfaces x hx, map_none]

theorem createFlipChainSurface_handleOf (hrange : InRange o) (dd : ℕ) {rbPrimary : ℕ} (hne : rbPrimary ≠ 0)
    (rbBackbuffer x : ℕ) :
  (createFlipChainSurface dd rbPrimary rbBackbuffer true true o).2.1.handleOf x =
    if x < o.allocated then o.handleOf x
    else (rbPrimary :: if rbBackbuffer = 0 then [] else [rbBackbuffer])[x - o.allocated]?
  := by
  have hprimary : (surfaceAlloc dd rbBackbuffer (surfaceAlloc dd rbPrimary o)).surfaces o.allocated =
      some ⟨1, rbPrimary, some dd, none, none, none⟩ := by
    have hself : (surfaceAlloc dd rbPrimary o).surfaces o.allocated =
        some ⟨1, rbPrimary, some dd, none, none, none⟩ := update_self ..
    rw [← hself]
    exact update_of_ne (Nat.ne_of_lt (Nat.lt_succ_self _)) _ _
  have hnone := hrange.handleOf_eq_none
  rw [createFlipChainSurface, if_neg hne]
  simp only [Bool.not_true, Bool.false_eq_true, if_false]
  by_cases hback : rbBackbuffer = 0
  · rw [if_pos hback, if_pos hback]
    rw [handleOf_setPrimary, handleOf_surfaceAlloc]
    exact update_handle hnone rbPrimary x
  · rw [if_neg hback, if_neg hback]
    simp only [hprimary]
    have hset := @handleOf_setSurface_of _ _ _ ⟨1, rbPrimary, some dd,
      some (surfaceAlloc dd rbPrimary o).allocated, none, none⟩ hprimary rfl
    rw [handleOf_setPrimary, hset, handleOf_surfaceAlloc, handleOf_surfaceAlloc]
    exact update_handles hnone rbPrimary rbBackbuffer x

theorem createFlipChainSurface_destroyed (dd rbPrimary rbBackbuffer : ℕ) (o : Objects) :
  (createFlipChainSurface dd rbPrimary rbBackbuffer true true o).2.2 = []
  := by
  rw [createFlipChainSurface]
  split_ifs <;> rfl

theorem createRegularSurface_handleOf (hrange : InRange o) (dd caps : ℕ) {rbPrimary : ℕ}
    (hne : rbPrimary ≠ 0) (x : ℕ) :
  (createRegularSurface dd caps rbPrimary true o).2.1.handleOf x =
    if x < o.allocated then o.handleOf x else [rbPrimary][x - o.allocated]?
  := by
  have hnone := hrange.handleOf_eq_none
  have hcreated : (createRegularSurface dd caps rbPrimary true o).2.1.handleOf =
      update o.handleOf o.allocated (some rbPrimary) := by
    rw [createRegularSurface, if_neg hne]
    simp only [Bool.not_true, Bool.false_eq_true, if_false]
    split_ifs
    · exact (handleOf_setPrimary ..).trans (handleOf_surfaceAlloc ..)
    · exact handleOf_surfaceAlloc ..
  rw [hcreated]
  exact update_handle hnone rbPrimary x

theorem createRegularSurface_destroyed (dd caps rbPrimary : ℕ) (o : Objects) :
  (createRegularSurface dd caps rbPrimary true o).2.2 = []
  := by
  rw [createRegularSurface]
  simp only [Bool.not_true, Bool.false_eq_true, if_false]
  split_ifs <;> rfl

/-- A backend surface that has just been made is destroyed again when there is no memory for its
surface. -/
theorem destroy_created (h : b.Sound) :
  let r := rbSurfaceCreate true b
  r.1 ≠ 0 → (rbSurfaceDestroy r.1 r.2).Sound ∧ (rbSurfaceDestroy r.1 r.2).getSurface = b.getSurface
  := by
  intro r hne
  obtain ⟨hsound, -, hnone, hget, -⟩ := h.create hne
  have hwindow : r.2.surfaceWindow (b.surfacesMade + 1) = 0 := update_self ..
  have hclosed : Backend.Closed [r.1] r.2 := by
    intro surf hsurf s hs w hw
    rw [mem_singleton.mp hsurf, hget, update_self] at hs
    cases hs
    rw [hwindow] at hw
    exact absurd (hsound.three_le_window hw) (by decide)
  obtain ⟨hshrinks, hget'⟩ := Backend.foldl_rbSurfaceDestroy hsound hclosed
  rw [foldl_cons, foldl_nil] at hshrinks
  use hshrinks.sound
  funext surf
  have hsurf := hget' surf
  rw [foldl_cons, foldl_nil] at hsurf
  rw [hsurf, hget]
  by_cases heq : surf = r.1
  · rw [if_pos (mem_singleton.mpr heq), heq, hnone]
  · rw [if_neg (mem_singleton.not.mpr heq), update_of_ne heq]

/-- The call of `CreateSurface` has made backend surfaces with the handles in `hs` and surfaces for
them. -/
theorem Owned.created (h : Owned s) (hrange : InRange s.com.objs)
    (hmade : Backend.Made s.backend b hs) {results : SurfaceResults}
    (hdestroyed : (createSurface dd caps results s.com.objs).2.2 = [])
    (hhandle : ∀ x, (createSurface dd caps results s.com.objs).2.1.handleOf x =
      if x < s.com.objs.allocated then s.com.objs.handleOf x else hs[x - s.com.objs.allocated]?) :
  Owned (s.call (.createSurface dd caps results) b)
  := by
  have hbackend : (s.call (.createSurface dd caps results) b).backend = b := by
    simp [SurfaceState.call, comCall, ownedWindow, hdestroyed]
  rw [Owned, hbackend]
  apply h.make hrange hmade hhandle
  intro x surf hx
  simp only [SurfaceState.call, comCall]
  obtain ⟨m, hm, rfl⟩ := map_eq_some_iff.mp hx
  have hm' : (Ddraw.createSurface dd caps results s.com.objs).2.1.surfaces x = some m := hm
  rw [hm', bind_some]

theorem Owned.notCreated (h : Owned s) (hrange : InRange s.com.objs)
    (hmade : Backend.Made s.backend b []) {results : SurfaceResults}
    (heq : createSurface dd caps results s.com.objs = (none, s.com.objs, [])) :
  Owned (s.call (.createSurface dd caps results) b)
  := by
  apply h.created hrange hmade
  · rw [heq]
  · intro x
    rw [heq]
    split_ifs with hlt
    · rfl
    · rw [hrange.handleOf_eq_none x (not_lt.mp hlt), List.getElem?_nil]

/-- The conditions under which a call of `CreateSurface` makes surfaces that own their backend surfaces:
there are free handles, and for a flip chain the window has no backbuffer and there is memory for the
objects. -/
def SafeCreation (o : Objects) (b : Backend) (dd caps : ℕ) (env : Creation) : Prop :=
  if isFlipChain caps then
    (∀ d ∈ o.dds dd, ∀ w ∈ b.getWindow d.rbWindow, (b.windows w).backbuffer = 0) ∧
      env.memory = true ∧ env.backMemory = true ∧ 2 ≤ b.freeHandles
  else 1 ≤ b.freeHandles

instance (o : Objects) (b : Backend) (dd caps : ℕ) (env : Creation) :
    Decidable (SafeCreation o b dd caps env) := by
  unfold SafeCreation
  infer_instance

theorem createSurface_eq {d : DirectDraw} (hd : o.dds dd = some d)
    (hwin : ¬ (caps &&& ddscapsPrimarysurface ≠ 0 ∧ d.rbWindow = 0)) {results : SurfaceResults}
    (hbackend : results.backend = true) :
  createSurface dd caps results o =
    if isFlipChain caps then createFlipChainSurface dd results.rbPrimary results.rbBackbuffer
      results.memory results.backMemory o
    else createRegularSurface dd caps results.rbPrimary results.memory o
  := by
  simp [createSurface, hd, hbackend, if_neg hwin]

theorem Owned.flipChain (h : Owned s) (hrange : InRange s.com.objs) {d : DirectDraw}
    (hd : s.com.objs.dds dd = some d)
    (hflip : isFlipChain caps = true) {env : Creation}
    (hwin : ¬ (caps &&& ddscapsPrimarysurface ≠ 0 ∧ d.rbWindow = 0)) (hbackend : env.backend = true)
    (backbufferCount : ℤ)
    (hsafe : (∀ d ∈ s.com.objs.dds dd, ∀ w ∈ s.backend.getWindow d.rbWindow,
        (s.backend.windows w).backbuffer = 0) ∧
      env.memory = true ∧ env.backMemory = true ∧ 2 ≤ s.backend.freeHandles) :
  let r := rbSurfaceCreateFlipChain d.rbWindow backbufferCount env.primary env.chained s.backend
  let r' := if r.1 ≠ 0 ∧ env.memory = true then
      let r' := chainBackbuffer d.rbWindow env.fallback r.2
      (⟨env.backend, r.1, r'.1, env.memory, env.backMemory⟩, r'.2)
    else ((⟨env.backend, r.1, 0, env.memory, env.backMemory⟩ : SurfaceResults), r.2)
  Owned (s.call (.createSurface dd caps r'.1) r'.2)
  := by
  obtain ⟨hback, hmemory, hbackMemory, hfree⟩ := hsafe
  intro r r'
  rcases @Backend.Made.flipChain _ h.sound d.rbWindow backbufferCount env.primary env.chained (hback d hd)
    (fun _ => hfree) env.fallback with ⟨hzero, hmade⟩ | ⟨hne, hmade⟩
  · have hr' : r' = ((⟨env.backend, r.1, 0, env.memory, env.backMemory⟩ : SurfaceResults), r.2) :=
      if_neg fun hand => hand.1 hzero
    rw [hr']
    apply h.notCreated hrange hmade
    rw [createSurface_eq hd hwin hbackend, if_pos hflip, createFlipChainSurface, if_pos hzero]
  · have hr' : r' = (⟨env.backend, r.1, (chainBackbuffer d.rbWindow env.fallback r.2).1, env.memory,
        env.backMemory⟩, (chainBackbuffer d.rbWindow env.fallback r.2).2) := if_pos ⟨hne, hmemory⟩
    rw [hr']
    apply h.created hrange hmade
    · rw [createSurface_eq hd hwin hbackend, if_pos hflip, hmemory, hbackMemory]
      exact createFlipChainSurface_destroyed ..
    · intro x
      rw [createSurface_eq hd hwin hbackend, if_pos hflip, hmemory, hbackMemory]
      exact createFlipChainSurface_handleOf hrange dd hne _ x

theorem Owned.regular (h : Owned s) (hrange : InRange s.com.objs) {d : DirectDraw}
    (hd : s.com.objs.dds dd = some d) (hflip : ¬ isFlipChain caps = true) {env : Creation}
    (hwin : ¬ (caps &&& ddscapsPrimarysurface ≠ 0 ∧ d.rbWindow = 0)) (hbackend : env.backend = true)
    (hfree : 1 ≤ s.backend.freeHandles) :
  let r := rbSurfaceCreate env.primary s.backend
  let results : SurfaceResults := ⟨env.backend, r.1, 0, env.memory, env.backMemory⟩
  Owned (s.call (.createSurface dd caps results) r.2)
  := by
  intro r results
  have hmade := Backend.Made.create h.sound fun _ : env.primary = true => hfree
  have hregular := @createSurface_eq _ _ _ _ hd hwin results hbackend
  rw [if_neg hflip] at hregular
  by_cases hzero : r.1 = 0
  · rw [if_pos hzero] at hmade
    apply h.notCreated hrange hmade
    rw [hregular, createRegularSurface, if_pos hzero]
  · rw [if_neg hzero] at hmade
    have hprimary : env.primary = true := by
      by_contra hfalse
      apply hzero
      rw [Bool.not_eq_true] at hfalse
      simp [r, rbSurfaceCreate, hfalse]
    cases hmemory : env.memory with
    | true =>
      have hresults : results.memory = true := hmemory
      rw [hresults] at hregular
      apply h.created hrange hmade
      · rw [hregular]
        exact createRegularSurface_destroyed ..
      · intro x
        rw [hregular]
        exact createRegularSurface_handleOf hrange dd caps hzero x
    | false =>
      have hresults : results.memory = false := hmemory
      rw [hresults, createRegularSurface, if_neg hzero] at hregular
      simp only [Bool.not_false, if_true] at hregular
      simp only [SurfaceState.call, comStep, comCall, hregular, ownedWindow, foldl_cons,
        foldl_nil]
      simp only [r, results, hprimary] at hzero ⊢
      obtain ⟨hsound, hget⟩ := destroy_created h.sound hzero
      apply (h.of_getSurface hsound hget).of_made
      intro x surf hx
      exact if_pos (hrange.lt_of_handleOf hx)

theorem Owned.createSurface (h : Owned s) (hrange : InRange s.com.objs)
    (backbufferCount : ℤ) {env : Creation} (hsafe : SafeCreation s.com.objs s.backend dd caps env) :
  Owned (s.step (.createSurface dd caps backbufferCount env))
  := by
  simp only [SurfaceState.step, surfaceResults]
  have hrefl : Backend.Made s.backend s.backend [] := Backend.Made.of_same h.sound rfl rfl rfl
  cases hd : s.com.objs.dds dd with
  | none =>
    apply h.notCreated hrange hrefl
    rw [Ddraw.createSurface, hd]
  | some d =>
    simp only
    by_cases hbackend : env.backend = true
    · rw [if_neg (by simp [hbackend])]
      by_cases hwin : caps &&& ddscapsPrimarysurface ≠ 0 ∧ d.rbWindow = 0
      · rw [if_pos hwin]
        apply h.notCreated hrange hrefl
        simp [Ddraw.createSurface, hd, if_pos hwin]
      · rw [if_neg hwin]
        by_cases hflip : isFlipChain caps = true
        · rw [if_pos hflip]
          rw [SafeCreation, if_pos hflip] at hsafe
          exact h.flipChain hrange hd hflip hwin hbackend backbufferCount hsafe
        · rw [if_neg hflip]
          rw [SafeCreation, if_neg hflip] at hsafe
          exact h.regular hrange hd hflip hwin hbackend hsafe
    · rw [if_pos (by simp [hbackend])]
      apply h.notCreated hrange hrefl
      rw [Ddraw.createSurface, hd]
      simp [hbackend]

end

/-! ### Runs -/

/-- The guest makes calls with objects that are there and gives back only references that it has.  Calls
that need something of the backend are not given its answers, and the handles of the backend are
changed by nobody else. -/
def SurfacePermitted (s : SurfaceState) : SurfaceCall → Prop
  | .createSurface dd _ _ _ => (s.com.objs.count (.dd dd)).isSome
  | .setDisplayMode dd _ _ => (s.com.objs.count (.dd dd)).isSome
  | .com c => Permitted s.com c ∧ c.MakesNoSurface
  | .handles op => s.backend.Apart op
  | _ => True

/-- No backbuffer is destroyed whose surface stays, and there are handles, memory and room for
references. -/
def SurfaceSafe (s : SurfaceState) : SurfaceCall → Prop
  | .createSurface dd caps _ env => SafeCreation s.com.objs s.backend dd caps env
  | .com c => HasRoom s.com.objs c ∧ SafeRelease s.com.objs s.backend (c.doomed s.com.objs) ∧
      ∀ win ∈ ownedWindow s.com.objs c, SafeWindow s.com.objs s.backend (c.doomed s.com.objs) win
  | .destroyWindow win => SafeWindow s.com.objs s.backend [] win
  | _ => True

instance (c : ComCall) : Decidable c.MakesNoSurface := by
  apply ComCall.casesOn (motive := fun c => Decidable c.MakesNoSurface) c <;> intros <;>
    first | exact .isTrue trivial | exact .isFalse id

instance (s : SurfaceState) (c : SurfaceCall) : Decidable (SurfacePermitted s c) := by
  cases c <;> unfold SurfacePermitted <;> infer_instance

instance (s : SurfaceState) (c : SurfaceCall) : Decidable (SurfaceSafe s c) := by
  cases c <;> unfold SurfaceSafe <;> infer_instance

/-- The counts are right, and surfaces own backend surfaces. -/
structure SurfaceInvariant (s : SurfaceState) : Prop where
  accounted : Accounted s.com
  owns : Owns s.com.objs s.backend s.made

theorem safeRelease_nil (o : Objects) (b : Backend) :
  SafeRelease o b []
  := by
  intro x hx
  cases hx

theorem SurfaceInvariant.step {s : SurfaceState} (h : SurfaceInvariant s) {c : SurfaceCall}
    (hpermitted : SurfacePermitted s c) (hsafe : SurfaceSafe s c) :
  SurfaceInvariant (s.step c)
  := by
  have hrange : InRange s.com.objs := by
    obtain ⟨r, haccounts, -⟩ := h.accounted
    exact haccounts.range
  have huses {dd : ℕ} (hdd : (s.com.objs.count (.dd dd)).isSome) :
      ∀ obj ∈ [ComObject.dd dd], (s.com.objs.count obj).isSome := by
    intro obj hobj
    rw [mem_singleton.mp hobj]
    exact hdd
  cases c with
  | createSurface dd caps backbufferCount env =>
    constructor
    · apply h.accounted.step
      · refine ⟨huses hpermitted, ?_⟩
        rintro obj ⟨⟩
      · rintro obj ⟨⟩
      · intro hflip _
        have hresults : (surfaceResults s.com.objs dd caps backbufferCount env s.backend).1.backMemory =
            env.backMemory := by
          simp only [surfaceResults]
          cases s.com.objs.dds dd with
          | none => rfl
          | some d =>
            simp only
            split_ifs <;> rfl
        rw [SurfaceSafe, SafeCreation, if_pos hflip] at hsafe
        rw [hresults]
        exact hsafe.2.2.1
    · exact Owned.createSurface h.owns hrange backbufferCount hsafe
  | setDisplayMode dd supported created =>
    have hpermitted' (win : ℕ) : Permitted s.com (.setDisplayMode dd supported win) := by
      refine ⟨huses hpermitted, ?_⟩
      rintro obj ⟨⟩
    constructor
    · apply h.accounted.step (hpermitted' _)
      · rintro obj ⟨⟩
      · trivial
    · apply Owns.call _ h.accounted (hpermitted' _) trivial (safeRelease_nil _ _)
      · rintro win ⟨⟩
      · cases s.com.objs.dds dd with
        | none => exact h.owns
        | some d =>
          simp only
          split_ifs
          · obtain ⟨hsound, hget⟩ := h.owns.sound.createWindow created
            exact h.owns.of_getSurface hsound hget
          · exact h.owns
  | com c =>
    obtain ⟨hcom, hmakes⟩ := hpermitted
    obtain ⟨hroom, hrelease, hwindow⟩ := hsafe
    constructor
    · apply h.accounted.step hcom hroom
      cases c with
      | createSurface dd caps results => exact hmakes.elim
      | _ => trivial
    · exact h.owns.call h.accounted hcom hmakes hrelease hwindow
  | createWindow created =>
    obtain ⟨hsound, hget⟩ := h.owns.sound.createWindow created
    exact ⟨h.accounted, h.owns.of_getSurface hsound hget⟩
  | destroyWindow win =>
    obtain ⟨hsound, hget⟩ := h.owns.sound.destroyWindow (fun w hw => by
      by_contra hsome
      obtain ⟨x, hx, -⟩ := hsafe w hw (isSome_iff_ne_none.mpr hsome)
      cases hx)
    exact ⟨h.accounted, h.owns.of_getSurface hsound hget⟩
  | handles op =>
    obtain ⟨hsound, hget⟩ := h.owns.sound.handles hpermitted
    exact ⟨h.accounted, h.owns.of_getSurface hsound hget⟩

theorem start_surfaceInvariant :
  SurfaceInvariant .start
  := by
  have hsurface : handleTypeFile ≠ handleTypeRbSurface := by decide
  have hwindow : handleTypeFile ≠ handleTypeRbWindow := by decide
  have hget : ∀ surf, SurfaceState.start.backend.getSurface surf = none := by
    intro surf
    by_contra hsome
    obtain ⟨s, hs⟩ := ne_none_iff_exists'.mp hsome
    obtain ⟨i, rfl, hi⟩ := exists_slot_of_objectOf handleTypeRbSurface_ne_zero hs
    simp only [slotObject, SurfaceState.start, wineHandleManagerRuntimeInit] at hi
    split_ifs at hi with hle hslot hslot
    · exact hsurface hslot.2
    · exact hslot.1 rfl
  constructor
  · exact ⟨_, start_accounts, ⟨fun _ => le_rfl, fun _ => le_rfl, fun _ => le_rfl⟩⟩
  · refine ⟨⟨?_, ?_, ?_, ?_, ?_, ?_⟩, ?_, ?_, ?_⟩
    · intro i hlive htype
      simp only [SurfaceState.start, wineHandleManagerRuntimeInit] at hlive htype
      split_ifs at hlive htype with hle
      · exact (htype.elim hsurface hwindow).elim
      · exact absurd rfl hlive
    · intro surf s hs
      rw [hget] at hs
      cases hs
    · intro surf surf' s hs
      rw [hget] at hs
      cases hs
    · intro surf s hs
      rw [hget] at hs
      cases hs
    · intro s h1 h0
      exact absurd (h1.trans h0) (by decide)
    · intro s _
      rfl
    · rintro x surf ⟨⟩
    · intro surf s hs
      rw [hget] at hs
      cases hs
    · rintro x x' surf ⟨⟩

/-- Each surface with references has a live handle, that of the backend surface that was made for it and
for no other, and each backend surface that has been made is destroyed once, when its surface is
gone. -/
structure SurfacesOk (s : SurfaceState) : Prop where
  live : ∀ x m, s.com.objs.surfaces x = some m → 0 < m.refCount →
    s.backend.getSurface m.rbSurface = some (s.made x)
  distinct : ∀ x x', (s.com.objs.surfaces x).isSome → (s.com.objs.surfaces x').isSome →
    s.made x = s.made x' → x = x'
  kept : ∀ x, (s.com.objs.surfaces x).isSome → s.backend.destroyed (s.made x) = 0
  once : ∀ b, 1 ≤ b → b ≤ s.backend.surfacesMade →
    (∀ x, (s.com.objs.surfaces x).isSome → s.made x ≠ b) → s.backend.destroyed b = 1

theorem SurfaceInvariant.surfacesOk {s : SurfaceState} (h : SurfaceInvariant s) :
  SurfacesOk s
  := by
  have howns := h.owns
  have hlive {x : ℕ} (hx : (s.com.objs.surfaces x).isSome) :
      ∃ surf, s.com.objs.handleOf x = some surf ∧ s.backend.getSurface surf = some (s.made x) := by
    obtain ⟨m, hm⟩ := isSome_iff_exists.mp hx
    exact ⟨m.rbSurface, handleOf_of hm, howns.surface x _ (handleOf_of hm)⟩
  constructor
  · intro x m hm _
    exact howns.surface x m.rbSurface (handleOf_of hm)
  · intro x x' hx hx' heq
    obtain ⟨surf, hhandle, hsurf⟩ := hlive hx
    obtain ⟨surf', hhandle', hsurf'⟩ := hlive hx'
    rw [← heq] at hsurf'
    rw [howns.sound.unique surf surf' _ hsurf hsurf'] at hhandle
    exact howns.distinct x x' surf' hhandle hhandle'
  · intro x hx
    obtain ⟨surf, -, hsurf⟩ := hlive hx
    exact howns.sound.live surf _ hsurf
  · intro b h1 hle hnone
    apply howns.sound.once b h1 hle
    intro surf hsurf
    obtain ⟨x, hx⟩ := howns.owner surf b hsurf
    have hmade := howns.surface x surf hx
    rw [hsurf, some.injEq] at hmade
    obtain ⟨m, hm, -⟩ := map_eq_some_iff.mp hx
    apply hnone x _ hmade.symm
    rw [hm]
    rfl

/-- Whatever is called, surfaces own live backend surfaces as long as every call is safe. -/
theorem surfaces_own_backend {calls : List SurfaceCall}
    (hpermitted : Along SurfaceState.step SurfacePermitted .start calls)
    (hsafe : Along SurfaceState.step SurfaceSafe .start calls) :
  SurfacesOk (calls.foldl SurfaceState.step .start)
  := by
  apply SurfaceInvariant.surfacesOk
  apply (hpermitted.and hsafe).invariant SurfaceInvariant _ start_surfaceInvariant
  rintro s c h ⟨hpermitted, hsafe⟩
  exact h.step hpermitted hsafe

def Creation.enough : Creation := ⟨true, true, true, true, true, true⟩

def chainAndBackbuffer : List SurfaceCall :=
  [.createWindow true, .com (.directDrawCreate true), .com (.setCooperativeLevel 1 (some 3)),
    .createSurface 1 (ddscapsPrimarysurface ||| ddscapsFlip) 1 .enough,
    .com (.getAttachedSurface 2 ddscapsBackbuffer true)]

/-- The guest gives up all references, the one to the backbuffer first, and the window is destroyed. -/
def backbufferFirst : List SurfaceCall :=
  chainAndBackbuffer ++ [.com (.release (.surface 3)), .com (.release (.surface 2)),
    .com (.release (.dd 1)), .destroyWindow 3]

theorem surfaces_own_backend_backbufferFirst :
  Along SurfaceState.step SurfacePermitted .start backbufferFirst ∧
    Along SurfaceState.step SurfaceSafe .start backbufferFirst ∧
    SurfacesOk (backbufferFirst.foldl SurfaceState.step .start)
  := by
  have hpermitted : Along SurfaceState.step SurfacePermitted .start backbufferFirst := by decide +kernel
  have hsafe : Along SurfaceState.step SurfaceSafe .start backbufferFirst := by decide +kernel
  exact ⟨hpermitted, hsafe, surfaces_own_backend hpermitted hsafe⟩

theorem SurfacesOk.getSurface_isSome {s : SurfaceState} (h : SurfacesOk s) {x surf n : ℕ}
    (hhandle : s.com.objs.handleOf x = some surf) (hcount : s.com.objs.count (.surface x) = some (n + 1)) :
  (s.backend.getSurface surf).isSome
  := by
  obtain ⟨m, hm, rfl⟩ := map_eq_some_iff.mp hhandle
  rw [Objects.count, hm, map_some, some.injEq] at hcount
  rw [h.live x m hm (hcount ▸ Nat.succ_pos n)]
  rfl

/-- The guest gives up the primary surface and the DirectDraw object and keeps the backbuffer. -/
def primaryFirst : List SurfaceCall :=
  chainAndBackbuffer ++ [.com (.release (.surface 2)), .com (.release (.dd 1))]

def secondChain : List SurfaceCall :=
  chainAndBackbuffer ++ [.createSurface 1 (ddscapsPrimarysurface ||| ddscapsFlip) 1 .enough]

def windowFirst : List SurfaceCall := chainAndBackbuffer ++ [.destroyWindow 3]

/-- The backbuffer, to which the guest has a reference, has lost its backend surface, or its handle is
that of another one. -/
theorem backbuffer_destroyed :
  (Along SurfaceState.step SurfacePermitted .start primaryFirst ∧
      ¬ SurfacesOk (primaryFirst.foldl SurfaceState.step .start)) ∧
    (Along SurfaceState.step SurfacePermitted .start secondChain ∧
      ¬ SurfacesOk (secondChain.foldl SurfaceState.step .start)) ∧
    Along SurfaceState.step SurfacePermitted .start windowFirst ∧
      ¬ SurfacesOk (windowFirst.foldl SurfaceState.step .start)
  := by
  refine ⟨⟨?_, ?_⟩, ⟨?_, ?_⟩, ?_, ?_⟩
  · decide +kernel
  · intro h
    have hlive := @SurfacesOk.getSurface_isSome _ h 3 5 0 (by decide +kernel) (by decide +kernel)
    revert hlive
    decide +kernel
  · decide +kernel
  · intro h
    have hkept := h.kept 3 (by decide +kernel)
    revert hkept
    decide +kernel
  · decide +kernel
  · intro h
    have hlive := @SurfacesOk.getSurface_isSome _ h 3 5 1 (by decide +kernel) (by decide +kernel)
    revert hlive
    decide +kernel

end Ddraw
