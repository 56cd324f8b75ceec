import MyWine.Ddraw.Accounts
import MyWine.Lib.Run

/-!
# The reference counts along the calls of the guest

Every call keeps the counts right for the references that the guest then has, except that two calls
lose a reference: `SetPalette` with the palette that the surface has counts the palette once more, and
a further primary surface takes the place of the one before it without a release.
`comCall_accounts` says this for one call.
-/

namespace Ddraw

open References Run Function List Option

section

variable {o : Objects} {r : Outside} {surf : ℕ} {m m' : Surface}

theorem Accounts.pos (h : Accounts o r) (hm : o.surfaces surf = some m) :
  0 < m.refCount
  := by
  apply Nat.pos_of_ne_zero
  intro hzero
  apply h.surfacePos surf
  rw [surfaceCount_of hm, hzero]

variable {count : ℕ → Option ℕ} {n dd k x attached a : ℕ} {d : DirectDraw} {obj : ComObject}
  {c : ComCall}

theorem Positive.update (h : Positive count) (hn : 0 < n) (k : ℕ) :
  Positive (update count k (some n))
  := by
  intro j
  by_cases hj : j = k
  · rw [hj, update_self, ne_eq, some.injEq]
    exact hn.ne'
  · rw [update_of_ne hj]
    apply h j

theorem Accounts.setSurface {r' : Outside} (h : Accounts o r) (hm : o.surfaces surf = some m)
    (hpos : 0 < m'.refCount) (hmoved : Moved surf m m' r r') :
  Accounts (o.setSurface surf m') r'
  := by
  constructor
  · exact h.toCounted.setSurface hm hmoved
  · rw [surfaceCount_setSurface]
    exact Positive.update h.surfacePos hpos surf

/-! ### DirectDraw objects change -/

theorem primaryOf_of (hd : o.dds dd = some d) :
  o.primaryOf dd = d.primarySurface
  := by
  rw [Objects.primaryOf, Function.comp_apply, hd, bind_some]

/-- A DirectDraw object goes away or is replaced, and its references to primary surfaces come from
outside or go there. -/
theorem Accounts.updateDd {r' : Outside} {dd : ℕ} {d : DirectDraw} (h : Accounts o r)
    (hd : o.dds dd = some d) (v : Option DirectDraw)
    (hprimary : ∀ x, r'.surface x + (if v.bind DirectDraw.primarySurface = some x then 1 else 0) =
      r.surface x + (if d.primarySurface = some x then 1 else 0))
    (hpalette : r'.palette = r.palette) (hclipper : r'.clipper = r.clipper) :
  Accounts { o with dds := update o.dds dd v } r'
  := by
  have hlt := lt_of_some h.range.dds hd
  have hprimaryOf : Objects.primaryOf { o with dds := update o.dds dd v } =
      update o.primaryOf dd (v.bind DirectDraw.primarySurface) := Function.comp_update ..
  refine ⟨⟨{ h.range with dds := update_eq_none h.range.dds le_rfl hlt v }, ?_, ?_, ?_, h.palettePos,
    h.clipperPos⟩, h.surfacePos⟩
  · intro x
    have hholders := @holders_update _ _ _ _ o.primaryOf hlt (v.bind DirectDraw.primarySurface) x
    rw [primaryOf_of hd] at hholders
    have hx : (o.surfaceCount x).getD 0 = _ := h.surfaces x
    have hprimaryx := hprimary x
    change (o.surfaceCount x).getD 0 = r'.surface x + holders o.allocated o.nextOf x +
      holders o.allocated (Objects.primaryOf { o with dds := update o.dds dd v }) x
    rw [hprimaryOf]
    rw [Objects.surfaceRefs] at hx
    omega
  · rw [hpalette]
    exact h.palettes
  · rw [hclipper]
    exact h.clippers

theorem Accounts.setDd {dd : ℕ} {d d' : DirectDraw} (h : Accounts o r) (hd : o.dds dd = some d)
    (hprimary : d'.primarySurface = d.primarySurface) :
  Accounts (o.setDd dd d') r
  := by
  apply h.updateDd hd (some d') _ rfl rfl
  intro x
  rw [bind_some, hprimary]

/-! ### References are added -/

theorem surfaceAddRef_accounts (h : Accounts o r) (hm : o.surfaces surf = some m)
    (hroom : m.refCount + 1 < refLimit) :
  Accounts (surfaceAddRef surf o) (r.gain (some (.surface surf)))
  := by
  rw [surfaceAddRef, hm]
  simp only
  rw [Nat.mod_eq_of_lt hroom]
  refine h.setSurface hm (Nat.succ_pos _) ⟨?_, fun _ => rfl, fun _ => rfl⟩
  intro x
  simp only [Outside.gain, more]
  split_ifs <;> omega

theorem paletteAddRef_accounts (h : Accounts o r) {pal : ℕ} (hn : o.palettes pal = some n)
    (hroom : n + 1 < refLimit) :
  Accounts (paletteAddRef o (some pal)) (r.gain (some (.palette pal)))
  := by
  have hrange := update_eq_none h.range.palettes le_rfl (lt_of_some h.range.palettes hn)
  refine ⟨⟨{ h.range with palettes := hrange _ }, h.surfaces, ?_, h.clippers,
    h.palettePos.addRef hn hroom, h.clipperPos⟩, h.surfacePos⟩
  have hbalanced := h.palettes.addRef hn hroom
  intro p
  rw [paletteAddRef, hbalanced p]
  exact Nat.add_right_comm ..

theorem clipperAddRef_accounts (h : Accounts o r) {clipper : ℕ} (hn : o.clippers clipper = some n)
    (hroom : n + 1 < refLimit) :
  Accounts (clipperAddRef o (some clipper)) (r.gain (some (.clipper clipper)))
  := by
  have hrange := update_eq_none h.range.clippers le_rfl (lt_of_some h.range.clippers hn)
  refine ⟨⟨{ h.range with clippers := hrange _ }, h.surfaces, h.palettes, ?_, h.palettePos,
    h.clipperPos.addRef hn hroom⟩, h.surfacePos⟩
  have hbalanced := h.clippers.addRef hn hroom
  intro c
  rw [clipperAddRef, hbalanced c]
  exact Nat.add_right_comm ..

theorem addReference_accounts (h : Accounts o r) (hn : o.count obj = some n)
    (hroom : n + 1 < refLimit) :
  Accounts (o.addReference (some obj)) (r.gain (some obj))
  := by
  cases obj with
  | dd x =>
    obtain ⟨d, hd, -⟩ := map_eq_some_iff.mp hn
    simp only [Objects.addReference, ddAddRef, hd]
    exact h.setDd hd rfl
  | surface x =>
    obtain ⟨m, hm, hcount⟩ := map_eq_some_iff.mp hn
    rw [← hcount] at hroom
    exact surfaceAddRef_accounts h hm hroom
  | palette x => exact paletteAddRef_accounts h hn hroom
  | clipper x => exact clipperAddRef_accounts h hn hroom

/-! ### References are given up -/

theorem liveSurfaces_le (o : Objects) :
  o.liveSurfaces ≤ o.allocated
  := by
  calc o.liveSurfaces ≤ (Finset.range o.allocated).card := Finset.card_filter_le ..
    _ = o.allocated := Finset.card_range _

theorem releaseSurface_accounts (h : Accounts o (r.gain (some (.surface surf)))) :
  Accounts (o.releaseSurface surf).1 r
  := by
  have hreleased := surfaceRelease_released h.toCounted (liveSurfaces_le o)
  constructor
  · exact hreleased.toCounted
  · intro x hx
    exact h.surfacePos x (hreleased.zero x hx)

theorem more_some (refs : ℕ → ℕ) (k : ℕ) :
  more refs k = fun j => refs j + if some k = some j then 1 else 0
  := by
  funext j
  simp [more, eq_comm]

theorem Outside.gain_surface (r : Outside) (surf : Option ℕ) :
  r.gain (surf.map .surface) = { r with surface := fun x => r.surface x + if surf = some x then 1 else 0 }
  := by
  cases surf with
  | none => rfl
  | some surf => rw [← more_some]; rfl

theorem Outside.gain_palette (r : Outside) (pal : Option ℕ) :
  r.gain (pal.map .palette) = { r with palette := fun p => r.palette p + if pal = some p then 1 else 0 }
  := by
  cases pal with
  | none => rfl
  | some pal => rw [← more_some]; rfl

theorem Outside.gain_clipper (r : Outside) (clipper : Option ℕ) :
  r.gain (clipper.map .clipper) =
    { r with clipper := fun c => r.clipper c + if clipper = some c then 1 else 0 }
  := by
  cases clipper with
  | none => rfl
  | some clipper => rw [← more_some]; rfl

theorem paletteRelease_accounts {pal : Option ℕ} (h : Accounts o (r.gain (pal.map .palette))) :
  Accounts (paletteRelease o pal) r
  := by
  rw [Outside.gain_palette] at h
  have hpalette := @balanced_elim_release o.palettes (o.paletteRefs r.palette) pal (by
    intro k
    rw [h.palettes k]
    exact Nat.add_right_comm ..) h.palettePos
  have hrange x (hx : o.allocated ≤ x) := elim_release_eq_none (h.range.palettes x hx) pal
  rw [paletteRelease_eq]
  exact ⟨⟨{ h.range with palettes := hrange }, h.surfaces, hpalette.1, h.clippers, hpalette.2,
    h.clipperPos⟩, h.surfacePos⟩

theorem clipperRelease_accounts {clipper : Option ℕ} (h : Accounts o (r.gain (clipper.map .clipper))) :
  Accounts (clipperRelease o clipper) r
  := by
  rw [Outside.gain_clipper] at h
  have hclipper := @balanced_elim_release o.clippers (o.clipperRefs r.clipper) clipper (by
    intro k
    rw [h.clippers k]
    exact Nat.add_right_comm ..) h.clipperPos
  have hrange x (hx : o.allocated ≤ x) := elim_release_eq_none (h.range.clippers x hx) clipper
  rw [clipperRelease_eq]
  exact ⟨⟨{ h.range with clippers := hrange }, h.surfaces, h.palettes, hclipper.1, h.palettePos,
    hclipper.2⟩, h.surfacePos⟩

/-! ### Objects with the same pointers -/

/-- The objects of `o'` have the pointers that those of `o` have, and perhaps there are new ones
without any. -/
structure SamePointers (o o' : Objects) : Prop where
  allocated : o.allocated ≤ o'.allocated
  next : o'.nextOf = o.nextOf
  primary : o'.primaryOf = o.primaryOf
  palette : o'.paletteOf = o.paletteOf
  clipper : o'.clipperOf = o.clipperOf

theorem SamePointers.refs {o' : Objects} (hsame : SamePointers o o') (h : InRange o) :
  o'.surfaceRefs = o.surfaceRefs ∧ o'.paletteRefs = o.paletteRefs ∧ o'.clipperRefs = o.clipperRefs
  := by
  have hholders {g : ℕ → Option ℕ} (hg : ∀ x, o.allocated ≤ x → g x = none) (k : ℕ) :=
    holders_of_le hsame.allocated hg k
  have hsurface {α : Type} (f : Surface → Option α) (x : ℕ) (hx : o.allocated ≤ x) :
      ((Option.bind · f) ∘ o.surfaces) x = none := by
    rw [Function.comp_apply, h.surfaces x hx, bind_none]
  have hdd (x : ℕ) (hx : o.allocated ≤ x) : o.primaryOf x = none := by
    rw [Objects.primaryOf, Function.comp_apply, h.dds x hx, bind_none]
  and_intros
  · funext outside x
    rw [Objects.surfaceRefs, Objects.surfaceRefs, hsame.next, hsame.primary,
      @hholders o.nextOf (hsurface Surface.next), hholders hdd]
  · funext outside p
    rw [Objects.paletteRefs, Objects.paletteRefs, hsame.palette,
      @hholders o.paletteOf (hsurface Surface.palette)]
  · funext outside c
    rw [Objects.clipperRefs, Objects.clipperRefs, hsame.clipper,
      @hholders o.clipperOf (hsurface Surface.clipper)]

/-- The counts are right when there are new objects whose counts are those of their references from
outside. -/
theorem Accounts.of_samePointers {o' : Objects} {r' : Outside} (h : Accounts o r)
    (hsame : SamePointers o o') (hrange : InRange o')
    (hsurfaces : ∀ x, (o'.surfaceCount x).getD 0 + r.surface x =
      (o.surfaceCount x).getD 0 + r'.surface x)
    (hpalettes : ∀ p, (o'.palettes p).getD 0 + r.palette p = (o.palettes p).getD 0 + r'.palette p)
    (hclippers : ∀ c, (o'.clippers c).getD 0 + r.clipper c = (o.clippers c).getD 0 + r'.clipper c)
    (hsurfacePos : Positive o'.surfaceCount) (hpalettePos : Positive o'.palettes)
    (hclipperPos : Positive o'.clippers) :
  Accounts o' r'
  := by
  obtain ⟨hs, hp, hc⟩ := hsame.refs h.range
  refine ⟨⟨hrange, ?_, ?_, ?_, hpalettePos, hclipperPos⟩, hsurfacePos⟩
  · intro x
    have hx := h.surfaces x
    have hsurfacesx := hsurfaces x
    rw [hs]
    rw [Objects.surfaceRefs] at hx ⊢
    omega
  · intro p
    have hpp : (o.palettes p).getD 0 = _ := h.palettes p
    have hpalettesp := hpalettes p
    rw [hp]
    rw [Objects.paletteRefs] at hpp ⊢
    omega
  · intro c
    have hcc : (o.clippers c).getD 0 = _ := h.clippers c
    have hclippersc := hclippers c
    rw [hc]
    rw [Objects.clipperRefs] at hcc ⊢
    omega

theorem getD_update_more (hk : count k = none) (refs : ℕ → ℕ) (x : ℕ) :
  (update count k (some 1) x).getD 0 + refs x = (count x).getD 0 + more refs k x
  := by
  by_cases hx : x = k
  · rw [hx, update_self, hk, more_self, getD_some, getD_none]
    omega
  · rw [update_of_ne hx, more_of_ne refs hx]

theorem InRange.succ (h : InRange o) :
  InRange { o with allocated := o.allocated + 1 }
  := by
  constructor <;> intro x hx <;> have hle := Nat.le_of_succ_le hx
  exacts [h.dds x hle, h.surfaces x hle, h.palettes x hle, h.clippers x hle]

theorem update_allocated {α : Type} {f : ℕ → Option α} (h : ∀ x, a ≤ x → f x = none) (v : Option α) :
  ∀ x, a + 1 ≤ x → update f a v x = none
  := update_eq_none h (Nat.le_succ a) (Nat.lt_succ_self a) v

theorem surfaceAlloc_accounts (h : Accounts o r) (dd rbSurface : ℕ) :
  Accounts (surfaceAlloc dd rbSurface o) (r.gain (some (.surface o.allocated)))
  := by
  have hnone := h.range.surfaces o.allocated le_rfl
  have hcount : o.surfaceCount o.allocated = none := by
    rw [Objects.surfaceCount, Function.comp_apply, hnone, map_none]
  have hsurfaceCount : (surfaceAlloc dd rbSurface o).surfaceCount =
      update o.surfaceCount o.allocated (some 1) := Function.comp_update ..
  -- The new surface has no pointers.
  have hbind {α : Type} (f : Surface → Option α) (m : Surface) (hm : f m = none) :
      (Option.bind · f) ∘ update o.surfaces o.allocated (some m) =
        (Option.bind · f) ∘ o.surfaces := by
    rw [Function.comp_update]
    apply update_eq_self_iff.mpr
    rw [Function.comp_apply, hnone, bind_some, hm, bind_none]
  refine h.of_samePointers ⟨Nat.le_succ _, hbind Surface.next _ rfl, rfl, hbind Surface.palette _ rfl,
    hbind Surface.clipper _ rfl⟩ { h.range.succ with surfaces := update_allocated h.range.surfaces _ }
    ?_ (fun _ => rfl) (fun _ => rfl) ?_ h.palettePos h.clipperPos
  · rw [hsurfaceCount]
    exact getD_update_more hcount r.surface
  · rw [hsurfaceCount]
    exact Positive.update h.surfacePos Nat.one_pos _

theorem createPalette_accounts (h : Accounts o r) :
  Accounts o.createPalette (r.gain (some (.palette o.allocated)))
  := by
  refine h.of_samePointers ⟨Nat.le_succ _, rfl, rfl, rfl, rfl⟩
    { h.range.succ with palettes := update_allocated h.range.palettes _ } (fun _ => rfl) ?_
    (fun _ => rfl) h.surfacePos ?_ h.clipperPos
  · exact getD_update_more (h.range.palettes _ le_rfl) r.palette
  · exact Positive.update h.palettePos Nat.one_pos _

theorem createClipper_accounts (h : Accounts o r) :
  Accounts o.createClipper (r.gain (some (.clipper o.allocated)))
  := by
  refine h.of_samePointers ⟨Nat.le_succ _, rfl, rfl, rfl, rfl⟩
    { h.range.succ with clippers := update_allocated h.range.clippers _ } (fun _ => rfl) (fun _ => rfl)
    ?_ h.surfacePos h.palettePos ?_
  · exact getD_update_more (h.range.clippers _ le_rfl) r.clipper
  · exact Positive.update h.clipperPos Nat.one_pos _

theorem createInstance_accounts (h : Accounts o r) :
  Accounts (createInstance o) r
  := by
  refine h.of_samePointers ⟨Nat.le_succ _, rfl, ?_, rfl, rfl⟩
    { h.range.succ with dds := update_allocated h.range.dds _ } (fun _ => rfl) (fun _ => rfl)
    (fun _ => rfl) h.surfacePos h.palettePos h.clipperPos
  have hprimary : (createInstance o).primaryOf = update o.primaryOf o.allocated none :=
    Function.comp_update ..
  rw [hprimary]
  apply update_eq_self_iff.mpr
  rw [Objects.primaryOf, Function.comp_apply, h.range.dds _ le_rfl, bind_none]

theorem disown_accounts (h : Accounts o r) (dd : ℕ) :
  Accounts (disown dd o) r
  := by
  have hbind {α : Type} (f : Surface → Option α) (hf : ∀ m, f { m with ddOwner := none } = f m) :
      (Option.bind · f) ∘ (disown dd o).surfaces = (Option.bind · f) ∘ o.surfaces := by
    funext x
    simp only [Function.comp_apply, disown]
    cases o.surfaces x with
    | none => rfl
    | some m =>
      rw [map_some, bind_some, bind_some]
      split_ifs
      · exact hf m
      · rfl
  have hcount : (disown dd o).surfaceCount = o.surfaceCount := by
    funext x
    simp only [Objects.surfaceCount, Function.comp_apply, disown, Option.map_map]
    congr 1
    funext m
    rw [Function.comp_apply]
    split_ifs <;> rfl
  refine h.of_samePointers ⟨le_rfl, hbind Surface.next fun m => rfl, rfl,
    hbind Surface.palette fun m => rfl, hbind Surface.clipper fun m => rfl⟩
    ⟨h.range.dds, ?_, h.range.palettes, h.range.clippers⟩ ?_ (fun _ => rfl) (fun _ => rfl) ?_
    h.palettePos h.clipperPos
  · intro x hx
    simp only [disown]
    rw [h.range.surfaces x hx, map_none]
  · intro x
    rw [hcount]
  · rw [hcount]
    exact h.surfacePos

/-! ### Attached objects -/

theorem Accounts.moveSurface {next : Option ℕ} (h : Accounts o (r.gain (next.map .surface)))
    (hm : o.surfaces surf = some m) :
  Accounts (o.setSurface surf { m with next := next }) (r.gain (m.next.map .surface))
  := by
  rw [Outside.gain_surface] at h ⊢
  have hpos := h.pos hm
  refine h.setSurface hm hpos ⟨?_, fun _ => rfl, fun _ => rfl⟩
  intro x
  simp only
  omega

theorem addAttachedSurface_accounts (h : Accounts o r) (hm : o.surfaces surf = some m)
    (hattached : o.surfaces attached = some m')
    (hroom : m.next = none → m'.refCount + 1 < refLimit) :
  Accounts (addAttachedSurface surf (some attached) o) r
  := by
  simp only [addAttachedSurface, hm]
  cases hnext : m.next with
  | some _ => exact h
  | none =>
    have hadded := surfaceAddRef_accounts h hattached (hroom hnext)
    have hsurf : ∃ m'', (surfaceAddRef attached o).surfaces surf = some m'' ∧ m''.next = none := by
      rw [surfaceAddRef, hattached]
      by_cases heq : surf = attached
      · rw [heq, hattached] at hm
        cases hm
        refine ⟨{ m with refCount := (m.refCount + 1) % refLimit }, ?_, hnext⟩
        simp [Objects.setSurface, heq]
      · refine ⟨m, ?_, hnext⟩
        simp only [Objects.setSurface, update_of_ne heq, hm]
    obtain ⟨m'', hm'', hnext''⟩ := hsurf
    simp only [hm'']
    have hattached := @Accounts.moveSurface _ _ _ _ (some attached) hadded hm''
    rw [hnext''] at hattached
    exact hattached

theorem deleteAttachedSurface_accounts (h : Accounts o r) (hm : o.surfaces surf = some m) :
  Accounts (deleteAttachedSurface surf (some attached) o).1 r
  := by
  simp only [deleteAttachedSurface, hm]
  by_cases hnext : m.next = some attached
  · rw [if_neg (not_not_intro hnext)]
    have hdetached := @Accounts.moveSurface _ _ _ _ none h hm
    rw [hnext] at hdetached
    exact releaseSurface_accounts hdetached
  · rw [if_pos hnext]
    exact h

theorem Accounts.movePalette {pal : Option ℕ} (h : Accounts o (r.gain (pal.map .palette)))
    (hm : o.surfaces surf = some m) :
  Accounts (o.setSurface surf { m with palette := pal }) (r.gain (m.palette.map .palette))
  := by
  rw [Outside.gain_palette] at h ⊢
  have hpos := h.pos hm
  refine h.setSurface hm hpos ⟨fun _ => rfl, ?_, fun _ => rfl⟩
  intro p
  exact Nat.add_right_comm ..

theorem setPalette_accounts {pal : Option ℕ} (h : Accounts o r) (hm : o.surfaces surf = some m)
    (hroom : ∀ p ∈ pal, ∃ n, o.palettes p = some n ∧ n + 1 < refLimit)
    (hne : ∀ p ∈ pal, m.palette ≠ some p) :
  Accounts (setPalette surf pal o) r
  := by
  have hdropped := paletteRelease_accounts (@Accounts.movePalette _ _ _ _ none h hm)
  rw [paletteRelease_eq] at hdropped
  rw [setPalette, hm]
  simp only [paletteRelease_eq]
  cases pal with
  | none => cases hold : m.palette <;> rw [hold] at hdropped <;> exact hdropped
  | some p =>
    obtain ⟨n, hn, hlimit⟩ := hroom p rfl
    have hp := hne p rfl
    rw [if_pos hp]
    have hadded := paletteAddRef_accounts hdropped ((elim_release_of_ne hp).trans hn) hlimit
    have hattached := @Accounts.movePalette _ _ _ { m with palette := none } (some p) hadded
      (update_self ..)
    simp only [paletteAddRef, Objects.setSurface, update_idem] at hattached ⊢
    exact hattached

theorem Accounts.moveClipper {clipper : Option ℕ} (h : Accounts o (r.gain (clipper.map .clipper)))
    (hm : o.surfaces surf = some m) :
  Accounts (o.setSurface surf { m with clipper := clipper }) (r.gain (m.clipper.map .clipper))
  := by
  rw [Outside.gain_clipper] at h ⊢
  have hpos := h.pos hm
  refine h.setSurface hm hpos ⟨fun _ => rfl, fun _ => rfl, ?_⟩
  intro c
  exact Nat.add_right_comm ..

theorem setClipper_accounts {clipper : Option ℕ} (h : Accounts o r) (hm : o.surfaces surf = some m)
    (hroom : clipper ≠ m.clipper → ∀ c ∈ clipper, ∃ n, o.clippers c = some n ∧ n + 1 < refLimit) :
  Accounts (setClipper surf clipper o) r
  := by
  have hdropped := clipperRelease_accounts (@Accounts.moveClipper _ _ _ _ none h hm)
  rw [clipperRelease_eq] at hdropped
  rw [setClipper, hm]
  simp only [clipperRelease_eq]
  by_cases hsame : clipper = m.clipper
  · rw [if_pos hsame]
    exact h
  rw [if_neg hsame]
  cases clipper with
  | none => exact hdropped
  | some c =>
    obtain ⟨n, hn, hlimit⟩ := hroom hsame c rfl
    have hadded := clipperAddRef_accounts hdropped ((elim_release_of_ne (Ne.symm hsame)).trans hn)
      hlimit
    have hattached := @Accounts.moveClipper _ _ _ { m with clipper := none } (some c) hadded
      (update_self ..)
    simp only [clipperAddRef, Objects.setSurface, update_idem] at hattached ⊢
    exact hattached

/-! ### DirectDraw objects -/

theorem setPrimary_accounts (h : Accounts o r) (hd : o.dds dd = some d)
    (hm : o.surfaces surf = some m) (hroom : m.refCount + 1 < refLimit) :
  Accounts (setPrimary dd surf o) (r.gain (d.primarySurface.map .surface))
  := by
  have hadded := surfaceAddRef_accounts h hm hroom
  have hdadded : (surfaceAddRef surf o).dds dd = some d := by
    rw [surfaceAddRef, hm]
    exact hd
  have heq : setPrimary dd surf o = { surfaceAddRef surf o with
      dds := update (surfaceAddRef surf o).dds dd
        (some { d with primarySurface := some surf }) } := by
    simp only [setPrimary, hd, surfaceAddRef, Objects.setDd, hm]
    rfl
  rw [heq]
  apply hadded.updateDd hdadded
  · intro x
    have hgain : (r.gain (some (.surface surf))).surface = _ := more_some ..
    rw [Outside.gain_surface, hgain]
    exact Nat.add_right_comm ..
  · rw [Outside.gain_surface]
    rfl
  · rw [Outside.gain_surface]
    rfl

theorem two_lt_refLimit :
  1 + 1 < refLimit
  := by
  rw [refLimit]
  decide

theorem createFlipChainSurface_accounts (h : Accounts o r) (hd : o.dds dd = some d)
    (rbPrimary rbBackbuffer : ℕ) (memory backMemory : Bool)
    (hmemory : rbBackbuffer ≠ 0 → backMemory = true) :
  ∃ lost, Accounts (createFlipChainSurface dd rbPrimary rbBackbuffer memory backMemory o).2.1
      ((r.gain ((createFlipChainSurface dd rbPrimary rbBackbuffer memory backMemory o).1.map .surface)).gain
        lost) ∧
    (d.primarySurface = none → lost = none)
  := by
  have halloc := surfaceAlloc_accounts h dd rbPrimary
  have hprimary : (surfaceAlloc dd rbPrimary o).surfaces o.allocated =
      some ⟨1, rbPrimary, some dd, none, none, none⟩ := update_self ..
  rw [createFlipChainSurface]
  split_ifs with hrb hmem hback hbackMem
  · exact ⟨none, h, fun _ => rfl⟩
  · exact ⟨none, h, fun _ => rfl⟩
  · refine ⟨d.primarySurface.map .surface, ?_, fun hnone => by rw [hnone, map_none]⟩
    exact setPrimary_accounts halloc hd hprimary two_lt_refLimit
  · rw [hmemory hback] at hbackMem
    cases hbackMem
  · refine ⟨d.primarySurface.map .surface, ?_, fun hnone => by rw [hnone, map_none]⟩
    have hprimary' : (surfaceAlloc dd rbBackbuffer (surfaceAlloc dd rbPrimary o)).surfaces o.allocated =
        some ⟨1, rbPrimary, some dd, none, none, none⟩ := by
      rw [← hprimary]
      exact update_of_ne (Nat.ne_of_lt (Nat.lt_succ_self _)) _ _
    simp only [hprimary']
    have hattached := @Accounts.moveSurface _ _ _ _ (some _) (surfaceAlloc_accounts halloc dd rbBackbuffer)
      hprimary'
    exact setPrimary_accounts hattached hd (update_self ..) two_lt_refLimit

theorem createRegularSurface_accounts (h : Accounts o r) (hd : o.dds dd = some d)
    (caps rbPrimary : ℕ) (memory : Bool) :
  ∃ lost, Accounts (createRegularSurface dd caps rbPrimary memory o).2.1
      ((r.gain ((createRegularSurface dd caps rbPrimary memory o).1.map .surface)).gain lost) ∧
    ((caps &&& ddscapsPrimarysurface ≠ 0 → d.primarySurface = none) → lost = none)
  := by
  have halloc := surfaceAlloc_accounts h dd rbPrimary
  have hprimary : (surfaceAlloc dd rbPrimary o).surfaces o.allocated =
      some ⟨1, rbPrimary, some dd, none, none, none⟩ := update_self ..
  rw [createRegularSurface]
  split_ifs with hrb hmem hcaps
  · exact ⟨none, h, fun _ => rfl⟩
  · exact ⟨none, h, fun _ => rfl⟩
  · refine ⟨d.primarySurface.map .surface, ?_, fun hnone => by rw [hnone hcaps, map_none]⟩
    exact setPrimary_accounts halloc hd hprimary two_lt_refLimit
  · exact ⟨none, halloc, fun _ => rfl⟩

/-- A DirectDraw object without references gives up its primary surface, which then has a reference from
outside. -/
theorem dropPrimary_accounts {primary : ℕ} (h : Accounts o r) (hd : o.dds dd = some d)
    (hprimary : d.primarySurface = some primary) (refCount : ℕ) :
  Accounts ((disown dd (o.setDd dd { d with refCount := refCount })).setDd dd
    { d with refCount := refCount, primarySurface := none }) (r.gain (some (.surface primary)))
  := by
  have hset := @Accounts.setDd _ _ _ _ { d with refCount := refCount } h hd rfl
  have hd' : (disown dd (o.setDd dd { d with refCount := refCount })).dds dd =
      some { d with refCount := refCount } := update_self ..
  have hupdated := @Accounts.updateDd _ _ (r.gain (some (.surface primary))) _ _ (disown_accounts hset dd)
    hd' (some { d with refCount := refCount, primarySurface := none })
  apply hupdated _ rfl rfl
  intro x
  simp [hprimary, Outside.gain, more, @eq_comm _ primary x]

theorem ddRelease_accounts (h : Accounts o r) (dd : ℕ) :
  Accounts (ddRelease dd o).1 r
  := by
  rw [ddRelease]
  cases hd : o.dds dd with
  | none => exact h
  | some d =>
    simp only
    have hset := @Accounts.setDd _ _ _ _ { d with refCount := decrement d.refCount } h hd rfl
    split_ifs with hcount
    · exact hset
    · cases hprimary : d.primarySurface with
      | none =>
        have hd' : (disown dd (o.setDd dd { d with refCount := decrement d.refCount })).dds dd =
            some { d with refCount := decrement d.refCount } := update_self ..
        have hdisowned := disown_accounts hset dd
        rw [hprimary] at hdisowned hd'
        apply hdisowned.updateDd hd' none _ rfl rfl
        intro x
        rfl
      | some primary =>
        have hgiven := dropPrimary_accounts h hd hprimary (decrement d.refCount)
        rw [hprimary] at hgiven
        have hreleased := surfaceRelease_released hgiven.toCounted (liveSurfaces_le _)
        have hd'' := (congrFun hreleased.dds dd).trans (update_self ..)
        exact (releaseSurface_accounts hgiven).updateDd hd'' none (fun x => rfl) rfl rfl

/-! ### Pointers lead to objects that are there -/

theorem Balanced.exists_of_holder {refs : ℕ → ℕ} (h : Balanced count refs) {g : ℕ → Option ℕ}
    (hx : x < n) (hg : g x = some k) (hle : holders n g k ≤ refs k) :
  ∃ c, count k = some c
  := by
  obtain ⟨c, hc, -⟩ := h.exists_of_pos ((holders_pos hx hg).trans_le hle)
  exact ⟨c, hc⟩

theorem lt_of_bind {α : Type} {f : ℕ → Option α} {g : α → Option ℕ} (h : ∀ x, a ≤ x → f x = none)
    (hx : ((Option.bind · g) ∘ f) x = some k) :
  x < a
  := by
  obtain ⟨v, hv, -⟩ := bind_eq_some_iff.mp hx
  exact lt_of_some h hv

theorem Accounts.count_of_got (h : Accounts o r) (huses : ∀ obj ∈ c.uses, (o.count obj).isSome)
    (hobj : c.got o = some obj) :
  ∃ n, o.count obj = some n
  := by
  have hsurface {x : ℕ} (hx : ∃ n, o.surfaceCount x = some n) : ∃ n, o.count (.surface x) = some n := hx
  cases c with
  | getGDISurface dd out =>
    cases out with
    | false => cases hobj
    | true =>
      obtain ⟨x, hx, rfl⟩ := map_eq_some_iff.mp hobj
      apply hsurface
      apply Balanced.exists_of_holder h.surfaces (lt_of_bind h.range.dds hx) hx
      exact Nat.le_add_left ..
  | queryInterface obj' known =>
    cases known with
    | false => cases hobj
    | true =>
      cases hobj
      exact isSome_iff_exists.mp (huses obj (mem_singleton_self _))
  | addRef obj' =>
    cases hobj
    exact isSome_iff_exists.mp (huses obj (mem_singleton_self _))
  | getAttachedSurface surf caps out =>
    obtain ⟨x, hx, rfl⟩ := map_eq_some_iff.mp hobj
    rw [attachedSurface] at hx
    split_ifs at hx
    have hnext : o.nextOf surf = some x := hx
    apply hsurface
    apply Balanced.exists_of_holder h.surfaces (lt_of_bind h.range.surfaces hnext) hnext
    rw [Objects.surfaceRefs, Nat.add_assoc, Nat.add_left_comm]
    exact Nat.le_add_right ..
  | getPalette surf out =>
    cases out with
    | false => cases hobj
    | true =>
      obtain ⟨p, hp, rfl⟩ := map_eq_some_iff.mp hobj
      apply Balanced.exists_of_holder h.palettes (lt_of_bind h.range.surfaces hp) hp
      exact Nat.le_add_left ..
  | getClipper surf out =>
    cases out with
    | false => cases hobj
    | true =>
      obtain ⟨p, hp, rfl⟩ := map_eq_some_iff.mp hobj
      apply Balanced.exists_of_holder h.clippers (lt_of_bind h.range.surfaces hp) hp
      exact Nat.le_add_left ..
  | _ => cases hobj

/-! ### A call -/

def HasRoom (o : Objects) (c : ComCall) : Prop :=
  ∀ obj ∈ c.referenced o, ∀ n ∈ o.count obj, n + 1 < refLimit

/-- There is memory for the surface of the backbuffer when there is for that of the primary surface. -/
def HasMemory : ComCall → Prop
  | .createSurface _ caps r => isFlipChain caps → r.rbBackbuffer ≠ 0 → r.backMemory = true
  | _ => True

/-- A surface is not given the palette that it has, and a DirectDraw object that has a primary surface
makes no other one. -/
def KeepsReferences (o : Objects) : ComCall → Prop
  | .setPalette surf pal => ∀ p ∈ pal, o.paletteOf surf ≠ some p
  | .createSurface dd caps _ => caps &&& ddscapsPrimarysurface ≠ 0 → o.primaryOf dd = none
  | _ => True

instance (o : Objects) (c : ComCall) : Decidable (HasRoom o c) :=
  inferInstanceAs (Decidable (∀ obj ∈ c.referenced o, ∀ n ∈ o.count obj, n + 1 < refLimit))

instance (c : ComCall) : Decidable (HasMemory c) := by
  cases c <;> unfold HasMemory <;> infer_instance

instance (o : Objects) (c : ComCall) : Decidable (KeepsReferences o c) := by
  cases c <;> unfold KeepsReferences <;> infer_instance

theorem gain_lose (h : r.Has obj) :
  (r.lose (some obj)).gain (some obj) = r
  := by
  cases obj with
  | dd x => rfl
  | surface x => simp only [Outside.lose, Outside.gain, more_less h]
  | palette x => simp only [Outside.lose, Outside.gain, more_less h]
  | clipper x => simp only [Outside.lose, Outside.gain, more_less h]

theorem releaseReference_accounts (h : Accounts o r) (hobj : r.Has obj) :
  Accounts (o.releaseReference obj).1 (r.lose (some obj))
  := by
  rw [← gain_lose hobj] at h
  cases obj with
  | dd x => exact ddRelease_accounts h x
  | surface x => exact releaseSurface_accounts h
  | palette x => exact @paletteRelease_accounts _ _ (some x) h
  | clipper x => exact @clipperRelease_accounts _ _ (some x) h

theorem got_accounts (h : Accounts o r) (huses : ∀ obj ∈ c.uses, (o.count obj).isSome)
    (hroom : HasRoom o c) (hreferenced : c.referenced o = c.got o) :
  Accounts (o.addReference (c.got o)) (r.gain (c.got o))
  := by
  cases hobj : c.got o with
  | none => exact h
  | some obj =>
    obtain ⟨n, hn⟩ := h.count_of_got huses hobj
    apply addReference_accounts h hn
    apply hroom obj _ n hn
    rw [hreferenced, hobj]
    rfl

theorem exists_surface_of_uses {c : ComCall} (huses : ∀ obj ∈ c.uses, (o.count obj).isSome)
    (hmem : ComObject.surface surf ∈ c.uses) :
  ∃ m, o.surfaces surf = some m
  := by
  obtain ⟨n, hn⟩ := isSome_iff_exists.mp (huses _ hmem)
  obtain ⟨m, hm, -⟩ := map_eq_some_iff.mp hn
  exact ⟨m, hm⟩

/-- After the call the counts are right for the references that the guest then has, and for one that is
lost unless the call keeps references. -/
def CallAccounts (o : Objects) (r : Outside) (c : ComCall) : Prop :=
  ∃ lost, Accounts (comCall o c).objs (((r.lose c.givenUp).gain (comCall o c).returned).gain lost) ∧
    (KeepsReferences o c → lost = none)

theorem CallAccounts.of_kept
    (h : Accounts (comCall o c).objs ((r.lose c.givenUp).gain (comCall o c).returned)) :
  CallAccounts o r c
  := ⟨none, h, fun _ => rfl⟩

theorem createSurface_callAccounts (h : Accounts o r) {dd caps : ℕ} {results : SurfaceResults}
    (hmemory : HasMemory (.createSurface dd caps results)) :
  CallAccounts o r (.createSurface dd caps results)
  := by
  simp only [CallAccounts, comCall, createSurface]
  cases hd : o.dds dd with
  | none => exact ⟨none, h, fun _ => rfl⟩
  | some d =>
    have hnone (hkeeps : KeepsReferences o (.createSurface dd caps results)) :
        caps &&& ddscapsPrimarysurface ≠ 0 → d.primarySurface = none := by
      rw [← primaryOf_of hd]
      exact hkeeps
    simp only
    split_ifs with hbackend hwindow hflip
    · exact ⟨none, h, fun _ => rfl⟩
    · exact ⟨none, h, fun _ => rfl⟩
    · obtain ⟨lost, haccounts, hlost⟩ := createFlipChainSurface_accounts h hd results.rbPrimary
        results.rbBackbuffer results.memory results.backMemory (hmemory hflip)
      rw [isFlipChain, Bool.and_eq_true, decide_eq_true_iff] at hflip
      exact ⟨lost, haccounts, fun hkeeps => hlost (hnone hkeeps hflip.1)⟩
    · obtain ⟨lost, haccounts, hlost⟩ :=
        createRegularSurface_accounts h hd caps results.rbPrimary results.memory
      exact ⟨lost, haccounts, fun hkeeps => hlost (hnone hkeeps)⟩

theorem addAttachedSurface_callAccounts (h : Accounts o r) {attached : Option ℕ}
    (huses : ∀ obj ∈ (ComCall.addAttachedSurface surf attached).uses, (o.count obj).isSome)
    (hroom : HasRoom o (.addAttachedSurface surf attached)) :
  CallAccounts o r (.addAttachedSurface surf attached)
  := by
  apply CallAccounts.of_kept
  obtain ⟨m, hm⟩ := exists_surface_of_uses huses mem_cons_self
  cases attached with
  | none =>
    simp only [comCall, addAttachedSurface, hm]
    exact h
  | some attached =>
    obtain ⟨m', hm'⟩ := @exists_surface_of_uses o attached _ huses (by simp [ComCall.uses])
    apply addAttachedSurface_accounts h hm hm'
    intro hnext
    apply hroom (.surface attached) _ m'.refCount
    · simp only [Objects.count, hm', map_some]
      rfl
    · simp only [ComCall.referenced, nextOf_of hm, hnext]
      rfl

theorem setPalette_callAccounts (h : Accounts o r) {pal : Option ℕ}
    (huses : ∀ obj ∈ (ComCall.setPalette surf pal).uses, (o.count obj).isSome)
    (hroom : HasRoom o (.setPalette surf pal)) :
  CallAccounts o r (.setPalette surf pal)
  := by
  obtain ⟨m, hm⟩ := exists_surface_of_uses huses mem_cons_self
  have hlive : ∀ p ∈ pal, ∃ n, o.palettes p = some n ∧ n + 1 < refLimit := by
    rintro p ⟨⟩
    obtain ⟨n, hn⟩ := isSome_iff_exists.mp (huses (.palette p) (by simp [ComCall.uses]))
    exact ⟨n, hn, hroom (.palette p) rfl n hn⟩
  by_cases hkeeps : ∀ p ∈ pal, m.palette ≠ some p
  · exact .of_kept (setPalette_accounts h hm hlive hkeeps)
  · push Not at hkeeps
    obtain ⟨p, rfl, hp⟩ := hkeeps
    obtain ⟨n, hn, hlimit⟩ := hlive p rfl
    use some (.palette p)
    constructor
    · have hsame : o.setSurface surf { m with palette := some p } = o := by
        rw [← hp, Objects.setSurface]
        have hself : update o.surfaces surf (some m) = o.surfaces := by
          rw [← hm, update_eq_self]
        rw [hself]
      simp only [comCall, setPalette, hm, hp, ne_eq, not_true_eq_false, if_false, hsame]
      exact paletteAddRef_accounts h hn hlimit
    · intro hkeeps
      exact absurd ((paletteOf_of hm).trans hp) (hkeeps p rfl)

theorem setClipper_callAccounts (h : Accounts o r) {clipper : Option ℕ}
    (huses : ∀ obj ∈ (ComCall.setClipper surf clipper).uses, (o.count obj).isSome)
    (hroom : HasRoom o (.setClipper surf clipper)) :
  CallAccounts o r (.setClipper surf clipper)
  := by
  apply CallAccounts.of_kept
  obtain ⟨m, hm⟩ := exists_surface_of_uses huses mem_cons_self
  apply setClipper_accounts h hm
  rintro hne c ⟨⟩
  obtain ⟨n, hn⟩ := isSome_iff_exists.mp (huses (.clipper c) (by simp [ComCall.uses]))
  refine ⟨n, hn, hroom (.clipper c) ?_ n hn⟩
  simp only [ComCall.referenced, clipperOf_of hm]
  rw [if_neg hne]
  rfl

theorem comCall_accounts (h : Accounts o r) (huses : ∀ obj ∈ c.uses, (o.count obj).isSome)
    (hgiven : ∀ obj ∈ c.givenUp, r.Has obj) (hroom : HasRoom o c) (hmemory : HasMemory c) :
  CallAccounts o r c
  := by
  cases c with
  | directDrawCreate memory =>
    cases memory with
    | false => exact .of_kept h
    | true => exact .of_kept (createInstance_accounts h)
  | createSurface dd caps results => apply createSurface_callAccounts h hmemory
  | createPalette dd created =>
    cases created with
    | false => exact .of_kept h
    | true => exact .of_kept (createPalette_accounts h)
  | createClipper dd created =>
    cases created with
    | false => exact .of_kept h
    | true => exact .of_kept (createClipper_accounts h)
  | setCooperativeLevel dd window =>
    apply CallAccounts.of_kept
    simp only [comCall, Objects.setCooperativeLevel]
    cases hd : o.dds dd with
    | none => exact h
    | some d =>
      cases window with
      | none => exact h
      | some window => exact h.setDd hd rfl
  | setDisplayMode dd supported window =>
    apply CallAccounts.of_kept
    cases supported with
    | false => exact h
    | true =>
      simp only [comCall, Objects.setDisplayMode, if_true]
      cases hd : o.dds dd with
      | none => exact h
      | some d =>
        simp only
        split_ifs
        · exact h
        · exact h.setDd hd rfl
  | release obj => exact .of_kept (releaseReference_accounts h (hgiven obj rfl))
  | addAttachedSurface surf attached => apply addAttachedSurface_callAccounts h huses hroom
  | deleteAttachedSurface surf attached =>
    apply CallAccounts.of_kept
    obtain ⟨m, hm⟩ := exists_surface_of_uses huses mem_cons_self
    cases attached with
    | none =>
      simp only [comCall, deleteAttachedSurface, hm]
      exact h
    | some attached => exact deleteAttachedSurface_accounts h hm
  | setPalette surf pal => apply setPalette_callAccounts h huses hroom
  | setClipper surf clipper => apply setClipper_callAccounts h huses hroom
  | _ => exact .of_kept (got_accounts h huses hroom rfl)

end

/-! ### Runs -/

def counter (n : ℕ) : Option ℕ := if n = 0 then none else some n

/-- Each surface, palette and clipper is there as long as it has references, and its count is their
number: those of the guest, one for each surface that it is attached to, and one for each DirectDraw
object whose primary surface it is. -/
structure RightCounts (s : ComState) : Prop where
  surfaces : ∀ x, s.objs.count (.surface x) = counter (s.objs.surfaceRefs s.held.surface x)
  palettes : ∀ x, s.objs.count (.palette x) = counter (s.objs.paletteRefs s.held.palette x)
  clippers : ∀ x, s.objs.count (.clipper x) = counter (s.objs.clipperRefs s.held.clipper x)

theorem Balanced.eq_counter {count : ℕ → Option ℕ} {refs : ℕ → ℕ} (h : Balanced count refs)
    (hpos : Positive count) (k : ℕ) :
  count k = counter (refs k)
  := by
  have hk := h k
  have hne := hpos k
  rw [counter]
  cases hcount : count k with
  | none =>
    rw [hcount, getD_none] at hk
    rw [if_pos hk.symm]
  | some n =>
    rw [hcount, getD_some] at hk
    rw [hcount, ne_eq, some.injEq] at hne
    rw [if_neg (hk ▸ hne), hk]

theorem Accounts.rightCounts {s : ComState} (h : Accounts s.objs s.held) :
  RightCounts s
  := by
  constructor
  · exact Balanced.eq_counter h.surfaces h.surfacePos
  · exact Balanced.eq_counter h.palettes h.palettePos
  · exact Balanced.eq_counter h.clippers h.clipperPos

theorem start_accounts :
  Accounts ComState.start.objs ComState.start.held
  := by
  have hnone (g : ℕ → Option ℕ) (hg : ∀ x, g x = none) (k : ℕ) :
      holders ComState.start.objs.allocated g k = 0 := by
    rw [holders_of_le (Nat.zero_le _) fun x _ => hg x]
    rfl
  refine ⟨⟨⟨fun _ _ => rfl, fun _ _ => rfl, fun _ _ => rfl, fun _ _ => rfl⟩, ?_, ?_, ?_, ?_, ?_⟩, ?_⟩
  · intro x
    rw [Objects.surfaceRefs, hnone ComState.start.objs.nextOf fun _ => rfl,
      hnone ComState.start.objs.primaryOf fun _ => rfl]
    rfl
  · intro p
    rw [Objects.paletteRefs, hnone ComState.start.objs.paletteOf fun _ => rfl]
    rfl
  · intro c
    rw [Objects.clipperRefs, hnone ComState.start.objs.clipperOf fun _ => rfl]
    rfl
  · rintro x ⟨⟩
  · rintro x ⟨⟩
  · rintro x ⟨⟩

def Careful (s : ComState) (c : ComCall) : Prop :=
  KeepsReferences s.objs c ∧ HasRoom s.objs c ∧ HasMemory c

instance (s : ComState) (c : ComCall) : Decidable (Careful s c) :=
  inferInstanceAs (Decidable (_ ∧ _ ∧ _))

/-- Whatever the guest calls, the reference counts are right as long as every call is careful. -/
theorem reference_counts_right {calls : List ComCall}
    (hpermitted : Along comStep Permitted .start calls) (hcareful : Along comStep Careful .start calls) :
  RightCounts (calls.foldl comStep .start)
  := by
  apply Accounts.rightCounts
  apply (hpermitted.and hcareful).invariant (fun s => Accounts s.objs s.held) _ start_accounts
  rintro s c h ⟨⟨huses, hgiven⟩, hkeeps, hroom, hmemory⟩
  obtain ⟨lost, haccounts, hlost⟩ := comCall_accounts h huses hgiven hroom hmemory
  rw [hlost hkeeps] at haccounts
  exact haccounts

/-- A flip chain, whose primary surface gets a palette and a clipper.  The guest gets the backbuffer
and then gives up its references to the primary surface and to the DirectDraw object. -/
def flipChainCalls : List ComCall :=
  [.directDrawCreate true, .setCooperativeLevel 1 (some 7),
    .createSurface 1 (ddscapsPrimarysurface ||| ddscapsFlip) ⟨true, 21, 22, true, true⟩,
    .createPalette 1 true, .createClipper 1 true, .setPalette 2 (some 4), .setClipper 2 (some 5),
    .getAttachedSurface 2 ddscapsBackbuffer true, .release (.palette 4), .release (.surface 2),
    .release (.dd 1)]

theorem reference_counts_right_flipChain :
  Along comStep Permitted .start flipChainCalls ∧ Along comStep Careful .start flipChainCalls ∧
    RightCounts (flipChainCalls.foldl comStep .start)
  := by
  have hpermitted : Along comStep Permitted .start flipChainCalls := by decide +kernel
  have hcareful : Along comStep Careful .start flipChainCalls := by decide +kernel
  exact ⟨hpermitted, hcareful, reference_counts_right hpermitted hcareful⟩

def setPaletteTwice : List ComCall :=
  [.directDrawCreate true, .createSurface 1 0 ⟨true, 21, 0, true, true⟩, .createPalette 1 true,
    .setPalette 2 (some 3), .setPalette 2 (some 3)]

def secondPrimary : List ComCall :=
  [.directDrawCreate true, .setCooperativeLevel 1 (some 7),
    .createSurface 1 ddscapsPrimarysurface ⟨true, 21, 0, true, true⟩,
    .createSurface 1 ddscapsPrimarysurface ⟨true, 22, 0, true, true⟩, .release (.surface 2)]

/-- The palette of the surface is counted twice, with one reference of the guest.  The first primary
surface stays with a count of one and no reference. -/
theorem reference_counts_wrong :
  (Along comStep Permitted .start setPaletteTwice ∧
    ¬ RightCounts (setPaletteTwice.foldl comStep .start)) ∧
  Along comStep Permitted .start secondPrimary ∧ ¬ RightCounts (secondPrimary.foldl comStep .start)
  := by
  refine ⟨⟨?_, ?_⟩, ?_, ?_⟩
  · decide +kernel
  · intro h
    have hpalette := h.palettes 3
    revert hpalette
    decide +kernel
  · decide +kernel
  · intro h
    have hsurface := h.surfaces 2
    revert hsurface
    decide +kernel

end Ddraw
