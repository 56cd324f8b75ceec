import MyWine.Ddraw.Backend

/-!
# The life of backend surfaces

A backend surface that is made gets a handle and keeps it until it is destroyed, and it is destroyed
once (`Backend.Sound`).  Every operation of the backend keeps this, as long as there is a free handle
for each surface that is made.

`rb_surface_destroy` of the primary surface of a window destroys the backbuffer of the window too.  When
the surfaces of some handles are destroyed one after the other, no other ones are, if each such
backbuffer is among them (`Closed`, `foldl_rbSurfaceDestroy`).
-/

namespace Ddraw

open HandleManager References User32 List Function

/-! ### Objects of handles -/

section

variable {t : HandleTable} {type : UInt8}

/-- The object of a slot that is in use with the type. -/
def slotObject (slot : WineHandle) (type : UInt8) : Option Ptr :=
  if slot.refCount ≠ 0 ∧ slot.type = type then some slot.object else none

theorem objectOf_eq_bind (htype : type ≠ 0) (t : HandleTable) (h : ℕ) :
  objectOf t type h = (wineHandleSlot h).bind fun i => slotObject (t i) type
  := by
  rw [objectOf, wineHandleGetType, wineHandleGet]
  cases wineHandleSlot h with
  | none => exact if_neg htype.symm
  | some i =>
    simp only [slotObject, Option.bind_some]
    by_cases hdead : (t i).refCount = 0
    · simp [hdead, htype.symm]
    · simp [hdead]

theorem objectOf_val (htype : type ≠ 0) (i : Fin handleTableSize) :
  objectOf t type i.val = slotObject (t i) type
  := by
  rw [objectOf_eq_bind htype, wineHandleSlot_val, Option.bind_some]

theorem exists_slot_of_objectOf (htype : type ≠ 0) {h : ℕ} {p : Ptr}
    (hobj : objectOf t type h = some p) :
  ∃ i : Fin handleTableSize, h = i.val ∧ slotObject (t i) type = some p
  := by
  simpa only [objectOf_eq_bind htype, Option.bind_eq_some_iff, wineHandleSlot_eq_some_iff] using hobj

theorem objectOf_eq_none {type' : UInt8} (htype : type ≠ 0) (htype' : type' ≠ 0) (hne : type' ≠ type)
    {h : ℕ} {p : Ptr} (hobj : objectOf t type h = some p) :
  objectOf t type' h = none
  := by
  obtain ⟨i, rfl, hi⟩ := exists_slot_of_objectOf htype hobj
  rw [slotObject] at hi
  split_ifs at hi with hslot
  rw [objectOf_val htype', slotObject, if_neg]
  rintro ⟨-, heq⟩
  exact hne (heq.symm.trans hslot.2)

theorem objectOf_update (htype : type ≠ 0) (i : Fin handleTableSize) (slot : WineHandle) :
  objectOf (update t i slot) type =
    update (objectOf t type) i.val (slotObject slot type)
  := by
  funext h
  by_cases hi : h = i.val
  · subst hi
    rw [update_self, objectOf_val htype, update_self]
  · rw [update_of_ne hi, objectOf_eq_bind htype, objectOf_eq_bind htype]
    apply Option.bind_congr
    intro j hj
    rw [update_of_ne]
    rintro rfl
    exact hi (wineHandleSlot_eq_some_iff.mp hj)

end

theorem handleTypeRbSurface_ne_zero :
  handleTypeRbSurface ≠ 0
  := by decide

theorem handleTypeRbWindow_ne_zero :
  handleTypeRbWindow ≠ 0
  := by decide

/-- The handles of surfaces and windows have one reference, and are not the first three. -/
def RbTidy (t : HandleTable) : Prop :=
  ∀ i : Fin handleTableSize, (t i).refCount ≠ 0 →
    (t i).type = handleTypeRbSurface ∨ (t i).type = handleTypeRbWindow → 3 ≤ i.val ∧ (t i).refCount = 1

variable {t : HandleTable}

theorem RbTidy.update (h : RbTidy t) {i : Fin handleTableSize} {slot : WineHandle}
    (hslot : slot.refCount ≠ 0 → slot.type = handleTypeRbSurface ∨ slot.type = handleTypeRbWindow →
      3 ≤ i.val ∧ slot.refCount = 1) :
  RbTidy (update t i slot)
  := by
  intro j
  rw [update_apply]
  split_ifs with hj
  · rw [hj]
    exact hslot
  · exact h j

theorem RbTidy.free (h : RbTidy t) {type : UInt8}
    (htype : type = handleTypeRbSurface ∨ type = handleTypeRbWindow) {surf : ℕ} {s : Ptr}
    (hs : objectOf t type surf = some s) :
  RbTidy (wineHandleFree t surf) ∧ 3 ≤ surf ∧
    ∀ type', type' ≠ 0 →
      objectOf (wineHandleFree t surf) type' = Function.update (objectOf t type') surf none
  := by
  have hne : type ≠ 0 := by
    rcases htype with rfl | rfl
    · exact handleTypeRbSurface_ne_zero
    · exact handleTypeRbWindow_ne_zero
  obtain ⟨i, rfl, hi⟩ := exists_slot_of_objectOf hne hs
  rw [slotObject] at hi
  split_ifs at hi with hslot
  obtain ⟨h3, hone⟩ := h i hslot.1 (by rw [hslot.2]; exact htype)
  rw [wineHandleFree_of_one h3 hone]
  refine ⟨?_, h3, ?_⟩
  · apply h.update
    intro hlive
    exact absurd rfl hlive
  · intro type' htype'
    rw [objectOf_update htype', slotObject, if_neg]
    rintro ⟨hlive, -⟩
    exact hlive rfl

theorem RbTidy.alloc (h : RbTidy t) (type : UInt8) (object : Ptr) :
  let r := wineHandleAlloc t type object
  RbTidy r.2 ∧ (r.1 = 0 ∧ r.2 = t ∨ 3 ≤ r.1 ∧ ∀ type', type' ≠ 0 → objectOf t type' r.1 = none ∧
    objectOf r.2 type' =
      Function.update (objectOf t type') r.1 (if type = type' then some object else none))
  := by
  rcases wineHandleAlloc_cases t type object with ⟨i, h3, hfree, halloc⟩ | ⟨-, halloc⟩
  · rw [halloc]
    refine ⟨?_, Or.inr ⟨h3, ?_⟩⟩
    · apply h.update
      intro _ _
      exact ⟨h3, rfl⟩
    · intro type' htype'
      constructor
      · rw [objectOf_val htype', slotObject, if_neg]
        rintro ⟨hlive, -⟩
        exact hlive hfree
      · rw [objectOf_update htype', slotObject]
        have hone : (1 : UInt8) ≠ 0 := by decide
        simp
  · rw [halloc]
    exact ⟨h, Or.inl ⟨rfl, rfl⟩⟩

/-! ### Backend surfaces -/

namespace Backend

/-- Every surface that has been made has a handle of its own and has not been destroyed, or it has been
destroyed once. -/
structure Sound (b : Backend) : Prop where
  tidy : RbTidy b.handles
  range : ∀ h s, b.getSurface h = some s → 1 ≤ s ∧ s ≤ b.surfacesMade
  unique : ∀ h h' s, b.getSurface h = some s → b.getSurface h' = some s → h = h'
  live : ∀ h s, b.getSurface h = some s → b.destroyed s = 0
  once : ∀ s, 1 ≤ s → s ≤ b.surfacesMade → (∀ h, b.getSurface h ≠ some s) → b.destroyed s = 1
  beyond : ∀ s, b.surfacesMade < s → b.destroyed s = 0

variable {b b' : Backend}

variable {s w : Ptr} {surf win : ℕ}

theorem Sound.three_le (h : Sound b) (hs : b.getSurface surf = some s) :
  3 ≤ surf
  := (h.tidy.free (Or.inl rfl) hs).2.1

theorem Sound.three_le_window (h : Sound b) (hw : b.getWindow win = some w) :
  3 ≤ win
  := (h.tidy.free (Or.inr rfl) hw).2.1

theorem Sound.window_ne_zero (h : Sound b) (hw : b.getWindow win = some w) :
  win ≠ 0
  := (Nat.lt_of_lt_of_le (by decide) (h.three_le_window hw)).ne'

theorem Sound.of_same (h : Sound b) (htidy : RbTidy b'.handles) (hget : b'.getSurface = b.getSurface)
    (hmade : b'.surfacesMade = b.surfacesMade) (hdestroyed : b'.destroyed = b.destroyed) :
  Sound b'
  := by
  refine ⟨htidy, ?_, ?_, ?_, ?_, ?_⟩
  all_goals simp only [hget, hmade, hdestroyed]
  exacts [h.range, h.unique, h.live, h.once, h.beyond]

theorem getSurface_freeSurface (h : Sound b) (hs : b.getSurface surf = some s) :
  (b.freeSurface surf s).getSurface = update b.getSurface surf none
  := (h.tidy.free (Or.inl rfl) hs).2.2 _ handleTypeRbSurface_ne_zero

theorem getWindow_freeSurface (h : Sound b) (hs : b.getSurface surf = some s) :
  (b.freeSurface surf s).getWindow = b.getWindow
  := by
  have hget := (h.tidy.free (Or.inl rfl) hs).2.2 _ handleTypeRbWindow_ne_zero
  have hnone : b.getWindow surf = none :=
    objectOf_eq_none handleTypeRbSurface_ne_zero handleTypeRbWindow_ne_zero (by decide) hs
  exact hget.trans (update_eq_self_iff.mpr hnone.symm)

/-- A surface goes away with its handle. -/
theorem Sound.freeSurface (h : Sound b) (hs : b.getSurface surf = some s) :
  Sound (b.freeSurface surf s)
  := by
  have hget := getSurface_freeSurface h hs
  have hsub {h' : ℕ} {s' : Ptr} (hs' : (b.freeSurface surf s).getSurface h' = some s') :
      h' ≠ surf ∧ b.getSurface h' = some s' := by
    rwa [hget, update_apply, Option.ite_none_left_eq_some] at hs'
  constructor
  · exact (h.tidy.free (Or.inl rfl) hs).1
  · intro h' s' hs'
    exact h.range h' s' (hsub hs').2
  · intro h' h'' s' hs' hs''
    exact h.unique h' h'' s' (hsub hs').2 (hsub hs'').2
  · intro h' s' hs'
    obtain ⟨hne, hold⟩ := hsub hs'
    have hss : s' ≠ s := by
      rintro rfl
      exact hne (h.unique h' surf s' hold hs)
    change more b.destroyed s s' = 0
    rw [more_of_ne _ hss]
    exact h.live h' s' hold
  · intro s' h1 hle hnone
    change more b.destroyed s s' = 1
    by_cases hss : s' = s
    · rw [hss, more_self, h.live surf s hs]
    · rw [more_of_ne _ hss]
      apply h.once s' h1 hle
      intro h' hs'
      apply hnone h'
      rw [hget, update_of_ne]
      · exact hs'
      · rintro rfl
        rw [hs] at hs'
        cases hs'
        exact hss rfl
  · intro s' hlt
    have hss : s' ≠ s := by
      rintro rfl
      exact absurd (h.range surf s' hs).2 (not_le.mpr hlt)
    change more b.destroyed s s' = 0
    rw [more_of_ne _ hss]
    exact h.beyond s' hlt

/-- A new surface gets a handle of its own. -/
theorem Sound.create (h : Sound b) :
  let r := rbSurfaceCreate true b
  r.1 ≠ 0 → Sound r.2 ∧ 3 ≤ r.1 ∧ b.getSurface r.1 = none ∧
    r.2.getSurface = update b.getSurface r.1 (some (b.surfacesMade + 1)) ∧
    r.2.getWindow = b.getWindow
  := by
  intro r hne
  obtain ⟨htidy, halloc⟩ := h.tidy.alloc handleTypeRbSurface (b.surfacesMade + 1)
  simp only [r, rbSurfaceCreate, Bool.not_true, Bool.false_eq_true, if_false] at hne ⊢
  generalize wineHandleAlloc b.handles handleTypeRbSurface (b.surfacesMade + 1) = r at htidy halloc hne ⊢
  obtain ⟨surf, t⟩ := r
  rcases halloc with ⟨hzero, -⟩ | ⟨h3, hobj⟩
  · exact absurd hzero hne
  obtain ⟨hnone, hget⟩ := hobj handleTypeRbSurface handleTypeRbSurface_ne_zero
  obtain ⟨hnoneWindow, hgetWindow⟩ := hobj handleTypeRbWindow handleTypeRbWindow_ne_zero
  rw [if_pos rfl] at hget
  have htypes : handleTypeRbSurface ≠ handleTypeRbWindow := by decide
  rw [if_neg htypes] at hgetWindow
  generalize hb' : Backend.mk _ _ _ _ _ _ = b'
  have hget' : b'.getSurface = update b.getSurface surf (some (b.surfacesMade + 1)) := by
    rw [← hb']
    exact hget
  have hmade : b'.surfacesMade = b.surfacesMade + 1 := by rw [← hb']
  have hdestroyed : b'.destroyed = b.destroyed := by rw [← hb']
  have hcases {h' : ℕ} {s : Ptr} (hs : b'.getSurface h' = some s) :
      h' = surf ∧ s = b.surfacesMade + 1 ∨ b.getSurface h' = some s := by
    rw [hget', update_apply, ite_eq_iff, Option.some.injEq, @eq_comm _ _ s] at hs
    exact hs.imp_right And.right
  refine ⟨?_, h3, hnone, hget', ?_⟩
  · constructor
    · rw [← hb']
      exact htidy
    · intro h' s hs
      rw [hmade]
      rcases hcases hs with ⟨-, rfl⟩ | hold
      · exact ⟨Nat.succ_pos _, le_rfl⟩
      · exact ⟨(h.range h' s hold).1, (h.range h' s hold).2.trans (Nat.le_succ _)⟩
    · intro h' h'' s hs hs'
      rcases hcases hs with ⟨rfl, rfl⟩ | hold
      · rcases hcases hs' with ⟨rfl, -⟩ | hold'
        · rfl
        · exact absurd (h.range h'' _ hold').2 (Nat.not_succ_le_self _)
      · rcases hcases hs' with ⟨rfl, rfl⟩ | hold'
        · exact absurd (h.range h' _ hold).2 (Nat.not_succ_le_self _)
        · exact h.unique h' h'' s hold hold'
    · intro h' s hs
      rw [hdestroyed]
      rcases hcases hs with ⟨-, rfl⟩ | hold
      · exact h.beyond _ (Nat.lt_succ_self _)
      · exact h.live h' s hold
    · intro s h1 hle hnever
      rw [hdestroyed]
      have hne' : s ≠ b.surfacesMade + 1 := by
        rintro rfl
        apply hnever surf
        rw [hget', update_self]
      apply h.once s h1
      · rw [hmade] at hle
        exact Nat.lt_succ_iff.mp (lt_of_le_of_ne hle hne')
      · intro h' hs
        apply hnever h'
        rw [hget', update_of_ne]
        · exact hs
        · rintro rfl
          cases hnone.symm.trans hs
    · intro s hlt
      rw [hmade] at hlt
      rw [hdestroyed]
      exact h.beyond s (Nat.lt_of_succ_lt hlt)
  · rw [← hb']
    exact hgetWindow.trans (update_eq_self_iff.mpr hnoneWindow.symm)

/-! ### Creation -/

/-- The number of free handles. -/
def freeHandles (b : Backend) : ℕ :=
  (Finset.univ.filter fun i : Fin handleTableSize => 3 ≤ i.val ∧ (b.handles i).refCount = 0).card

theorem rbSurfaceCreate_ne_zero (hfree : 0 < b.freeHandles) :
  (rbSurfaceCreate true b).1 ≠ 0
  := by
  obtain ⟨i, hi⟩ := Finset.card_pos.mp hfree
  rw [Finset.mem_filter] at hi
  simp only [rbSurfaceCreate, Bool.not_true, Bool.false_eq_true, if_false]
  rcases wineHandleAlloc_cases b.handles handleTypeRbSurface (b.surfacesMade + 1) with
    ⟨j, h3, -, halloc⟩ | ⟨hfull, -⟩
  · rw [halloc]
    exact (Nat.lt_of_lt_of_le (by decide) h3).ne'
  · exact absurd hi.2.2 (hfull i hi.2.1)

theorem freeHandles_rbSurfaceCreate (memory : Bool) (b : Backend) :
  b.freeHandles ≤ (rbSurfaceCreate memory b).2.freeHandles + 1
  := by
  cases memory with
  | false => exact Nat.le_succ _
  | true =>
    simp only [rbSurfaceCreate, Bool.not_true, Bool.false_eq_true, if_false, freeHandles]
    rcases wineHandleAlloc_cases b.handles handleTypeRbSurface (b.surfacesMade + 1) with
      ⟨j, h3, hzero, halloc⟩ | ⟨-, halloc⟩
    · rw [halloc]
      have hsub : (Finset.univ.filter fun i : Fin handleTableSize =>
            3 ≤ i.val ∧ (b.handles i).refCount = 0) ⊆
          insert j (Finset.univ.filter fun i : Fin handleTableSize => 3 ≤ i.val ∧
            (update b.handles j ⟨j.val, handleTypeRbSurface, 1, b.surfacesMade + 1⟩ i).refCount
              = 0) := by
        intro i hi
        rw [Finset.mem_filter] at hi
        rw [Finset.mem_insert, Finset.mem_filter]
        by_cases hij : i = j
        · exact Or.inl hij
        · rw [update_of_ne hij]
          exact Or.inr hi
      exact (Finset.card_le_card hsub).trans (Finset.card_insert_le _ _)
    · rw [halloc]
      exact Nat.le_succ _

/-- The backend after surfaces with the handles in `hs` have been made. -/
structure Made (b b' : Backend) (hs : List ℕ) : Prop where
  sound : Sound b'
  old : ∀ surf, surf ∉ hs → b'.getSurface surf = b.getSurface surf
  fresh : ∀ surf ∈ hs, b.getSurface surf = none ∧ (b'.getSurface surf).isSome
  nodup : hs.Nodup
  getWindow : b'.getWindow = b.getWindow

theorem Made.of_same (h : Sound b) (hhandles : b'.handles = b.handles)
    (hmade : b'.surfacesMade = b.surfacesMade) (hdestroyed : b'.destroyed = b.destroyed) :
  Made b b' []
  := by
  have hget : b'.getSurface = b.getSurface := by
    funext surf
    rw [getSurface, getSurface, hhandles]
  refine ⟨h.of_same ?_ hget hmade hdestroyed, ?_, ?_, nodup_nil, ?_⟩
  · rw [hhandles]
    exact h.tidy
  · intro surf _
    rw [hget]
  · intro surf hsurf
    cases hsurf
  · funext win
    simp only [Backend.getWindow, hhandles]

theorem Made.trans {b'' : Backend} {hs hs' : List ℕ} (h : Made b b' hs) (h' : Made b' b'' hs') :
  Made b b'' (hs ++ hs')
  := by
  have hdisjoint : ∀ surf ∈ hs, surf ∉ hs' := by
    intro surf hsurf hsurf'
    have hsome := (h.fresh surf hsurf).2
    rw [(h'.fresh surf hsurf').1] at hsome
    cases hsome
  constructor
  · exact h'.sound
  · intro surf hsurf
    rw [mem_append, not_or] at hsurf
    rw [h'.old surf hsurf.2, h.old surf hsurf.1]
  · intro surf hsurf
    by_cases hmem : surf ∈ hs
    · use (h.fresh surf hmem).1
      rw [h'.old surf (hdisjoint surf hmem)]
      exact (h.fresh surf hmem).2
    · have hmem' := (mem_append.mp hsurf).resolve_left hmem
      rw [← h.old surf hmem]
      exact h'.fresh surf hmem'
  · apply List.Nodup.append h.nodup h'.nodup
    intro surf hsurf hsurf'
    exact hdisjoint surf hsurf hsurf'
  · rw [h'.getWindow, h.getWindow]

theorem Made.create (h : Sound b) {memory : Bool} (hfree : memory = true → 0 < b.freeHandles) :
  Made b (rbSurfaceCreate memory b).2
    (if (rbSurfaceCreate memory b).1 = 0 then [] else [(rbSurfaceCreate memory b).1])
  := by
  cases memory with
  | false => exact Made.of_same h rfl rfl rfl
  | true =>
    have hne := rbSurfaceCreate_ne_zero (hfree rfl)
    obtain ⟨hsound, -, hnone, hget, hwindow⟩ := h.create hne
    rw [if_neg hne]
    refine ⟨hsound, ?_, ?_, nodup_singleton _, hwindow⟩
    · intro surf hsurf
      rw [hget, update_of_ne]
      rintro rfl
      exact hsurf (mem_singleton_self _)
    · intro surf hsurf
      rw [mem_singleton.mp hsurf]
      use hnone
      rw [hget, update_self]
      rfl

theorem handles_setSurfaceWindow (b : Backend) (surf win : ℕ) :
  let b' := b.setSurfaceWindow surf win
  b'.handles = b.handles ∧ b'.windows = b.windows ∧ b'.surfacesMade = b.surfacesMade ∧
    b'.destroyed = b.destroyed
  := by
  rw [Backend.setSurfaceWindow]
  cases b.getSurface surf <;> exact ⟨rfl, rfl, rfl, rfl⟩

theorem Made.setSurfaceWindow {hs : List ℕ} (h : Made b b' hs) (surf win : ℕ) :
  Made b (b'.setSurfaceWindow surf win) hs
  := by
  obtain ⟨hhandles, -, hmade, hdestroyed⟩ := handles_setSurfaceWindow b' surf win
  have hset := h.trans (Made.of_same h.sound hhandles hmade hdestroyed)
  rw [append_nil] at hset
  exact hset

theorem Made.setWindow {hs : List ℕ} (h : Made b b' hs) (w : Ptr) (wnd : RbWindow) :
  Made b (b'.setWindow w wnd) hs
  := by
  have hset := h.trans (@Made.of_same b' (b'.setWindow w wnd) h.sound rfl rfl rfl)
  rw [append_nil] at hset
  exact hset

theorem Made.chainBackbuffer {primary : ℕ} (h : Made b b' [primary])
    (hw : b'.getWindow win = some w) (hback : (b'.windows w).backbuffer = 0)
    (hfree : 0 < b'.freeHandles) (memory : Bool) :
  Made b (chainBackbuffer win memory b').2
    (primary :: if (chainBackbuffer win memory b').1 = 0 then [] else [(chainBackbuffer win memory b').1])
  := by
  have hcreated := Made.create h.sound fun _ : memory = true => hfree
  rw [Ddraw.chainBackbuffer, if_pos (h.sound.window_ne_zero hw), hw]
  simp only [hback, ne_eq, not_true_eq_false, if_false]
  by_cases hzero : (rbSurfaceCreate memory b').1 = 0
  · rw [if_pos hzero] at hcreated
    simp only [hzero, not_true_eq_false, if_false, if_true]
    exact h.trans hcreated
  · rw [if_neg hzero] at hcreated
    simp only [hzero, not_false_eq_true, if_true, if_false]
    exact (h.trans hcreated).setWindow _ _

theorem chainBackbuffer_of_none (hw : b.getWindow win = none) (memory : Bool) :
  chainBackbuffer win memory b = (0, b)
  := by
  rw [chainBackbuffer, hw, ite_self]

theorem chainBackbuffer_of_ne (h : Sound b) (hw : b.getWindow win = some w)
    (hback : (b.windows w).backbuffer ≠ 0) (memory : Bool) :
  chainBackbuffer win memory b = ((b.windows w).backbuffer, b)
  := by
  rw [chainBackbuffer, if_pos (h.window_ne_zero hw), hw]
  simp only [if_pos hback]

theorem Made.flipChain (h : Sound b) {win : ℕ} {backbufferCount : ℤ} {memory backMemory : Bool}
    (hback : ∀ w, b.getWindow win = some w → (b.windows w).backbuffer = 0)
    (hfree : memory = true → 2 ≤ b.freeHandles) (fallback : Bool) :
  let made := rbSurfaceCreateFlipChain win backbufferCount memory backMemory b
  let chained := Ddraw.chainBackbuffer win fallback made.2
  made.1 = 0 ∧ Made b made.2 [] ∨
    made.1 ≠ 0 ∧ Made b chained.2 (made.1 :: if chained.1 = 0 then [] else [chained.1])
  := by
  dsimp only
  cases memory with
  | false =>
    left
    exact ⟨rfl, Made.of_same h rfl rfl rfl⟩
  | true =>
    right
    have hfree := hfree rfl
    have hcreated := Made.create h fun _ : true = true => Nat.lt_of_lt_of_le Nat.zero_lt_two hfree
    have hne := rbSurfaceCreate_ne_zero (Nat.lt_of_lt_of_le Nat.zero_lt_two hfree)
    have hrest := freeHandles_rbSurfaceCreate true b
    have hwindows : (rbSurfaceCreate true b).2.windows = b.windows := rfl
    rw [if_neg hne] at hcreated
    rw [rbSurfaceCreateFlipChain]
    rw [if_neg hne]
    generalize rbSurfaceCreate true b = r at hcreated hne hrest hwindows ⊢
    obtain ⟨primary, b₁⟩ := r
    simp only at hcreated hne hrest hwindows ⊢
    obtain ⟨hhandles, hwindows₂, -, -⟩ := handles_setSurfaceWindow b₁ primary win
    have hattached := hcreated.setSurfaceWindow primary win
    generalize b₁.setSurfaceWindow primary win = b₂ at hhandles hwindows₂ hattached ⊢
    cases hw : b₂.getWindow win with
    | none =>
      simp only [chainBackbuffer_of_none hw, if_true]
      exact ⟨hne, hattached⟩
    | some w =>
      have hback₂ : (b₂.windows w).backbuffer = 0 := by
        rw [hwindows₂, hwindows]
        apply hback w
        rw [← hattached.getWindow]
        exact hw
      simp only [hback₂, ne_eq, not_true_eq_false, if_false]
      -- The primary surface that the window had forgets the window, and the window takes the new one.
      generalize hb₃ : (if ¬ (b₂.windows w).primarySurface = 0 ∧
          ¬ (b₂.windows w).primarySurface = primary then
          b₂.setSurfaceWindow (b₂.windows w).primarySurface 0 else b₂) = b₃
      have hmade₃ : Made b b₃ [primary] ∧ b₃.handles = b₂.handles := by
        rw [← hb₃]
        split_ifs
        · exact ⟨hattached.setSurfaceWindow _ _, (handles_setSurfaceWindow b₂ _ _).1⟩
        · exact ⟨hattached, rfl⟩
      have hmade₄ := hmade₃.1.setWindow w ⟨primary, 0⟩
      have hw₄ : (b₃.setWindow w ⟨primary, 0⟩).getWindow win = some w := by
        rw [← hw]
        simp only [Backend.getWindow, Backend.setWindow, hmade₃.2]
      have hfree₄ : 0 < (b₃.setWindow w ⟨primary, 0⟩).freeHandles := by
        simp only [freeHandles, Backend.setWindow, hmade₃.2, hhandles] at hrest hfree ⊢
        omega
      have hback₄ : ((b₃.setWindow w ⟨primary, 0⟩).windows w).backbuffer = 0 := by
        simp [Backend.setWindow]
      generalize b₃.setWindow w ⟨primary, 0⟩ = b₄ at hmade₄ hw₄ hfree₄ hback₄ ⊢
      by_cases hcount : 0 < backbufferCount
      · simp only [hcount, if_true]
        by_cases hzero : (rbSurfaceCreate backMemory b₄).1 = 0
        · -- There was no memory, so that nothing has changed.
          have hsame : (rbSurfaceCreate backMemory b₄).2 = b₄ := by
            cases backMemory with
            | false => rfl
            | true => exact absurd hzero (rbSurfaceCreate_ne_zero hfree₄)
          simp only [hzero, hsame, not_true_eq_false, if_false]
          exact ⟨hne, hmade₄.chainBackbuffer hw₄ hback₄ hfree₄ fallback⟩
        · have hcreated₅ := Made.create hmade₄.sound fun _ : backMemory = true => hfree₄
          rw [if_neg hzero] at hcreated₅
          have hmade₅ := ((hmade₄.trans hcreated₅).setSurfaceWindow (rbSurfaceCreate backMemory b₄).1
            win).setWindow w ⟨primary, (rbSurfaceCreate backMemory b₄).1⟩
          simp only [hzero, not_false_eq_true, if_true]
          generalize hb₅ : Backend.setWindow w _ _ = b₅ at hmade₅ ⊢
          have hw₅ : b₅.getWindow win = some w := by
            rw [hmade₅.getWindow, ← hmade₄.getWindow]
            exact hw₄
          have hback₅ : (b₅.windows w).backbuffer = (rbSurfaceCreate backMemory b₄).1 := by
            rw [← hb₅]
            simp [Backend.setWindow]
          have hchain := chainBackbuffer_of_ne hmade₅.sound hw₅ (hback₅ ▸ hzero) fallback
          rw [hback₅] at hchain
          rw [hchain, if_neg hzero]
          exact ⟨hne, hmade₅⟩
      · simp only [hcount, if_false]
        exact ⟨hne, hmade₄.chainBackbuffer hw₄ hback₄ hfree₄ fallback⟩

/-! ### Destruction -/

/-- The backend after some of the surfaces with handles in `hs` have been destroyed.  What windows and
surfaces say about each other is the same or `0`. -/
structure Shrinks (hs : List ℕ) (b b' : Backend) : Prop where
  sound : Sound b'
  outside : ∀ h, h ∉ hs → b'.getSurface h = b.getSurface h
  old : ∀ h s, b'.getSurface h = some s → b.getSurface h = some s
  getWindow : b'.getWindow = b.getWindow
  surfaceWindow : ∀ s, b'.surfaceWindow s = b.surfaceWindow s ∨ b'.surfaceWindow s = 0
  primary : ∀ w, (b'.windows w).primarySurface = (b.windows w).primarySurface ∨
    (b'.windows w).primarySurface = 0
  backbuffer : ∀ w, (b'.windows w).backbuffer = (b.windows w).backbuffer ∨ (b'.windows w).backbuffer = 0
  made : b'.surfacesMade = b.surfacesMade

variable {hs : List ℕ}

theorem Shrinks.refl (h : Sound b) :
  Shrinks hs b b
  := by
  exact ⟨h, fun _ _ => rfl, fun _ _ hs => hs, rfl, fun _ => Or.inl rfl, fun _ => Or.inl rfl,
    fun _ => Or.inl rfl, rfl⟩

theorem Shrinks.trans {b'' : Backend} (h : Shrinks hs b b') (h' : Shrinks hs b' b'') :
  Shrinks hs b b''
  := by
  have hor {x y z : ℕ} (hxy : y = x ∨ y = 0) (hyz : z = y ∨ z = 0) : z = x ∨ z = 0 := by
    rcases hyz with rfl | rfl
    · exact hxy
    · exact Or.inr rfl
  refine ⟨h'.sound, ?_, fun k s hs => h.old k s (h'.old k s hs), h'.getWindow.trans h.getWindow,
    fun s => hor (h.surfaceWindow s) (h'.surfaceWindow s), fun w => hor (h.primary w) (h'.primary w),
    fun w => hor (h.backbuffer w) (h'.backbuffer w), h'.made.trans h.made⟩
  intro k hk
  rw [h'.outside k hk, h.outside k hk]

theorem Shrinks.setWindow (h : Sound b) {wnd : RbWindow}
    (hprimary : wnd.primarySurface = (b.windows w).primarySurface ∨ wnd.primarySurface = 0)
    (hbackbuffer : wnd.backbuffer = (b.windows w).backbuffer ∨ wnd.backbuffer = 0) :
  Shrinks hs b (b.setWindow w wnd)
  := by
  refine ⟨h.of_same h.tidy rfl rfl rfl, fun _ _ => rfl, fun _ _ hs => hs, rfl, fun _ => Or.inl rfl,
    ?_, ?_, rfl⟩
  all_goals
    intro w'
    simp only [Backend.setWindow, update_apply]
    split_ifs with hw
  · rw [hw]
    exact hprimary
  · exact Or.inl rfl
  · rw [hw]
    exact hbackbuffer
  · exact Or.inl rfl

theorem Shrinks.setSurfaceWindow (h : Sound b) (surf : ℕ) :
  Shrinks hs b (b.setSurfaceWindow surf 0)
  := by
  rw [Backend.setSurfaceWindow]
  cases b.getSurface surf with
  | none => exact Shrinks.refl h
  | some s =>
    refine ⟨h.of_same h.tidy rfl rfl rfl, fun _ _ => rfl, fun _ _ hs => hs, rfl, ?_, fun _ => Or.inl rfl,
      fun _ => Or.inl rfl, rfl⟩
    intro s'
    simp only [update_apply]
    split_ifs
    · exact Or.inr rfl
    · exact Or.inl rfl

theorem Shrinks.freeSurface (h : Sound b) (hs' : b.getSurface surf = some s) (hmem : surf ∈ hs) :
  Shrinks hs b (b.freeSurface surf s)
  := by
  have hget := getSurface_freeSurface h hs'
  refine ⟨h.freeSurface hs', ?_, ?_, getWindow_freeSurface h hs', fun _ => Or.inl rfl, fun _ => Or.inl rfl,
    fun _ => Or.inl rfl, rfl⟩
  · intro k hk
    rw [hget, update_of_ne]
    rintro rfl
    exact hk hmem
  · intro k s' hk
    rw [hget, update_apply, Option.ite_none_left_eq_some] at hk
    exact hk.2

theorem Shrinks.free (h : Sound b) (hmem : (b.getSurface surf).isSome → surf ∈ hs) :
  Shrinks hs b (rbSurfaceFree surf b)
  := by
  rw [rbSurfaceFree]
  cases hs' : b.getSurface surf with
  | none => exact Shrinks.refl h
  | some s =>
    apply Shrinks.freeSurface h hs'
    apply hmem
    rw [hs']
    rfl

theorem Shrinks.freeBackbuffer (h : Sound b) (hmem : (b.getSurface surf).isSome → surf ∈ hs) :
  Shrinks hs b (rbSurfaceFree surf (b.setSurfaceWindow surf 0))
  := by
  have hset := @Shrinks.setSurfaceWindow _ hs h surf
  apply hset.trans
  apply Shrinks.free hset.sound
  intro hsome
  apply hmem
  obtain ⟨s, hs'⟩ := Option.isSome_iff_exists.mp hsome
  rw [hset.old surf s hs']
  rfl

/-- The handles `hs` have the backbuffer of every window whose primary surface they have. -/
def Closed (hs : List ℕ) (b : Backend) : Prop :=
  ∀ surf ∈ hs, ∀ s, b.getSurface surf = some s → ∀ w, b.getWindow (b.surfaceWindow s) = some w →
    (b.windows w).primarySurface = surf → (b.getSurface (b.windows w).backbuffer).isSome →
    (b.windows w).backbuffer ∈ hs

theorem Closed.of_shrinks (hclosed : Closed hs b) (h : Shrinks hs b b') (hb : Sound b) :
  Closed hs b'
  := by
  intro surf hsurf s hs' w hw hprimary hback
  have hold := h.old surf s hs'
  have h3 := hb.three_le hold
  obtain ⟨s', hs''⟩ := Option.isSome_iff_exists.mp hback
  have hold' := h.old _ s' hs''
  have h3' := hb.three_le hold'
  have hbackbuffer : (b'.windows w).backbuffer = (b.windows w).backbuffer := by
    rcases h.backbuffer w with heq | hzero
    · exact heq
    · omega
  have hwindow : b'.surfaceWindow s = b.surfaceWindow s := by
    have h3'' := h.sound.three_le_window hw
    rcases h.surfaceWindow s with heq | hzero
    · exact heq
    · omega
  have hprimary' : (b.windows w).primarySurface = surf := by
    rcases h.primary w with heq | hzero
    · rw [← heq]
      exact hprimary
    · omega
  rw [hbackbuffer] at hold' ⊢
  rw [hwindow, h.getWindow] at hw
  apply hclosed surf hsurf s hold w hw hprimary'
  rw [hold']
  rfl

theorem getSurface_rbSurfaceFree (h : Sound b) (surf : ℕ) :
  (rbSurfaceFree surf b).getSurface = update b.getSurface surf none
  := by
  rw [rbSurfaceFree]
  cases hs' : b.getSurface surf with
  | none => exact (update_eq_self_iff.mpr hs'.symm).symm
  | some s => exact getSurface_freeSurface h hs'

theorem getSurface_setSurfaceWindow (b : Backend) (surf win : ℕ) :
  (b.setSurfaceWindow surf win).getSurface = b.getSurface
  := by
  rw [Backend.setSurfaceWindow]
  cases b.getSurface surf <;> rfl

section

variable (h : Sound b) (hclosed : Closed hs b)
include h hclosed

theorem Shrinks.forget (hmem : surf ∈ hs)
    (hs' : b.getSurface surf = some s) :
  Shrinks hs b (rbSurfaceForget surf s b) ∧ (rbSurfaceForget surf s b).getSurface surf = some s
  := by
  rw [rbSurfaceForget]
  simp only
  split
  · exact ⟨Shrinks.refl h, hs'⟩
  · rename_i w hw
    have hw' : b.getWindow (b.surfaceWindow s) = some w := by
      split_ifs at hw
      exact hw
    split_ifs with hprimary hback hbackbuffer
    · have hset : Shrinks hs b (b.setWindow w ⟨0, 0⟩) :=
        Shrinks.setWindow h (Or.inr rfl) (Or.inr rfl)
      constructor
      · apply hset.trans
        apply Shrinks.freeBackbuffer hset.sound
        exact hclosed surf hmem s hs' w hw' hprimary
      · have hdetached := @Shrinks.setSurfaceWindow _ hs hset.sound (b.windows w).backbuffer
        rw [getSurface_rbSurfaceFree hdetached.sound, update_of_ne hback.2.symm,
          getSurface_setSurfaceWindow]
        exact hs'
    · exact ⟨Shrinks.setWindow h (Or.inr rfl) (Or.inr rfl), hs'⟩
    · exact ⟨Shrinks.setWindow h (Or.inl rfl) (Or.inr rfl), hs'⟩
    · exact ⟨Shrinks.refl h, hs'⟩

theorem Shrinks.destroy (hmem : surf ∈ hs) :
  Shrinks hs b (rbSurfaceDestroy surf b) ∧ (rbSurfaceDestroy surf b).getSurface surf = none
  := by
  rw [rbSurfaceDestroy]
  cases hs' : b.getSurface surf with
  | none => exact ⟨Shrinks.refl h, hs'⟩
  | some s =>
    obtain ⟨hshrinks, hget⟩ := Shrinks.forget h hclosed hmem hs'
    use hshrinks.trans (Shrinks.freeSurface hshrinks.sound hget hmem)
    rw [getSurface_freeSurface hshrinks.sound hget, update_self]

theorem Shrinks.foldl {l : List ℕ} (hl : l ⊆ hs) :
  Shrinks hs b (l.foldl (fun b surf => rbSurfaceDestroy surf b) b) ∧
    ∀ surf ∈ l, (l.foldl (fun b surf => rbSurfaceDestroy surf b) b).getSurface surf = none
  := by
  induction l generalizing b with
  | nil => exact ⟨Shrinks.refl h, by simp⟩
  | cons surf l ih =>
    obtain ⟨hmem, hl⟩ := cons_subset.mp hl
    obtain ⟨hfirst, hnone⟩ := Shrinks.destroy h hclosed hmem
    obtain ⟨hrest, hnones⟩ := ih hfirst.sound (hclosed.of_shrinks hfirst h) hl
    rw [foldl_cons]
    use hfirst.trans hrest
    intro surf' hsurf'
    rcases mem_cons.mp hsurf' with rfl | hsurf'
    · -- A surface that has been destroyed does not come back.
      cases hget : (l.foldl (fun b surf => rbSurfaceDestroy surf b)
          (rbSurfaceDestroy surf' b)).getSurface surf' with
      | none => rfl
      | some s =>
        rw [hrest.old surf' s hget] at hnone
        cases hnone
    · exact hnones surf' hsurf'

/-- When the surfaces of the handles in `hs` are destroyed, exactly these handles lose their
surfaces. -/
theorem foldl_rbSurfaceDestroy :
  Shrinks hs b (hs.foldl (fun b surf => rbSurfaceDestroy surf b) b) ∧
    ∀ surf, (hs.foldl (fun b surf => rbSurfaceDestroy surf b) b).getSurface surf =
      if surf ∈ hs then none else b.getSurface surf
  := by
  obtain ⟨hshrinks, hnone⟩ := Shrinks.foldl h hclosed (List.Subset.refl hs)
  use hshrinks
  intro surf
  split_ifs with hmem
  · exact hnone surf hmem
  · exact hshrinks.outside surf hmem

end

/-! ### Windows -/

theorem Shrinks.ite {P : Prop} [Decidable P] (h : Sound b) (hthen : P → Shrinks hs b b') :
  Shrinks hs b (if P then b' else b)
  := by
  split_ifs with hP
  · exact hthen hP
  · exact Shrinks.refl h

theorem Shrinks.detachSurfaces (h : Sound b)
    (hback : (b.getSurface (b.windows w).backbuffer).isSome → (b.windows w).backbuffer ∈ hs) :
  Shrinks hs b (rbWindowDetachSurfaces w b)
  := by
  rw [rbWindowDetachSurfaces]
  have hfirst : Shrinks hs b (if (b.windows w).primarySurface ≠ 0 then
      b.setSurfaceWindow (b.windows w).primarySurface 0 else b) :=
    Shrinks.ite h fun _ => Shrinks.setSurfaceWindow h _
  generalize (if (b.windows w).primarySurface ≠ 0 then
      b.setSurfaceWindow (b.windows w).primarySurface 0 else b) = b₁ at hfirst
  have hsecond : Shrinks hs b₁ (if (b.windows w).backbuffer ≠ 0 then
      rbSurfaceFree (b.windows w).backbuffer (b₁.setSurfaceWindow (b.windows w).backbuffer 0) else b₁) := by
    apply Shrinks.ite hfirst.sound
    intro _
    apply Shrinks.freeBackbuffer hfirst.sound
    intro hsome
    apply hback
    obtain ⟨s, hs'⟩ := Option.isSome_iff_exists.mp hsome
    rw [hfirst.old _ s hs']
    rfl
  apply (hfirst.trans hsecond).trans
  exact Shrinks.setWindow hsecond.sound (Or.inr rfl) (Or.inr rfl)

/-- A window goes away without a surface if its backbuffer is gone. -/
theorem Sound.destroyWindow (h : Sound b) {win : ℕ}
    (hback : ∀ w, b.getWindow win = some w → b.getSurface (b.windows w).backbuffer = none) :
  Sound (b.destroyWindow win) ∧ (b.destroyWindow win).getSurface = b.getSurface
  := by
  rw [Backend.destroyWindow]
  cases hw : b.getWindow win with
  | none => exact ⟨h, rfl⟩
  | some w =>
    have hshrinks : Shrinks [] b (rbWindowDetachSurfaces w b) := by
      apply Shrinks.detachSurfaces h
      intro hsome
      rw [hback w hw] at hsome
      cases hsome
    have hget : (rbWindowDetachSurfaces w b).getSurface = b.getSurface := by
      funext surf
      exact hshrinks.outside surf not_mem_nil
    rw [← hshrinks.getWindow] at hw
    obtain ⟨htidy, -, hobj⟩ := hshrinks.sound.tidy.free (Or.inr rfl) hw
    have hsame : objectOf (wineHandleFree (rbWindowDetachSurfaces w b).handles win) handleTypeRbSurface =
        (rbWindowDetachSurfaces w b).getSurface := by
      rw [hobj _ handleTypeRbSurface_ne_zero]
      apply update_eq_self_iff.mpr
      symm
      exact objectOf_eq_none handleTypeRbWindow_ne_zero handleTypeRbSurface_ne_zero (by decide) hw
    constructor
    · exact hshrinks.sound.of_same htidy hsame rfl rfl
    · exact hsame.trans hget

theorem Sound.createWindow (h : Sound b) (created : Bool) :
  Sound (b.createWindow created).2 ∧ (b.createWindow created).2.getSurface = b.getSurface
  := by
  cases created with
  | false => exact ⟨h, rfl⟩
  | true =>
    obtain ⟨htidy, halloc⟩ := h.tidy.alloc handleTypeRbWindow (b.windowsMade + 1)
    have hget : (b.createWindow true).2.getSurface = b.getSurface := by
      rcases halloc with ⟨-, hsame⟩ | ⟨-, hobj⟩
      · change objectOf (wineHandleAlloc b.handles handleTypeRbWindow (b.windowsMade + 1)).2 _ = _
        rw [hsame]
        rfl
      · obtain ⟨hnone, hupdate⟩ := hobj handleTypeRbSurface handleTypeRbSurface_ne_zero
        have htypes : handleTypeRbWindow ≠ handleTypeRbSurface := by decide
        rw [if_neg htypes] at hupdate
        exact hupdate.trans (update_eq_self_iff.mpr hnone.symm)
    exact ⟨h.of_same htidy hget rfl rfl, hget⟩

/-! ### Other handles -/

/-- The operation is on the handle of something else. -/
def Apart (b : Backend) : HandleOp → Prop
  | .alloc type _ => type ≠ handleTypeRbSurface ∧ type ≠ handleTypeRbWindow
  | .addRef handle => b.getSurface handle = none ∧ b.getWindow handle = none
  | .free handle => b.getSurface handle = none ∧ b.getWindow handle = none

instance (b : Backend) (op : HandleOp) : Decidable (b.Apart op) := by
  cases op <;> unfold Apart <;> infer_instance

def IsRb (slot : WineHandle) : Prop :=
  slot.refCount ≠ 0 ∧ (slot.type = handleTypeRbSurface ∨ slot.type = handleTypeRbWindow)

theorem slotObject_of_not_isRb {slot : WineHandle} (h : ¬ IsRb slot) :
  slotObject slot handleTypeRbSurface = none
  := by
  rw [slotObject, if_neg]
  rintro ⟨hlive, htype⟩
  exact h ⟨hlive, Or.inl htype⟩

theorem not_isRb_of_get {i : Fin handleTableSize} (hsurface : b.getSurface i.val = none)
    (hwindow : b.getWindow i.val = none) :
  ¬ IsRb (b.handles i)
  := by
  rintro ⟨hlive, htype⟩
  rw [getSurface, objectOf_val handleTypeRbSurface_ne_zero, slotObject] at hsurface
  rw [getWindow, objectOf_val handleTypeRbWindow_ne_zero, slotObject] at hwindow
  rcases htype with htype | htype
  · rw [if_pos ⟨hlive, htype⟩] at hsurface
    cases hsurface
  · rw [if_pos ⟨hlive, htype⟩] at hwindow
    cases hwindow

theorem not_isRb_addRef {slot : WineHandle} (h : ¬ IsRb slot) :
  ¬ IsRb slot.addRef
  := by
  rw [WineHandle.addRef]
  split_ifs with hlive
  · rintro ⟨-, htype⟩
    exact h ⟨hlive.1, htype⟩
  · exact h

theorem not_isRb_free {slot : WineHandle} (h : ¬ IsRb slot) :
  ¬ IsRb slot.free
  := by
  rw [WineHandle.free]
  split_ifs with hlive
  · simp only
    split_ifs
    · rintro ⟨hne, -⟩
      exact hne rfl
    · rintro ⟨-, htype⟩
      exact h ⟨hlive, htype⟩
  · exact h

theorem Apart.slot {op : HandleOp} (hop : b.Apart op) (i : Fin handleTableSize) :
  HandleManager.step b.handles op i = b.handles i ∨
    ¬ IsRb (b.handles i) ∧ ¬ IsRb (HandleManager.step b.handles op i)
  := by
  rcases step_apply b.handles op i with
    ⟨type, object, rfl, -, -, hzero, hstep⟩ | ⟨rfl, hstep⟩ | ⟨rfl, -, hstep⟩ | ⟨-, -, hstep⟩
  · right
    constructor
    · rintro ⟨hlive, -⟩
      exact hlive hzero
    · rw [hstep]
      rintro ⟨-, htype⟩
      exact htype.elim hop.1 hop.2
  · right
    have hnot := not_isRb_of_get hop.1 hop.2
    rw [hstep]
    exact ⟨hnot, not_isRb_addRef hnot⟩
  · right
    have hnot := not_isRb_of_get hop.1 hop.2
    rw [hstep]
    exact ⟨hnot, not_isRb_free hnot⟩
  · exact Or.inl hstep

theorem Sound.handles (h : Sound b) {op : HandleOp} (hop : b.Apart op) :
  Sound { b with handles := HandleManager.step b.handles op } ∧
    Backend.getSurface { b with handles := HandleManager.step b.handles op } = b.getSurface
  := by
  have hget : Backend.getSurface { b with handles := HandleManager.step b.handles op } =
      b.getSurface := by
    funext surf
    simp only [getSurface, objectOf_eq_bind handleTypeRbSurface_ne_zero]
    congr 1
    funext i
    rcases hop.slot i with heq | ⟨hbefore, hafter⟩
    · rw [heq]
    · rw [slotObject_of_not_isRb hbefore, slotObject_of_not_isRb hafter]
  refine ⟨h.of_same ?_ hget rfl rfl, hget⟩
  intro i hlive htype
  rcases hop.slot i with heq | ⟨-, hafter⟩
  · simp only [heq] at hlive htype ⊢
    exact h.tidy i hlive htype
  · exact absurd ⟨hlive, htype⟩ hafter

end Backend

end Ddraw
