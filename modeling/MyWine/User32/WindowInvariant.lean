import MyWine.User32.WindowLifecycle

/-!
# The windows of a process

The windows of the guest in the handle table (`windows`), and how the operations on handles change
them.  The state of `user32` is sound if the windows have different entries that have not been freed,
they are counted, and a window that is being destroyed is there (`Sound`).  The lemmas below say which
changes of the state keep it sound: a call that begins or ends to wait, a new window, and an entry
that is freed together with its window.
-/

namespace User32

open HandleManager Function List

/-! ### The windows in the handle table -/

def windows (t : HandleTable) (i : Fin handleTableSize) : Option Ptr :=
  if (t i).refCount ≠ 0 ∧ (t i).type = handleTypeHwin then some (t i).object else none

def Tidy (t : HandleTable) : Prop :=
  ∀ i entry, windows t i = some entry → 3 ≤ i.val ∧ (t i).refCount = 1

section

variable {t : HandleTable}

variable {i : Fin handleTableSize}

theorem getWindowEntry_of_windows {entry : Ptr} (h : windows t i = some entry) {hwnd : ℕ}
    (hwnd_eq : toHandle hwnd = i.val) :
  getWindowEntry t hwnd = entry
  := by
  rw [windows] at h
  split_ifs at h with hwindow
  cases h
  obtain ⟨hget, htype⟩ := get_of_live hwindow.1
  rw [getWindowEntry, hwnd_eq, hget, htype]
  by_cases hnull : (t i).object = 0
  · simp [hnull]
  · simp [hnull, hwindow.2]

theorem windows_of_getWindowEntry {hwnd : ℕ} (h : getWindowEntry t hwnd ≠ 0) :
  ∃ i : Fin handleTableSize, toHandle hwnd = i.val ∧ windows t i = some (getWindowEntry t hwnd)
  := by
  simp only [getWindowEntry] at h ⊢
  split_ifs at h ⊢ with hobj
  · contradiction
  · rw [not_or, not_not] at hobj
    obtain ⟨hobj, htype⟩ := hobj
    rcases get_cases t (toHandle hwnd) with ⟨i, hi, hlive, hget, htype'⟩ | ⟨hzero, -⟩
    · use i, hi
      rw [htype'] at htype
      rw [windows, if_pos ⟨hlive, htype⟩, hget]
    · exact absurd hzero hobj

theorem getWindowEntry_congr {t' : HandleTable} (h : windows t' = windows t) (hwnd : ℕ) :
  getWindowEntry t' hwnd = getWindowEntry t hwnd
  := by
  by_cases hne : getWindowEntry t hwnd = 0
  · by_contra hne'
    rw [hne] at hne'
    obtain ⟨i, hi, hwindow⟩ := windows_of_getWindowEntry hne'
    rw [h] at hwindow
    rw [getWindowEntry_of_windows hwindow hi] at hne
    exact hne' hne
  · obtain ⟨i, hi, hwindow⟩ := windows_of_getWindowEntry hne
    rw [← h] at hwindow
    exact getWindowEntry_of_windows hwindow hi

theorem windows_update_other {slot : WineHandle} (hbefore : windows t i = none)
    (hafter : slot.refCount = 0 ∨ slot.type ≠ handleTypeHwin) :
  windows (update t i slot) = windows t
  := by
  funext j
  by_cases hj : j = i
  · subst hj
    rw [hbefore, windows, if_neg]
    rw [update_self, not_and_or, not_not]
    exact hafter
  · rw [windows, windows, update_of_ne hj]

theorem Tidy.of_update_other (htidy : Tidy t) {slot : WineHandle} (hbefore : windows t i = none)
    (hafter : slot.refCount = 0 ∨ slot.type ≠ handleTypeHwin) :
  Tidy (update t i slot)
  := by
  intro j entry hj
  rw [windows_update_other hbefore hafter] at hj
  have hne : j ≠ i := by
    rintro rfl
    rw [hbefore] at hj
    cases hj
  rw [update_of_ne hne]
  apply htidy j entry hj

theorem windows_alloc_other (htidy : Tidy t) {type : UInt8} (htype : type ≠ handleTypeHwin)
    (object : Ptr) :
  windows (wineHandleAlloc t type object).2 = windows t ∧ Tidy (wineHandleAlloc t type object).2
  := by
  rcases wineHandleAlloc_cases t type object with ⟨i, -, hfree, halloc⟩ | ⟨-, halloc⟩
  · have hbefore : windows t i = none := by
      rw [windows, if_neg]
      simp [hfree]
    rw [halloc]
    exact ⟨windows_update_other hbefore (Or.inr htype), htidy.of_update_other hbefore (Or.inr htype)⟩
  · rw [halloc]
    exact ⟨rfl, htidy⟩

theorem windows_rbWindowCreate (htidy : Tidy t) (win : Ptr) :
  windows (rbWindowCreate t win).2 = windows t ∧ Tidy (rbWindowCreate t win).2
  := by
  rw [rbWindowCreate]
  split_ifs
  · exact ⟨rfl, htidy⟩
  · apply windows_alloc_other htidy
    decide

theorem windows_alloc (htidy : Tidy t) (entry : Ptr) :
  let r := wineHandleAlloc t handleTypeHwin entry
  r.1 ≠ 0 → ∃ i : Fin handleTableSize, r.1 = i.val ∧ windows t i = none ∧
    windows r.2 = update (windows t) i (some entry) ∧ Tidy r.2
  := by
  intro r hne
  rcases wineHandleAlloc_cases t handleTypeHwin entry with ⟨i, h3, hfree, halloc⟩ | ⟨-, halloc⟩
  · have hbefore : windows t i = none := by
      rw [windows, if_neg]
      simp [hfree]
    rw [show r = _ from halloc]
    have hafter : windows (update t i ⟨i.val, handleTypeHwin, 1, entry⟩) =
        update (windows t) i (some entry) := by
      funext j
      by_cases hj : j = i
      · subst hj
        rw [update_self, windows, update_self, if_pos]
        have hone : (1 : UInt8) ≠ 0 := by decide
        exact ⟨hone, rfl⟩
      · rw [update_of_ne hj, windows, windows, update_of_ne hj]
    refine ⟨i, rfl, hbefore, hafter, ?_⟩
    simp only
    intro j entry' hj
    by_cases hji : j = i
    · subst hji
      rw [update_self]
      exact ⟨h3, rfl⟩
    · rw [hafter, update_of_ne hji] at hj
      rw [update_of_ne hji]
      apply htidy j entry' hj
  · rw [show r = _ from halloc] at hne
    contradiction

theorem windows_rbWindowDestroy (htidy : Tidy t) (win : ℕ) :
  windows (rbWindowDestroy t win) = windows t ∧ Tidy (rbWindowDestroy t win)
  := by
  rw [rbWindowDestroy]
  split_ifs with htype
  · rcases wineHandleFree_cases t (toHandle win) with ⟨i, hi, -, hlive, hfree⟩ | hfree
    · have hrb : (t i).type = handleTypeRbWindow := by
        rw [← (get_of_live hlive).2, ← hi]
        exact htype.1
      have hbefore : windows t i = none := by
        rw [windows, if_neg]
        rw [hrb]
        rintro ⟨-, heq⟩
        cases heq
      have hafter : (t i).free.refCount = 0 ∨ (t i).free.type ≠ handleTypeHwin := by
        by_cases hdead : (t i).free.refCount = 0
        · exact .inl hdead
        · right
          rw [((WineHandle.free_of_live hlive).2 hdead).1, hrb]
          decide
      rw [hfree]
      exact ⟨windows_update_other hbefore hafter, htidy.of_update_other hbefore hafter⟩
    · rw [hfree]
      exact ⟨rfl, htidy⟩
  · exact ⟨rfl, htidy⟩

theorem windows_free (htidy : Tidy t) {entry : Ptr} (hi : windows t i = some entry) :
  windows (wineHandleFree t i.val) = update (windows t) i none ∧
    Tidy (wineHandleFree t i.val)
  := by
  obtain ⟨h3, hone⟩ := htidy i entry hi
  have hfree := wineHandleFree_of_one h3 hone
  have hafter : windows (update t i .empty) = update (windows t) i none := by
    funext j
    by_cases hj : j = i
    · subst hj
      rw [update_self, windows, update_self, if_neg]
      rintro ⟨hlive, -⟩
      apply hlive
      rfl
    · rw [update_of_ne hj, windows, windows, update_of_ne hj]
  rw [hfree]
  use hafter
  intro j entry' hj
  rw [hafter, update_apply, Option.ite_none_left_eq_some] at hj
  rw [update_of_ne hj.1]
  apply htidy j entry' hj.2

end

/-! ### Invariants -/

def Frame.entry : Frame → Ptr
  | .ncCreate entry _ _ => entry
  | .create entry _ _ => entry
  | .destroy _ entry => entry
  | .ncDestroy _ entry => entry

def Frame.creates : Frame → Option ℕ
  | .ncCreate _ handle _ => some handle
  | .create _ handle _ => some handle
  | .destroy _ _ => none
  | .ncDestroy _ _ => none

def Frame.destroys : Frame → Option ℕ
  | .ncCreate _ _ _ => none
  | .create _ _ _ => none
  | .destroy hwnd _ => some hwnd
  | .ncDestroy hwnd _ => some hwnd

/-- The entries of the windows in the table are different and have not been freed, and a window that
is being destroyed is in the table.  Of two calls that wait and are about the same window, the later
one destroys it and the earlier one creates it. -/
structure Sound (s : WinState) : Prop where
  tidy : Tidy s.handles
  entry : ∀ i entry, windows s.handles i = some entry →
    0 < entry ∧ entry ≤ s.allocated ∧ entry ∉ s.freed
  inj : ∀ i j entry, windows s.handles i = some entry → windows s.handles j = some entry → i = j
  nodup : s.freed.Nodup
  freed_le : ∀ entry ∈ s.freed, entry ≤ s.allocated
  unused : s.usedFreed = false
  live : s.liveWindows = (Table.occupied (fun w => w.isSome) (windows s.handles)).card
  frame : ∀ f ∈ s.stack, 0 < f.entry ∧ f.entry ≤ s.allocated ∧
    ∀ handle ∈ f.creates, handle < handleTableSize
  destroying : ∀ f ∈ s.stack, ∀ hwnd ∈ f.destroys, getWindowEntry s.handles hwnd = f.entry ∧
    (s.entries f.entry).destroyInProgress = true
  order : s.stack.Pairwise fun f f' => f.entry = f'.entry → f.destroys.isSome ∧ f'.destroys = none

/-- The variables for the active window and the focus are `0` or the handle of a window. -/
structure Focused (s : WinState) : Prop where
  active : s.activeWindow = 0 ∨
    ∃ i : Fin handleTableSize, s.activeWindow = i.val ∧ (windows s.handles i).isSome
  focus : s.focusWindow = 0 ∨
    ∃ i : Fin handleTableSize, s.focusWindow = i.val ∧ (windows s.handles i).isSome

section

variable {s : WinState}

variable {entry : Ptr}

theorem use_eq (h : entry ∉ s.freed) :
  s.use entry = s
  := by
  have hcontains : s.freed.contains entry = false := by simpa using h
  rw [WinState.use, hcontains, Bool.or_false]

theorem Sound.not_freed (h : Sound s) {hwnd : ℕ} (hne : getWindowEntry s.handles hwnd ≠ 0) :
  getWindowEntry s.handles hwnd ∉ s.freed
  := by
  obtain ⟨i, -, hi⟩ := windows_of_getWindowEntry hne
  exact (h.entry i _ hi).2.2

theorem Sound.setForegroundFocus_eq (h : Sound s) (target : ℕ) :
  setForegroundFocus target s = { s with
    focusWindow := if getWindowEntry s.handles target ≠ 0 then target else 0
    activeWindow := if getWindowEntry s.handles target ≠ 0 then target else 0 }
  := by
  rw [setForegroundFocus]
  generalize (if getWindowEntry s.handles target ≠ 0 then target else 0) = w
  simp only [sendFocusTransition]
  generalize (if getFocusWindow s ≠ 0 then getFocusWindow s else getActiveWindow s) = previous
  have huse {hwnd : ℕ} : (if getWindowEntry s.handles hwnd ≠ 0 then
      WinState.use (getWindowEntry s.handles hwnd) { s with focusWindow := w, activeWindow := w }
    else { s with focusWindow := w, activeWindow := w }) =
      { s with focusWindow := w, activeWindow := w } := by
    split_ifs with hne
    · apply use_eq
      apply h.not_freed hne
    · rfl
  rw [huse, huse, ite_self]

theorem Sound.of_same (h : Sound s) {s' : WinState} (htidy : Tidy s'.handles)
    (hwindows : windows s'.handles = windows s.handles) (hallocated : s.allocated ≤ s'.allocated)
    (hfreed : s'.freed = s.freed) (hused : s'.usedFreed = s.usedFreed)
    (hlive : s'.liveWindows = s.liveWindows) (hstack : s'.stack = s.stack)
    (hprogress : ∀ entry ≤ s.allocated, (s.entries entry).destroyInProgress = true →
      (s'.entries entry).destroyInProgress = true) :
  Sound s'
  := by
  constructor
  · exact htidy
  · intro i entry hi
    rw [hwindows] at hi
    obtain ⟨hpos, hle, hnot⟩ := h.entry i entry hi
    rw [hfreed]
    exact ⟨hpos, hle.trans hallocated, hnot⟩
  · rw [hwindows]
    exact h.inj
  · rw [hfreed]
    exact h.nodup
  · rw [hfreed]
    intro entry hentry
    apply (h.freed_le entry hentry).trans hallocated
  · rw [hused]
    exact h.unused
  · rw [hlive, hwindows]
    exact h.live
  · rw [hstack]
    intro f hf
    obtain ⟨hpos, hle, hhandle⟩ := h.frame f hf
    exact ⟨hpos, hle.trans hallocated, hhandle⟩
  · rw [hstack]
    intro f hf hwnd hhwnd
    obtain ⟨hentry, hprog⟩ := h.destroying f hf hwnd hhwnd
    rw [getWindowEntry_congr hwindows]
    exact ⟨hentry, hprogress f.entry (h.frame f hf).2.1 hprog⟩
  · rw [hstack]
    exact h.order

theorem Sound.push (h : Sound s) {f : Frame}
    (hframe : 0 < f.entry ∧ f.entry ≤ s.allocated ∧ ∀ handle ∈ f.creates, handle < handleTableSize)
    (hdestroying : ∀ hwnd ∈ f.destroys, getWindowEntry s.handles hwnd = f.entry ∧
      (s.entries f.entry).destroyInProgress = true)
    (horder : ∀ f' ∈ s.stack, f.entry = f'.entry → f.destroys.isSome ∧ f'.destroys = none) :
  Sound { s with stack := f :: s.stack }
  := by
  constructor
  · exact h.tidy
  · exact h.entry
  · exact h.inj
  · exact h.nodup
  · exact h.freed_le
  · exact h.unused
  · exact h.live
  · intro f' hf'
    rcases mem_cons.mp hf' with rfl | hf'
    · exact hframe
    · apply h.frame f' hf'
  · intro f' hf'
    rcases mem_cons.mp hf' with rfl | hf'
    · exact hdestroying
    · apply h.destroying f' hf'
  · rw [pairwise_cons]
    exact ⟨horder, h.order⟩

theorem Sound.pop (h : Sound s) {f : Frame} {stack : List Frame} (hstack : s.stack = f :: stack) :
  Sound { s with stack }
  := by
  have hframe := h.frame
  have hdestroying := h.destroying
  have horder := h.order
  rw [hstack] at hframe hdestroying horder
  constructor
  · exact h.tidy
  · exact h.entry
  · exact h.inj
  · exact h.nodup
  · exact h.freed_le
  · exact h.unused
  · exact h.live
  · intro f' hf'
    apply hframe f' (mem_cons_of_mem f hf')
  · intro f' hf'
    apply hdestroying f' (mem_cons_of_mem f hf')
  · exact (pairwise_cons.mp horder).2

/-- An entry that is not yet in use. -/
structure Fresh (s : WinState) (entry : Ptr) : Prop where
  pos : 0 < entry
  le : entry ≤ s.allocated
  not_freed : entry ∉ s.freed
  not_window : ∀ i, windows s.handles i ≠ some entry
  not_frame : ∀ f ∈ s.stack, f.entry ≠ entry

theorem Sound.insert (h : Sound s) (hfresh : Fresh s entry) {i : Fin handleTableSize}
    (hi : windows s.handles i = none) {t : HandleTable} (htidy : Tidy t)
    (hwindows : windows t = update (windows s.handles) i (some entry)) :
  Sound { s with handles := t, liveWindows := s.liveWindows + 1 }
  := by
  have hslot {j : Fin handleTableSize} {e : Ptr} (hj : windows t j = some e) :
      (j = i ∧ e = entry) ∨ (j ≠ i ∧ windows s.handles j = some e) := by
    rwa [hwindows, update_apply, ite_eq_iff, Option.some.injEq, eq_comm (a := entry)] at hj
  constructor
  · exact htidy
  · intro j e hj
    rcases hslot hj with ⟨-, rfl⟩ | ⟨-, hj⟩
    · exact ⟨hfresh.pos, hfresh.le, hfresh.not_freed⟩
    · apply h.entry j e hj
  · intro j k e hj hk
    rcases hslot hj with ⟨rfl, rfl⟩ | ⟨-, hj⟩
    · rcases hslot hk with ⟨rfl, -⟩ | ⟨-, hk⟩
      · rfl
      · exact absurd hk (hfresh.not_window k)
    · rcases hslot hk with ⟨-, rfl⟩ | ⟨-, hk⟩
      · exact absurd hj (hfresh.not_window j)
      · apply h.inj j k e hj hk
  · exact h.nodup
  · exact h.freed_le
  · exact h.unused
  · simp only
    rw [h.live, hwindows, Table.occupied_update_of_occ (by rfl), Finset.card_insert_of_notMem]
    · push_cast
      rfl
    · rw [Table.mem_occupied, hi]
      simp
  · exact h.frame
  · intro f hf hwnd hhwnd
    obtain ⟨hentry, hprog⟩ := h.destroying f hf hwnd hhwnd
    refine ⟨?_, hprog⟩
    have hne : getWindowEntry s.handles hwnd ≠ 0 := by
      rw [hentry]
      exact (h.frame f hf).1.ne'
    obtain ⟨j, hj, hwindow⟩ := windows_of_getWindowEntry hne
    have hji : j ≠ i := by
      rintro rfl
      rw [hi] at hwindow
      cases hwindow
    rw [hentry] at hwindow
    apply getWindowEntry_of_windows _ hj
    rw [hwindows, update_of_ne hji]
    exact hwindow
  · exact h.order

/-- An entry is freed that no call that waits is about to destroy, and its window taken from the
table if there is one. -/
theorem Sound.free (h : Sound s) (hle : entry ≤ s.allocated) (hnot : entry ∉ s.freed)
    (hframe : ∀ f ∈ s.stack, f.entry = entry → f.destroys = none) {s' : WinState}
    (htidy : Tidy s'.handles)
    (hwindows : ∀ j e, windows s'.handles j = some e ↔ windows s.handles j = some e ∧ e ≠ entry)
    (hallocated : s'.allocated = s.allocated) (hfreed : s'.freed = s.freed ++ [entry])
    (hused : s'.usedFreed = s.usedFreed)
    (hlive : s'.liveWindows = (Table.occupied (fun w => w.isSome) (windows s'.handles)).card)
    (hstack : s'.stack = s.stack) (hentries : s'.entries = s.entries) :
  Sound s'
  := by
  constructor
  · exact htidy
  · intro j e hj
    obtain ⟨hj, hne⟩ := (hwindows j e).mp hj
    obtain ⟨hpos, hle, hnot⟩ := h.entry j e hj
    rw [hallocated, hfreed, mem_append, mem_singleton, not_or]
    exact ⟨hpos, hle, hnot, hne⟩
  · intro j k e hj hk
    exact h.inj j k e ((hwindows j e).mp hj).1 ((hwindows k e).mp hk).1
  · rw [hfreed, nodup_append]
    refine ⟨h.nodup, nodup_singleton entry, ?_⟩
    rintro e he e' he' rfl
    rw [mem_singleton] at he'
    subst he'
    exact hnot he
  · intro e he
    rw [hfreed, mem_append, mem_singleton] at he
    rw [hallocated]
    rcases he with he | rfl
    · exact h.freed_le e he
    · exact hle
  · rw [hused]
    exact h.unused
  · exact hlive
  · rw [hstack, hallocated]
    exact h.frame
  · rw [hstack]
    intro f hf hwnd hhwnd
    obtain ⟨hentry, hprog⟩ := h.destroying f hf hwnd hhwnd
    rw [hentries]
    refine ⟨?_, hprog⟩
    have hne : getWindowEntry s.handles hwnd ≠ 0 := by
      rw [hentry]
      exact (h.frame f hf).1.ne'
    obtain ⟨j, hj, hwindow⟩ := windows_of_getWindowEntry hne
    rw [hentry] at hwindow
    apply getWindowEntry_of_windows _ hj
    rw [hwindows]
    use hwindow
    intro heq
    rw [hframe f hf heq] at hhwnd
    cases hhwnd
  · rw [hstack]
    exact h.order

theorem Sound.remove (h : Sound s) {i : Fin handleTableSize} (hi : windows s.handles i = some entry)
    (hframe : ∀ f ∈ s.stack, f.entry = entry → f.destroys = none) {s' : WinState}
    (htidy : Tidy s'.handles)
    (hwindows : windows s'.handles = update (windows s.handles) i none)
    (hallocated : s'.allocated = s.allocated) (hfreed : s'.freed = s.freed ++ [entry])
    (hused : s'.usedFreed = s.usedFreed)
    (hlive : s'.liveWindows = if 0 < s.liveWindows then s.liveWindows - 1 else s.liveWindows)
    (hstack : s'.stack = s.stack) (hentries : s'.entries = s.entries) :
  Sound s'
  := by
  obtain ⟨-, hle, hnot⟩ := h.entry i entry hi
  apply h.free hle hnot hframe htidy _ hallocated hfreed hused _ hstack hentries
  · intro j e
    rw [hwindows]
    by_cases hji : j = i
    · subst hji
      rw [update_self, hi]
      simp only [reduceCtorEq, false_iff, not_and, not_not]
      rintro ⟨⟩
      rfl
    · rw [update_of_ne hji]
      constructor
      · intro hj
        use hj
        rintro rfl
        exact hji (h.inj j i e hj hi)
      · exact And.left
  · have hmem : i ∈ Table.occupied (fun w => w.isSome) (windows s.handles) := by
      rw [Table.mem_occupied, hi]
      rfl
    have hcard := Finset.card_pos.mpr ⟨i, hmem⟩
    have hlive' := h.live
    rw [hlive, hwindows, Table.occupied_update_of_not_occ (by simp), Finset.card_erase_of_mem hmem,
      if_pos (by omega)]
    omega

end

end User32
