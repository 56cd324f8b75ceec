import MyWine.User32.WindowInvariant

/-!
# Re-entrant creation and destruction of windows

Creation and destruction keep the entry of the window while its procedure runs, and the procedure may
destroy the window in the meantime.  A destruction is safe against that, because it marks the entry
and the calls that wait are about different windows, or the last one destroys what an earlier one
creates (`Sound`).  A creation is not: it uses the entry when the procedure has returned from
`WM_NCCREATE`, and frees it when the window is refused.  It also leaves the focus on a window that is
refused, and a destruction leaves it on the window when the `HWND` has more bits than the handle.  If
none of this happens (`Allowed`), then the entries are freed once and not used after that, the windows
are counted, and the focus is on a window that is there (`windows_ok`).
-/

namespace User32

open HandleManager Function

section

variable {s : WinState}

/-! ### Creation -/

def Unfocused (s : WinState) (hwnd : ℕ) : Prop := s.activeWindow ≠ hwnd ∧ s.focusWindow ≠ hwnd

/-- The `HWND` is `0`, or the handle of a window. -/
def There (t : HandleTable) (hwnd : ℕ) : Prop :=
  hwnd = 0 ∨ ∃ i : Fin handleTableSize, hwnd = i.val ∧ (windows t i).isSome

theorem Focused.of_windows (h : Focused s) {s' : WinState}
    (hactive : s'.activeWindow = s.activeWindow) (hfocus : s'.focusWindow = s.focusWindow)
    (hwindows : ∀ i : Fin handleTableSize, (windows s.handles i).isSome →
      ¬ Unfocused s i.val → (windows s'.handles i).isSome) :
  Focused s'
  := by
  constructor
  · rw [hactive]
    apply h.active.imp_right
    rintro ⟨i, hi, hsome⟩
    exact ⟨i, hi, hwindows i hsome fun hun => hun.1 hi⟩
  · rw [hfocus]
    apply h.focus.imp_right
    rintro ⟨i, hi, hsome⟩
    exact ⟨i, hi, hwindows i hsome fun hun => hun.2 hi⟩

theorem windows_rbWindowDestroy_ite (htidy : Tidy s.handles) (rbWin : ℕ) :
  windows (if rbWin ≠ 0 then rbWindowDestroy s.handles rbWin else s.handles) = windows s.handles ∧
    Tidy (if rbWin ≠ 0 then rbWindowDestroy s.handles rbWin else s.handles)
  := by
  split_ifs
  · apply windows_rbWindowDestroy htidy
  · exact ⟨rfl, htidy⟩

variable {entry : Ptr}

theorem cleanupFailedCreate_fresh (h : Sound s) (hfresh : Fresh s entry) (rbWin : ℕ) :
  Sound (cleanupFailedCreate entry rbWin 0 false s) ∧
    (Focused s → Focused (cleanupFailedCreate entry rbWin 0 false s))
  := by
  obtain ⟨hwindows, htidy⟩ := windows_rbWindowDestroy_ite h.tidy rbWin
  have heq : cleanupFailedCreate entry rbWin 0 false s = { s with
      handles := if rbWin ≠ 0 then rbWindowDestroy s.handles rbWin else s.handles
      freed := s.freed ++ [entry] } := by
    simp [cleanupFailedCreate, WinState.heapFree, hfresh.pos.ne']
  rw [heq]
  constructor
  · refine h.free hfresh.le hfresh.not_freed ?_ htidy ?_ rfl rfl rfl ?_ rfl rfl
    · intro f hf hentry
      exact absurd hentry (hfresh.not_frame f hf)
    · intro j e
      rw [hwindows]
      constructor
      · intro hj
        use hj
        rintro rfl
        exact hfresh.not_window j hj
      · exact And.left
    · rw [hwindows]
      exact h.live
  · intro hfocused
    refine hfocused.of_windows rfl rfl ?_
    intro i hi _
    rw [hwindows]
    exact hi

theorem toHandle_val (i : Fin handleTableSize) :
  toHandle i.val = i.val
  := Nat.mod_eq_of_lt (i.isLt.trans (by decide))

theorem cleanupFailedCreate_window (h : Sound s) {i : Fin handleTableSize}
    (hi : windows s.handles i = some entry)
    (hframe : ∀ f ∈ s.stack, f.entry = entry → f.destroys = none) (rbWin : ℕ) :
  Sound (cleanupFailedCreate entry rbWin i.val true s) ∧
    (Focused s → Unfocused s i.val → Focused (cleanupFailedCreate entry rbWin i.val true s))
  := by
  obtain ⟨hwindows, htidy⟩ := windows_rbWindowDestroy_ite h.tidy rbWin
  obtain ⟨hwindows', htidy'⟩ := windows_free htidy (hwindows ▸ hi)
  rw [hwindows] at hwindows'
  have hpos := (h.entry i entry hi).1
  have h3 := (h.tidy i entry hi).1
  have heq : cleanupFailedCreate entry rbWin i.val true s = { s with
      handles := wineHandleFree
        (if rbWin ≠ 0 then rbWindowDestroy s.handles rbWin else s.handles) i.val
      liveWindows := if 0 < s.liveWindows then s.liveWindows - 1 else s.liveWindows
      freed := s.freed ++ [entry] } := by
    simp only [cleanupFailedCreate, WinState.heapFree, toHandle_val, true_and]
    rw [if_pos hpos.ne', if_pos (by omega)]
  rw [heq]
  constructor
  · apply h.remove hi hframe htidy' hwindows'
    all_goals rfl
  · intro hfocused hun
    refine hfocused.of_windows rfl rfl ?_
    intro j hj hjun
    rw [hwindows', update_of_ne]
    · exact hj
    · rintro rfl
      exact hjun hun

theorem setForegroundFocus_sound (h : Sound s) (i : Fin handleTableSize) :
  Sound (setForegroundFocus i.val s) ∧ Focused (setForegroundFocus i.val s)
  := by
  rw [h.setForegroundFocus_eq]
  constructor
  · refine h.of_same h.tidy rfl (le_refl s.allocated) rfl rfl rfl rfl ?_
    intro entry _ hprog
    exact hprog
  · have hwindow : There s.handles (if getWindowEntry s.handles i.val ≠ 0 then i.val else 0) := by
      split_ifs with hne
      · obtain ⟨j, hj, hsome⟩ := windows_of_getWindowEntry hne
        rw [toHandle_val] at hj
        right
        use j, hj
        rw [hsome]
        rfl
      · exact Or.inl rfl
    exact ⟨hwindow, hwindow⟩

theorem afterCreate_sound (h : Sound s) {entry : Ptr} {i : Fin handleTableSize} {rbWin : ℕ}
    {result : ℤ} (hi : result = -1 → windows s.handles i = some entry)
    (hframe : ∀ f ∈ s.stack, f.entry ≠ entry) :
  Sound (afterCreate entry i.val rbWin result s) ∧
    (Focused s → (result = -1 → Unfocused s i.val) →
      Focused (afterCreate entry i.val rbWin result s))
  := by
  rw [afterCreate]
  split_ifs with hresult
  · obtain ⟨hsound, hfocused⟩ := cleanupFailedCreate_window h (hi hresult)
      (fun f hf hentry => absurd hentry (hframe f hf)) rbWin
    use hsound
    intro hf hun
    apply hfocused hf (hun hresult)
  · obtain ⟨hsound, hfocused⟩ := setForegroundFocus_sound h i
    exact ⟨hsound, fun _ _ => hfocused⟩

theorem afterNcCreate_sound (h : Sound s) {entry : Ptr} {i : Fin handleTableSize} {rbWin : ℕ}
    {result : ℤ} (hi : windows s.handles i = some entry) (hframe : ∀ f ∈ s.stack, f.entry ≠ entry) :
  Sound (afterNcCreate entry i.val rbWin result s) ∧
    (Focused s → (result = 0 → Unfocused s i.val) →
      Focused (afterNcCreate entry i.val rbWin result s))
  := by
  obtain ⟨hpos, hle, hnot⟩ := h.entry i entry hi
  rw [afterNcCreate]
  split_ifs with hresult
  · obtain ⟨hsound, hfocused⟩ := cleanupFailedCreate_window h hi
      (fun f hf hentry => absurd hentry (hframe f hf)) rbWin
    use hsound
    intro hf hun
    apply hfocused hf (hun hresult)
  · rw [use_eq hnot]
    simp only
    split_ifs with hproc
    · constructor
      · apply h.push
        · refine ⟨hpos, hle, ?_⟩
          rintro handle ⟨⟩
          exact i.isLt
        · rintro hwnd ⟨⟩
        · intro f hf hentry
          exact absurd hentry.symm (hframe f hf)
      · intro hf _
        exact ⟨hf.active, hf.focus⟩
    · obtain ⟨hsound, hfocused⟩ := @afterCreate_sound s h entry i rbWin 0 (fun _ => hi) hframe
      use hsound
      intro hf _
      apply hfocused hf
      intro hzero
      cases hzero

theorem Fresh.of_same {entry : Ptr} (h : Fresh s entry) {s' : WinState}
    (hwindows : windows s'.handles = windows s.handles) (hallocated : s'.allocated = s.allocated)
    (hfreed : s'.freed = s.freed) (hstack : s'.stack = s.stack) :
  Fresh s' entry
  := by
  constructor
  · exact h.pos
  · rw [hallocated]
    exact h.le
  · rw [hfreed]
    exact h.not_freed
  · rw [hwindows]
    exact h.not_window
  · rw [hstack]
    exact h.not_frame

theorem registerWindow_sound (h : Sound s) (hfresh : Fresh s entry) (rbWin : ℕ) (attached : Bool) :
  Sound (registerWindow entry rbWin attached s) ∧
    (Focused s → Focused (registerWindow entry rbWin attached s))
  := by
  rw [registerWindow]
  simp only
  by_cases hhandle : (wineHandleAlloc s.handles handleTypeHwin entry).1 = 0
  · have hsame : wineHandleAlloc s.handles handleTypeHwin entry = (0, s.handles) := by
      rcases wineHandleAlloc_cases s.handles handleTypeHwin entry with ⟨i, h3, -, halloc⟩ | ⟨-, halloc⟩
      · rw [halloc] at hhandle
        omega
      · exact halloc
    rw [hsame, if_pos rfl]
    apply cleanupFailedCreate_fresh h hfresh
  · obtain ⟨i, hval, hnone, hwindows, htidy⟩ := windows_alloc h.tidy entry hhandle
    rw [if_neg hhandle, hval]
    generalize (wineHandleAlloc s.handles handleTypeHwin entry).2 = t at hwindows htidy ⊢
    have h' := h.insert hfresh hnone htidy hwindows
    generalize hs' : { s with handles := t, liveWindows := s.liveWindows + 1 } = s' at h' ⊢
    have hi : windows s'.handles i = some entry := by
      rw [← hs']
      simp [hwindows]
    have hframe : ∀ f ∈ s'.stack, f.entry ≠ entry := by
      rw [← hs']
      exact hfresh.not_frame
    have hfocused' (hf : Focused s) : Focused s' := by
      apply hf.of_windows
      · rw [← hs']
      · rw [← hs']
      · intro j hj _
        rw [← hs']
        simp only [hwindows]
        by_cases hji : j = i
        · rw [hji, update_self]
          rfl
        · rw [update_of_ne hji]
          exact hj
    by_cases hattached : (!attached) = true
    · rw [if_pos hattached]
      obtain ⟨hsound, hfocused⟩ := cleanupFailedCreate_window h' hi
        (fun f hf hentry => absurd hentry (hframe f hf)) rbWin
      use hsound
      intro hf
      apply hfocused (hfocused' hf)
      -- The slot of the new window held none before, so it does not have the focus.
      have hother {w : ℕ} (hw : There s.handles w) : w ≠ i.val := by
        rcases hw with rfl | ⟨j, rfl, hsome⟩
        · omega
        · intro hji
          rw [Fin.ext hji, hnone] at hsome
          cases hsome
      rw [← hs']
      exact ⟨hother hf.active, hother hf.focus⟩
    · rw [if_neg hattached, use_eq (h'.entry i entry hi).2.2]
      split_ifs with hproc
      · constructor
        · apply h'.push
          · obtain ⟨hpos, hle, -⟩ := h'.entry i entry hi
            refine ⟨hpos, hle, ?_⟩
            rintro handle ⟨⟩
            exact i.isLt
          · rintro hwnd ⟨⟩
          · intro f hf hentry
            exact absurd hentry.symm (hframe f hf)
        · intro hf
          exact ⟨(hfocused' hf).active, (hfocused' hf).focus⟩
      · obtain ⟨hsound, hfocused⟩ := @afterNcCreate_sound s' h' entry i rbWin 1 hi hframe
        use hsound
        intro hf
        apply hfocused (hfocused' hf)
        intro hone
        cases hone

theorem finishWindowCreate_sound (h : Sound s) (hfresh : Fresh s entry) (win : Ptr)
    (attached : Bool) :
  Sound (finishWindowCreate entry win attached s) ∧
    (Focused s → Focused (finishWindowCreate entry win attached s))
  := by
  obtain ⟨hwindows, htidy⟩ := windows_rbWindowCreate h.tidy win
  rw [finishWindowCreate]
  generalize rbWindowCreate s.handles win = r at hwindows htidy ⊢
  obtain ⟨rbWin, t⟩ := r
  -- The window of the backend, and its handle in the entry, do not concern the windows of the guest.
  have hsame {s' : WinState} (hhandles : s'.handles = t) (hallocated : s'.allocated = s.allocated)
      (hfreed : s'.freed = s.freed) (hused : s'.usedFreed = s.usedFreed)
      (hlive : s'.liveWindows = s.liveWindows) (hstack : s'.stack = s.stack)
      (hactive : s'.activeWindow = s.activeWindow) (hfocus : s'.focusWindow = s.focusWindow)
      (hprogress : ∀ e, (s'.entries e).destroyInProgress = (s.entries e).destroyInProgress) :
      Sound s' ∧ Fresh s' entry ∧ (Focused s → Focused s') := by
    have hwindows' : windows s'.handles = windows s.handles := by
      rw [hhandles]
      exact hwindows
    refine ⟨?_, hfresh.of_same hwindows' hallocated hfreed hstack, ?_⟩
    · apply h.of_same (hhandles ▸ htidy) hwindows' hallocated.ge hfreed hused hlive hstack
      intro e _ hprog
      rw [hprogress]
      exact hprog
    · intro hf
      apply hf.of_windows hactive hfocus
      intro i hi _
      rw [hwindows']
      exact hi
  split_ifs with hrb
  · obtain ⟨h', hfresh', hfocused'⟩ :=
      @hsame { s with handles := t } rfl rfl rfl rfl rfl rfl rfl rfl fun _ => rfl
    obtain ⟨hsound, hfocused⟩ := cleanupFailedCreate_fresh h' hfresh' 0
    exact ⟨hsound, fun hf => hfocused (hfocused' hf)⟩
  · have huse : WinState.use entry { s with handles := t } = { s with handles := t } :=
      use_eq hfresh.not_freed
    rw [huse]
    obtain ⟨h', hfresh', hfocused'⟩ := @hsame { s with
        handles := t
        entries := update s.entries entry { s.entries entry with sdlWindow := rbWin } }
      rfl rfl rfl rfl rfl rfl rfl rfl (by
        intro e
        by_cases he : e = entry
        · simp [he]
        · simp only [update_of_ne he])
    obtain ⟨hsound, hfocused⟩ := registerWindow_sound h' hfresh' rbWin attached
    exact ⟨hsound, fun hf => hfocused (hfocused' hf)⟩

theorem createWindowExA_sound (h : Sound s) (args : CreateArgs) :
  Sound (createWindowExA args s) ∧ (Focused s → Focused (createWindowExA args s))
  := by
  rw [createWindowExA]
  cases args.wndProc with
  | none =>
    rw [ite_self]
    exact ⟨h, id⟩
  | some wndProc =>
    simp only
    split_ifs
    · exact ⟨h, id⟩
    · exact ⟨h, id⟩
    · generalize hs' : WinState.mk _ _ _ _ _ _ _ _ _ = s'
      have hwindows : windows s'.handles = windows s.handles := by rw [← hs']
      have h' : Sound s' := by
        rw [← hs']
        refine h.of_same h.tidy rfl (Nat.le_succ s.allocated) rfl rfl rfl rfl ?_
        intro entry hle hprog
        simp only
        rw [update_of_ne (Nat.lt_succ_of_le hle).ne]
        exact hprog
      have hfresh : Fresh s' (s.allocated + 1) := by
        constructor
        · exact Nat.succ_pos s.allocated
        · rw [← hs']
        · rw [← hs']
          intro hmem
          exact Nat.not_succ_le_self s.allocated (h.freed_le _ hmem)
        · rw [hwindows]
          intro i hi
          exact Nat.not_succ_le_self s.allocated (h.entry i _ hi).2.1
        · rw [← hs']
          intro f hf hentry
          have hle := (h.frame f hf).2.1
          rw [hentry] at hle
          exact Nat.not_succ_le_self s.allocated hle
      obtain ⟨hsound, hfocused⟩ := finishWindowCreate_sound h' hfresh args.win args.attached
      use hsound
      intro hf
      apply hfocused
      apply hf.of_windows
      · rw [← hs']
      · rw [← hs']
      · intro i hi _
        rw [hwindows]
        exact hi

/-! ### Destruction -/

theorem findReplacementWindow_window (t : HandleTable) (exclude : ℕ) :
  There t (findReplacementWindow t exclude)
  := by
  rw [findReplacementWindow]
  split
  · rename_i i hfound
    right
    use i, rfl
    obtain ⟨hp, -⟩ := Table.firstSlot_eq_some_iff.mp hfound
    obtain ⟨-, -, htype, hobject⟩ := of_decide_eq_true hp
    have hlive : (t i).refCount ≠ 0 := by
      intro hdead
      exact hobject (get_of_dead hdead).1
    rw [(get_of_live hlive).2] at htype
    rw [windows, if_pos ⟨hlive, htype⟩]
    rfl
  · exact Or.inl rfl

/-- The destruction compares all bits of the `HWND` with the window that has the focus, although the
handle is only its low part. -/
def Named (s : WinState) (hwnd : ℕ) : Prop := hwnd < 2 ^ 32 ∨ Unfocused s (toHandle hwnd)

theorem afterNcDestroy_sound (h : Sound s) {hwnd : ℕ} (hne : getWindowEntry s.handles hwnd ≠ 0)
    (hframe : ∀ f ∈ s.stack, f.entry = getWindowEntry s.handles hwnd → f.destroys = none) :
  Sound (afterNcDestroy hwnd (getWindowEntry s.handles hwnd) s) ∧
    (Focused s → Named s hwnd → Focused (afterNcDestroy hwnd (getWindowEntry s.handles hwnd) s))
  := by
  obtain ⟨i, hval, hi⟩ := windows_of_getWindowEntry hne
  generalize getWindowEntry s.handles hwnd = entry at hi hframe hne ⊢
  obtain ⟨hwindows, htidy⟩ := windows_rbWindowDestroy h.tidy (s.entries entry).sdlWindow
  obtain ⟨hwindows', htidy'⟩ := windows_free htidy (hwindows ▸ hi)
  rw [hwindows] at hwindows'
  rw [afterNcDestroy, use_eq (h.entry i entry hi).2.2, hval]
  generalize wineHandleFree (rbWindowDestroy s.handles (s.entries entry).sdlWindow) i.val = t
    at hwindows' htidy' ⊢
  constructor
  · apply h.remove hi hframe htidy' hwindows'
    all_goals rfl
  · intro hf hnamed
    have hother {w : ℕ} (hun : hwnd < 2 ^ 32 ∨ w ≠ i.val) (hw : There s.handles w) :
        There t (if w = hwnd then findReplacementWindow t hwnd else w) := by
      split_ifs with hwhwnd
      · apply findReplacementWindow_window
      · apply hw.imp_right
        rintro ⟨j, rfl, hsome⟩
        use j, rfl
        rw [hwindows', update_of_ne]
        · exact hsome
        · rintro rfl
          rcases hun with hlt | hun
          · rw [toHandle, Nat.mod_eq_of_lt hlt] at hval
            exact hwhwnd hval.symm
          · exact hun rfl
    rw [Named, Unfocused, hval] at hnamed
    exact ⟨hother (hnamed.imp_right And.left) hf.active, hother (hnamed.imp_right And.right) hf.focus⟩

theorem Sound.not_destroying (h : Sound s)
    (hprogress : (s.entries entry).destroyInProgress = false) :
  ∀ f ∈ s.stack, f.entry = entry → f.destroys = none
  := by
  intro f hf hentry
  cases hdestroys : f.destroys with
  | none => rfl
  | some hwnd =>
    have hprog := (h.destroying f hf hwnd hdestroys).2
    rw [hentry, hprogress] at hprog
    cases hprog

theorem setDestroyInProgress_sound (h : Sound s) (entry : Ptr) :
  Sound (s.setDestroyInProgress entry) ∧
    ((s.setDestroyInProgress entry).entries entry).destroyInProgress = true ∧
    ((s.setDestroyInProgress entry).entries entry).wndProc = (s.entries entry).wndProc
  := by
  have hself : (s.setDestroyInProgress entry).entries entry =
      { s.entries entry with destroyInProgress := true } := by
    simp [WinState.setDestroyInProgress]
  refine ⟨?_, ?_, ?_⟩
  · refine h.of_same h.tidy rfl (le_refl s.allocated) rfl rfl rfl rfl ?_
    intro e _ hprog
    by_cases he : e = entry
    · rw [he, hself]
    · simp only [WinState.setDestroyInProgress, update_of_ne he]
      exact hprog
  · rw [hself]
  · rw [hself]

theorem destroyWindow_sound (h : Sound s) (hwnd : ℕ) :
  Sound (destroyWindow hwnd s) ∧
    (Focused s →
      (getWindowEntry s.handles hwnd ≠ 0 →
        (s.entries (getWindowEntry s.handles hwnd)).wndProc = 0 → Named s hwnd) →
      Focused (destroyWindow hwnd s))
  := by
  rw [destroyWindow]
  simp only
  by_cases hne : getWindowEntry s.handles hwnd = 0
  · rw [if_pos hne]
    exact ⟨h, fun hf _ => hf⟩
  rw [if_neg hne, use_eq (h.not_freed hne)]
  by_cases hprogress : (s.entries (getWindowEntry s.handles hwnd)).destroyInProgress = true
  · rw [if_pos hprogress]
    exact ⟨h, fun hf _ => hf⟩
  rw [if_neg hprogress]
  have hframe := h.not_destroying (Bool.not_eq_true _ ▸ hprogress)
  obtain ⟨h', hprogress', hproc'⟩ := setDestroyInProgress_sound h (getWindowEntry s.handles hwnd)
  have hentry : getWindowEntry (s.setDestroyInProgress (getWindowEntry s.handles hwnd)).handles hwnd =
    getWindowEntry s.handles hwnd := rfl
  rw [hproc']
  split_ifs with hproc
  · obtain ⟨i, -, hi⟩ := windows_of_getWindowEntry hne
    obtain ⟨hpos, hle, -⟩ := h.entry i _ hi
    constructor
    · apply h'.push
      · refine ⟨hpos, hle, ?_⟩
        rintro handle ⟨⟩
      · rintro _ ⟨⟩
        exact ⟨hentry, hprogress'⟩
      · intro f hf hsame
        exact ⟨rfl, hframe f hf hsame.symm⟩
    · intro hf _
      exact ⟨hf.active, hf.focus⟩
  · obtain ⟨hsound, hfocused⟩ := @afterNcDestroy_sound _ h' hwnd hne hframe
    use hsound
    intro hf hnamed
    apply hfocused ⟨hf.active, hf.focus⟩
    rw [not_not] at hproc
    exact hnamed hne hproc

/-! ### Steps -/

/-- The procedure returns to a call that can go on.  The window is there when the procedure returns
from `WM_NCCREATE`, or refuses it in `WM_CREATE`, and it does not have the focus if it is refused.
Where a destruction ends, its `HWND` is that of the handle, or the window does not have the focus. -/
def AllowedReturn (s : WinState) (result : ℤ) : List Frame → Prop
  | [] => True
  | .ncCreate entry handle _ :: _ =>
    getWindowEntry s.handles handle = entry ∧ (result = 0 → Unfocused s handle)
  | .create entry handle _ :: _ =>
    result = -1 → getWindowEntry s.handles handle = entry ∧ Unfocused s handle
  | .destroy hwnd entry :: _ => (s.entries entry).wndProc = 0 → Named s hwnd
  | .ncDestroy hwnd _ :: _ => Named s hwnd

def Allowed (s : WinState) : WinCall → Prop
  | .create _ => True
  | .destroy hwnd =>
    getWindowEntry s.handles hwnd ≠ 0 →
      (s.entries (getWindowEntry s.handles hwnd)).wndProc = 0 → Named s hwnd
  | .ret result => AllowedReturn s result s.stack

instance Unfocused.decidable (s : WinState) (hwnd : ℕ) : Decidable (Unfocused s hwnd) :=
  inferInstanceAs (Decidable (_ ∧ _))

instance Named.decidable (s : WinState) (hwnd : ℕ) : Decidable (Named s hwnd) :=
  inferInstanceAs (Decidable (_ ∨ _))

instance AllowedReturn.decidable (s : WinState) (result : ℤ) :
    ∀ stack : List Frame, Decidable (AllowedReturn s result stack)
  | [] => inferInstanceAs (Decidable True)
  | .ncCreate _ _ _ :: _ => inferInstanceAs (Decidable (_ ∧ _))
  | .create _ _ _ :: _ => inferInstanceAs (Decidable (_ → _))
  | .destroy _ _ :: _ => inferInstanceAs (Decidable (_ → _))
  | .ncDestroy hwnd _ :: _ => inferInstanceAs (Decidable (Named s hwnd))

instance Allowed.decidable (s : WinState) : ∀ call : WinCall, Decidable (Allowed s call)
  | .create _ => inferInstanceAs (Decidable True)
  | .destroy _ => inferInstanceAs (Decidable (_ → _))
  | .ret result => inferInstanceAs (Decidable (AllowedReturn s result s.stack))

theorem windows_of_handle {handle : ℕ} (hlt : handle < handleTableSize) (hpos : 0 < entry)
    (hentry : getWindowEntry s.handles handle = entry) :
  windows s.handles ⟨handle, hlt⟩ = some entry
  := by
  have hne : getWindowEntry s.handles handle ≠ 0 := by
    rw [hentry]
    exact hpos.ne'
  obtain ⟨i, hi, hwindow⟩ := windows_of_getWindowEntry hne
  have hval := toHandle_val ⟨handle, hlt⟩
  rw [hi] at hval
  have hii : i = ⟨handle, hlt⟩ := Fin.ext hval
  rw [← hii, hwindow, hentry]

theorem winStep_sound (h : Sound s) (hfocused : Focused s) {call : WinCall} (hallowed : Allowed s call) :
  Sound (winStep s call) ∧ Focused (winStep s call)
  := by
  cases call with
  | create args =>
    obtain ⟨hsound, hf⟩ := createWindowExA_sound h args
    exact ⟨hsound, hf hfocused⟩
  | destroy hwnd =>
    obtain ⟨hsound, hf⟩ := destroyWindow_sound h hwnd
    exact ⟨hsound, hf hfocused hallowed⟩
  | ret result =>
    rw [winStep]
    cases hstack : s.stack with
    | nil => exact ⟨h, hfocused⟩
    | cons f stack =>
      simp only
      have h' := h.pop hstack
      have hfocused' : Focused { s with stack } := ⟨hfocused.active, hfocused.focus⟩
      have hmem : f ∈ s.stack := by
        rw [hstack]
        exact List.mem_cons_self
      obtain ⟨hpos, hle, hhandle⟩ := h.frame f hmem
      have hdestroying := h.destroying f hmem
      have horder := h.order
      rw [hstack, List.pairwise_cons] at horder
      rw [Allowed, hstack] at hallowed
      have hframe (hnone : f.destroys = none) : ∀ f' ∈ stack, f'.entry ≠ f.entry := by
        intro f' hf' hsame
        have hsome := (horder.1 f' hf' hsame.symm).1
        rw [hnone] at hsome
        cases hsome
      have hafter {hwnd : ℕ} (hhwnd : hwnd ∈ f.destroys) : f.entry ∉ s.freed ∧
          Sound (afterNcDestroy hwnd f.entry { s with stack }) ∧ (Named { s with stack } hwnd →
            Focused (afterNcDestroy hwnd f.entry { s with stack })) := by
        obtain ⟨hentry, -⟩ := hdestroying hwnd hhwnd
        rw [← hentry] at hpos horder ⊢
        obtain ⟨hsound, hf⟩ := @afterNcDestroy_sound _ h' hwnd hpos.ne'
          fun f' hf' hsame => (horder.1 f' hf' hsame.symm).2
        exact ⟨h.not_freed hpos.ne', hsound, hf hfocused'⟩
      -- What is left to do depends on the call that waits.
      cases f with
      | ncCreate entry handle rbWin =>
        have hlt := hhandle handle rfl
        have hi := windows_of_handle hlt hpos hallowed.1
        obtain ⟨hsound, hf⟩ :=
          @afterNcCreate_sound _ h' entry ⟨handle, hlt⟩ rbWin result hi (hframe rfl)
        exact ⟨hsound, hf hfocused' hallowed.2⟩
      | create entry handle rbWin =>
        have hlt := hhandle handle rfl
        obtain ⟨hsound, hf⟩ :=
          @afterCreate_sound _ h' entry ⟨handle, hlt⟩ rbWin result
            (fun hresult => windows_of_handle hlt hpos (hallowed hresult).1) (hframe rfl)
        exact ⟨hsound, hf hfocused' fun hresult => (hallowed hresult).2⟩
      | destroy hwnd entry =>
        obtain ⟨hnot, hsound, hf⟩ := hafter rfl
        have huse : WinState.use entry { s with stack } = { s with stack } := use_eq hnot
        simp only [resume, huse]
        split_ifs with hproc
        · constructor
          · apply h'.push
            · exact ⟨hpos, hle, hhandle⟩
            · exact hdestroying
            · exact horder.1
          · exact ⟨hfocused.active, hfocused.focus⟩
        · rw [not_not] at hproc
          exact ⟨hsound, hf (hallowed hproc)⟩
      | ncDestroy hwnd entry =>
        obtain ⟨-, hsound, hf⟩ := hafter rfl
        exact ⟨hsound, hf hallowed⟩

end

/-! ### Runs -/

/-- What holds of the windows: each entry has been freed at most once and not used after that, the
windows are counted, and the active window and the focus are `0` or there. -/
structure WindowsOk (s : WinState) : Prop where
  freed_once : s.freed.Nodup
  not_used_freed : s.usedFreed = false
  live : s.liveWindows = (Table.occupied (fun w => w.isSome) (windows s.handles)).card
  active : s.activeWindow = 0 ∨ getWindowEntry s.handles s.activeWindow ≠ 0
  focus : s.focusWindow = 0 ∨ getWindowEntry s.handles s.focusWindow ≠ 0

theorem windowsOk_of_sound {s : WinState} (h : Sound s) (hfocused : Focused s) :
  WindowsOk s
  := by
  have hthere {w : ℕ} (hw : There s.handles w) : w = 0 ∨ getWindowEntry s.handles w ≠ 0 := by
    apply hw.imp_right
    rintro ⟨i, rfl, hsome⟩
    obtain ⟨entry, hi⟩ := Option.isSome_iff_exists.mp hsome
    rw [getWindowEntry_of_windows hi (toHandle_val i)]
    exact (h.entry i entry hi).1.ne'
  exact ⟨h.nodup, h.unused, h.live, hthere hfocused.active, hthere hfocused.focus⟩

theorem start_sound {t : HandleTable} (ht : ∀ i, windows t i = none) :
  Sound (WinState.start t) ∧ Focused (WinState.start t)
  := by
  have hwindows {i : Fin handleTableSize} {entry : Ptr} (hi : windows t i = some entry) : False := by
    rw [ht i] at hi
    cases hi
  refine ⟨?_, Or.inl rfl, Or.inl rfl⟩
  constructor
  · intro i entry hi
    cases hwindows hi
  · intro i entry hi
    cases hwindows hi
  · intro i j entry hi
    cases hwindows hi
  · exact List.nodup_nil
  · rintro entry ⟨⟩
  · rfl
  · have hempty : Table.occupied (fun w => w.isSome) (windows t) = ∅ := by
      ext i
      rw [Table.mem_occupied, ht i]
      simp
    simp [WinState.start, hempty]
  · rintro f ⟨⟩
  · rintro f ⟨⟩
  · exact List.Pairwise.nil

/-- Along every sequence of calls and returns whose steps are allowed, the windows are as they should
be in the state that is reached. -/
theorem windows_ok {t : HandleTable} (ht : ∀ i, windows t i = none) {calls : List WinCall}
    (hallowed : Run.Along winStep Allowed (WinState.start t) calls) :
  WindowsOk (calls.foldl winStep (WinState.start t))
  := by
  obtain ⟨hsound, hfocused⟩ : Sound (calls.foldl winStep (WinState.start t)) ∧
      Focused (calls.foldl winStep (WinState.start t)) := by
    apply hallowed.invariant fun s => Sound s ∧ Focused s
    · rintro s call ⟨h, hf⟩ hcall
      exact winStep_sound h hf hcall
    · exact start_sound ht
  exact windowsOk_of_sound hsound hfocused

theorem windows_wineHandleManagerRuntimeInit (i : Fin handleTableSize) :
  windows wineHandleManagerRuntimeInit i = none
  := by
  rw [windows, if_neg]
  rintro ⟨hlive, htype⟩
  rw [wineHandleManagerRuntimeInit] at hlive htype
  split_ifs at hlive htype with hstd
  · cases htype
  · exact hlive rfl

def ordinaryArgs : CreateArgs := ⟨true, some 0x401000, true, 0x1000, true⟩

/-- A window is created and destroyed.  Another one is created and destroyed while the procedure of
the first one runs. -/
theorem windows_ok_nested :
  let calls : List WinCall := [.create ordinaryArgs, .ret 1, .create ordinaryArgs, .ret 1, .ret 0,
    .ret 0, .destroy 4, .destroy 6, .ret 0, .ret 0, .ret 0, .ret 0]
  Run.Along winStep Allowed (WinState.start wineHandleManagerRuntimeInit) calls ∧
    WindowsOk (calls.foldl winStep (WinState.start wineHandleManagerRuntimeInit))
  := by
  intro calls
  have hallowed : Run.Along winStep Allowed (WinState.start wineHandleManagerRuntimeInit) calls := by
    decide +kernel
  exact ⟨hallowed, windows_ok windows_wineHandleManagerRuntimeInit hallowed⟩

/-- The procedure destroys its window in `WM_NCCREATE`.  If it then returns `1`, the creation reads the
entry that has been freed, and if it returns `0`, the creation frees it again. -/
theorem entry_used_after_free :
  let calls : List WinCall := [.create ordinaryArgs, .destroy 4, .ret 0, .ret 0]
  let accepted := (calls ++ [WinCall.ret 1, .ret 0]).foldl winStep
    (WinState.start wineHandleManagerRuntimeInit)
  let refused := (calls ++ [WinCall.ret 0]).foldl winStep
    (WinState.start wineHandleManagerRuntimeInit)
  accepted.stack.length = 0 ∧ accepted.usedFreed = true ∧ ¬ WindowsOk accepted ∧
    refused.stack.length = 0 ∧ refused.freed = [1, 1] ∧ ¬ WindowsOk refused
  := by
  intro calls accepted refused
  have hused : accepted.usedFreed = true := by decide +kernel
  have hfreed : refused.freed = [1, 1] := by decide +kernel
  refine ⟨by decide +kernel, hused, ?_, by decide +kernel, hfreed, ?_⟩
  · intro hok
    have hnot := hok.not_used_freed
    rw [hused] at hnot
    cases hnot
  · intro hok
    have hnodup := hok.freed_once
    rw [hfreed] at hnodup
    simp at hnodup

end User32
