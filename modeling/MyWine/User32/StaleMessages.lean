import MyWine.User32.MessageConservation
import MyWine.User32.WindowReentrancy

/-!
# Messages for windows that are gone

The messages that the guest posts are for windows, but a message only has the `HWND` of its window.  A
message is discarded when its `HWND` names no window, so it is not returned after its window has been
destroyed, unless a later window has the same `HWND` (`returned_after_destroy`).  A `WM_QUIT` is never
discarded.
-/

namespace User32

open HandleManager Function List

/-! ### Windows and messages -/

/-- The windows and the messages of a process.  The state records the entry of the window that each
posted message is for, by the serial number of the message. -/
structure Desktop where
  win : WinState
  msg : MsgState
  target : ℕ → Ptr

def Desktop.messages (s : Desktop) : MsgState :=
  { s.msg with alive := fun hwnd => getWindowEntry s.win.handles hwnd ≠ 0 }

/-- A call about windows, with the returns from window procedures, or one about messages. -/
inductive DesktopCall where
  | window (call : WinCall)
  | message (call : MsgCall)

def targets (s : Desktop) : MsgCall → ℕ → Ptr
  | .post hwnd _ _ _ =>
    update s.target s.msg.arrived.length (getWindowEntry s.win.handles hwnd)
  | _ => s.target

def desktopStep (b : Build) (s : Desktop) : DesktopCall → Desktop
  | .window call => { s with win := winStep s.win call }
  | .message call => { s with msg := msgStep b s.messages call, target := targets s call }

def Desktop.start (t : HandleTable) : Desktop := ⟨.start t, .start fun _ => false, fun _ => 0⟩

def Returned (s : MsgState) (call : MsgCall) (a : Arrival) : Prop :=
  ∃ remove f incoming, call.fetch s = some (remove, f, incoming) ∧
    (fetchQueuedMessage remove f incoming s).1 = some a

def Destroyed (s : WinState) (entry : Ptr) : Prop := ∀ i, windows s.handles i ≠ some entry

instance Destroyed.decidable (s : WinState) (entry : Ptr) : Decidable (Destroyed s entry) :=
  inferInstanceAs (Decidable (∀ _, _))

/-! ### What happens to the windows -/

/-- Every window of the second state is one of the first or a new one. -/
structure Extends (s s' : WinState) : Prop where
  allocated : s.allocated ≤ s'.allocated
  windows : ∀ i entry, windows s'.handles i = some entry →
    windows s.handles i = some entry ∨ (s.allocated < entry ∧ entry ≤ s'.allocated)

def Shrinks (t t' : HandleTable) : Prop :=
  ∀ i entry, windows t' i = some entry → windows t i = some entry

theorem Shrinks.refl (t : HandleTable) :
  Shrinks t t
  := by
  intro i entry hi
  exact hi

theorem Shrinks.trans {t t' t'' : HandleTable} (h : Shrinks t t') (h' : Shrinks t' t'') :
  Shrinks t t''
  := by
  intro i entry hi
  apply h i entry (h' i entry hi)

theorem shrinks_wineHandleFree (t : HandleTable) (handle : ℕ) :
  Shrinks t (wineHandleFree t handle)
  := by
  rcases wineHandleFree_cases t handle with ⟨j, -, -, hlive, hfree⟩ | hfree
  · intro i entry hi
    rw [hfree] at hi
    simp only [windows] at hi ⊢
    rcases eq_or_ne i j with rfl | hij
    · rw [update_self] at hi
      split_ifs at hi with hwindow
      obtain ⟨htype, hobject⟩ := (WineHandle.free_of_live hlive).2 hwindow.1
      rw [if_pos ⟨hlive, htype ▸ hwindow.2⟩, ← hobject]
      exact hi
    · rwa [update_of_ne hij] at hi
  · rw [hfree]
    apply Shrinks.refl

theorem shrinks_rbWindowDestroy (t : HandleTable) (win : ℕ) :
  Shrinks t (rbWindowDestroy t win)
  := by
  rw [rbWindowDestroy]
  split_ifs
  · apply shrinks_wineHandleFree
  · apply Shrinks.refl

theorem windows_wineHandleAlloc {t : HandleTable} {type : UInt8} {object entry : Ptr}
    {i : Fin handleTableSize} (h : windows (wineHandleAlloc t type object).2 i = some entry) :
  windows t i = some entry ∨ (type = handleTypeHwin ∧ entry = object)
  := by
  rcases wineHandleAlloc_cases t type object with ⟨j, -, -, halloc⟩ | ⟨-, halloc⟩
  · rw [halloc] at h
    simp only [windows] at h ⊢
    by_cases hij : i = j
    · subst hij
      rw [update_self] at h
      split_ifs at h with hlive
      cases h
      exact Or.inr ⟨hlive.2, rfl⟩
    · rw [update_of_ne hij] at h
      exact Or.inl h
  · rw [halloc] at h
    exact Or.inl h

theorem shrinks_rbWindowCreate (t : HandleTable) (win : Ptr) :
  Shrinks t (rbWindowCreate t win).2
  := by
  rw [rbWindowCreate]
  split_ifs
  · apply Shrinks.refl
  · intro i entry hi
    rcases windows_wineHandleAlloc hi with hi | ⟨htype, -⟩
    · exact hi
    · cases htype

section

variable {s : WinState}

/-- The state has not got windows or entries. -/
structure Keeps (s s' : WinState) : Prop where
  allocated : s'.allocated = s.allocated
  handles : Shrinks s.handles s'.handles

theorem Keeps.trans {s' s'' : WinState} (h : Keeps s s') (h' : Keeps s' s'') :
  Keeps s s''
  := ⟨h'.allocated.trans h.allocated, h.handles.trans h'.handles⟩

theorem keeps_setForegroundFocus (target : ℕ) (s : WinState) :
  Keeps s (setForegroundFocus target s)
  := by
  simp only [setForegroundFocus, sendFocusTransition, WinState.use]
  constructor
  · split_ifs <;> rfl
  · split_ifs <;> apply Shrinks.refl

theorem keeps_cleanupFailedCreate (entry : Ptr) (rbWin handle : ℕ) (decrement : Bool) (s : WinState) :
  Keeps s (cleanupFailedCreate entry rbWin handle decrement s)
  := by
  simp only [cleanupFailedCreate, WinState.heapFree]
  have hrb : Shrinks s.handles (if rbWin ≠ 0 then rbWindowDestroy s.handles rbWin else s.handles) := by
    split_ifs
    · apply shrinks_rbWindowDestroy
    · apply Shrinks.refl
  generalize (if rbWin ≠ 0 then rbWindowDestroy s.handles rbWin else s.handles) = t at hrb ⊢
  have hfree : Shrinks s.handles (if handle ≠ 0 then wineHandleFree t (toHandle handle) else t) := by
    apply hrb.trans
    split_ifs
    · apply shrinks_wineHandleFree
    · apply Shrinks.refl
  split_ifs at hfree ⊢ <;> exact ⟨rfl, hfree⟩

theorem keeps_afterCreate (entry : Ptr) (handle rbWin : ℕ) (result : ℤ) (s : WinState) :
  Keeps s (afterCreate entry handle rbWin result s)
  := by
  rw [afterCreate]
  split_ifs
  · apply keeps_cleanupFailedCreate
  · apply keeps_setForegroundFocus

theorem keeps_use (entry : Ptr) (s : WinState) :
  Keeps s (s.use entry)
  := ⟨rfl, Shrinks.refl s.handles⟩

theorem keeps_afterNcCreate (entry : Ptr) (handle rbWin : ℕ) (result : ℤ) (s : WinState) :
  Keeps s (afterNcCreate entry handle rbWin result s)
  := by
  rw [afterNcCreate]
  split_ifs
  · apply keeps_cleanupFailedCreate
  · simp only
    split_ifs
    · exact ⟨rfl, Shrinks.refl s.handles⟩
    · apply (keeps_use entry s).trans
      apply keeps_afterCreate

theorem keeps_afterNcDestroy (hwnd : ℕ) (entry : Ptr) (s : WinState) :
  Keeps s (afterNcDestroy hwnd entry s)
  := by
  use rfl
  apply Shrinks.trans (shrinks_rbWindowDestroy s.handles (s.entries entry).sdlWindow)
  apply shrinks_wineHandleFree

theorem keeps_destroyWindow (hwnd : ℕ) (s : WinState) :
  Keeps s (destroyWindow hwnd s)
  := by
  rw [destroyWindow]
  simp only
  split_ifs
  · exact ⟨rfl, Shrinks.refl s.handles⟩
  · exact ⟨rfl, Shrinks.refl s.handles⟩
  · exact ⟨rfl, Shrinks.refl s.handles⟩
  · obtain ⟨hallocated, hhandles⟩ := keeps_afterNcDestroy hwnd (getWindowEntry s.handles hwnd)
      ((s.use (getWindowEntry s.handles hwnd)).setDestroyInProgress (getWindowEntry s.handles hwnd))
    exact ⟨hallocated, hhandles⟩

theorem keeps_resume (result : ℤ) (s : WinState) (f : Frame) :
  Keeps s (resume result s f)
  := by
  cases f with
  | ncCreate entry handle rbWin => apply keeps_afterNcCreate
  | create entry handle rbWin => apply keeps_afterCreate
  | destroy hwnd entry =>
    simp only [resume]
    split_ifs
    · exact ⟨rfl, Shrinks.refl s.handles⟩
    · apply (keeps_use entry s).trans
      apply keeps_afterNcDestroy
  | ncDestroy hwnd entry => apply keeps_afterNcDestroy

theorem registerWindow_adds (entry : Ptr) (rbWin : ℕ) (attached : Bool) (s : WinState) :
  (registerWindow entry rbWin attached s).allocated = s.allocated ∧
    ∀ i e, windows (registerWindow entry rbWin attached s).handles i = some e →
      windows s.handles i = some e ∨ e = entry
  := by
  have hafter {s₁ s' : WinState} (hallocated : s₁.allocated = s.allocated)
      (hhandles : s₁.handles = (wineHandleAlloc s.handles handleTypeHwin entry).2)
      (hkeeps : Keeps s₁ s') : s'.allocated = s.allocated ∧
      ∀ i e, windows s'.handles i = some e → windows s.handles i = some e ∨ e = entry := by
    use hkeeps.allocated.trans hallocated
    intro i e hi
    have hi₁ := hkeeps.handles i e hi
    rw [hhandles] at hi₁
    apply (windows_wineHandleAlloc hi₁).imp_right And.right
  rw [registerWindow]
  simp only
  split_ifs
  · apply hafter _ _ (keeps_cleanupFailedCreate _ _ _ _ _) <;> rfl
  · apply hafter _ _ (keeps_cleanupFailedCreate _ _ _ _ _) <;> rfl
  · apply hafter _ _ (keeps_use entry _) <;> rfl
  · apply hafter _ _ ((keeps_use entry _).trans (keeps_afterNcCreate _ _ _ _ _)) <;> rfl

theorem finishWindowCreate_adds (entry win : Ptr) (attached : Bool) (s : WinState) :
  (finishWindowCreate entry win attached s).allocated = s.allocated ∧
    ∀ i e, windows (finishWindowCreate entry win attached s).handles i = some e →
      windows s.handles i = some e ∨ e = entry
  := by
  have hrb := shrinks_rbWindowCreate s.handles win
  rw [finishWindowCreate]
  simp only
  split_ifs
  · obtain ⟨hallocated, hhandles⟩ := keeps_cleanupFailedCreate entry 0 0 false
      { s with handles := (rbWindowCreate s.handles win).2 }
    use hallocated
    intro i e hi
    exact Or.inl (hrb i e (hhandles i e hi))
  · generalize hs' : WinState.mk (WinState.handles _) (update _ _ _) _ _ _ _ _ _ _ = s'
    obtain ⟨hallocated, hadds⟩ := registerWindow_adds entry (rbWindowCreate s.handles win).1 attached s'
    constructor
    · rw [hallocated, ← hs']
      rfl
    · intro i e hi
      apply (hadds i e hi).imp_left
      intro hi'
      rw [← hs'] at hi'
      exact hrb i e hi'

theorem winStep_extends (s : WinState) (call : WinCall) :
  Extends s (winStep s call)
  := by
  have hkeeps {s' : WinState} (h : Keeps s s') : Extends s s' :=
    ⟨h.allocated.ge, fun i entry hi => Or.inl (h.handles i entry hi)⟩
  have hsame : Extends s s := hkeeps ⟨rfl, Shrinks.refl s.handles⟩
  cases call with
  | create args =>
    rw [winStep, createWindowExA]
    cases args.wndProc with
    | none =>
      rw [ite_self]
      exact hsame
    | some wndProc =>
      simp only
      split_ifs
      · exact hsame
      · exact hsame
      · generalize hs' : WinState.mk _ (update _ _ _) _ _ _ _ _ _ _ = s'
        have hallocated' : s'.allocated = s.allocated + 1 := by rw [← hs']
        obtain ⟨hallocated, hadds⟩ :=
          finishWindowCreate_adds (s.allocated + 1) args.win args.attached s'
        constructor
        · rw [hallocated, hallocated']
          exact Nat.le_succ s.allocated
        · intro i entry hi
          rw [hallocated, hallocated']
          rcases hadds i entry hi with hi | rfl
          · rw [← hs'] at hi
            exact Or.inl hi
          · exact Or.inr ⟨Nat.lt_succ_self s.allocated, le_refl (s.allocated + 1)⟩
  | destroy hwnd => exact hkeeps (keeps_destroyWindow hwnd s)
  | ret result =>
    rw [winStep]
    cases s.stack with
    | nil => exact hsame
    | cons f stack =>
      obtain ⟨hallocated, hhandles⟩ := keeps_resume result { s with stack } f
      exact hkeeps ⟨hallocated, hhandles⟩

end

/-! ### What happens to the messages -/

section

variable {s : MsgState} {remove : Bool} {f : MsgFilter}

theorem fetchLoop_posted (incoming : List RbMsg) (s : MsgState) :
  (fetchLoop remove f incoming s).2.queue .posted = s.queue .posted ∧
    ∀ a ∈ (fetchLoop remove f incoming s).1, a.source = .backend
  := by
  have hset (s : MsgState) (q : RingBuffer Arrival queueCapacity) :
      (s.setQueue .backend q).queue .posted = s.queue .posted := by
    simp [MsgState.setQueue]
  induction incoming generalizing s with
  | nil => exact ⟨rfl, by rintro a ⟨⟩⟩
  | cons msg incoming ih =>
    rw [fetchLoop]
    split_ifs
    · exact ⟨rfl, by rintro a ⟨⟩⟩
    · obtain ⟨hqueue, hsource⟩ := ih { s with
        arrived := s.arrived ++ [s.arrival .backend msg]
        discarded := s.discarded ++ [s.arrival .backend msg] }
      exact ⟨hqueue, hsource⟩
    · refine ⟨rfl, ?_⟩
      rintro a ⟨⟩
      rfl
    · split
      · exact ⟨rfl, by rintro a ⟨⟩⟩
      · refine ⟨hset _ _, ?_⟩
        rintro a ⟨⟩
        rfl
    · split
      · exact ⟨rfl, by rintro a ⟨⟩⟩
      · rename_i q _
        obtain ⟨hqueue, hsource⟩ := ih (MsgState.setQueue .backend q
          { s with arrived := s.arrived ++ [s.arrival .backend msg] })
        exact ⟨hqueue.trans (hset _ q), hsource⟩

/-- A search leaves posted messages in the queue or takes them out, and a posted message that it
returns was in the queue, and its window is there. -/
theorem fetchQueuedMessage_posted (incoming : List RbMsg) (hlog : Logged s) :
  (∀ a ∈ ((fetchQueuedMessage remove f incoming s).2.queue .posted).toList,
      a ∈ (s.queue .posted).toList) ∧
    ∀ a ∈ (fetchQueuedMessage remove f incoming s).1, a.source = .posted →
      a ∈ (s.queue .posted).toList ∧ messageTargetAlive s.alive a = true
  := by
  rw [fetchQueuedMessage]
  have hposted := s.taken .posted remove f
  generalize s.take .posted remove f = r₁ at hposted ⊢
  obtain ⟨r₁, s₁⟩ := r₁
  have hsub := hposted.sublist .posted
  cases r₁ with
  | some a =>
    constructor
    · intro a' ha'
      exact hsub.mem ha'
    · rintro _ ⟨⟩ -
      have hmem := mem_of_find?_eq_some hposted.result.symm
      exact mem_filter.mp hmem
  | none =>
    simp only
    have hbackend := s₁.taken .backend remove f
    have hlog₁ := hposted.logged hlog
    generalize s₁.take .backend remove f = r₂ at hbackend ⊢
    obtain ⟨r₂, s₂⟩ := r₂
    have hqueue₂ : s₂.queue .posted = s₁.queue .posted := hbackend.other .posted (by simp)
    cases r₂ with
    | some a =>
      constructor
      · intro a' ha'
        simp only [hqueue₂] at ha'
        exact hsub.mem ha'
      · rintro _ ⟨⟩ hsource
        have hmem := mem_of_find?_eq_some hbackend.result.symm
        rw [hlog₁.source .backend a (mem_of_mem_filter hmem)] at hsource
        cases hsource
    | none =>
      obtain ⟨hqueue, hsource'⟩ := @fetchLoop_posted remove f incoming s₂
      constructor
      · intro a' ha'
        simp only [hqueue, hqueue₂] at ha'
        exact hsub.mem ha'
      · intro a ha hsource
        rw [hsource' a ha] at hsource
        cases hsource

/-- The posted messages that are queued after a call were queued before, or the call has posted
them. -/
theorem msgStep_posted (b : Build) (call : MsgCall) (hlog : Logged s) {a : Arrival}
    (ha : a ∈ ((msgStep b s call).queue .posted).toList) :
  a ∈ (s.queue .posted).toList ∨ ∃ hwnd message wParam lParam,
    call = .post hwnd message wParam lParam ∧
      a = s.arrival .posted ⟨hwnd, message, wParam, lParam, 0, 0, 0⟩
  := by
  cases hfetch : call.fetch s with
  | some search =>
    obtain ⟨remove, f, incoming⟩ := search
    rw [msgStep_of_fetch_eq_some hfetch] at ha
    exact Or.inl ((fetchQueuedMessage_posted incoming hlog).1 a ha)
  | none =>
    rcases msgStep_of_fetch_eq_none b hfetch with
      hsame | ⟨hwnd, message, wParam, lParam, q, hcall, hpush, hstep⟩
    · rw [hsame.queue] at ha
      exact Or.inl ha
    · rw [hstep] at ha
      simp only [MsgState.queue_setQueue, RingBuffer.toList_push hpush, mem_append,
        mem_singleton] at ha
      apply ha.imp_right
      intro heq
      exact ⟨hwnd, message, wParam, lParam, hcall, heq⟩

end

/-! ### Runs -/

/-- The window that a queued message is for is the one that its `HWND` names, if it names one, or an
earlier one. -/
structure Aimed (s : Desktop) : Prop where
  logged : Logged s.msg
  entry_le : ∀ i entry, windows s.win.handles i = some entry → entry ≤ s.win.allocated
  target_le : ∀ a ∈ (s.msg.queue .posted).toList, s.target a.serial ≤ s.win.allocated
  target : ∀ a ∈ (s.msg.queue .posted).toList, ∀ i entry, toHandle a.msg.hwnd = i.val →
    windows s.win.handles i = some entry → s.target a.serial = entry ∨ s.target a.serial < entry

section

variable {s : Desktop}

theorem Aimed.messages_logged (h : Aimed s) :
  Logged s.messages
  := ⟨h.logged.serial, h.logged.perm, h.logged.source, h.logged.order⟩

theorem Aimed.window (h : Aimed s) (call : WinCall) :
  Aimed { s with win := winStep s.win call }
  := by
  have hext := winStep_extends s.win call
  constructor
  · exact h.logged
  · intro i entry hi
    rcases hext.windows i entry hi with hi | ⟨-, hle⟩
    · exact (h.entry_le i entry hi).trans hext.allocated
    · exact hle
  · intro a ha
    exact (h.target_le a ha).trans hext.allocated
  · intro a ha i entry hslot hi
    rcases hext.windows i entry hi with hi | ⟨hlt, -⟩
    · apply h.target a ha i entry hslot hi
    · exact Or.inr ((h.target_le a ha).trans_lt hlt)

theorem Aimed.getWindowEntry_le (h : Aimed s) (hwnd : ℕ) :
  getWindowEntry s.win.handles hwnd ≤ s.win.allocated
  := by
  by_cases hne : getWindowEntry s.win.handles hwnd = 0
  · rw [hne]
    exact Nat.zero_le s.win.allocated
  · obtain ⟨i, -, hi⟩ := windows_of_getWindowEntry hne
    apply h.entry_le i _ hi

theorem Aimed.targets_eq (h : Aimed s) (call : MsgCall) {a : Arrival}
    (ha : a ∈ (s.msg.queue .posted).toList) :
  targets s call a.serial = s.target a.serial
  := by
  cases call with
  | post hwnd message wParam lParam =>
    rw [targets, update_of_ne]
    exact (h.logged.serial_lt ha).ne
  | postQuit exitCode => rfl
  | get lpMsg f incoming => rfl
  | peek lpMsg f wRemoveMsg incoming => rfl
  | windows alive => rfl

theorem Aimed.message (h : Aimed s) (b : Build) (call : MsgCall) :
  Aimed { s with msg := msgStep b s.messages call, target := targets s call }
  := by
  constructor
  · apply msgStep_logged b call h.messages_logged
  · exact h.entry_le
  · intro a ha
    rcases msgStep_posted b call h.messages_logged ha with ha | ⟨hwnd, _, _, _, rfl, rfl⟩
    · simp only
      rw [h.targets_eq call ha]
      exact h.target_le a ha
    · simp only [targets, MsgState.arrival, Desktop.messages, update_self]
      apply h.getWindowEntry_le
  · intro a ha i entry hslot hi
    rcases msgStep_posted b call h.messages_logged ha with ha | ⟨hwnd, _, _, _, rfl, rfl⟩
    · simp only
      rw [h.targets_eq call ha]
      exact h.target a ha i entry hslot hi
    · left
      simp only [targets, MsgState.arrival, Desktop.messages, update_self]
      apply getWindowEntry_of_windows hi hslot

theorem desktopStep_aimed (h : Aimed s) (b : Build) (call : DesktopCall) :
  Aimed (desktopStep b s call)
  := by
  cases call with
  | window call => exact h.window call
  | message call => exact h.message b call

theorem Aimed.returned (h : Aimed s) {call : MsgCall} {a : Arrival}
    (hreturned : Returned s.messages call a) (hposted : a.source = .posted) (hhwnd : a.msg.hwnd ≠ 0)
    (hquit : a.msg.message ≠ wmQuit) :
  ∃ i, windows s.win.handles i = some (getWindowEntry s.win.handles a.msg.hwnd) ∧
    (s.target a.serial = getWindowEntry s.win.handles a.msg.hwnd ∨
      s.target a.serial < getWindowEntry s.win.handles a.msg.hwnd)
  := by
  obtain ⟨remove, f, incoming, -, hresult⟩ := hreturned
  obtain ⟨hmem, halive⟩ :=
    (fetchQueuedMessage_posted incoming h.messages_logged).2 a hresult hposted
  have hne : getWindowEntry s.win.handles a.msg.hwnd ≠ 0 := by
    simpa [messageTargetAlive, hquit, hhwnd, Desktop.messages] using halive
  obtain ⟨i, hslot, hi⟩ := windows_of_getWindowEntry hne
  exact ⟨i, hi, h.target a hmem i _ hslot hi⟩

end

theorem start_aimed {t : HandleTable} (ht : ∀ i, windows t i = none) :
  Aimed (Desktop.start t)
  := by
  refine ⟨start_logged fun _ => false, ?_, ?_, ?_⟩
  · intro i entry hi
    have hnone := ht i
    rw [Desktop.start, WinState.start] at hi
    rw [hi] at hnone
    cases hnone
  · rintro a ⟨⟩
  · rintro a ⟨⟩

/-- A posted message other than `WM_QUIT` is returned after its window has been destroyed only if a
later window has the same `HWND`. -/
theorem returned_after_destroy (b : Build) {t : HandleTable} (ht : ∀ i, windows t i = none)
    (calls : List DesktopCall) {call : MsgCall} {a : Arrival}
    (hreturned : Returned (calls.foldl (desktopStep b) (.start t)).messages call a)
    (hposted : a.source = .posted) (hhwnd : a.msg.hwnd ≠ 0) (hquit : a.msg.message ≠ wmQuit)
    (hdestroyed : Destroyed (calls.foldl (desktopStep b) (.start t)).win
      ((calls.foldl (desktopStep b) (.start t)).target a.serial)) :
  (calls.foldl (desktopStep b) (.start t)).target a.serial <
    getWindowEntry (calls.foldl (desktopStep b) (.start t)).win.handles a.msg.hwnd
  := by
  have haimed : Aimed (calls.foldl (desktopStep b) (.start t)) := by
    apply List.foldlRecOn
    · exact start_aimed ht
    · intro s hs call _
      exact desktopStep_aimed hs b call
  obtain ⟨i, hi, heq | hlt⟩ := haimed.returned hreturned hposted hhwnd hquit
  · rw [← heq] at hi
    exact absurd hi (hdestroyed i)
  · exact hlt

def postAndDestroy (message : ℕ) : List DesktopCall :=
  [.window (.create ordinaryArgs), .window (.ret 1), .window (.ret 0),
    .message (.post 4 message 0 0),
    .window (.destroy 4), .window (.ret 0), .window (.ret 0)]

def postAndRecycle (message : ℕ) : List DesktopCall :=
  postAndDestroy message ++ [.window (.create ordinaryArgs), .window (.ret 1), .window (.ret 0)]

def postedArrival (message : ℕ) : Arrival := ⟨⟨4, message, 0, 0, 0, 0, 0⟩, .posted, 0⟩

theorem returned_get {s : MsgState} (hquit : s.quitPending = false) {a : Arrival}
    (hresult : (fetchQueuedMessage true ⟨0, 0, 0⟩ [] s).1 = some a) :
  Returned s (.get 1 ⟨0, 0, 0⟩ []) a
  := by
  refine ⟨true, ⟨0, 0, 0⟩, [], ?_, hresult⟩
  rw [MsgCall.fetch, hquit]
  rfl

def Outlives (calls : List DesktopCall) (message : ℕ) : Prop :=
  let s := calls.foldl (desktopStep .x64) (.start wineHandleManagerRuntimeInit)
  Returned s.messages (.get 1 ⟨0, 0, 0⟩ []) (postedArrival message) ∧
    Destroyed s.win (s.target (postedArrival message).serial)

theorem outlives_recycle :
  Outlives (postAndRecycle 0x0400) 0x0400
  := by
  constructor
  · apply returned_get
    · decide +kernel
    · decide +kernel
  · decide +kernel

theorem returned_after_destroy_recycled :
  let s := (postAndRecycle 0x0400).foldl (desktopStep .x64) (.start wineHandleManagerRuntimeInit)
  s.target (postedArrival 0x0400).serial < getWindowEntry s.win.handles 4
  := by
  obtain ⟨hreturned, hdestroyed⟩ := outlives_recycle
  apply returned_after_destroy .x64 windows_wineHandleManagerRuntimeInit (postAndRecycle 0x0400)
    hreturned rfl
  · decide
  · decide
  · exact hdestroyed

/-- A message is returned after its window has been destroyed when another window has got the same
`HWND`, and when it is a `WM_QUIT`. -/
theorem message_outlives_window :
  Outlives (postAndRecycle 0x0400) 0x0400 ∧ Outlives (postAndDestroy wmQuit) wmQuit
  := by
  use outlives_recycle
  constructor
  · apply returned_get
    · decide +kernel
    · decide +kernel
  · decide +kernel

end User32
