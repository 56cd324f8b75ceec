import MyWine.Sdl2.Shutdown

/-!
# What a shutdown delivers

The calls of `rb_event_translate_shutdown` drain the list that `rb_event_begin_shutdown` made
(`calls_eq_results`).  A window that has lost its route or its window of the backend does not get it back
by unbinding windows and freeing handles (`there_of_calls`), so that the active window may as well be in the
list when it has none at the beginning.  So what is delivered are the results of draining the bound
windows, the active one first, and `delivers_close` follows from what is known about such results.
-/

namespace Sdl2.Shutdown

open HandleManager List Option
open User32 (RbMsg handleTypeRbWindow toHandle)
open scoped List

/-- The window is bound to a window of the backend. -/
def there (s : Shutdown) (hwnd : ℕ) : Bool := s.resolveBackendWindow hwnd ≠ 0

/-- The windows that are still to be closed. -/
def pending (s : Shutdown) : List ℕ := s.hwnds.drop s.head

/-! ### Windows do not come back -/

section

variable {l : List WindowRoute} {hwnd : ℕ}

theorem mem_of_mem_unbindRoute {h : ℕ} {r : WindowRoute} (hmem : r ∈ unbindRoute l h) :
  r ∈ l ∨ r = .empty
  := by
  rw [unbindRoute] at hmem
  split at hmem
  · left
    apply hmem
  · apply mem_or_eq_of_mem_set hmem

end

variable {s : Shutdown} {hwnd : ℕ}

theorem there_eq_true_iff (hne : hwnd ≠ 0) :
  s.there hwnd = true
    ↔ ∃ r ∈ s.routes.list, r.hwnd = hwnd ∧ s.getBackendWindow r.backendWin ≠ 0
  := by
  rw [there, decide_eq_true_eq, resolveBackendWindow]
  constructor
  · intro h
    cases hfind : s.routes.list.find? (·.hwnd = hwnd) with
    | none =>
      rw [hfind] at h
      apply absurd rfl h
    | some r =>
      rw [hfind] at h
      obtain ⟨hmem, hr⟩ := (find_eq_some_iff s.routes.unique hne).mp hfind
      exact ⟨r, hmem, hr, h⟩
  · rintro ⟨r, hmem, hr, h⟩
    rw [(find_eq_some_iff s.routes.unique hne).mpr ⟨hmem, hr⟩]
    apply h

theorem there_unbindWindow (hne : hwnd ≠ 0) {h : ℕ} (hthere : (s.unbindWindow h).there hwnd = true) :
  s.there hwnd = true
  := by
  rw [unbindWindow] at hthere
  split at hthere
  · apply hthere
  · rw [there_eq_true_iff hne] at hthere ⊢
    obtain ⟨r, hmem, hr, hwin⟩ := hthere
    rcases mem_of_mem_unbindRoute hmem with hmem | rfl
    · exact ⟨r, hmem, hr, hwin⟩
    · apply absurd hr.symm hne

theorem get_wineHandleFree {t : HandleTable} {handle h : ℕ}
    (htype : wineHandleGetType (wineHandleFree t handle) h = handleTypeRbWindow) :
  wineHandleGetType t h = handleTypeRbWindow
    ∧ wineHandleGet t h = wineHandleGet (wineHandleFree t handle) h
  := by
  rcases wineHandleFree_cases t handle with ⟨i, -, -, hlive, hfree⟩ | hfree
  · rcases get_cases (wineHandleFree t handle) h with ⟨j, rfl, hlive', hget, htype'⟩ | ⟨-, hzero⟩
    · rw [htype'] at htype
      rw [hget]
      rcases eq_or_ne j i with rfl | hne
      · rw [hfree, Function.update_self] at hlive' htype ⊢
        obtain ⟨htype'', hobject⟩ := (WineHandle.free_of_live hlive).2 hlive'
        rw [(get_of_live hlive).2, (get_of_live hlive).1, ← htype'', ← hobject]
        exact ⟨htype, rfl⟩
      · rw [hfree, Function.update_of_ne hne] at hlive' htype ⊢
        rw [(get_of_live hlive').2, (get_of_live hlive').1]
        exact ⟨htype, rfl⟩
    · rw [hzero] at htype
      cases htype
  · rw [hfree] at htype ⊢
    exact ⟨htype, rfl⟩

theorem there_free (hne : hwnd ≠ 0) {handle : ℕ}
    (hthere : there { s with handles := wineHandleFree s.handles handle } hwnd = true) :
  s.there hwnd = true
  := by
  rw [there_eq_true_iff hne] at hthere ⊢
  obtain ⟨r, hmem, hr, hwin⟩ := hthere
  refine ⟨r, hmem, hr, ?_⟩
  simp only [getBackendWindow] at hwin ⊢
  by_cases htype : wineHandleGetType (wineHandleFree s.handles handle) (toHandle r.backendWin)
      = handleTypeRbWindow
  · obtain ⟨htype', hget⟩ := get_wineHandleFree htype
    simp only [ne_eq, htype, not_true_eq_false, if_false] at hwin
    simp only [ne_eq, htype', not_true_eq_false, if_false, hget]
    apply hwin
  · simp only [ne_eq, htype, not_false_eq_true, if_true, not_true_eq_false] at hwin

theorem there_of_calls (hne : hwnd ≠ 0) {ops : List Op} {c : Shutdown × Option RbMsg}
    (hc : c ∈ calls ops s) (hthere : c.1.there hwnd = true) :
  s.there hwnd = true
  := by
  induction ops generalizing s with
  | nil => cases hc
  | cons op ops ih =>
    cases op with
    | translate =>
      rcases mem_cons.mp hc with rfl | hc
      · apply hthere
      · have hnext := ih hc
        rw [there_eq_true_iff hne] at hnext ⊢
        have hsame : s.translateShutdown.2.routes = s.routes
            ∧ s.translateShutdown.2.handles = s.handles := by
          rw [translateShutdown]
          split
          · exact ⟨rfl, rfl⟩
          · split
            · exact ⟨rfl, rfl⟩
            · exact ⟨rfl, rfl⟩
        simp only [getBackendWindow, hsame.1, hsame.2] at hnext
        apply hnext
    | unbind h => apply there_unbindWindow hne (ih hc)
    | free handle => apply there_free hne (ih hc)

/-- A window that is gone does not come back. -/
theorem there_antitone (ops : List Op) (s : Shutdown) :
  (calls ops s).Pairwise fun c d => ∀ hwnd, hwnd ≠ 0 → d.1.there hwnd = true → c.1.there hwnd = true
  := by
  induction ops generalizing s with
  | nil => apply List.Pairwise.nil
  | cons op ops ih =>
    cases op with
    | translate =>
      apply List.Pairwise.cons _ (ih _)
      intro d hd hwnd hne hthere
      apply @there_of_calls s hwnd hne (.translate :: ops) d (mem_cons_of_mem _ hd) hthere
    | unbind h => apply ih
    | free handle => apply ih

/-! ### The calls drain the list -/

theorem nextHwnd_eq (s : Shutdown) {l : List ℕ} (hl : 0 ∉ l) (head : ℕ) :
  (s.nextHwnd l head).1 = l.find? s.there
    ∧ ∃ k, (s.nextHwnd l head).2 = head + k ∧ l.drop k = Drain.rest s.there l
  := by
  induction l generalizing head with
  | nil => exact ⟨rfl, 0, rfl, rfl⟩
  | cons h l ih =>
    rw [mem_cons, not_or] at hl
    by_cases hthere : s.there h = true
    · have hgo : ¬ (h = 0 ∨ s.resolveBackendWindow h = 0) := by
        rintro (h0 | h0)
        · apply hl.1 h0.symm
        · rw [there, decide_eq_true_eq] at hthere
          apply hthere h0
      rw [nextHwnd, if_neg hgo, List.find?_cons_of_pos hthere]
      refine ⟨rfl, 1, rfl, ?_⟩
      rw [Drain.rest, dropWhile_cons_of_neg]
      · rfl
      · rw [hthere]
        decide
    · have hskip : h = 0 ∨ s.resolveBackendWindow h = 0 := by
        right
        rw [there, decide_eq_true_eq, not_not] at hthere
        apply hthere
      obtain ⟨hfind, k, hk, hdrop⟩ := ih hl.2 (head + 1)
      rw [nextHwnd, if_pos hskip, List.find?_cons_of_neg hthere]
      refine ⟨hfind, k + 1, ?_, ?_⟩
      · rw [hk]
        omega
      · rw [drop_succ_cons, hdrop, Drain.rest, Drain.rest, dropWhile_cons_of_pos]
        rw [Bool.not_eq_true']
        apply Bool.eq_false_iff.mpr hthere

theorem translateShutdown_eq (hforce : s.forceQuitPending = false) (hpending : 0 ∉ s.pending) :
  s.translateShutdown.1 = (s.pending.find? s.there).map closeMsg
    ∧ s.translateShutdown.2.pending = Drain.rest s.there s.pending
    ∧ s.translateShutdown.2.forceQuitPending = false
  := by
  obtain ⟨hfind, k, hk, hdrop⟩ := nextHwnd_eq s hpending s.head
  have hrest : s.hwnds.drop (s.nextHwnd s.pending s.head).2 = Drain.rest s.there s.pending := by
    rw [hk, ← hdrop, pending, drop_drop]
  rw [← hfind, ← hrest, translateShutdown, ← pending]
  rcases s.nextHwnd s.pending s.head with ⟨_ | h, head⟩
  · simp only [hforce, Bool.false_eq_true, if_false]
    exact ⟨rfl, rfl, trivial⟩
  · exact ⟨rfl, rfl, hforce⟩

theorem calls_eq_results {ops : List Op} (hforce : s.forceQuitPending = false)
    (hpending : 0 ∉ s.pending) :
  (calls ops s).map Prod.snd
    = (Drain.results s.pending ((calls ops s).map fun c => c.1.there)).map (Option.map closeMsg)
  := by
  induction ops generalizing s with
  | nil => rfl
  | cons op ops ih =>
    cases op with
    | translate =>
      obtain ⟨hresult, hrest, hforce'⟩ := translateShutdown_eq hforce hpending
      have hnext : 0 ∉ s.translateShutdown.2.pending := by
        rw [hrest]
        intro hmem
        apply hpending ((Drain.rest_sublist _ _).subset hmem)
      simp [calls, Drain.results, hresult, ih hforce' hnext, hrest]
    | unbind h =>
      have hsame : (s.unbindWindow h).pending = s.pending
          ∧ (s.unbindWindow h).forceQuitPending = s.forceQuitPending := by
        rw [unbindWindow]
        split
        · exact ⟨rfl, rfl⟩
        · exact ⟨rfl, rfl⟩
      rw [calls, ← hsame.1]
      apply ih
      · rw [hsame.2, hforce]
      · rw [hsame.1]
        apply hpending
    | free handle => apply @ih { s with handles := wineHandleFree s.handles handle } hforce hpending

/-! ### The windows in order -/

theorem boundWindows_nodup (s : Shutdown) :
  s.boundWindows.Nodup
  := by
  rw [boundWindows, List.Nodup, pairwise_map, pairwise_filter]
  apply s.routes.unique.imp
  intro r r' h hr _
  apply h (of_decide_eq_true hr)

theorem mem_boundWindows_of_there (hne : hwnd ≠ 0) (h : s.there hwnd = true) :
  hwnd ∈ s.boundWindows
  := by
  obtain ⟨r, hmem, rfl, -⟩ := (there_eq_true_iff hne).mp h
  apply List.mem_map_of_mem
  apply List.mem_filter.mpr
  exact ⟨hmem, decide_eq_true hne⟩

theorem ne_zero_of_mem_boundWindows (h : hwnd ∈ s.boundWindows) :
  hwnd ≠ 0
  := by
  obtain ⟨r, hr, rfl⟩ := mem_map.mp h
  apply of_decide_eq_true (mem_filter.mp hr).2

theorem closingOrder_perm (s : Shutdown) :
  s.closingOrder.Perm s.boundWindows
  := by
  have hperm := filter_append_perm (· = s.activeWindow) s.boundWindows
  simp only [← decide_not] at hperm
  apply hperm

theorem closingOrder_nodup (s : Shutdown) :
  s.closingOrder.Nodup
  := by
  apply s.closingOrder_perm.nodup_iff.mpr s.boundWindows_nodup

theorem filter_active (s : Shutdown) :
  s.boundWindows.filter (· = s.activeWindow)
    = if s.activeWindow ∈ s.boundWindows then [s.activeWindow] else []
  := by
  rw [filter_eq]
  split
  case isTrue hmem => rw [count_eq_one_of_mem s.boundWindows_nodup hmem, replicate_one]
  case isFalse hmem => rw [count_eq_zero_of_not_mem hmem, replicate_zero]

/-! ### The beginning -/

theorem foldl_routes (l : List WindowRoute) (active : ℕ) (first : List ℕ) :
  l.foldl (fun hwnds r => if r.hwnd = 0 ∨ r.hwnd = active then hwnds else hwnds ++ [r.hwnd]) first
    = first ++ ((l.filter (·.hwnd ≠ 0)).map WindowRoute.hwnd).filter (· ≠ active)
  := by
  induction l generalizing first with
  | nil => rw [foldl_nil, filter_nil, map_nil, filter_nil, append_nil]
  | cons r l ih =>
    rw [foldl_cons, ih]
    by_cases h0 : r.hwnd = 0
    · rw [if_pos (Or.inl h0), filter_cons_of_neg]
      rw [decide_eq_true_eq, not_not]
      apply h0
    · have hfilter : (r :: l).filter (·.hwnd ≠ 0) = r :: l.filter (·.hwnd ≠ 0) := by
        apply filter_cons_of_pos
        apply decide_eq_true h0
      rw [hfilter, map_cons]
      by_cases hactive : r.hwnd = active
      · rw [if_pos (Or.inr hactive), filter_cons_of_neg]
        rw [decide_eq_true_eq, not_not]
        apply hactive
      · have hgo : ¬ (r.hwnd = 0 ∨ r.hwnd = active) := not_or.mpr ⟨h0, hactive⟩
        rw [if_neg hgo, filter_cons_of_pos, append_assoc, singleton_append]
        apply decide_eq_true hactive

theorem beginShutdown_eq (s : Shutdown) :
  (s.beginShutdown true).pending
      = (if s.activeWindow ≠ 0 ∧ s.resolveBackendWindow s.activeWindow ≠ 0 then [s.activeWindow] else [])
        ++ s.boundWindows.filter (· ≠ s.activeWindow)
    ∧ (s.beginShutdown true).forceQuitPending = false
    ∧ (s.beginShutdown true).there = s.there
  := by
  rw [boundWindows, ← foldl_routes, beginShutdown, ensureShutdownCapacity]
  split
  case h_1 h =>
    split at h
    · cases h
    · cases h
  case h_2 h =>
    split at h
    · cases h
      exact ⟨rfl, rfl, rfl⟩
    · cases h
      exact ⟨rfl, rfl, rfl⟩

theorem calls_beginShutdown (s : Shutdown) (ops : List Op) :
  (calls ops (s.beginShutdown true)).map Prod.snd
    = (Drain.results s.closingOrder
        ((calls ops (s.beginShutdown true)).map fun c => c.1.there)).map (Option.map closeMsg)
  := by
  obtain ⟨hpending, hforce, hthere⟩ := beginShutdown_eq s
  have hzero : 0 ∉ (s.beginShutdown true).pending := by
    rw [hpending, mem_append, not_or]
    constructor
    · split
      case isTrue h =>
        rw [mem_singleton]
        apply Ne.symm h.1
      · apply not_mem_nil
    · intro hmem
      apply ne_zero_of_mem_boundWindows (mem_of_mem_filter hmem) rfl
  rw [calls_eq_results hforce hzero, hpending, closingOrder, filter_active]
  by_cases hactive : s.activeWindow ≠ 0 ∧ s.resolveBackendWindow s.activeWindow ≠ 0
  · have hmem := mem_boundWindows_of_there hactive.1 (decide_eq_true hactive.2)
    rw [if_pos hactive, if_pos hmem]
  · rw [if_neg hactive]
    by_cases hmem : s.activeWindow ∈ s.boundWindows
    · have hne := ne_zero_of_mem_boundWindows hmem
      rw [if_pos hmem, singleton_append, nil_append, Drain.results_cons_of_gone]
      intro p hp
      obtain ⟨c, hc, rfl⟩ := mem_map.mp hp
      rw [Bool.eq_false_iff]
      intro hc'
      have hbegin := there_of_calls hne hc hc'
      rw [hthere, there, decide_eq_true_eq] at hbegin
      apply hactive ⟨hne, hbegin⟩
    · rw [if_neg hmem]

/-- A shutdown closes each bound window that is there when its turn comes, the active one first, and no
other window, and then nothing comes any more. -/
theorem delivers_close (s : Shutdown) (ops : List Op) :
  DeliversClose s (calls ops (s.beginShutdown true))
  := by
  have hresults := calls_beginShutdown s ops
  have hantitone := there_antitone ops (s.beginShutdown true)
  generalize calls ops (s.beginShutdown true) = cs at hresults hantitone
  have hclosed (ds : List (Shutdown × Option RbMsg)) (ps : List (ℕ → Bool))
      (h : ds.map Prod.snd = (Drain.results s.closingOrder ps).map (Option.map closeMsg)) :
      ds.map (fun c => c.2.map RbMsg.hwnd) = Drain.results s.closingOrder ps := by
    have hmap := congrArg (List.map (Option.map RbMsg.hwnd)) h
    rw [List.map_map, List.map_map] at hmap
    have hid : Option.map RbMsg.hwnd ∘ Option.map closeMsg = id := by
      funext o
      cases o with
      | none => rfl
      | some hwnd => rfl
    rwa [hid, List.map_id] at hmap
  -- the result of a call, and the results before it
  have hcall (before : List (Shutdown × Option RbMsg)) (c : Shutdown × Option RbMsg)
      (after : List (Shutdown × Option RbMsg)) (hcs : cs = before ++ c :: after) :
      before.map Prod.snd
          = (Drain.results s.closingOrder (before.map fun c => c.1.there)).map (Option.map closeMsg)
        ∧ c.2 = ((Drain.left s.closingOrder (before.map fun c => c.1.there)).find? c.1.there).map
          closeMsg := by
    rw [hcs, map_append, map_append, Drain.results_append, map_append] at hresults
    obtain ⟨hbefore, hafter⟩ := append_inj hresults (by
      rw [length_map, length_map, Drain.length_results, length_map])
    rw [map_cons, map_cons, Drain.results, map_cons, cons.injEq] at hafter
    exact ⟨hbefore, hafter.1⟩
  have horder : closed cs <+ s.closingOrder := by
    rw [closed, hclosed cs _ hresults]
    apply Drain.reduceOption_results_sublist
  constructor
  case close =>
    intro c hc msg hmsg
    obtain ⟨before, after, hcs⟩ := append_of_mem hc
    have hresult := (hcall before c after hcs).2
    rw [hmsg] at hresult
    obtain ⟨hwnd, hfind, rfl⟩ := map_eq_some_iff.mp hresult.symm
    have hthere := List.find?_some hfind
    rw [there, decide_eq_true_eq] at hthere
    exact ⟨rfl, hthere⟩
  case order => apply horder
  case once => apply horder.nodup s.closingOrder_nodup
  case complete =>
    intro before c after hwnd hcs hmem hthere hpassed
    obtain ⟨hbefore, hresult⟩ := hcall before c after hcs
    rw [closed, hclosed before _ hbefore, reduceOption_mem_iff]
    apply Drain.mem_results (p := c.1.there) s.closingOrder_nodup
    · intro q hq hc
      obtain ⟨d, hd, rfl⟩ := mem_map.mp hq
      rw [hcs, pairwise_append] at hantitone
      apply hantitone.2.2 d hd c mem_cons_self hwnd (ne_zero_of_mem_boundWindows hmem) hc
    · apply s.closingOrder_perm.mem_iff.mpr hmem
    · apply decide_eq_true hthere
    · intro b hb
      apply hpassed (closeMsg b)
      rw [hresult, hb, map_some]
  case stops =>
    intro before c after hcs hnone d hd
    have hhwnds := hclosed cs _ hresults
    rw [hcs, map_append, map_cons, hnone, map_none] at hhwnds
    have hafter := Drain.results_of_none hhwnds.symm
    have hd' := hafter (d.2.map RbMsg.hwnd) (mem_map_of_mem hd)
    apply map_eq_none_iff.mp hd'
  case ends =>
    intro hlt
    have hlt' : s.closingOrder.length < (cs.map fun c => c.1.there).length := by
      rw [length_map, s.closingOrder_perm.length_eq]
      apply hlt
    have hnone := Drain.none_mem_results hlt'
    rw [← hclosed cs _ hresults] at hnone
    obtain ⟨c, hc, hc'⟩ := mem_map.mp hnone
    exact ⟨c, hc, map_eq_none_iff.mp hc'⟩

end Sdl2.Shutdown
