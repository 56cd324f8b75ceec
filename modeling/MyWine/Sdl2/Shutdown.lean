import MyWine.Lib.Drain
import MyWine.Sdl2.Events
import MyWine.User32.WindowLifecycle

/-!
# Shutdown of the SDL backend

`backend/sdl2/rb_event_state.c` keeps the route of each window of the guest to its window of the backend
in a table (`WindowRoutes`), which grows as windows are bound and in which no window has two routes.
`rb_event_begin_shutdown` of `rb_event_shutdown.c` lists the windows of the table, the active one first,
and `rb_event_translate_shutdown` makes a `WM_CLOSE` of each window in the list that still has a window of
the backend by then.

`DeliversClose` says what the guest should be told: each bound window that is there when its turn comes is
closed once, the active one first, no other window is closed, and then nothing comes any more.
-/

namespace Sdl2

open HandleManager List
open User32 (RbMsg handleTypeRbWindow toHandle)

def wmQuit : ℕ := 0x0012

/-! ### The routes -/

structure WindowRoute where
  hwnd : ℕ
  backendWin : ℕ
  sdlWindowId : ℕ
  nativeWindowId : ℕ
  deriving DecidableEq

def WindowRoute.empty : WindowRoute := ⟨0, 0, 0, 0⟩

def UniqueRoutes (l : List WindowRoute) : Prop :=
  l.Pairwise fun r r' => r.hwnd ≠ 0 → r.hwnd ≠ r'.hwnd

variable {l : List WindowRoute}

theorem uniqueRoutes_iff :
  UniqueRoutes l ↔ ∀ (i j : ℕ) (r r' : WindowRoute),
    l[i]? = some r → l[j]? = some r' → r.hwnd ≠ 0 → r.hwnd = r'.hwnd → i = j
  := by
  rw [UniqueRoutes, pairwise_iff_getElem]
  constructor
  · intro h i j r r' hr hr' hne heq
    obtain ⟨hi, rfl⟩ := List.getElem?_eq_some_iff.mp hr
    obtain ⟨hj, rfl⟩ := List.getElem?_eq_some_iff.mp hr'
    rcases Nat.lt_trichotomy i j with hlt | heqij | hlt
    · apply absurd heq (h i j hi hj hlt hne)
    · apply heqij
    · rw [heq] at hne
      apply absurd heq.symm (h j i hj hi hlt hne)
  · intro h i j hi hj hlt hne heq
    have hij := h i j _ _ (getElem?_eq_getElem hi) (getElem?_eq_getElem hj) hne heq
    omega

theorem find_eq_some_iff (hl : UniqueRoutes l) {hwnd : ℕ} (hne : hwnd ≠ 0) {r : WindowRoute} :
  l.find? (·.hwnd = hwnd) = some r ↔ r ∈ l ∧ r.hwnd = hwnd
  := by
  constructor
  · intro h
    have hr := List.find?_some h
    exact ⟨mem_of_find?_eq_some h, of_decide_eq_true hr⟩
  · rintro ⟨hmem, hr⟩
    cases hfind : l.find? (·.hwnd = hwnd) with
    | none =>
      rw [List.find?_eq_none] at hfind
      apply absurd (decide_eq_true hr) (hfind r hmem)
    | some r' =>
      have hmem' := mem_of_find?_eq_some hfind
      have hr' := List.find?_some hfind
      rw [decide_eq_true_eq] at hr'
      obtain ⟨i, hi⟩ := mem_iff_getElem?.mp hmem
      obtain ⟨j, hj⟩ := mem_iff_getElem?.mp hmem'
      rw [← hr] at hne
      have hij := uniqueRoutes_iff.mp hl i j r r' hi hj hne (hr.trans hr'.symm)
      rw [hij] at hi
      rw [← hi, hj]

theorem UniqueRoutes.set (h : UniqueRoutes l) {i : ℕ} {r : WindowRoute}
    (hr : r.hwnd ≠ 0 → ∀ j r', j ≠ i → l[j]? = some r' → r'.hwnd ≠ r.hwnd) :
  UniqueRoutes (l.set i r)
  := by
  rw [uniqueRoutes_iff] at h ⊢
  have hget (j r') (hget : (l.set i r)[j]? = some r') :
      j = i ∧ r' = r ∨ j ≠ i ∧ l[j]? = some r' := by
    by_cases hj : i = j
    · subst hj
      rw [getElem?_set_self', Option.map_eq_map, Option.map_eq_some_iff] at hget
      obtain ⟨_, -, heq⟩ := hget
      left
      exact ⟨rfl, heq.symm⟩
    · rw [getElem?_set_ne hj] at hget
      right
      exact ⟨Ne.symm hj, hget⟩
  intro j k r₁ r₂ h₁ h₂ hne heq
  rcases hget j r₁ h₁ with ⟨rfl, rfl⟩ | ⟨hj, hr₁⟩
  · rcases hget k r₂ h₂ with ⟨rfl, -⟩ | ⟨hk, hr₂⟩
    · rfl
    · apply absurd heq.symm (hr hne k r₂ hk hr₂)
  · rcases hget k r₂ h₂ with ⟨rfl, rfl⟩ | ⟨-, hr₂⟩
    · rw [heq] at hne
      apply absurd heq (hr hne j r₁ hj hr₁)
    · apply h j k r₁ r₂ hr₁ hr₂ hne heq

theorem UniqueRoutes.append_empty (h : UniqueRoutes l) (n : ℕ) :
  UniqueRoutes (l ++ replicate n .empty)
  := by
  rw [UniqueRoutes, pairwise_append]
  refine ⟨h, ?_, ?_⟩
  · rw [pairwise_replicate]
    right
    intro hne
    apply absurd rfl hne
  · intro r _ r' hr' hne
    rw [eq_of_mem_replicate hr']
    apply hne

/-- `rb_event_ensure_route_capacity`, where `mem` tells whether `realloc` succeeds if it is called. -/
def ensureRouteCapacity (mem : Bool) (l : List WindowRoute) (needed : ℕ) : Option (List WindowRoute) :=
  if needed ≤ l.length then some l
  else if mem then
    let first := if l.length = 0 then 16 else l.length * 2
    let capacity := Loop.doubleCapacity needed needed first
    some (l ++ replicate (capacity - l.length) .empty)
  else none

def findRouteByHwnd (l : List WindowRoute) (hwnd : ℕ) : Option ℕ := l.findIdx? (·.hwnd = hwnd)

def allocRouteSlot (mem : Bool) (l : List WindowRoute) : List WindowRoute × Option ℕ :=
  match ensureRouteCapacity mem l (l.length + 1) with
  | none => (l, none)
  | some l => (l, findRouteByHwnd l 0)

def bindSlot (mem : Bool) (l : List WindowRoute) (hwnd : ℕ) : List WindowRoute × Option ℕ :=
  match findRouteByHwnd l hwnd with
  | some i => (l, some i)
  | none => allocRouteSlot mem l

def bindRoute (mem : Bool) (l : List WindowRoute) (r : WindowRoute) : List WindowRoute :=
  match bindSlot mem l r.hwnd with
  | (l, none) => l
  | (l, some i) => l.set i r

def unbindRoute (l : List WindowRoute) (hwnd : ℕ) : List WindowRoute :=
  match findRouteByHwnd l hwnd with
  | none => l
  | some i => l.set i .empty

theorem UniqueRoutes.unbindRoute (h : UniqueRoutes l) (hwnd : ℕ) :
  UniqueRoutes (unbindRoute l hwnd)
  := by
  rw [Sdl2.unbindRoute]
  split
  · apply h
  · apply h.set
    intro hne
    apply absurd rfl hne

/-- A route takes the place of the one with its window, or an empty place of the larger table. -/
theorem bindRoute_cases (mem : Bool) (l : List WindowRoute) (r : WindowRoute) :
  mem = false ∧ bindRoute mem l r = l ∨ ∃ n i old, let l' := l ++ replicate n WindowRoute.empty
    bindRoute mem l r = l'.set i r ∧ l'[i]? = some old ∧
    (n = 0 ∧ old.hwnd = r.hwnd ∨ old.hwnd = 0 ∧ ∀ r' ∈ l, r'.hwnd ≠ r.hwnd)
  := by
  rw [bindRoute, bindSlot]
  cases hfind : findRouteByHwnd l r.hwnd with
  | some i =>
    obtain ⟨hi, hhwnd, -⟩ := findIdx?_eq_some_iff_getElem.mp hfind
    refine Or.inr ⟨0, i, l[i], ?_, ?_, Or.inl ⟨rfl, of_decide_eq_true hhwnd⟩⟩ <;> simp [hi]
  | none =>
    obtain ⟨c, hc, hlt⟩ : ∃ c, (if l.length = 0 then 16 else l.length * 2) = c ∧ l.length < c :=
      ⟨_, rfl, by split_ifs <;> omega⟩
    simp only [allocRouteSlot, ensureRouteCapacity, hc, Loop.doubleCapacity]
    rw [if_neg (by omega)]
    cases mem with
    | false => exact Or.inl ⟨rfl, rfl⟩
    | true =>
      simp only [if_pos, if_neg (show ¬ c < l.length + 1 by omega)]
      cases hzero : findRouteByHwnd (l ++ replicate (c - l.length) .empty) 0 with
      | none =>
        have hmem : WindowRoute.empty ∈ l ++ replicate (c - l.length) .empty :=
          mem_append_right _ (mem_replicate.mpr ⟨by omega, rfl⟩)
        cases findIdx?_eq_none_iff.mp hzero _ hmem
      | some i =>
        obtain ⟨hi, hhwnd, -⟩ := findIdx?_eq_some_iff_getElem.mp hzero
        refine Or.inr ⟨_, i, _, rfl, getElem?_eq_getElem hi, Or.inr ⟨of_decide_eq_true hhwnd, ?_⟩⟩
        intro r' hr'
        exact of_decide_eq_false (findIdx?_eq_none_iff.mp hfind r' hr')

theorem mem_bindRoute (l : List WindowRoute) (r : WindowRoute) :
  r ∈ bindRoute true l r
  := by
  rcases bindRoute_cases true l r with ⟨hmem, -⟩ | ⟨n, i, old, heq, hold, -⟩
  · cases hmem
  · rw [heq]
    apply mem_set (List.getElem?_eq_some_iff.mp hold).1

theorem UniqueRoutes.bindRoute (h : UniqueRoutes l) (mem : Bool) (r : WindowRoute) :
  UniqueRoutes (bindRoute mem l r)
  := by
  rcases bindRoute_cases mem l r with ⟨-, heq⟩ | ⟨n, i, old, heq, hold, hcases⟩
  · rw [heq]
    apply h
  · rw [heq]
    apply (h.append_empty n).set
    intro hne j r' hj hget hsame
    rcases hcases with ⟨rfl, hhwnd⟩ | ⟨-, hnot⟩
    · rw [← hsame] at hhwnd hne
      exact hj (uniqueRoutes_iff.mp (h.append_empty 0) j i r' old hget hold hne hhwnd.symm)
    · -- the window had no route, and the new places are empty
      rcases mem_append.mp (mem_of_getElem? hget) with hmem | hmem
      · apply hnot r' hmem hsame
      · rw [eq_of_mem_replicate hmem] at hsame
        apply hne hsame.symm

structure WindowRoutes where
  list : List WindowRoute
  unique : UniqueRoutes list

def WindowRoutes.bind (t : WindowRoutes) (mem : Bool) (r : WindowRoute) : WindowRoutes :=
  ⟨bindRoute mem t.list r, t.unique.bindRoute mem r⟩
def WindowRoutes.unbind (t : WindowRoutes) (hwnd : ℕ) : WindowRoutes :=
  ⟨unbindRoute t.list hwnd, t.unique.unbindRoute hwnd⟩

/-! ### The functions -/

/-- `g_active_window`, `g_window_routes`, the handles of the process, the part of `g_shutdown_hwnds` that
is filled, with its head and the capacity of the array, and `g_shutdown_force_quit_pending`. -/
structure Shutdown where
  activeWindow : ℕ
  routes : WindowRoutes
  handles : HandleTable
  hwnds : List ℕ
  head : ℕ
  capacity : ℕ
  forceQuitPending : Bool

namespace Shutdown

def getBackendWindow (s : Shutdown) (win : ℕ) : Ptr :=
  if wineHandleGetType s.handles (toHandle win) ≠ handleTypeRbWindow then 0
  else wineHandleGet s.handles (toHandle win)

def resolveBackendWindow (s : Shutdown) (hwnd : ℕ) : Ptr :=
  match s.routes.list.find? (·.hwnd = hwnd) with
  | none => 0
  | some r => s.getBackendWindow r.backendWin

/-- `rb_event_bind_window`, where `windowIds` are the `sdl_window_id` and the `native_window_id` of a
window of the backend. -/
def bindWindow (windowIds : Ptr → ℕ × ℕ) (mem : Bool) (s : Shutdown) (hwnd win : ℕ) : Shutdown :=
  let wnd := s.getBackendWindow win
  if hwnd = 0 ∨ wnd = 0 ∨ (windowIds wnd).1 = 0 then s
  else { s with routes := s.routes.bind mem ⟨hwnd, win, (windowIds wnd).1, (windowIds wnd).2⟩ }

/-- A window that is bound is the one that is found afterwards. -/
theorem resolveBackendWindow_bindWindow (windowIds : Ptr → ℕ × ℕ) (s : Shutdown) {hwnd win : ℕ}
    (hhwnd : hwnd ≠ 0) (hwin : s.getBackendWindow win ≠ 0)
    (hid : (windowIds (s.getBackendWindow win)).1 ≠ 0) :
  (s.bindWindow windowIds true hwnd win).resolveBackendWindow hwnd = s.getBackendWindow win
  := by
  have hnot : ¬ (hwnd = 0 ∨ s.getBackendWindow win = 0 ∨ (windowIds (s.getBackendWindow win)).1 = 0) := by
    simp [hhwnd, hwin, hid]
  simp only [bindWindow, if_neg hnot, resolveBackendWindow]
  rw [(find_eq_some_iff (s.routes.bind true _).unique hhwnd).mpr
    ⟨mem_bindRoute s.routes.list ⟨hwnd, win, _, _⟩, rfl⟩]
  rfl

def unbindWindow (s : Shutdown) (hwnd : ℕ) : Shutdown :=
  match findRouteByHwnd s.routes.list hwnd with
  | none => s
  | some _ =>
    { s with
      routes := s.routes.unbind hwnd
      activeWindow := if s.activeWindow = hwnd then 0 else s.activeWindow }

/-- `rb_event_ensure_shutdown_capacity`, where `mem` tells whether `realloc` succeeds if it is called. -/
def ensureShutdownCapacity (mem : Bool) (s : Shutdown) (needed : ℕ) : Option Shutdown :=
  if needed ≤ s.capacity then some s
  else if mem then
    let first := if s.capacity = 0 then 16 else s.capacity * 2
    some { s with capacity := Loop.doubleCapacity needed needed first }
  else none

def beginShutdown (mem : Bool) (s : Shutdown) : Shutdown :=
  let s := { s with head := 0, hwnds := [], forceQuitPending := false }
  match s.ensureShutdownCapacity mem (s.routes.list.length + 1) with
  | none => s
  | some s =>
    let first :=
      if s.activeWindow ≠ 0 ∧ s.resolveBackendWindow s.activeWindow ≠ 0 then [s.activeWindow] else []
    { s with
      hwnds := s.routes.list.foldl
        (fun hwnds r =>
          if r.hwnd = 0 ∨ r.hwnd = s.activeWindow then hwnds else hwnds ++ [r.hwnd]) first }

/-- The loop of `rb_event_translate_shutdown` over the rest of the list: the window that is closed, and
the head after it. -/
def nextHwnd (s : Shutdown) : List ℕ → ℕ → Option ℕ × ℕ
  | [], head => (none, head)
  | hwnd :: hwnds, head =>
    if hwnd = 0 ∨ s.resolveBackendWindow hwnd = 0 then s.nextHwnd hwnds (head + 1)
    else (some hwnd, head + 1)

def closeMsg (hwnd : ℕ) : RbMsg := ⟨hwnd, wmClose, 0, 0, 0, 0, 0⟩

def translateShutdown (s : Shutdown) : Option RbMsg × Shutdown :=
  match s.nextHwnd (s.hwnds.drop s.head) s.head with
  | (some hwnd, head) => (some (closeMsg hwnd), { s with head := head })
  | (none, head) =>
    if s.forceQuitPending then
      (some ⟨0, wmQuit, 0, 0, 0, 0, 0⟩, { s with head := head, forceQuitPending := false })
    else (none, { s with head := head })

/-- What happens after the shutdown has begun: calls of `rb_event_translate_shutdown`, windows that are
unbound, and handles that are freed. -/
inductive Op where
  | translate
  | unbind (hwnd : ℕ)
  | free (handle : ℕ)

/-- The calls of `rb_event_translate_shutdown`, each with the state before it and its result. -/
def calls : List Op → Shutdown → List (Shutdown × Option RbMsg)
  | [], _ => []
  | .translate :: ops, s => (s, s.translateShutdown.1) :: calls ops s.translateShutdown.2
  | .unbind hwnd :: ops, s => calls ops (s.unbindWindow hwnd)
  | .free handle :: ops, s => calls ops { s with handles := wineHandleFree s.handles handle }

/-! ### What should be delivered -/

open scoped List

def boundWindows (s : Shutdown) : List ℕ := (s.routes.list.filter (·.hwnd ≠ 0)).map WindowRoute.hwnd

def closingOrder (s : Shutdown) : List ℕ :=
  s.boundWindows.filter (· = s.activeWindow) ++ s.boundWindows.filter (· ≠ s.activeWindow)

def closed (calls : List (Shutdown × Option RbMsg)) : List ℕ :=
  (calls.map fun c => c.2.map RbMsg.hwnd).reduceOption

/-- What should hold of the calls after a shutdown has begun in the state `s`. -/
structure DeliversClose (s : Shutdown) (calls : List (Shutdown × Option RbMsg)) : Prop where
  /-- A message closes a window that is bound to a window of the backend. -/
  close : ∀ c ∈ calls, ∀ msg, c.2 = some msg →
    msg = closeMsg msg.hwnd ∧ c.1.resolveBackendWindow msg.hwnd ≠ 0
  /-- The windows that are closed were bound, and come in order. -/
  order : closed calls <+ s.closingOrder
  once : (closed calls).Nodup
  /-- A window that is still bound to a window of the backend is not passed over: when nothing or a later
  window comes, it was closed before. -/
  complete : ∀ before c after hwnd, calls = before ++ c :: after → hwnd ∈ s.boundWindows →
    c.1.resolveBackendWindow hwnd ≠ 0 →
    (∀ msg, c.2 = some msg → [hwnd, msg.hwnd] <+ s.closingOrder) → hwnd ∈ closed before
  /-- After a result of zero all results are zero. -/
  stops : ∀ before c after, calls = before ++ c :: after → c.2 = none → ∀ d ∈ after, d.2 = none
  /-- There is a result of zero after as many calls as there were windows. -/
  ends : s.boundWindows.length < calls.length → ∃ c ∈ calls, c.2 = none

end Shutdown

end Sdl2
