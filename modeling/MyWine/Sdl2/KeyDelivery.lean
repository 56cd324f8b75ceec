import MyWine.Lib.Run
import MyWine.Sdl2.Events

/-!
# Delivery of key events

The messages made from key events should be given to the guest in the order in which the events
entered SDL's queue, one for each event, and the one for Alt+F4 should close the window
(`ExactlyOnce`).

A key event that is noted by the watch is dropped when it comes out of SDL's queue, as long as the
list of noted events holds all key events that are still in SDL's queue (`WatchedOnce`).  It does as
long as the list is not full when an event enters: `noteWatchedKey` makes room by forgetting the
oldest event, which is then translated a second time (`backlog_delivered_twice`).  The watch does not
know about Alt+F4, and the translation that does is not reached for a noted event
(`altF4_not_closed`).  A message for which there is no memory is lost, because the event is noted in
any case.
-/

namespace Sdl2

open Run List
open User32 (RbMsg)

def KeyEvent.AltF4Down (k : KeyEvent) : Prop :=
  k.down = true ∧ k.mod &&& kmodAlt ≠ 0 ∧ k.vk = some vkF4

instance (k : KeyEvent) : Decidable k.AltF4Down :=
  inferInstanceAs (Decidable (_ ∧ _ ∧ _))

namespace Events

def origins (ms : List Tagged) : List KeyEvent := ms.filterMap Tagged.origin

/-- Every key event yields one message, in the order of the events: those that were delivered belong to
the first key events, and to all of them when the queues are empty.  The message of Alt+F4 closes the
window. -/
structure ExactlyOnce (s : Events) : Prop where
  order : origins s.delivered <+: s.entered
  complete : s.sdlQueue = [] → s.syntheticQueue = [] → origins s.delivered = s.entered
  close : ∀ m ∈ s.delivered, ∀ k ∈ m.origin, k.AltF4Down → m.msg.message = wmClose

def Deliverable (s : Events) (a : Arrival) : Prop :=
  ∀ k ∈ a.event.key?, k.vk ≠ none ∧ s.target k.windowID ≠ 0

/-- A key event finds room in the list of noted events and in the synthetic queue, and is not Alt+F4. -/
def Fits (s : Events) (a : Arrival) : Prop :=
  ∀ k ∈ a.event.key?,
    s.keyWatchQueue.length < keyWatchQueueCapacity
      ∧ (s.syntheticQueue.length < s.syntheticCapacity ∨ a.mem = true)
      ∧ ¬ k.AltF4Down

def Arriving (P : Events → Arrival → Prop) (s : Events) (op : Op) : Prop :=
  Along arrive P s (s.arrivals op)

instance (s : Events) (a : Arrival) : Decidable (Deliverable s a) :=
  inferInstanceAs (Decidable (∀ k ∈ a.event.key?, _))

instance (s : Events) (a : Arrival) : Decidable (Fits s a) :=
  inferInstanceAs (Decidable (∀ k ∈ a.event.key?, _))

instance (P : Events → Arrival → Prop) [∀ s a, Decidable (P s a)] (s : Events) (op : Op) :
    Decidable (Arriving P s op) :=
  inferInstanceAs (Decidable (Along arrive P s (s.arrivals op)))

/-! ### Noted events -/

/-- The noted events are the key events in SDL's queue.  The messages that were delivered and those in
the synthetic queue are made from the key events that entered, in their order, and none of these is
Alt+F4. -/
structure WatchedOnce (s : Events) : Prop where
  noted : s.keyWatchQueue = (s.sdlQueue.filterMap SdlEvent.key?).map KeyEvent.watchEntry
  order : origins s.delivered ++ origins s.syntheticQueue = s.entered
  plain : ∀ k ∈ s.entered, ¬ k.AltF4Down

theorem watchedOnce_initial :
  initial.WatchedOnce
  := ⟨rfl, rfl, fun _ hk => absurd hk not_mem_nil⟩

variable {s : Events}

theorem WatchedOnce.exactlyOnce (h : s.WatchedOnce) :
  s.ExactlyOnce
  := by
  constructor
  case order => exact ⟨_, h.order⟩
  case complete =>
    intro _ hempty
    have horder := h.order
    rw [hempty] at horder
    simpa [origins] using horder
  case close =>
    intro m hm k hk hclose
    have hentered : k ∈ s.entered := by
      rw [← h.order]
      apply mem_append_left
      apply mem_filterMap.mpr
      use m, hm, hk
    apply absurd hclose (h.plain k hentered)

@[simp]
theorem origins_append (ms ms' : List Tagged) :
  origins (ms ++ ms') = origins ms ++ origins ms'
  := filterMap_append

@[simp]
theorem origins_none (msg : RbMsg) :
  origins [⟨none, msg⟩] = []
  := rfl

@[simp]
theorem origins_some (k : KeyEvent) (msg : RbMsg) :
  origins [⟨some k, msg⟩] = [k]
  := rfl

theorem post_eq_of_room {mem : Bool}
    (h : s.syntheticQueue.length < s.syntheticCapacity ∨ mem = true) (m : Tagged) :
  ∃ capacity, s.post mem m
    = { s with syntheticQueue := s.syntheticQueue ++ [m], syntheticCapacity := capacity }
  := by
  rw [post, pushSynthetic]
  by_cases hroom : s.syntheticQueue.length + 1 ≤ s.syntheticCapacity
  · use s.syntheticCapacity
    rw [if_pos hroom]
    rfl
  · have hmem : mem = true := h.resolve_left hroom
    rw [if_neg hroom, if_pos hmem]
    exact ⟨_, rfl⟩

theorem post_eq (s : Events) (mem : Bool) (m : Tagged) :
  s.post mem m = s ∨ ∃ capacity, s.post mem m
    = { s with syntheticQueue := s.syntheticQueue ++ [m], syntheticCapacity := capacity }
  := by
  by_cases h : s.syntheticQueue.length < s.syntheticCapacity ∨ mem = true
  · right
    apply post_eq_of_room h
  · left
    obtain ⟨hfull, hmem⟩ := not_or.mp h
    have hfull : ¬ s.syntheticQueue.length + 1 ≤ s.syntheticCapacity := hfull
    rw [post, pushSynthetic, if_neg hfull, if_neg hmem]
    rfl

theorem WatchedOnce.post (h : s.WatchedOnce) (mem : Bool) (msg : RbMsg) :
  (s.post mem ⟨none, msg⟩).WatchedOnce
  := by
  rcases post_eq s mem ⟨none, msg⟩ with heq | ⟨capacity, heq⟩ <;> rw [heq]
  · exact h
  · refine ⟨h.noted, ?_, h.plain⟩
    simpa using h.order

theorem WatchedOnce.withWindows (h : s.WatchedOnce) (routes : List (ℕ × ℕ)) (active : ℕ)
    (alt : Bool) :
  { s with windowRoutes := routes, activeWindow := active, altKeyDown := alt }.WatchedOnce
  := ⟨h.noted, h.order, h.plain⟩

theorem WatchedOnce.queueFocusMessages (h : s.WatchedOnce) (mem : Bool × Bool) (hwnd : ℕ)
    (gained : Bool) :
  (s.queueFocusMessages mem hwnd gained).WatchedOnce
  := by
  rw [Events.queueFocusMessages]
  split
  · exact h
  · apply WatchedOnce.post
    apply h.post

theorem WatchedOnce.activateWindow (h : s.WatchedOnce) (mem : Bool × Bool) (hwnd : ℕ) :
  (s.activateWindow mem hwnd).WatchedOnce
  := by
  rw [Events.activateWindow]
  split
  · exact h
  · apply WatchedOnce.queueFocusMessages
    apply h.withWindows

/-! ### Arrivals -/

theorem watch_key {k : KeyEvent} (hvk : k.vk ≠ none) (htarget : s.target k.windowID ≠ 0)
    (mem : Bool) :
  ∃ msg, s.watch mem (.key k) = (s.post mem ⟨some k, msg⟩).noteWatchedKey k
  := by
  obtain ⟨vk, hvk⟩ := Option.ne_none_iff_exists'.mp hvk
  simp only [watch, hvk, if_neg htarget]
  exact ⟨_, rfl⟩

theorem WatchedOnce.arrive_of_not_key (h : s.WatchedOnce) {a : Arrival}
    (hkey : a.event.key? = none) :
  (s.arrive a).WatchedOnce
  := by
  have hwatch : s.watch a.mem a.event = s := by
    cases hevent : a.event with
    | key k =>
      rw [hevent] at hkey
      cases hkey
    | text _ _ _ | focus _ _ | other _ => rfl
  rw [Events.arrive, hwatch, hkey]
  constructor
  case noted =>
    rw [filterMap_append, filterMap_cons_none hkey]
    simpa using h.noted
  case order => simpa using h.order
  case plain => simpa using h.plain

theorem WatchedOnce.arrive (h : s.WatchedOnce) {a : Arrival} (hdel : Deliverable s a)
    (hfits : Fits s a) :
  (s.arrive a).WatchedOnce
  := by
  obtain ⟨event, mem⟩ := a
  cases event with
  | key k =>
    obtain ⟨hvk, htarget⟩ := hdel k rfl
    obtain ⟨hroom, hmem, hplain⟩ := hfits k rfl
    obtain ⟨msg, hwatch⟩ := watch_key hvk htarget mem
    obtain ⟨capacity, hpost⟩ := post_eq_of_room hmem ⟨some k, msg⟩
    rw [Events.arrive, hwatch, hpost]
    constructor
    case noted =>
      simp only [noteWatchedKey, if_neg (Nat.not_le.mpr hroom)]
      simp [SdlEvent.key?, h.noted]
    case order =>
      simp [noteWatchedKey, SdlEvent.key?, ← h.order]
    case plain =>
      intro k' hk'
      rcases mem_append.mp hk' with hk' | hk'
      · apply h.plain k' hk'
      · rw [mem_singleton.mp hk']
        apply hplain
  | text _ _ _ | focus _ _ | other _ => exact h.arrive_of_not_key rfl

theorem WatchedOnce.pump (h : s.WatchedOnce) {arrivals : List Arrival}
    (hdel : Along Events.arrive Deliverable s arrivals)
    (hfits : Along Events.arrive Fits s arrivals) :
  (s.pump arrivals).WatchedOnce
  := by
  apply (hdel.and hfits).invariant WatchedOnce
  · intro s a hs ha
    apply hs.arrive ha.1 ha.2
  · exact h

/-! ### Messages given to the guest -/

theorem WatchedOnce.deliver_pop {s' : Events} (h : s.WatchedOnce) {m : Tagged}
    (hpop : s.popSynthetic = some (m, s')) :
  (deliver (s', some m)).WatchedOnce
  := by
  rw [popSynthetic] at hpop
  cases hqueue : s.syntheticQueue with
  | nil =>
    rw [hqueue] at hpop
    cases hpop
  | cons m₀ queue =>
    rw [hqueue] at hpop
    cases hpop
    refine ⟨h.noted, ?_, h.plain⟩
    have horder := h.order
    rw [hqueue, ← singleton_append, origins_append] at horder
    rw [deliver, origins_append, append_assoc]
    apply horder

section

variable (h : s.WatchedOnce)
include h

theorem WatchedOnce.popOrNone :
  (deliver s.popOrNone).WatchedOnce
  := by
  rw [Events.popOrNone]
  cases hpop : s.popSynthetic with
  | none => exact h
  | some r => exact h.deliver_pop hpop

theorem WatchedOnce.deliver_other (msg : RbMsg) :
  (deliver (s, some ⟨none, msg⟩)).WatchedOnce
  := by
  refine ⟨h.noted, ?_, h.plain⟩
  simpa [deliver] using h.order

theorem WatchedOnce.translateKeyEvent {k : KeyEvent} {queue : List SdlEvent}
    (hqueue : s.sdlQueue = .key k :: queue) :
  (deliver ({ s with sdlQueue := queue }.translateKeyEvent k)).WatchedOnce
  := by
  have hnoted : s.keyWatchQueue
      = k.watchEntry :: (queue.filterMap SdlEvent.key?).map KeyEvent.watchEntry := by
    rw [h.noted, hqueue]
    rfl
  have hmem : k.watchEntry ∈ s.keyWatchQueue := by
    rw [hnoted]
    apply mem_cons_self
  simp only [Events.translateKeyEvent, takeWatchedKey, if_pos hmem, deliver]
  refine ⟨?_, h.order, h.plain⟩
  rw [hnoted, erase_cons_head]

theorem WatchedOnce.skip {e : SdlEvent} {queue : List SdlEvent}
    (hqueue : s.sdlQueue = e :: queue) (he : e.key? = none) :
  { s with sdlQueue := queue }.WatchedOnce
  := by
  refine ⟨?_, h.order, h.plain⟩
  rw [h.noted, hqueue, filterMap_cons_none he]

theorem WatchedOnce.translateFocusWindowEvent (mem : Bool × Bool)
    (gained : Bool) (hwnd : ℕ) :
  (deliver (s.translateFocusWindowEvent mem gained hwnd)).WatchedOnce
  := by
  rw [Events.translateFocusWindowEvent]
  split
  · exact h
  split
  · apply WatchedOnce.popOrNone
    apply WatchedOnce.queueFocusMessages
    apply h.withWindows
  split
  · apply WatchedOnce.popOrNone
    apply WatchedOnce.withWindows
    apply h.queueFocusMessages
  · exact h

theorem WatchedOnce.next (mem : Bool × Bool) :
  (deliver (s.next mem)).WatchedOnce
  := by
  rw [Events.next]
  cases hqueue : s.sdlQueue with
  | nil => exact h
  | cons e queue =>
    cases e with
    | key k => apply h.translateKeyEvent hqueue
    | text windowID char timestamp =>
      simp only [translateSdlEvent]
      split
      · apply h.skip hqueue rfl
      · apply (h.skip hqueue rfl).deliver_other
    | focus gained windowID =>
      apply (h.skip hqueue rfl).translateFocusWindowEvent
    | other msg =>
      cases msg with
      | none => apply h.skip hqueue rfl
      | some msg => apply (h.skip hqueue rfl).deliver_other

end

/-! ### Runs -/

theorem WatchedOnce.peek (h : s.WatchedOnce) {r : Round} (hdel : Arriving Deliverable s (.peek r))
    (hfits : Arriving Fits s (.peek r)) :
  (deliver (s.peek r)).WatchedOnce
  := by
  have hpump : (s.pump r.arrivals).WatchedOnce := h.pump hdel hfits
  rw [Events.peek]
  cases hpop : (s.pump r.arrivals).popSynthetic with
  | some p => apply hpump.deliver_pop hpop
  | none =>
    cases r.close with
    | some m => apply hpump.deliver_other
    | none => apply hpump.next

theorem WatchedOnce.waitRound (h : s.WatchedOnce) {r : Round}
    (hdel : Arriving Deliverable s (.waitRound r)) (hfits : Arriving Fits s (.waitRound r)) :
  (deliver (s.waitRound r)).WatchedOnce
  := by
  rw [Events.waitRound]
  cases hpop : s.popSynthetic with
  | some p => apply h.deliver_pop hpop
  | none =>
    have hempty : s.syntheticQueue = [] := by
      rw [popSynthetic] at hpop
      cases hqueue : s.syntheticQueue with
      | nil => rfl
      | cons m queue =>
        rw [hqueue] at hpop
        cases hpop
    cases hclose : r.close with
    | some m => apply h.deliver_other
    | none =>
      -- only a round that finds no message lets events in
      rw [Arriving, arrivals, if_pos ⟨hempty, hclose⟩] at hdel hfits
      apply WatchedOnce.next
      apply h.pump hdel hfits

theorem WatchedOnce.step (h : s.WatchedOnce) {op : Op} (hdel : Arriving Deliverable s op)
    (hfits : Arriving Fits s op) :
  (s.step op).WatchedOnce
  := by
  cases op with
  | pump arrivals => apply h.pump hdel hfits
  | peek r => apply h.peek hdel hfits
  | waitRound r => apply h.waitRound hdel hfits
  | push msg mem => apply h.post
  | activate hwnd mem => apply h.activateWindow
  | reroute routes active => apply h.withWindows

/-- In a run in which every key event has a virtual key and a window, finds room when it enters SDL's
queue and is not Alt+F4, each key event is delivered once and in order. -/
theorem key_events_exactly_once
    {ops : List Op} (hdel : Along step (Arriving Deliverable) initial ops)
    (hfits : Along step (Arriving Fits) initial ops) :
  (ops.foldl step initial).ExactlyOnce
  := by
  apply WatchedOnce.exactlyOnce
  apply (hdel.and hfits).invariant WatchedOnce
  · intro s op hs hop
    apply hs.step hop.1 hop.2
  · exact watchedOnce_initial

def openWindow : Op := .reroute [(0x10001, 1)] 0x10001

def poll : Op := .peek ⟨[], none, (true, true)⟩

def keyA (down : Bool) (timestamp : ℕ) : KeyEvent := ⟨down, timestamp, 1, 4, 97, 0, false⟩

def altF4 : KeyEvent := ⟨true, 10, 1, 61, scancodeToKeycode 61, 0x100, false⟩

def pressAndRelease : List Op :=
  [openWindow, .pump [⟨.key (keyA true 1), true⟩], poll, poll,
    .waitRound ⟨[⟨.text 1 97 1, true⟩, ⟨.key (keyA false 5), true⟩], none, (true, true)⟩, poll, poll]

theorem key_events_exactly_once_pressAndRelease :
  (Along step (Arriving Deliverable) initial pressAndRelease
      ∧ Along step (Arriving Fits) initial pressAndRelease)
    ∧ (pressAndRelease.foldl step initial).ExactlyOnce
    ∧ origins (pressAndRelease.foldl step initial).delivered = [keyA true 1, keyA false 5]
  := by
  have hdel : Along step (Arriving Deliverable) initial pressAndRelease := by decide
  have hfits : Along step (Arriving Fits) initial pressAndRelease := by decide
  refine ⟨⟨hdel, hfits⟩, ?_, ?_⟩
  · exact key_events_exactly_once hdel hfits
  · decide

/-! ### What goes wrong -/

def pressAltF4 : List Op := [openWindow, .pump [⟨.key altF4, true⟩], poll, poll]

theorem altF4_not_closed :
  Along step (Arriving Deliverable) initial pressAltF4
    ∧ altF4.AltF4Down
    ∧ (pressAltF4.foldl step initial).delivered
        = [⟨some altF4, keyMessage false altF4 vkF4 0x10001⟩]
    ∧ (keyMessage false altF4 vkF4 0x10001).message = User32.wmSyskeydown
    ∧ (pressAltF4.foldl step initial).sdlQueue = []
  := by
  decide

def backlog (n polls : ℕ) : List Op :=
  openWindow :: .pump ((List.range n).map fun i => ⟨.key (keyA (i % 2 = 0) i), true⟩)
    :: List.replicate polls poll

theorem backlog_delivered_twice :
  Along step (Arriving Deliverable) initial (backlog 65 66)
    ∧ origins ((backlog 65 66).foldl step initial).delivered
        = ((backlog 65 66).foldl step initial).entered ++ [keyA true 0]
  := by
  decide +kernel

/-- Alt+F4 and a long backlog are not delivered as they should be. -/
theorem key_events_not_exactly_once :
  (Along step (Arriving Deliverable) initial pressAltF4
      ∧ ¬ (pressAltF4.foldl step initial).ExactlyOnce)
    ∧ Along step (Arriving Deliverable) initial (backlog 65 66)
    ∧ ¬ ((backlog 65 66).foldl step initial).ExactlyOnce
  := by
  obtain ⟨hdel, haltF4, hdelivered, hmessage, -⟩ := altF4_not_closed
  obtain ⟨hdel', htwice⟩ := backlog_delivered_twice
  refine ⟨⟨hdel, ?_⟩, hdel', ?_⟩
  · intro h
    have hclose := h.close ⟨some altF4, keyMessage false altF4 vkF4 0x10001⟩
      (by rw [hdelivered]; apply mem_singleton_self) altF4 rfl haltF4
    rw [hmessage] at hclose
    exact absurd hclose (by decide)
  · intro h
    have hlength := h.order.length_le
    rw [htwice, length_append, length_singleton] at hlength
    omega

end Events

end Sdl2
