import MyWine.User32.MessageConservation

/-!
# The message queues as lists

The functions of `msvcrt/user32_message_queue.c` on a queue of any capacity are the operations on the
list of its messages, as long as its slots fit in an `int` (`queue_refines_list`).  The sums of slots
then fit in a `size_t` on both builds.  A message that
`PeekMessageA` has left in the queues is the one that the next call removes (`peek_then_remove`).
-/

namespace User32

open List Option

/-! ### One queue -/

section

variable {n : ℕ} (alive : ℕ → Bool) (f : MsgFilter) (remove : Bool) (q : RingBuffer Arrival n)

/-- `user32_queue_find_matching`, which returns the slot as an `int`. -/
def queueFindMatching : ℤ :=
  match q.find (messageMatchesFilter alive f) with
  | some i => Int.bmod i (2 ^ 32)
  | none => -1

def queueTakeAt (matchIdx : ℤ) : Option (Arrival × RingBuffer Arrival n) :=
  if q.count = 0 ∨ matchIdx < 0 then none
  else some (q.slots matchIdx.toNat, if remove then q.take matchIdx.toNat else q)

theorem queueTakeAt_queueFindMatching (hn : n ≤ 2 ^ 31) :
  queueTakeAt remove q (queueFindMatching alive f q) =
    q.takeFirst remove (messageMatchesFilter alive f)
  := by
  rw [queueFindMatching, RingBuffer.takeFirst]
  cases hfind : q.find (messageMatchesFilter alive f) with
  | none => simp [queueTakeAt]
  | some i =>
    obtain ⟨k, hk, rfl, -⟩ := RingBuffer.find_eq_some hfind
    have hcount := q.count_le
    have hlt : q.index k < n := Nat.mod_lt _ (by omega)
    have hint : Int.bmod (q.index k) (2 ^ 32) = q.index k := by
      apply Int.bmod_eq_of_le <;> omega
    simp only [hint, queueTakeAt, if_neg (show ¬ (q.count = 0 ∨ (q.index k : ℤ) < 0) by omega),
      Int.toNat_natCast, map_some]

/-- The queue stays at its head.  The message that is taken is moved out in less than `n` rounds. -/
theorem queue_refines_list (hn : n ≤ 2 ^ 31) (a : Arrival) :
  let p := messageMatchesFilter alive f
  let taken := queueTakeAt remove q (queueFindMatching alive f q)
  let kept := q.keep (messageTargetAlive alive)
  (q.push a = none ↔ q.toList.length = n) ∧
    (∀ q' ∈ q.push a, q'.head = q.head ∧ q'.toList = q.toList ++ [a]) ∧
    (taken = none ↔ q.toList.find? p = none) ∧
    (∀ r ∈ taken, q.toList.find? p = some r.1 ∧ r.2.head = q.head ∧
      r.2.toList = if remove then q.toList.eraseP p else q.toList) ∧
    (∀ i ∈ q.find p, ∃ m < n, (i + m) % n = (q.head + q.count - 1) % n) ∧
    kept.head = q.head ∧ kept.toList = q.toList.filter (messageTargetAlive alive)
  := by
  have hcount := q.count_le
  simp only [queueTakeAt_queueFindMatching alive f remove q hn, RingBuffer.push_eq_none_iff,
    RingBuffer.length_toList, RingBuffer.takeFirst_eq_none_iff]
  refine ⟨by omega, ?_, trivial, ?_, ?_, rfl, RingBuffer.toList_keep _ q⟩
  · intro q' hpush
    refine ⟨?_, RingBuffer.toList_push hpush⟩
    rw [RingBuffer.push, Option.mem_def] at hpush
    split_ifs at hpush
    cases hpush
    rfl
  · intro r htake
    obtain ⟨hfind, hlist⟩ := RingBuffer.takeFirst_eq_some htake
    refine ⟨hfind, ?_, hlist⟩
    obtain ⟨i, -, rfl⟩ := Option.map_eq_some_iff.mp htake
    cases remove <;> rfl
  · intro i hfind
    obtain ⟨k, hk, rfl, -⟩ := RingBuffer.find_eq_some hfind
    use q.count - 1 - k, by omega
    rw [RingBuffer.index, Nat.mod_add_mod]
    congr 1
    omega

end

/-- A queue in the slots 3, 0 and 1 of four. -/
def wrappedQueue : RingBuffer Arrival 4 where
  slots
    | 3 => ⟨⟨1, wmKeydown, 65, 0, 0, 0, 0⟩, .posted, 0⟩
    | 0 => ⟨⟨2, wmKeyup, 65, 0, 0, 0, 0⟩, .posted, 1⟩
    | _ => ⟨⟨3, wmKeyup, 66, 0, 0, 0, 0⟩, .posted, 2⟩
  head := 3
  head_lt := by decide
  count := 3
  count_le := by decide

/-- The second message is taken out of the middle, and the first one is discarded with its window. -/
theorem queue_refines_list_wrappedQueue :
  let alive : ℕ → Bool := (· ≠ 1)
  let f : MsgFilter := ⟨0, wmKeyup, wmKeyup⟩
  let taken := queueTakeAt true wrappedQueue (queueFindMatching alive f wrappedQueue)
  4 ≤ 2 ^ 31 ∧ taken.isSome ∧ (∀ r ∈ taken, r.2.toList.map (·.serial) = [0, 2]) ∧
    (wrappedQueue.keep (messageTargetAlive alive)).toList.map (·.serial) = [1, 2]
  := by
  intro alive f taken
  have hn : 4 ≤ 2 ^ 31 := by decide
  obtain ⟨-, -, hnone, htaken, -, -, hkept⟩ :=
    queue_refines_list alive f true wrappedQueue hn ⟨⟨0, wmQuit, 0, 0, 0, 0, 0⟩, .posted, 3⟩
  refine ⟨hn, ?_, ?_, ?_⟩
  · rw [Option.isSome_iff_ne_none, Ne, hnone]
    decide
  · intro r hr
    rw [(htaken r hr).2.2]
    decide
  · rw [hkept]
    decide

/-- A queue with one message, in the slot `2 ^ 31`. -/
def longQueue : RingBuffer Arrival (2 ^ 31 + 1) :=
  ⟨fun _ => ⟨⟨0, wmQuit, 0, 0, 0, 0, 0⟩, .posted, 0⟩, 2 ^ 31, by decide, 1, by decide⟩

theorem longQueue_not_taken :
  queueTakeAt true longQueue (queueFindMatching (fun _ => true) ⟨0, 0, 0⟩ longQueue) = none ∧
    (longQueue.toList.find? (messageMatchesFilter (fun _ => true) ⟨0, 0, 0⟩)).isSome
  := by
  decide

/-! ### Peeking -/

/-- The message that a call finds in a queue. -/
def found (f : MsgFilter) (s : MsgState) (source : Source) : Option Arrival :=
  (liveMessages s.alive (s.queue source)).find? (messageMatchesFilter s.alive f)

/-- The message that a call finds in the queues. -/
def firstFound (f : MsgFilter) (s : MsgState) : Option Arrival :=
  (found f s .posted).or (found f s .backend)

section

variable {f : MsgFilter} {s s' : MsgState} {a : Arrival}

theorem Taken.found {source : Source} {r : Option Arrival} (h : Taken source false f s r s') :
  found f s' = found f s
  := by
  funext source'
  have hlive : liveMessages s'.alive (s'.queue source') = liveMessages s.alive (s.queue source') := by
    rw [h.alive]
    by_cases hsource : source' = source
    · rw [hsource, liveMessages, h.queue, if_neg Bool.false_ne_true]
      apply filter_eq_self.mpr
      intro a ha
      exact (mem_filter.mp ha).2
    · rw [h.other source' hsource]
  rw [User32.found, hlive, h.alive]
  rfl

theorem firstFound_push {q : RingBuffer Arrival queueCapacity} (hnone : firstFound f s = none)
    (halive : messageTargetAlive s.alive a = true) (hpush : (s.queue .backend).push a = some q) :
  firstFound f (s.setQueue .backend q) = if messageMatchesFilter s.alive f a then some a else none
  := by
  obtain ⟨hposted, hbackend⟩ := or_eq_none_iff.mp hnone
  have hposted' : found f (s.setQueue .backend q) .posted = none := hposted
  rw [firstFound, hposted', none_or, found, MsgState.queue_setQueue, liveMessages,
    RingBuffer.toList_push hpush, filter_append, find?_append]
  apply (congrArg (Option.or · _) hbackend).trans
  rw [none_or]
  simp only [MsgState.setQueue, filter_cons, halive, if_true, filter_nil, find?_cons, find?_nil]
  split <;> simp_all

theorem fetchLoop_firstFound (incoming : List RbMsg) (hnone : firstFound f s = none)
    (hfetch : fetchLoop false f incoming s = (some a, s')) :
  firstFound f s' = some a ∧ s'.quitPending = s.quitPending
  := by
  induction incoming generalizing s with
  | nil => cases hfetch
  | cons msg incoming ih =>
    simp only [fetchLoop] at hfetch
    by_cases hzero : msg.message = 0
    · simp [hzero] at hfetch
    rw [if_neg hzero] at hfetch
    cases halive : messageTargetAlive s.alive (s.arrival .backend msg) with
    | false =>
      rw [halive, Bool.not_false, if_pos rfl] at hfetch
      apply ih _ hfetch
      exact hnone
    | true =>
      cases hpush : (s.queue .backend).push (s.arrival .backend msg) with
      | none => simp [halive, hpush] at hfetch
      | some q =>
        have hfirst := firstFound_push hnone halive hpush
        simp only [halive, hpush, Bool.not_true, Bool.false_eq_true, if_false] at hfetch
        split_ifs at hfetch hfirst
        · cases hfetch
          exact ⟨hfirst, rfl⟩
        · apply ih _ hfetch
          exact hfirst

theorem MsgState.quitPending_take (source : Source) (remove : Bool) (f : MsgFilter) (s : MsgState) :
  (s.take source remove f).2.quitPending = s.quitPending
  := by
  simp only [MsgState.take, MsgState.deliver]
  split
  · rfl
  · cases remove <;> rfl

theorem fetchQueuedMessage_eq (remove : Bool) (f : MsgFilter) (incoming : List RbMsg) (s : MsgState) :
  ∃ s₂, (remove = false → found f s₂ = found f s) ∧ s₂.quitPending = s.quitPending ∧
    fetchQueuedMessage remove f incoming s =
      match firstFound f s with
      | some a => (some a, s₂)
      | none => fetchLoop remove f incoming s₂
  := by
  have hposted := s.taken .posted remove f
  have hquit := s.quitPending_take .posted remove f
  rw [fetchQueuedMessage, firstFound, found, ← hposted.result]
  generalize s.take .posted remove f = r at hposted hquit ⊢
  obtain ⟨_ | a, s₁⟩ := r
  · have hbackend := s₁.taken .backend remove f
    have hresult := hbackend.result
    rw [hposted.alive, hposted.other .backend (by decide), ← found] at hresult
    rw [none_or, ← hresult]
    use (s₁.take .backend remove f).2
    refine ⟨?_, (s₁.quitPending_take .backend remove f).trans hquit, ?_⟩
    · rintro rfl
      rw [hbackend.found, hposted.found]
    · cases hr : s₁.take .backend remove f with
      | mk r s₂ => cases r <;> simp only [hr]
  · use s₁
    refine ⟨?_, hquit, rfl⟩
    rintro rfl
    exact hposted.found

theorem fetchQueuedMessage_firstFound {incoming : List RbMsg}
    (hfetch : fetchQueuedMessage false f incoming s = (some a, s')) :
  firstFound f s' = some a ∧ s'.quitPending = s.quitPending
  := by
  obtain ⟨s₂, hfound, hquit, heq⟩ := fetchQueuedMessage_eq false f incoming s
  have hfirst : firstFound f s₂ = firstFound f s := by
    rw [firstFound, hfound rfl, firstFound]
  rw [← hquit]
  rw [hfetch] at heq
  cases h : firstFound f s with
  | none =>
    rw [h] at heq hfirst
    apply fetchLoop_firstFound incoming hfirst heq.symm
  | some a =>
    rw [h] at heq hfirst
    cases heq
    exact ⟨hfirst, rfl⟩

end

/-- Between the two calls the backend may have got new events. -/
theorem peek_then_remove (b : Build) {lpMsg lpMsg' : Ptr} {f : MsgFilter}
    {wRemoveMsg wRemoveMsg' : ℕ}
    {incoming : List RbMsg} {s s' : MsgState} {msg : Option RbMsg} (hkeep : wRemoveMsg &&& 1 = 0)
    (hpeek : peekMessageA b lpMsg f wRemoveMsg incoming s = (true, msg, s'))
    (hremove : wRemoveMsg' &&& 1 ≠ 0) (hmsg : lpMsg' ≠ 0) (incoming' : List RbMsg) :
  ∃ s'', peekMessageA b lpMsg' f wRemoveMsg' incoming' s' = (true, msg, s'')
  := by
  simp only [peekMessageA, synthesizeQuitMessage, hkeep, hremove, hmsg, if_false, ne_eq, not_true,
    not_false_eq_true, decide_true, decide_false, if_true, Bool.false_eq_true] at hpeek ⊢
  split_ifs at hpeek with hnull hquit
  · cases hpeek
  · cases hpeek
    rw [if_pos hquit]
    exact ⟨_, rfl⟩
  · cases hfetch : fetchQueuedMessage false f incoming s with
    | mk r s₁ =>
      cases r with
      | none => simp [hfetch] at hpeek
      | some a =>
        simp only [hfetch] at hpeek
        cases hpeek
        obtain ⟨hfirst, hquit'⟩ := fetchQueuedMessage_firstFound hfetch
        obtain ⟨s₂, -, -, heq⟩ := fetchQueuedMessage_eq true f incoming' s'
        rw [if_neg (hquit' ▸ hquit), heq, hfirst]
        exact ⟨s₂, rfl⟩

theorem peek_then_remove_key :
  let key : RbMsg := ⟨0, wmKeydown, 65, 0, 0, 0, 0⟩
  let peeked := peekMessageA .i386 1 ⟨0, 0, 0⟩ 0 [key] (MsgState.start fun _ => true)
  ∃ s, peekMessageA .i386 1 ⟨0, 0, 0⟩ 1 [] peeked.2.2 = (true, some key, s)
  := by
  intro key peeked
  have hpeek : peeked = (true, some key, peeked.2.2) := rfl
  exact peek_then_remove .i386 (by decide) hpeek (by decide) (by decide) []

end User32
