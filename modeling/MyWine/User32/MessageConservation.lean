import Mathlib.Data.List.Nodup
import MyWine.Lib.Run
import MyWine.User32.MessageQueue

/-!
# Conservation of messages

A message that has been accepted is delivered once, still queued, or discarded because its window is
gone, unless the call that took it from the backend could not keep it.  That is so when the queue for
the messages of the backend is full, and for `WM_NULL`, which the calls take for no message.  So the
messages are conserved exactly along the runs in which there is room for every message that has to be
kept (`messages_conserved_iff`).  Each filter delivers the messages of one source in the order of their
arrival.
-/

namespace User32

open Function List Option

/-! ### Runs -/

/-- A call of the guest, or a change of the windows.  The calls that look for messages come with the
messages that the backend has. -/
inductive MsgCall where
  | post (hwnd message wParam : ℕ) (lParam : ℤ)
  | postQuit (exitCode : ℤ)
  | get (lpMsg : Ptr) (f : MsgFilter) (incoming : List RbMsg)
  | peek (lpMsg : Ptr) (f : MsgFilter) (wRemoveMsg : ℕ) (incoming : List RbMsg)
  | windows (alive : ℕ → Bool)

def msgStep (b : Build) (s : MsgState) : MsgCall → MsgState
  | .post hwnd message wParam lParam => (postMessageA hwnd message wParam lParam s).2
  | .postQuit exitCode => postQuitMessage exitCode s
  | .get lpMsg f incoming => (getMessageA b lpMsg f incoming s).2.2
  | .peek lpMsg f wRemoveMsg incoming => (peekMessageA b lpMsg f wRemoveMsg incoming s).2.2
  | .windows alive => { s with alive }

/-- The search for a message that a call makes, if it makes one: whether it removes the message, the
filter, and the messages that the backend has. -/
def MsgCall.fetch (s : MsgState) : MsgCall → Option (Bool × MsgFilter × List RbMsg)
  | .get lpMsg f incoming => if lpMsg = 0 ∨ s.quitPending then none else some (true, f, incoming)
  | .peek lpMsg f wRemoveMsg incoming =>
    if lpMsg = 0 ∨ s.quitPending then none else some (wRemoveMsg &&& 1 ≠ 0, f, incoming)
  | _ => none

def MsgCall.removed (s : MsgState) (call : MsgCall) : Option Arrival :=
  match call.fetch s with
  | some (true, f, incoming) => (fetchQueuedMessage true f incoming s).1
  | _ => none

def Conserved (s : MsgState) : Prop :=
  s.arrived.Nodup ∧ s.arrived.Perm (s.delivered ++ s.discarded ++ s.queued)

/-- Of the messages with the source of `a` that are queued, none that matches the filter is older. -/
def Oldest (f : MsgFilter) (a : Arrival) (s : MsgState) : Prop :=
  ∀ a' ∈ s.queued, a'.source = a.source → a'.serial < a.serial →
    messageMatchesFilter s.alive f a' = false

/-- After the call the messages are conserved.  The call has delivered the message that it removes,
which is the oldest one of its source that matches, and has discarded none whose window is there. -/
structure MessagesOk (b : Build) (s : MsgState) (call : MsgCall) : Prop where
  conserved : Conserved (msgStep b s call)
  delivered : (msgStep b s call).delivered = s.delivered ++ (call.removed s).toList
  discarded : ∃ dead, (msgStep b s call).discarded = s.discarded ++ dead ∧
    ∀ a ∈ dead, messageTargetAlive s.alive a = false
  inOrder : ∀ f incoming, call.fetch s = some (true, f, incoming) → ∀ a ∈ call.removed s,
    Oldest f a (msgStep b s call)

section

variable (alive : ℕ → Bool)

/-- None of the messages of the backend up to the first one that is delivered is `WM_NULL`, and there
is room for those that have to be kept. -/
def Fits (remove : Bool) (f : MsgFilter) : ℕ → List RbMsg → Prop
  | _, [] => True
  | room, msg :: incoming =>
    let a : Arrival := ⟨msg, .backend, 0⟩
    msg.message ≠ 0 ∧
      if !messageTargetAlive alive a then Fits remove f room incoming
      else if messageMatchesFilter alive f a then remove = true ∨ 0 < room
      else 0 < room ∧ Fits remove f (room - 1) incoming

def liveMessages (q : RingBuffer Arrival queueCapacity) : List Arrival :=
  q.toList.filter (messageTargetAlive alive)

end

/-- If the call has to ask the backend, because no message that is queued matches, then it can keep
what it has to. -/
def Room (s : MsgState) (call : MsgCall) : Prop :=
  ∀ remove f incoming, call.fetch s = some (remove, f, incoming) →
    (∀ source, (liveMessages s.alive (s.queue source)).find? (messageMatchesFilter s.alive f) = none) →
    Fits s.alive remove f (queueCapacity - (liveMessages s.alive (s.queue .backend)).length) incoming

/-! ### The log -/

/-- The serial numbers are those of the arrivals, and no accepted message is missing from the log and
the queues.  Each queue holds the messages of its source, in the order of their arrival. -/
structure Logged (s : MsgState) : Prop where
  serial : s.arrived.map Arrival.serial = List.range s.arrived.length
  perm : s.arrived.Perm (s.delivered ++ s.discarded ++ s.queued ++ s.lost)
  source : ∀ source, ∀ a ∈ (s.queue source).toList, a.source = source
  order : ∀ source, (s.queue source).toList.Pairwise fun a a' => a.serial < a'.serial

section

variable {s : MsgState} {remove : Bool} {f : MsgFilter}

theorem Logged.nodup (h : Logged s) :
  s.arrived.Nodup
  := by
  apply List.Nodup.of_map Arrival.serial
  rw [h.serial]
  apply nodup_range

theorem Logged.conserved_iff (h : Logged s) :
  Conserved s ↔ s.lost = []
  := by
  constructor
  · intro hconserved
    have hlength := hconserved.2.length_eq.symm.trans h.perm.length_eq
    simp only [length_append] at hlength
    apply eq_nil_of_length_eq_zero
    omega
  · intro hlost
    use h.nodup
    have hperm := h.perm
    rw [hlost, append_nil] at hperm
    exact hperm

variable {a : Arrival} {source : Source} {s' : MsgState}

theorem Logged.serial_lt (h : Logged s) (ha : a ∈ (s.queue source).toList) :
  a.serial < s.arrived.length
  := by
  have harrived : a ∈ s.arrived := by
    rw [h.perm.mem_iff, MsgState.queued]
    simp only [mem_append]
    cases source with
    | posted => exact Or.inl (Or.inr (Or.inl ha))
    | backend => exact Or.inl (Or.inr (Or.inr ha))
  have hmem := mem_map_of_mem (f := Arrival.serial) harrived
  rw [h.serial] at hmem
  apply mem_range.mp hmem

theorem Logged.serial_arrival (h : Logged s) (source : Source) (msg : RbMsg) :
  (s.arrived ++ [s.arrival source msg]).map Arrival.serial =
    List.range (s.arrived ++ [s.arrival source msg]).length
  := by
  rw [map_append, h.serial, length_append, length_singleton, range_succ]
  rfl

/-- The log is kept by a state with the same queues in which another message has been accepted and is
accounted for. -/
theorem Logged.arrive (h : Logged s) (source : Source) (msg : RbMsg) (hqueue : s'.queue = s.queue)
    (harrived : s'.arrived = s.arrived ++ [s.arrival source msg])
    (hperm : (s'.delivered ++ s'.discarded ++ s'.lost).Perm
      (s.delivered ++ s.discarded ++ s.lost ++ [s.arrival source msg])) :
  Logged s'
  := by
  constructor
  · rw [harrived]
    apply h.serial_arrival
  · have hold := h.perm
    rw [perm_iff_count] at hold hperm ⊢
    intro a
    have hold := hold a
    have hperm := hperm a
    simp only [MsgState.queued, hqueue, harrived, count_append] at hold hperm ⊢
    omega
  · rw [hqueue]
    exact h.source
  · rw [hqueue]
    exact h.order

theorem Logged.push (h : Logged s) {msg : RbMsg} {q : RingBuffer Arrival queueCapacity}
    (hpush : (s.queue source).push (s.arrival source msg) = some q) :
  Logged { s.setQueue source q with arrived := s.arrived ++ [s.arrival source msg] }
  := by
  have hlist := RingBuffer.toList_push hpush
  constructor
  · apply h.serial_arrival
  · have hold := h.perm
    rw [perm_iff_count] at hold ⊢
    intro a
    have hold := hold a
    cases source <;>
    · simp only [MsgState.queued, MsgState.setQueue, update_self, ne_eq, reduceCtorEq,
        not_false_eq_true, update_of_ne, hlist, count_append] at hold ⊢
      omega
  · intro source' a ha
    by_cases hsource : source' = source
    · subst hsource
      simp only [MsgState.setQueue, update_self, hlist, mem_append,
        mem_singleton] at ha
      rcases ha with ha | rfl
      · apply h.source source' a ha
      · rfl
    · simp only [MsgState.setQueue, update_of_ne hsource] at ha
      apply h.source source' a ha
  · intro source'
    by_cases hsource : source' = source
    · subst hsource
      simp only [MsgState.setQueue, update_self, hlist, pairwise_append,
        pairwise_singleton, mem_singleton, true_and]
      use h.order source'
      rintro a ha a' rfl
      apply h.serial_lt ha
    · simp only [MsgState.setQueue, update_of_ne hsource]
      apply h.order source'

/-! ### Taking a message from a queue -/

/-- The message that is taken from a queue is the first one that matches, of those whose windows are
there, and only these are left. -/
theorem takeMatching_eq (alive : ℕ → Bool) (remove : Bool) (f : MsgFilter)
    (q : RingBuffer Arrival queueCapacity) :
  let r := takeMatching alive remove f q
  r.1 = (liveMessages alive q).find? (messageMatchesFilter alive f) ∧
    r.2.toList = if remove then (liveMessages alive q).eraseP (messageMatchesFilter alive f)
      else liveMessages alive q
  := by
  have hkeep := RingBuffer.toList_keep (messageTargetAlive alive) q
  rw [← liveMessages] at hkeep
  simp only [takeMatching]
  cases htake : (q.keep (messageTargetAlive alive)).takeFirst remove (messageMatchesFilter alive f) with
  | none =>
    rw [RingBuffer.takeFirst_eq_none_iff, hkeep] at htake
    use htake.symm
    have hnone := List.find?_eq_none.mp htake
    rw [eraseP_of_forall_not hnone, ite_self]
    exact hkeep
  | some r =>
    obtain ⟨a, q'⟩ := r
    obtain ⟨hfind, hlist⟩ := RingBuffer.takeFirst_eq_some htake
    rw [hkeep] at hfind hlist
    exact ⟨hfind.symm, hlist⟩

/-- What is left of a list in order when the first element with a property is erased has no older one
with the property. -/
theorem not_of_mem_eraseP {p : Arrival → Bool} {l : List Arrival}
    (horder : l.Pairwise fun a a' => a.serial < a'.serial) (hfind : l.find? p = some a)
    {a' : Arrival} (ha' : a' ∈ l.eraseP p) (hlt : a'.serial < a.serial) :
  p a' = false
  := by
  obtain ⟨hp, before, after, rfl, hbefore⟩ := List.find?_eq_some_iff_append.mp hfind
  have hbefore' : ∀ x ∈ before, ¬ p x = true := by
    intro x hx
    simpa using hbefore x hx
  rw [eraseP_append_right _ hbefore', eraseP_cons_of_pos hp, mem_append] at ha'
  rcases ha' with ha' | ha'
  · simpa using hbefore' a' ha'
  · rw [pairwise_append, pairwise_cons] at horder
    have hgt := horder.2.1.1 a' ha'
    omega

/-- What `MsgState.take` does to the state. -/
structure Taken (source : Source) (remove : Bool) (f : MsgFilter) (s : MsgState) (r : Option Arrival)
    (s' : MsgState) : Prop where
  result : r = (liveMessages s.alive (s.queue source)).find? (messageMatchesFilter s.alive f)
  queue : (s'.queue source).toList =
    if remove then (liveMessages s.alive (s.queue source)).eraseP (messageMatchesFilter s.alive f)
      else liveMessages s.alive (s.queue source)
  other : ∀ source', source' ≠ source → s'.queue source' = s.queue source'
  delivered : s'.delivered = s.delivered ++ if remove then r.toList else []
  discarded : s'.discarded = s.discarded ++ deadMessages s.alive (s.queue source)
  arrived : s'.arrived = s.arrived
  lost : s'.lost = s.lost
  alive : s'.alive = s.alive

theorem MsgState.taken (source : Source) (remove : Bool) (f : MsgFilter) (s : MsgState) :
  Taken source remove f s (s.take source remove f).1 (s.take source remove f).2
  := by
  obtain ⟨hresult, hlist⟩ := takeMatching_eq s.alive remove f (s.queue source)
  simp only [MsgState.take]
  rw [hresult]
  cases hfind : (liveMessages s.alive (s.queue source)).find? (messageMatchesFilter s.alive f) with
  | none =>
    constructor <;> simp only [MsgState.setQueue, update_self, hfind, hlist]
    · intro source' hne
      apply update_of_ne hne
    · simp
  | some a =>
    cases remove <;>
    · constructor <;> simp only [MsgState.deliver, MsgState.setQueue, update_self, hfind,
        hlist, if_true, if_false, Bool.false_eq_true, toList_some, append_nil]
      intro source' hne
      apply update_of_ne hne

section

variable {source : Source} {r : Option Arrival} {s' : MsgState}

theorem Taken.sublist (h : Taken source remove f s r s') (source' : Source) :
  ((s'.queue source').toList).Sublist (s.queue source').toList
  := by
  by_cases hsource : source' = source
  · subst hsource
    rw [h.queue]
    split_ifs
    · exact (eraseP_sublist).trans filter_sublist
    · exact filter_sublist
  · rw [h.other source' hsource]

theorem Taken.count (h : Taken source remove f s r s') (a : Arrival) :
  (s.queue source).toList.count a = (deadMessages s.alive (s.queue source)).count a +
    ((if remove then r.toList else []).count a + (s'.queue source).toList.count a)
  := by
  have hsplit : (s.queue source).toList.count a =
      (liveMessages s.alive (s.queue source)).count a +
        (deadMessages s.alive (s.queue source)).count a := by
    rw [← count_append]
    apply List.Perm.count_eq
    exact (filter_append_perm _ _).symm
  rw [hsplit, h.queue, h.result]
  cases remove with
  | false =>
    simp only [Bool.false_eq_true, if_false, count_nil]
    omega
  | true =>
    simp only [if_true]
    cases hfind : (liveMessages s.alive (s.queue source)).find? (messageMatchesFilter s.alive f) with
    | none =>
      rw [eraseP_of_forall_not (List.find?_eq_none.mp hfind), toList_none,
        count_nil]
      omega
    | some a' =>
      obtain ⟨hp, before, after, heq, hbefore⟩ := List.find?_eq_some_iff_append.mp hfind
      have hbefore' : ∀ x ∈ before, ¬ messageMatchesFilter s.alive f x = true := by
        intro x hx
        simpa using hbefore x hx
      rw [heq, eraseP_append_right _ hbefore', eraseP_cons_of_pos hp, toList_some]
      simp only [count_append, count_cons, count_nil]
      omega

theorem Taken.logged (h : Taken source remove f s r s') (hlog : Logged s) :
  Logged s'
  := by
  constructor
  · rw [h.arrived]
    exact hlog.serial
  · have hold := hlog.perm
    rw [perm_iff_count] at hold ⊢
    intro a
    have hold := hold a
    have hcount := h.count a
    have hother := h.other
    cases source with
    | posted =>
      have hbackend := hother .backend (by simp)
      simp only [MsgState.queued, h.arrived, h.delivered, h.discarded, h.lost, hbackend,
        count_append] at hold ⊢
      omega
    | backend =>
      have hposted := hother .posted (by simp)
      simp only [MsgState.queued, h.arrived, h.delivered, h.discarded, h.lost, hposted,
        count_append] at hold ⊢
      omega
  · intro source' a ha
    apply hlog.source source' a ((h.sublist source').mem ha)
  · intro source'
    apply (hlog.order source').sublist (h.sublist source')

theorem Taken.oldest {a : Arrival} (h : Taken source true f s (some a) s') (hlog : Logged s) :
  Oldest f a s'
  := by
  have hlive : ∀ x ∈ liveMessages s.alive (s.queue source), x.source = source := by
    intro x hx
    apply hlog.source source x (mem_of_mem_filter hx)
  have hfind := h.result.symm
  have hsource := hlive a (mem_of_find?_eq_some hfind)
  intro a' ha' hsame hlt
  have hmem : a' ∈ (s'.queue source).toList := by
    rw [MsgState.queued, mem_append] at ha'
    have hlog' := h.logged hlog
    rw [hsource] at hsame
    subst hsame
    rcases ha' with ha' | ha'
    all_goals
      rw [hlog'.source _ _ ha']
      exact ha'
  rw [h.queue, if_pos rfl] at hmem
  rw [h.alive]
  apply not_of_mem_eraseP _ hfind hmem hlt
  apply (hlog.order source).sublist filter_sublist

end

/-! ### Searching for a message -/

/-- What a search for a message does to the log. -/
structure Fetched (remove : Bool) (f : MsgFilter) (s : MsgState) (r : Option Arrival)
    (s' : MsgState) : Prop where
  logged : Logged s'
  alive : s'.alive = s.alive
  delivered : s'.delivered = s.delivered ++ if remove then r.toList else []
  discarded : ∃ dead, s'.discarded = s.discarded ++ dead ∧
    ∀ a ∈ dead, messageTargetAlive s.alive a = false
  oldest : remove = true → ∀ a ∈ r, Oldest f a s'

theorem Fetched.after {r : Option Arrival} {s₁ : MsgState} (h : Fetched remove f s₁ r s')
    (halive : s₁.alive = s.alive) (hdelivered : s₁.delivered = s.delivered) {dead : List Arrival}
    (hdiscarded : s₁.discarded = s.discarded ++ dead)
    (hdead : ∀ a ∈ dead, messageTargetAlive s.alive a = false) :
  Fetched remove f s r s'
  := by
  constructor
  · exact h.logged
  · rw [h.alive, halive]
  · rw [h.delivered, hdelivered]
  · obtain ⟨dead', hdiscarded', hdead'⟩ := h.discarded
    use dead ++ dead'
    constructor
    · rw [hdiscarded', hdiscarded, append_assoc]
    · intro a ha
      rcases mem_append.mp ha with ha | ha
      · apply hdead a ha
      · rw [← halive]
        apply hdead' a ha
  · exact h.oldest

theorem deadMessages_dead (alive : ℕ → Bool) (q : RingBuffer Arrival queueCapacity) :
  ∀ a ∈ deadMessages alive q, messageTargetAlive alive a = false
  := by
  intro a ha
  have hdead := (mem_filter.mp ha).2
  rw [Bool.not_eq_true'] at hdead
  exact hdead

theorem Taken.fetched {r : Option Arrival} (h : Taken source remove f s r s') (hlog : Logged s) :
  Fetched remove f s r s'
  := by
  constructor
  · apply h.logged hlog
  · exact h.alive
  · exact h.delivered
  · use deadMessages s.alive (s.queue source), h.discarded
    apply deadMessages_dead
  · intro hremove a ha
    subst hremove
    cases ha
    apply h.oldest hlog

theorem Fetched.same {r : Option Arrival} (hlog : Logged s') (halive : s'.alive = s.alive)
    (hdelivered : s'.delivered = s.delivered ++ if remove then r.toList else [])
    (hdiscarded : s'.discarded = s.discarded) (holdest : remove = true → ∀ a ∈ r, Oldest f a s') :
  Fetched remove f s r s'
  := by
  refine ⟨hlog, halive, hdelivered, ⟨[], ?_⟩, holdest⟩
  simp [hdiscarded]

theorem Fetched.none (hlog : Logged s') (halive : s'.alive = s.alive)
    (hdelivered : s'.delivered = s.delivered) (hdiscarded : s'.discarded = s.discarded) :
  Fetched remove f s none s'
  := by
  apply Fetched.same hlog halive _ hdiscarded
  · rintro - a ⟨⟩
  · simp [hdelivered]

/-- A message of the backend is the oldest one that matches, if none in the queue of the backend
matches. -/
theorem oldest_of_unmatched (hlog : Logged s)
    (hunmatched : ∀ a ∈ (s.queue .backend).toList, messageMatchesFilter s.alive f a = false)
    (hsource : a.source = .backend) :
  Oldest f a s
  := by
  intro a' ha' hsame hlt
  rw [hsource] at hsame
  rw [MsgState.queued, mem_append] at ha'
  rcases ha' with ha' | ha'
  · rw [hlog.source .posted a' ha'] at hsame
    cases hsame
  · apply hunmatched a' ha'

/-- The loop keeps the log, if none of the messages of the backend that are queued matches.  It loses
no message exactly when there is room for those that it has to keep. -/
theorem fetchLoop_fetched (incoming : List RbMsg) (hlog : Logged s)
    (hunmatched : ∀ a ∈ (s.queue .backend).toList, messageMatchesFilter s.alive f a = false) :
  Fetched remove f s (fetchLoop remove f incoming s).1 (fetchLoop remove f incoming s).2 ∧
    ((fetchLoop remove f incoming s).2.lost = s.lost ↔
      Fits s.alive remove f (queueCapacity - (s.queue .backend).count) incoming)
  := by
  -- The induction is on the messages of the backend; what is kept does not match either.
  induction incoming generalizing s with
  | nil => exact ⟨Fetched.none hlog rfl rfl rfl, iff_of_true rfl trivial⟩
  | cons msg incoming ih =>
    have hlose : Logged { s with
        arrived := s.arrived ++ [s.arrival .backend msg]
        lost := s.lost ++ [s.arrival .backend msg] } := by
      refine hlog.arrive .backend msg rfl rfl ?_
      simp
    have hne : ¬ s.lost ++ [s.arrival .backend msg] = s.lost := by simp
    rw [fetchLoop, Fits]
    by_cases hnull : msg.message = 0
    · rw [if_pos hnull]
      use Fetched.none hlose rfl rfl rfl
      apply iff_of_false hne
      simp [hnull]
    rw [if_neg hnull]
    simp only [ne_eq, hnull, not_false_eq_true, true_and]
    have htarget : messageTargetAlive s.alive ⟨msg, .backend, 0⟩ =
      messageTargetAlive s.alive (s.arrival .backend msg) := rfl
    have hmatches : messageMatchesFilter s.alive f ⟨msg, .backend, 0⟩ =
      messageMatchesFilter s.alive f (s.arrival .backend msg) := rfl
    rw [htarget, hmatches]
    have hfull (hpush : (s.queue .backend).push (s.arrival .backend msg) = none) :
        ¬ 0 < queueCapacity - (s.queue .backend).count := by
      rw [RingBuffer.push_eq_none_iff] at hpush
      omega
    split_ifs with hdead hmatch hremove
    · have hlog' : Logged { s with
          arrived := s.arrived ++ [s.arrival .backend msg]
          discarded := s.discarded ++ [s.arrival .backend msg] } := by
        refine hlog.arrive .backend msg rfl rfl ?_
        simp only [perm_iff_count, count_append]
        intro a
        omega
      obtain ⟨hfetched, hlost⟩ := ih hlog' hunmatched
      refine ⟨hfetched.after rfl rfl rfl ?_, hlost⟩
      intro a ha
      rw [mem_singleton.mp ha]
      simpa using hdead
    · have hlog' : Logged { s with
          arrived := s.arrived ++ [s.arrival .backend msg]
          delivered := s.delivered ++ [s.arrival .backend msg] } := by
        refine hlog.arrive .backend msg rfl rfl ?_
        simp only [perm_iff_count, count_append]
        intro a
        omega
      subst hremove
      refine ⟨Fetched.same hlog' rfl rfl rfl ?_, iff_of_true rfl (Or.inl rfl)⟩
      rintro - a ⟨⟩
      apply oldest_of_unmatched hlog' hunmatched rfl
    · cases hpush : (s.queue .backend).push (s.arrival .backend msg) with
      | none =>
        use Fetched.none hlose rfl rfl rfl
        apply iff_of_false hne
        rintro (htrue | hpos)
        · exact hremove htrue
        · exact hfull hpush hpos
      | some q =>
        have hlt := (RingBuffer.count_of_push hpush).1
        refine ⟨Fetched.same (hlog.push hpush) rfl ?_ rfl fun htrue => absurd htrue hremove,
          iff_of_true rfl (Or.inr (Nat.sub_pos_of_lt hlt))⟩
        simp [MsgState.setQueue, hremove]
    · cases hpush : (s.queue .backend).push (s.arrival .backend msg) with
      | none =>
        use Fetched.none hlose rfl rfl rfl
        apply iff_of_false hne
        rintro ⟨hpos, -⟩
        exact hfull hpush hpos
      | some q =>
        obtain ⟨hlt, hcount⟩ := RingBuffer.count_of_push hpush
        have hunmatched' : ∀ a ∈ ((s.setQueue .backend q).queue .backend).toList,
            messageMatchesFilter s.alive f a = false := by
          intro a ha
          rw [MsgState.queue_setQueue, RingBuffer.toList_push hpush, mem_append,
            mem_singleton] at ha
          rcases ha with ha | rfl
          · apply hunmatched a ha
          · simpa using hmatch
        obtain ⟨hfetched, hlost⟩ := ih (hlog.push hpush) hunmatched'
        refine ⟨hfetched.after rfl rfl (append_nil _).symm (by simp), ?_⟩
        apply hlost.trans
        simp only [MsgState.setQueue, update_self, hcount, Nat.sub_pos_of_lt hlt, true_and]
        rw [Nat.sub_sub]

/-- A search keeps the log.  It loses no message exactly when there is room for those of the backend
that it has to keep, if it asks for them. -/
theorem fetchQueuedMessage_fetched (incoming : List RbMsg) (hlog : Logged s) :
  let r := fetchQueuedMessage remove f incoming s
  Fetched remove f s r.1 r.2 ∧ (r.2.lost = s.lost ↔
    ((∀ source, (liveMessages s.alive (s.queue source)).find? (messageMatchesFilter s.alive f) = none) →
      Fits s.alive remove f (queueCapacity - (liveMessages s.alive (s.queue .backend)).length) incoming))
  := by
  rw [fetchQueuedMessage]
  have hposted := s.taken .posted remove f
  generalize s.take .posted remove f = r₁ at hposted ⊢
  obtain ⟨r₁, s₁⟩ := r₁
  cases r₁ with
  | some a =>
    use hposted.fetched hlog
    apply iff_of_true hposted.lost
    intro hnone
    have hsome := hposted.result
    rw [hnone .posted] at hsome
    cases hsome
  | none =>
    have hlog₁ := hposted.logged hlog
    have hbackend₁ : s₁.queue .backend = s.queue .backend := hposted.other .backend (by simp)
    have hafter {r : Option Arrival} {s' : MsgState} (h : Fetched remove f s₁ r s') :
        Fetched remove f s r s' := by
      apply h.after hposted.alive _ hposted.discarded (deadMessages_dead s.alive _)
      rw [hposted.delivered, toList_none, ite_self, append_nil]
    simp only
    have hbackend := s₁.taken .backend remove f
    generalize s₁.take .backend remove f = r₂ at hbackend ⊢
    obtain ⟨r₂, s₂⟩ := r₂
    cases r₂ with
    | some a =>
      use hafter (hbackend.fetched hlog₁)
      apply iff_of_true (hbackend.lost.trans hposted.lost)
      intro hnone
      have hsome := hbackend.result
      rw [hposted.alive, hbackend₁, hnone .backend] at hsome
      cases hsome
    | none =>
      have hnone := hbackend.result.symm
      have hforall := List.find?_eq_none.mp hnone
      have hlist : (s₂.queue .backend).toList = liveMessages s.alive (s.queue .backend) := by
        rw [hbackend.queue, eraseP_of_forall_not hforall, ite_self, hposted.alive, hbackend₁]
      have hunmatched : ∀ a ∈ (s₂.queue .backend).toList,
          messageMatchesFilter s₂.alive f a = false := by
        intro a ha
        rw [hlist, ← hposted.alive, ← hbackend₁] at ha
        rw [hbackend.alive]
        simpa using hforall a ha
      obtain ⟨hfetched, hlost⟩ := fetchLoop_fetched incoming (hbackend.logged hlog₁) hunmatched
      constructor
      · apply hafter
        apply hfetched.after hbackend.alive _ hbackend.discarded (deadMessages_dead s₁.alive _)
        rw [hbackend.delivered, toList_none, ite_self, append_nil]
      · rw [hbackend.lost, hposted.lost, hbackend.alive, hposted.alive, ← RingBuffer.length_toList,
          hlist] at hlost
        rw [hlost]
        constructor
        · intro hfits _
          exact hfits
        · intro hfits
          apply hfits
          intro source
          cases source with
          | posted => exact hposted.result.symm
          | backend =>
            rw [hposted.alive, hbackend₁] at hnone
            exact hnone

/-! ### Calls -/

/-- The states have the same queues and the same log. -/
structure SameLog (s s' : MsgState) : Prop where
  queue : s'.queue = s.queue
  arrived : s'.arrived = s.arrived
  delivered : s'.delivered = s.delivered
  discarded : s'.discarded = s.discarded
  lost : s'.lost = s.lost

theorem SameLog.logged (h : SameLog s s') (hlog : Logged s) :
  Logged s'
  := by
  constructor
  · rw [h.arrived]
    exact hlog.serial
  · rw [MsgState.queued, h.arrived, h.delivered, h.discarded, h.lost, h.queue]
    exact hlog.perm
  · rw [h.queue]
    exact hlog.source
  · rw [h.queue]
    exact hlog.order

theorem synthesizeQuitMessage_sameLog (b : Build) (remove : Bool) (hquit : s.quitPending = true) :
  ∃ msg s', synthesizeQuitMessage b remove s = some (msg, s') ∧ SameLog s s'
  := by
  rw [synthesizeQuitMessage, if_pos hquit]
  refine ⟨_, _, rfl, ?_⟩
  cases remove <;> exact ⟨rfl, rfl, rfl, rfl, rfl⟩

theorem msgStep_of_fetch_eq_none (b : Build) {call : MsgCall} (hfetch : call.fetch s = none) :
  SameLog s (msgStep b s call) ∨ ∃ hwnd message wParam lParam q,
    call = .post hwnd message wParam lParam ∧
      (s.queue .posted).push (s.arrival .posted ⟨hwnd, message, wParam, lParam, 0, 0, 0⟩) = some q ∧
      msgStep b s call = { s.setQueue .posted q with
        arrived := s.arrived ++ [s.arrival .posted ⟨hwnd, message, wParam, lParam, 0, 0, 0⟩] }
  := by
  have hself : SameLog s s := ⟨rfl, rfl, rfl, rfl, rfl⟩
  cases call with
  | post hwnd message wParam lParam =>
    rw [msgStep, postMessageA]
    split_ifs
    · exact Or.inl hself
    · simp only
      cases hpush : (s.queue .posted).push (s.arrival .posted ⟨hwnd, message, wParam, lParam, 0, 0, 0⟩)
        with
      | none => exact Or.inl hself
      | some q => exact Or.inr ⟨hwnd, message, wParam, lParam, q, rfl, hpush, rfl⟩
  | postQuit exitCode => exact Or.inl ⟨rfl, rfl, rfl, rfl, rfl⟩
  | windows alive => exact Or.inl ⟨rfl, rfl, rfl, rfl, rfl⟩
  | get lpMsg f incoming =>
    left
    rw [MsgCall.fetch] at hfetch
    split_ifs at hfetch with h
    rw [msgStep, getMessageA]
    split_ifs with hnull
    · exact hself
    · obtain ⟨msg, s', hsome, hsame⟩ :=
        synthesizeQuitMessage_sameLog b true (h.resolve_left hnull)
      rw [hsome]
      exact hsame
  | peek lpMsg f wRemoveMsg incoming =>
    left
    rw [MsgCall.fetch] at hfetch
    split_ifs at hfetch with h
    rw [msgStep, peekMessageA]
    split_ifs with hnull
    · exact hself
    · obtain ⟨msg, s', hsome, hsame⟩ :=
        synthesizeQuitMessage_sameLog b (wRemoveMsg &&& 1 ≠ 0) (h.resolve_left hnull)
      simp only
      rw [hsome]
      exact hsame

theorem msgStep_logged_of_fetch_eq_none {b : Build} {call : MsgCall} (hfetch : call.fetch s = none)
    (hlog : Logged s) :
  Logged (msgStep b s call) ∧ (msgStep b s call).delivered = s.delivered ∧
    (msgStep b s call).discarded = s.discarded ∧ (msgStep b s call).lost = s.lost
  := by
  rcases msgStep_of_fetch_eq_none b hfetch with hsame | ⟨_, _, _, _, q, -, hpush, hstep⟩
  · exact ⟨hsame.logged hlog, hsame.delivered, hsame.discarded, hsame.lost⟩
  · rw [hstep]
    exact ⟨hlog.push hpush, rfl, rfl, rfl⟩

theorem msgStep_of_fetch_eq_some {b : Build} {call : MsgCall} {incoming : List RbMsg}
    (hfetch : call.fetch s = some (remove, f, incoming)) :
  msgStep b s call = (fetchQueuedMessage remove f incoming s).2
  := by
  cases call with
  | post hwnd message wParam lParam => cases hfetch
  | postQuit exitCode => cases hfetch
  | windows alive => cases hfetch
  | get lpMsg f' incoming' =>
    rw [MsgCall.fetch] at hfetch
    split_ifs at hfetch with h
    rw [not_or] at h
    cases hfetch
    rw [msgStep, getMessageA, if_neg h.1, synthesizeQuitMessage, if_neg h.2]
    rcases fetchQueuedMessage true f incoming s with ⟨_ | a, s'⟩ <;> rfl
  | peek lpMsg f' wRemoveMsg incoming' =>
    rw [MsgCall.fetch] at hfetch
    split_ifs at hfetch with h
    rw [not_or] at h
    cases hfetch
    rw [msgStep, peekMessageA, if_neg h.1]
    simp only
    rw [synthesizeQuitMessage, if_neg h.2]
    rcases fetchQueuedMessage _ f incoming s with ⟨_ | a, s'⟩ <;> rfl

theorem msgStep_logged (b : Build) (call : MsgCall) (hlog : Logged s) :
  Logged (msgStep b s call)
  := by
  cases hfetch : call.fetch s with
  | none => exact (msgStep_logged_of_fetch_eq_none hfetch hlog).1
  | some search =>
    obtain ⟨remove, f, incoming⟩ := search
    rw [msgStep_of_fetch_eq_some hfetch]
    exact (fetchQueuedMessage_fetched incoming hlog).1.logged

theorem msgStep_lost_iff (b : Build) (call : MsgCall) (hlog : Logged s) :
  (msgStep b s call).lost = s.lost ↔ Room s call
  := by
  cases hfetch : call.fetch s with
  | none =>
    apply iff_of_true (msgStep_logged_of_fetch_eq_none hfetch hlog).2.2.2
    intro remove f incoming h
    rw [hfetch] at h
    cases h
  | some search =>
    obtain ⟨remove, f, incoming⟩ := search
    rw [msgStep_of_fetch_eq_some hfetch, (fetchQueuedMessage_fetched incoming hlog).2, Room, hfetch]
    constructor
    · rintro h remove f incoming ⟨⟩
      exact h
    · intro h
      apply h remove f incoming rfl

/-- A call of a state in which no message is lost meets its specification exactly when there is room
for what it has to keep. -/
theorem messagesOk_iff (b : Build) (call : MsgCall) (hlog : Logged s) (hlost : s.lost = []) :
  MessagesOk b s call ↔ Room s call
  := by
  rw [← msgStep_lost_iff b call hlog, hlost, ← (msgStep_logged b call hlog).conserved_iff]
  constructor
  · intro h
    exact h.conserved
  · intro hconserved
    cases hfetch : call.fetch s with
    | none =>
      obtain ⟨-, hdelivered, hdiscarded, -⟩ := msgStep_logged_of_fetch_eq_none (b := b) hfetch hlog
      refine ⟨hconserved, ?_, ⟨[], by simp [hdiscarded]⟩, ?_⟩
      · simp [hdelivered, MsgCall.removed, hfetch]
      · intro f incoming h
        rw [hfetch] at h
        cases h
    | some search =>
      obtain ⟨remove, f, incoming⟩ := search
      have hstep := @msgStep_of_fetch_eq_some s remove f b call incoming hfetch
      obtain ⟨hfetched, -⟩ := @fetchQueuedMessage_fetched s remove f incoming hlog
      constructor
      · exact hconserved
      · rw [hstep, hfetched.delivered, MsgCall.removed, hfetch]
        cases remove <;> rfl
      · rw [hstep]
        exact hfetched.discarded
      · intro f' incoming' h
        rw [hfetch] at h
        cases h
        rw [hstep, MsgCall.removed, hfetch]
        exact hfetched.oldest rfl

end

def MsgState.start (alive : ℕ → Bool) : MsgState where
  queue _ := ⟨fun _ => ⟨⟨0, 0, 0, 0, 0, 0, 0⟩, .posted, 0⟩, 0, by decide, 0, by decide⟩
  quitPending := false
  quitExitCode := 0
  alive := alive
  arrived := []
  delivered := []
  discarded := []
  lost := []

theorem start_logged (alive : ℕ → Bool) :
  Logged (MsgState.start alive)
  := by
  refine ⟨rfl, List.Perm.refl [], ?_, ?_⟩
  · rintro source a ⟨⟩
  · intro source
    exact List.Pairwise.nil

/-- Every message that was accepted stays in exactly one place, and the messages of a source are
delivered in order, along exactly the runs in which there is always room for the messages of the
backend that have to be kept. -/
theorem messages_conserved_iff (b : Build) (alive : ℕ → Bool) (calls : List MsgCall) :
  Run.Along (msgStep b) (MessagesOk b) (MsgState.start alive) calls ↔
    Run.Along (msgStep b) Room (MsgState.start alive) calls
  := by
  apply Run.along_iff_of_invariant fun s => Logged s ∧ s.lost = []
  · rintro s call ⟨hlog, -⟩ hok
    have hlog' := msgStep_logged b call hlog
    exact ⟨hlog', hlog'.conserved_iff.mp hok.conserved⟩
  · rintro s call ⟨hlog, hlost⟩
    apply messagesOk_iff b call hlog hlost
  · exact ⟨start_logged alive, rfl⟩

/-- The call asks for the messages of one window while the backend has 65 mouse messages for another
one.  Then 64 of them are queued and one is nowhere. -/
theorem message_lost_when_full :
  let call := MsgCall.get 1 ⟨1, 0, 0⟩ (List.replicate 65 ⟨2, 0x0200, 0, 0, 0, 0, 0⟩)
  let s := msgStep .x64 (.start fun _ => true) call
  s.arrived.length = 65 ∧ (s.delivered ++ s.discarded ++ s.queued).length = 64 ∧
    ¬ MessagesOk .x64 (.start fun _ => true) call
  := by
  intro call s
  have harrived : s.arrived.length = 65 := by decide +kernel
  have hplaces : (s.delivered ++ s.discarded ++ s.queued).length = 64 := by decide +kernel
  refine ⟨harrived, hplaces, ?_⟩
  intro hok
  have hlength := hok.conserved.2.length_eq
  rw [harrived, hplaces] at hlength
  contradiction

end User32
