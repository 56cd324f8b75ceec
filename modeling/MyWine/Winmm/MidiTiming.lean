import MyWine.Winmm.MidiStream

/-!
# The times of queued MIDI events

The queue of a stream should hold the messages of its buffers in order, and the ticks up to a message in
the queue should be those of all events of the stream up to it.  The source keeps the ticks of events that
are not queued for the next one (`pending_delta`), but forgets them at a long event that is not queued and
at the end of a buffer, and it takes the payload of a long event with the callback flag for events.

`playsOnTime_iff` says when the queue is right all the same: no buffer has such an event with a payload
and more to come (`misread`), and the ticks that are forgotten before a message add up to zero
(`Lossless`).
-/

namespace Winmm

open DeltaStream List

def MidiEvent.entry (e : MidiEvent) : UInt32 × MidiMessage := (e.deltaTicks, e.message)

/-- What should hold of a sequence of buffers: the payload of every event is skipped, and the messages of
the buffers are in the queue in order, each with the ticks of all events of the stream up to it. -/
structure PlaysOnTime (hostAlloc : ℕ → Bool) (s : MidiStream) (buffers : List (Bytes × MidiHdr)) :
    Prop where
  skipped : ∀ before b after, buffers = before ++ b :: after →
    headerReads hostAlloc b.1 (appendBuffers hostAlloc s before) b.2 = (bufferHeaders b.1 b.2).map Prod.fst
  onTime : absolute 0 ((appendBuffers hostAlloc s buffers).queue.map MidiEvent.entry)
    = timed 0 (streamItems buffers)

/-- A long event with the callback flag and a payload, with room for another header after its own. -/
def misread (m : Bytes) (h : ℕ × ℕ) : Bool :=
  isCallback (m.u32 (h.1 + 8)) && decide (payloadLen (m.u32 (h.1 + 8)) ≠ 0) && decide (24 ≤ h.2)

/-! ### Rounds of the loop -/

section

variable {hostAlloc : ℕ → Bool} {m : Bytes} {st : AppendState}

theorem appendRound_end (h : st.remaining < 12) :
  appendRound hostAlloc m st = .inr (true, st.stream)
  := by
  rw [appendRound, if_pos h]

theorem appendRound_callback (h : ¬ st.remaining < 12) (hcallback : isCallback (m.u32 (st.ptr + 8))) :
  appendRound hostAlloc m st
    = .inl ⟨st.ptr + 12, st.remaining - 12, st.pendingDelta + m.u32 st.ptr, st.stream⟩
  := by
  simp only [appendRound, if_neg h, if_pos hcallback]

theorem appendRound_cut (h : ¬ st.remaining < 12) (hcallback : ¬ isCallback (m.u32 (st.ptr + 8)))
    (hcut : st.remaining < 12 + payloadLen (m.u32 (st.ptr + 8))) :
  appendRound hostAlloc m st = .inr (true, st.stream)
  := by
  rw [payloadLen] at hcut
  split at hcut
  case isTrue hlong =>
    have hgt : (chunkLen (mevtEventparm (m.u32 (st.ptr + 8)))).toNat > st.remaining - 12 := by omega
    simp [appendRound, if_neg hcallback, if_pos hlong, if_pos hgt]
  case isFalse hlong => omega

section

variable (halloc : ∀ n, hostAlloc n = true)
include halloc

theorem rbHostAlloc_eq (s : MidiStream) :
  rbHostAlloc hostAlloc s = (true, ⟨s.queue, s.allocations + 1⟩)
  := by
  rw [rbHostAlloc, halloc]

section

variable (next : MidiStream → AppendState) (s : MidiStream)
include next s

theorem queued_short (deltaTicks msg : UInt32) :
  queued next (midiQueueShortMessage hostAlloc s deltaTicks msg)
    = .inl (next ⟨s.queue ++ [⟨deltaTicks, .short msg⟩], s.allocations + 1⟩)
  := by
  simp only [midiQueueShortMessage, rbHostAlloc_eq halloc, queued, midiQueuePushEvent]

theorem queued_tempo (deltaTicks tempo : UInt32) :
  queued next (midiQueueTempo hostAlloc s deltaTicks tempo)
    = .inl (next ⟨s.queue ++ [⟨deltaTicks, .tempo (orDefaultTempo tempo)⟩], s.allocations + 1⟩)
  := by
  simp only [midiQueueTempo, rbHostAlloc_eq halloc, queued, midiQueuePushEvent]

theorem queued_sysex (deltaTicks : UInt32) (data : ℕ) (len : UInt32) :
  ∃ k, queued next (midiQueueSysex hostAlloc s deltaTicks m data len)
    = .inl (next ⟨s.queue ++ [⟨deltaTicks, .sysex (bytesAt m data len.toNat)⟩], k⟩)
  := by
  by_cases hlen : len = 0
  · use s.allocations + 1
    simp [midiQueueSysex, rbHostAlloc_eq halloc, hlen, queued, midiQueuePushEvent, bytesAt]
  · use s.allocations + 1 + 1
    simp [midiQueueSysex, rbHostAlloc_eq halloc, hlen, queued, midiQueuePushEvent]

end

/-- An event that fits and whose payload is not taken for events. -/
theorem appendRound_event (h : ¬ st.remaining < 12)
    (hproper : isCallback (m.u32 (st.ptr + 8)) → payloadLen (m.u32 (st.ptr + 8)) = 0)
    (hfits : 12 + payloadLen (m.u32 (st.ptr + 8)) ≤ st.remaining) :
  ∃ pending queue k, appendRound hostAlloc m st
      = .inl ⟨st.ptr + 12 + payloadLen (m.u32 (st.ptr + 8)),
        st.remaining - 12 - payloadLen (m.u32 (st.ptr + 8)), pending, ⟨queue, k⟩⟩
    ∧ ∀ items, st.stream.queue.map MidiEvent.entry ++ encode st.pendingDelta (itemAt m st.ptr :: items)
      = queue.map MidiEvent.entry ++ encode pending items
  := by
  set w := m.u32 (st.ptr + 8) with hw
  -- a message is queued with the ticks that are pending, and nothing is pending then
  have hqueue (μ : MidiMessage) (hμ : messageAt m st.ptr = some μ) (items) :
      st.stream.queue.map MidiEvent.entry ++ encode st.pendingDelta (itemAt m st.ptr :: items)
        = (st.stream.queue ++ [MidiEvent.mk (st.pendingDelta + m.u32 st.ptr) μ]).map MidiEvent.entry
          ++ encode 0 items := by
    have hmessage : (itemAt m st.ptr).message = some μ := hμ
    simp only [encode, hmessage, map_append, append_assoc, map_singleton,
      singleton_append]
    rfl
  -- no message leaves the queue as it is
  have hskip (hμ : messageAt m st.ptr = none) (items) :
      st.stream.queue.map MidiEvent.entry ++ encode st.pendingDelta (itemAt m st.ptr :: items)
        = st.stream.queue.map MidiEvent.entry
          ++ encode (if (itemAt m st.ptr).resets then 0 else st.pendingDelta + m.u32 st.ptr) items := by
    have hmessage : (itemAt m st.ptr).message = none := hμ
    simp only [encode, hmessage]
    rfl
  by_cases hcallback : isCallback w
  · rw [hproper hcallback, appendRound_callback h hcallback]
    refine ⟨_, _, _, rfl, ?_⟩
    intro items
    rw [hskip (if_pos hcallback) items, if_neg]
    simp [itemAt, ← hw, hcallback]
  by_cases hlong : isLong w
  · have hlen : payloadLen w
        = (chunkLen (mevtEventparm w)).toNat := by
      rw [payloadLen, if_pos hlong]
    rw [hlen] at hfits ⊢
    have hroom : ¬ (chunkLen (mevtEventparm w)).toNat > st.remaining - 12 := by omega
    simp only [appendRound, ← hw, if_neg h, if_neg hcallback, if_pos hlong, if_neg hroom]
    by_cases htype : mevtEventtype w = mevtLongmsg
    · rw [if_pos htype]
      obtain ⟨k, hk⟩ := queued_sysex halloc (m := m) _ st.stream _ _ _
      rw [hk]
      refine ⟨_, _, k, rfl, hqueue _ ?_⟩
      simp only [messageAt, ← hw, if_neg hcallback, if_pos hlong, if_pos htype]
    · simp only [if_neg htype]
      refine ⟨_, _, _, rfl, ?_⟩
      have hresets : (itemAt m st.ptr).resets = true := by
        simp [itemAt, ← hw, hlong, hcallback]
      intro items
      rw [hskip _ items, if_pos hresets]
      simp [messageAt, ← hw, if_pos hlong, if_neg htype]
  · have hlen : payloadLen w = 0 := by
      rw [payloadLen, if_neg hlong]
    rw [hlen]
    simp only [appendRound, ← hw, if_neg h, if_neg hcallback, if_neg hlong, Nat.add_zero, Nat.sub_zero]
    by_cases hshort : mevtEventtype w = mevtShortmsg
    · rw [if_pos hshort, queued_short halloc]
      refine ⟨_, _, _, rfl, hqueue _ ?_⟩
      simp only [messageAt, ← hw, if_neg hcallback, if_neg hlong, if_pos hshort]
    · simp only [if_neg hshort]
      by_cases htempo : mevtEventtype w = mevtTempo
      · rw [if_pos htempo, queued_tempo halloc]
        refine ⟨_, _, _, rfl, hqueue _ ?_⟩
        simp only [messageAt, ← hw, if_neg hcallback, if_neg hlong, if_neg hshort, if_pos htempo]
      · simp only [if_neg htempo]
        refine ⟨_, _, _, rfl, ?_⟩
        have hresets : ¬ (itemAt m st.ptr).resets = true := by
          simp [itemAt, ← hw, hlong]
        intro items
        rw [hskip _ items, if_neg hresets]
        simp [messageAt, ← hw, if_neg hlong, if_neg hshort, if_neg htempo]

end

/-! ### The headers that are read -/

theorem readsFrom_end (h : st.remaining < 12) :
  readsFrom hostAlloc m st = []
  := by
  have hstates : (appendLoop hostAlloc m).states st = [st] := While.states_inr (appendRound_end h)
  rw [readsFrom, hstates, filter_cons_of_neg, filter_nil, map_nil]
  rw [decide_eq_true_eq]
  omega

theorem readsFrom_inr {r : Bool × MidiStream} (h : ¬ st.remaining < 12)
    (hround : appendRound hostAlloc m st = .inr r) :
  readsFrom hostAlloc m st = [st.ptr]
  := by
  have hstates : (appendLoop hostAlloc m).states st = [st] := While.states_inr hround
  rw [readsFrom, hstates, filter_cons_of_pos, filter_nil, map_singleton]
  rw [decide_eq_true_eq]
  omega

theorem readsFrom_inl {st' : AppendState} (h : ¬ st.remaining < 12)
    (hround : appendRound hostAlloc m st = .inl st') :
  readsFrom hostAlloc m st = st.ptr :: readsFrom hostAlloc m st'
  := by
  have hstates : (appendLoop hostAlloc m).states st = st :: (appendLoop hostAlloc m).states st' :=
    While.states_inl hround
  rw [readsFrom, hstates, filter_cons_of_pos, map_cons, ← readsFrom]
  rw [decide_eq_true_eq]
  omega

theorem head_readsFrom (h : ¬ st.remaining < 12) :
  (readsFrom hostAlloc m st).head? = some st.ptr
  := by
  cases hround : appendRound hostAlloc m st with
  | inl st' => rw [readsFrom_inl h hround, List.head?_cons]
  | inr r => rw [readsFrom_inr h hround, List.head?_cons]

variable {n a remaining : ℕ}

theorem headers_end (h : remaining < 12) :
  headers m n a remaining = []
  := by
  cases n with
  | zero => rfl
  | succ n => rw [headers, if_pos h]

theorem head_headers {b : ℕ} (h : ((headers m n a remaining).map Prod.fst).head? = some b) :
  b = a
  := by
  cases n with
  | zero => cases h
  | succ n =>
    rw [headers] at h
    split at h
    · cases h
    · cases h
      rfl

theorem eventAt_of_fits (h : 12 + payloadLen (m.u32 (a + 8)) ≤ remaining) :
  eventAt m (a, remaining) = some (itemAt m a)
  := by
  apply if_pos h

theorem eventAt_of_cut (h : remaining < 12 + payloadLen (m.u32 (a + 8))) :
  eventAt m (a, remaining) = none
  := by
  apply if_neg (Nat.not_le_of_gt h)

/-- An event that is not misread leads the loop to the header after its payload, or to where there is
none. -/
theorem appendLoop_step (halloc : ∀ n, hostAlloc n = true) (h : ¬ st.remaining < 12)
    (hread : misread m (st.ptr, st.remaining) = false) :
  ∃ st' : AppendState, st'.ptr = st.ptr + 12 + payloadLen (m.u32 (st.ptr + 8))
    ∧ st'.remaining = st.remaining - 12 - payloadLen (m.u32 (st.ptr + 8))
    ∧ (appendLoop hostAlloc m).run st = (appendLoop hostAlloc m).run st'
    ∧ readsFrom hostAlloc m st = st.ptr :: readsFrom hostAlloc m st'
    ∧ ∀ hs, st.stream.queue.map MidiEvent.entry
        ++ encode st.pendingDelta (((st.ptr, st.remaining) :: hs).filterMap (eventAt m))
      = st'.stream.queue.map MidiEvent.entry ++ encode st'.pendingDelta (hs.filterMap (eventAt m))
  := by
  by_cases hproper : isCallback (m.u32 (st.ptr + 8)) → payloadLen (m.u32 (st.ptr + 8)) = 0
  · by_cases hcut : st.remaining < 12 + payloadLen (m.u32 (st.ptr + 8))
    · have hround : appendRound hostAlloc m st = .inr (true, st.stream) := by
        apply appendRound_cut h _ hcut
        intro hcallback
        have hlen := hproper hcallback
        omega
      have hlast : st.remaining - 12 - payloadLen (m.u32 (st.ptr + 8)) < 12 := by omega
      refine ⟨⟨_, _, st.pendingDelta, st.stream⟩, rfl, rfl, ?_, ?_, ?_⟩
      · rw [While.run_inr hround, While.run_inr (appendRound_end hlast)]
      · rw [readsFrom_inr h hround, readsFrom_end hlast]
      · intro hs
        rw [filterMap_cons_none (eventAt_of_cut hcut)]
    · have hfits := Nat.le_of_not_lt hcut
      obtain ⟨pending, queue, k, hround, hencode⟩ := appendRound_event halloc h hproper hfits
      refine ⟨_, rfl, rfl, While.run_inl hround, readsFrom_inl h hround, ?_⟩
      intro hs
      rw [filterMap_cons_some (eventAt_of_fits hfits), hencode]
  · -- the payload is taken for events, but there is no room for one
    rw [Classical.not_imp] at hproper
    obtain ⟨hcallback, hlen⟩ := hproper
    have hmore : ¬ 24 ≤ st.remaining := by
      intro hmore
      simp [misread, hcallback, hlen, hmore] at hread
    obtain ⟨pending, hencode⟩ : ∃ pending, ∀ hs,
        encode st.pendingDelta (((st.ptr, st.remaining) :: hs).filterMap (eventAt m))
          = encode pending (hs.filterMap (eventAt m)) := by
      by_cases hfits : 12 + payloadLen (m.u32 (st.ptr + 8)) ≤ st.remaining
      · have hnone : (itemAt m st.ptr).message = none := if_pos hcallback
        simp only [filterMap_cons_some (eventAt_of_fits hfits), encode, hnone]
        exact ⟨_, fun hs => rfl⟩
      · use st.pendingDelta
        intro hs
        rw [filterMap_cons_none (eventAt_of_cut (Nat.lt_of_not_le hfits))]
    have hround := @appendRound_callback hostAlloc m st h hcallback
    have hnext : st.remaining - 12 < 12 := by omega
    have hlast : st.remaining - 12 - payloadLen (m.u32 (st.ptr + 8)) < 12 := by omega
    refine ⟨⟨_, _, pending, st.stream⟩, rfl, rfl, ?_, ?_, ?_⟩
    · rw [While.run_inl hround, While.run_inr (appendRound_end hnext),
        While.run_inr (appendRound_end hlast)]
    · rw [readsFrom_inl h hround, readsFrom_end hnext, readsFrom_end hlast]
    · intro hs
      rw [hencode]

theorem readsFrom_eq_iff (halloc : ∀ n, hostAlloc n = true) (hn : st.remaining ≤ n) :
  readsFrom hostAlloc m st = (headers m n st.ptr st.remaining).map Prod.fst
    ↔ ∀ h ∈ headers m n st.ptr st.remaining, misread m h = false
  := by
  induction n generalizing st with
  | zero =>
    have hend : st.remaining < 12 := by omega
    simp [readsFrom_end hend, headers]
  | succ n ih =>
    by_cases hend : st.remaining < 12
    · simp [readsFrom_end hend, headers_end hend]
    · simp only [headers, if_neg hend, map_cons, forall_mem_cons]
      cases hread : misread m (st.ptr, st.remaining) with
      | false =>
        obtain ⟨st', hptr, hremaining, -, hreads, -⟩ := @appendLoop_step hostAlloc _ _ halloc hend hread
        rw [hreads, cons.injEq, eq_self_iff_true, true_and, eq_self_iff_true, true_and, ← hptr,
          ← hremaining]
        apply ih
        omega
      | true =>
        -- the loop reads the payload as a header
        simp only [Bool.true_eq_false, false_and, iff_false]
        simp only [misread, Bool.and_eq_true, decide_eq_true_eq] at hread
        obtain ⟨⟨hcallback, hlen⟩, hmore⟩ := hread
        rw [readsFrom_inl hend (appendRound_callback hend hcallback), cons.injEq]
        rintro ⟨-, heq⟩
        have hnext : ¬ (AppendState.mk (st.ptr + 12) (st.remaining - 12)
            (st.pendingDelta + m.u32 st.ptr) st.stream).remaining < 12 := by
          change ¬ st.remaining - 12 < 12
          omega
        have hhead := @head_readsFrom hostAlloc m _ hnext
        rw [heq] at hhead
        have haddr := head_headers hhead
        change st.ptr + 12 = _ at haddr
        omega

theorem run_appendLoop (halloc : ∀ n, hostAlloc n = true) (hn : st.remaining ≤ n)
    (hread : ∀ h ∈ headers m n st.ptr st.remaining, misread m h = false) :
  ((appendLoop hostAlloc m).run st).2.queue.map MidiEvent.entry
    = st.stream.queue.map MidiEvent.entry
      ++ encode st.pendingDelta ((headers m n st.ptr st.remaining).filterMap (eventAt m))
  := by
  induction n generalizing st with
  | zero =>
    have hend : st.remaining < 12 := by omega
    rw [While.run_inr (appendRound_end hend), headers, filterMap_nil, encode, append_nil]
  | succ n ih =>
    by_cases hend : st.remaining < 12
    · rw [While.run_inr (appendRound_end hend), headers_end hend, filterMap_nil, encode,
        append_nil]
    · simp only [headers, if_neg hend, forall_mem_cons] at hread ⊢
      obtain ⟨hhead, htail⟩ := hread
      obtain ⟨st', hptr, hremaining, hrun, -, hencode⟩ := appendLoop_step halloc hend hhead
      rw [hrun, hencode]
      rw [← hptr, ← hremaining] at htail ⊢
      apply ih _ htail
      omega

end

/-! ### Buffers -/

section

variable {hostAlloc : ℕ → Bool} (halloc : ∀ n, hostAlloc n = true)
include halloc

theorem headerReads_eq_iff (m : Bytes) (s : MidiStream) (hdr : MidiHdr) :
  headerReads hostAlloc m s hdr = (bufferHeaders m hdr).map Prod.fst
    ↔ ∀ h ∈ bufferHeaders m hdr, misread m h = false
  := by
  rw [headerReads, bufferHeaders]
  split
  · simp
  · apply readsFrom_eq_iff halloc (Nat.le_refl _)

theorem queue_midiStreamAppendBuffer {m : Bytes} (s : MidiStream) {hdr : MidiHdr}
    (hread : ∀ h ∈ bufferHeaders m hdr, misread m h = false) :
  (midiStreamAppendBuffer hostAlloc m s hdr).2.queue.map MidiEvent.entry
    = s.queue.map MidiEvent.entry ++ encode 0 ((bufferHeaders m hdr).filterMap (eventAt m))
  := by
  rw [bufferHeaders] at hread ⊢
  rw [midiStreamAppendBuffer]
  split
  · rw [filterMap_nil, encode, append_nil]
  case isFalse hdata =>
    rw [if_neg hdata] at hread
    apply run_appendLoop halloc (Nat.le_refl _) hread

theorem queue_appendBuffers {buffers : List (Bytes × MidiHdr)} (s : MidiStream)
    (hread : ∀ b ∈ buffers, ∀ h ∈ bufferHeaders b.1 b.2, misread b.1 h = false) :
  (appendBuffers hostAlloc s buffers).queue.map MidiEvent.entry
    = s.queue.map MidiEvent.entry ++ encode 0 (streamItems buffers)
  := by
  induction buffers generalizing s with
  | nil => simp [appendBuffers, streamItems, encode]
  | cons b buffers ih =>
    rw [forall_mem_cons] at hread
    have hitems : streamItems (b :: buffers)
        = (bufferHeaders b.1 b.2).filterMap (eventAt b.1) ++ bufferEnd :: streamItems buffers := by
      rw [streamItems, flatMap_cons, bufferItems, append_assoc, singleton_append]
      rfl
    rw [appendBuffers, foldl_cons, ← appendBuffers, ih _ hread.2,
      queue_midiStreamAppendBuffer halloc s hread.1, hitems, encode_append (x := bufferEnd) rfl rfl,
      append_assoc]

/-- A sequence of buffers plays on time exactly when no event is misread, and the ticks that are forgotten
before a message add up to zero. -/
theorem playsOnTime_iff (k : ℕ) (buffers : List (Bytes × MidiHdr)) :
  PlaysOnTime hostAlloc ⟨[], k⟩ buffers
    ↔ (∀ b ∈ buffers, ∀ h ∈ bufferHeaders b.1 b.2, misread b.1 h = false)
      ∧ Lossless (streamItems buffers)
  := by
  have hqueue (hread : ∀ b ∈ buffers, ∀ h ∈ bufferHeaders b.1 b.2, misread b.1 h = false) :
      (appendBuffers hostAlloc ⟨[], k⟩ buffers).queue.map MidiEvent.entry
        = encode 0 (streamItems buffers) := by
    rw [queue_appendBuffers halloc _ hread, map_nil, nil_append]
  constructor
  · intro h
    have hread : ∀ b ∈ buffers, ∀ h ∈ bufferHeaders b.1 b.2, misread b.1 h = false := by
      intro b hb
      obtain ⟨before, after, heq⟩ := append_of_mem hb
      rw [← headerReads_eq_iff halloc]
      apply h.skipped before b after heq
    refine ⟨hread, ?_⟩
    rw [← absolute_encode_iff, ← hqueue hread]
    apply h.onTime
  · rintro ⟨hread, hlossless⟩
    constructor
    · intro before b after heq
      rw [headerReads_eq_iff halloc]
      apply hread
      rw [heq]
      apply mem_append_right
      apply mem_cons_self
    · rw [hqueue hread, absolute_encode_iff]
      apply hlossless

end

def bytesFrom16 (bytes : List UInt8) : Bytes := fun a => bytes.getD (a - 16) 0

/-- The bytes of a note after six ticks, of which five are those of an event of the given type. -/
def noteAfter (type : UInt8) : List UInt8 :=
  [5, 0, 0, 0, 0, 0, 0, 0, 0, 0, 0, type, 1, 0, 0, 0, 0, 0, 0, 0, 0x90, 0x3c, 0x7f, 0]

/-- A note after a NOP plays on time. -/
theorem playsOnTime_nop :
  PlaysOnTime (fun _ => true) ⟨[], 0⟩ [(bytesFrom16 (noteAfter 0x02), ⟨16, 24, 0⟩)]
    ∧ (appendBuffers (fun _ => true) ⟨[], 0⟩ [(bytesFrom16 (noteAfter 0x02), ⟨16, 24, 0⟩)]).queue
      = [⟨6, .short 0x7f3c90⟩]
  := by
  refine ⟨(playsOnTime_iff (fun _ => rfl) 0 _).mpr ⟨?_, ?_⟩, ?_⟩
  · decide +kernel
  · rw [← absolute_encode_iff]
    decide +kernel
  · decide +kernel

/-- After a comment of five ticks a note is queued with its own tick only. -/
theorem not_playsOnTime_comment :
  (appendBuffers (fun _ => true) ⟨[], 0⟩ [(bytesFrom16 (noteAfter 0x82), ⟨16, 24, 0⟩)]).queue
      = [⟨1, .short 0x7f3c90⟩]
    ∧ timed 0 (streamItems [(bytesFrom16 (noteAfter 0x82), ⟨16, 24, 0⟩)]) = [(6, .short 0x7f3c90)]
    ∧ ¬ PlaysOnTime (fun _ => true) ⟨[], 0⟩ [(bytesFrom16 (noteAfter 0x82), ⟨16, 24, 0⟩)]
  := by
  refine ⟨by decide +kernel, by decide +kernel, ?_⟩
  intro h
  have hne : ¬ absolute 0 ((appendBuffers (fun _ => true) ⟨[], 0⟩
        [(bytesFrom16 (noteAfter 0x82), ⟨16, 24, 0⟩)]).queue.map MidiEvent.entry)
      = timed 0 (streamItems [(bytesFrom16 (noteAfter 0x82), ⟨16, 24, 0⟩)]) := by
    decide +kernel
  apply hne h.onTime

end Winmm
