import MyWine.Lib.Bytes
import MyWine.Lib.DeltaStream
import MyWine.Lib.While
import Mathlib.Data.UInt

/-!
# MIDI streams

`msvcrt/winmm_doom95.c` plays buffers of MIDI events.  `midiStreamAppendBuffer` walks over the events of
a buffer and appends its short messages, changes of tempo and system exclusive messages to the queue of
the stream, each with the ticks since the event queued before it.  An event is a header of twelve bytes
with the ticks since the event before and a word of flags, type and parameter; a long event is followed
by its payload, padded to words.

The events of a buffer as they are laid out (`bufferItems`) are found by a walk over headers and payloads
(`headers`) that does not look at other flags.
-/

namespace Winmm

open DeltaStream

/-! ### The queue -/

/-- What an event in the queue does: the fields of `midi_event_t` that its type uses. -/
inductive MidiMessage where
  | short (shortMsg : UInt32)
  | tempo (tempo : UInt32)
  | sysex (data : List UInt8)
  deriving DecidableEq

structure MidiEvent where
  deltaTicks : UInt32
  message : MidiMessage
  deriving DecidableEq

/-- `midi_stream_state_t`: the queue, and the number of allocations that were asked for. -/
structure MidiStream where
  queue : List MidiEvent
  allocations : ℕ
  deriving DecidableEq

def midiQueuePushEvent (s : MidiStream) (event : MidiEvent) : MidiStream :=
  { s with queue := s.queue ++ [event] }

section

-- whether an allocation succeeds, by its number
variable (hostAlloc : ℕ → Bool)

def rbHostAlloc (s : MidiStream) : Bool × MidiStream :=
  (hostAlloc s.allocations, { s with allocations := s.allocations + 1 })

def midiQueueShortMessage (s : MidiStream) (deltaTicks packedMsg : UInt32) : Bool × MidiStream :=
  match rbHostAlloc hostAlloc s with
  | (false, s) => (false, s)
  | (true, s) => (true, midiQueuePushEvent s ⟨deltaTicks, .short packedMsg⟩)

def orDefaultTempo (tempo : UInt32) : UInt32 := if tempo ≠ 0 then tempo else 500000

def midiQueueTempo (s : MidiStream) (deltaTicks tempo : UInt32) : Bool × MidiStream :=
  match rbHostAlloc hostAlloc s with
  | (false, s) => (false, s)
  | (true, s) => (true, midiQueuePushEvent s ⟨deltaTicks, .tempo (orDefaultTempo tempo)⟩)

def bytesAt (m : Bytes) (a len : ℕ) : List UInt8 := (List.range len).map fun i => m (a + i)

def midiQueueSysex (s : MidiStream) (deltaTicks : UInt32) (m : Bytes) (data : ℕ) (len : UInt32) :
    Bool × MidiStream :=
  match rbHostAlloc hostAlloc s with
  | (false, s) => (false, s)
  | (true, s) =>
    if len ≠ 0 then
      match rbHostAlloc hostAlloc s with
      | (false, s) => (false, s)
      | (true, s) => (true, midiQueuePushEvent s ⟨deltaTicks, .sysex (bytesAt m data len.toNat)⟩)
    else (true, midiQueuePushEvent s ⟨deltaTicks, .sysex []⟩)

end

/-! ### Events -/

def mevtEventtype (event : UInt32) : UInt8 := ((event >>> 24) &&& 0xFF).toUInt8

def mevtEventparm (event : UInt32) : UInt32 := event &&& 0x00FFFFFF

def isCallback (event : UInt32) : Bool := event &&& 0x40000000 ≠ 0
def isLong (event : UInt32) : Bool := event &&& 0x80000000 ≠ 0

def mevtShortmsg : UInt8 := 0x00
def mevtTempo : UInt8 := 0x01
def mevtLongmsg : UInt8 := 0x80

def chunkLen (longLen : UInt32) : UInt32 := (longLen + 3) &&& ~~~3

/-! ### The walk of `midi_stream_append_buffer` -/

/-- The variables of `midi_stream_append_buffer`. -/
structure AppendState where
  ptr : ℕ
  remaining : ℕ
  pendingDelta : UInt32
  stream : MidiStream

section

variable (hostAlloc : ℕ → Bool) (m : Bytes)

/-- The loop goes on in `next` if an event could be queued, and otherwise ends with zero. -/
def queued (next : MidiStream → AppendState) :
    Bool × MidiStream → AppendState ⊕ (Bool × MidiStream)
  | (true, s) => .inl (next s)
  | (false, s) => .inr (false, s)

/-- A round of the loop. -/
def appendRound (st : AppendState) : AppendState ⊕ (Bool × MidiStream) :=
  if st.remaining < 12 then .inr (true, st.stream)
  else
    let delta := m.u32 st.ptr
    let event := m.u32 (st.ptr + 8)
    let eventType := mevtEventtype event
    let parm := mevtEventparm event
    let ptr := st.ptr + 12
    let remaining := st.remaining - 12
    let pendingDelta := st.pendingDelta + delta
    if isCallback event then .inl ⟨ptr, remaining, pendingDelta, st.stream⟩
    else if isLong event then
      let longLen := parm
      let chunkLen := (chunkLen longLen).toNat
      if chunkLen > remaining then .inr (true, st.stream)
      else
        let next := fun s => ⟨ptr + chunkLen, remaining - chunkLen, 0, s⟩
        if eventType = mevtLongmsg then
          queued next (midiQueueSysex hostAlloc st.stream pendingDelta m ptr longLen)
        else .inl (next st.stream)
    else if eventType = mevtShortmsg then
      queued (fun s => ⟨ptr, remaining, 0, s⟩)
        (midiQueueShortMessage hostAlloc st.stream pendingDelta parm)
    else if eventType = mevtTempo then
      queued (fun s => ⟨ptr, remaining, 0, s⟩) (midiQueueTempo hostAlloc st.stream pendingDelta parm)
    -- a NOP, a comment, a version or an unknown event
    else .inl ⟨ptr, remaining, pendingDelta, st.stream⟩

variable {hostAlloc m}

theorem queued_eq_inl {next : MidiStream → AppendState} {r : Bool × MidiStream} {st : AppendState}
    (h : queued next r = .inl st) :
  ∃ s, st = next s
  := by
  obtain ⟨b, s⟩ := r
  cases b with
  | true =>
    cases h
    exact ⟨s, rfl⟩
  | false => cases h

theorem appendRound_remaining {st st' : AppendState} (h : appendRound hostAlloc m st = .inl st') :
  st'.remaining < st.remaining
  := by
  by_cases hend : st.remaining < 12
  · rw [appendRound, if_pos hend] at h
    cases h
  · have hle : st'.remaining ≤ st.remaining - 12 := by
      simp only [appendRound, if_neg hend] at h
      split at h
      · cases h
        apply le_refl
      · split at h
        · split at h
          · cases h
          · split at h
            · obtain ⟨s, rfl⟩ := queued_eq_inl h
              apply Nat.sub_le
            · cases h
              apply Nat.sub_le
        · split at h
          · obtain ⟨s, rfl⟩ := queued_eq_inl h
            apply le_refl
          · split at h
            · obtain ⟨s, rfl⟩ := queued_eq_inl h
              apply le_refl
            · cases h
              apply le_refl
    omega

variable (hostAlloc m)

def appendLoop : While AppendState (Bool × MidiStream) where
  round := appendRound hostAlloc m
  variant := AppendState.remaining
  variant_lt := appendRound_remaining

structure MidiHdr where
  lpData : ℕ
  dwBufferLength : UInt32
  dwBytesRecorded : UInt32

def MidiHdr.size (hdr : MidiHdr) : ℕ :=
  (if hdr.dwBytesRecorded ≠ 0 then hdr.dwBytesRecorded else hdr.dwBufferLength).toNat

def MidiHdr.start (hdr : MidiHdr) (s : MidiStream) : AppendState := ⟨hdr.lpData, hdr.size, 0, s⟩

def midiStreamAppendBuffer (s : MidiStream) (hdr : MidiHdr) : Bool × MidiStream :=
  if hdr.lpData = 0 then (false, s) else (appendLoop hostAlloc m).run (hdr.start s)

def readsFrom (st : AppendState) : List ℕ :=
  (((appendLoop hostAlloc m).states st).filter fun st => 12 ≤ st.remaining).map AppendState.ptr

def headerReads (s : MidiStream) (hdr : MidiHdr) : List ℕ :=
  if hdr.lpData = 0 then [] else readsFrom hostAlloc m (hdr.start s)

end

/-- The stream after a sequence of buffers, each with the memory at the time it is appended. -/
def appendBuffers (hostAlloc : ℕ → Bool) (s : MidiStream) (buffers : List (Bytes × MidiHdr)) :
    MidiStream :=
  buffers.foldl (fun s b => (midiStreamAppendBuffer hostAlloc b.1 s b.2).2) s

/-! ### The events of a buffer -/

section

variable (m : Bytes)

def payloadLen (event : UInt32) : ℕ :=
  if isLong event then (chunkLen (mevtEventparm event)).toNat else 0

/-- The headers in a buffer of `remaining` bytes from `a` on: their addresses, and the bytes that are
left of the buffer there. -/
def headers : ℕ → ℕ → ℕ → List (ℕ × ℕ)
  | 0, _, _ => []
  | n + 1, a, remaining =>
    if remaining < 12 then []
    else
      let len := payloadLen (m.u32 (a + 8))
      (a, remaining) :: headers n (a + 12 + len) (remaining - 12 - len)

def messageAt (a : ℕ) : Option MidiMessage :=
  let event := m.u32 (a + 8)
  let parm := mevtEventparm event
  if isCallback event then none
  else if isLong event then
    if mevtEventtype event = mevtLongmsg then some (.sysex (bytesAt m (a + 12) parm.toNat)) else none
  else if mevtEventtype event = mevtShortmsg then some (.short parm)
  else if mevtEventtype event = mevtTempo then some (.tempo (orDefaultTempo parm))
  else none

/-- The event at `a`.  `midi_stream_append_buffer` forgets the pending ticks at a long event, unless it
is a callback. -/
def itemAt (a : ℕ) : Item UInt32 MidiMessage where
  delta := m.u32 a
  message := messageAt m a
  resets := !isCallback (m.u32 (a + 8)) && isLong (m.u32 (a + 8))

def eventAt (h : ℕ × ℕ) : Option (Item UInt32 MidiMessage) :=
  if 12 + payloadLen (m.u32 (h.1 + 8)) ≤ h.2 then some (itemAt m h.1) else none

def bufferHeaders (hdr : MidiHdr) : List (ℕ × ℕ) :=
  if hdr.lpData = 0 then [] else headers m hdr.size hdr.lpData hdr.size

def bufferEnd : Item UInt32 MidiMessage := ⟨0, none, true⟩

def bufferItems (hdr : MidiHdr) : List (Item UInt32 MidiMessage) :=
  (bufferHeaders m hdr).filterMap (eventAt m) ++ [bufferEnd]

end

def streamItems (buffers : List (Bytes × MidiHdr)) : List (Item UInt32 MidiMessage) :=
  buffers.flatMap fun b => bufferItems b.1 b.2

end Winmm
