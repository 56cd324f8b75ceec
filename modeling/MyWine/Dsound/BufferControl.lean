import Mathlib.Data.Int.Order.Basic
import Mathlib.Tactic.Tauto

/-!
# The setters of a DirectSound buffer

`dsound_buffer_control.c` and `dsound_apply_format`.  A setter changes the buffer before it calls the
backend, and only `SetFormat` undoes the change when the backend refuses.  It takes the frequency for
that from the old format, where a call of `SetFrequency` is lost.  A setter that fails leaves the
buffer as it was exactly if its `Atomic` holds (`atomic_iff`).
-/

namespace Dsound

inductive HResult where
  | ok | invalidParam | controlUnavail | invalidCall | unsupported
  deriving DecidableEq

structure WaveFormat where
  wFormatTag : UInt16
  nChannels : UInt16
  nSamplesPerSec : UInt32
  nAvgBytesPerSec : UInt32
  nBlockAlign : UInt16
  wBitsPerSample : UInt16
  cbSize : UInt16
  deriving DecidableEq

/-- The settings of an `rb_audio_buf`; its gains are computed from `volume` and `pan`. -/
structure RbBuffer where
  volume : ℤ
  pan : ℤ
  frequency : UInt32
  deriving DecidableEq

/-- A `my_ds_buffer_t`, with what its pointers lead to: `rbBuffer` tells whether there is a handle of
the backend, `backend` is the buffer of that handle, and `primaryFormat` is that of the owner. -/
structure DsBuffer where
  format : WaveFormat
  frequency : UInt32
  volume : ℤ
  pan : ℤ
  isPrimary : Bool
  rbBuffer : Bool
  backend : Option RbBuffer
  primaryFormat : Option WaveFormat
  deriving DecidableEq

/-- Which functions of the backend are linked, and what `rb_audio_open` returns. -/
structure Backend where
  audioOpen : Option Bool
  setVolume : Bool
  setPan : Bool
  setFrequency : Bool

/-- The checks of `dsound_apply_format`. -/
def checkFormat (f : WaveFormat) : HResult :=
  if f.wFormatTag ≠ 1 then .unsupported
  else if f.nChannels = 0 ∨ f.nSamplesPerSec = 0 ∨ f.wBitsPerSample = 0 then .invalidParam
  else if f.wBitsPerSample ≠ 8 ∧ f.wBitsPerSample ≠ 16 then .unsupported
  else if f.nBlockAlign ≠ f.nChannels * (f.wBitsPerSample / 8) then .invalidParam
  else if f.nAvgBytesPerSec ≠ f.nSamplesPerSec * f.nBlockAlign.toUInt32 then .invalidParam
  else .ok

def applyFormat (f : WaveFormat) (b : DsBuffer) : HResult × DsBuffer :=
  if checkFormat f ≠ .ok then (checkFormat f, b)
  else (.ok, { b with format := f, frequency := f.nSamplesPerSec })

def rbSetVolume (volume : ℤ) (r : Option RbBuffer) : Option RbBuffer :=
  r.map fun r => { r with volume := max (-10000) (min volume 0) }

def rbSetPan (pan : ℤ) (r : Option RbBuffer) : Option RbBuffer :=
  r.map fun r => { r with pan := max (-10000) (min pan 10000) }

def rbSetFrequency (freq : UInt32) (r : Option RbBuffer) : Option RbBuffer :=
  if freq = 0 then none else r.map fun r => { r with frequency := freq }

def setFormat (e : Backend) (f : WaveFormat) (b : DsBuffer) : HResult × DsBuffer :=
  let (hr, b') := applyFormat f b
  let old := { b' with format := b.format, frequency := b.format.nSamplesPerSec }
  if hr ≠ .ok then (hr, b')
  else if b.isPrimary then
    match e.audioOpen with
    | none => (.unsupported, b')
    | some false => (.invalidCall, old)
    | some true => (.ok, { b' with primaryFormat := b.primaryFormat.map fun _ => f })
  else if !b.rbBuffer || !e.setFrequency then (.controlUnavail, old)
  else if f.nChannels ≠ b.format.nChannels ∨ f.wBitsPerSample ≠ b.format.wBitsPerSample ∨
      f.nBlockAlign ≠ b.format.nBlockAlign then (.unsupported, old)
  else
    match rbSetFrequency f.nSamplesPerSec b.backend with
    | none => (.invalidCall, old)
    | some r => (.ok, { b' with backend := some r })

/-- The common form of `SetVolume`, `SetPan` and `SetFrequency`. -/
def setControl (valid linked : Bool) (b' : DsBuffer) (rb : Option RbBuffer → Option RbBuffer)
    (b : DsBuffer) : HResult × DsBuffer :=
  if !valid then (.invalidParam, b)
  else if b.isPrimary then (.ok, b')
  else if !b.rbBuffer || !linked then (.controlUnavail, b')
  else
    match rb b.backend with
    | none => (.invalidCall, b')
    | some r => (.ok, { b' with backend := some r })

def setVolume (e : Backend) (volume : ℤ) (b : DsBuffer) : HResult × DsBuffer :=
  setControl (-10000 ≤ volume ∧ volume ≤ 0) e.setVolume { b with volume } (rbSetVolume volume) b

def setPan (e : Backend) (pan : ℤ) (b : DsBuffer) : HResult × DsBuffer :=
  setControl (-10000 ≤ pan ∧ pan ≤ 10000) e.setPan { b with pan } (rbSetPan pan) b

def resolveFrequency (freq : UInt32) (b : DsBuffer) : UInt32 :=
  if freq = 0 then b.format.nSamplesPerSec else freq

def setFrequency (e : Backend) (freq : UInt32) (b : DsBuffer) : HResult × DsBuffer :=
  let frequency := resolveFrequency freq b
  setControl (100 ≤ frequency ∧ frequency ≤ 200000) e.setFrequency { b with frequency }
    (rbSetFrequency frequency) b

/-- A call of a setter, where `format none` passes no format. -/
inductive Setter where
  | format (f : Option WaveFormat)
  | frequency (freq : UInt32)
  | volume (v : ℤ)
  | pan (p : ℤ)

def Setter.call (e : Backend) (b : DsBuffer) : Setter → HResult × DsBuffer
  | .format none => (.invalidParam, b)
  | .format (some f) => setFormat e f b
  | .frequency freq => setFrequency e freq b
  | .volume v => setVolume e v b
  | .pan p => setPan e p b

/-! ### When a failure changes nothing -/

/-- The backend has a buffer that a linked function can set. -/
def Settable (linked : Bool) (b : DsBuffer) : Prop := b.rbBuffer ∧ linked ∧ b.backend.isSome

/-- The condition on the state before the call: the call is refused at once or succeeds, or what it
leaves behind is what was there. -/
def Setter.Atomic (e : Backend) (b : DsBuffer) : Setter → Prop
  | .format none => True
  | .format (some f) => checkFormat f ≠ .ok ∨
      if b.isPrimary then
        match e.audioOpen with
        | none => f = b.format ∧ f.nSamplesPerSec = b.frequency
        | some opened => opened ∨ b.format.nSamplesPerSec = b.frequency
      else Settable e.setFrequency b ∧ f.nChannels = b.format.nChannels ∧
          f.wBitsPerSample = b.format.wBitsPerSample ∧ f.nBlockAlign = b.format.nBlockAlign ∨
        b.format.nSamplesPerSec = b.frequency
  | .frequency freq =>
    100 ≤ resolveFrequency freq b ∧ resolveFrequency freq b ≤ 200000 →
      b.isPrimary ∨ Settable e.setFrequency b ∨ resolveFrequency freq b = b.frequency
  | .volume v => -10000 ≤ v ∧ v ≤ 0 → b.isPrimary ∨ Settable e.setVolume b ∨ v = b.volume
  | .pan p => -10000 ≤ p ∧ p ≤ 10000 → b.isPrimary ∨ Settable e.setPan b ∨ p = b.pan

variable {b b' : DsBuffer}

theorem setControl_iff {valid linked : Bool} {rb : Option RbBuffer → Option RbBuffer}
    (hrb : valid → (rb b.backend).isSome = b.backend.isSome) :
  ((setControl valid linked b' rb b).1 ≠ .ok → (setControl valid linked b' rb b).2 = b) ↔
    (valid → b.isPrimary ∨ Settable linked b ∨ b' = b)
  := by
  rw [setControl, Settable]
  grind

theorem setFormat_iff (e : Backend) (f : WaveFormat) (b : DsBuffer) :
  ((setFormat e f b).1 ≠ .ok → (setFormat e f b).2 = b) ↔ (Setter.format (some f)).Atomic e b
  := by
  obtain ⟨format, frequency, volume, pan, isPrimary, rbBuffer, backend, primaryFormat⟩ := b
  by_cases hok : checkFormat f = .ok
  · have hne : f.nSamplesPerSec ≠ 0 := by
      rw [checkFormat] at hok
      split_ifs at hok with h₁ h₂
      tauto
    simp only [setFormat, applyFormat, Setter.Atomic, Settable, rbSetFrequency, hok, hne]
    cases isPrimary with
    | true => rcases e.audioOpen with _ | _ | _ <;> simp
    | false =>
      cases backend with
      | none => grind
      | some r => grind
  · simp [setFormat, applyFormat, Setter.Atomic, hok]

/-- A setter that fails leaves the buffer and its backend as they were exactly if it is atomic. -/
theorem atomic_iff (e : Backend) (b : DsBuffer) (c : Setter) :
  ((c.call e b).1 ≠ .ok → (c.call e b).2 = b) ↔ c.Atomic e b
  := by
  cases c with
  | format f =>
    cases f with
    | none => simp [Setter.call, Setter.Atomic]
    | some f => apply setFormat_iff
  | frequency freq =>
    have hfield : { b with frequency := resolveFrequency freq b } = b ↔
        resolveFrequency freq b = b.frequency := by
      cases b
      simp
    rw [Setter.call, setFrequency, setControl_iff, hfield, decide_eq_true_eq, Setter.Atomic]
    rw [decide_eq_true_eq, rbSetFrequency]
    grind
  | volume v =>
    have hfield : { b with volume := v } = b ↔ v = b.volume := by
      cases b
      simp
    rw [Setter.call, setVolume, setControl_iff, hfield, decide_eq_true_eq, Setter.Atomic]
    simp [rbSetVolume]
  | pan p =>
    have hfield : { b with pan := p } = b ↔ p = b.pan := by
      cases b
      simp
    rw [Setter.call, setPan, setControl_iff, hfield, decide_eq_true_eq, Setter.Atomic]
    simp [rbSetPan]

/-- A buffer whose frequency was set to 11025 after it was made with 22050. -/
def slowed : DsBuffer where
  format := ⟨1, 1, 22050, 22050, 1, 8, 0⟩
  frequency := 11025
  volume := 0
  pan := 0
  isPrimary := false
  rbBuffer := true
  backend := some ⟨0, 0, 11025⟩
  primaryFormat := none

theorem frequency_lost :
  let c := Setter.format (some ⟨1, 2, 22050, 44100, 2, 8, 0⟩)
  (c.call ⟨some true, true, true, true⟩ slowed).1 = .unsupported ∧
    (c.call ⟨some true, true, true, true⟩ slowed).2.frequency = 22050 ∧ slowed.frequency = 11025
  := by
  decide +kernel

end Dsound
