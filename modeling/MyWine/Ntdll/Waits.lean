import MyWine.Ntdll.ObjectTables

/-!
# Waits for events

`CreateEventA` of `msvcrt/kernel32_sync.c` makes a manual-reset event one of type `1`, and a wait takes
the type `1` for that of an auto-reset event.  Every successful wait therefore leaves the event in the
wrong state (`eventModes_iff`).

A wait with a timeout sleeps for the rest of the time in whole microseconds.  With less than one left
it sleeps for no time, over and over, and a number of nanoseconds past 64 bits is cut off.  For a sleep
that is interrupted the remainder is charged, which is the time slept only half-way.  The wait ends in
time exactly when none of this happens (`timedWait_iff`).
-/

namespace Ntdll

open HandleManager Syscall Function Run Option

/-! ### The mode of an event -/

def createEventA (ko : KoLayout) (bManualReset bInitialState : ℤ) (k : KernelState) :
    ℕ × KernelState :=
  let r := handlerNtCreateEvent ko (.ref .hHandle) (if bManualReset ≠ 0 then 1 else 0)
    (if bInitialState ≠ 0 then 1 else 0) ⟨fun _ => 0, fun _ => 0⟩ k
  (r.2.1.load (.ref .hHandle), r.2.2)

/-- A use of the event.  While a wait sleeps, nobody else changes the events. -/
inductive EventOp where
  | setEvent (previousState : Param) (s : Store)
  | resetEvent (previousState : Param) (s : Store)
  | wait (nanosleep : ℕ → ℕ → Option ℕ) (fuel : ℕ) (timeoutPtr : Param) (s : Store)

def Os.solo (nanosleep : ℕ → ℕ → Option ℕ) : Os :=
  ⟨nanosleep, fun _ events => events, fun _ _ => .error eperm⟩

def EventOp.result (h : ℕ) (w : Objects) : EventOp → Option (ℕ × Store × Objects)
  | .setEvent previousState s => some (handlerNtSetEvent h previousState s w)
  | .resetEvent previousState s => some (handlerNtResetEvent h previousState s w)
  | .wait nanosleep fuel timeoutPtr s =>
    handlerNtWaitForSingleObject (.solo nanosleep) (fuel + 1) h timeoutPtr s w

def eventStep (h : ℕ) (w : Objects) (op : EventOp) : Objects :=
  ((op.result h w).map fun r => r.2.2).getD w

def isSignaled (h : ℕ) (w : Objects) : Bool := (findEvent w (toInt h)).any w.signaled

def ModeOk (h : ℕ) (manual : Bool) (w : Objects) (op : EventOp) : Prop :=
  ∀ n f p s r, op = .wait n f p s → op.result h w = some r → r.1 = statusSuccess →
    isSignaled h r.2.2 = manual

def NotWaited (h : ℕ) (w : Objects) (op : EventOp) : Prop :=
  ∀ n f p s, op = .wait n f p s → isSignaled h w = false

section

variable {w w' : Objects} {h slot : ℕ} {nanosleep : ℕ → ℕ → Option ℕ}

def SameEvents (w w' : Objects) : Prop :=
  w'.eventCount = w.eventCount ∧ ∀ i, (w'.events i).handle = (w.events i).handle ∧
    (w'.events i).eventType = (w.events i).eventType

theorem SameEvents.refl (w : Objects) :
  SameEvents w w
  := ⟨rfl, fun _ => ⟨rfl, rfl⟩⟩

theorem SameEvents.setSignaled (w : Objects) (slot : ℕ) (v : ℤ) :
  SameEvents w (w.setSignaled slot v)
  := by
  use rfl
  intro i
  simp only [Objects.setSignaled, update_apply]
  split_ifs with hi
  · rw [hi]
    exact ⟨rfl, rfl⟩
  · exact ⟨rfl, rfl⟩

theorem SameEvents.findEvent_eq (hsame : SameEvents w w') (handle : ℤ) :
  findEvent w' handle = findEvent w handle
  := by
  simp only [findEvent, hsame.1, hsame.2]

theorem wait_of_signaled {os : Os} {fuel : ℕ} {p : Param} {s : Store}
    (hfind : findEvent w (toInt h) = some slot) (hsignaled : w.signaled slot = true) :
  handlerNtWaitForSingleObject os (fuel + 1) h p s w = some (statusSuccess, s, w.consume slot)
  := by
  have hpoll : poll slot w = (statusSuccess, w.consume slot) := if_pos hsignaled
  simp [handlerNtWaitForSingleObject, hfind, waitForever, waitTimeout, waitRelative, hsignaled,
    hpoll]

theorem waitForever_solo (hw : w.signaled slot = false) (fuel : ℕ) :
  waitForever (.solo nanosleep) slot fuel w = none
  := by
  induction fuel generalizing w with
  | zero => rfl
  | succ fuel ih =>
    rw [waitForever, hw, if_neg Bool.false_ne_true]
    apply ih
    exact hw

theorem waitRelative_solo {d fuel elapsed : ℕ} {r : ℕ × Objects} (hw : w.signaled slot = false)
    (hr : waitRelative (.solo nanosleep) slot d fuel elapsed w = some r) :
  r.1 = statusTimeout ∧ SameEvents w r.2
  := by
  induction fuel generalizing w elapsed with
  | zero => cases hr
  | succ fuel ih =>
    rw [waitRelative, poll, hw, if_neg Bool.false_ne_true, if_neg Bool.false_ne_true] at hr
    split_ifs at hr
    · apply ih (by exact hw) hr
    · cases hr
      exact ⟨rfl, SameEvents.refl w⟩

theorem wait_of_not_signaled {fuel : ℕ} {p : Param} {s : Store} {r : ℕ × Store × Objects}
    (hfind : findEvent w (toInt h) = some slot) (hw : w.signaled slot = false)
    (hr : handlerNtWaitForSingleObject (.solo nanosleep) fuel h p s w = some r) :
  r.1 = statusTimeout ∧ SameEvents w r.2.2
  := by
  have hpoll : poll slot w = (statusTimeout, w) := by rw [poll, hw, if_neg Bool.false_ne_true]
  simp only [handlerNtWaitForSingleObject, hfind, waitForever_solo hw, waitTimeout, hpoll] at hr
  split_ifs at hr
  · cases hr
  · cases hr
    exact ⟨rfl, SameEvents.refl w⟩
  · obtain ⟨r', hr', rfl⟩ := map_eq_some_iff.mp hr
    apply waitRelative_solo hw hr'
  · cases hr
    exact ⟨rfl, SameEvents.refl w⟩

def Created (h : ℕ) (manual : Bool) (w : Objects) : Prop :=
  ∃ slot, findEvent w (toInt h) = some slot ∧ (w.events slot).eventType = if manual then 1 else 0

theorem Created.step {manual : Bool} (hw : Created h manual w) (op : EventOp) :
  Created h manual (eventStep h w op)
  := by
  obtain ⟨slot, hfind, htype⟩ := hw
  have hsame : SameEvents w (eventStep h w op) := by
    cases op with
    | setEvent p s =>
      simp only [eventStep, EventOp.result, handlerNtSetEvent, changeEvent, hfind]
      apply SameEvents.setSignaled
    | resetEvent p s =>
      simp only [eventStep, EventOp.result, handlerNtResetEvent, changeEvent, hfind]
      apply SameEvents.setSignaled
    | wait n f p s =>
      rw [eventStep, EventOp.result]
      cases hsignaled : w.signaled slot with
      | true =>
        rw [wait_of_signaled hfind hsignaled, map_some, getD_some, Objects.consume]
        split_ifs
        · apply SameEvents.setSignaled
        · apply SameEvents.refl
      | false =>
        cases hr : handlerNtWaitForSingleObject (.solo n) (f + 1) h p s w with
        | none => apply SameEvents.refl
        | some r => apply (wait_of_not_signaled hfind hsignaled hr).2
  use slot
  rw [hsame.findEvent_eq, (hsame.2 slot).2]
  exact ⟨hfind, htype⟩

theorem Created.modeOk_iff {manual : Bool} (hw : Created h manual w) (op : EventOp) :
  ModeOk h manual w op ↔ NotWaited h w op
  := by
  obtain ⟨slot, hfind, htype⟩ := hw
  cases op with
  | setEvent p s => apply iff_of_true nofun nofun
  | resetEvent p s => apply iff_of_true nofun nofun
  | wait n f p s =>
    have hw : isSignaled h w = w.signaled slot := by rw [isSignaled, hfind, any_some]
    cases hsignaled : w.signaled slot with
    | true =>
      refine iff_of_false ?_ ?_
      · intro hok
        have hafter := hok n f p s _ rfl (wait_of_signaled hfind hsignaled) rfl
        revert hafter
        rw [Objects.consume, htype]
        cases manual with
        | true =>
          rw [if_pos rfl, if_pos rfl, isSignaled, (SameEvents.setSignaled w slot 0).findEvent_eq,
            hfind, any_some]
          simp [Objects.signaled, Objects.setSignaled]
        | false =>
          rw [if_neg Bool.false_ne_true, if_neg (by decide), hw, hsignaled]
          nofun
      · intro hnot
        rw [hnot n f p s rfl] at hw
        exact absurd (hw.trans hsignaled) Bool.false_ne_true
    | false =>
      refine iff_of_true ?_ (fun _ _ _ _ _ => hw.trans hsignaled)
      rintro n f p s r ⟨⟩ hr hsuccess
      rw [(wait_of_not_signaled hfind hsignaled hr).1] at hsuccess
      cases hsuccess

end

theorem created_createEventA {ko : KoLayout} {bManualReset bInitialState : ℤ} {k : KernelState}
    {r : ℕ × KernelState} (hr : createEventA ko bManualReset bInitialState k = r) (hne : r.1 ≠ 0)
    (hfresh : findEvent k.toObjects (toInt r.1) = none) :
  Created r.1 (bManualReset ≠ 0) r.2.toObjects
  := by
  rw [createEventA, handlerNtCreateEvent] at hr
  by_cases hmax : maxEvents ≤ k.eventCount
  · simp only [if_pos hmax] at hr
    subst hr
    exact absurd rfl hne
  rw [if_neg hmax] at hr
  rcases wineHandleAlloc_cases k.handles handleTypeEvent (koEvent ko k.eventCount) with
    ⟨i, h3, -, halloc⟩ | ⟨-, halloc⟩
  · have hi : i.val ≠ 0 := by omega
    simp only [halloc, if_neg hi] at hr
    subst hr
    have hload : (Store.storeUnlessNull ⟨fun _ => 0, fun _ => 0⟩ i.val (.ref .hHandle)).load
        (.ref .hHandle) = i.val := rfl
    simp only [hload] at hfresh ⊢
    refine ⟨k.eventCount, ?_, ?_⟩
    · rw [findEvent, List.find?_eq_none] at hfresh
      rw [findEvent, List.range_succ, List.find?_append, List.find?_eq_none.mpr]
      · simp
      · intro j hj
        simp only [update_of_ne (List.mem_range.mp hj).ne]
        apply hfresh j hj
    · simp only [update_self]
      by_cases hmanual : bManualReset ≠ 0
      · simp only [if_pos hmanual, decide_eq_true hmanual]
        apply toInt_of_lt (by decide)
      · simp only [if_neg hmanual, decide_eq_true_eq]
        apply toInt_of_lt (by decide)
  · simp only [halloc, if_true] at hr
    subst hr
    exact absurd rfl hne

/-- In a run of uses of an event the waits are right if and only if the event is not signaled when it
is waited for. -/
theorem eventModes_iff (ko : KoLayout) (bManualReset bInitialState : ℤ) (k : KernelState)
    (hne : (createEventA ko bManualReset bInitialState k).1 ≠ 0)
    (hfresh : findEvent k.toObjects (toInt (createEventA ko bManualReset bInitialState k).1) = none)
    (ops : List EventOp) :
  let h := (createEventA ko bManualReset bInitialState k).1
  let w := (createEventA ko bManualReset bInitialState k).2.toObjects
  Along (eventStep h) (ModeOk h (bManualReset ≠ 0)) w ops ↔ Along (eventStep h) (NotWaited h) w ops
  := by
  apply along_iff_of_invariant (Created _ (bManualReset ≠ 0))
  · intro w op hw _
    apply hw.step
  · intro w op hw
    apply hw.modeOk_iff
  · apply created_createEventA rfl hne hfresh

/-- A manual-reset event that is not signaled is waited for without success. -/
theorem eventModes_timeout :
  let r := createEventA ⟨0, 0, 0, 0⟩ 1 0 .init
  Along (eventStep r.1) (ModeOk r.1 (decide ((1 : ℤ) ≠ 0))) r.2.toObjects
    [.wait (fun _ _ => none) 0 (.val 0x1000) ⟨fun _ => 0, fun _ => 0⟩]
  :=
  (eventModes_iff ⟨0, 0, 0, 0⟩ 1 0 .init (by decide +kernel) (by decide +kernel) _).mpr
    ⟨fun _ _ _ _ _ => by decide +kernel, trivial⟩

/-- Of two waits for an event that was created signaled, the second one fails for a manual-reset event
and succeeds for an auto-reset event. -/
theorem eventModes_swapped :
  let wait : EventOp := .wait (fun _ _ => none) 0 (.val 0x1000) ⟨fun _ => 0, fun _ => 0⟩
  let second (r : ℕ × KernelState) := (wait.result r.1 (eventStep r.1 r.2.toObjects wait)).map Prod.fst
  second (createEventA ⟨0, 0, 0, 0⟩ 1 1 .init) = some statusTimeout ∧
    second (createEventA ⟨0, 0, 0, 0⟩ 0 1 .init) = some statusSuccess
  := by
  decide +kernel

/-! ### Timeouts -/

/-- The sleeps of the loop of a wait: the nanoseconds that it asks for, and the remainder. -/
def sleepsOf (os : Os) (slot delayNs : ℕ) : ℕ → ℕ → Objects → List (ℕ × Option ℕ)
  | 0, _, _ => []
  | fuel + 1, elapsed, w =>
    if elapsed < delayNs ∧ w.signaled slot = false then
      let ns := min ((delayNs - elapsed) / 1000) 100000 * 1000
      let (rem, w) := os.sleep ns w
      (ns, rem) :: sleepsOf os slot delayNs fuel ((elapsed + rem.getD ns) % 2 ^ 64) w
    else []

def sleptFor (x : ℕ × Option ℕ) : ℕ := x.1 - x.2.getD 0

def chargedFor (x : ℕ × Option ℕ) : ℕ := x.2.getD x.1

/-- The wait ends with the timeout, has charged for each sleep the time that it slept, and has slept for
the timeout up to a microsecond. -/
def TimedOk (os : Os) (slot timeout : ℕ) (w : Objects) : Prop :=
  ∃ fuel w', waitTimeout os fuel slot timeout w = some (statusTimeout, w') ∧
    let l := sleepsOf os slot ((2 ^ 64 - timeout) * 100 % 2 ^ 64) fuel 0 w
    (∀ x ∈ l, chargedFor x = sleptFor x) ∧ (2 ^ 64 - timeout) * 100 ≤ (l.map sleptFor).sum + 1000

/-- The sleep is for a microsecond at least, and if it is interrupted, then half-way. -/
def SleepOk (x : ℕ × Option ℕ) : Prop := 0 < x.1 ∧ ∀ r ∈ x.2, 2 * r = x.1

theorem chargedFor_eq_sleptFor_iff (x : ℕ × Option ℕ) :
  chargedFor x = sleptFor x ↔ ∀ r ∈ x.2, 2 * r = x.1
  := by
  rcases x with ⟨ns, _ | r⟩
  · simp [chargedFor, sleptFor]
  · simp only [chargedFor, sleptFor, getD_some, mem_def, some.injEq, forall_eq']
    omega

section

variable {os : Os} {slot d e fuel : ℕ} {w : Objects}
  (hnever : ∀ n events, (events slot).signaled = 0 → (os.others n events slot).signaled = 0)
include hnever

theorem waitRelative_round (hw : (w.events slot).signaled = 0) (he : e < d) :
  ∃ x w', x.1 = min ((d - e) / 1000) 100000 * 1000 ∧ (w'.events slot).signaled = 0 ∧ ∀ fuel,
    waitRelative os slot d (fuel + 1) e w =
        waitRelative os slot d fuel ((e + chargedFor x) % 2 ^ 64) w' ∧
      sleepsOf os slot d (fuel + 1) e w =
        x :: sleepsOf os slot d fuel ((e + chargedFor x) % 2 ^ 64) w'
  := by
  have hsignaled : w.signaled slot = false := by simp [Objects.signaled, hw]
  let r := os.sleep (min ((d - e) / 1000) 100000 * 1000) w
  refine ⟨(min ((d - e) / 1000) 100000 * 1000, r.1), r.2, rfl, hnever _ _ hw, fun fuel => ?_⟩
  constructor
  · rw [waitRelative, if_pos he, hsignaled, if_neg Bool.false_ne_true]
    rfl
  · rw [sleepsOf, if_pos ⟨he, hsignaled⟩]
    rfl

omit hnever in
theorem elapsed_of_charged {x : ℕ × Option ℕ} (hx : x.1 = min ((d - e) / 1000) 100000 * 1000)
    (he : e < d) (hd : d < 2 ^ 64) (hcharged : chargedFor x = sleptFor x) :
  (e + chargedFor x) % 2 ^ 64 = e + sleptFor x ∧ e + sleptFor x ≤ d
  := by
  have hle : e + sleptFor x ≤ d := by
    rw [sleptFor, hx]
    omega
  rw [hcharged, Nat.mod_eq_of_lt (by omega)]
  exact ⟨rfl, hle⟩

theorem sleepOk_of_waitRelative {r : ℕ × Objects} (hw : (w.events slot).signaled = 0) (he : e ≤ d)
    (hd : d < 2 ^ 64) (hr : waitRelative os slot d fuel e w = some r)
    (hcharged : ∀ x ∈ sleepsOf os slot d fuel e w, chargedFor x = sleptFor x) :
  e + ((sleepsOf os slot d fuel e w).map sleptFor).sum = d ∧
    ∀ fuel', ∀ x ∈ sleepsOf os slot d fuel' e w, SleepOk x
  := by
  induction fuel generalizing e w with
  | zero => cases hr
  | succ fuel ih =>
    rcases he.eq_or_lt with rfl | hlt
    · have hnone (fuel : ℕ) : sleepsOf os slot e fuel e w = [] := by
        cases fuel with
        | zero => rfl
        | succ fuel => simp [sleepsOf]
      simp [hnone]
    · obtain ⟨x, w₁, hx, hw₁, hround⟩ := waitRelative_round hnever hw hlt
      rw [(hround fuel).2, List.forall_mem_cons] at hcharged
      obtain ⟨helapsed, hle⟩ := elapsed_of_charged hx hlt hd hcharged.1
      simp only [helapsed] at hround hcharged
      rw [(hround fuel).1] at hr
      obtain ⟨hsum, hrest⟩ := ih hw₁ hle hr hcharged.2
      -- With a sleep for no time the next one would be for no time as well.
      have hpos : 0 < x.1 := by
        by_contra hzero
        have hslept : sleptFor x = 0 := by
          rw [sleptFor]
          omega
        rw [hslept, Nat.add_zero] at hrest
        obtain ⟨x', w₂, hx', -, hround'⟩ := waitRelative_round hnever hw₁ hlt
        have hfirst := hrest 1
        rw [(hround' 0).2] at hfirst
        have hpos := (hfirst x' List.mem_cons_self).1
        omega
      refine ⟨?_, ?_⟩
      · rw [(hround fuel).2, List.map_cons, List.sum_cons, ← Nat.add_assoc, hsum]
      · intro fuel'
        cases fuel' with
        | zero => nofun
        | succ fuel' =>
          rw [(hround fuel').2, List.forall_mem_cons]
          exact ⟨⟨hpos, (chargedFor_eq_sleptFor_iff x).mp hcharged.1⟩, hrest fuel'⟩

theorem waitRelative_of_sleepOk (hw : (w.events slot).signaled = 0) (he : e ≤ d) (hd : d < 2 ^ 64)
    (h : ∀ fuel, ∀ x ∈ sleepsOf os slot d fuel e w, SleepOk x) :
  ∃ fuel w', waitRelative os slot d fuel e w = some (statusTimeout, w')
  := by
  obtain ⟨n, hn⟩ := Nat.exists_eq_add_of_le he
  induction n using Nat.strong_induction_on generalizing e w with
  | _ n ih =>
    rcases he.eq_or_lt with rfl | hlt
    · exact ⟨1, w, by simp [waitRelative, poll, Objects.signaled, hw]⟩
    · obtain ⟨x, w₁, hx, hw₁, hround⟩ := waitRelative_round hnever hw hlt
      have hfirst (fuel : ℕ) := h (fuel + 1)
      simp only [(hround _).2, List.forall_mem_cons] at hfirst
      obtain ⟨hpos, hhalf⟩ := (hfirst 0).1
      have hcharged := (chargedFor_eq_sleptFor_iff x).mpr hhalf
      obtain ⟨helapsed, hle⟩ := elapsed_of_charged hx hlt hd hcharged
      simp only [helapsed] at hround hfirst
      have hslept : 0 < sleptFor x := by
        rcases x with ⟨ns, _ | r⟩
        · exact hpos
        · have hhalf := hhalf r rfl
          simp only [sleptFor, getD_some] at hpos hhalf ⊢
          omega
      obtain ⟨fuel, w', hwait⟩ := ih (n - sleptFor x) (by omega) hw₁ hle
        (fun fuel => (hfirst fuel).2) (by omega)
      exact ⟨fuel + 1, w', by rw [(hround fuel).1, hwait]⟩

/-- A wait ends in time if and only if its nanoseconds have 64 bits, every sleep is for a microsecond at
least, and those that are interrupted are so half-way. -/
theorem timedWait_iff {timeout : ℕ} (hneg : 2 ^ 63 ≤ timeout) (hlt : timeout < 2 ^ 64)
    (hw : (w.events slot).signaled = 0) :
  TimedOk os slot timeout w ↔ (2 ^ 64 - timeout) * 100 < 2 ^ 64 ∧
    ∀ fuel, ∀ x ∈ sleepsOf os slot ((2 ^ 64 - timeout) * 100) fuel 0 w, SleepOk x
  := by
  have hwait (fuel : ℕ) : waitTimeout os fuel slot timeout w =
      waitRelative os slot ((2 ^ 64 - timeout) * 100 % 2 ^ 64) fuel 0 w := by
    rw [waitTimeout, if_neg (by omega), if_pos hneg]
  simp only [TimedOk, hwait]
  clear hwait hneg hlt
  generalize (2 ^ 64 - timeout) * 100 = n
  have hd := Nat.mod_lt n (Nat.two_pow_pos 64)
  constructor
  · rintro ⟨fuel, w', hr, hcharged, hle⟩
    obtain ⟨hsum, hok⟩ := sleepOk_of_waitRelative hnever hw (Nat.zero_le _) hd hr hcharged
    have hsmall : n < 2 ^ 64 := by omega
    rw [Nat.mod_eq_of_lt hsmall] at hok
    exact ⟨hsmall, hok⟩
  · rintro ⟨hsmall, hok⟩
    rw [Nat.mod_eq_of_lt hsmall]
    obtain ⟨fuel, w', hr⟩ := waitRelative_of_sleepOk hnever hw (Nat.zero_le _) hsmall hok
    have hcharged : ∀ x ∈ sleepsOf os slot n fuel 0 w, chargedFor x = sleptFor x :=
      fun x hx => (chargedFor_eq_sleptFor_iff x).mpr (hok fuel x hx).2
    obtain ⟨hsum, -⟩ := sleepOk_of_waitRelative hnever hw (Nat.zero_le _) hsmall hr hcharged
    exact ⟨fuel, w', hr, hcharged, by omega⟩

end

/-- The first sleep of a wait of 1500 nanoseconds is interrupted half-way. -/
theorem timedWait_interrupted :
  TimedOk (.solo fun n _ => if n = 0 then some 500 else none) 0 (2 ^ 64 - 15)
    KernelState.init.toObjects
  := by
  apply (timedWait_iff (fun _ _ => id) (by decide) (by decide) rfl).mpr
  refine ⟨by decide, fun fuel => ?_⟩
  have hhalf : SleepOk (1000, some 500) := ⟨by decide, by rintro r ⟨⟩; rfl⟩
  have hfull : SleepOk (1000, none) := ⟨by decide, nofun⟩
  rcases fuel with _ | _ | _ | fuel
  · nofun
  · exact List.forall_mem_singleton.mpr hhalf
  all_goals exact List.forall_mem_cons.mpr ⟨hhalf, List.forall_mem_singleton.mpr hfull⟩

/-- A wait of 100 nanoseconds does not end, and one whose sleep of two milliseconds is interrupted at
once ends without having slept. -/
theorem timedWait_fails :
  (∀ fuel, waitTimeout (.solo fun _ _ => none) fuel 0 (2 ^ 64 - 1) KernelState.init.toObjects = none) ∧
    let os := Os.solo fun _ _ => some 2000000
    (waitTimeout os 2 0 (2 ^ 64 - 20000) KernelState.init.toObjects).map Prod.fst =
        some statusTimeout ∧
      ((sleepsOf os 0 2000000 2 0 KernelState.init.toObjects).map sleptFor).sum = 0
  := by
  constructor
  · have hnone (fuel : ℕ) (w : Objects) (hw : w.signaled 0 = false) :
        waitRelative (.solo fun _ _ => none) 0 100 fuel 0 w = none := by
      induction fuel generalizing w with
      | zero => rfl
      | succ fuel ih =>
        rw [waitRelative, if_pos (by decide), hw, if_neg Bool.false_ne_true]
        apply ih
        exact hw
    intro fuel
    apply hnone fuel _ rfl
  · decide +kernel

end Ntdll
