import Mathlib.Data.Finset.Card
import MyWine.Ntdll.ObjectTables

/-!
# Events as a map

To the guest an event is what its handle stands for: the live handles are a map from numbers to
objects, and an event is its type and whether it is signaled (`HandleMap`).  `Spec` says what the
calls do to that map.

`find_event` does not go through the handle table.  It searches the table of events, from which no
event is ever removed, for the number of the handle, and so it also finds the events that have been
closed.  Along a run in which no call is made on a number that a closed event had, and no event is
created when closed events fill the table, the calls do what the map says (`events_refine_map`).
-/

namespace Ntdll

open HandleManager Syscall Function Option Finset

/-! ### The abstract map -/

/-- What a live handle stands for: an event, or an object of another type. -/
inductive Object where
  | event (eventType : ℤ) (signaled : Bool)
  | other (type : UInt8)
  deriving DecidableEq

abbrev HandleMap : Type := ℕ → Option Object

def Object.isEvent : Object → Bool
  | .event _ _ => true
  | .other _ => false

def HandleMap.Free (m : HandleMap) (h : ℕ) : Prop := 3 ≤ h ∧ h < handleTableSize ∧ m h = none

instance (m : HandleMap) (h : ℕ) : Decidable (m.Free h) := inferInstanceAs (Decidable (_ ∧ _ ∧ _))

def HandleMap.liveEvents (m : HandleMap) : ℕ :=
  ((range handleTableSize).filter fun h => (m h).any Object.isEvent).card

/-- A call of the guest.  The timeout of `wait` is zero. -/
inductive ObjectCall where
  | createEvent (eventHandle : Param) (eventType initialState : ℕ)
  | setEvent (handle : ℕ) (previousState : Param)
  | resetEvent (handle : ℕ) (previousState : Param)
  | wait (handle : ℕ)
  | close (handle : ℕ)
  | createMutex (mutexHandle : Param)
  | createSemaphore (semaphoreHandle : Param) (initialCount maximumCount : ℕ)
  | createSection (sectionHandle maxSize : Param) (pageProtection fileHandle : ℕ)

section

variable (s : Store) (m : HandleMap) (status : ℕ) (s' : Store) (m' : HandleMap)

def Fails (error : ℕ) : Prop := status = error ∧ s' = s ∧ m' = m

def SpecChange (v : Bool) (handle : ℕ) (previousState : Param) : Prop :=
  match m handle with
  | some (.event eventType signaled) =>
    status = statusSuccess ∧
      s' = s.storeUnlessNull (if signaled then 1 else 0) previousState ∧
      m' = update m handle (some (.event eventType v))
  | _ => Fails s m status s' m' statusInvalidHandle

def SpecOther (type : UInt8) : Prop :=
  m' = m ∨ ∃ h, m.Free h ∧ m' = update m h (some (.other type))

/-- What a call does to the map, the status that it returns and what it stores. -/
def Spec : ObjectCall → Prop
  | .createEvent eventHandle eventType initialState =>
    if m.liveEvents < maxEvents ∧ ∃ h < handleTableSize, m.Free h then
      status = statusSuccess ∧ ∃ h, m.Free h ∧ s' = s.storeUnlessNull h eventHandle ∧
        m' = update m h (some (.event (toInt eventType) (initialState ≠ 0)))
    else Fails s m status s' m' statusMemoryNotAvailable
  | .setEvent handle previousState => SpecChange s m status s' m' true handle previousState
  | .resetEvent handle previousState => SpecChange s m status s' m' false handle previousState
  | .wait handle =>
    match m handle with
    | some (.event eventType true) =>
      status = statusSuccess ∧ s' = s ∧
        m' = if eventType = 1 then update m handle (some (.event eventType false)) else m
    | some (.event _ false) => Fails s m status s' m' statusTimeout
    | _ => Fails s m status s' m' statusInvalidHandle
  | .close handle =>
    if IsStandard handle then status = statusSuccess ∧ s' = s ∧ m' = m
    else if m handle = none then Fails s m status s' m' statusInvalidHandle
    else status = statusSuccess ∧ s' = s ∧ m' = update m handle none
  | .createMutex _ => SpecOther m m' handleTypeMutex
  | .createSemaphore _ _ _ => SpecOther m m' handleTypeSemaphore
  | .createSection _ _ _ _ => SpecOther m m' handleTypeSection

end

/-! ### The calls of the program -/

def waitZero (handle : ℕ) (s : Store) (w : Objects) : ℕ × Store × Objects :=
  match findEvent w (toInt handle) with
  | none => (statusInvalidHandle, s, w)
  | some slot => ((poll slot w).1, s, (poll slot w).2)

section

variable (b : Build) (os : FileOs) (ko : KoLayout)

/-- What the handler of a call does. -/
def respond (s : Store) (k : KernelState) : ObjectCall → ℕ × Store × KernelState
  | .createEvent eventHandle eventType initialState =>
    handlerNtCreateEvent ko eventHandle eventType initialState s k
  | .setEvent handle previousState =>
    let r := handlerNtSetEvent handle previousState s k.toObjects
    (r.1, r.2.1, { k with toObjects := r.2.2 })
  | .resetEvent handle previousState =>
    let r := handlerNtResetEvent handle previousState s k.toObjects
    (r.1, r.2.1, { k with toObjects := r.2.2 })
  | .wait handle =>
    let r := waitZero handle s k.toObjects
    (r.1, r.2.1, { k with toObjects := r.2.2 })
  | .close handle =>
    let r := handlerNtClose handle k
    (r.1, s, r.2)
  | .createMutex mutexHandle => handlerNtCreateMutex ko mutexHandle s k
  | .createSemaphore semaphoreHandle initialCount maximumCount =>
    handlerNtCreateSemaphore ko semaphoreHandle initialCount maximumCount s k
  | .createSection sectionHandle maxSize pageProtection fileHandle =>
    -- A call that faults has changed no object.
    (handlerNtCreateSection b os ko sectionHandle maxSize pageProtection fileHandle s k).getD
      (statusUnsuccessful, s, k)

def callStep (p : Store × KernelState) (call : ObjectCall) : Store × KernelState :=
  (respond b os ko p.1 p.2 call).2

variable (k : KernelState)

def eventAt (object : Ptr) : Option WineEvent :=
  ((List.range k.eventCount).find? fun i => koEvent ko i = object).map k.events

def slotObject (x : WineHandle) : Option Object :=
  if x.refCount = 0 then none
  else if x.type = handleTypeEvent then
    (eventAt ko k x.object).map fun e => .event e.eventType (e.signaled ≠ 0)
  else some (.other x.type)

def handleMap : HandleMap := fun h =>
  (wineHandleSlot h).bind fun i => slotObject ko k (k.handles i)

/-- The events in the table with the number of the handle are the event that the handle stands
for. -/
def Current (handle : ℕ) : Prop :=
  ∀ i < k.eventCount, (k.events i).handle = toInt handle →
    wineHandleGetType k.handles handle = handleTypeEvent ∧
      wineHandleGet k.handles handle = koEvent ko i

instance (handle : ℕ) : Decidable (Current ko k handle) :=
  inferInstanceAs (Decidable (∀ i < _, _ → _))

/-- The closed events are not in the way of the call: they do not fill the table, and none of them
had the number of the handle.  A handle that is closed has 32 bits, or is not one with 32 bits
either. -/
def Unobstructed : ObjectCall → Prop
  | .createEvent _ _ _ => k.eventCount < maxEvents ∨ maxEvents ≤ (handleMap ko k).liveEvents
  | .setEvent handle _ | .resetEvent handle _ | .wait handle => Current ko k handle
  | .close handle => handle < 2 ^ 32 ∨ wineHandleGetType k.handles (handle % 2 ^ 32) = 0
  | _ => True

instance (call : ObjectCall) : Decidable (Unobstructed ko k call) := by
  cases call <;> unfold Unobstructed <;> infer_instance

def Refines (p : Store × KernelState) (call : ObjectCall) : Prop :=
  let r := respond b os ko p.1 p.2 call
  Spec p.1 (handleMap ko p.2) r.1 r.2.1 (handleMap ko r.2.2) call

end

/-! ### What holds in every state -/

def LiveEvent (k : KernelState) (i : Fin handleTableSize) : Prop :=
  (k.handles i).refCount ≠ 0 ∧ (k.handles i).type = handleTypeEvent

/-- Every live event is in the table of events under the number of its handle, and different events
have different entries.  The handles have one reference each. -/
structure TablesOk (ko : KoLayout) (k : KernelState) : Prop where
  standard : ∀ i, i.val ≤ 2 → (k.handles i).refCount ≠ 0 ∧ (k.handles i).type = handleTypeFile
  refCount : ∀ i, 3 ≤ i.val → (k.handles i).refCount = 0 ∨ (k.handles i).refCount = 1
  type : ∀ i, (k.handles i).refCount ≠ 0 → (k.handles i).type ≠ 0
  event : ∀ i, LiveEvent k i → ∃ j < k.eventCount, (k.handles i).object = koEvent ko j ∧
    (k.events j).handle = i.val
  unique : ∀ i i', LiveEvent k i → LiveEvent k i' →
    (k.handles i).object = (k.handles i').object → i = i'
  signaled : ∀ j, (k.events j).signaled = 0 ∨ (k.events j).signaled = 1
  count : k.eventCount ≤ maxEvents

section

variable {ko : KoLayout} {k k' : KernelState}

theorem eventAt_koEvent {j : ℕ} (hj : j < k.eventCount) :
  eventAt ko k (koEvent ko j) = some (k.events j)
  := by
  have hfind : (List.range k.eventCount).find? (fun i => koEvent ko i = koEvent ko j) = some j := by
    rw [List.find?_range_eq_some]
    simp only [koEvent_inj, decide_true, List.mem_range, true_and]
    refine ⟨hj, ?_⟩
    intro i hi
    simp [Nat.ne_of_lt hi]
  rw [eventAt, hfind, map_some]

theorem handleMap_val (i : Fin handleTableSize) :
  handleMap ko k i.val = slotObject ko k (k.handles i)
  := by
  rw [handleMap, wineHandleSlot_val, bind_some]

theorem handleMap_of_ge {h : ℕ} (hh : handleTableSize ≤ h) :
  handleMap ko k h = none
  := by
  rw [handleMap, wineHandleSlot, dif_neg (by omega), bind_none]

variable {i : Fin handleTableSize} {x : WineHandle} {handle slot : ℕ}

theorem handleMap_event (hi : LiveEvent k i) {j : ℕ} (hj : j < k.eventCount)
    (hobject : (k.handles i).object = koEvent ko j) :
  handleMap ko k i.val = some (.event (k.events j).eventType ((k.events j).signaled ≠ 0))
  := by
  rw [handleMap_val, slotObject, if_neg hi.1, if_pos hi.2, hobject, eventAt_koEvent hj,
    map_some]

theorem TablesOk.handleMap_eq_none_iff (hk : TablesOk ko k) (i : Fin handleTableSize) :
  handleMap ko k i.val = none ↔ (k.handles i).refCount = 0
  := by
  rw [handleMap_val, slotObject]
  split_ifs with href htype
  · simp [href]
  · obtain ⟨j, hj, hobject, -⟩ := hk.event i ⟨href, htype⟩
    simp [hobject, eventAt_koEvent hj, href]
  · simp [href]

theorem liveEvent_of_handleMap {h : ℕ} {eventType : ℤ} {signaled : Bool}
    (hmap : handleMap ko k h = some (.event eventType signaled)) :
  ∃ i : Fin handleTableSize, h = i.val ∧ LiveEvent k i
  := by
  by_cases hlt : h < handleTableSize
  · use ⟨h, hlt⟩, rfl
    have hslot : slotObject ko k (k.handles ⟨h, hlt⟩) = some (.event eventType signaled) := by
      rw [← handleMap_val, hmap]
    rw [slotObject] at hslot
    split_ifs at hslot with href htype
    · exact ⟨href, htype⟩
    · cases hslot
  · rw [handleMap_of_ge (by omega)] at hmap
    cases hmap

/-! ### One change to the tables -/

theorem handleMap_eq_update {o : Option Object} (hself : slotObject ko k' (k'.handles i) = o)
    (hother : ∀ j, j ≠ i → slotObject ko k' (k'.handles j) = slotObject ko k (k.handles j)) :
  handleMap ko k' = update (handleMap ko k) i.val o
  := by
  funext h
  rcases lt_or_ge h handleTableSize with hlt | hge
  · lift h to Fin handleTableSize using hlt with j
    rw [handleMap_val]
    rcases eq_or_ne j i with rfl | hne
    · rw [update_self, hself]
    · rw [update_of_ne (Fin.val_ne_of_ne hne), handleMap_val, hother j hne]
  · have hne : h ≠ i.val := by
      omega
    rw [update_of_ne hne, handleMap_of_ge hge, handleMap_of_ge hge]

theorem slotObject_of_not_event (h : ¬ (x.refCount ≠ 0 ∧ x.type = handleTypeEvent)) :
  slotObject ko k' x = slotObject ko k x
  := by
  rw [slotObject, slotObject]
  split_ifs with href htype
  · rfl
  · cases h ⟨href, htype⟩
  · rfl

theorem handleMap_update (hhandles : k'.handles = update k.handles i x)
    (hevents : k'.events = k.events) (hcount : k'.eventCount = k.eventCount) :
  handleMap ko k' = update (handleMap ko k) i.val (slotObject ko k x)
  := by
  have hslot : slotObject ko k' = slotObject ko k := by
    funext y
    rw [slotObject, slotObject, eventAt, eventAt, hevents, hcount]
  apply handleMap_eq_update
  · rw [hhandles, update_self, hslot]
  · intro j hne
    rw [hhandles, update_of_ne hne, hslot]

theorem handleMap_congr (hhandles : k'.handles = k.handles) (hevents : k'.events = k.events)
    (hcount : k'.eventCount = k.eventCount) :
  handleMap ko k' = handleMap ko k
  := by
  funext h
  rw [handleMap, handleMap, hhandles]
  congr 1
  funext i
  rw [slotObject, slotObject, eventAt, eventAt, hevents, hcount]

theorem TablesOk.congr (hk : TablesOk ko k) (hhandles : k'.handles = k.handles)
    (hevents : k'.events = k.events) (hcount : k'.eventCount = k.eventCount) :
  TablesOk ko k'
  := by
  have hlive : LiveEvent k' = LiveEvent k := by
    funext i
    rw [LiveEvent, LiveEvent, hhandles]
  obtain ⟨_, _, _, _, _, _, _⟩ := hk
  constructor <;> simpa only [hlive, hhandles, hevents, hcount]

theorem TablesOk.update_slot (hk : TablesOk ko k)
    (hhandles : k'.handles = update k.handles i x) (hevents : k'.events = k.events)
    (hcount : k'.eventCount = k.eventCount) (h3 : 3 ≤ i.val)
    (hx : x.refCount = 0 ∨ x.refCount = 1 ∧ x.type ≠ 0 ∧ x.type ≠ handleTypeEvent) :
  TablesOk ko k'
  := by
  have hother : ∀ {j}, LiveEvent k' j → j ≠ i ∧ LiveEvent k j := by
    intro j hj
    rw [LiveEvent, hhandles] at hj
    rcases eq_or_ne j i with rfl | hne
    · rw [update_self] at hj
      rcases hx with hzero | ⟨-, -, htype⟩
      · cases hj.1 hzero
      · cases htype hj.2
    · rw [update_of_ne hne] at hj
      exact ⟨hne, hj⟩
  have hslot : ∀ {j}, j ≠ i → k'.handles j = k.handles j := by
    intro j hne
    rw [hhandles, update_of_ne hne]
  constructor
  · intro j hj
    rw [hslot (by rintro rfl; omega)]
    apply hk.standard j hj
  · intro j hj
    rcases eq_or_ne j i with rfl | hne
    · rw [hhandles, update_self]
      exact hx.imp_right fun h => h.1
    · rw [hslot hne]
      apply hk.refCount j hj
  · intro j hj
    rcases eq_or_ne j i with rfl | hne
    · rw [hhandles, update_self] at hj ⊢
      apply (hx.resolve_left hj).2.1
    · rw [hslot hne] at hj ⊢
      apply hk.type j hj
  · intro j hj
    obtain ⟨hne, hj⟩ := hother hj
    rw [hslot hne, hevents, hcount]
    apply hk.event j hj
  · intro j j' hj hj' hobject
    obtain ⟨hne, hj⟩ := hother hj
    obtain ⟨hne', hj'⟩ := hother hj'
    rw [hslot hne, hslot hne'] at hobject
    apply hk.unique j j' hj hj' hobject
  · rw [hevents]
    apply hk.signaled
  · rw [hcount]
    apply hk.count

def MayAllocate (type : UInt8) (k k' : KernelState) : Prop :=
  (k'.handles = k.handles ∨ ∃ object, k'.handles = (wineHandleAlloc k.handles type object).2) ∧
    k'.events = k.events ∧ k'.eventCount = k.eventCount

theorem MayAllocate.refl (type : UInt8) (k : KernelState) :
  MayAllocate type k k
  := ⟨Or.inl rfl, rfl, rfl⟩

theorem mayAllocate_createMutex (ko : KoLayout) (mutexHandle : Param) (s : Store)
    (k : KernelState) :
  MayAllocate handleTypeMutex k (handlerNtCreateMutex ko mutexHandle s k).2.2
  := by
  simp only [handlerNtCreateMutex]
  split_ifs
  any_goals apply MayAllocate.refl
  exact ⟨Or.inr ⟨_, rfl⟩, rfl, rfl⟩

theorem mayAllocate_createSemaphore (ko : KoLayout) (semaphoreHandle : Param)
    (initialCount maximumCount : ℕ) (s : Store) (k : KernelState) :
  MayAllocate handleTypeSemaphore k
    (handlerNtCreateSemaphore ko semaphoreHandle initialCount maximumCount s k).2.2
  := by
  simp only [handlerNtCreateSemaphore]
  generalize (if maximumCount < initialCount then maximumCount else initialCount) = n
  split_ifs
  any_goals apply MayAllocate.refl
  exact ⟨Or.inr ⟨_, rfl⟩, rfl, rfl⟩

theorem mayAllocate_createSection (b : Build) (os : FileOs) (ko : KoLayout)
    (sectionHandle maxSize : Param) (pageProtection fileHandle : ℕ) (s : Store)
    (k : KernelState) :
  MayAllocate handleTypeSection k
    ((handlerNtCreateSection b os ko sectionHandle maxSize pageProtection fileHandle s k).getD
      (statusUnsuccessful, s, k)).2.2
  := by
  have hadd : ∀ sec s, MayAllocate handleTypeSection k
      (addSection b ko sectionHandle sec s k).2.2 :=
    fun _ _ => ⟨Or.inr ⟨_, rfl⟩, rfl, rfl⟩
  simp only [handlerNtCreateSection]
  split_ifs
  all_goals repeat' split
  any_goals apply MayAllocate.refl
  all_goals apply hadd

theorem TablesOk.create_other (hk : TablesOk ko k) {type : UInt8} (h : MayAllocate type k k')
    (htype : type ≠ 0) (hevent : type ≠ handleTypeEvent) :
  TablesOk ko k' ∧ SpecOther (handleMap ko k) (handleMap ko k') type
  := by
  obtain ⟨hhandles, hevents, hcount⟩ := h
  have hsame : k'.handles = k.handles →
      TablesOk ko k' ∧ SpecOther (handleMap ko k) (handleMap ko k') type := by
    intro hsame
    exact ⟨hk.congr hsame hevents hcount, Or.inl (handleMap_congr hsame hevents hcount)⟩
  rcases hhandles with hhandles | ⟨object, hhandles⟩
  · apply hsame hhandles
  · rcases wineHandleAlloc_cases k.handles type object with ⟨i, h3, hfree, halloc⟩ | ⟨-, halloc⟩
    · rw [halloc] at hhandles
      refine ⟨hk.update_slot hhandles hevents hcount h3 (Or.inr ⟨rfl, htype, hevent⟩), Or.inr ?_⟩
      use i.val, ⟨h3, i.isLt, (hk.handleMap_eq_none_iff i).mpr hfree⟩
      rw [handleMap_update hhandles hevents hcount, slotObject, if_neg (by decide : (1 : UInt8) ≠ 0),
        if_neg hevent]
    · rw [halloc] at hhandles
      apply hsame hhandles

/-! ### The calls -/

theorem TablesOk.getType_eq_zero_iff (hk : TablesOk ko k) (h : ℕ) :
  wineHandleGetType k.handles h = 0 ↔ handleMap ko k h = none
  := by
  rcases lt_or_ge h handleTableSize with hlt | hge
  · lift h to Fin handleTableSize using hlt with i
    rw [hk.handleMap_eq_none_iff]
    by_cases href : (k.handles i).refCount = 0
    · exact iff_of_true (get_of_dead href).2 href
    · rw [(get_of_live href).2]
      exact iff_of_false (hk.type i href) href
  · rw [handleMap_of_ge hge, wineHandleGetType, wineHandleSlot, dif_neg (by omega)]
    simp

theorem TablesOk.close (hk : TablesOk ko k) (s : Store)
    (hunobstructed : Unobstructed ko k (.close handle)) :
  let r := handlerNtClose handle k
  TablesOk ko r.2 ∧ Spec s (handleMap ko k) r.1 s (handleMap ko r.2) (.close handle)
  := by
  intro r
  by_cases hstandard : IsStandard handle
  · have hr : r = (statusSuccess, k) := handlerNtClose_of_standard hstandard
    rw [hr, Spec, if_pos hstandard]
    exact ⟨hk, rfl, rfl, rfl⟩
  · rw [Spec, if_neg hstandard]
    rw [IsStandard, not_or] at hstandard
    by_cases hzero : wineHandleGetType k.handles (handle % 2 ^ 32) = 0
    · have hr : r = (statusInvalidHandle, k) := by
        simp only [r, handlerNtClose, if_neg hstandard.1, if_neg hstandard.2, if_pos hzero]
      have hnone : handleMap ko k handle = none := by
        rcases lt_or_ge handle handleTableSize with hlt | hge
        · rw [Nat.mod_eq_of_lt (by rw [handleTableSize] at hlt; omega)] at hzero
          apply (hk.getType_eq_zero_iff handle).mp hzero
        · apply handleMap_of_ge hge
      rw [hr, if_pos hnone]
      exact ⟨hk, rfl, rfl, rfl⟩
    · have hmod := Nat.mod_eq_of_lt (hunobstructed.resolve_right hzero)
      rw [hmod] at hzero
      have hsome := mt (hk.getType_eq_zero_iff handle).mpr hzero
      have hlt : handle < handleTableSize := by
        by_contra hge
        apply hsome (handleMap_of_ge (by omega))
      obtain ⟨i, rfl⟩ : ∃ i : Fin handleTableSize, i.val = handle := ⟨⟨handle, hlt⟩, rfl⟩
      have h3 : 3 ≤ i.val := by omega
      have hlive := mt (hk.handleMap_eq_none_iff i).mpr hsome
      have hone := (hk.refCount i h3).resolve_left hlive
      obtain ⟨-, hevents, hcount⟩ := releaseObject_frame (k.handles i).type (k.handles i).object k
      have hr := handlerNtClose_of_live h3 hone (hk.type i hlive)
      change r = _ at hr
      have hupdate : r.2.handles = update k.handles i .empty := by rw [hr]
      have hevents' : r.2.events = k.events := by rw [hr, ← hevents]
      have hcount' : r.2.eventCount = k.eventCount := by rw [hr, ← hcount]
      refine ⟨hk.update_slot hupdate hevents' hcount' h3 (Or.inl rfl), ?_⟩
      rw [if_neg hsome, handleMap_update hupdate hevents' hcount', hr]
      exact ⟨rfl, rfl, rfl⟩

theorem findEvent_eq_some {w : Objects} {handle : ℤ} (h : findEvent w handle = some slot) :
  slot < w.eventCount ∧ (w.events slot).handle = handle
  := by
  have hmem := List.mem_of_find?_eq_some h
  have hhandle := List.find?_some h
  rw [List.mem_range] at hmem
  exact ⟨hmem, of_decide_eq_true hhandle⟩

section

variable (hk : TablesOk ko k)
include hk

theorem TablesOk.found (hcurrent : Current ko k handle)
    (hfind : findEvent k.toObjects (toInt handle) = some slot) :
  ∃ i : Fin handleTableSize, handle = i.val ∧ LiveEvent k i ∧ slot < k.eventCount ∧
    (k.handles i).object = koEvent ko slot
  := by
  obtain ⟨hslot, hhandle⟩ := findEvent_eq_some hfind
  obtain ⟨htype, hobject⟩ := hcurrent slot hslot hhandle
  have hsome : handleMap ko k handle ≠ none := by
    rw [Ne, ← hk.getType_eq_zero_iff, htype]
    decide
  have hlt : handle < handleTableSize := by
    by_contra hge
    apply hsome (handleMap_of_ge (by omega))
  lift handle to Fin handleTableSize using hlt with i
  have hlive := mt (hk.handleMap_eq_none_iff i).mpr hsome
  obtain ⟨hget, hgetType⟩ := get_of_live hlive
  rw [hgetType] at htype
  rw [hget] at hobject
  exact ⟨i, rfl, ⟨hlive, htype⟩, hslot, hobject⟩

theorem TablesOk.not_event_of_not_found
    (hfind : findEvent k.toObjects (toInt handle) = none) (eventType : ℤ) (signaled : Bool) :
  handleMap ko k handle ≠ some (.event eventType signaled)
  := by
  intro hmap
  obtain ⟨i, rfl, hi⟩ := liveEvent_of_handleMap hmap
  obtain ⟨j, hj, -, hhandle⟩ := hk.event i hi
  rw [findEvent, List.find?_eq_none] at hfind
  apply hfind j (List.mem_range.mpr hj)
  rw [toInt_of_lt i.isLt, hhandle]
  apply decide_eq_true rfl

theorem TablesOk.setSignaled (hi : LiveEvent k i) (hslot : slot < k.eventCount)
    (hobject : (k.handles i).object = koEvent ko slot) {v : ℤ} (hv : v = 0 ∨ v = 1) :
  let k' : KernelState := { k with toObjects := k.toObjects.setSignaled slot v }
  TablesOk ko k' ∧ handleMap ko k' =
    update (handleMap ko k) i.val (some (.event (k.events slot).eventType (v ≠ 0)))
  := by
  intro k'
  have hself : k'.events slot = { k.events slot with signaled := v } := update_self ..
  have hother : ∀ {j}, j ≠ slot → k'.events j = k.events j := by
    intro j hne
    apply update_of_ne hne
  constructor
  · constructor
    · apply hk.standard
    · apply hk.refCount
    · apply hk.type
    · intro i' hi'
      obtain ⟨j, hj, hobject', hhandle⟩ := hk.event i' hi'
      use j, hj, hobject'
      rcases eq_or_ne j slot with rfl | hne
      · rw [hself]
        exact hhandle
      · rw [hother hne]
        exact hhandle
    · apply hk.unique
    · intro j
      rcases eq_or_ne j slot with rfl | hne
      · rw [hself]
        exact hv
      · rw [hother hne]
        apply hk.signaled j
    · apply hk.count
  · apply handleMap_eq_update
    · rw [← handleMap_val, handleMap_event (k := k') hi hslot hobject, hself]
    · intro i' hne
      by_cases hi' : LiveEvent k i'
      · -- Another event has another entry.
        obtain ⟨j, hj, hobject', -⟩ := hk.event i' hi'
        have hj' : j ≠ slot := by
          rintro rfl
          exact hne (hk.unique i' i hi' hi (hobject'.trans hobject.symm))
        rw [← handleMap_val, ← handleMap_val, handleMap_event (k := k') hi' hj hobject',
          handleMap_event hi' hj hobject', hother hj']
      · apply slotObject_of_not_event hi'

theorem ofInt_signaled (slot : ℕ) :
  ofInt (k.events slot).signaled = if (decide ((k.events slot).signaled ≠ 0)) then 1 else 0
  := by
  rcases hk.signaled slot with h | h
  · rw [h]
    rfl
  · rw [h]
    rfl

theorem TablesOk.changeEvent {v : ℤ} (hv : v = 0 ∨ v = 1)
    (previousState : Param) (s : Store) (hcurrent : Current ko k handle) :
  let r := changeEvent v handle previousState s k.toObjects
  let k' : KernelState := { k with toObjects := r.2.2 }
  TablesOk ko k' ∧
    SpecChange s (handleMap ko k) r.1 r.2.1 (handleMap ko k') (v ≠ 0) handle previousState
  := by
  simp only [Ntdll.changeEvent, SpecChange]
  cases hfind : findEvent k.toObjects (toInt handle) with
  | none =>
    refine ⟨hk, ?_⟩
    split
    · next hmap => cases hk.not_event_of_not_found hfind _ _ hmap
    · exact ⟨rfl, rfl, rfl⟩
  | some slot =>
    obtain ⟨i, rfl, hi, hslot, hobject⟩ := hk.found hcurrent hfind
    obtain ⟨hk', hmap'⟩ := hk.setSignaled hi hslot hobject hv
    rw [handleMap_event hi hslot hobject]
    refine ⟨hk', rfl, ?_, hmap'⟩
    simp only [ofInt_signaled hk]

theorem TablesOk.waitZero (s : Store) (hcurrent : Current ko k handle) :
  let r := waitZero handle s k.toObjects
  let k' : KernelState := { k with toObjects := r.2.2 }
  TablesOk ko k' ∧ Spec s (handleMap ko k) r.1 r.2.1 (handleMap ko k') (.wait handle)
  := by
  simp only [Ntdll.waitZero, Spec]
  cases hfind : findEvent k.toObjects (toInt handle) with
  | none =>
    refine ⟨hk, ?_⟩
    split
    · next hmap => cases hk.not_event_of_not_found hfind _ _ hmap
    · next hmap => cases hk.not_event_of_not_found hfind _ _ hmap
    · exact ⟨rfl, rfl, rfl⟩
  | some slot =>
    obtain ⟨i, rfl, hi, hslot, hobject⟩ := hk.found hcurrent hfind
    rw [handleMap_event hi hslot hobject]
    by_cases hsignaled : (k.events slot).signaled = 0
    · simp only [poll, Objects.signaled, hsignaled]
      exact ⟨hk, rfl, rfl, rfl⟩
    · simp only [poll, Objects.signaled, hsignaled, ne_eq, not_false_eq_true, decide_true, if_true,
        Objects.consume]
      split_ifs with htype
      · obtain ⟨hk', hmap'⟩ := hk.setSignaled hi hslot hobject (Or.inl rfl)
        exact ⟨hk', trivial, trivial, hmap'⟩
      · exact ⟨hk, trivial, trivial, rfl⟩

theorem TablesOk.liveEvents_le :
  (handleMap ko k).liveEvents ≤ k.eventCount
  := by
  have hsub : ((range handleTableSize).filter fun h =>
      (handleMap ko k h).any Object.isEvent) ⊆
        (range k.eventCount).image fun j => (k.events j).handle.toNat := by
    intro h hh
    rw [mem_filter] at hh
    rcases hmap : handleMap ko k h with _ | ⟨eventType, signaled⟩ | type
    · simp [hmap] at hh
    · obtain ⟨i, rfl, hi⟩ := liveEvent_of_handleMap hmap
      obtain ⟨j, hj, -, hhandle⟩ := hk.event i hi
      rw [mem_image]
      use j, mem_range.mpr hj
      rw [hhandle, Int.toNat_natCast]
    · simp [hmap, Object.isEvent] at hh
  calc (handleMap ko k).liveEvents
      ≤ ((range k.eventCount).image fun j => (k.events j).handle.toNat).card :=
        card_le_card hsub
    _ ≤ (range k.eventCount).card := card_image_le
    _ = k.eventCount := card_range _

theorem TablesOk.addEvent (h3 : 3 ≤ i.val) (hlt : k.eventCount < maxEvents)
    (eventType initialState : ℕ)
    (hhandles : k'.handles =
      update k.handles i ⟨i.val, handleTypeEvent, 1, koEvent ko k.eventCount⟩)
    (hevents : k'.events = update k.events k.eventCount
      ⟨toInt i.val, if initialState ≠ 0 then 1 else 0, toInt eventType⟩)
    (hcount : k'.eventCount = k.eventCount + 1) :
  TablesOk ko k' ∧ handleMap ko k' = update (handleMap ko k) i.val
    (some (.event (toInt eventType) (initialState ≠ 0)))
  := by
  have hself : k'.handles i = ⟨i.val, handleTypeEvent, 1, koEvent ko k.eventCount⟩ := by
    rw [hhandles, update_self]
  have hother : ∀ {j}, j ≠ i → k'.handles j = k.handles j := by
    intro j hne
    rw [hhandles, update_of_ne hne]
  have hnew : k'.events k.eventCount =
      ⟨toInt i.val, if initialState ≠ 0 then 1 else 0, toInt eventType⟩ := by
    rw [hevents, update_self]
  have hold : ∀ {j}, j ≠ k.eventCount → k'.events j = k.events j := by
    intro j hne
    rw [hevents, update_of_ne hne]
  have hlive : LiveEvent k' i := by
    rw [LiveEvent, hself]
    exact ⟨(by decide : (1 : UInt8) ≠ 0), rfl⟩
  -- The events that were there before keep their entries.
  have hevent : ∀ {j}, j ≠ i → LiveEvent k' j → LiveEvent k j ∧ ∃ n < k.eventCount,
      (k'.handles j).object = koEvent ko n ∧ k'.events n = k.events n ∧
      (k.handles j).object = koEvent ko n ∧ (k.events n).handle = j.val := by
    intro j hne hj
    rw [LiveEvent, hother hne] at hj
    obtain ⟨n, hn, hobject, hhandle⟩ := hk.event j hj
    rw [hother hne]
    exact ⟨hj, n, hn, hobject, hold (Nat.ne_of_lt hn), hobject, hhandle⟩
  have hapart : ∀ {j}, j ≠ i → LiveEvent k' j → (k'.handles j).object ≠ (k'.handles i).object := by
    intro j hne hj heq
    obtain ⟨-, n, hn, hobject, -⟩ := hevent hne hj
    rw [hobject, hself, koEvent_inj] at heq
    omega
  constructor
  · constructor
    · intro j hj
      rw [hother (by rintro rfl; omega)]
      apply hk.standard j hj
    · intro j hj
      rcases eq_or_ne j i with rfl | hne
      · rw [hself]
        exact Or.inr rfl
      · rw [hother hne]
        apply hk.refCount j hj
    · intro j hj
      rcases eq_or_ne j i with rfl | hne
      · rw [hlive.2]
        decide
      · rw [hother hne] at hj ⊢
        apply hk.type j hj
    · intro j hj
      rw [hcount]
      rcases eq_or_ne j i with rfl | hne
      · use k.eventCount, Nat.lt_succ_self _
        rw [hself, hnew, toInt_of_lt j.isLt]
        exact ⟨rfl, rfl⟩
      · obtain ⟨-, n, hn, hobject, hsame, -, hhandle⟩ := hevent hne hj
        use n, by omega, hobject
        rw [hsame, hhandle]
    · intro j j' hj hj' hobject
      rcases eq_or_ne j i with rfl | hne
      · by_contra hne'
        exact hapart (Ne.symm hne') hj' hobject.symm
      · rcases eq_or_ne j' i with rfl | hne'
        · cases hapart hne hj hobject
        · rw [hother hne, hother hne'] at hobject
          apply hk.unique j j' (hevent hne hj).1 (hevent hne' hj').1 hobject
    · intro n
      rcases eq_or_ne n k.eventCount with rfl | hne
      · rw [hnew]
        split_ifs
        · exact Or.inr rfl
        · exact Or.inl rfl
      · rw [hold hne]
        apply hk.signaled n
    · rw [hcount]
      exact hlt
  · apply handleMap_eq_update
    · rw [← handleMap_val, handleMap_event hlive (j := k.eventCount) (by omega) (by rw [hself]),
        hnew]
      by_cases hinit : initialState = 0
      · simp [hinit]
      · simp [hinit]
    · intro j hne
      by_cases hj : LiveEvent k' j
      · obtain ⟨hj', n, hn, hobject, hsame, hobject', -⟩ := hevent hne hj
        rw [← handleMap_val, ← handleMap_val, handleMap_event hj (by omega) hobject,
          handleMap_event hj' hn hobject', hsame]
      · rw [hother hne]
        rw [LiveEvent, hother hne] at hj
        apply slotObject_of_not_event hj

theorem TablesOk.createEvent (eventHandle : Param)
    (eventType initialState : ℕ) (s : Store)
    (hunobstructed : Unobstructed ko k (.createEvent eventHandle eventType initialState)) :
  let r := handlerNtCreateEvent ko eventHandle eventType initialState s k
  TablesOk ko r.2.2 ∧ Spec s (handleMap ko k) r.1 r.2.1 (handleMap ko r.2.2)
    (.createEvent eventHandle eventType initialState)
  := by
  intro r
  by_cases hfull : maxEvents ≤ k.eventCount
  · have hr : r = (statusMemoryNotAvailable, s, k) := if_pos hfull
    have hlive : ¬ (handleMap ko k).liveEvents < maxEvents := by
      have hle := hunobstructed.resolve_left (by omega)
      omega
    rw [hr, Spec, if_neg (fun h => hlive h.1)]
    exact ⟨hk, rfl, rfl, rfl⟩
  · rcases wineHandleAlloc_cases k.handles handleTypeEvent (koEvent ko k.eventCount) with
      ⟨i, h3, hfree, halloc⟩ | ⟨hnone, halloc⟩
    · let k' : KernelState := { k with
        handles := update k.handles i ⟨i.val, handleTypeEvent, 1, koEvent ko k.eventCount⟩
        events := update k.events k.eventCount
          ⟨toInt i.val, if initialState ≠ 0 then 1 else 0, toInt eventType⟩
        eventCount := k.eventCount + 1 }
      have hr : r = (statusSuccess, s.storeUnlessNull i.val eventHandle, k') := by
        simp [r, handlerNtCreateEvent, if_neg hfull, halloc, if_neg (by omega : i.val ≠ 0), k']
      have hlive : (handleMap ko k).liveEvents < maxEvents := by
        have hle := hk.liveEvents_le
        omega
      have hfree' : (handleMap ko k).Free i.val :=
        ⟨h3, i.isLt, (hk.handleMap_eq_none_iff i).mpr hfree⟩
      obtain ⟨hk', hmap'⟩ := hk.addEvent h3 (by omega) eventType initialState
        (rfl : k'.handles = _) rfl rfl
      rw [hr, Spec, if_pos ⟨hlive, i.val, i.isLt, hfree'⟩]
      exact ⟨hk', rfl, i.val, hfree', rfl, hmap'⟩
    · have hr : r = (statusMemoryNotAvailable, s, k) := by
        simp [r, handlerNtCreateEvent, halloc]
      have hnot : ¬ ∃ h < handleTableSize, (handleMap ko k).Free h := by
        rintro ⟨h, hlt, h3, -, hmap⟩
        lift h to Fin handleTableSize using hlt with i
        apply hnone i h3
        apply (hk.handleMap_eq_none_iff i).mp hmap
      rw [hr, Spec, if_neg (fun h => hnot h.2)]
      exact ⟨hk, rfl, rfl, rfl⟩

theorem TablesOk.respond (b : Build) (os : FileOs) (s : Store)
    {call : ObjectCall} (hcall : Unobstructed ko k call) :
  let r := respond b os ko s k call
  TablesOk ko r.2.2 ∧ Spec s (handleMap ko k) r.1 r.2.1 (handleMap ko r.2.2) call
  := by
  cases call with
  | createEvent p eventType initialState =>
    apply hk.createEvent p eventType initialState s hcall
  | setEvent handle p => apply hk.changeEvent (Or.inr rfl) p s hcall
  | resetEvent handle p => apply hk.changeEvent (Or.inl rfl) p s hcall
  | wait handle => apply hk.waitZero s hcall
  | close handle => apply hk.close s hcall
  | createMutex p => apply hk.create_other (mayAllocate_createMutex ko p s k) <;> decide
  | createSemaphore p n n' =>
    apply hk.create_other (mayAllocate_createSemaphore ko p n n' s k) <;> decide
  | createSection p q n n' =>
    apply hk.create_other (mayAllocate_createSection b os ko p q n n' s k) <;> decide

end

end

theorem tablesOk_init (ko : KoLayout) :
  TablesOk ko .init
  := by
  have hlive : ∀ i, ¬ LiveEvent .init i := by
    rintro i ⟨-, htype⟩
    simp only [KernelState.init, wineHandleManagerRuntimeInit] at htype
    split_ifs at htype
    · cases htype
    · cases htype
  constructor
  · intro i hi
    simp only [KernelState.init, wineHandleManagerRuntimeInit, if_pos hi]
    exact ⟨by decide, trivial⟩
  · intro i hi
    left
    simp only [KernelState.init, wineHandleManagerRuntimeInit, if_neg (by omega : ¬ i.val ≤ 2)]
    rfl
  · intro i
    simp only [KernelState.init, wineHandleManagerRuntimeInit]
    split_ifs
    · intro _
      exact (by decide : handleTypeFile ≠ 0)
    · intro h
      cases h rfl
  · intro i hi
    cases hlive i hi
  · intro i _ hi
    cases hlive i hi
  · intro j
    exact Or.inl rfl
  · exact Nat.zero_le _

/-- Along every run in which closed events are not in the way, the calls do what the map of the live
handles says. -/
theorem events_refine_map (b : Build) (os : FileOs) (ko : KoLayout) (s : Store)
    {calls : List ObjectCall}
    (h : Run.Along (callStep b os ko) (fun p => Unobstructed ko p.2) (s, .init) calls) :
  Run.Along (callStep b os ko) (Refines b os ko) (s, .init) calls
  := by
  apply h.imp_of_invariant fun p => TablesOk ko p.2
  · intro p call hk hcall
    apply (hk.respond b os p.1 hcall).1
  · intro p call hk hcall
    apply (hk.respond b os p.1 hcall).2
  · apply tablesOk_init

/-! ### Calls on closed events -/

def quietOs : FileOs where
  nanosleep _ _ := none
  others _ events := events
  mmap _ _ := .error eperm
  fstat _ := none

def someLayout : KoLayout := ⟨0x1000, 0x2000, 0x3000, 0x4000⟩

/-- An event is closed, and a mutex gets its handle; the next event is set and waited for. -/
theorem events_refine_map_closed :
  let s : Store := ⟨fun _ => 0, fun _ => 0⟩
  let calls : List ObjectCall := [.createEvent (.val 0x100) 1 1, .close 3, .createMutex (.val 0x108),
    .createEvent (.val 0x110) 1 0, .setEvent 4 (.val 0), .wait 4, .wait 4, .resetEvent 5 (.val 0),
    .close 3]
  Run.Along (callStep .x64 quietOs someLayout) (fun p => Unobstructed someLayout p.2) (s, .init)
      calls ∧
    Run.Along (callStep .x64 quietOs someLayout) (Refines .x64 quietOs someLayout) (s, .init) calls
  := by
  intro s calls
  have h : Run.Along (callStep .x64 quietOs someLayout) (fun p => Unobstructed someLayout p.2)
      (s, .init) calls := by
    decide +kernel
  use h
  apply events_refine_map .x64 quietOs someLayout s h

def afterCalls (calls : List ObjectCall) : Store × KernelState :=
  calls.foldl (callStep .x64 quietOs someLayout) (⟨fun _ => 0, fun _ => 0⟩, .init)

def lastStatus (calls : List ObjectCall) (call : ObjectCall) : ℕ :=
  (respond .x64 quietOs someLayout (afterCalls calls).1 (afterCalls calls).2 call).1

theorem refines_last (calls : List ObjectCall) {call : ObjectCall}
    (h : Run.Along (callStep .x64 quietOs someLayout) (Refines .x64 quietOs someLayout)
      (⟨fun _ => 0, fun _ => 0⟩, .init) (calls ++ [call])) :
  Refines .x64 quietOs someLayout (afterCalls calls) call
  := by
  rw [Run.along_append] at h
  apply h.2.1

/-- The handle of a closed event can still be set, and a wait for the next event with that handle
looks at the closed one, which is signaled. -/
theorem closed_event_answers :
  let s : Store := ⟨fun _ => 0, fun _ => 0⟩
  ¬ Run.Along (callStep .x64 quietOs someLayout) (Refines .x64 quietOs someLayout) (s, .init)
      [.createEvent (.val 0) 0 1, .close 3, .setEvent 3 (.val 0)] ∧
    ¬ Run.Along (callStep .x64 quietOs someLayout) (Refines .x64 quietOs someLayout) (s, .init)
      [.createEvent (.val 0) 0 1, .close 3, .createEvent (.val 0) 0 0, .wait 3]
  := by
  intro s
  constructor
  · intro h
    have hset := refines_last [.createEvent (.val 0) 0 1, .close 3] h
    have hmap : handleMap someLayout (afterCalls [.createEvent (.val 0) 0 1, .close 3]).2 3 =
        none := by
      decide +kernel
    have hstatus : lastStatus [.createEvent (.val 0) 0 1, .close 3] (.setEvent 3 (.val 0)) =
        statusSuccess := by
      decide +kernel
    simp only [Refines, Spec, SpecChange, hmap, Fails] at hset
    cases hstatus.symm.trans hset.1
  · intro h
    have hwait := refines_last [.createEvent (.val 0) 0 1, .close 3, .createEvent (.val 0) 0 0] h
    have hmap : handleMap someLayout (afterCalls [.createEvent (.val 0) 0 1, .close 3,
        .createEvent (.val 0) 0 0]).2 3 = some (.event 0 false) := by
      decide +kernel
    have hstatus : lastStatus [.createEvent (.val 0) 0 1, .close 3, .createEvent (.val 0) 0 0]
        (.wait 3) = statusSuccess := by
      decide +kernel
    simp only [Refines, Spec, hmap, Fails] at hwait
    cases hstatus.symm.trans hwait.1

end Ntdll
