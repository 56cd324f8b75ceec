import Mathlib
import MyWine.Ntdll.Memory
import MyWine.Ntdll.Synchronization
import MyWine.Syscall.WriteBack

/-!
# Optional pointers

Some handlers tell a `NULL` pointer from a pointer to zero.  The dispatcher does not pass them the
pointer of the guest but the address of a local, which is zero if the pointer is `NULL`.
`sameBehaviour_iff` says for which calls a handler that is called by the dispatcher behaves as if
it were called with the pointers of the guest.
-/

namespace Ntdll

open Syscall Function Option

/-- The handlers that take optional pointers, with a number of iterations for their loops; the
other handlers are `rest`. -/
def handlers (b : Build) (os : Os) (rest : Handlers Objects) (fuel : ℕ) : Handlers Objects :=
  fun nt args s w =>
    match nt, args with
    | .setEvent, [.val handle, previousState] =>
      some (handlerNtSetEvent handle previousState s w)
    | .resetEvent, [.val handle, previousState] =>
      some (handlerNtResetEvent handle previousState s w)
    | .waitForSingleObject, [.val handle, .val _, timeoutPtr] =>
      handlerNtWaitForSingleObject os fuel handle timeoutPtr s w
    | .delayExecution, [.val _, timeoutPtr] => some (handlerNtDelayExecution os timeoutPtr s w)
    | .mapViewOfSection, [.val sectionHandle, .val _, baseAddress, .val _, .val commitSize,
        sectionOffset, viewSizePtr, .val _, .val _, .val protect] =>
      handlerNtMapViewOfSection b os sectionHandle baseAddress commitSize sectionOffset viewSizePtr
        protect s w
    | nt, args => rest nt args s w

def takesOptionalPointer : Nt → Bool
  | .setEvent | .resetEvent | .waitForSingleObject | .delayExecution | .mapViewOfSection => true
  | _ => false

/-- The handler of an entry called with the words of its parameters, pointers included. -/
def direct {ω : Type*} (b : Build) (h : Handlers ω) (e : Entry) (g : Guest) (w : ω) :
    Option (ℕ × Bytes × ω) :=
  (h e.handler (e.params.map fun p => .val (p.feed.word b g)) ⟨g.mem, fun _ => 0⟩ w).map
    fun (status, s, w) => (toResult b status, s.mem, w)

/-- The words that the dispatcher checks for the entry are pointers, so that the handler is
called. -/
def Checked (b : Build) (e : Entry) (g : Guest) : Prop :=
  ∀ p ∈ e.params, p.checked = true → PtrOk b (p.feed.word b g)

instance (b : Build) (e : Entry) (g : Guest) : Decidable (Checked b e g) :=
  inferInstanceAs (Decidable (∀ p ∈ e.params, _))

/-- A call through the dispatcher and a direct call of the handler have the same outcomes. -/
def SameBehaviour (b : Build) (os : Os) (rest : Handlers Objects) (e : Entry) (g : Guest)
    (w : Objects) : Prop :=
  ∀ o, (∃ fuel, dispatcherCore b (handlers b os rest fuel) e.num g w = some o) ↔
    ∃ fuel, direct b (handlers b os rest fuel) e g w = some o

theorem dispatcherCore_eq {ω : Type*} {b : Build} {h : Handlers ω} {e : Entry} {g : Guest} {w : ω}
    (he : e ∈ ntSyscalls) (hg : Checked b e g) :
  dispatcherCore b h e.num g w =
    (h e.handler ((genCase e).call b g).args ⟨g.mem, ((genCase e).call b g).locals.val⟩ w).map
      fun (status, s, w) => (toResult b status,
        (genCase e).writeBacks.foldl
          (WriteBack.exec ((genCase e).call b g).locals.ptr s.val) s.mem, w)
  := by
  have hcall := (marshal_eq_ok_iff he).mpr ⟨hg, rfl⟩
  simp only [dispatcherCore, findEntry_num e he, hcall]
  have hhandler : ((genCase e).call b g).handler = e.handler := rfl
  rw [hhandler]
  split
  · rename_i hnone
    rw [hnone, map_none]
  · rename_i hsome
    rw [hsome, map_some]

/-! ### The handlers -/

variable {mem : Bytes} {p v x : ℕ}

theorem valueAt_of_ne (hp : p ≠ 0) :
  valueAt mem p = mem.readLE p 8
  := if_neg hp

theorem writeBack_value {k : ℕ} (hv : v = valueAt mem p) (hk : k ≤ 8) :
  (if p ≠ 0 then mem.writeLE p k v else mem) = mem
  := by
  rw [hv]
  split
  · rename_i hp
    rw [valueAt_of_ne hp, Bytes.writeLE_readLE mem p hk]
  · rfl

theorem toResult_of_lt {status : ℕ} (h : status < 2 ^ 32) (b : Build) :
  toResult b status = status
  := by
  apply Build.wrap_of_lt
  cases b <;> simp only [Build.ptrLimit, Build.ptrSize] <;> omega

section Handlers

variable {b : Build} {os : Os} {w : Objects} {mem : Bytes} {val : Local → ℕ} {handle p : ℕ}

/-- What a call of a handler leaves: the result, the memory and the objects, after the memory has
been changed by `f`. -/
def outcome (b : Build) (f : Store → Bytes) : ℕ × Store × Objects → ℕ × Bytes × Objects :=
  fun (status, s, w) => (toResult b status, f s, w)

variable {f : Store → Bytes}

theorem outcome_wait (fuel : ℕ) (timeout : Param) (s : Store) :
  (handlerNtWaitForSingleObject os fuel handle timeout s w).map (outcome b f) =
    match findEvent w (toInt handle) with
    | none => some (toResult b statusInvalidHandle, f s, w)
    | some slot =>
      if timeout.isNull then
        (waitForever os slot fuel w).map fun w => (toResult b statusSuccess, f s, w)
      else (waitTimeout os fuel slot (s.load timeout) w).map fun (status, w) =>
        (toResult b status, f s, w)
  := by
  rw [handlerNtWaitForSingleObject]
  split
  · simp [outcome, *]
  · split_ifs <;> simp [outcome, *, Function.comp_def]

theorem same_wait_iff (hval : val .hTimeout = valueAt mem p) (hf : f ⟨mem, val⟩ = mem) :
  (∀ o, (∃ fuel, (handlerNtWaitForSingleObject os fuel handle (.ref .hTimeout) ⟨mem, val⟩ w).map
        (outcome b f) = some o) ↔
      ∃ fuel, (handlerNtWaitForSingleObject os fuel handle (.val p) ⟨mem, fun _ => 0⟩ w).map
        (outcome b Store.mem) = some o) ↔
    (p = 0 → ∀ slot, findEvent w (toInt handle) = some slot → w.signaled slot = true)
  := by
  simp only [outcome_wait, Param.isNull, Store.load, hf, Bool.false_eq_true, if_false,
    decide_eq_true_eq]
  cases hslot : findEvent w (toInt handle) with
  | none => simp
  | some slot =>
    rcases eq_or_ne p 0 with rfl | hp
    · have hzero : val .hTimeout = 0 := hval
      simp only [hzero, waitTimeout, if_true, map_some, exists_const, some.injEq,
        true_implies, forall_eq']
      cases hsignaled : w.signaled slot with
      | true =>
        simp only [poll, hsignaled, if_true, iff_true]
        intro o
        constructor
        · rintro rfl
          use 1
          simp [waitForever, hsignaled]
        · rintro ⟨fuel, hfuel⟩
          cases fuel with
          | zero => cases hfuel
          | succ fuel => simpa [waitForever, hsignaled] using hfuel
      | false =>
        simp only [poll, hsignaled, Bool.false_eq_true, if_false, iff_false, not_forall]
        use (toResult b statusTimeout, mem, w)
        intro hsame
        obtain ⟨fuel, hfuel⟩ := hsame.mp rfl
        obtain ⟨w', -, hw'⟩ := map_eq_some_iff.mp hfuel
        have hstatus : toResult b statusSuccess = toResult b statusTimeout := congrArg Prod.fst hw'
        rw [toResult_of_lt (by decide), toResult_of_lt (by decide)] at hstatus
        cases hstatus
    · simp [hval, valueAt_of_ne hp, hp]

/-- A change of an event behaves the same if there is no event, or no pointer for the previous
state, or the four bytes after it are those of the previous state. -/
theorem same_change_iff {v : ℤ} (hval : val .hPrev = valueAt mem p)
    (hf : ∀ val, f ⟨mem, val⟩ = if p ≠ 0 then mem.writeLE p 4 (val .hPrev) else mem) :
  outcome b f (changeEvent v handle (.ref .hPrev) ⟨mem, val⟩ w) =
      outcome b Store.mem (changeEvent v handle (.val p) ⟨mem, fun _ => 0⟩ w) ↔
    ∀ slot, findEvent w (toInt handle) = some slot → p ≠ 0 → ∀ k, 4 ≤ k → k < 8 →
      mem (p + k) = UInt8.ofNat (ofInt (w.events slot).signaled / 256 ^ k)
  := by
  cases hslot : findEvent w (toInt handle) with
  | none => simp [changeEvent, hslot, outcome, hf, writeBack_value hval]
  | some slot =>
    rcases eq_or_ne p 0 with rfl | hp
    · simp [changeEvent, hslot, outcome, hf, Store.storeUnlessNull, Param.isNull, Store.store]
    · simp only [changeEvent, hslot, outcome, hf, Store.storeUnlessNull, Param.isNull, Store.store,
        hp, decide_false, Bool.false_eq_true, if_false, update_self, ne_eq, not_false_eq_true,
        if_true, Prod.mk.injEq, true_and, and_true, some.injEq, forall_eq', true_implies]
      apply Bytes.writeLE_eq_writeLE_iff mem p _ (by omega)

theorem same_delay (hval : val .hTimeout = valueAt mem p) (hf : f ⟨mem, val⟩ = mem) :
  outcome b f (handlerNtDelayExecution os (.ref .hTimeout) ⟨mem, val⟩ w) =
    outcome b Store.mem (handlerNtDelayExecution os (.val p) ⟨mem, fun _ => 0⟩ w)
  := by
  rcases eq_or_ne p 0 with rfl | hp
  · have hzero : val .hTimeout = 0 := hval
    simp [handlerNtDelayExecution, Param.isNull, Store.load, hzero, outcome, hf]
  · rw [valueAt_of_ne hp] at hval
    rcases Nat.lt_or_ge (mem.readLE p 8) (2 ^ 63) with hlt | hge
    · simp only [handlerNtDelayExecution, Param.isNull, Store.load, hval, hp, decide_false,
        Bool.false_eq_true, if_false, hlt, if_true, outcome, hf]
    · simp only [handlerNtDelayExecution, Param.isNull, Store.load, hval, hp, decide_false,
        Bool.false_eq_true, if_false, hge.not_gt, outcome, hf]
      rfl

end Handlers

/-! ### Views -/

def put (p v : ℕ) (mem : Bytes) : Bytes := if p ≠ 0 then mem.writeLE p 8 v else mem

/-- The byte at `x` is one of the eight bytes at a pointer that is not `NULL`. -/
def InCell (p x : ℕ) : Prop := p ≠ 0 ∧ p ≤ x ∧ x < p + 8

theorem put_apply_of_inCell (h : InCell p x) :
  put p v mem x = UInt8.ofNat (v / 256 ^ (x - p))
  := by
  rw [put, if_pos h.1, Bytes.writeLE, if_pos h.2]

theorem put_apply_of_not_inCell (h : ¬ InCell p x) :
  put p v mem x = mem x
  := by
  rw [put]
  split
  · rename_i hp
    rw [Bytes.writeLE, if_neg fun hin => h ⟨hp, hin⟩]
  · rfl

theorem byte_valueAt (mem : Bytes) (h : InCell p x) :
  UInt8.ofNat (valueAt mem p / 256 ^ (x - p)) = mem x
  := by
  obtain ⟨hp, hle, hlt⟩ := h
  rw [valueAt_of_ne hp, Bytes.byte_readLE mem p (by omega), Nat.add_sub_cancel' hle]

theorem put_valueAt (p : ℕ) (mem : Bytes) :
  put p (valueAt mem p) mem = mem
  := writeBack_value rfl (le_refl 8)

/-- Writing the old value `valueAt mem po` between two other writes does no harm if each of its
bytes is written again or was there. -/
theorem put_put_eq_iff {po pv vs : ℕ} {mem' : Bytes} :
  put pv vs (put po (valueAt mem po) mem') = put pv vs mem' ↔
    ∀ x, InCell po x → ¬ InCell pv x → mem' x = mem x
  := by
  constructor
  · intro heq x hin hout
    have hx := congrFun heq x
    rw [put_apply_of_not_inCell hout, put_apply_of_not_inCell hout, put_apply_of_inCell hin,
      byte_valueAt mem hin] at hx
    apply hx.symm
  · intro h
    funext x
    rcases Classical.em (InCell pv x) with hin | hout
    · rw [put_apply_of_inCell hin, put_apply_of_inCell hin]
    · rw [put_apply_of_not_inCell hout, put_apply_of_not_inCell hout]
      rcases Classical.em (InCell po x) with hin | hno
      · rw [put_apply_of_inCell hin, byte_valueAt mem hin, h x hin hout]
      · rw [put_apply_of_not_inCell hno]

theorem storeUnlessNull_val (s : Store) (v p : ℕ) :
  s.storeUnlessNull v (.val p) = { s with mem := put p v s.mem }
  := by
  rcases eq_or_ne p 0 with rfl | hp
  · rfl
  · simp [Store.storeUnlessNull, Param.isNull, Store.store, put, hp]

theorem storeUnlessNull_ref (s : Store) (v : ℕ) (n : Local) :
  s.storeUnlessNull v (.ref n) = { s with val := update s.val n v }
  := rfl

/-- The mapping of a view behaves the same if the bytes of the section offset that lie in the base
address, and not in the view size, are those of the address of the view. -/
theorem same_map_iff {b : Build} {os : Os} {inUse : ℕ → Prop} {w : Objects} {val : Local → ℕ}
    {handle commit protect pb po pv : ℕ} {f : Store → Bytes}
    (hbase : val .hBaseAddr = valueAt mem pb) (hoff : val .hSectionOff = valueAt mem po)
    (hview : val .hViewSz = valueAt mem pv)
    (hf : ∀ s, f s = put pv (s.val .hViewSz) (put po (s.val .hSectionOff)
      (put pb (s.val .hBaseAddr) s.mem))) (hos : os.Fresh inUse)
    (huse : ∀ x, InCell po x → inUse x) :
  (handlerNtMapViewOfSection b os handle (.ref .hBaseAddr) commit (.ref .hSectionOff)
      (.ref .hViewSz) protect ⟨mem, val⟩ w).map (outcome b f) =
    (handlerNtMapViewOfSection b os handle (.val pb) commit (.val po) (.val pv) protect
      ⟨mem, fun _ => 0⟩ w).map (outcome b Store.mem) ↔
    ∀ result viewSz mem', mapView b os w handle (valueAt mem pb) commit (valueAt mem po) protect
        mem = some (.ok (result, viewSz, mem')) →
      ∀ x, InCell po x → ¬ InCell pv x → InCell pb x →
        UInt8.ofNat (result / 256 ^ (x - pb)) = mem x
  := by
  have hval (p : ℕ) : Store.value ⟨mem, fun _ => 0⟩ (.val p) = valueAt mem p := by
    simp [Store.value, Param.isNull, Store.load, valueAt]
  have href (n : Local) : Store.value ⟨mem, val⟩ (.ref n) = val n := rfl
  simp only [handlerNtMapViewOfSection, hval, href, hbase, hoff]
  rcases hmap : mapView b os w handle (valueAt mem pb) commit (valueAt mem po) protect mem with
    _ | status | ⟨result, viewSz, mem'⟩
  · simp
  · simp [outcome, hf, hbase, hoff, hview, put_valueAt]
  · simp only [map_some, some.injEq, outcome, hf, storeUnlessNull_val, storeUnlessNull_ref, Except.ok.injEq,
      Prod.mk.injEq, and_true, true_and, ne_eq, reduceCtorEq, not_false_eq_true,
      update_self, update_of_ne, hoff, put_put_eq_iff]
    have hkept (x : ℕ) (hx : InCell po x) : mem' x = mem x :=
      mapView_apply_of_inUse hos hmap (huse x hx)
    constructor
    · rintro h _ _ _ ⟨rfl, rfl, rfl⟩ x hin hout hpb
      have hx := h x hin hout
      rwa [put_apply_of_inCell hpb] at hx
    · intro h x hin hout
      rcases Classical.em (InCell pb x) with hpb | hpb
      · rw [put_apply_of_inCell hpb, h result viewSz mem' ⟨rfl, rfl, rfl⟩ x hin hout hpb]
      · rw [put_apply_of_not_inCell hpb, hkept x hin]

/-! ### The dispatcher -/

/-- The condition for a call of an entry to keep the meaning of its optional pointers.  A wait needs
a timeout or an event that is signaled; a change of an event needs the bytes after the four of the
previous state to be those of the previous state; a mapping needs the bytes of the section offset
that lie in the base address, and not in the view size, to be those of the address of the view. -/
def KeepsMeaning (b : Build) (os : Os) (e : Entry) (g : Guest) (w : Objects) : Prop :=
  match e.handler with
  | .waitForSingleObject =>
    arg b g .arg3 = 0 → ∀ slot, findEvent w (toInt (arg b g .arg1)) = some slot → w.signaled slot = true
  | .setEvent | .resetEvent =>
    ∀ slot, findEvent w (toInt (arg b g .arg1)) = some slot → arg b g .arg2 ≠ 0 → ∀ k, 4 ≤ k → k < 8 →
      g.mem (arg b g .arg2 + k) = UInt8.ofNat (ofInt (w.events slot).signaled / 256 ^ k)
  | .mapViewOfSection =>
    ∀ result viewSz mem', mapView b os w (arg b g .arg1) (valueAt g.mem (arg b g .arg3))
        (readGuestStack b g 1) (valueAt g.mem (readGuestStack b g 1)) (readGuestStack b g 6) g.mem =
          some (.ok (result, viewSz, mem')) →
      ∀ x, InCell (readGuestStack b g 1) x → ¬ InCell (readGuestStack b g 2) x →
        InCell (arg b g .arg3) x → UInt8.ofNat (result / 256 ^ (x - arg b g .arg3)) = g.mem x
  | _ => True

/-- Handlers that do not depend on the bound on the iterations behave the same when they have the same
outcome. -/
theorem forall_result_iff {α : Type*} {x y : ℕ → Option α} (hx : ∀ n, x n = x 0)
    (hy : ∀ n, y n = y 0) :
  (∀ o, (∃ n, x n = some o) ↔ ∃ n, y n = some o) ↔ x 0 = y 0
  := by
  simp only [hx, hy, exists_const]
  exact Option.ext_iff.symm

theorem forall_outcome_iff {α : Type*} {x y : α} :
  (∀ o, (∃ _ : ℕ, some x = some o) ↔ ∃ _ : ℕ, some y = some o) ↔ x = y
  := (forall_result_iff (fun _ => rfl) fun _ => rfl).trans some_inj

section Calls

variable {b : Build} {os : Os} {rest : Handlers Objects} {e : Entry} {g : Guest} {w : Objects}

theorem sameBehaviour_mapView (he : e ∈ ntSyscalls) (hg : Checked b e g)
    (hhandler : e.handler = .mapViewOfSection) {inUse : ℕ → Prop} (hos : os.Fresh inUse)
    (huse : ∀ p ∈ e.params, p.byRef = true → ∀ x, InCell (p.feed.word b g) x → inUse x) :
  SameBehaviour b os rest e g w ↔ KeepsMeaning b os e g w
  := by
  simp only [SameBehaviour, dispatcherCore_eq he hg]
  fin_cases he <;> cases hhandler
  refine (forall_result_iff ?_ ?_).trans ?_
  · intro n
    rfl
  · intro n
    rfl
  exact same_map_iff (f := fun s => put (readGuestStack b g 2) (s.val .hViewSz)
    (put (readGuestStack b g 1) (s.val .hSectionOff) (put (arg b g .arg3) (s.val .hBaseAddr) s.mem)))
    rfl rfl rfl (fun _ => rfl) hos (huse ⟨.stack 1, true, true⟩ (by decide) rfl)

theorem sameBehaviour_change {v : ℤ} (he : e ∈ ntSyscalls) (hg : Checked b e g)
    (hhandler : e.handler = .setEvent ∧ v = 1 ∨ e.handler = .resetEvent ∧ v = 0) :
  SameBehaviour b os rest e g w ↔ KeepsMeaning b os e g w
  := by
  simp only [SameBehaviour, dispatcherCore_eq he hg]
  rcases hhandler with ⟨hhandler, rfl⟩ | ⟨hhandler, rfl⟩ <;> fin_cases he <;> cases hhandler
  all_goals
    refine forall_outcome_iff.trans ?_
    exact same_change_iff (p := arg b g .arg2) (f := fun s =>
      if arg b g .arg2 ≠ 0 then s.mem.writeLE (arg b g .arg2) 4 (s.val .hPrev) else s.mem) rfl fun _ => rfl

theorem sameBehaviour_delay (he : e ∈ ntSyscalls) (hg : Checked b e g)
    (hhandler : e.handler = .delayExecution) :
  SameBehaviour b os rest e g w ↔ KeepsMeaning b os e g w
  := by
  simp only [SameBehaviour, dispatcherCore_eq he hg]
  fin_cases he <;> cases hhandler
  refine iff_of_true (forall_outcome_iff.mpr ?_) trivial
  exact same_delay (p := arg b g .arg2)
    (f := fun s => put (arg b g .arg2) (s.val .hTimeout) s.mem) rfl (put_valueAt _ _)

theorem sameBehaviour_wait (he : e ∈ ntSyscalls) (hg : Checked b e g)
    (hhandler : e.handler = .waitForSingleObject) :
  SameBehaviour b os rest e g w ↔ KeepsMeaning b os e g w
  := by
  simp only [SameBehaviour, dispatcherCore_eq he hg]
  fin_cases he <;> cases hhandler
  exact same_wait_iff (p := arg b g .arg3)
    (f := fun s => put (arg b g .arg3) (s.val .hTimeout) s.mem) rfl (put_valueAt _ _)

end Calls

/-- A call that the dispatcher lets pass behaves as the handler called with the pointers of the
guest exactly when it keeps the meaning of the optional pointers. -/
theorem sameBehaviour_iff (b : Build) (os : Os) (rest : Handlers Objects) (e : Entry)
    (he : e ∈ ntSyscalls) (hopt : takesOptionalPointer e.handler = true) (g : Guest)
    (hg : Checked b e g) (w : Objects) (inUse : ℕ → Prop) (hos : os.Fresh inUse)
    (huse : ∀ p ∈ e.params, p.byRef = true → ∀ x, InCell (p.feed.word b g) x → inUse x) :
  SameBehaviour b os rest e g w ↔ KeepsMeaning b os e g w
  := by
  cases hhandler : e.handler
  case setEvent => apply sameBehaviour_change he hg (Or.inl ⟨hhandler, rfl⟩)
  case resetEvent => apply sameBehaviour_change he hg (Or.inr ⟨hhandler, rfl⟩)
  case delayExecution => apply sameBehaviour_delay he hg hhandler
  case waitForSingleObject => apply sameBehaviour_wait he hg hhandler
  case mapViewOfSection => apply sameBehaviour_mapView he hg hhandler hos huse
  all_goals
    rw [hhandler] at hopt
    cases hopt

def waitForSingleObject : Entry :=
  ⟨0x03, .waitForSingleObject, [.wb (.arg .arg3) .hTimeout "h_timeout"],
    [.arg .arg1, .arg .arg2, .addr .hTimeout]⟩

/-- An operating system in which another thread signals the event `4` during the first sleep. -/
def signalingOs : Os where
  nanosleep _ _ := none
  others _ _ _ := ⟨4, 1, 0⟩
  mmap _ _ := .error eperm

def oneEvent (signaled : ℤ) : Objects where
  handles := HandleManager.wineHandleManagerRuntimeInit
  sectionAt _ := ⟨0, 0, -1⟩
  events _ := ⟨4, signaled, 0⟩
  eventCount := 1
  views _ := ⟨0, 0⟩
  viewCount := 0
  sleeps := 0

def waitingGuest : Guest where
  regs
    | .rcx => 4
    | _ => 0
  mem _ := 0

def noHandlers : Handlers Objects := fun _ _ _ _ => none

theorem checked_waitingGuest :
  Checked .x64 waitForSingleObject waitingGuest
  := by
  decide

/-- A wait for an event that is signaled. -/
theorem sameBehaviour_signaled :
  waitForSingleObject ∈ ntSyscalls ∧ takesOptionalPointer waitForSingleObject.handler = true ∧
    Checked .x64 waitForSingleObject waitingGuest ∧ signalingOs.Fresh (fun _ => False) ∧
    SameBehaviour .x64 signalingOs noHandlers waitForSingleObject waitingGuest (oneEvent 1)
  := by
  have he : waitForSingleObject ∈ ntSyscalls := by decide
  have hos : signalingOs.Fresh (fun _ => False) := nofun
  refine ⟨he, rfl, checked_waitingGuest, hos, ?_⟩
  apply (sameBehaviour_iff .x64 signalingOs noHandlers _ he rfl waitingGuest checked_waitingGuest
    (oneEvent 1) (fun _ => False) hos ?_).mpr
  · rintro - slot hslot
    rfl
  · intro p hp href x hx
    fin_cases hp <;> cases href
    apply hx.1 rfl

/-- A wait without a timeout for an event that is not signaled ends at once, while the handler
waits until the event is signaled. -/
theorem wait_polls :
  waitForSingleObject ∈ ntSyscalls ∧ Checked .x64 waitForSingleObject waitingGuest ∧
    (∀ fuel, dispatcherCore .x64 (handlers .x64 signalingOs noHandlers fuel) 0x03 waitingGuest
      (oneEvent 0) = some (statusTimeout, waitingGuest.mem, oneEvent 0)) ∧
    (∃ w, direct .x64 (handlers .x64 signalingOs noHandlers 2) waitForSingleObject waitingGuest
      (oneEvent 0) = some (statusSuccess, waitingGuest.mem, w)) ∧
    ¬ SameBehaviour .x64 signalingOs noHandlers waitForSingleObject waitingGuest (oneEvent 0)
  := by
  have he : waitForSingleObject ∈ ntSyscalls := by decide
  refine ⟨he, checked_waitingGuest, fun _ => rfl, ⟨_, rfl⟩, ?_⟩
  rw [sameBehaviour_wait he checked_waitingGuest rfl]
  intro hkeeps
  cases hkeeps rfl 0 rfl

end Ntdll
