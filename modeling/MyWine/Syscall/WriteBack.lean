import Mathlib
import MyWine.Syscall.Dispatcher

/-!
# The write-back

After the handler has returned, the generated case writes the locals back to the pointers of the
guest: eight bytes for `ptr(wb)` and four for `ptr(wb32)`.  On `i386` an out parameter has four
bytes, except for the times and counters.  `writeBack_frame_iff` says when the write-back leaves
the other bytes of the guest alone.
-/

namespace Syscall

open List

def WriteBack.loc : WriteBack → Local
  | .word64 n => n
  | .word32 n => n

def WriteBack.width : WriteBack → ℕ
  | .word64 _ => 8
  | .word32 _ => 4

def Local.wide : Local → Bool
  | .hCounter | .hFreq | .hFtVal | .hTimeout => true
  | _ => false

def WriteBack.cellSize (wb : WriteBack) : ℕ := if wb.loc.wide then 8 else 4

def WriteBack.Covers (ptr : Local → ℕ) (wb : WriteBack) (x : ℕ) : Prop :=
  ptr wb.loc ≠ 0 ∧ ptr wb.loc ≤ x ∧ x < ptr wb.loc + wb.width

def OutParam (e : Entry) (ptr : Local → ℕ) (x : ℕ) : Prop :=
  ∃ wb ∈ (genCase e).writeBacks,
    ptr wb.loc ≠ 0 ∧ ptr wb.loc ≤ x ∧ x < ptr wb.loc + wb.cellSize

theorem WriteBack.exec_eq (ptr : Local → ℕ) (val : Local → ℕ) (mem : Bytes) (wb : WriteBack) :
  wb.exec ptr val mem =
    if ptr wb.loc ≠ 0 then mem.writeLE (ptr wb.loc) wb.width (val wb.loc) else mem
  := by
  cases wb <;> rfl

section Memory

variable {ptr : Local → ℕ} {val : Local → ℕ} {mem : Bytes} {x : ℕ}

theorem WriteBack.exec_apply_of_covers {wb : WriteBack} (h : wb.Covers ptr x) :
  wb.exec ptr val mem x = UInt8.ofNat (val wb.loc / 256 ^ (x - ptr wb.loc))
  := by
  rw [WriteBack.exec_eq, if_pos h.1, Bytes.writeLE, if_pos h.2]

theorem WriteBack.exec_apply_of_not_covers {wb : WriteBack} (h : ¬ wb.Covers ptr x) :
  wb.exec ptr val mem x = mem x
  := by
  rw [WriteBack.exec_eq]
  split
  · rename_i hne
    rw [Bytes.writeLE, if_neg fun hin => h ⟨hne, hin⟩]
  · rfl

theorem foldl_exec_of_not_covers {wbs : List WriteBack} (h : ∀ wb ∈ wbs, ¬ wb.Covers ptr x) :
  wbs.foldl (WriteBack.exec ptr val) mem x = mem x
  := by
  induction wbs generalizing mem with
  | nil => rfl
  | cons wb wbs ih =>
    obtain ⟨hwb, hwbs⟩ := forall_mem_cons.mp h
    rw [foldl_cons, ih hwbs, WriteBack.exec_apply_of_not_covers hwb]

theorem foldl_exec_eq_iff (wbs : List WriteBack) :
  wbs.foldl (WriteBack.exec ptr val) mem x = mem x ↔
    ∀ pre wb post, wbs = pre ++ wb :: post → wb.Covers ptr x →
      (∀ later ∈ post, ¬ later.Covers ptr x) →
      UInt8.ofNat (val wb.loc / 256 ^ (x - ptr wb.loc)) = mem x
  := by
  constructor
  · rintro h pre wb post rfl hcovers hpost
    rw [foldl_append, foldl_cons, foldl_exec_of_not_covers hpost,
      WriteBack.exec_apply_of_covers hcovers] at h
    apply h
  · intro h
    induction wbs using List.reverseRecOn with
    | nil => rfl
    | append_singleton wbs last ih =>
      rw [foldl_append, foldl_cons, foldl_nil]
      rcases Classical.em (last.Covers ptr x) with hcovers | hno
      · rw [WriteBack.exec_apply_of_covers hcovers]
        apply h wbs last [] rfl hcovers nofun
      · rw [WriteBack.exec_apply_of_not_covers hno]
        apply ih
        intro pre wb post hwbs hcovers hpost
        apply h pre wb (post ++ [last]) (by simp [hwbs]) hcovers
        intro later hlater
        rcases mem_append.mp hlater with hmem | hmem
        · apply hpost later hmem
        · rw [mem_singleton.mp hmem]
          apply hno

end Memory

/-- Each byte that is written after the four bytes of an out parameter that has only four belongs
to another out parameter, or is written again, or is what was there after the handler. -/
def HighHalvesKept (e : Entry) (ptr : Local → ℕ) (store : Store) : Prop :=
  ∀ pre n post, (genCase e).writeBacks = pre ++ .word64 n :: post → n.wide = false → ptr n ≠ 0 →
    ∀ k, 4 ≤ k → k < 8 →
      OutParam e ptr (ptr n + k) ∨ (∃ later ∈ post, later.Covers ptr (ptr n + k)) ∨
        UInt8.ofNat (store.val n / 256 ^ k) = store.mem (ptr n + k)

/-- A byte that a write-back writes outside the out parameters is one of the last four bytes of an
out parameter that has only four. -/
theorem exists_of_covers {e : Entry} {ptr : Local → ℕ} {wb : WriteBack} {x : ℕ}
    (hmem : wb ∈ (genCase e).writeBacks) (hcovers : wb.Covers ptr x) (hout : ¬ OutParam e ptr x) :
  ∃ n k, wb = .word64 n ∧ n.wide = false ∧ ptr n ≠ 0 ∧ 4 ≤ k ∧ k < 8 ∧ x = ptr n + k
  := by
  obtain ⟨hne, hle, hlt⟩ := hcovers
  have hcell : ptr wb.loc + wb.cellSize ≤ x := by
    by_contra hin
    apply hout ⟨wb, hmem, hne, hle, by omega⟩
  cases hwide : wb.loc.wide with
  | true =>
    have hsize : wb.cellSize = 8 := by simp [WriteBack.cellSize, hwide]
    have hwidth : wb.width ≤ 8 := by cases wb <;> simp [WriteBack.width]
    omega
  | false =>
    have hsize : wb.cellSize = 4 := by simp [WriteBack.cellSize, hwide]
    cases wb with
    | word64 n =>
      simp only [WriteBack.loc, WriteBack.width] at hne hle hlt hcell
      exact ⟨n, x - ptr n, rfl, hwide, hne, by omega, by omega, by omega⟩
    | word32 n =>
      simp only [WriteBack.width] at hlt
      omega

theorem frame_iff_highHalvesKept (e : Entry) (ptr : Local → ℕ) (store : Store) :
  (∀ x, ¬ OutParam e ptr x →
      (genCase e).writeBacks.foldl (WriteBack.exec ptr store.val) store.mem x = store.mem x) ↔
    HighHalvesKept e ptr store
  := by
  constructor
  · intro h pre n post hwbs hwide hne k hk hk8
    rcases Classical.em (OutParam e ptr (ptr n + k)) with hout | hout
    · left
      apply hout
    · right
      rcases Classical.em (∃ later ∈ post, later.Covers ptr (ptr n + k)) with hlater | hlater
      · left
        apply hlater
      · right
        have hcovers : (WriteBack.word64 n).Covers ptr (ptr n + k) :=
          ⟨hne, Nat.le_add_right _ _, Nat.add_lt_add_left hk8 _⟩
        have hbyte := (foldl_exec_eq_iff _).mp (h _ hout) pre (.word64 n) post hwbs hcovers
          fun later hmem hc => hlater ⟨later, hmem, hc⟩
        rwa [WriteBack.loc, Nat.add_sub_cancel_left] at hbyte
  · intro h x hout
    apply (foldl_exec_eq_iff _).mpr
    intro pre wb post hwbs hcovers hpost
    have hmem : wb ∈ (genCase e).writeBacks := by simp [hwbs]
    obtain ⟨n, k, rfl, hwide, hne, hk, hk8, rfl⟩ := exists_of_covers hmem hcovers hout
    rw [WriteBack.loc, Nat.add_sub_cancel_left]
    obtain hpar | ⟨later, hlater, hc⟩ | hbyte := h pre n post hwbs hwide hne k hk hk8
    · cases hout hpar
    · cases hpost later hlater hc
    · apply hbyte

/-- On `i386` a system call changes, beyond what its handler changed, only the bytes of its out
parameters, exactly when the high halves of the locals are kept. -/
theorem writeBack_frame_iff {ω : Type*} (h : Handlers ω) (e : Entry) (he : e ∈ ntSyscalls)
    (g : Guest) (w w' : ω) (call : Call) (hcall : marshal .i386 g (genCase e) = .ok call)
    (status : ℕ) (store : Store)
    (hret : h call.handler call.args ⟨g.mem, call.locals.val⟩ w = some (status, store, w')) :
  (∃ mem, dispatcherCore .i386 h e.num g w = some (toResult .i386 status, mem, w') ∧
      ∀ x, ¬ OutParam e call.locals.ptr x → mem x = store.mem x) ↔
    HighHalvesKept e call.locals.ptr store
  := by
  rw [← frame_iff_highHalvesKept]
  simp [dispatcherCore, findEntry_num e he, hcall, hret]

def createMutex : Entry :=
  ⟨0x44, .createMutex, [.wb (.arg .arg1) .hHandle "h_handle"], [.addr .hHandle, .arg .arg2, .arg .arg3]⟩

def returnHandle : Handlers Unit := fun _ _ store w =>
  some (0, { store with val := Function.update store.val .hHandle 3 }, w)

/-- A guest that calls `NtCreateMutex` with a variable at `0x6000` and four bytes `v` after it. -/
def mutexGuest (v : ℕ) : Guest where
  regs
    | .esp => 0x500000
    | _ => 0
  mem := (Bytes.writeLE (fun _ => 0) 0x500010 4 0x6000).writeLE 0x6004 4 v

def mutexCall (v : ℕ) : Call := (genCase createMutex).call .i386 (mutexGuest v)

theorem marshal_mutexGuest {v : ℕ} (hv : v = 0 ∨ v = 0xABABABAB) :
  marshal .i386 (mutexGuest v) (genCase createMutex) = .ok (mutexCall v) ∧
    (mutexCall v).locals.ptr .hHandle = 0x6000
  := by
  rw [marshal_eq_ok_iff (by decide), mutexCall, and_iff_left rfl]
  rcases hv with rfl | rfl <;> decide +kernel

/-- A variable that is followed by zeros. -/
theorem writeBack_kept :
  createMutex ∈ ntSyscalls ∧
    ∃ store, marshal .i386 (mutexGuest 0) (genCase createMutex) = .ok (mutexCall 0) ∧
      returnHandle .createMutex (mutexCall 0).args ⟨(mutexGuest 0).mem, (mutexCall 0).locals.val⟩ () =
        some (0, store, ()) ∧
      ∃ mem, dispatcherCore .i386 returnHandle 0x44 (mutexGuest 0) () = some (0, mem, ()) ∧
        ∀ x, ¬ OutParam createMutex (mutexCall 0).locals.ptr x → mem x = store.mem x
  := by
  have he : createMutex ∈ ntSyscalls := by decide
  obtain ⟨hcall, hptr⟩ := marshal_mutexGuest (Or.inl rfl)
  refine ⟨he, _, hcall, rfl, ?_⟩
  apply (writeBack_frame_iff returnHandle _ he (mutexGuest 0) () () _ hcall 0 _ rfl).mpr
  intro pre n post hwbs _ _ k hk hk8
  right
  right
  obtain rfl : n = .hHandle := by
    have hmem : WriteBack.word64 n ∈ (genCase createMutex).writeBacks := by simp [hwbs]
    fin_cases hmem
    rfl
  rw [hptr]
  interval_cases k <;> decide +kernel

/-- The write-back of the handle of `NtCreateMutex` clears the four bytes after the variable. -/
theorem writeBack_clears :
  createMutex ∈ ntSyscalls ∧
    marshal .i386 (mutexGuest 0xABABABAB) (genCase createMutex) = .ok (mutexCall 0xABABABAB) ∧
    ¬ OutParam createMutex (mutexCall 0xABABABAB).locals.ptr 0x6004 ∧
    (mutexGuest 0xABABABAB).mem 0x6004 = 0xAB ∧
    ∃ mem, dispatcherCore .i386 returnHandle 0x44 (mutexGuest 0xABABABAB) () = some (0, mem, ()) ∧
      mem 0x6004 = 0
  := by
  obtain ⟨hcall, hptr⟩ := marshal_mutexGuest (Or.inr rfl)
  refine ⟨by decide, hcall, ?_, by decide +kernel, _, rfl, by decide +kernel⟩
  rintro ⟨wb, hwb, -, -, hlt⟩
  fin_cases hwb
  rw [WriteBack.loc, hptr] at hlt
  revert hlt
  decide

end Syscall
