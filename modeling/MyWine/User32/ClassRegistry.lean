import MyWine.Lib.Loop
import MyWine.SyscallSafeUtils

/-!
# The window class registry

`user32_class_registry.c`.  The registry is an array that grows and never shrinks, and the atom of a
class is its index plus one.  An `ATOM` has the width of a pointer, so that the index is not narrowed
and each name has an atom of its own, which belongs to the first class that was registered with it
(`classes_ok`).  Memory for the array and the copies of the names is assumed.
-/

open SyscallSafe List

namespace User32

/-- A `WNDCLASSA`, with `α` for the fields that the registry only copies. -/
structure WndClass (α : Type*) where
  fields : α
  lpszClassName : CString

structure ClassRegistry (α : Type*) where
  entries : List (WndClass α) := []
  capacity : ℕ := 0

section

variable {α : Type*}

/-- The entries are copied to the new array. -/
def ensureClassCapacity (needed : ℕ) (r : ClassRegistry α) : ClassRegistry α :=
  if needed ≤ r.capacity then r
  else
    let first := if r.capacity = 0 then 16 else r.capacity * 2
    { r with capacity := Loop.doubleCapacity needed needed first }

def findClassIndex (name : CString) (r : ClassRegistry α) : Option ℕ :=
  r.entries.findIdx? fun c => strcmp c.lpszClassName name = 0

/-- `RegisterClassA`, with `none` for a call without a class or without a name. -/
def registerClassA (r : ClassRegistry α) : Option (WndClass α) → ℕ × ClassRegistry α
  | none => (0, r)
  | some c =>
    match findClassIndex c.lpszClassName r with
    | some i => (i + 1, r)
    | none =>
      let r := ensureClassCapacity (r.entries.length + 1) r
      let entries := r.entries ++ [c]
      (entries.length, { r with entries })

def findRegisteredClass (name : CString) (r : ClassRegistry α) : Option (WndClass α × ℕ) :=
  match findClassIndex name r with
  | none => none
  | some i => r.entries[i]?.map fun c => (c, i + 1)

def register (r : ClassRegistry α) (call : Option (WndClass α)) : ClassRegistry α :=
  (registerClassA r call).2

/-- The registry after a sequence of calls. -/
def registered (calls : List (Option (WndClass α))) : ClassRegistry α := calls.foldl register {}

/-! ### The entries -/

variable {calls before : List (Option (WndClass α))} {c : WndClass α} {r : ClassRegistry α}
  {name : CString} {i : ℕ}

theorem findClassIndex_append {l : List (WndClass α)} {r' : ClassRegistry α}
    (hr' : r'.entries = r.entries ++ l) (name : CString) :
  findClassIndex name r' = (findClassIndex name r).or
    ((l.findIdx? fun c => strcmp c.lpszClassName name = 0).map (· + r.entries.length))
  := by
  rw [findClassIndex, hr', findIdx?_append]
  rfl

theorem registerClassA_of_none (h : findClassIndex c.lpszClassName r = none) :
  (registerClassA r (some c)).1 = r.entries.length + 1 ∧
    (register r (some c)).entries = r.entries ++ [c]
  := by
  have hentries : (ensureClassCapacity (r.entries.length + 1) r).entries = r.entries := by
    rw [ensureClassCapacity]
    split
    · rfl
    · rfl
  simp [register, registerClassA, h, hentries]

/-- The entries stay, and classes with which `RegisterClassA` is called come behind them. -/
theorem entries_foldl (r : ClassRegistry α) (calls : List (Option (WndClass α))) :
  ∃ l, (calls.foldl register r).entries = r.entries ++ l ∧ ∀ c ∈ l, some c ∈ calls
  := by
  induction calls generalizing r with
  | nil => exact ⟨[], by simp⟩
  | cons call calls ih =>
    obtain ⟨l, hl, hcalled⟩ := ih (register r call)
    have hrest (c : WndClass α) (hc : c ∈ l) : some c ∈ call :: calls :=
      mem_cons_of_mem _ (hcalled c hc)
    rw [foldl_cons, hl]
    cases call with
    | none => exact ⟨l, rfl, hrest⟩
    | some c =>
      cases h : findClassIndex c.lpszClassName r with
      | none =>
        use c :: l
        rw [(registerClassA_of_none h).2, append_assoc, forall_mem_cons]
        exact ⟨rfl, mem_cons_self, hrest⟩
      | some i =>
        use l
        rw [register, registerClassA, h]
        exact ⟨rfl, hrest⟩

/-- The class `c` is what is found for its name, with the index `i`. -/
def Holds (r : ClassRegistry α) (c : WndClass α) (i : ℕ) : Prop :=
  findClassIndex c.lpszClassName r = some i ∧ r.entries[i]? = some c

theorem Holds.run (h : Holds r c i) (calls : List (Option (WndClass α))) :
  Holds (calls.foldl register r) c i
  := by
  obtain ⟨l, hl, -⟩ := entries_foldl r calls
  rw [Holds, findClassIndex_append hl, h.1, hl,
    getElem?_append_left (List.getElem?_eq_some_iff.mp h.2).1]
  exact ⟨rfl, h.2⟩

theorem holds_register (h : findClassIndex c.lpszClassName r = none) :
  Holds (register r (some c)) c r.entries.length
  := by
  obtain ⟨-, hentries⟩ := registerClassA_of_none h
  rw [Holds, findClassIndex_append hentries, h, hentries]
  simp [findIdx?_cons]

/-- The class `c` is registered after the calls `before`, of which none has its name. -/
structure FirstCall (calls before : List (Option (WndClass α))) (c : WndClass α) : Prop where
  called : before ++ [some c] <+: calls
  first : ∀ d, some d ∈ before → d.lpszClassName ≠ c.lpszClassName

theorem findClassIndex_of_not_called (h : ∀ d, some d ∈ calls → d.lpszClassName ≠ name) :
  findClassIndex name (registered calls) = none
  := by
  obtain ⟨l, hl, hcalled⟩ := entries_foldl {} calls
  simp only [findClassIndex, registered, hl, nil_append, findIdx?_eq_none_iff]
  intro d hd
  simpa using h d (hcalled d hd)

theorem FirstCall.holds (h : FirstCall calls before c) :
  Holds (registered calls) c (registered before).entries.length ∧
    (registerClassA (registered before) (some c)).1 = (registered before).entries.length + 1
  := by
  have hnone := findClassIndex_of_not_called h.first
  refine ⟨?_, (registerClassA_of_none hnone).1⟩
  obtain ⟨after, rfl⟩ := h.called
  rw [registered, foldl_append, foldl_append]
  apply (holds_register hnone).run after

/-- The first call with a name gives the name an atom of its own, which is found, with its class, by
the name, and returned for it from then on. -/
theorem classes_ok (calls : List (Option (WndClass α))) :
  (∀ before c, FirstCall calls before c → ∃ a ≠ 0,
      (registerClassA (registered before) (some c)).1 = a ∧
      findRegisteredClass c.lpszClassName (registered calls) = some (c, a) ∧
      (∀ d : WndClass α, d.lpszClassName = c.lpszClassName →
        registerClassA (registered calls) (some d) = (a, registered calls)) ∧
      ∀ before' d, FirstCall calls before' d → d.lpszClassName ≠ c.lpszClassName →
        (registerClassA (registered before') (some d)).1 ≠ a) ∧
    ∀ name, (∀ c, some c ∈ calls → c.lpszClassName ≠ name) →
      findRegisteredClass name (registered calls) = none
  := by
  constructor
  · intro before c h
    obtain ⟨⟨hfind, hget⟩, hatom⟩ := h.holds
    refine ⟨_, Nat.succ_ne_zero _, hatom, ?_, ?_, ?_⟩
    · simp [findRegisteredClass, hfind, hget]
    · intro d hd
      simp [registerClassA, hd, hfind]
    · intro before' d h' hne heq
      obtain ⟨⟨-, hget'⟩, hatom'⟩ := h'.holds
      -- The two classes would be the same entry.
      rw [hatom', Nat.add_right_cancel_iff] at heq
      rw [heq, hget, Option.some.injEq] at hget'
      exact hne (congrArg _ hget'.symm)
  · intro name hname
    rw [findRegisteredClass, findClassIndex_of_not_called hname]

end

/-- `"a"` is registered, then `"b"`, then `"a"` again with other fields, then `"c"`. -/
def fourCalls : List (Option (WndClass ℕ)) :=
  [some ⟨1, .ofString "a"⟩, some ⟨2, .ofString "b"⟩, some ⟨3, .ofString "a"⟩, some ⟨4, .ofString "c"⟩]

theorem classes_ok_fourCalls :
  let c : WndClass ℕ := ⟨4, .ofString "c"⟩
  FirstCall fourCalls (fourCalls.take 3) c ∧
    ∃ a ≠ 0, findRegisteredClass (.ofString "c") (registered fourCalls) = some (c, a) ∧
      registerClassA (registered fourCalls) (some ⟨5, .ofString "c"⟩) = (a, registered fourCalls)
  := by
  intro c
  have hfirst : FirstCall fourCalls (fourCalls.take 3) c :=
    ⟨prefix_rfl, by simp [fourCalls, c]; decide⟩
  use hfirst
  obtain ⟨a, ha, -, hfind, hagain, -⟩ := (classes_ok fourCalls).1 _ c hfirst
  exact ⟨a, ha, hfind, hagain ⟨5, .ofString "c"⟩ rfl⟩

end User32
