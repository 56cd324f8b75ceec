import Mathlib.Data.List.Chain
import Mathlib.Data.List.Nodup
import Mathlib.Logic.Function.Basic

/-!
# Circular doubly linked lists

`Links α` are the two pointers of each node of a type `α` of nodes, either of which may be `NULL`.
`L.Ring head l` says that following the pointers from the node `head` one comes through the nodes of
`l`, in this order, back to `head`, and that the backward pointers lead the other way.  Insertion at
the tail and removal of a node keep rings (`Ring.insertTail`, `Ring.remove`), a node outside a ring
may be changed freely (`Ring.congr`), and a search along a ring finds what a search of the list
finds (`Ring.find_eq`).
-/

/-- The pointers of nodes to the next and to the previous node. -/
structure Links (α : Type*) where
  next : α → Option α
  prev : α → Option α

namespace Links

open Function List

variable {α : Type*}

/-- The nodes `x` and `y` point to each other. -/
def Linked (L : Links α) (x y : α) : Prop := L.next x = some y ∧ L.prev y = some x

/-- Following the pointers from `x` one comes through the nodes of `l` to `z`. -/
def Path (L : Links α) : α → List α → α → Prop
  | x, [], z => L.Linked x z
  | x, y :: l, z => L.Linked x y ∧ L.Path y l z

/-- Following the pointers from `head` one comes through the nodes of `l` back to `head`, and these
nodes are different. -/
structure Ring (L : Links α) (head : α) (l : List α) : Prop where
  nodup : (head :: l).Nodup
  path : L.Path head l head

/-! ### Paths -/

section

variable {L L' : Links α} {x y z : α} {l l' : List α}

theorem path_iff_isChain :
  L.Path x l z ↔ (x :: l ++ [z]).IsChain L.Linked
  := by
  induction l generalizing x with
  | nil => simp [Path]
  | cons y l ih => simp [Path, ih]

/-- The links between nodes depend on the forward pointers of all but the last, and on the backward
pointers of all but the first. -/
theorem isChain_congr (h : l.IsChain L.Linked) (hnext : ∀ w ∈ l.dropLast, L'.next w = L.next w)
    (hprev : ∀ w ∈ l.tail, L'.prev w = L.prev w) :
  l.IsChain L'.Linked
  := by
  rw [isChain_iff_forall_rel_of_append_cons_cons] at h ⊢
  rintro a b l₁ l₂ rfl
  rw [Linked, hnext a (by simp), hprev b (by cases l₁ <;> simp)]
  apply h rfl

end

/-! ### Operations -/

variable [DecidableEq α]

def setNext (L : Links α) (x : α) (y : Option α) : Links α :=
  { L with next := update L.next x y }

def setPrev (L : Links α) (x : α) (y : Option α) : Links α :=
  { L with prev := update L.prev x y }

/-- Both pointers of a node point to the node itself. -/
def loop (L : Links α) (x : α) : Links α := (L.setNext x (some x)).setPrev x (some x)

/-- Both pointers of a node are `NULL`. -/
def clear (L : Links α) (x : α) : Links α := (L.setNext x none).setPrev x none

/-- The node `x` is inserted before `head`. -/
def insertTail (L : Links α) (head x : α) : Links α :=
  let prev := L.prev head
  let L := (L.setNext x (some head)).setPrev x prev
  let L := match prev with
    | some p => L.setNext p (some x)
    | none => L
  L.setPrev head (some x)

/-- The node `x` is taken out of its list. -/
def remove (L : Links α) (x : α) : Links α :=
  let L := match L.prev x with
    | some p => L.setNext p (L.next x)
    | none => L
  let L := match L.next x with
    | some n => L.setPrev n (L.prev x)
    | none => L
  L.loop x

section

variable {L L' : Links α} {head x : α} {l : List α}

omit [DecidableEq α] in
/-- A ring depends only on its own nodes. -/
theorem Ring.congr (h : L.Ring head l)
    (hsame : ∀ w ∈ head :: l, L'.next w = L.next w ∧ L'.prev w = L.prev w) :
  L'.Ring head l
  := by
  use h.nodup
  rw [path_iff_isChain]
  apply isChain_congr (path_iff_isChain.mp h.path)
  · intro w hw
    rw [dropLast_concat] at hw
    apply (hsame w hw).1
  · intro w hw
    apply (hsame w _).2
    simpa [or_comm] using hw

theorem ring_loop (L : Links α) (head : α) :
  (L.loop head).Ring head []
  := by
  constructor
  · apply nodup_singleton
  · simp [Path, Linked, loop, setNext, setPrev]

/-- A node outside a ring may be made to point to itself. -/
theorem Ring.loop (h : L.Ring head l) (hx : x ∉ head :: l) :
  (L.loop x).Ring head l
  := by
  apply h.congr
  intro w hw
  have hne : w ≠ x := ne_of_mem_of_not_mem hw hx
  simp [Links.loop, setNext, setPrev, hne]

/-- The pointers of a node outside a ring may be set to `NULL`. -/
theorem Ring.clear (h : L.Ring head l) (hx : x ∉ head :: l) :
  (L.clear x).Ring head l
  := by
  apply h.congr
  intro w hw
  have hne : w ≠ x := ne_of_mem_of_not_mem hw hx
  simp [Links.clear, setNext, setPrev, hne]

/-- A node that is inserted before the head is the last of the list. -/
theorem Ring.insertTail (h : L.Ring head l) (hx : x ∉ head :: l) :
  (L.insertTail head x).Ring head (l ++ [x])
  := by
  obtain ⟨m, p, hm⟩ : ∃ m p, head :: l = m ++ [p] :=
    ⟨_, _, (dropLast_append_getLast (cons_ne_nil head l)).symm⟩
  have hchain := path_iff_isChain.mp h.path
  obtain ⟨hhead, -⟩ := nodup_cons.mp h.nodup
  have hnodup := h.nodup
  rw [hm, nodup_append] at hnodup
  rw [hm, append_assoc, singleton_append, isChain_append_cons_cons] at hchain
  obtain ⟨hchain, ⟨-, hprev⟩, -⟩ := hchain
  have hnext' : (L.insertTail head x).next = update (update L.next x (some head)) p (some x) := by
    simp only [Links.insertTail, hprev, setNext, setPrev]
  have hprev' : (L.insertTail head x).prev = update (update L.prev x (some p)) head (some x) := by
    simp only [Links.insertTail, hprev, setNext, setPrev]
  constructor
  · rw [← cons_append, nodup_append_comm, singleton_append, nodup_cons]
    exact ⟨hx, h.nodup⟩
  · rw [path_iff_isChain, ← cons_append, hm, append_assoc, append_assoc, singleton_append,
      singleton_append, isChain_append_cons_cons]
    refine ⟨isChain_congr hchain ?_ ?_, ?_, ?_⟩
    · intro w hw
      rw [dropLast_concat] at hw
      rw [hnext', update_of_ne (by grind), update_of_ne (by grind)]
    · rw [← hm, tail_cons]
      intro w hw
      rw [hprev', update_of_ne (by grind), update_of_ne (by grind)]
    · rw [Linked, hnext', hprev', update_self, update_of_ne (by grind), update_self]
      exact ⟨rfl, rfl⟩
    · rw [isChain_pair, Linked, hnext', hprev', update_of_ne (by grind), update_self, update_self]
      exact ⟨rfl, rfl⟩

/-- A node that is taken out of a ring is erased from the list. -/
theorem Ring.remove (h : L.Ring head l) (hx : x ∈ l) :
  (L.remove x).Ring head (l.erase x)
  := by
  obtain ⟨l₁, l₂, rfl⟩ := append_of_mem hx
  obtain ⟨m, p, hm⟩ : ∃ m p, head :: l₁ = m ++ [p] :=
    ⟨_, _, (dropLast_append_getLast (cons_ne_nil head l₁)).symm⟩
  obtain ⟨n, m', hm'⟩ : ∃ n m', l₂ ++ [head] = n :: m' := exists_cons_of_ne_nil (by simp)
  -- The nodes in the order of the ring, once with the head first and once with the head last.
  have hfirst : (m ++ p :: x :: l₂).Nodup := by
    have hnodup := h.nodup
    rwa [← cons_append, hm, append_assoc] at hnodup
  have hlast : (l₁ ++ x :: n :: m').Nodup := by
    have hnodup := h.nodup
    rw [← singleton_append, nodup_append_comm, append_assoc, cons_append, hm'] at hnodup
    exact hnodup
  have hchain := path_iff_isChain.mp h.path
  have hnodes : head :: (l₁ ++ x :: l₂) ++ [head] = m ++ p :: x :: n :: m' := by
    rw [← cons_append, append_assoc, hm, cons_append, hm', append_assoc, singleton_append]
  rw [hnodes, isChain_append_cons_cons, isChain_cons_cons] at hchain
  obtain ⟨hbefore, ⟨-, hprev⟩, ⟨hnext, -⟩, hafter⟩ := hchain
  simp only [nodup_append, nodup_cons, mem_cons] at hfirst hlast
  have hpx : x ≠ p := by grind
  have hnext' : (L.remove x).next = update (update L.next p (some n)) x (some x) := by
    simp only [Links.remove, hprev, setNext, hnext, update_of_ne hpx, setPrev, Links.loop]
  have hprev' : (L.remove x).prev = update (update L.prev n (some p)) x (some x) := by
    simp only [Links.remove, hprev, setNext, hnext, update_of_ne hpx, setPrev, Links.loop]
  have herase : (l₁ ++ x :: l₂).erase x = l₁ ++ l₂ := by
    rw [erase_append_right _ (by grind), erase_cons_head]
  rw [herase]
  constructor
  · apply Nodup.sublist _ h.nodup
    simp
  · have hnodes' : head :: (l₁ ++ l₂) ++ [head] = m ++ p :: n :: m' := by
      rw [← cons_append, append_assoc, hm, hm', append_assoc, singleton_append]
    rw [path_iff_isChain, hnodes', isChain_append_cons_cons]
    refine ⟨isChain_congr hbefore ?_ ?_, ?_, isChain_congr hafter ?_ ?_⟩
    · intro w hw
      rw [dropLast_concat] at hw
      rw [hnext', update_of_ne (by grind), update_of_ne (by grind)]
    · rw [← hm, tail_cons]
      intro w hw
      rw [hprev', update_of_ne (by grind), update_of_ne (by grind)]
    · rw [Linked, hnext', hprev', update_of_ne (by grind), update_self, update_of_ne (by grind),
        update_self]
      exact ⟨rfl, rfl⟩
    · rw [← hm', dropLast_concat]
      intro w hw
      rw [hnext', update_of_ne (by grind), update_of_ne (by grind)]
    · intro w hw
      rw [tail_cons] at hw
      rw [hprev', update_of_ne (by grind), update_of_ne (by grind)]

/-! ### Searching -/

/-! ### Searching -/

/-- The search from the node `cursor` on for a node with the property `p`, which ends at `head`.
There is no answer when the fuel runs out or a pointer is `NULL`. -/
def findFrom (L : Links α) (head : α) (p : α → Bool) : ℕ → α → Option (Option α)
  | 0, _ => none
  | fuel + 1, cursor =>
    if cursor = head then some none
    else if p cursor then some (some cursor)
    else (L.next cursor).bind (findFrom L head p fuel)

/-- The search from the first node of the list on. -/
def find (L : Links α) (head : α) (p : α → Bool) (fuel : ℕ) : Option (Option α) :=
  (L.next head).bind (L.findFrom head p fuel)

theorem Path.find_eq {p : α → Bool} {y : α} (h : L.Path y l head) (hl : head ∉ l) {fuel : ℕ}
    (hfuel : l.length < fuel) :
  (L.next y).bind (L.findFrom head p fuel) = some (l.find? p)
  := by
  induction l generalizing y fuel with
  | nil =>
    obtain ⟨fuel, rfl⟩ := Nat.exists_eq_succ_of_ne_zero (Nat.ne_of_gt hfuel)
    rw [h.1, Option.bind_some, findFrom, if_pos rfl]
    rfl
  | cons z l ih =>
    obtain ⟨fuel, rfl⟩ := Nat.exists_eq_succ_of_ne_zero (Nat.ne_of_gt (Nat.zero_lt_of_lt hfuel))
    rw [length_cons, Nat.succ_lt_succ_iff] at hfuel
    rw [mem_cons, not_or] at hl
    rw [h.1.1, Option.bind_some, findFrom, if_neg (Ne.symm hl.1)]
    cases hz : p z with
    | true => simp [List.find?_cons_of_pos hz]
    | false =>
      rw [if_neg Bool.false_ne_true, ih h.2 hl.2 hfuel, List.find?_cons_of_neg (by simp [hz])]

/-- A search along a ring finds what a search of the list finds. -/
theorem Ring.find_eq {p : α → Bool} (h : L.Ring head l) {fuel : ℕ} (hfuel : l.length < fuel) :
  L.find head p fuel = some (l.find? p)
  := by
  apply h.path.find_eq _ hfuel
  apply (nodup_cons.mp h.nodup).1

end

end Links
