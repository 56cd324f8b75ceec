import Mathlib.Data.List.Basic
import Mathlib.Data.Nat.ModEq

/-!
# Ring buffers

A `RingBuffer α n` keeps a queue of at most `n` elements in `n` slots.  The queue begins at the slot
`head` and goes on at the first slot when it reaches the last one.  Its elements are a list (`toList`),
and the operations are what one expects on that list: `push` appends an element, `take` erases the one
in a slot and closes the gap, `keep` filters, and `takeFirst` erases the first element with a
property.
-/

/-- The `count` elements of a queue, in slots from `head` on.  The sum of `head` and a place in the queue
is less than `2 * n`, which in a program has to fit in the integers that hold them. -/
structure RingBuffer (α : Type*) (n : ℕ) where
  slots : ℕ → α
  head : ℕ
  head_lt : head < n
  count : ℕ
  count_le : count ≤ n

namespace RingBuffer

open Function List Option

variable {α : Type*} {n : ℕ}

/-- The slot of the element `k`. -/
def index (q : RingBuffer α n) (k : ℕ) : ℕ := (q.head + k) % n

/-- The element `k`. -/
def entry (q : RingBuffer α n) (k : ℕ) : α := q.slots (q.index k)

/-- The elements of the queue. -/
def toList (q : RingBuffer α n) : List α := (List.range q.count).map q.entry

/-- The queue with another element at its end, if there is room for it. -/
def push (q : RingBuffer α n) (a : α) : Option (RingBuffer α n) :=
  if h : q.count < n then
    some
      { slots := update q.slots (q.index q.count) a
        head := q.head
        head_lt := q.head_lt
        count := q.count + 1
        count_le := h }
  else none

/-- The slot of the first element with the property `p`. -/
def find (p : α → Bool) (q : RingBuffer α n) : Option ℕ :=
  ((List.range q.count).find? fun k => p (q.entry k)).map q.index

/-- Each slot from `i` to the one before `last` gets the element of the next one. -/
def shift (n last : ℕ) : ℕ → (ℕ → α) → ℕ → ℕ → α
  | 0, slots, _ => slots
  | fuel + 1, slots, i =>
    if i = last then slots
    else shift n last fuel (update slots i (slots ((i + 1) % n))) ((i + 1) % n)

/-- The queue without the element in the slot `i`. -/
def take (q : RingBuffer α n) (i : ℕ) : RingBuffer α n where
  slots := shift n ((q.head + q.count - 1) % n) n q.slots i
  head := q.head
  head_lt := q.head_lt
  count := q.count - 1
  count_le := (Nat.sub_le q.count 1).trans q.count_le

/-- One round of `keep`: the element `i` is written behind the `w` elements kept so far, if it has
the property. -/
def keepRound (p : α → Bool) (q : RingBuffer α n) (s : (ℕ → α) × ℕ) (i : ℕ) : (ℕ → α) × ℕ :=
  let a := s.1 (q.index i)
  if p a then (update s.1 (q.index s.2) a, s.2 + 1) else s

theorem keepRounds_count_le (p : α → Bool) (q : RingBuffer α n) (m : ℕ) :
  ((List.range m).foldl (keepRound p q) (q.slots, 0)).2 ≤ m
  := by
  induction m with
  | zero => exact le_refl 0
  | succ m ih =>
    rw [range_succ, foldl_append, foldl_cons, foldl_nil, keepRound]
    split_ifs
    · apply Nat.succ_le_succ ih
    · apply Nat.le_succ_of_le ih

/-- The elements with the property `p`, moved together. -/
def keep (p : α → Bool) (q : RingBuffer α n) : RingBuffer α n :=
  let s := (List.range q.count).foldl (keepRound p q) (q.slots, 0)
  { slots := s.1
    head := q.head
    head_lt := q.head_lt
    count := s.2
    count_le := (keepRounds_count_le p q q.count).trans q.count_le }

/-! ### The operations on the elements -/

variable {q : RingBuffer α n} {p : α → Bool}

@[simp]
theorem length_toList (q : RingBuffer α n) :
  q.toList.length = q.count
  := by
  rw [toList, length_map, length_range]

/-- Different elements are in different slots. -/
theorem index_ne {k k' : ℕ} (hk : k < n) (hk' : k' < n) (hne : k ≠ k') :
  q.index k ≠ q.index k'
  := by
  intro h
  have hmod : k ≡ k' [MOD n] := Nat.ModEq.add_left_cancel' q.head h
  rw [Nat.ModEq, Nat.mod_eq_of_lt hk, Nat.mod_eq_of_lt hk'] at hmod
  exact hne hmod

theorem index_succ (q : RingBuffer α n) (k : ℕ) :
  (q.index k + 1) % n = q.index (k + 1)
  := by
  rw [index, index, Nat.mod_add_mod, Nat.add_assoc]

variable {a : α} {q' : RingBuffer α n}

theorem toList_push (h : q.push a = some q') :
  q'.toList = q.toList ++ [a]
  := by
  rw [push] at h
  split_ifs at h with hlt
  cases h
  simp only [toList, range_succ, map_append, map_cons, map_nil]
  congr 1
  · apply map_congr_left
    intro k hk
    rw [mem_range] at hk
    apply update_of_ne (index_ne (by omega) hlt (by omega))
  · simp [entry, index]

/-- There is room for an element exactly when there are less than `n`. -/
theorem push_eq_none_iff :
  q.push a = none ↔ n ≤ q.count
  := by
  rw [push]
  split_ifs with h
  · simp only [false_iff, not_le]
    exact h
  · exact iff_of_true rfl (by omega)

theorem count_of_push (h : q.push a = some q') :
  q.count < n ∧ q'.count = q.count + 1
  := by
  rw [push] at h
  split_ifs at h with hlt
  cases h
  exact ⟨hlt, rfl⟩

theorem find_eq_none_iff :
  q.find p = none ↔ q.toList.find? p = none
  := by
  rw [find, map_eq_none_iff, toList, List.find?_map, map_eq_none_iff]
  rfl

/-- The slot that is found is that of the first element with the property. -/
theorem find_eq_some {i : ℕ} (h : q.find p = some i) :
  ∃ k < q.count, i = q.index k ∧ q.toList.find? p = some (q.entry k) ∧
    q.toList.eraseP p = q.toList.eraseIdx k
  := by
  rw [find, map_eq_some_iff] at h
  obtain ⟨k, hk, rfl⟩ := h
  have hlt : k < q.count := mem_range.mp (mem_of_find?_eq_some hk)
  refine ⟨k, hlt, rfl, ?_, ?_⟩
  · rw [toList, List.find?_map]
    have hcomp : List.find? (p ∘ q.entry) (List.range q.count) = some k := hk
    rw [hcomp, map_some]
  · obtain ⟨hself, -, hbefore⟩ := List.find?_range_eq_some.mp hk
    have hfirst : q.toList.findIdx? p = some k := by
      rw [List.findIdx?_eq_some_iff_getElem]
      refine ⟨by rw [length_toList]; exact hlt, ?_, ?_⟩
      · simpa [toList] using hself
      · intro j hj
        simpa [toList] using hbefore j hj
    rw [eraseP_eq_eraseIdx, hfirst]

theorem getElem?_toList (q : RingBuffer α n) (k : ℕ) :
  q.toList[k]? = if k < q.count then some (q.entry k) else none
  := by
  rw [toList, List.getElem?_map]
  split_ifs with h
  · rw [List.getElem?_range h, map_some]
  · rw [List.getElem?_eq_none (by rw [length_range]; omega), map_none]

/-- The elements from `j` on are moved down by one. -/
theorem shift_index {last : ℕ} (hlast : last < n) {fuel m : ℕ} (hfuel : m < fuel) {slots : ℕ → α}
    {j : ℕ} (hj : j + m = last) {k : ℕ} (hk : k < n) :
  shift n (q.index last) fuel slots (q.index j) (q.index k) =
    if j ≤ k ∧ k < last then slots (q.index (k + 1)) else slots (q.index k)
  := by
  induction fuel generalizing m slots j with
  | zero => omega
  | succ fuel ih =>
    rw [shift]
    cases m with
    | zero =>
      obtain rfl : j = last := by omega
      rw [if_pos rfl, if_neg (by omega)]
    | succ m =>
      rw [if_neg (index_ne (by omega) hlast (by omega)), index_succ,
        @ih m (by omega) _ (j + 1) (by omega)]
      rcases eq_or_ne k j with rfl | hne
      · rw [if_neg (by omega), if_pos ⟨le_refl k, by omega⟩, update_self]
      · rw [update_of_ne (index_ne hk (by omega) hne)]
        split_ifs with h₁ h₂ h₂
        · rw [update_of_ne (index_ne (by omega) (by omega) (by omega))]
        · omega
        · omega
        · rfl

theorem toList_take {k : ℕ} (hk : k < q.count) :
  (q.take (q.index k)).toList = q.toList.eraseIdx k
  := by
  have hle := q.count_le
  have hlast : (q.head + q.count - 1) % n = q.index (q.count - 1) := by
    rw [index, Nat.add_sub_assoc (by omega)]
  apply ext_getElem?
  intro j
  have hcount : (q.take (q.index k)).count = q.count - 1 := rfl
  rw [List.getElem?_eraseIdx, getElem?_toList, getElem?_toList, getElem?_toList]
  by_cases hj : j < q.count - 1
  · have hentry : (q.take (q.index k)).entry j =
        if k ≤ j ∧ j < q.count - 1 then q.entry (j + 1) else q.entry j := by
      simp only [entry, take, hlast]
      apply @shift_index _ _ q _ (by omega) _ (q.count - 1 - k)
      · omega
      · omega
      · omega
    rw [if_pos (hcount ▸ hj), hentry]
    rcases lt_or_ge j k with hjk | hjk
    · rw [if_neg (by omega), if_pos hjk, if_pos (by omega)]
    · rw [if_pos ⟨hjk, hj⟩, if_neg (not_lt.mpr hjk), if_pos (by omega)]
  · rw [if_neg (hcount ▸ hj), if_neg (by omega), if_neg (by omega)]

/-- The rounds of `keep` before the round `m` have moved the elements before `m` with the property
together, and have not touched those from `m` on. -/
theorem keepRounds_spec (p : α → Bool) (q : RingBuffer α n) {m : ℕ} (hm : m ≤ q.count) :
  let s := (List.range m).foldl (keepRound p q) (q.slots, 0)
  (List.range s.2).map (fun k => s.1 (q.index k)) = ((List.range m).map q.entry).filter p ∧
    ∀ k, m ≤ k → k < n → s.1 (q.index k) = q.entry k
  := by
  have hle := q.count_le
  induction m with
  | zero => exact ⟨rfl, fun _ _ _ => rfl⟩
  | succ m ih =>
    obtain ⟨hkept, hrest⟩ := ih (by omega)
    have hcount := keepRounds_count_le p q m
    rw [range_succ, foldl_append, foldl_cons, foldl_nil, keepRound]
    generalize (List.range m).foldl (keepRound p q) (q.slots, 0) = s at hkept hrest hcount ⊢
    have hentry := hrest m (le_refl m) (by omega)
    simp only [hentry, map_append, map_cons, map_nil, filter_append,
      filter_cons, filter_nil]
    split_ifs with hp
    · constructor
      · simp only [range_succ, map_append, map_cons, map_nil,
          update_self, ← hkept]
        congr 1
        apply map_congr_left
        intro k hk
        rw [mem_range] at hk
        rw [update_of_ne (index_ne (by omega) (by omega) (by omega))]
      · intro k hmk hkn
        rw [← hrest k (by omega) hkn]
        apply update_of_ne (index_ne hkn (by omega) (by omega))
    · constructor
      · rw [hkept, append_nil]
      · intro k hmk
        apply hrest k (by omega)

theorem toList_keep (p : α → Bool) (q : RingBuffer α n) :
  (q.keep p).toList = q.toList.filter p
  := (keepRounds_spec p q (le_refl q.count)).1

/-! ### The first element with a property -/

/-- The first element with the property `p`, and the queue without it if `remove` is set. -/
def takeFirst (remove : Bool) (p : α → Bool) (q : RingBuffer α n) : Option (α × RingBuffer α n) :=
  (q.find p).map fun i => (q.slots i, if remove then q.take i else q)

theorem takeFirst_eq_none_iff {remove : Bool} :
  q.takeFirst remove p = none ↔ q.toList.find? p = none
  := by
  rw [takeFirst, map_eq_none_iff, find_eq_none_iff]

theorem takeFirst_eq_some {remove : Bool} (h : q.takeFirst remove p = some (a, q')) :
  q.toList.find? p = some a ∧ q'.toList = if remove then q.toList.eraseP p else q.toList
  := by
  rw [takeFirst, map_eq_some_iff] at h
  obtain ⟨i, hi, hpair⟩ := h
  obtain ⟨k, hk, rfl, hfind, herase⟩ := find_eq_some hi
  cases hpair
  use hfind
  split_ifs
  · rw [toList_take hk, herase]
  · rfl

end RingBuffer
