import Mathlib.Data.List.Induction
import Mathlib.Data.List.Sort

/-!
# The loops of insertion sort

`insertionSortLoop r n t` sorts the first `n` entries of the array `t`: each round shifts the
entries that do not precede its key up by one place and puts the key into the gap.  It leaves
`List.insertionSort` of those entries, and the others where they are
(`insertionSortLoop_append`), so that it is stable (`filter_insertionSort`).
-/

namespace List

variable {α : Type*} (r : α → α → Prop) [DecidableRel r]

/-- The inner loop, with the gap at the given index. -/
def insertLoop (key : α) : ℕ → List α → List α
  | 0, t => t.set 0 key
  | j + 1, t =>
    match t[j]? with
    | none => t
    | some e => if r e key then t.set (j + 1) key else insertLoop key j (t.set (j + 1) e)

def insertionRound (t : List α) (i : ℕ) : List α :=
  match t[i]? with
  | none => t
  | some key => insertLoop r key i t

/-- The outer loop, `for (i = 1; i < n; i++)`. -/
def insertionSortLoop (n : ℕ) (t : List α) : List α :=
  (range' 1 (n - 1)).foldl (insertionRound r) t

variable {r}

theorem insertionSort_concat [IsTrans α r] [Std.Total r] (l : List α) (key : α) :
  (l ++ [key]).insertionSort r = (l.insertionSort r).orderedInsert (fun a b => ¬r b a) key
  := by
  have hcomm (a : α) (t : List α) :
      (t.orderedInsert (fun a b => ¬r b a) key).orderedInsert r a =
        (t.orderedInsert r a).orderedInsert (fun a b => ¬r b a) key := by
    induction t with
    | nil => simp [orderedInsert]
    | cons b t ih =>
      have htrans : r a b → r b key → r a key := IsTrans.trans a b key
      have htrans' : r a key → r key b → r a b := IsTrans.trans a key b
      have htotal : r b key ∨ r key b := Std.Total.total b key
      simp only [orderedInsert_cons]
      grind
  induction l with
  | nil => rfl
  | cons a l ih => rw [cons_append, insertionSort_cons, ih, hcomm, insertionSort_cons]

theorem orderedInsert_concat {key e : α} (he : ¬r e key) (p : List α) :
  (p ++ [e]).orderedInsert (fun a b => ¬r b a) key =
    p.orderedInsert (fun a b => ¬r b a) key ++ [e]
  := by
  induction p with
  | nil => simp [orderedInsert, he]
  | cons a p ih =>
    simp only [cons_append, orderedInsert_cons, ih]
    split_ifs <;> rfl

theorem orderedInsert_of_forall {key : α} {p : List α} (hp : ∀ e ∈ p, r e key) :
  p.orderedInsert (fun a b => ¬r b a) key = p ++ [key]
  := by
  induction p with
  | nil => rfl
  | cons a p ih =>
    rw [forall_mem_cons] at hp
    rw [orderedInsert_cons, if_neg (not_not_intro hp.1), ih hp.2, cons_append]

theorem insertLoop_append [IsTrans α r] {p : List α} (hp : p.Pairwise r) (key x : α)
    (rest : List α) :
  insertLoop r key p.length (p ++ x :: rest) =
    p.orderedInsert (fun a b => ¬r b a) key ++ rest
  := by
  induction p using List.reverseRecOn generalizing x rest with
  | nil => simp [insertLoop]
  | append_singleton p e ih =>
    obtain ⟨hp, -, hlast⟩ := pairwise_append.mp hp
    simp only [length_append, length_singleton, append_assoc, singleton_append, insertLoop]
    simp only [getElem?_append_right (le_refl p.length), Nat.sub_self, getElem?_cons_zero]
    split_ifs with he
    · have hall : ∀ a ∈ p ++ [e], r a key := by
        simp only [mem_append, mem_singleton]
        rintro a (ha | rfl)
        · apply IsTrans.trans a e key (hlast a ha e (by simp)) he
        · exact he
      rw [orderedInsert_of_forall hall]
      simp
    · rw [orderedInsert_concat he]
      simp [ih hp]

theorem insertionSortLoop_append [IsTrans α r] [Std.Total r] (l rest : List α) :
  insertionSortLoop r l.length (l ++ rest) = l.insertionSort r ++ rest
  := by
  have hrounds (p s : List α) : (range' p.length s.length).foldl (insertionRound r)
      (p.insertionSort r ++ (s ++ rest)) = (p ++ s).insertionSort r ++ rest := by
    induction s generalizing p with
    | nil => simp
    | cons key s ih =>
      have hround : insertionRound r (p.insertionSort r ++ (key :: s ++ rest)) p.length =
          (p ++ [key]).insertionSort r ++ (s ++ rest) := by
        have hlength := length_insertionSort r p
        have hget : (p.insertionSort r ++ (key :: s ++ rest))[p.length]? = some key := by
          simp [hlength]
        rw [insertionRound, hget, insertionSort_concat, ← hlength]
        apply insertLoop_append (pairwise_insertionSort r p)
      have hnext := ih (p ++ [key])
      rw [length_append, length_singleton] at hnext
      rw [length_cons, range'_succ, foldl_cons, hround, hnext]
      simp
  cases l with
  | nil => rfl
  | cons a l => apply hrounds [a] l

/-- The entries of a class whose members precede each other keep their order. -/
theorem filter_insertionSort {p : α → Bool} (hp : ∀ a b, p a → p b → r a b) (l : List α) :
  (l.insertionSort r).filter p = l.filter p
  := by
  have hpairs : (l.filter p).Pairwise r := by
    apply pairwise_of_forall_mem_list
    intro a ha b hb
    apply hp a b (mem_filter.mp ha).2 (mem_filter.mp hb).2
  have hsub := (sublist_insertionSort hpairs filter_sublist).filter p
  rw [filter_filter] at hsub
  simp only [Bool.and_self] at hsub
  symm
  apply hsub.eq_of_length
  apply ((perm_insertionSort r l).filter p).length_eq.symm

end List
