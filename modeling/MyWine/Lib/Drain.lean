import Mathlib.Data.List.ReduceOption
import Mathlib.Data.List.Nodup
import Mathlib.Data.List.TakeWhile

/-!
# Draining a list

A list is drained by a sequence of calls.  A call passes over the elements that are gone by then and
returns the first that is still there, or nothing when the list is used up; `p a` tells whether `a` is
there at the time of a call `p`.

What is returned are elements of the list in its order (`reduceOption_results_sublist`), and after a call
that returned nothing there is nothing any more (`results_of_none`).  If elements do not come back, a call
does not pass over an element that is there unless it was returned before (`mem_results`).
-/

namespace Drain

open List

variable {α : Type*}

/-- What is left of the list after a call. -/
def rest (p : α → Bool) (l : List α) : List α := (l.dropWhile (!p ·)).tail

/-- The results of a sequence of calls. -/
def results : List α → List (α → Bool) → List (Option α)
  | _, [] => []
  | l, p :: ps => l.find? p :: results (rest p l) ps

/-- What is left of the list after a sequence of calls. -/
def left (l : List α) (ps : List (α → Bool)) : List α := ps.foldl (fun l p => rest p l) l

/-! ### One call -/

variable {l : List α} {p : α → Bool} {ps : List (α → Bool)}

theorem rest_of_find_none (h : l.find? p = none) :
  rest p l = []
  := by
  have hall : l.dropWhile (!p ·) = [] := by
    rw [dropWhile_eq_nil_iff]
    intro a ha
    rw [find?_eq_none] at h
    rw [Bool.not_eq_true', Bool.eq_false_iff]
    apply h a ha
  rw [rest, hall, tail_nil]

theorem rest_of_find_some {a : α} (h : l.find? p = some a) :
  p a = true ∧ ∃ passed, l = passed ++ a :: rest p l ∧ ∀ b ∈ passed, p b = false
  := by
  obtain ⟨ha, passed, after, rfl, hpassed⟩ := find?_eq_some_iff_append.mp h
  refine ⟨ha, passed, ?_, ?_⟩
  · congr 2
    have hdrop : (passed ++ a :: after).dropWhile (!p ·) = a :: after := by
      rw [dropWhile_append_of_pos hpassed, dropWhile_cons_of_neg]
      rw [ha]
      decide
    rw [rest, hdrop, tail_cons]
  · intro b hb
    apply (Bool.not_eq_true' _).mp (hpassed b hb)

theorem rest_sublist (p : α → Bool) (l : List α) :
  rest p l <+ l
  := by
  apply List.Sublist.trans (tail_sublist _)
  apply dropWhile_sublist

theorem results_cons (l : List α) (p : α → Bool) (ps : List (α → Bool)) :
  results l (p :: ps) = l.find? p :: results (rest p l) ps
  := rfl

/-- An element that is gone may as well be missing. -/
theorem results_cons_of_gone {a : α} (h : ∀ p ∈ ps, p a = false) :
  results (a :: l) ps = results l ps
  := by
  cases ps with
  | nil => rfl
  | cons p ps =>
    have ha := h p mem_cons_self
    have hrest : rest p (a :: l) = rest p l := by
      rw [rest, dropWhile_cons_of_pos, rest]
      rw [ha]
      decide
    rw [results_cons, results_cons, hrest, find?_cons_of_neg]
    rw [ha]
    decide

/-! ### Sequences of calls -/

theorem length_results (l : List α) (ps : List (α → Bool)) :
  (results l ps).length = ps.length
  := by
  induction ps generalizing l with
  | nil => rfl
  | cons p ps ih => rw [results_cons, length_cons, length_cons, ih]

theorem results_append (l : List α) (ps qs : List (α → Bool)) :
  results l (ps ++ qs) = results l ps ++ results (left l ps) qs
  := by
  induction ps generalizing l with
  | nil => rfl
  | cons p ps ih =>
    rw [cons_append, results_cons, ih, results_cons, cons_append]
    rfl

/-- What is returned is in the list, in its order. -/
theorem reduceOption_results_sublist (l : List α) (ps : List (α → Bool)) :
  (results l ps).reduceOption <+ l
  := by
  induction ps generalizing l with
  | nil => apply nil_sublist
  | cons p ps ih =>
    rw [results_cons]
    cases h : l.find? p with
    | none =>
      rw [reduceOption_cons_of_none]
      apply (ih _).trans (rest_sublist p l)
    | some a =>
      obtain ⟨-, passed, heq, -⟩ := rest_of_find_some h
      rw [reduceOption_cons_of_some, heq]
      apply List.Sublist.trans _ (sublist_append_right _ _)
      apply List.Sublist.cons_cons
      rw [← heq]
      apply ih

theorem results_nil (ps : List (α → Bool)) :
  ∀ r ∈ results ([] : List α) ps, r = none
  := by
  induction ps with
  | nil =>
    intro r hr
    cases hr
  | cons p ps ih =>
    intro r hr
    rw [results_cons, mem_cons] at hr
    rcases hr with rfl | hr
    · rfl
    · apply ih r hr

/-- After a call that returned nothing, nothing is returned. -/
theorem results_of_none {before after : List (Option α)}
    (h : results l ps = before ++ none :: after) :
  ∀ r ∈ after, r = none
  := by
  induction ps generalizing l before with
  | nil => apply absurd h.symm (append_ne_nil_of_right_ne_nil _ (cons_ne_nil _ _))
  | cons p ps ih =>
    rw [results_cons, cons_eq_append_iff] at h
    rcases h with ⟨-, h⟩ | ⟨before, -, h⟩
    · rw [cons.injEq] at h
      rw [h.2, rest_of_find_none h.1.symm]
      apply results_nil
    · apply ih h

/-- With more calls than elements, one returns nothing. -/
theorem none_mem_results (h : l.length < ps.length) :
  none ∈ results l ps
  := by
  by_contra hnone
  have hlength : (results l ps).reduceOption.length = (results l ps).length := by
    rw [reduceOption_length_eq_iff]
    intro r hr
    rw [Option.isSome_iff_ne_none]
    rintro rfl
    apply hnone hr
  have hle := (reduceOption_results_sublist l ps).length_le
  rw [hlength, length_results] at hle
  omega

/-! ### Elements that do not come back -/

theorem mem_of_pair_sublist {a b : α} {after : List α} (hnodup : (l ++ b :: after).Nodup)
    (h : [a, b] <+ l ++ b :: after) :
  a ∈ l
  := by
  have hb : b ∉ after := (nodup_cons.mp hnodup.of_append_right).1
  obtain ⟨l₁, l₂, heq, h₁, h₂⟩ := sublist_append_iff.mp h
  cases l₁ with
  | cons c l₁ =>
    rw [cons_append, cons.injEq] at heq
    rw [heq.1]
    apply h₁.subset mem_cons_self
  | nil =>
    rw [nil_append] at heq
    rw [← heq] at h₂
    rcases sublist_cons_iff.mp h₂ with h₂ | ⟨l₃, hl₃, h₂⟩
    · apply absurd _ hb
      apply h₂.subset
      apply mem_cons_of_mem _ mem_cons_self
    · rw [cons.injEq] at hl₃
      apply absurd _ hb
      apply h₂.subset
      rw [← hl₃.2]
      apply mem_cons_self

theorem pair_sublist_of_mem {a b : α} {after : List α} (hnodup : (l ++ after).Nodup)
    (ha : a ∈ after) (h : [a, b] <+ l ++ after) :
  [a, b] <+ after
  := by
  obtain ⟨l₁, l₂, heq, h₁, h₂⟩ := sublist_append_iff.mp h
  cases l₁ with
  | nil =>
    rw [heq]
    apply h₂
  | cons c l₁ =>
    rw [cons_append, cons.injEq] at heq
    have hmem : a ∈ l := by
      rw [heq.1]
      apply h₁.subset mem_cons_self
    apply absurd ha
    apply (nodup_append'.mp hnodup).2.2 hmem

/-- A call does not pass over an element that is there, unless it was returned before. -/
theorem mem_results {a : α} (hnodup : l.Nodup) (hgone : ∀ q ∈ ps, p a → q a) (ha : a ∈ l) (hp : p a)
    (hpassed : ∀ b, (left l ps).find? p = some b → [a, b] <+ l) :
  some a ∈ results l ps
  := by
  induction ps generalizing l with
  | nil =>
    exfalso
    cases h : l.find? p with
    | none =>
      rw [find?_eq_none] at h
      apply h a ha hp
    | some b =>
      obtain ⟨hb, passed, heq, hfalse⟩ := rest_of_find_some h
      have hpair := hpassed b h
      rw [heq] at hpair hnodup
      have hmem := mem_of_pair_sublist hnodup hpair
      rw [hfalse a hmem] at hp
      cases hp
  | cons q ps ih =>
    have hq := hgone q mem_cons_self hp
    rw [results_cons, mem_cons]
    cases h : l.find? q with
    | none =>
      rw [find?_eq_none] at h
      apply absurd hq (h a ha)
    | some c =>
      obtain ⟨-, passed, heq, hfalse⟩ := rest_of_find_some h
      rw [heq, mem_append, mem_cons] at ha
      rcases ha with ha | rfl | ha
      · rw [hfalse a ha] at hq
        cases hq
      · left
        rfl
      · right
        rw [heq, append_cons] at hnodup
        apply ih hnodup.of_append_right
        · intro q' hq'
          apply hgone q' (mem_cons_of_mem _ hq')
        · apply ha
        · intro b hb
          have hpair := hpassed b hb
          rw [heq, append_cons] at hpair
          apply pair_sublist_of_mem hnodup ha hpair

end Drain
