import Mathlib.Algebra.BigOperators.Group.List.Basic
import Mathlib.Algebra.Group.Basic
import Mathlib.Data.List.DropRight
import Mathlib.Tactic.Abel

/-!
# Streams of time differences

The items of a stream carry the time since the item before, and some of them a message.  `timed` gives
the messages of a stream with the times at which they are due.  An encoder passes the messages on, again
with time differences, and has to keep the time of the items in between.  `encode` is one that forgets the
time it kept at some items, those that reset it.  The times of its output (`absolute`) are those of the
stream exactly when, at each message, what was forgotten since the message before adds up to zero
(`absolute_encode_iff`).
-/

namespace DeltaStream

open List Option

/-- An item of a stream: the time since the item before, the message if it has one, and whether an
encoder forgets the time it kept. -/
structure Item (τ μ : Type*) where
  delta : τ
  message : Option μ
  resets : Bool

variable {τ μ : Type*}

/-- An encoder keeps its time at the item. -/
def Item.keeps (x : Item τ μ) : Bool := !x.resets

/-- The items after the last message. -/
def gap (xs : List (Item τ μ)) : List (Item τ μ) := xs.rtakeWhile (·.message.isNone)

variable {x : Item τ μ}

theorem gap_concat_of_isSome {xs : List (Item τ μ)} (h : x.message.isSome) :
  gap (xs ++ [x]) = []
  := by
  apply rtakeWhile_concat_neg
  rwa [isNone_iff_eq_none, ← ne_eq, ne_none_iff_isSome]

theorem gap_concat_of_none {xs : List (Item τ μ)} (h : x.message = none) :
  gap (xs ++ [x]) = gap xs ++ [x]
  := by
  apply rtakeWhile_concat_pos
  rw [h, isNone_none]

variable [AddCommGroup τ]

/-- The messages of a stream that starts at the time `t`, with the times at which they are due. -/
def timed (t : τ) : List (Item τ μ) → List (τ × μ)
  | [] => []
  | x :: xs =>
    match x.message with
    | some m => (t + x.delta, m) :: timed (t + x.delta) xs
    | none => timed (t + x.delta) xs

/-- The times of messages that carry the time since the message before. -/
def absolute (t : τ) : List (τ × μ) → List (τ × μ)
  | [] => []
  | (delta, m) :: xs => (t + delta, m) :: absolute (t + delta) xs

/-- The messages of a stream, each with the time that was kept since the message before. -/
def encode (pending : τ) : List (Item τ μ) → List (τ × μ)
  | [] => []
  | x :: xs =>
    match x.message with
    | some m => (pending + x.delta, m) :: encode 0 xs
    | none => encode (if x.resets then 0 else pending + x.delta) xs

/-- The time that was forgotten since the last message: that of the items up to the last one that
resets it. -/
def dropped (xs : List (Item τ μ)) : τ := (((gap xs).rdropWhile Item.keeps).map Item.delta).sum

/-- The time that is kept since the last message. -/
def kept (xs : List (Item τ μ)) : τ := (((gap xs).rtakeWhile Item.keeps).map Item.delta).sum

/-! ### One more item -/

section

variable {xs : List (Item τ μ)} {x : Item τ μ}

theorem dropped_add_kept (xs : List (Item τ μ)) :
  dropped xs + kept xs = ((gap xs).map Item.delta).sum
  := by
  rw [dropped, kept, ← sum_append, ← map_append, rdropWhile_append_rtakeWhile]

theorem kept_concat_of_isSome (h : x.message.isSome) :
  dropped (xs ++ [x]) = 0 ∧ kept (xs ++ [x]) = 0
  := by
  rw [dropped, kept, gap_concat_of_isSome h]
  exact ⟨rfl, rfl⟩

theorem kept_concat_of_resets (h : x.message = none) (hx : x.resets) :
  dropped (xs ++ [x]) = dropped xs + kept xs + x.delta ∧ kept (xs ++ [x]) = 0
  := by
  have hneg : ¬ x.keeps = true := by
    rw [Item.keeps, hx]
    decide
  constructor
  · rw [dropped_add_kept, dropped, gap_concat_of_none h, rdropWhile_concat_neg Item.keeps _ _ hneg,
      map_append, sum_append, map_singleton, sum_singleton]
  · rw [kept, gap_concat_of_none h, rtakeWhile_concat_neg Item.keeps _ _ hneg, map_nil, sum_nil]

theorem kept_concat_of_keeps (h : x.message = none) (hx : x.resets = false) :
  dropped (xs ++ [x]) = dropped xs ∧ kept (xs ++ [x]) = kept xs + x.delta
  := by
  have hpos : x.keeps = true := by
    rw [Item.keeps, hx]
    decide
  constructor
  · rw [dropped, gap_concat_of_none h, rdropWhile_concat_pos Item.keeps _ _ hpos, ← dropped]
  · rw [kept, gap_concat_of_none h, rtakeWhile_concat_pos Item.keeps _ _ hpos, map_append,
      sum_append, map_singleton, sum_singleton, ← kept]

end

/-! ### The encoder -/

/-- At an item that resets it, the encoder starts afresh. -/
theorem encode_append (hmessage : x.message = none) (hresets : x.resets) (pending : τ)
    (xs ys : List (Item τ μ)) :
  encode pending (xs ++ x :: ys) = encode pending xs ++ encode 0 ys
  := by
  induction xs generalizing pending with
  | nil => simp [encode, hmessage, hresets]
  | cons y xs ih =>
    simp only [cons_append, encode]
    cases y.message with
    | some m => simp [ih]
    | none => apply ih

/-- Nothing that was forgotten is missing when a message comes. -/
def Lossless (xs : List (Item τ μ)) : Prop :=
  ∀ before x after, xs = before ++ x :: after → x.message.isSome → dropped before = 0

theorem absolute_encode_append_iff (t : τ) (before rest : List (Item τ μ)) :
  absolute t (encode (kept before) rest) = timed (t + dropped before + kept before) rest
    ↔ ∀ mid x after, rest = mid ++ x :: after → x.message.isSome → dropped (before ++ mid) = 0
  := by
  induction rest generalizing t before with
  | nil =>
    simp [encode, timed, absolute]
  | cons x rest ih =>
    -- the conditions on the messages after `x`
    have htail : (∀ mid y after, rest = mid ++ y :: after → y.message.isSome →
          dropped (before ++ [x] ++ mid) = 0) ∧ (x.message.isSome → dropped before = 0)
        ↔ ∀ mid y after, x :: rest = mid ++ y :: after → y.message.isSome →
          dropped (before ++ mid) = 0 := by
      simp only [cons_eq_append_iff]
      constructor
      · rintro ⟨htail, hhead⟩ _ y after (⟨rfl, heq⟩ | ⟨mid, rfl, heq⟩) hy
        · cases heq
          rw [append_nil]
          apply hhead hy
        · rw [append_cons]
          apply htail mid y after heq hy
      · intro h
        constructor
        · intro mid y after heq
          rw [append_assoc]
          apply h (x :: mid) y after (.inr ⟨mid, rfl, heq⟩)
        · rw [← append_nil before]
          apply h [] x rest (.inl ⟨rfl, rfl⟩)
    rw [← htail]
    cases hmessage : x.message with
    | some m =>
      have hsome : x.message.isSome := by rw [hmessage, isSome_some]
      obtain ⟨hdropped, hkept⟩ := @kept_concat_of_isSome _ _ _ before x hsome
      have hih := ih (t + (kept before + x.delta)) (before ++ [x])
      rw [hdropped, hkept, add_zero, add_zero] at hih
      simp only [encode, timed, absolute, hmessage, cons.injEq, Prod.mk.injEq, and_true,
        isSome_some, true_implies]
      have htime : t + (kept before + x.delta) = t + dropped before + kept before + x.delta
          ↔ dropped before = 0 := by
        have hsum : t + dropped before + kept before + x.delta =
            t + (kept before + x.delta) + dropped before := by abel
        rw [hsum, left_eq_add]
      rw [htime, and_comm, and_congr_left_iff]
      intro hzero
      rw [← hih, htime.mpr hzero]
    | none =>
      simp only [encode, timed, hmessage, isSome_none, Bool.false_eq_true, false_implies, and_true]
      cases hresets : x.resets with
      | true =>
        obtain ⟨hdropped, hkept⟩ := @kept_concat_of_resets _ _ _ before x hmessage hresets
        have hih := ih t (before ++ [x])
        rw [hdropped, hkept, add_zero, ← add_assoc, ← add_assoc] at hih
        apply hih
      | false =>
        obtain ⟨hdropped, hkept⟩ := @kept_concat_of_keeps _ _ _ before x hmessage hresets
        have hih := ih t (before ++ [x])
        rw [hdropped, hkept, ← add_assoc] at hih
        apply hih

/-- The times of the output are those of the stream exactly when nothing is missing. -/
theorem absolute_encode_iff (xs : List (Item τ μ)) :
  absolute 0 (encode 0 xs) = timed 0 xs ↔ Lossless xs
  := by
  have h := absolute_encode_append_iff (0 : τ) [] xs
  rwa [show dropped ([] : List (Item τ μ)) = 0 from rfl, show kept ([] : List (Item τ μ)) = 0 from rfl,
    add_zero, add_zero] at h

end DeltaStream
