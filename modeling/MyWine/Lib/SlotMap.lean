import MyWine.Lib.Table

/-!
# Slot tables as finite maps

The slots of a table hold entries, and `key` is the key of an entry, or `none` if the slot is free.
`find` is the linear search for a key, and `lookup` reads the value of the slot it finds.  As long as
no key is in two slots (`Distinct`), overwriting the slot of a key or a free one changes the map at one
key (`lookup_update`), and clearing slots removes their keys (`lookup_clear`).
-/

namespace SlotMap

open Option Function

variable {n : ℕ} {α κ υ : Type*} [DecidableEq κ] (key : α → Option κ) (value : α → υ)

/-- The first slot with the key `k`. -/
def find (t : Fin n → α) (k : κ) : Option (Fin n) :=
  Table.firstSlot fun i => decide (key (t i) = some k)

/-- The value of the key `k`. -/
def lookup (t : Fin n → α) (k : κ) : Option υ := (find key t k).map fun i => value (t i)

/-- No key is in two slots. -/
def Distinct (t : Fin n → α) : Prop :=
  ∀ ⦃i j k⦄, key (t i) = some k → key (t j) = some k → i = j

variable {key value} {t : Fin n → α}

variable {i : Fin n} {k : κ}

theorem key_of_find (h : find key t k = some i) :
  key (t i) = some k
  := of_decide_eq_true (Table.firstSlot_eq_some_iff.mp h).1

theorem find_eq_none_iff :
  find key t k = none ↔ ∀ i, key (t i) ≠ some k
  := by
  rw [find, Table.firstSlot_eq_none_iff]
  simp

theorem Distinct.find_eq_some_iff (h : Distinct key t) :
  find key t k = some i ↔ key (t i) = some k
  := by
  constructor
  · apply key_of_find
  · intro hi
    cases hfind : find key t k with
    | none => exact absurd hi (find_eq_none_iff.mp hfind i)
    | some j => rw [h (key_of_find hfind) hi]

theorem Distinct.lookup_eq_some_iff {x : υ} (h : Distinct key t) :
  lookup key value t k = some x ↔ ∃ i, key (t i) = some k ∧ value (t i) = x
  := by
  simp [lookup, h.find_eq_some_iff]

theorem lookup_eq_none_iff :
  lookup key value t k = none ↔ ∀ i, key (t i) ≠ some k
  := by
  rw [lookup, map_eq_none_iff, find_eq_none_iff]

/-- The slot `i` is the one of the key `k`, or it is free and there is none. -/
def Takes (key : α → Option κ) (t : Fin n → α) (i : Fin n) (k : κ) : Prop :=
  key (t i) = some k ∨ key (t i) = none ∧ find key t k = none

/-- A slot that takes the key `k` is the only one that may have it. -/
theorem Distinct.eq_of_takes {j : Fin n} (h : Distinct key t) (hi : Takes key t i k)
    (hj : key (t j) = some k) :
  j = i
  := by
  rcases hi with hi | ⟨-, hnone⟩
  · exact h hj hi
  · exact absurd hj (find_eq_none_iff.mp hnone j)

omit [DecidableEq κ] in
theorem key_update_iff {v : α} {j : Fin n} {k' : κ} (hv : key v = some k) :
  key (update t i v j) = some k' ↔ if j = i then k = k' else key (t j) = some k'
  := by
  rw [update_apply]
  split_ifs
  · rw [hv, some.injEq]
  · rfl

theorem Distinct.update {v : α} (h : Distinct key t) (hi : Takes key t i k) (hv : key v = some k) :
  Distinct key (update t i v)
  := by
  intro j j' k' hj hj'
  rw [key_update_iff hv] at hj hj'
  split_ifs at hj hj' with hji hji' hji'
  · rw [hji, hji']
  · subst hj
    exact absurd (h.eq_of_takes hi hj') hji'
  · subst hj'
    exact absurd (h.eq_of_takes hi hj) hji
  · exact h hj hj'

/-- An entry for `k` in a slot that takes `k` sets the value of `k`. -/
theorem Distinct.lookup_update {v : α} (h : Distinct key t) (hi : Takes key t i k)
    (hv : key v = some k) (k' : κ) :
  lookup key value (Function.update t i v) k'
    = if k' = k then some (value v) else lookup key value t k'
  := by
  split
  case isTrue heq =>
    apply (h.update hi hv).lookup_eq_some_iff.mpr
    use i
    rw [update_self, heq]
    exact ⟨hv, rfl⟩
  case isFalse hne =>
    apply Option.ext
    intro x
    rw [(h.update hi hv).lookup_eq_some_iff, h.lookup_eq_some_iff]
    apply exists_congr
    intro j
    rw [key_update_iff hv]
    -- the slot of another key is not `i`, neither before nor after
    rcases eq_or_ne j i with rfl | hji
    · rw [if_pos rfl]
      apply iff_of_false
      · rintro ⟨rfl, -⟩
        exact hne rfl
      · rintro ⟨hj, -⟩
        rcases hi with hi | ⟨hfree, -⟩
        · rw [hj, some.injEq] at hi
          exact hne hi
        · rw [hj] at hfree
          cases hfree
    · rw [if_neg hji, update_of_ne hji]

variable {p : α → Bool} {e : α}

omit [DecidableEq κ] in
theorem key_clear_iff (he : key e = none) :
  key (if p (t i) then e else t i) = some k ↔ p (t i) = false ∧ key (t i) = some k
  := by
  cases hp : p (t i) with
  | true => simp [he]
  | false => simp

omit [DecidableEq κ] in
theorem Distinct.clear (h : Distinct key t) (he : key e = none) :
  Distinct key fun i => if p (t i) then e else t i
  := by
  intro i j k hi hj
  rw [key_clear_iff he] at hi hj
  exact h hi.2 hj.2

/-- Clearing the slots whose key satisfies `P` removes these keys. -/
theorem Distinct.lookup_clear
    {P : κ → Prop} [DecidablePred P] (h : Distinct key t) (he : key e = none)
    (hp : ∀ i k, key (t i) = some k → (p (t i) = true ↔ P k)) (k : κ) :
  lookup key value (fun i => if p (t i) then e else t i) k
    = if P k then none else lookup key value t k
  := by
  split
  case isTrue hk =>
    apply lookup_eq_none_iff.mpr
    intro i hi
    obtain ⟨hfalse, hkey⟩ := (key_clear_iff he).mp hi
    rw [(hp i k hkey).mpr hk] at hfalse
    cases hfalse
  case isFalse hk =>
    apply Option.ext
    intro x
    rw [(h.clear he).lookup_eq_some_iff, h.lookup_eq_some_iff]
    apply exists_congr
    intro i
    rw [key_clear_iff he]
    constructor
    · rintro ⟨⟨hfalse, hkey⟩, hx⟩
      rw [hfalse] at hx
      exact ⟨hkey, hx⟩
    · rintro ⟨hkey, hx⟩
      have hfalse : p (t i) = false := by
        rw [Bool.eq_false_iff]
        intro htrue
        exact hk ((hp i k hkey).mp htrue)
      rw [hfalse]
      exact ⟨⟨rfl, hkey⟩, hx⟩

end SlotMap
