import Mathlib.Data.List.Basic

/-!
# Runs of a machine

A machine is a function `step : σ → ι → σ`, where `step s op` is the state after the
operation `op` in the state `s`.  The run of `ops` from `s` is `ops.foldl step s`.
`Along step P s ops` says that every operation of the run satisfies `P` in the state it is
applied to.  An invariant kept by the operations that satisfy `P` holds at the end of every run
along which `P` holds (`Along.invariant`), and at every state in between, because `Along` passes
to the parts of a run (`along_append`).
-/

namespace Run

variable {σ ι : Type*} {step : σ → ι → σ} {P Q : σ → ι → Prop}

/-- Every operation of `ops` satisfies `P` in the state left by the operations before it. -/
def Along (step : σ → ι → σ) (P : σ → ι → Prop) : σ → List ι → Prop
  | _, [] => True
  | s, op :: ops => P s op ∧ Along step P (step s op) ops

instance Along.decidable [∀ s op, Decidable (P s op)] :
    ∀ (s : σ) (ops : List ι), Decidable (Along step P s ops)
  | _, [] => inferInstanceAs (Decidable True)
  | s, op :: ops =>
      haveI := Along.decidable (step s op) ops
      inferInstanceAs (Decidable (P s op ∧ Along step P (step s op) ops))

@[simp]
theorem along_nil (s : σ) :
  Along step P s []
  := trivial

@[simp]
theorem along_cons (s : σ) (op : ι) (ops : List ι) :
  Along step P s (op :: ops) ↔ P s op ∧ Along step P (step s op) ops
  := Iff.rfl

/-- `P` holds along `ops₁ ++ ops₂` when it holds along `ops₁` and along `ops₂` from the state
the first part leaves. -/
@[simp]
theorem along_append (s : σ) (ops₁ ops₂ : List ι) :
  Along step P s (ops₁ ++ ops₂) ↔ Along step P s ops₁ ∧ Along step P (ops₁.foldl step s) ops₂
  := by
  induction ops₁ generalizing s with
  | nil => simp
  | cons op ops₁ ih => simp [ih, and_assoc]

variable {ops : List ι} {s : σ}

/-- A condition that the operations of a run satisfy in every state holds along the run. -/
theorem along_of_forall_mem (h : ∀ s, ∀ op ∈ ops, P s op) (s : σ) :
  Along step P s ops
  := by
  induction ops generalizing s with
  | nil => trivial
  | cons op ops ih =>
    use h s op List.mem_cons_self
    apply ih
    intro s' op' hop'
    apply h s' op' (List.mem_cons_of_mem op hop')

theorem Along.and (hP : Along step P s ops) (hQ : Along step Q s ops) :
  Along step (fun s op => P s op ∧ Q s op) s ops
  := by
  induction ops generalizing s with
  | nil => trivial
  | cons op ops ih => exact ⟨⟨hP.1, hQ.1⟩, ih hP.2 hQ.2⟩

/-- A property of states kept by every operation that satisfies `P` holds at the end of a run
along which `P` holds. -/
theorem Along.invariant (h : Along step P s ops) (Inv : σ → Prop)
    (hstep : ∀ s op, Inv s → P s op → Inv (step s op)) (hs : Inv s) :
  Inv (ops.foldl step s)
  := by
  induction ops generalizing s with
  | nil => apply hs
  | cons op ops ih =>
    obtain ⟨hop, hops⟩ := h
    apply ih hops
    apply hstep s op hs hop

/-- A property of states kept by every operation that satisfies `P` may be used along a run along
which `P` holds. -/
theorem Along.imp_of_invariant (h : Along step P s ops) (Inv : σ → Prop)
    (hstep : ∀ s op, Inv s → P s op → Inv (step s op)) (himp : ∀ s op, Inv s → P s op → Q s op)
    (hs : Inv s) :
  Along step Q s ops
  := by
  induction ops generalizing s with
  | nil => trivial
  | cons op ops ih =>
    obtain ⟨hop, hops⟩ := h
    use himp s op hs hop
    apply ih hops
    apply hstep s op hs hop

/-- Along a run along which `R` holds, two conditions hold together when they agree in the states of
an invariant that the operations which satisfy one of them keep. -/
theorem Along.iff_of_invariant {R : σ → ι → Prop} (hR : Along step R s ops) (Inv : σ → Prop)
    (hstep : ∀ s op, Inv s → R s op → P s op → Inv (step s op))
    (hiff : ∀ s op, Inv s → R s op → (P s op ↔ Q s op)) (hs : Inv s) :
  Along step P s ops ↔ Along step Q s ops
  := by
  induction ops generalizing s with
  | nil => rfl
  | cons op ops ih =>
    obtain ⟨hop, hops⟩ := hR
    rw [along_cons, along_cons, ← hiff s op hs hop]
    apply and_congr_right
    intro hP
    apply ih hops (hstep s op hs hop hP)

/-- Two conditions that agree in the states of an invariant hold along the same runs, when the
operations that satisfy one of them keep the invariant. -/
theorem along_iff_of_invariant (Inv : σ → Prop) (hstep : ∀ s op, Inv s → P s op → Inv (step s op))
    (hiff : ∀ s op, Inv s → (P s op ↔ Q s op)) (hs : Inv s) (ops : List ι) :
  Along step P s ops ↔ Along step Q s ops
  := by
  have htrue : Along step (fun _ _ => True) s ops := along_of_forall_mem (fun _ _ _ => trivial) s
  apply htrue.iff_of_invariant Inv _ _ hs
  · intro s op hs _
    apply hstep s op hs
  · intro s op hs _
    apply hiff s op hs

end Run
