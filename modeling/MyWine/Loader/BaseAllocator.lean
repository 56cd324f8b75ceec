import Mathlib.Data.Fintype.Basic
import Mathlib.Data.Fintype.Pi
import MyWine.Loader.DllLoader

/-!
# The allocator of DLL bases

`load_dll` takes the base of a DLL from `g_loader.dll_base_next` in several steps, which loads on
different threads may interleave: an atomic load and a compare-and-exchange reserve one page, the
image is mapped at the reserved base, and an atomic addition advances past the rest of the image.
`step` is one of these steps of one of the loads.

Between the reservation and the addition only the first page of an image is reserved.  As long as no
addition wraps around, the ranges of the images stay apart exactly when no load reserves a base while
another one still has to add the rest of an image of several pages (`ranges_apart_iff`).
-/

open Pe

namespace Loader

open Function Option

namespace BaseAllocator

/-! ### The steps of the loads -/

/-- Where a load is: before the loop or after a failed exchange, after the atomic load of
`dll_base_next`, after the reservation of a base, after the mapping, or after the addition.  A load
whose mapping failed gives up. -/
inductive Phase where
  | idle
  | loaded (expected : ℕ)
  | reserved (base : ℕ)
  | mapped (base : ℕ)
  | done (base : ℕ)
  | failed
  deriving DecidableEq

def Phase.base : Phase → Option ℕ
  | .reserved base | .mapped base | .done base => some base
  | _ => none

def Phase.Pending : Phase → Prop
  | .reserved _ | .mapped _ => True
  | _ => False

instance : DecidablePred Phase.Pending := fun p =>
  match p with
  | .reserved _ | .mapped _ => .isTrue trivial
  | .idle | .loaded _ | .done _ | .failed => .isFalse id

/-- `g_loader.dll_base_next` and the loads. -/
structure State (ι : Type*) where
  next : ℕ
  phase : ι → Phase

/-- A step of one of the loads.  The kernel decides whether a mapping succeeds. -/
inductive Op (ι : Type*) where
  | load (i : ι)
  | cas (i : ι)
  | map (i : ι) (ok : Bool)
  | advance (i : ι)

section

variable {ι : Type*} [DecidableEq ι]

def State.set (s : State ι) (i : ι) (p : Phase) : State ι :=
  { s with phase := update s.phase i p }

variable (b : Build) (size : ι → ℕ)

def dllSize (i : ι) : ℕ := pageRoundUp (size i) % 2 ^ 32

def step (s : State ι) : Op ι → State ι
  | .load i =>
    match s.phase i with
    | .idle => s.set i (.loaded s.next)
    | _ => s
  | .cas i =>
    match s.phase i with
    | .loaded expected =>
      let rounded := b.wrap (pageRoundUp expected)
      let desired := b.wrap (rounded + pageSize)
      if s.next = expected then { s.set i (.reserved rounded) with next := desired }
      else s.set i .idle
    | _ => s
  | .map i ok =>
    match s.phase i with
    | .reserved base => s.set i (if ok then .mapped base else .failed)
    | _ => s
  | .advance i =>
    match s.phase i with
    | .mapped base =>
      { s.set i (.done base) with
        next := if pageSize < dllSize size i then b.wrap (s.next + (dllSize size i - pageSize))
          else s.next }
    | _ => s

def start (next : ℕ) : State ι := ⟨next, fun _ => .idle⟩

/-! ### The ranges of the images -/

def range (s : State ι) (i : ι) : Option Region :=
  (s.phase i).base.map fun base => ⟨base, pageRoundUp (size i)⟩

def RangesApart (s : State ι) : Prop :=
  ∀ i j, i ≠ j → ∀ r ∈ range size s i, ∀ r' ∈ range size s j, r.Apart r'

def Open (s : State ι) (i : ι) : Prop := (s.phase i).Pending ∧ pageSize < size i

def Reserves (s : State ι) (i : ι) : Prop := s.phase i = .loaded s.next

def Advances (s : State ι) (i : ι) : Prop := ∃ base, s.phase i = .mapped base

/-- No load reserves a base while another one has reserved only the first page of its image. -/
def NoneOpen (s : State ι) : Op ι → Prop
  | .cas i => Reserves s i → ∀ j, ¬ Open size s j
  | _ => True

def NoWrap (s : State ι) : Op ι → Prop
  | .cas i => Reserves s i → pageRoundUp s.next + pageSize < b.ptrLimit
  | .advance i =>
    Advances s i → pageRoundUp (size i) < 2 ^ 32 ∧
      s.next + (pageRoundUp (size i) - pageSize) < b.ptrLimit
  | _ => True

instance (s : State ι) (i : ι) : Decidable (Open size s i) :=
  inferInstanceAs (Decidable ((s.phase i).Pending ∧ pageSize < size i))

instance (s : State ι) (i : ι) : Decidable (Reserves s i) :=
  inferInstanceAs (Decidable (s.phase i = .loaded s.next))

instance (s : State ι) (i : ι) : Decidable (Advances s i) :=
  match h : s.phase i with
  | .mapped base => .isTrue ⟨base, h⟩
  | .idle | .loaded _ | .reserved _ | .done _ | .failed =>
    .isFalse fun ⟨_, hbase⟩ => by cases h.symm.trans hbase

instance [Fintype ι] (s : State ι) (op : Op ι) : Decidable (NoneOpen size s op) :=
  match op with
  | .cas i => inferInstanceAs (Decidable (Reserves s i → ∀ j, ¬ Open size s j))
  | .load _ | .map _ _ | .advance _ => inferInstanceAs (Decidable True)

instance (s : State ι) (op : Op ι) : Decidable (NoWrap b size s op) :=
  match op with
  | .cas i => inferInstanceAs (Decidable
      (Reserves s i → pageRoundUp s.next + pageSize < b.ptrLimit))
  | .advance i => inferInstanceAs (Decidable (Advances s i → pageRoundUp (size i) < 2 ^ 32 ∧
      s.next + (pageRoundUp (size i) - pageSize) < b.ptrLimit))
  | .load _ | .map _ _ => inferInstanceAs (Decidable True)

instance [Fintype ι] (s : State ι) : Decidable (RangesApart size s) :=
  inferInstanceAs (Decidable
    (∀ i j, i ≠ j → ∀ r ∈ range size s i, ∀ r' ∈ range size s j, r.Apart r'))

/-! ### What a step does -/

variable {b size}

/-- A step that moves no bound: it leaves `dll_base_next` alone, and a load keeps its base and what
it has to add, unless it gives the base up. -/
def Quiet (s s' : State ι) : Prop :=
  s'.next = s.next ∧ ∀ j, (s'.phase j).base = none ∧ ¬ (s'.phase j).Pending ∨
    (s'.phase j).base = (s.phase j).base ∧ ((s'.phase j).Pending ↔ (s.phase j).Pending)

omit [DecidableEq ι] in
theorem Quiet.refl (s : State ι) :
  Quiet s s
  := ⟨rfl, fun _ => Or.inr ⟨rfl, Iff.rfl⟩⟩

variable {i : ι} {s : State ι}

theorem quiet_set {p : Phase}
    (h : p.base = none ∧ ¬ p.Pending ∨
      p.base = (s.phase i).base ∧ (p.Pending ↔ (s.phase i).Pending)) :
  Quiet s (s.set i p)
  := by
  use rfl
  intro j
  rcases eq_or_ne j i with rfl | hne
  · simpa [State.set] using h
  · right
    simp [State.set, hne]

theorem step_cases (b : Build) (size : ι → ℕ) (s : State ι) (op : Op ι) :
  Quiet s (step b size s op) ∨
    (∃ i, op = .cas i ∧ Reserves s i ∧ step b size s op =
      { s.set i (.reserved (b.wrap (pageRoundUp s.next))) with
        next := b.wrap (b.wrap (pageRoundUp s.next) + pageSize) }) ∨
    ∃ i base, op = .advance i ∧ s.phase i = .mapped base ∧ step b size s op =
      { s.set i (.done base) with
        next := if pageSize < dllSize size i then b.wrap (s.next + (dllSize size i - pageSize))
          else s.next }
  := by
  cases op with
  | load i =>
    left
    simp only [step]
    split
    · apply quiet_set
      simp [Phase.base, Phase.Pending]
    · apply Quiet.refl
  | cas i =>
    simp only [step]
    split
    · next expected hphase =>
      split_ifs with heq
      · right
        left
        subst heq
        exact ⟨i, rfl, hphase, rfl⟩
      · left
        apply quiet_set
        simp [Phase.base, Phase.Pending]
    · left
      apply Quiet.refl
  | map i ok =>
    left
    simp only [step]
    split
    · next base hphase =>
      apply quiet_set
      cases ok with
      | true => simp [Phase.base, Phase.Pending, hphase]
      | false => simp [Phase.base, Phase.Pending]
    · apply Quiet.refl
  | advance i =>
    simp only [step]
    split
    · next base hphase =>
      right
      right
      exact ⟨i, base, rfl, hphase, rfl⟩
    · left
      apply Quiet.refl

/-! ### The invariant -/

variable (size)

/-- Bases start at pages, the image of a load lies below `dll_base_next` unless only its first page
is reserved, in which case that page is the last one reserved, and the ranges are apart. -/
structure Inv (s : State ι) : Prop where
  aligned : ∀ i, ∀ base ∈ (s.phase i).base, pageSize ∣ base
  closed : ∀ i, ¬ Open size s i → ∀ base ∈ (s.phase i).base, base + pageRoundUp (size i) ≤ s.next
  opened : ∀ i, Open size s i → ∀ base ∈ (s.phase i).base, base + pageSize = s.next
  unique : ∀ i j, Open size s i → Open size s j → i = j
  apart : RangesApart size s

variable {size}

omit [DecidableEq ι] in
theorem mem_range {r : Region} :
  r ∈ range size s i ↔ ∃ base ∈ (s.phase i).base, r = ⟨base, pageRoundUp (size i)⟩
  := by
  simp only [range, mem_def, map_eq_some_iff]
  constructor
  · rintro ⟨base, hbase, rfl⟩
    exact ⟨base, hbase, rfl⟩
  · rintro ⟨base, hbase, rfl⟩
    exact ⟨base, hbase, rfl⟩

omit [DecidableEq ι] in
theorem inv_start (next : ℕ) :
  Inv size (start next : State ι)
  where
  aligned i base h := by cases h
  closed i _ base h := by cases h
  opened i _ base h := by cases h
  unique i j h := by cases h.1
  apart i j _ r h := by cases h

omit [DecidableEq ι] in
theorem Inv.of_quiet {s' : State ι} (hinv : Inv size s) (hquiet : Quiet s s') :
  Inv size s'
  := by
  obtain ⟨hnext, hphase⟩ := hquiet
  -- Each load had its base and was open before, if it has a base or is open now.
  have hbase {i : ι} {base : ℕ} (h : base ∈ (s'.phase i).base) :
      base ∈ (s.phase i).base ∧ (Open size s' i ↔ Open size s i) := by
    rcases hphase i with ⟨hnone, -⟩ | ⟨heq, hpending⟩
    · rw [hnone] at h
      cases h
    · rw [heq] at h
      exact ⟨h, by rw [Open, Open, hpending]⟩
  have hopen {i : ι} (h : Open size s' i) : Open size s i := by
    rcases hphase i with ⟨-, hnot⟩ | ⟨-, hpending⟩
    · cases hnot h.1
    · rwa [Open, hpending] at h
  constructor
  · intro i base h
    apply hinv.aligned i base (hbase h).1
  · intro i hclosed base h
    rw [hnext]
    rw [(hbase h).2] at hclosed
    apply hinv.closed i hclosed base (hbase h).1
  · intro i hopened base h
    rw [hnext]
    apply hinv.opened i (hopen hopened) base (hbase h).1
  · intro i j hi hj
    apply hinv.unique i j (hopen hi) (hopen hj)
  · intro i j hne r hr r' hr'
    obtain ⟨base, hi, rfl⟩ := mem_range.mp hr
    obtain ⟨base', hj, rfl⟩ := mem_range.mp hr'
    apply hinv.apart i j hne _ (mem_range.mpr ⟨base, (hbase hi).1, rfl⟩) _
      (mem_range.mpr ⟨base', (hbase hj).1, rfl⟩)

theorem Inv.reserve (hinv : Inv size s) (hnone : ∀ j, ¬ Open size s j)
    (hi : (s.phase i).base = none) (hwrap : pageRoundUp s.next + pageSize < b.ptrLimit) :
  Inv size { s.set i (.reserved (b.wrap (pageRoundUp s.next))) with
    next := b.wrap (b.wrap (pageRoundUp s.next) + pageSize) }
  := by
  have hround := le_pageRoundUp s.next
  rw [Build.wrap_of_lt (show pageRoundUp s.next < b.ptrLimit by omega), Build.wrap_of_lt hwrap]
  set s' : State ι := { s.set i (.reserved (pageRoundUp s.next)) with
    next := pageRoundUp s.next + pageSize } with hs'
  have hself : s'.phase i = .reserved (pageRoundUp s.next) := update_self ..
  have hother {j : ι} (hne : j ≠ i) : s'.phase j = s.phase j := update_of_ne hne ..
  have hnext : s'.next = pageRoundUp s.next + pageSize := rfl
  -- Every other image ends below the new base.
  have hbelow {j : ι} (hne : j ≠ i) {base : ℕ} (h : base ∈ (s'.phase j).base) :
      base + pageRoundUp (size j) ≤ pageRoundUp s.next := by
    rw [hother hne] at h
    apply le_trans (hinv.closed j (hnone j) base h) hround
  have hopen {j : ι} (h : Open size s' j) : j = i := by
    by_contra hne
    apply hnone j
    rwa [Open, ← hother hne]
  constructor
  · intro j base h
    rcases eq_or_ne j i with rfl | hne
    · rw [hself] at h
      cases h
      apply pageSize_dvd_pageRoundUp
    · rw [hother hne] at h
      apply hinv.aligned j base h
  · intro j hclosed base h
    rcases eq_or_ne j i with rfl | hne
    · have hsmall : size j ≤ pageSize := by
        by_contra hlt
        exact hclosed ⟨by rw [hself]; trivial, by omega⟩
      rw [hself] at h
      cases h
      rw [hnext]
      apply Nat.add_le_add_left
      apply (pageRoundUp_le_iff (Nat.dvd_refl _)).mpr hsmall
    · apply le_trans (hbelow hne h) (Nat.le_add_right _ _)
  · intro j hopened base h
    rw [hopen hopened, hself] at h
    cases h
    rfl
  · intro j j' hj hj'
    rw [hopen hj, hopen hj']
  · intro j j' hne r hr r' hr'
    obtain ⟨base, hj, rfl⟩ := mem_range.mp hr
    obtain ⟨base', hj', rfl⟩ := mem_range.mp hr'
    rcases eq_or_ne j i with rfl | hji
    · right
      have hle := hbelow hne.symm hj'
      rw [hself] at hj
      cases hj
      exact hle
    · rcases eq_or_ne j' i with rfl | hji'
      · left
        have hle := hbelow hji hj
        rw [hself] at hj'
        cases hj'
        exact hle
      · rw [hother hji] at hj
        rw [hother hji'] at hj'
        apply hinv.apart j j' hne _ (mem_range.mpr ⟨base, hj, rfl⟩) _
          (mem_range.mpr ⟨base', hj', rfl⟩)

theorem Inv.advance (hinv : Inv size s) {base : ℕ} (hi : s.phase i = .mapped base)
    (hsize : pageRoundUp (size i) < 2 ^ 32)
    (hwrap : s.next + (pageRoundUp (size i) - pageSize) < b.ptrLimit) :
  Inv size { s.set i (.done base) with
    next := if pageSize < dllSize size i then b.wrap (s.next + (dllSize size i - pageSize))
      else s.next }
  := by
  have hbase : base ∈ (s.phase i).base := by
    rw [hi]
    rfl
  have hbig : pageSize < pageRoundUp (size i) ↔ pageSize < size i := by
    rw [← not_le, ← not_le, pageRoundUp_le_iff (Nat.dvd_refl _)]
  rw [dllSize, Nat.mod_eq_of_lt hsize, Build.wrap_of_lt hwrap, if_congr hbig rfl rfl]
  set s' : State ι := { s.set i (.done base) with
    next := if pageSize < size i then s.next + (pageRoundUp (size i) - pageSize) else s.next }
    with hs'
  have hself : s'.phase i = .done base := update_self ..
  have hother {j : ι} (hne : j ≠ i) : s'.phase j = s.phase j := update_of_ne hne ..
  have hsame {j : ι} {base' : ℕ} (h : base' ∈ (s'.phase j).base) : base' ∈ (s.phase j).base := by
    rcases eq_or_ne j i with rfl | hne
    · rw [hself] at h
      cases h
      exact hbase
    · rwa [hother hne] at h
  have hle : s.next ≤ s'.next := by
    simp only [hs']
    split_ifs
    · apply Nat.le_add_right
    · apply Nat.le_refl
  -- A load that is still open is another one, and then nothing is added.
  have hopen {j : ι} (h : Open size s' j) : Open size s j ∧ s'.next = s.next := by
    have hne : j ≠ i := by
      rintro rfl
      rw [Open, hself] at h
      cases h.1
    have hj : Open size s j := by rwa [Open, ← hother hne]
    use hj
    apply if_neg
    intro hlt
    apply hne (hinv.unique j i hj ⟨by rw [hi]; trivial, hlt⟩)
  constructor
  · intro j base' h
    apply hinv.aligned j base' (hsame h)
  · intro j hclosed base' h
    rcases eq_or_ne j i with rfl | hne
    · rw [hself] at h
      cases h
      simp only [hs']
      split_ifs with hlt
      · have hopened := hinv.opened j ⟨by rw [hi]; trivial, hlt⟩ base hbase
        rw [← hbig] at hlt
        omega
      · apply hinv.closed j (fun h => hlt h.2) base hbase
    · apply le_trans (hinv.closed j _ base' (hsame h)) hle
      rwa [Open, ← hother hne]
  · intro j hopened base' h
    rw [(hopen hopened).2]
    apply hinv.opened j (hopen hopened).1 base' (hsame h)
  · intro j j' hj hj'
    apply hinv.unique j j' (hopen hj).1 (hopen hj').1
  · intro j j' hne r hr r' hr'
    obtain ⟨base₁, hj, rfl⟩ := mem_range.mp hr
    obtain ⟨base₂, hj', rfl⟩ := mem_range.mp hr'
    apply hinv.apart j j' hne _ (mem_range.mpr ⟨base₁, hsame hj, rfl⟩) _
      (mem_range.mpr ⟨base₂, hsame hj', rfl⟩)

theorem Inv.of_step (hinv : Inv size s) {op : Op ι} (hnone : NoneOpen size s op)
    (hwrap : NoWrap b size s op) :
  Inv size (step b size s op)
  := by
  rcases step_cases b size s op with
    hquiet | ⟨i, rfl, hi, hstep⟩ | ⟨i, base, rfl, hi, hstep⟩
  · apply hinv.of_quiet hquiet
  · rw [hstep]
    apply hinv.reserve (hnone hi)
    · rw [hi]
      rfl
    · exact hwrap hi
  · rw [hstep]
    obtain ⟨hsize, hlt⟩ := hwrap ⟨base, hi⟩
    apply hinv.advance hi hsize hlt

/-- While the invariant holds, the ranges are still apart after a step exactly when no load was
open, if the step reserved a base. -/
theorem Inv.rangesApart_step_iff (hinv : Inv size s) {op : Op ι} (hsize : ∀ i, 0 < size i)
    (hwrap : NoWrap b size s op) :
  RangesApart size (step b size s op) ↔ NoneOpen size s op
  := by
  constructor
  · intro hapart
    cases op with
    | cas i =>
      intro hi j hopen
      -- The new base is the second page of the image of `j`.
      have hji : j ≠ i := by
        rintro rfl
        rw [Open, hi] at hopen
        cases hopen.1
      obtain ⟨base, hbase⟩ : ∃ base, base ∈ (s.phase j).base := by
        have hpending := hopen.1
        cases hphase : s.phase j with
        | reserved base => exact ⟨base, rfl⟩
        | mapped base => exact ⟨base, rfl⟩
        | idle | loaded _ | done _ | failed =>
          rw [hphase] at hpending
          cases hpending
      have hnext := hinv.opened j hopen base hbase
      have hround : pageRoundUp s.next = s.next := by
        rw [← hnext, pageRoundUp_add (hinv.aligned j base hbase)]
        rfl
      have hlt := hwrap hi
      have hstep : step b size s (.cas i) =
          { s.set i (.reserved s.next) with next := s.next + pageSize } := by
        have hphase : s.phase i = .loaded s.next := hi
        simp only [step, hphase, if_true, hround]
        rw [hround] at hlt
        rw [Build.wrap_of_lt (show s.next < b.ptrLimit by omega), Build.wrap_of_lt hlt]
      rw [hstep] at hapart
      have hri : ⟨s.next, pageRoundUp (size i)⟩ ∈ range size
          ({ s.set i (.reserved s.next) with next := s.next + pageSize } : State ι) i := by
        simp [range, State.set, Phase.base]
      have hrj : ⟨base, pageRoundUp (size j)⟩ ∈ range size
          ({ s.set i (.reserved s.next) with next := s.next + pageSize } : State ι) j := by
        rw [mem_def] at hbase
        simp [range, State.set, hji, hbase]
      have hsize := hsize i
      have hgei := le_pageRoundUp (size i)
      have hgej := le_pageRoundUp (size j)
      have hbig := hopen.2
      rcases hapart i j hji.symm _ hri _ hrj with hle | hle
      · simp only [Region.stop] at hle
        omega
      · simp only [Region.stop] at hle
        omega
    | load i => trivial
    | map i ok => trivial
    | advance i => trivial
  · intro hnone
    apply (hinv.of_step hnone hwrap).apart

/-- As long as no addition wraps around, the ranges of the images stay apart through a run of any
number of loads exactly when no load reserves a base while another one has reserved only the first
page of its image. -/
theorem ranges_apart_iff (hsize : ∀ i, 0 < size i) (next : ℕ) (ops : List (Op ι))
    (hwrap : Run.Along (step b size) (NoWrap b size) (start next) ops) :
  Run.Along (step b size) (fun s op => RangesApart size (step b size s op)) (start next) ops ↔
    Run.Along (step b size) (NoneOpen size) (start next) ops
  := by
  symm
  apply hwrap.iff_of_invariant (Inv size) _ _ (inv_start next)
  · intro s op hinv hwrap hnone
    apply hinv.of_step hnone hwrap
  · intro s op hinv hwrap
    symm
    apply hinv.rangesApart_step_iff hsize hwrap

end

/-! ### A load on its own -/

def loadAlone (b : Build) (size : Option ℕ) (next : ℕ) : State Unit :=
  [.load (), .cas (), .map () size.isSome, .advance ()].foldl (step b fun _ => size.getD 0)
    (start next)

theorem mapDll_dllBaseNext {b : Build} (env : Env b) (path : CString) (s : LoaderState) :
  (mapDll env path s).2.dllBaseNext =
    (loadAlone b ((mapDll env path s).1.map fun p => peSizeOfImage p.2) s.dllBaseNext).next
  := by
  simp only [mapDll]
  cases (mapImageAt env.kernel s.used path (env.file path) (b.wrap (pageRoundUp s.dllBaseNext))
    s.main).1 with
  | none => simp [loadAlone, step, start, State.set]
  | some p =>
    simp only [loadAlone, step, start, State.set, dllSize, map_some, isSome_some,
      getD_some, List.foldl_cons, List.foldl_nil, update_self, if_true]
    rfl

def twoPages : Bool → ℕ := fun _ => 0x2000

def sequential : List (Op Bool) :=
  [.load false, .cas false, .map false true, .advance false,
    .load true, .cas true, .map true true, .advance true]

/-- Two loads one after the other get ranges that are apart. -/
theorem sequential_apart :
  Run.Along (step .x64 twoPages) (NoWrap .x64 twoPages) (start 0x60000000) sequential ∧
    Run.Along (step .x64 twoPages) (fun s op => RangesApart twoPages (step .x64 twoPages s op))
      (start 0x60000000) sequential
  := by
  have hwrap : Run.Along (step .x64 twoPages) (NoWrap .x64 twoPages) (start 0x60000000)
      sequential := by
    decide
  use hwrap
  apply (ranges_apart_iff (by decide) 0x60000000 sequential hwrap).mpr
  decide

def interleaved : List (Op Bool) := [.load false, .cas false, .load true, .cas true]

/-- The second load gets the second page of the first image. -/
theorem interleaved_overlap :
  Run.Along (step .x64 twoPages) (NoWrap .x64 twoPages) (start 0x60000000) interleaved ∧
    ¬ RangesApart twoPages (interleaved.foldl (step .x64 twoPages) (start 0x60000000))
  := by
  decide

end BaseAllocator

end Loader
