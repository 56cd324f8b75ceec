import MyWine.Kernel32.FileEnumeration
import MyWine.Lib.Trace
import MyWine.SyscallSafeUtils

/-!
# Wildcards

`wildcard_match_ci` of `launcher_kernel32_stubs.c` compares characters after setting the bit that tells
a capital letter from a small one.  For letters this is comparison up to case, but it also takes `@`
for a grave accent and a space for the `NUL` of the text, behind which it then goes on.  So a text is
matched as patterns with `*` and `?` are if and only if no space meets its end (`RunsOff`), and the
other characters that are mistaken do not make it match (`wildcardRight_iff`).
-/

open SyscallSafe

namespace Kernel32

open List

/-- The text matches the pattern, where the characters of the pattern stand for those that are the `same`. -/
def GlobBy (same : UInt8 → UInt8 → Prop) : List UInt8 → List UInt8 → Prop
  | [], text => text = []
  | c :: pattern, text =>
    if c = 42 then ∃ text', text' <:+ text ∧ GlobBy same pattern text'
    else ∃ d text', text = d :: text' ∧ (c ≠ 63 → same c d) ∧ GlobBy same pattern text'

def Glob : List UInt8 → List UInt8 → Prop := GlobBy fun c d => asciiLower c = asciiLower d

def FoldGlob : List UInt8 → List UInt8 → Prop := GlobBy fun c d => foldCase c = foldCase d

/-- `wildcard_match_ci` with its reads of the text, each as the number of bytes from there on.  The
pattern is only read to its `NUL`, where the list ends. -/
def matchReads : List UInt8 → List UInt8 → Traced ℕ Bool
  | [], text => ⟨text.headD 0 = 0, [text.length]⟩
  | c :: pattern, text =>
    if c = 42 then
      if pattern = [] then pure true
      else (tailsToNul text).anyM fun text => do
        let _ ← (⟨text.headD 0, [text.length]⟩ : Traced ℕ UInt8)
        matchReads pattern text
    else do
      let d ← (⟨text.headD 0, [text.length]⟩ : Traced ℕ UInt8)
      if c = 63 then if d ≠ 0 then matchReads pattern text.tail else pure false
      else if foldCase c ≠ foldCase d then pure false
      else matchReads pattern text.tail

theorem value_matchReads (pattern text : List UInt8) :
  (matchReads pattern text).value = wildcardMatchCi pattern text
  := by
  induction pattern generalizing text with
  | nil => rfl
  | cons c pattern ih =>
    rw [matchReads, wildcardMatchCi]
    split_ifs with h42 hnil h63 hfold
    · rfl
    · simp [Traced.value_anyM, ih]
    · rw [Traced.value_bind]
      split_ifs with hd
      · rw [ih, decide_eq_true hd, Bool.true_and]
      · rw [decide_eq_false hd, Bool.false_and, Traced.value_pure]
    · rw [Traced.value_bind, if_pos hfold, Traced.value_pure]
    · rw [Traced.value_bind, if_neg hfold, ih]

/-- No byte behind the `NUL` of the text is read, and the texts that match are those that the pattern
describes. -/
def MatchRight (pattern text : CString) (rest : List UInt8) : Prop :=
  (matchReads pattern.bytes (text.bytes ++ 0 :: rest)).All (rest.length < ·) ∧
    (wildcardMatchCi pattern.bytes (text.bytes ++ 0 :: rest) = true ↔ Glob pattern.bytes text.bytes)

/-- `P` holds of a suffix, and `Q` of none that is longer. -/
def SuffixBefore (P Q : List UInt8 → Prop) : List UInt8 → Prop
  | [] => P []
  | d :: text => P (d :: text) ∨ ¬ Q (d :: text) ∧ SuffixBefore P Q text

/-- A space of the pattern meets the end of the text.  The suffixes of a text are tried from the longest
one on, up to one that matches. -/
def RunsOff : List UInt8 → List UInt8 → Prop
  | [], _ => False
  | c :: pattern, text =>
    if c = 42 then SuffixBefore (RunsOff pattern) (FoldGlob pattern) text
    else text = [] ∧ c = 32 ∨
      ∃ d text', text = d :: text' ∧ (c = 63 ∨ foldCase c = foldCase d) ∧ RunsOff pattern text'

/-! ### Where the matching stays in the text -/

/-- If no space meets the end of the text, then only the text is read and it matches as it does with the
case bit set in all characters.  Otherwise something behind the text is read, or it is taken to match. -/
def Matched (r : Traced ℕ Bool) (n : ℕ) (off glob : Prop) : Prop :=
  (¬ off → r.All (n < ·) ∧ (r.value = true ↔ glob)) ∧ (off → r.All (n < ·) → r.value = true)

theorem Matched.or {g : List UInt8 → Traced ℕ Bool} {u : List UInt8} {l : List (List UInt8)} {n : ℕ}
    {off off' glob glob' : Prop} (h : Matched (g u) n off glob) (h' : Matched (l.anyM g) n off' glob') :
  Matched ((u :: l).anyM g) n (off ∨ ¬ glob ∧ off') (glob ∨ glob')
  := by
  rw [Matched, Traced.all_anyM_cons, Traced.value_anyM, List.any_cons, ← Traced.value_anyM,
    Bool.or_eq_true]
  constructor
  · rw [not_or, not_and]
    rintro ⟨hoff, hrest⟩
    obtain ⟨hreads, hvalue⟩ := h.1 hoff
    by_cases hglob : glob
    · have htrue := hvalue.mpr hglob
      refine ⟨⟨hreads, fun hfalse => ?_⟩, iff_of_true (Or.inl htrue) (Or.inl hglob)⟩
      rw [htrue] at hfalse
      cases hfalse
    · obtain ⟨hreads', hvalue'⟩ := h'.1 (hrest hglob)
      exact ⟨⟨hreads, fun _ => hreads'⟩, or_congr hvalue hvalue'⟩
  · rintro hoff ⟨hreads, hreads'⟩
    cases hvalue : (g u).value with
    | true => exact Or.inl rfl
    | false =>
      right
      rcases hoff with hoff | ⟨-, hoff⟩
      · rw [h.2 hoff hreads] at hvalue
        cases hvalue
      · apply h'.2 hoff (hreads' hvalue)

theorem matched_suffixes {pattern rest : List UInt8}
    (h : ∀ text, 0 ∉ text → Matched (matchReads pattern (text ++ 0 :: rest)) rest.length
      (RunsOff pattern text) (FoldGlob pattern text)) {text : List UInt8} (ht : 0 ∉ text) :
  Matched ((tailsToNul (text ++ 0 :: rest)).anyM fun u => do
      let _ ← (⟨u.headD 0, [u.length]⟩ : Traced ℕ UInt8)
      matchReads pattern u)
    rest.length (SuffixBefore (RunsOff pattern) (FoldGlob pattern) text)
    (∃ text', text' <:+ text ∧ FoldGlob pattern text')
  := by
  have hread {text : List UInt8} (ht : 0 ∉ text) : Matched (do
      let _ ← (⟨(text ++ 0 :: rest).headD 0, [(text ++ 0 :: rest).length]⟩ : Traced ℕ UInt8)
      matchReads pattern (text ++ 0 :: rest)) rest.length (RunsOff pattern text)
        (FoldGlob pattern text) := by
    have hlength : rest.length < (text ++ 0 :: rest).length := by
      rw [length_append, length_cons]
      omega
    have h := h text ht
    rwa [Matched, Traced.all_bind, Traced.all_mk, Traced.value_bind, and_iff_right hlength]
  have hnone : Matched ([].anyM fun u => do
      let _ ← (⟨u.headD 0, [u.length]⟩ : Traced ℕ UInt8)
      matchReads pattern u) rest.length False False :=
    ⟨fun _ => ⟨Traced.all_pure _, by simp [List.anyM]⟩, False.elim⟩
  induction text with
  | nil =>
    have htails : tailsToNul ([] ++ 0 :: rest) = [[] ++ 0 :: rest] := by simp [tailsToNul]
    rw [htails]
    simpa only [SuffixBefore, suffix_nil, exists_eq_left, and_false, or_false] using (hread ht).or hnone
  | cons d text ih =>
    have hfirst := hread ht
    rw [mem_cons, not_or] at ht
    have htails : tailsToNul (d :: text ++ 0 :: rest) =
        (d :: text ++ 0 :: rest) :: tailsToNul (text ++ 0 :: rest) := by
      rw [cons_append, tailsToNul, if_neg (Ne.symm ht.1)]
    rw [htails]
    simpa only [SuffixBefore, suffix_cons_iff, or_and_right, exists_or, exists_eq_left] using
      hfirst.or (ih ht.2)

/-- Behind the text the next byte is read, unless only a star is left. -/
theorem value_of_all {pattern rest : List UInt8} (h : (matchReads pattern rest).All (rest.length < ·)) :
  (matchReads pattern rest).value = true
  := by
  cases pattern with
  | nil => simp [matchReads] at h
  | cons c pattern =>
    rw [matchReads] at h ⊢
    by_cases h42 : c = 42
    · rw [if_pos h42] at h ⊢
      by_cases hnil : pattern = []
      · rw [if_pos hnil]
        rfl
      · have htails : ∃ l, tailsToNul rest = rest :: l := by
          cases rest with
          | nil => exact ⟨_, rfl⟩
          | cons d rest => exact ⟨_, rfl⟩
        obtain ⟨l, hl⟩ := htails
        rw [if_neg hnil, hl, Traced.all_anyM_cons, Traced.all_bind, Traced.all_mk] at h
        exact absurd h.1.1 (lt_irrefl _)
    · rw [if_neg h42, Traced.all_bind, Traced.all_mk] at h
      exact absurd h.1 (lt_irrefl _)

theorem matchReads_spec {pattern text : List UInt8} (rest : List UInt8) (hp : 0 ∉ pattern)
    (ht : 0 ∉ text) :
  Matched (matchReads pattern (text ++ 0 :: rest)) rest.length (RunsOff pattern text)
    (FoldGlob pattern text)
  := by
  induction pattern generalizing text with
  | nil =>
    rw [matchReads, RunsOff, FoldGlob, GlobBy, Matched, Traced.all_mk]
    cases text with
    | nil => simp
    | cons d text =>
      rw [mem_cons, not_or] at ht
      simp [Ne.symm ht.1]
      omega
  | cons c pattern ih =>
    rw [mem_cons, not_or] at hp
    rw [matchReads, RunsOff, FoldGlob, GlobBy]
    by_cases h42 : c = 42
    · simp only [if_pos h42]
      by_cases hnil : pattern = []
      · have hoff : ∀ text, ¬ SuffixBefore (RunsOff []) (FoldGlob []) text := by
          intro text
          induction text with
          | nil => exact id
          | cons d text ih => exact fun h => h.elim id fun h => ih h.2
        rw [if_pos hnil, hnil]
        exact ⟨fun _ => ⟨Traced.all_pure _, iff_of_true rfl ⟨[], nil_suffix, rfl⟩⟩,
          fun h => absurd h (hoff text)⟩
      · rw [if_neg hnil]
        apply matched_suffixes (fun text ht => ih hp.2 ht) ht
    · simp only [if_neg h42, Matched, Traced.all_bind, Traced.all_mk, Traced.value_bind]
      cases text with
      | nil =>
        by_cases h63 : c = 63
        · simp [h63]
        · by_cases h32 : c = 32
          · simpa [h32, foldCase] using value_of_all
          · simp [h63, h32, foldCase_ne (Ne.symm hp.1) h32]
      | cons d text =>
        rw [mem_cons, not_or] at ht
        have hlength : rest.length < text.length + (rest.length + 1) + 1 := by omega
        have htail := ih hp.2 ht.2
        rw [Matched, FoldGlob] at htail
        by_cases h63 : c = 63
        · simpa [h63, Ne.symm ht.1, hlength] using htail
        · by_cases hd : foldCase c = foldCase d
          · simpa [h63, hd, hlength] using htail
          · simp [h63, hd, hlength]

/-! ### Where it is right -/

theorem not_foldGlob_of_runsOff {pattern text text' : List UInt8} (h : RunsOff pattern text)
    (hs : text' <:+ text) :
  ¬ FoldGlob pattern text'
  := by
  induction pattern generalizing text text' with
  | nil => cases h
  | cons c pattern ih =>
    rw [RunsOff] at h
    rw [FoldGlob, GlobBy]
    split_ifs at h ⊢
    · rintro ⟨u, hu, hglob⟩
      have hu := hu.trans hs
      clear hs
      induction text with
      | nil =>
        rw [suffix_nil] at hu
        exact ih h (by rw [hu]) hglob
      | cons d text ihtext =>
        rcases h with h | ⟨hne, h⟩
        · exact ih h hu hglob
        · rcases suffix_cons_iff.mp hu with rfl | hu
          · exact hne hglob
          · exact ihtext h hu
    · rintro ⟨e, u, rfl, -, hglob⟩
      rcases h with ⟨rfl, -⟩ | ⟨d, text, rfl, -, h⟩
      · simp at hs
      · apply ih h _ hglob
        rcases suffix_cons_iff.mp hs with heq | hs
        · cases heq
          exact suffix_refl _
        · exact (suffix_cons e u).trans hs

theorem Glob.fold {pattern text : List UInt8} (h : Glob pattern text) :
  FoldGlob pattern text
  := by
  have hfold : ∀ c : UInt8, foldCase (asciiLower c) = foldCase c := forall_byte (by decide +kernel)
  induction pattern generalizing text with
  | nil => exact h
  | cons c pattern ih =>
    rw [Glob, GlobBy] at h
    rw [FoldGlob, GlobBy]
    split_ifs at h ⊢
    · obtain ⟨text', hs, h⟩ := h
      exact ⟨text', hs, ih h⟩
    · obtain ⟨d, text', htext, hsame, h⟩ := h
      exact ⟨d, text', htext, fun h63 => by rw [← hfold c, hsame h63, hfold], ih h⟩

/-- A text is matched rightly if and only if no space of the pattern meets its end, and it matches if it
does with the case bit set in all characters. -/
theorem wildcardRight_iff (pattern text : CString) (rest : List UInt8) :
  MatchRight pattern text rest ↔
    ¬ RunsOff pattern.bytes text.bytes ∧
      (FoldGlob pattern.bytes text.bytes → Glob pattern.bytes text.bytes)
  := by
  have hspec := matchReads_spec rest pattern.zero_notMem text.zero_notMem
  rw [MatchRight, ← value_matchReads]
  constructor
  · rintro ⟨hreads, hvalue⟩
    have hoff : ¬ RunsOff pattern.bytes text.bytes := by
      intro hoff
      apply not_foldGlob_of_runsOff hoff (suffix_refl _)
      exact (hvalue.mp (hspec.2 hoff hreads)).fold
    exact ⟨hoff, fun hfold => hvalue.mp ((hspec.1 hoff).2.mpr hfold)⟩
  · rintro ⟨hoff, hglob⟩
    obtain ⟨hreads, hvalue⟩ := hspec.1 hoff
    exact ⟨hreads, hvalue.trans ⟨hglob, Glob.fold⟩⟩

theorem wildcardMatchCi_at_sign :
  wildcardMatchCi [64] [96, 0] = true ∧ ¬ Glob [64] [96]
    ∧ ¬ (matchReads [32] [0, 65]).All (1 < ·) ∧ wildcardMatchCi [32, 65] [0, 65, 0] = true
  := by
  refine ⟨by decide, ?_, ?_, by decide⟩
  swap
  · intro hall
    exact absurd (hall 1 (by decide)) (by decide)
  rw [Glob, GlobBy, if_neg (by decide)]
  rintro ⟨d, text', h, hd, -⟩
  cases h
  cases hd (by decide)

end Kernel32
