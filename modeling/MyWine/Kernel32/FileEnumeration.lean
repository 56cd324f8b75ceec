import MyWine.Kernel32.FindFile

/-!
# What an enumeration of files returns

`FindFirstFileA` and the calls of `FindNextFileA` after it should return the entries of the directory
that have a status and whose names match the pattern, in the sense of `wildcard_match_ci` (`expected`).
`FindFirstFileA` asks `wildcard_match_ci` for its entry.  `FindNextFileA` has a matcher of its own, which
takes the first place where the character after a star fits and never goes back, and lets a pattern with
a star end before the name does.  The enumeration is right exactly when the matchers that are asked give
the answer that they should (`findFiles_eq_expected_iff`).  That is so for every directory if each star of
the pattern is followed by one character and another star, or by nothing but stars
(`entryMatches_eq_of_simple`), such as in `*.*` or `SAVE*`.
-/

namespace Kernel32

open HandleManager Function List Option

variable (stat : CString → Option FileStat)

/-! ### The entries that should be returned -/

def entryData (directory : CString) (d : Dirent) : Option FindData :=
  (stat (fullPath directory d.name)).map (findData d.name)

def expected (directory pattern : CString) (entries : List Dirent) : List FindData :=
  entries.filterMap fun d =>
    if wildcardMatchCi pattern.bytes d.text then entryData stat directory d else none

/-- `FindFirstFileA` returns the entry: it has a status and matches the pattern that was stored. -/
def isFirst (directory pattern : CString) (d : Dirent) : Bool :=
  wildcardMatchCi (pattern.take (patternSize - 1)).bytes d.text && (entryData stat directory d).isSome

/-- The test that the program makes of an entry, which depends on whether one was found before. -/
def entryTest (pattern : CString) (found : Bool) (d : Dirent) : Bool :=
  if found then entryMatches (pattern.take (patternSize - 1)) d.name
  else wildcardMatchCi (pattern.take (patternSize - 1)).bytes d.text

def selected (directory pattern : CString) : Bool → List Dirent → List FindData
  | _, [] => []
  | found, d :: entries =>
    match if entryTest pattern found d then entryData stat directory d else none with
    | none => selected directory pattern found entries
    | some data => data :: selected directory pattern true entries

variable {stat} {directory pattern : CString}

/-! ### Entries and data -/

theorem fullPath_bytes (hdir : directory.length ≤ 1023) (d : Dirent) :
  (fullPath directory d.name).bytes = directory.bytes ++ 47 :: d.name.bytes
  := by
  have hname := d.name_length
  apply take_of_length_le
  rw [CString.length] at hdir hname
  rw [length_append, length_cons]
  omega

theorem fillFindData_fullPath (hdir : directory.length ≤ 1023) (d : Dirent) (st : FileStat) :
  fillFindData (fullPath directory d.name) st = findData d.name st
  := by
  have hbytes := fullPath_bytes hdir d
  have hmem : 47 ∈ (fullPath directory d.name).bytes := by
    rw [hbytes]
    apply mem_append_right
    apply mem_cons_self
  have hname : ((fullPath directory d.name).bytes.reverse.takeWhile (· ≠ 47)).reverse
      = d.name.bytes := by
    rw [hbytes, reverse_append, reverse_cons, append_assoc, takeWhile_append_of_pos]
    · simp
    · intro c hc
      rw [mem_reverse] at hc
      rw [decide_eq_true_eq]
      rintro rfl
      apply d.slash_notMem hc
  have hstring : CString.ofBytes d.name.bytes = d.name :=
    CString.ext (CString.ofBytes_bytes d.name.zero_notMem)
  simp only [fillFindData, splitLastSlash, if_pos hmem, hname, hstring]

theorem cFileName_findData (d : Dirent) (st : FileStat) :
  (findData d.name st).cFileName = d.name
  := by
  have hname := d.name_length
  apply CString.take_of_length_le
  omega

variable {data : FindData} {entries : List Dirent} {found : Bool}

theorem cFileName_entryData {d : Dirent} (h : entryData stat directory d = some data) :
  data.cFileName = d.name
  := by
  obtain ⟨st, -, rfl⟩ := map_eq_some_iff.mp h
  apply cFileName_findData

/-! ### The calls -/

theorem nextEntry_eq (find : WineFindHandle) (pattern : CString)
    (hpattern : find.pattern = pattern.take (patternSize - 1)) {n : ℕ} (hn : entries.length ≤ n) :
  match nextEntry stat find (entries.map Dirent.name) with
  | (none, _) => selected stat find.directory pattern true entries = []
  | (some data, names) => ∃ rest : List Dirent, rest.length < n ∧ names = rest.map Dirent.name
    ∧ selected stat find.directory pattern true entries
      = data :: selected stat find.directory pattern true rest
  := by
  induction entries with
  | nil => rfl
  | cons d entries ih =>
    rw [length_cons] at hn
    have hskip := ih (by omega)
    simp only [map_cons, nextEntry, selected, entryTest, if_true, hpattern, entryData]
    cases entryMatches (pattern.take (patternSize - 1)) d.name with
    | false => simpa using hskip
    | true =>
      cases stat (fullPath find.directory d.name) with
      | none => simpa using hskip
      | some st => exact ⟨entries, hn, rfl, rfl⟩

/-- The handle belongs to an enumeration of the directory with the given entries left. -/
structure Enumerates (s : FindState) (handle : ℕ) (directory pattern : CString)
    (entries : List Dirent) : Prop where
  object : ∃ find dir, findObject s.handles handle = some find ∧ dir ≠ 0
    ∧ s.findAt find = ⟨dir, directory, pattern.take (patternSize - 1)⟩
    ∧ s.entries dir = entries.map Dirent.name

theorem findNextFiles_eq_selected {s : FindState} {handle lpFindFileData n : ℕ}
    (h : Enumerates s handle directory pattern entries) (hdata : lpFindFileData ≠ 0)
    (hn : entries.length ≤ n) :
  findNextFiles stat handle lpFindFileData n s = selected stat directory pattern true entries
  := by
  induction n generalizing s entries with
  | zero =>
    have hempty : entries = [] := length_eq_zero_iff.mp (Nat.le_zero.mp hn)
    rw [hempty]
    rfl
  | succ n ih =>
    obtain ⟨find, dir, hobj, hdir, hfind, hentries⟩ := h.object
    have hnext := @nextEntry_eq stat _ ⟨dir, directory, pattern.take (patternSize - 1)⟩ pattern rfl _ hn
    simp only [findNextFiles, findNextFileA, if_neg hdata, hobj, hfind, if_neg hdir, hentries]
    generalize nextEntry stat ⟨dir, directory, pattern.take (patternSize - 1)⟩
      (entries.map Dirent.name) = r at hnext ⊢
    obtain ⟨_ | data, names⟩ := r
    · exact hnext.symm
    · obtain ⟨rest, hlt, rfl, hselected⟩ := hnext
      rw [hselected]
      change data :: findNextFiles stat handle lpFindFileData n _ = _
      congr 1
      apply ih
      · constructor
        refine ⟨find, dir, hobj, hdir, hfind, ?_⟩
        apply update_self
      · omega

theorem findHandleNextMatch_eq (hdir : directory.length ≤ 1023) {n : ℕ} (hn : entries.length ≤ n) :
  match findHandleNextMatch stat directory (pattern.take (patternSize - 1)) entries with
  | none => selected stat directory pattern false entries = []
  | some (data, rest) => rest.length ≤ n
    ∧ selected stat directory pattern false entries = data :: selected stat directory pattern true rest
  := by
  induction entries with
  | nil => rfl
  | cons d entries ih =>
    rw [length_cons] at hn
    have hskip := ih (by omega)
    simp only [findHandleNextMatch, selected, entryTest, Bool.false_eq_true, if_false, entryData]
    cases wildcardMatchCi (pattern.take (patternSize - 1)).bytes d.text with
    | false => simpa using hskip
    | true =>
      cases stat (fullPath directory d.name) with
      | none => simpa using hskip
      | some st =>
        rw [if_pos rfl, if_pos rfl, map_some]
        simp only [fillFindData_fullPath hdir]
        exact ⟨by omega, trivial⟩

/-! ### When the enumeration is right -/

/-- The answer that the program gets for each entry that has a status is the one for the whole pattern:
from `wildcard_match_ci` up to the first entry that is returned, and from the matcher of `FindNextFileA`
after it. -/
def TestsRight (stat : CString → Option FileStat) (directory pattern : CString) (found : Bool)
    (entries : List Dirent) : Prop :=
  ∀ before d after, entries = before ++ d :: after → (entryData stat directory d).isSome →
    entryTest pattern (found || before.any (isFirst stat directory pattern)) d
      = wildcardMatchCi pattern.bytes d.text

theorem testsRight_cons {d : Dirent} :
  TestsRight stat directory pattern found (d :: entries)
    ↔ ((entryData stat directory d).isSome →
        entryTest pattern found d = wildcardMatchCi pattern.bytes d.text)
      ∧ TestsRight stat directory pattern (found || isFirst stat directory pattern d) entries
  := by
  constructor
  · intro h
    constructor
    · intro hsome
      have htest := h [] d entries rfl hsome
      rwa [any_nil, Bool.or_false] at htest
    · intro before e after heq hsome
      have htest := h (d :: before) e after (by rw [heq]; rfl) hsome
      rwa [any_cons, ← Bool.or_assoc] at htest
  · rintro ⟨hhead, htail⟩ before e after heq hsome
    cases before with
    | nil =>
      rw [nil_append, cons.injEq] at heq
      rw [any_nil, Bool.or_false, ← heq.1]
      rw [← heq.1] at hsome
      apply hhead hsome
    | cons d' before =>
      rw [cons_append, cons.injEq] at heq
      rw [any_cons, ← Bool.or_assoc, ← heq.1]
      apply htail before e after heq.2 hsome

theorem mem_names_of_mem_selected (h : data ∈ selected stat directory pattern found entries) :
  data.cFileName ∈ entries.map Dirent.name
  := by
  induction entries generalizing found with
  | nil => cases h
  | cons d entries ih =>
    simp only [selected] at h
    cases hdata : if entryTest pattern found d then entryData stat directory d else none with
    | none =>
      rw [hdata] at h
      apply mem_cons_of_mem
      apply ih h
    | some data' =>
      rw [hdata, mem_cons] at h
      rcases h with rfl | h
      · obtain ⟨-, hdata⟩ := ite_none_right_eq_some.mp hdata
        rw [cFileName_entryData hdata]
        apply mem_cons_self
      · apply mem_cons_of_mem
        apply ih h

theorem mem_names_of_mem_expected (h : data ∈ expected stat directory pattern entries) :
  data.cFileName ∈ entries.map Dirent.name
  := by
  obtain ⟨d, hd, hdata⟩ := mem_filterMap.mp h
  obtain ⟨-, hdata⟩ := ite_none_right_eq_some.mp hdata
  rw [cFileName_entryData hdata]
  apply mem_map_of_mem hd

theorem expected_cons (d : Dirent) (entries : List Dirent) :
  expected stat directory pattern (d :: entries)
    = (if wildcardMatchCi pattern.bytes d.text then entryData stat directory d else none).toList
      ++ expected stat directory pattern entries
  := by
  rw [expected, filterMap_cons]
  cases if wildcardMatchCi pattern.bytes d.text then entryData stat directory d else none with
  | none => rfl
  | some data => rfl

theorem selected_eq_expected_iff (hnodup : (entries.map Dirent.name).Nodup) :
  selected stat directory pattern found entries = expected stat directory pattern entries
    ↔ TestsRight stat directory pattern found entries
  := by
  induction entries generalizing found with
  | nil =>
    constructor
    · intro _ before d after heq
      simp at heq
    · intro _
      rfl
  | cons d entries ih =>
    rw [map_cons, nodup_cons] at hnodup
    obtain ⟨hnotMem, hnodup⟩ := hnodup
    rw [testsRight_cons, expected_cons]
    cases hdata : entryData stat directory d with
    | none =>
      have hfirst : isFirst stat directory pattern d = false := by
        rw [isFirst, hdata, isSome_none, Bool.and_false]
      simpa [selected, hdata, hfirst] using ih hnodup
    | some data =>
      have hname : data.cFileName = d.name := cFileName_entryData hdata
      have hselected : data ∉ selected stat directory pattern found entries :=
        fun hmem => hnotMem (hname ▸ mem_names_of_mem_selected hmem)
      have hexpected : data ∉ expected stat directory pattern entries :=
        fun hmem => hnotMem (hname ▸ mem_names_of_mem_expected hmem)
      have hfirst : (found || isFirst stat directory pattern d)
          = (found || entryTest pattern found d) := by
        rw [isFirst, hdata, isSome_some, Bool.and_true]
        cases found <;> rfl
      simp only [selected, hdata, isSome_some, forall_const, hfirst]
      cases entryTest pattern found d with
      | false =>
        rw [Bool.or_false]
        cases wildcardMatchCi pattern.bytes d.text with
        | false =>
          simpa using ih hnodup
        | true =>
          simp only [Bool.false_eq_true, if_false, if_true, false_and, iff_false]
          intro heq
          apply hselected
          simp [heq]
      | true =>
        rw [Bool.or_true]
        cases wildcardMatchCi pattern.bytes d.text with
        | false =>
          simp only [Bool.false_eq_true, if_false, if_true, toList_none, nil_append,
            Bool.true_eq_false, false_and, iff_false]
          intro heq
          apply hexpected
          rw [← heq]
          apply mem_cons_self
        | true =>
          simpa using ih hnodup

/-! ### Patterns for which the matchers agree -/

def simpleAfterStar : List UInt8 → Bool
  | [] => true
  | [c] => c = 42
  | c :: d :: pattern =>
    (c :: d :: pattern).all (· = 42)
      || (c ≠ 42 ∧ c ≠ 63 ∧ c ≠ 32 ∧ d = 42 : Bool) && simpleAfterStar pattern

/-- A pattern without spaces where a star is followed by nothing but stars, or by a character and a
star. -/
def simplePattern : List UInt8 → Bool
  | [] => true
  | c :: pattern => if c = 42 then simpleAfterStar pattern else c ≠ 32 && simplePattern pattern

theorem forall_byte {P : UInt8 → Prop} (h : ∀ n : Fin 256, P (.ofFin n)) (c : UInt8) :
  P c
  := h c.toFin

theorem foldCase_ne {c : UInt8} (h0 : c ≠ 0) (h32 : c ≠ 32) :
  foldCase c ≠ foldCase 0
  := by
  have hall : ∀ c : UInt8, foldCase c = foldCase 0 → c = 0 ∨ c = 32 := forall_byte (by decide +kernel)
  intro hfold
  rcases hall c hfold with h | h
  · apply h0 h
  · apply h32 h

theorem mem_tailsToNul_self (text : List UInt8) :
  text ∈ tailsToNul text
  := by
  cases text with
  | nil => apply mem_singleton_self
  | cons c text => apply mem_cons_self

theorem tailsToNul_subset {text text' : List UInt8} (h : text' ∈ tailsToNul text) :
  tailsToNul text' ⊆ tailsToNul text
  := by
  induction text with
  | nil =>
    rw [mem_singleton.mp h]
    apply List.Subset.refl
  | cons c text ih =>
    rcases mem_cons.mp h with rfl | h
    · apply List.Subset.refl
    · by_cases hc : c = 0
      · rw [if_pos hc] at h
        cases h
      · rw [if_neg hc] at h
        rw [tailsToNul, if_neg hc]
        apply List.Subset.trans (ih h)
        apply subset_cons_self

theorem wildcardMatchCi_star_of_mem {pattern text text' : List UInt8} (h : text' ∈ tailsToNul text)
    (hmatch : wildcardMatchCi (42 :: pattern) text') :
  wildcardMatchCi (42 :: pattern) text
  := by
  rw [wildcardMatchCi, if_pos rfl] at hmatch ⊢
  by_cases hnil : pattern = []
  · rw [if_pos hnil]
  · rw [if_neg hnil, List.any_eq_true] at hmatch ⊢
    obtain ⟨u, hu, hmatch⟩ := hmatch
    use u
    exact ⟨tailsToNul_subset h hu, hmatch⟩

section

variable {c : UInt8} (h42 : c ≠ 42) (h63 : c ≠ 63) {pattern text : List UInt8}
include h42 h63

theorem wildcardMatchCi_of_ne (text : List UInt8) (h : foldCase c ≠ foldCase (text.headD 0)) :
  wildcardMatchCi (c :: pattern) text = false
  := by
  rw [wildcardMatchCi, if_neg h42, if_neg h63, if_pos h]

theorem wildcardMatchCi_of_eq (text : List UInt8) (h : foldCase c = foldCase (text.headD 0)) :
  wildcardMatchCi (c :: pattern) text = wildcardMatchCi pattern text.tail
  := by
  rw [wildcardMatchCi, if_neg h42, if_neg h63, if_neg (not_not.mpr h)]

theorem any_wildcardMatchCi (h0 : c ≠ 0) (h32 : c ≠ 32) {rest : List UInt8} (htext : 0 ∉ text) :
  (tailsToNul (text ++ 0 :: rest)).any (fun u => wildcardMatchCi (c :: 42 :: pattern) u)
    = match text.dropWhile fun e => foldCase c ≠ foldCase e with
      | [] => false
      | _ :: text' => wildcardMatchCi (42 :: pattern) (text' ++ 0 :: rest)
  := by
  have hzero := foldCase_ne h0 h32
  induction text with
  | nil =>
    simp only [nil_append, tailsToNul, if_true, any_cons, any_nil, Bool.or_false,
      dropWhile_nil]
    apply wildcardMatchCi_of_ne h42 h63 (0 :: rest) hzero
  | cons e text ih =>
    rw [mem_cons, not_or] at htext
    have he : e ≠ 0 := Ne.symm htext.1
    simp only [cons_append, tailsToNul, if_neg he, any_cons]
    by_cases hfold : foldCase c = foldCase e
    · rw [dropWhile_cons_of_neg (by simpa using hfold),
        wildcardMatchCi_of_eq h42 h63 (e :: _) hfold, tail_cons]
      cases hmatch : wildcardMatchCi (42 :: pattern) (text ++ 0 :: rest) with
      | true => simp [hmatch]
      | false =>
        simp only [hmatch, Bool.false_or, List.any_eq_false]
        -- a match from a later place would be one from here, by the star
        intro u hu hmatch'
        by_cases hhead : foldCase c = foldCase (u.headD 0)
        · rw [wildcardMatchCi_of_eq h42 h63 _ hhead] at hmatch'
          cases u with
          | nil => apply hzero hhead
          | cons e' u =>
            have he' : e' ≠ 0 := by
              rintro rfl
              apply hzero hhead
            have hmem : u ∈ tailsToNul (e' :: u) := by
              rw [tailsToNul, if_neg he']
              apply mem_cons_of_mem
              apply mem_tailsToNul_self
            have hstar := wildcardMatchCi_star_of_mem (tailsToNul_subset hu hmem) hmatch'
            rw [hmatch] at hstar
            cases hstar
        · rw [wildcardMatchCi_of_ne h42 h63 _ hhead] at hmatch'
          cases hmatch'
    · rw [dropWhile_cons_of_pos (by simpa using hfold), ← ih htext.2,
        wildcardMatchCi_of_ne h42 h63 (e :: _) hfold, Bool.false_or]

end

/-! ### The loop of `FindNextFileA` -/

section

variable {star : Bool} {c d : UInt8} {pattern text : List UInt8}

theorem matchLoop_star_cons :
  matchLoop star (42 :: d :: pattern) text
    = matchLoop true (d :: pattern) (text.dropWhile fun e => foldCase d ≠ foldCase e)
  := by
  simp [matchLoop]

theorem matchLoop_nil (h42 : c ≠ 42) :
  matchLoop star (c :: pattern) [] = (false, star, [])
  := by
  simp only [matchLoop, if_neg h42]

theorem matchLoop_cons (h42 : c ≠ 42) :
  matchLoop star (c :: pattern) (d :: text)
    = if c ≠ 63 ∧ foldCase c ≠ foldCase d then (false, star, d :: text)
      else matchLoop star pattern text
  := by
  simp only [matchLoop, if_neg h42]

theorem matchLoop_true (pattern text : List UInt8) :
  (matchLoop true pattern text).2.1 = true
  := by
  induction pattern generalizing text with
  | nil => rfl
  | cons c pattern ih =>
    by_cases h42 : c = 42
    · subst h42
      cases pattern with
      | nil => rfl
      | cons d pattern =>
        rw [matchLoop_star_cons]
        apply ih
    · cases text with
      | nil => rw [matchLoop_nil h42]
      | cons e text =>
        rw [matchLoop_cons h42]
        split
        · rfl
        · apply ih

theorem match_of_stars (h : pattern.all (· = 42)) (star : Bool) (text text' : List UInt8) :
  (matchLoop star (42 :: pattern) text).1 = true ∧ wildcardMatchCi (42 :: pattern) text' = true
  := by
  induction pattern generalizing star text text' with
  | nil => exact ⟨rfl, rfl⟩
  | cons c pattern ih =>
    rw [all_cons, Bool.and_eq_true, decide_eq_true_eq] at h
    obtain ⟨rfl, h⟩ := h
    constructor
    · rw [matchLoop_star_cons]
      apply (ih h _ _ []).1
    · rw [wildcardMatchCi, if_pos rfl, if_neg (List.cons_ne_nil _ _), List.any_eq_true]
      use text'
      exact ⟨mem_tailsToNul_self text', (ih h star [] text').2⟩

theorem matchLoop_eq_of_simpleAfterStar {rest : List UInt8} (hsimple : simpleAfterStar pattern)
    (hpattern : 0 ∉ pattern) (htext : 0 ∉ text) :
  (matchLoop star (42 :: pattern) text).1 = wildcardMatchCi (42 :: pattern) (text ++ 0 :: rest)
  := by
  fun_induction simpleAfterStar pattern generalizing star text with
  | case1 => rfl
  | case2 c =>
    obtain ⟨hloop, hwild⟩ := @match_of_stars [c] (by simpa using hsimple) star text
      (text ++ 0 :: rest)
    rw [hloop, hwild]
  | case3 c d pattern ih =>
    by_cases hstars : (c :: d :: pattern).all (· = 42) = true
    · obtain ⟨hloop, hwild⟩ := match_of_stars hstars star text (text ++ 0 :: rest)
      rw [hloop, hwild]
    · rw [Bool.eq_false_iff.mpr hstars, Bool.false_or, Bool.and_eq_true, decide_eq_true_eq] at hsimple
      obtain ⟨⟨h42, h63, h32, rfl⟩, hsimple⟩ := hsimple
      rw [mem_cons, not_or, mem_cons, not_or] at hpattern
      have h0 : c ≠ 0 := Ne.symm hpattern.1
      rw [matchLoop_star_cons, wildcardMatchCi, if_pos rfl, if_neg (cons_ne_nil _ _),
        any_wildcardMatchCi h42 h63 h0 h32 htext]
      cases hdrop : text.dropWhile fun e => foldCase c ≠ foldCase e with
      | nil => rw [matchLoop_nil h42]
      | cons e text' =>
        have hfold : foldCase c = foldCase e := by
          have hhead := List.head?_dropWhile_not (fun e => decide (foldCase c ≠ foldCase e)) text
          rw [hdrop] at hhead
          simpa using hhead
        have htext' : 0 ∉ text' := by
          intro hmem
          apply htext
          apply (dropWhile_suffix _).subset
          rw [hdrop]
          apply mem_cons_of_mem _ hmem
        rw [matchLoop_cons h42, if_neg (fun h => h.2 hfold)]
        apply ih hsimple hpattern.2.2 htext'

end

theorem matchLoop_eq_of_simplePattern {pattern text rest : List UInt8} (hsimple : simplePattern pattern)
    (hpattern : 0 ∉ pattern) (htext : 0 ∉ text) :
  ((matchLoop false pattern text).1
      && ((matchLoop false pattern text).2.1 || (matchLoop false pattern text).2.2.isEmpty))
    = wildcardMatchCi pattern (text ++ 0 :: rest)
  := by
  induction pattern generalizing text with
  | nil =>
    cases text with
    | nil => rfl
    | cons e text =>
      rw [mem_cons, not_or] at htext
      simp only [matchLoop, wildcardMatchCi, cons_append, headD_cons, isEmpty_cons,
        Bool.or_false, Bool.and_false]
      symm
      apply decide_eq_false (Ne.symm htext.1)
  | cons c pattern ih =>
    rw [mem_cons, not_or] at hpattern
    by_cases h42 : c = 42
    · subst h42
      have hstar : (matchLoop false (42 :: pattern) text).2.1 = true := by
        cases pattern with
        | nil => rfl
        | cons d pattern =>
          rw [matchLoop_star_cons]
          apply matchLoop_true
      rw [hstar, Bool.true_or, Bool.and_true]
      apply matchLoop_eq_of_simpleAfterStar _ hpattern.2 htext
      rwa [simplePattern, if_pos rfl] at hsimple
    · rw [simplePattern, if_neg h42, Bool.and_eq_true, decide_eq_true_eq] at hsimple
      obtain ⟨h32, hsimple⟩ := hsimple
      have hzero := foldCase_ne (Ne.symm hpattern.1) h32
      cases text with
      | nil =>
        rw [matchLoop_nil h42, Bool.false_and]
        symm
        by_cases h63 : c = 63
        · rw [h63, wildcardMatchCi, if_neg (by decide), if_pos rfl]; rfl
        · apply wildcardMatchCi_of_ne h42 h63 (0 :: rest) hzero
      | cons e text =>
        rw [mem_cons, not_or] at htext
        rw [matchLoop_cons h42]
        by_cases h63 : c = 63
        · rw [if_neg (fun h => h.1 h63), ih hsimple hpattern.2 htext.2, h63, wildcardMatchCi,
            if_neg (by decide), if_pos rfl, cons_append, headD_cons, tail_cons,
            decide_eq_true (Ne.symm htext.1), Bool.true_and]
        · by_cases hfold : foldCase c = foldCase e
          · rw [if_neg (fun h => h.2 hfold), ih hsimple hpattern.2 htext.2]
            symm
            apply wildcardMatchCi_of_eq h42 h63 (e :: _) hfold
          · rw [if_pos ⟨h63, hfold⟩, Bool.false_and]
            symm
            apply wildcardMatchCi_of_ne h42 h63 (e :: _) hfold

theorem entryMatches_eq_of_simple (hsimple : simplePattern pattern.bytes) (d : Dirent) :
  entryMatches pattern d.name = wildcardMatchCi pattern.bytes d.text
  := by
  apply matchLoop_eq_of_simplePattern hsimple pattern.zero_notMem d.name.zero_notMem

theorem testsRight_of_simple (hsimple : simplePattern pattern.bytes)
    (hlength : pattern.length ≤ patternSize - 1) (found : Bool) (entries : List Dirent) :
  TestsRight stat directory pattern found entries
  := by
  intro before d after _ _
  rw [entryTest, CString.take_of_length_le hlength]
  split
  · apply entryMatches_eq_of_simple hsimple
  · rfl

/-! ### The directory and the pattern -/

theorem copyPath_start (size : ℕ) (src dst : List UInt8) :
  dst <+: copyPath size src dst
  := by
  induction src generalizing dst with
  | nil => apply prefix_refl
  | cons c src ih =>
    simp only [copyPath]
    generalize (if c = 92 then 47 else c) = ch
    split_ifs
    · apply ih
    · apply ( prefix_append _ _).trans (ih _)
    · apply prefix_refl

theorem copyPath_spec (size : ℕ) (src dst : List UInt8) (hsrc : 0 ∉ src) (hdst : 0 ∉ dst) :
  (copyPath size src dst).length ≤ max dst.length size ∧ 0 ∉ copyPath size src dst
  := by
  induction src generalizing dst with
  | nil => exact ⟨Nat.le_max_left _ _, hdst⟩
  | cons c src ih =>
    rw [mem_cons, not_or] at hsrc
    have hch : (0 : UInt8) ≠ if c = 92 then 47 else c := by
      split
      · decide
      · apply hsrc.1
    simp only [copyPath]
    generalize (if c = 92 then 47 else c) = ch at hch ⊢
    split_ifs with hroom hslash
    · apply ih dst hsrc.2 hdst
    · obtain ⟨hlength, hzero⟩ := ih (dst ++ [ch]) hsrc.2 (by
        rw [mem_append, mem_singleton, not_or]
        exact ⟨hdst, hch⟩)
      rw [length_append, length_singleton] at hlength
      exact ⟨by omega, hzero⟩
    · exact ⟨Nat.le_max_left _ _, hdst⟩

theorem copyPath_path {size : ℕ} {src dst : List UInt8} (hsize : dst.length ≤ size) (hsrc : 0 ∉ src)
    (hdst : 0 ∉ dst) (hslash : 47 ∈ dst) :
  47 ∈ (CString.ofBytes (copyPath size src dst)).bytes
    ∧ (CString.ofBytes (copyPath size src dst)).length ≤ size
  := by
  obtain ⟨hlength, hzero⟩ := copyPath_spec size src dst hsrc hdst
  rw [CString.length, CString.ofBytes_bytes hzero]
  use (copyPath_start size src dst).subset hslash
  omega

def afterRoot : List UInt8 → Option (List UInt8)
  | _ :: 58 :: src =>
    match src with
    | c :: rest => some (if isSlash c then rest else src)
    | [] => some src
  | c :: src => if isSlash c then some ((c :: src).dropWhile isSlash) else none
  | [] => none

theorem suffix_of_afterRoot {src rest : List UInt8} (h : afterRoot src = some rest) :
  rest <:+ src
  := by
  revert h
  fun_cases afterRoot src with
  | case1 d c src =>
    rintro ⟨⟩
    split
    · exact ⟨[d, 58, c], rfl⟩
    · exact ⟨[d, 58], rfl⟩
  | case2 d => simp +contextual
  | case3 c src _ hc =>
    rintro ⟨⟩
    apply dropWhile_suffix
  | case4 => nofun
  | case5 => nofun

theorem wineResolvePath_eq (cwd src : CString) (size : ℕ) :
  wineResolvePath cwd src size = .ofBytes (match afterRoot src.bytes with
    | some rest => copyPath size rest [47]
    | none => wineResolvePath.relative cwd size src.bytes)
  := by
  rw [wineResolvePath]
  generalize src.bytes = l
  fun_cases afterRoot l <;> grind

theorem wineResolvePath_path (cwd src : CString) :
  47 ∈ (wineResolvePath cwd src resolvedSize).bytes
    ∧ (wineResolvePath cwd src resolvedSize).length ≤ resolvedSize
  := by
  rw [wineResolvePath_eq]
  split
  case h_1 rest hrest =>
    apply copyPath_path (by decide) _ (by decide) (by decide)
    intro hmem
    apply src.zero_notMem ((suffix_of_afterRoot hrest).subset hmem)
  case h_2 =>
    have htake : 0 ∉ cwd.bytes.take (resolvedSize - 1) := by
      intro hmem
      apply cwd.zero_notMem (mem_of_mem_take hmem)
    have hlength : (cwd.bytes.take (resolvedSize - 1)).length ≤ resolvedSize - 1 :=
      length_take_le ..
    rw [wineResolvePath.relative]
    by_cases hlast : (cwd.bytes.take (resolvedSize - 1)).getLast? = some 47
    · simp only [if_pos hlast]
      apply copyPath_path (Nat.le_trans hlength (Nat.sub_le _ _)) src.zero_notMem htake
      apply mem_of_getLast? hlast
    · simp only [if_neg hlast]
      apply copyPath_path _ src.zero_notMem
      · rw [mem_append, not_or]
        exact ⟨htake, by decide⟩
      · apply mem_append_right
        apply mem_singleton_self
      · rw [length_append, length_singleton]
        rw [resolvedSize] at hlength ⊢
        omega

def searchPath (cwd lpFileName : CString) : CString × CString :=
  (splitLastSlash (wineResolvePath cwd lpFileName resolvedSize)).getD (.ofBytes [], .ofBytes [])

theorem splitLastSlash_wineResolvePath (cwd lpFileName : CString) :
  splitLastSlash (wineResolvePath cwd lpFileName resolvedSize) = some (searchPath cwd lpFileName)
  := by
  obtain ⟨hslash, -⟩ := wineResolvePath_path cwd lpFileName
  simp [searchPath, splitLastSlash, if_pos hslash]

theorem searchPath_directory_length (cwd lpFileName : CString) :
  (searchPath cwd lpFileName).1.length ≤ 1023
  := by
  obtain ⟨hslash, hlength⟩ := wineResolvePath_path cwd lpFileName
  simp only [searchPath, splitLastSlash, if_pos hslash, getD_some, CString.take_length]
  have hsize : resolvedSize = 1024 := rfl
  omega

def directoryEntries (opendir : CString → Option (Ptr × List Dirent)) (directory : CString) :
    List Dirent :=
  match opendir (if directory = .ofBytes [] then .ofBytes [47] else directory) with
  | none => []
  | some (_, entries) => entries

/-- A search of the directory can be carried out: there is memory for it, the directory is not the
root, and a handle is free. -/
structure Served (s : FindState) (find : Ptr) (directory : CString) : Prop where
  find_ne : find ≠ 0
  directory_ne : directory ≠ .ofBytes []
  handle : ∃ i : Fin handleTableSize, 3 ≤ i.val ∧ (s.handles i).refCount = 0

/-- What `opendir` does according to its documentation: there is no directory with an empty path, the
result is `NULL` on failure only, and the names of the entries of a directory are distinct. -/
structure OpensDirectories (opendir : CString → Option (Ptr × List Dirent)) : Prop where
  empty : opendir (.ofBytes []) = none
  ne_zero : ∀ {path dir entries}, opendir path = some (dir, entries) → dir ≠ 0
  nodup : ∀ {path dir entries}, opendir path = some (dir, entries) → (entries.map Dirent.name).Nodup

section

variable {opendir : CString → Option (Ptr × List Dirent)} {cwd lpFileName : CString}
  {find lpFindFileData : Ptr} {s : FindState} {n : ℕ}

theorem directoryEntries_nodup (hopen : OpensDirectories opendir) (directory : CString) :
  ((directoryEntries opendir directory).map Dirent.name).Nodup
  := by
  rw [directoryEntries]
  split
  case h_1 => apply nodup_nil
  case h_2 dir entries h => apply hopen.nodup h

theorem findFiles_of_not_served (hopen : OpensDirectories opendir) (hwild : hasWildcard lpFileName)
    (hserved : ¬ Served s find (searchPath cwd lpFileName).1) :
  findFiles stat opendir cwd find lpFileName lpFindFileData n s = []
  := by
  have hfirst : (findFirstFileA stat opendir cwd find lpFileName lpFindFileData s).1 = none := by
    have hsplit := splitLastSlash_wineResolvePath cwd lpFileName
    rw [findFirstFileA]
    split
    · rfl
    · by_cases hfind : find = 0
      · simp only [if_pos hfind]
      · simp only [if_neg hfind, hsplit]
        cases hdir : opendir (searchPath cwd lpFileName).1 with
        | none => rfl
        | some p =>
          have hfull : (wineHandleAlloc s.handles handleTypeHglobal find).1 = 0 := by
            rcases wineHandleAlloc_cases s.handles handleTypeHglobal find with ⟨i, h3, h0, -⟩ | ⟨-, he⟩
            · apply absurd _ hserved
              refine ⟨hfind, ?_, i, h3, h0⟩
              intro hempty
              rw [hempty, hopen.empty] at hdir
              cases hdir
            · rw [he]
          simp only
          cases findHandleNextMatch stat (searchPath cwd lpFileName).1
              ((searchPath cwd lpFileName).2.take (patternSize - 1)) p.2 with
          | none => rfl
          | some q => simp only [if_pos hfull]
  rw [findFiles]
  rcases hresult : findFirstFileA stat opendir cwd find lpFileName lpFindFileData s with ⟨_ | r, s'⟩
  · rfl
  · rw [hresult] at hfirst
    cases hfirst

theorem findFiles_of_served (hopen : OpensDirectories opendir) (hwild : hasWildcard lpFileName)
    (hdata : lpFindFileData ≠ 0) (hserved : Served s find (searchPath cwd lpFileName).1)
    (hn : (directoryEntries opendir (searchPath cwd lpFileName).1).length ≤ n) :
  findFiles stat opendir cwd find lpFileName lpFindFileData n s
    = selected stat (searchPath cwd lpFileName).1 (searchPath cwd lpFileName).2 false
      (directoryEntries opendir (searchPath cwd lpFileName).1)
  := by
  have hsplit := splitLastSlash_wineResolvePath cwd lpFileName
  have hlength := searchPath_directory_length cwd lpFileName
  rcases hpath : searchPath cwd lpFileName with ⟨directory, pattern⟩
  rw [hpath] at hsplit hlength hserved hn
  simp only [directoryEntries, if_neg hserved.directory_ne] at hn ⊢
  simp only [findFiles, findFirstFileA, if_neg hdata, if_neg hserved.find_ne, if_pos hwild, hsplit]
  cases hdir : opendir directory with
  | none => rfl
  | some p =>
    obtain ⟨dir, entries⟩ := p
    rw [hdir] at hn
    have hmatch := @findHandleNextMatch_eq stat directory pattern entries hlength _ hn
    simp only
    cases hnext : findHandleNextMatch stat directory (pattern.take (patternSize - 1)) entries with
    | none =>
      rw [hnext] at hmatch
      simp only [hmatch]
    | some q =>
      obtain ⟨data, rest⟩ := q
      rw [hnext] at hmatch
      obtain ⟨hrest, hselected⟩ := hmatch
      obtain ⟨j, hj3, hj0⟩ := hserved.handle
      rcases wineHandleAlloc_cases s.handles handleTypeHglobal find with ⟨i, h3, -, he⟩ | ⟨hall, -⟩
      case inr => apply absurd hj0 (hall j hj3)
      case inl =>
        have hi : i.val ≠ 0 := by omega
        simp only [he, if_neg hi, hselected]
        congr 1
        apply findNextFiles_eq_selected _ hdata hrest
        constructor
        use find, dir
        refine ⟨?_, hopen.ne_zero hdir, update_self .., update_self ..⟩
        have hmod : i.val % 2 ^ 32 = i.val := by
          apply Nat.mod_eq_of_lt
          apply Nat.lt_trans i.isLt
          decide
        have hlive : ((update s.handles i ⟨i.val, handleTypeHglobal, 1, find⟩) i).refCount
            ≠ 0 := by
          rw [update_self]
          change (1 : UInt8) ≠ 0
          decide
        obtain ⟨hget, htype⟩ := get_of_live hlive
        rw [findObject, hmod, hget, htype, update_self]
        simp [if_neg hserved.find_ne]

/-- An enumeration returns the entries of the directory that have a status and match the pattern, each
once and in the order of the directory, exactly when a search that can be carried out gets the right
answer for each entry that has a status, and one that cannot be carried out has nothing to return. -/
theorem findFiles_eq_expected_iff
    (hopen : OpensDirectories opendir) (hwild : hasWildcard lpFileName) (hdata : lpFindFileData ≠ 0)
    (hn : (directoryEntries opendir (searchPath cwd lpFileName).1).length ≤ n) :
  findFiles stat opendir cwd find lpFileName lpFindFileData n s
      = expected stat (searchPath cwd lpFileName).1 (searchPath cwd lpFileName).2
        (directoryEntries opendir (searchPath cwd lpFileName).1)
    ↔ (Served s find (searchPath cwd lpFileName).1 →
        TestsRight stat (searchPath cwd lpFileName).1 (searchPath cwd lpFileName).2 false
          (directoryEntries opendir (searchPath cwd lpFileName).1))
      ∧ (¬ Served s find (searchPath cwd lpFileName).1 →
        ∀ d ∈ directoryEntries opendir (searchPath cwd lpFileName).1,
          wildcardMatchCi (searchPath cwd lpFileName).2.bytes d.text →
          entryData stat (searchPath cwd lpFileName).1 d = none)
  := by
  by_cases hserved : Served s find (searchPath cwd lpFileName).1
  · simp only [hserved, not_true_eq_false, false_implies, and_true, true_implies]
    rw [findFiles_of_served hopen hwild hdata hserved hn]
    apply selected_eq_expected_iff (directoryEntries_nodup hopen _)
  · simp only [hserved, not_false_eq_true, false_implies, true_and, true_implies]
    rw [findFiles_of_not_served hopen hwild hserved, eq_comm, expected, filterMap_eq_nil_iff]
    apply forall₂_congr
    intro d _
    cases wildcardMatchCi (searchPath cwd lpFileName).2.bytes d.text with
    | false => simp
    | true => simp

end

/-! ### Enumerations of a directory -/

def sampleEntries : List Dirent :=
  [⟨.ofString "a.txt", [], by decide, by decide⟩, ⟨.ofString "b.c.txt", [], by decide, by decide⟩]

def sampleOpendir (path : CString) : Option (Ptr × List Dirent) :=
  if path = .ofString "/d" then some (1, sampleEntries) else none

theorem sampleOpendir_opensDirectories :
  OpensDirectories sampleOpendir
  := by
  constructor
  · decide
  all_goals
    intro path dir entries h
    obtain ⟨-, h⟩ := ite_none_right_eq_some.mp h
    cases h
    decide

def sampleStat (_ : CString) : Option FileStat := some ⟨false, 10⟩

def sampleFindState : FindState where
  handles := wineHandleManagerRuntimeInit
  findAt _ := ⟨0, .ofBytes [], .ofBytes []⟩
  entries _ := []
  closedDirs := []
  freed := []

theorem served_sample :
  Served sampleFindState 100 (.ofString "/d")
  := by
  constructor
  · decide
  · decide
  · use ⟨3, by decide⟩
    decide

/-- All files of the directory are found with `*.*`. -/
theorem findFiles_eq_expected_sample :
  searchPath (.ofString "/") (.ofString "C:\\d\\*.*") = (.ofString "/d", .ofString "*.*")
    ∧ findFiles sampleStat sampleOpendir (.ofString "/") 100 (.ofString "C:\\d\\*.*") 200 2 sampleFindState
      = expected sampleStat (searchPath (.ofString "/") (.ofString "C:\\d\\*.*")).1
        (searchPath (.ofString "/") (.ofString "C:\\d\\*.*")).2
        (directoryEntries sampleOpendir (searchPath (.ofString "/") (.ofString "C:\\d\\*.*")).1)
  := by
  have hpath : searchPath (.ofString "/") (.ofString "C:\\d\\*.*")
      = (.ofString "/d", .ofString "*.*") := by
    decide
  refine ⟨hpath, ?_⟩
  apply (findFiles_eq_expected_iff sampleOpendir_opensDirectories (by decide) (by decide) _).mpr
  · rw [hpath]
    constructor
    · intro _
      apply testsRight_of_simple
      · decide
      · decide
    · intro h
      apply absurd served_sample h
  · rw [hpath]
    decide

/-- Of the files `a.txt` and `b.c.txt`, which both match `*.txt`, the first alone is returned:
`FindNextFileA` takes the first dot of `b.c.txt` for the one of the pattern. -/
theorem findFiles_ne_expected :
  OpensDirectories sampleOpendir
    ∧ searchPath (.ofString "/") (.ofString "C:\\d\\*.txt") = (.ofString "/d", .ofString "*.txt")
    ∧ findFiles sampleStat sampleOpendir (.ofString "/") 100 (.ofString "C:\\d\\*.txt") 200 2 sampleFindState
      = [⟨fileAttributeNormal, 0, 10, .ofString "a.txt"⟩]
    ∧ expected sampleStat (.ofString "/d") (.ofString "*.txt")
        (directoryEntries sampleOpendir (.ofString "/d"))
      = [⟨fileAttributeNormal, 0, 10, .ofString "a.txt"⟩, ⟨fileAttributeNormal, 0, 10, .ofString "b.c.txt"⟩]
  := by
  refine ⟨sampleOpendir_opensDirectories, ?_, ?_, ?_⟩
  · decide
  · decide +kernel
  · decide

end Kernel32
