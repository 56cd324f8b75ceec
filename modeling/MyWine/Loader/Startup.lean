import MyWine.Loader.ImageMapper

/-!
# The low memory of a PE32 process

The `i386` build puts four mappings below `0x00810000`, each from a different file: the image at
`0x00400000` (`map_image_at`), the guest stack at `0x00500000` (`setup_stack`), the dispatcher's
stack after the image (`setup_unix_stack`) and the signal stack at `0x00800000`
(`install_crash_signal_handlers`).  All but the first are mapped with `MAP_FIXED`, which replaces
whatever is mapped already.

`setup_unix_stack` takes the guest stack to have `512` KiB, while `setup_stack` gives it what the
headers ask for, and neither of them compares the guest stack with the image.  `startup` follows
the mappings in their order, and `lowMemory_apart_iff` says for which headers they are apart.
-/

open Pe

namespace Loader

open List

def unixStackSize : ℕ := 128 * 1024

def guestStackBase : ℕ := 0x00500000

def guestStackSize : ℕ := 512 * 1024

def sigStackBase : ℕ := 0x00800000

def sigStackSize : ℕ := 65536

/-- A mapping with `MAP_FIXED` fails only if it is empty or does not end inside the address
space. -/
def mapFixed (r : Region) : Option Region :=
  if r.size = 0 ∨ Build.i386.ptrLimit ≤ r.stop then none else some r

def stackCommit (nt : ImageNtHeaders) : ℕ :=
  let commit := nt.optionalHeader.sizeOfStackCommit.toNat
  let commit := if commit = 0 then pageSize else commit
  let commit := if commit < 512 * 1024 then 512 * 1024 else commit
  pageRoundUp commit % 2 ^ 64

def setupStack (nt : ImageNtHeaders) : Option Region :=
  mapFixed ⟨guestStackBase, Build.i386.wrap (stackCommit nt)⟩

def unixStackBase (g : MainImage) : Ptr :=
  let guestStackEnd := guestStackBase + guestStackSize
  if g.imageBase ≠ 0 ∧ g.imageSize ≠ 0 then
    let baseAddr := Build.i386.wrap (pageRoundUp (Build.i386.wrap (g.imageBase + g.imageSize)))
    if baseAddr < guestStackEnd ∧ guestStackBase < Build.i386.wrap (baseAddr + unixStackSize) then
      guestStackEnd
    else baseAddr
  else 0x00600000

def setupUnixStack (g : MainImage) : Option Region :=
  if sigStackBase < Build.i386.wrap (unixStackBase g + unixStackSize) then none
  else mapFixed ⟨unixStackBase g, unixStackSize⟩

def signalStack : Region := ⟨sigStackBase, sigStackSize⟩

/-- The mappings in the low memory. -/
inductive Owner where
  | image
  | guestStack
  | unixStack
  | signalStack
  deriving DecidableEq, Repr

/-- A process at the entry of the guest. -/
structure Process where
  base : Ptr
  nt : ImageNtHeaders
  guestStack : Region
  unixStack : Region

def Process.mappings (p : Process) : List (Owner × Region) :=
  [(.image, pages p.base (peSizeOfImage p.nt)), (.guestStack, p.guestStack),
    (.unixStack, p.unixStack), (.signalStack, signalStack)]

/-- `main` of `pe32_entry.c`, up to the entry of the guest.  Its other steps map nothing in the low
memory. -/
def startup (k : Kernel .i386) (used : List Region) (path : CString) (file : Option File)
    (g : MainImage) : Option Process :=
  match mapImageAt k used path file 0 g with
  | (none, _) => none
  | (some (img, nt), g) =>
    if !peIsPe32 nt then none
    else
      let g := { g with imageBase := img.base, imageSize := peSizeOfImage nt }
      match setupStack nt, setupUnixStack g with
      | some guestStack, some unixStack => some ⟨img.base, nt, guestStack, unixStack⟩
      | _, _ => none

/-- The headers fit the fixed addresses: the image ends before the guest stack, with room for the
dispatcher's stack unless the guest stack has its usual size, or starts after it. -/
def FitsLowMemory (base : ℕ) (nt : ImageNtHeaders) : Prop :=
  let imageEnd := base + peSizeOfImage nt
  let commit := nt.optionalHeader.sizeOfStackCommit.toNat
  imageEnd ≤ 0x004E0000 ∧ commit ≤ 0x00300000 ∨
    imageEnd ≤ 0x00500000 ∧ commit ≤ 0x00080000 ∨
    0x00580000 ≤ base ∧ guestStackBase + commit ≤ base

variable {g : MainImage}

theorem startup_spec {k : Kernel .i386} {used : List Region} {path : CString} {file : Option File}
    {p : Process} (h : startup k used path file g = some p) :
  Usable .i386 (pages p.base (peSizeOfImage p.nt)) ∧ peSizeOfImage p.nt ≠ 0 ∧
    p.nt.optionalHeader.sizeOfStackCommit.toNat < 2 ^ 32 ∧ setupStack p.nt = some p.guestStack ∧
    ∃ g, g.imageBase = p.base ∧ g.imageSize = peSizeOfImage p.nt ∧
      setupUnixStack g = some p.unixStack
  := by
  rw [startup] at h
  split at h
  · cases h
  · next img nt g' hmap =>
    obtain ⟨f, hdr, -, hparse, rfl, hparsed⟩ := mapImageAt_spec hmap
    obtain ⟨hsize, -, -, hreserve, -⟩ := mapParsed_spec hparsed
    split at h
    · cases h
    · next hpe32 =>
      rw [Bool.not_eq_true, Bool.not_eq_false'] at hpe32
      have hcommit := sizeOfStackCommit_lt_of_pe32 (parseHeaders_spec hparse).2.1 hpe32
      simp only at h
      split at h
      · next hguest hunix =>
        cases h
        exact ⟨(reserveImage_spec hreserve).1, hsize, hcommit, hguest, _, rfl, rfl, hunix⟩
      · cases h

theorem mapFixed_spec {r r' : Region} (h : mapFixed r = some r') :
  r' = r ∧ 0 < r.size ∧ r.stop < 2 ^ 32
  := by
  rw [mapFixed] at h
  split_ifs at h with hbad
  have hlimit : Build.i386.ptrLimit = 2 ^ 32 := rfl
  rw [hlimit] at hbad
  cases h
  use rfl
  omega

theorem stackCommit_eq {nt : ImageNtHeaders}
    (hlt : nt.optionalHeader.sizeOfStackCommit.toNat < 2 ^ 32) :
  stackCommit nt = pageRoundUp (max nt.optionalHeader.sizeOfStackCommit.toNat guestStackSize)
  := by
  have hpage : pageSize < guestStackSize := by decide
  have hround :
      pageRoundUp (max nt.optionalHeader.sizeOfStackCommit.toNat guestStackSize) < 2 ^ 64 := by
    rw [pageRoundUp, guestStackSize]
    omega
  rw [stackCommit, ← guestStackSize, ← Nat.mod_eq_of_lt hround]
  generalize guestStackSize = size at *
  split_ifs
  · rw [max_eq_right (by omega)]
  · rw [max_eq_right (by omega)]
  · rw [max_eq_left (by omega)]

theorem setupStack_spec {nt : ImageNtHeaders} {r : Region}
    (hlt : nt.optionalHeader.sizeOfStackCommit.toNat < 2 ^ 32) (h : setupStack nt = some r) :
  r.start = guestStackBase ∧
    r.size = pageRoundUp (max nt.optionalHeader.sizeOfStackCommit.toNat guestStackSize)
  := by
  obtain ⟨rfl, hpos, -⟩ := mapFixed_spec h
  have hlimit : Build.i386.ptrLimit = 2 ^ 32 := rfl
  use rfl
  simp only [stackCommit_eq hlt, Build.wrap, hlimit] at hpos ⊢
  rw [pageRoundUp, guestStackSize] at hpos ⊢
  omega

/-- The dispatcher's stack follows the image, or the place where the guest stack is taken to
end. -/
theorem unixStackBase_eq (husable : Usable .i386 (pages g.imageBase g.imageSize))
    (hsize : g.imageSize ≠ 0) :
  unixStackBase g =
    if (pages g.imageBase g.imageSize).stop < guestStackBase + guestStackSize ∧
        guestStackBase < (pages g.imageBase g.imageSize).stop + unixStackSize then
      guestStackBase + guestStackSize
    else (pages g.imageBase g.imageSize).stop
  := by
  obtain ⟨haligned, hne, hlt⟩ := husable
  replace haligned : pageSize ∣ g.imageBase := haligned
  have hlimit : Build.i386.ptrLimit = 2 ^ 32 := rfl
  have hle := le_pageRoundUp g.imageSize
  have hstop : (pages g.imageBase g.imageSize).stop = g.imageBase + pageRoundUp g.imageSize := rfl
  have hend : Build.i386.wrap (g.imageBase + g.imageSize) = g.imageBase + g.imageSize := by
    apply Build.wrap_of_lt
    omega
  rw [unixStackBase, if_pos ⟨hne, hsize⟩]
  simp only [hend, pageRoundUp_add haligned, ← hstop, Build.wrap_of_lt hlt]
  generalize (pages g.imageBase g.imageSize).stop = imageEnd at *
  rcases lt_or_ge imageEnd (guestStackBase + guestStackSize) with hlow | hhigh
  · have hroom : Build.i386.wrap (imageEnd + unixStackSize) = imageEnd + unixStackSize := by
      apply Build.wrap_of_lt
      rw [guestStackBase, guestStackSize] at hlow
      rw [hlimit, unixStackSize]
      omega
    rw [hroom]
  · rw [if_neg fun h => h.1.not_ge hhigh, if_neg fun h => h.1.not_ge hhigh]

theorem setupUnixStack_spec {r : Region} (h : setupUnixStack g = some r) :
  r.start = unixStackBase g ∧ r.size = unixStackSize ∧ r.stop ≤ sigStackBase
  := by
  rw [setupUnixStack] at h
  split_ifs at h with hroom
  obtain ⟨rfl, -, hlt⟩ := mapFixed_spec h
  have hstop : Build.i386.wrap (unixStackBase g + unixStackSize) = unixStackBase g + unixStackSize
    := Build.wrap_of_lt hlt
  rw [hstop, not_lt] at hroom
  exact ⟨rfl, rfl, hroom⟩

/-- The image, the guest stack, the dispatcher's stack and the signal stack are apart for the sizes
that fit. -/
theorem mappings_apart_iff {k : Kernel .i386} {used : List Region} {path : CString}
    {file : Option File} {p : Process} (h : startup k used path file g = some p) :
  (p.mappings.map Prod.snd).Pairwise Region.Apart ↔ FitsLowMemory p.base p.nt
  := by
  obtain ⟨husable, hsize, hcommit, hguest, g, hbase, hgsize, hunix⟩ := startup_spec h
  obtain ⟨hgstart, hgsize'⟩ := setupStack_spec hcommit hguest
  obtain ⟨hustart, husize, hustop⟩ := setupUnixStack_spec hunix
  rw [unixStackBase_eq (by rw [hbase, hgsize]; apply husable) (by rw [hgsize]; apply hsize), hbase,
    hgsize] at hustart
  obtain ⟨⟨m, hm⟩, -, -⟩ := husable
  replace hm : p.base = pageSize * m := hm
  simp only [Process.mappings, map_cons, map_nil, pairwise_cons, mem_cons,
    not_mem_nil, or_false, forall_eq_or_imp, forall_eq, false_imp_iff, implies_true,
    and_true, List.Pairwise.nil, Region.Apart, Region.stop, FitsLowMemory] at hustart hustop ⊢
  simp only [pages, signalStack, hgstart, hgsize', husize, hm, pageRoundUp, pageSize, guestStackBase,
    guestStackSize, unixStackSize, sigStackBase, sigStackSize] at hustart hustop ⊢
  generalize p.unixStack.start = u at *
  generalize peSizeOfImage p.nt = n at *
  generalize p.nt.optionalHeader.sizeOfStackCommit.toNat = c at *
  split_ifs at hustart
  · omega
  · omega

/-- In every process that reaches the entry of the guest, the image and the stacks are pairwise
apart, so that no mapping replaced pages of another one, exactly when the headers fit. -/
theorem lowMemory_apart_iff (k : Kernel .i386) (used : List Region) (path : CString)
    (file : Option File) (g : MainImage) (s : Space Owner) {p : Process}
    (h : startup k used path file g = some p) :
  (p.mappings.map Prod.snd).Pairwise Region.Apart ∧
      (∀ q ∈ p.mappings, (s.mapAll p.mappings).Holds q.1 q.2) ↔
    FitsLowMemory p.base p.nt
  := by
  obtain ⟨-, hsize, hcommit, hguest, g, -, -, hunix⟩ := startup_spec h
  have himage : 0 < (pages p.base (peSizeOfImage p.nt)).size := by
    apply lt_of_lt_of_le (Nat.pos_of_ne_zero hsize)
    apply le_pageRoundUp
  have hguest : 0 < p.guestStack.size := by
    rw [(setupStack_spec hcommit hguest).2]
    apply lt_of_lt_of_le _ (le_pageRoundUp _)
    apply lt_max_of_lt_right
    decide
  have hunix : 0 < p.unixStack.size := by
    rw [(setupUnixStack_spec hunix).2.1]
    decide
  have hkeys : (p.mappings.map Prod.fst).Nodup := by
    simp only [Process.mappings, map_cons, map_nil]
    decide
  have hpos : ∀ q ∈ p.mappings, 0 < q.2.size := by
    simp only [Process.mappings, forall_mem_cons]
    exact ⟨himage, hguest, hunix, by decide, by simp⟩
  rw [Space.forall_holds_mapAll_iff hkeys hpos, and_self_iff, mappings_apart_iff h]

def bareFile (sizeOfImage stackCommit : ℕ) : File :=
  .ofFields 312 (pe32Headers sizeOfImage 312 ++ [(164, 4, stackCommit)])

def bareStartup (sizeOfImage stackCommit : ℕ) : Option Process :=
  startup (.lenient .i386) [] (.ofString "a.exe") (some (bareFile sizeOfImage stackCommit))
    .init

/-- An image of `64` KiB with the usual stack. -/
theorem lowMemory_apart_small :
  ∃ p, bareStartup 0x10000 0x1000 = some p ∧ FitsLowMemory p.base p.nt ∧
    (p.mappings.map Prod.snd).Pairwise Region.Apart
  := by
  have hfits : (bareStartup 0x10000 0x1000).map
      (fun p => decide (p.base + peSizeOfImage p.nt ≤ 0x004E0000 ∧
        p.nt.optionalHeader.sizeOfStackCommit.toNat ≤ 0x00300000)) = some true := by
    decide +kernel
  obtain ⟨p, hp, hfits⟩ := Option.map_eq_some_iff.mp hfits
  have hfits : FitsLowMemory p.base p.nt := Or.inl (of_decide_eq_true hfits)
  use p, hp, hfits
  apply ((lowMemory_apart_iff _ _ _ _ _ (fun _ => none) hp).mpr hfits).1

/-- The guest stack replaces pages of an image that ends at `0x00619000`. -/
theorem lowMemory_overlaps :
  ∃ p, bareStartup 0x219000 0x1000 = some p ∧
    ¬ (p.mappings.map Prod.snd).Pairwise Region.Apart
  := by
  have hregions : (bareStartup 0x219000 0x1000).map
      (fun p => decide ((p.mappings.map Prod.snd).Pairwise Region.Apart)) = some false := by
    decide +kernel
  obtain ⟨p, hp, hregions⟩ := Option.map_eq_some_iff.mp hregions
  exact ⟨p, hp, of_decide_eq_false hregions⟩

end Loader
