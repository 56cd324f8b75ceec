import MyWine.Lib.Ring
import MyWine.Loader.DllLoader

/-!
# The lists of loaded modules

`loader/peb_ldr.c` links the entries of the loaded modules, which lie in the slots of the registry,
into three circular doubly linked lists whose heads are in the PEB.  `LdrHeap` is the registry with
the pointers of these lists.  The lists of slots that `load_dll` is modelled with stand for such
pointers (`Represents`), and the operations on them stand for those on the pointers
(`represents_ldr`).

The lists are followed along runs of the four operations.  `ldr_remove_module` clears the entry of
the module, and `ldr_add_module` fills in only its load count, so that a module which is linked
again has an entry without base and size.  The lists are right through a run exactly when no module
is linked again (`ldr_lists_iff`).
-/

open Pe

namespace Loader

open Function List Option

/-! ### The pointers -/

/-- The nodes of one of the lists: its head and the entries of the modules. -/
inductive LdrNode where
  | head
  | entry (mod : Slot)
  deriving DecidableEq

/-- The registry, and the pointers of the three lists. -/
structure LdrHeap where
  list : ModuleList
  links : Fin 3 → Links LdrNode

namespace LdrHeap

def init : LdrHeap := ⟨initModuleList, fun _ => Links.loop ⟨fun _ => none, fun _ => none⟩ .head⟩

def setModule (s : LdrHeap) (mod : Slot) (m : LoadedModule) : LdrHeap :=
  { s with list := { s.list with modules := update s.list.modules mod m } }

/-- `add_module`, which clears the slot and lets the pointers of its entry point to themselves. -/
def addModule (s : LdrHeap) (base : Ptr) (name : CString) (nt : ImageNtHeaders) : LdrHeap :=
  match Loader.addModule s.list base name nt with
  | (some i, list) => ⟨list, fun k => ((s.links k).clear (.entry i)).loop (.entry i)⟩
  | (none, list) => ⟨list, s.links⟩

def ldrAddModule (s : LdrHeap) (mod : Slot) : LdrHeap :=
  let m := s.list.modules mod
  if m.base = 0 ∨ m.nt.isNone then s
  else if m.ldrLinked then s
  else
    { s.setModule mod { m with
        ldrEntry := { m.ldrEntry with loadCount := m.loadCount }
        ldrLinked := true } with
      links := fun k => (s.links k).insertTail .head (.entry mod) }

def ldrRemoveModule (s : LdrHeap) (mod : Slot) : LdrHeap :=
  let m := s.list.modules mod
  if m.ldrLinked then
    { s.setModule mod { m with ldrEntry := LoadedModule.zero.ldrEntry, ldrLinked := false } with
      links := fun k => ((s.links k).remove (.entry mod)).clear (.entry mod) }
  else s

def removeModule (s : LdrHeap) (mod : Slot) : LdrHeap where
  list := Loader.removeModule s.list mod
  links k := if mod.val < s.list.moduleCount then (s.links k).clear (.entry mod) else s.links k

def entryContains (b : Build) (s : LdrHeap) (a : Ptr) : LdrNode → Bool
  | .head => false
  | .entry mod =>
    let entry := (s.list.modules mod).ldrEntry
    decide (entry.dllBase ≤ a ∧ a < b.wrap (entry.dllBase + entry.sizeOfImage.toNat))

def slotOf : LdrNode → Option Slot
  | .head => none
  | .entry mod => some mod

/-- `ldr_find_by_addr`, which searches the second list: the module of the entry, if one is found.
There is no answer when the search does not end. -/
def ldrFindByAddr (b : Build) (s : LdrHeap) (a : Ptr) : Option (Option Slot) :=
  if a = 0 then some none
  else ((s.links 1).find .head (s.entryContains b a) (maxModules + 1)).map (·.bind slotOf)

end LdrHeap

/-! ### Lists of slots -/

theorem entry_injective :
  Function.Injective LdrNode.entry
  := by
  intro i j h
  cases h
  rfl

variable {l : List Slot} {mod : Slot}

theorem entry_notMem (h : mod ∉ l) :
  LdrNode.entry mod ∉ LdrNode.head :: l.map .entry
  := by
  simpa using h

theorem ring_insert {L : Links LdrNode} (h : L.Ring .head (l.map .entry)) (hmod : mod ∉ l) :
  (L.insertTail .head (.entry mod)).Ring .head ((l ++ [mod]).map .entry)
  := by
  rw [map_append]
  apply h.insertTail (entry_notMem hmod)

theorem ring_erase {L : Links LdrNode} (h : L.Ring .head (l.map .entry)) (hmod : mod ∈ l) :
  ((L.remove (.entry mod)).clear (.entry mod)).Ring .head ((l.erase mod).map .entry)
  := by
  have hremove := h.remove (mem_map_of_mem hmod)
  rw [← map_erase entry_injective] at hremove
  apply hremove.clear
  apply entry_notMem
  have hnodup : l.Nodup := (nodup_cons.mp h.nodup).2.of_map _
  apply hnodup.not_mem_erase

/-- The lists of slots are the ones that the pointers go through. -/
def Represents (heap : LdrHeap) (s : LoaderState) (order : List Slot) : Prop :=
  heap.list = s.list ∧ s.pebLdr = some ⟨order, order, order⟩ ∧
    ∀ k, (heap.links k).Ring .head (order.map .entry)

/-- On lists that have the module exactly when it is flagged, the operations on the slots stand for
those on the pointers. -/
theorem represents_ldr {heap : LdrHeap} {s : LoaderState} {order : List Slot}
    (h : Represents heap s order) (hflagged : mod ∈ order ↔ (s.module mod).ldrLinked = true) :
  (∃ order', Represents (heap.ldrAddModule mod) (ldrAddModule s mod) order') ∧
    ∃ order', Represents (heap.ldrRemoveModule mod) (ldrRemoveModule s mod) order'
  := by
  obtain ⟨hlist, hldr, hring⟩ := h
  rw [LoaderState.module] at hflagged
  simp only [LdrHeap.ldrAddModule, ldrAddModule, LdrHeap.ldrRemoveModule, ldrRemoveModule, hldr,
    LoaderState.module, hlist]
  constructor
  · by_cases hnull : (s.list.modules mod).base = 0 ∨ (s.list.modules mod).nt.isNone
    · simp only [hnull, if_true]
      exact ⟨order, hlist, hldr, hring⟩
    by_cases hlinked : (s.list.modules mod).ldrLinked
    · simp only [hnull, hlinked, if_true, if_false]
      exact ⟨order, hlist, hldr, hring⟩
    · simp only [hnull, hlinked, if_false, LdrHeap.setModule, hlist]
      exact ⟨order ++ [mod], rfl, rfl, fun k => ring_insert (hring k) (mt hflagged.mp hlinked)⟩
  · by_cases hlinked : (s.list.modules mod).ldrLinked
    · simp only [hlinked, if_true, LdrHeap.setModule, hlist]
      exact ⟨order.erase mod, rfl, rfl, fun k => ring_erase (hring k) (hflagged.mpr hlinked)⟩
    · simp only [hlinked, Bool.false_eq_true, if_false]
      exact ⟨order, hlist, hldr, hring⟩

/-- The second module is linked after the first one, and the first one is unlinked. -/
theorem represents_ldr_second :
  let nt := RegistryRun.bareHeaders 0x1000
  let list := (addModule (addModule initModuleList 0x60000000 (.ofString "a.dll") nt).2 0x61000000
    (.ofString "b.dll") nt).2
  let heap := LdrHeap.ldrAddModule ⟨list, LdrHeap.init.links⟩ 0
  let s := { bareState with list := heap.list, pebLdr := some ⟨[0], [0], [0]⟩ }
  (∃ order, Represents (heap.ldrAddModule 1) (ldrAddModule s 1) order) ∧
    ∃ order, Represents (heap.ldrRemoveModule 0) (ldrRemoveModule s 0) order
  := by
  intro nt list heap s
  have hlinks : heap.links = fun k => (LdrHeap.init.links k).insertTail .head (.entry 0) := by
    simp only [heap, LdrHeap.ldrAddModule]
    rw [if_neg (by decide +kernel), if_neg (by decide +kernel)]
  have h : Represents heap s [0] := by
    refine ⟨rfl, rfl, fun k => ?_⟩
    rw [hlinks]
    apply ring_insert (Links.ring_loop _ _) List.not_mem_nil
  exact ⟨(represents_ldr h (by decide +kernel)).1, (represents_ldr h (by decide +kernel)).2⟩

/-! ### Runs -/

def LoadedModule.Linkable (m : LoadedModule) : Prop := m.base ≠ 0 ∧ m.nt.isSome = true

instance (m : LoadedModule) : Decidable m.Linkable :=
  inferInstanceAs (Decidable (m.base ≠ 0 ∧ m.nt.isSome = true))

/-- A call that changes the registry or the lists. -/
inductive LdrOp where
  | add (m : Registered)
  | link (mod : Slot)
  | unlink (mod : Slot)
  | remove (mod : Slot)

/-- The heap, with the modules that have been linked and not unlinked since, in the order of
linking, and the modules that have been unlinked since they were added. -/
structure LdrRun where
  heap : LdrHeap
  order : List Slot
  unlinked : Slot → Bool

namespace LdrRun

def module (s : LdrRun) (mod : Slot) : LoadedModule := s.heap.list.modules mod

def init : LdrRun := ⟨.init, [], fun _ => false⟩

def step (s : LdrRun) : LdrOp → LdrRun
  | .add m =>
    { s with
      heap := s.heap.addModule m.base m.name m.nt
      unlinked := match (Loader.addModule s.heap.list m.base m.name m.nt).1 with
        | some mod => update s.unlinked mod false
        | none => s.unlinked }
  | .link mod =>
    { s with
      heap := s.heap.ldrAddModule mod
      order := if (s.module mod).Linkable ∧ mod ∉ s.order then s.order ++ [mod] else s.order }
  | .unlink mod =>
    { heap := s.heap.ldrRemoveModule mod
      order := s.order.erase mod
      unlinked := if mod ∈ s.order then update s.unlinked mod true else s.unlinked }
  | .remove mod => { s with heap := s.heap.removeModule mod }

/-- The calls that may be made: an added image is not at `NULL` and ends inside the address space,
and a module is unlinked before its slot is removed. -/
def Allowed (b : Build) (s : LdrRun) : LdrOp → Prop
  | .add m => m.base ≠ 0 ∧ m.base + peSizeOfImage m.nt < b.ptrLimit
  | .link _ => True
  | .unlink _ => True
  | .remove mod => mod ∉ s.order

instance (b : Build) (s : LdrRun) : DecidablePred (Allowed b s)
  | .add m => inferInstanceAs (Decidable (m.base ≠ 0 ∧ m.base + peSizeOfImage m.nt < b.ptrLimit))
  | .link _ => inferInstanceAs (Decidable True)
  | .unlink _ => inferInstanceAs (Decidable True)
  | .remove mod => inferInstanceAs (Decidable (mod ∉ s.order))

def NoRelink (s : LdrRun) : LdrOp → Prop
  | .add _ => True
  | .link mod => (s.module mod).Linkable → mod ∉ s.order → s.unlinked mod = false
  | .unlink _ => True
  | .remove _ => True

instance (s : LdrRun) : DecidablePred (NoRelink s)
  | .add _ => inferInstanceAs (Decidable True)
  | .link mod =>
    inferInstanceAs
      (Decidable ((s.module mod).Linkable → mod ∉ s.order → s.unlinked mod = false))
  | .unlink _ => inferInstanceAs (Decidable True)
  | .remove _ => inferInstanceAs (Decidable True)

def Contains (m : LoadedModule) (a : ℕ) : Prop :=
  ∃ nt, m.nt = some nt ∧ m.base ≤ a ∧ a < m.base + peSizeOfImage nt

/-- Each list goes through the linked modules in the order of linking, their entries have the bases
and sizes of the modules, and the search by address finds a linked module that contains the address
if there is one. -/
structure Right (b : Build) (s : LdrRun) : Prop where
  ring : ∀ k, (s.heap.links k).Ring .head (s.order.map .entry)
  entry : ∀ mod ∈ s.order, ∃ nt, (s.module mod).nt = some nt ∧
    (s.module mod).ldrEntry.dllBase = (s.module mod).base ∧
    (s.module mod).ldrEntry.sizeOfImage.toNat = peSizeOfImage nt
  found : ∀ a, ∀ mod ∈ s.order, Contains (s.module mod) a →
    ∃ mod' ∈ s.order, s.heap.ldrFindByAddr b a = some (some mod') ∧ Contains (s.module mod') a
  notFound : ∀ a, (∀ mod ∈ s.order, ¬ Contains (s.module mod) a) →
    s.heap.ldrFindByAddr b a = some none

/-! ### The invariant -/

/-- What a slot keeps: its module is flagged as linked when it is, and its entry describes it until
it is unlinked, and is cleared then. -/
structure SlotInv (b : Build) (m : LoadedModule) (linked : Prop) (unlinked : Bool) : Prop where
  linked_iff : linked ↔ m.ldrLinked = true
  linkable : linked → m.Linkable
  fresh : linked → unlinked = false
  fits : ∀ nt, m.nt = some nt → m.base + peSizeOfImage nt < b.ptrLimit
  intact : ∀ nt, m.nt = some nt → unlinked = false →
    m.ldrEntry.dllBase = m.base ∧ m.ldrEntry.sizeOfImage.toNat = peSizeOfImage nt
  cleared : unlinked = true → m.ldrEntry.dllBase = 0

/-- The lists go through the linked modules, and every slot keeps what it should. -/
structure Inv (b : Build) (s : LdrRun) : Prop where
  ring : ∀ k, (s.heap.links k).Ring .head (s.order.map .entry)
  slot : ∀ mod, SlotInv b (s.module mod) (mod ∈ s.order) (s.unlinked mod)

variable {b : Build} {s : LdrRun} {mod : Slot}

theorem slotInv_zero {linked : Prop} {unlinked : Bool} (h : ¬ linked) :
  SlotInv b .zero linked unlinked
  where
  linked_iff := by simp [h, LoadedModule.zero]
  linkable hl := absurd hl h
  fresh hl := absurd hl h
  fits := by simp [LoadedModule.zero]
  intact := by simp [LoadedModule.zero]
  cleared _ := rfl

theorem inv_init :
  Inv b init
  where
  ring _ := Links.ring_loop _ _
  slot _ := slotInv_zero not_mem_nil

theorem Inv.update (h : Inv b s) (mod : Slot) {m : LoadedModule} {count : ℕ}
    {links : Fin 3 → Links LdrNode} {order : List Slot} {unlinked : Slot → Bool}
    (hring : ∀ k, (links k).Ring .head (order.map .entry))
    (horder : ∀ i ≠ mod, (i ∈ order ↔ i ∈ s.order))
    (hunlinked : ∀ i ≠ mod, unlinked i = s.unlinked i)
    (hm : SlotInv b m (mod ∈ order) (unlinked mod)) :
  Inv b ⟨⟨⟨update s.heap.list.modules mod m, count⟩, links⟩, order, unlinked⟩
  where
  ring := hring
  slot i := by
    simp only [module]
    by_cases hi : i = mod
    · subst hi
      rw [update_self]
      apply hm
    · rw [update_of_ne hi, hunlinked i hi]
      have hslot := h.slot i
      rwa [← propext (horder i hi)] at hslot

theorem Inv.add (h : Inv b s) {m : Registered} (hm : s.Allowed b (.add m)) :
  Inv b (s.step (.add m))
  := by
  obtain ⟨i, hfree, -, hadd⟩ | ⟨-, hadd⟩ := addModule_cases s.heap.list m.base m.name m.nt
  · -- the free slot is not in the lists, for a linked module has a base
    have hi : i ∉ s.order := fun hmem => ((h.slot i).linkable hmem).1 hfree
    simp only [step, LdrHeap.addModule, hadd]
    apply h.update i
    · intro k
      exact ((h.ring k).clear (entry_notMem hi)).loop (entry_notMem hi)
    · intro j _
      rfl
    · intro j hj
      apply update_of_ne hj
    · rw [update_self]
      constructor
      · simp [hi, newModule, LoadedModule.zero]
      · intro hmem
        exact absurd hmem hi
      · intro _
        rfl
      · intro nt hnt
        cases hnt
        apply hm.2
      · intro nt hnt _
        cases hnt
        exact ⟨rfl, rfl⟩
      · intro hfalse
        cases hfalse
  · simp only [step, LdrHeap.addModule, hadd]
    apply h

theorem linkable_iff (m : LoadedModule) :
  m.Linkable ↔ ¬ (m.base = 0 ∨ m.nt.isNone = true)
  := by
  rw [LoadedModule.Linkable, not_or, Bool.not_eq_true, isNone_eq_false_iff]

theorem step_link_of_not_linkable (hmod : ¬ (s.module mod).Linkable) :
  s.step (.link mod) = s
  := by
  have hnull := not_not.mp (mt (linkable_iff (s.heap.list.modules mod)).mpr hmod)
  simp only [step, LdrHeap.ldrAddModule, hnull, hmod, if_true, false_and, if_false]

theorem step_link_of_mem (h : Inv b s) (hmod : mod ∈ s.order) :
  s.step (.link mod) = s
  := by
  have hnull := (linkable_iff (s.heap.list.modules mod)).mp ((h.slot mod).linkable hmod)
  have hlinked : (s.heap.list.modules mod).ldrLinked = true := (h.slot mod).linked_iff.mp hmod
  simp [step, LdrHeap.ldrAddModule, hlinked, hmod]

theorem step_link_of_notMem (h : Inv b s) (hlinkable : (s.module mod).Linkable)
    (hmod : mod ∉ s.order) :
  s.step (.link mod) =
    ⟨⟨⟨update s.heap.list.modules mod
            { s.module mod with
              ldrEntry := { (s.module mod).ldrEntry with loadCount := (s.module mod).loadCount }
              ldrLinked := true },
          s.heap.list.moduleCount⟩,
        fun k => (s.heap.links k).insertTail .head (.entry mod)⟩,
      s.order ++ [mod], s.unlinked⟩
  := by
  have hnull := (linkable_iff (s.heap.list.modules mod)).mp hlinkable
  have hlinked : ¬ (s.heap.list.modules mod).ldrLinked = true := mt (h.slot mod).linked_iff.mpr hmod
  simp only [step, LdrHeap.ldrAddModule, hnull, hlinked, hmod, hlinkable, Bool.false_eq_true,
    if_false, not_false_eq_true, and_self, if_true]
  rfl

theorem Inv.link (h : Inv b s) (hfresh : s.NoRelink (.link mod)) :
  Inv b (s.step (.link mod))
  := by
  have hslot := h.slot mod
  by_cases hlinkable : (s.module mod).Linkable
  · by_cases hmod : mod ∈ s.order
    · rw [step_link_of_mem h hmod]
      apply h
    · rw [step_link_of_notMem h hlinkable hmod]
      apply h.update mod
      · intro k
        apply ring_insert (h.ring k) hmod
      · intro i hi
        simp [hi]
      · intro i _
        rfl
      · have hunlinked : s.unlinked mod = false := hfresh hlinkable hmod
        constructor
        · simp
        · intro _
          apply hlinkable
        · intro _
          apply hunlinked
        · apply hslot.fits
        · apply hslot.intact
        · intro htrue
          rw [hunlinked] at htrue
          cases htrue
  · rw [step_link_of_not_linkable hlinkable]
    apply h

theorem Inv.unlink (h : Inv b s) :
  Inv b (s.step (.unlink mod))
  := by
  have hslot := h.slot mod
  simp only [step, LdrHeap.ldrRemoveModule]
  by_cases hmod : mod ∈ s.order
  · have hlinked : (s.heap.list.modules mod).ldrLinked = true := hslot.linked_iff.mp hmod
    have hnodup : s.order.Nodup := (nodup_cons.mp (h.ring 0).nodup).2.of_map _
    simp only [hmod, hlinked, if_true]
    apply h.update mod
    · intro k
      apply ring_erase (h.ring k) hmod
    · intro i hi
      apply mem_erase_of_ne hi
    · intro i hi
      apply update_of_ne hi
    · rw [update_self]
      have hgone : mod ∉ s.order.erase mod := hnodup.not_mem_erase
      constructor
      · simp [hgone]
      · intro hmem
        exact absurd hmem hgone
      · intro hmem
        exact absurd hmem hgone
      · apply hslot.fits
      · intro nt _ hfalse
        cases hfalse
      · intro _
        rfl
  · have hlinked : ¬ (s.heap.list.modules mod).ldrLinked = true := mt hslot.linked_iff.mpr hmod
    simp only [hmod, hlinked, Bool.false_eq_true, if_false, erase_of_not_mem, not_false_eq_true]
    apply h

theorem Inv.remove (h : Inv b s) (hmod : s.Allowed b (.remove mod)) :
  Inv b (s.step (.remove mod))
  := by
  simp only [step, LdrHeap.removeModule, removeModule]
  by_cases hlt : mod.val < s.heap.list.moduleCount
  · simp only [hlt, if_true]
    apply h.update mod
    · intro k
      apply (h.ring k).clear (entry_notMem hmod)
    · intro i _
      rfl
    · intro i _
      rfl
    · apply slotInv_zero hmod
  · simp only [hlt, if_false]
    apply h

theorem Inv.of_step (h : Inv b s) {op : LdrOp} (hallowed : s.Allowed b op)
    (hrelink : s.NoRelink op) :
  Inv b (s.step op)
  := by
  cases op with
  | add m => apply h.add hallowed
  | link mod => apply h.link hrelink
  | unlink mod => apply h.unlink
  | remove mod => apply h.remove hallowed

/-! ### The search by address -/

theorem Inv.entryContains_iff (h : Inv b s) (hmod : mod ∈ s.order) (a : ℕ) :
  s.heap.entryContains b a (.entry mod) = true ↔ Contains (s.module mod) a
  := by
  have hslot := h.slot mod
  obtain ⟨nt, hnt⟩ := isSome_iff_exists.mp (hslot.linkable hmod).2
  obtain ⟨hbase, hsize⟩ := hslot.intact nt hnt (hslot.fresh hmod)
  have hfits := hslot.fits nt hnt
  rw [module] at hnt hbase hsize hfits
  rw [LdrHeap.entryContains, decide_eq_true_iff, hbase, hsize, Build.wrap, Nat.mod_eq_of_lt hfits]
  simp [Contains, module, hnt]

theorem Inv.ldrFindByAddr_eq (h : Inv b s) (a : ℕ) :
  s.heap.ldrFindByAddr b a =
    some (s.order.find? fun mod => s.heap.entryContains b a (.entry mod))
  := by
  have hnodup : s.order.Nodup := (nodup_cons.mp (h.ring 1).nodup).2.of_map _
  have hlength : s.order.length ≤ maxModules := by
    simpa using hnodup.length_le_card
  rw [LdrHeap.ldrFindByAddr]
  split_ifs with ha
  · -- no module of a list contains `NULL`
    subst ha
    symm
    congr 1
    rw [List.find?_eq_none]
    intro mod hmod hcontains
    obtain ⟨nt, -, hle, -⟩ := (h.entryContains_iff hmod 0).mp hcontains
    apply ((h.slot mod).linkable hmod).1
    apply Nat.le_zero.mp hle
  · rw [(h.ring 1).find_eq (by rw [length_map]; omega), List.find?_map]
    cases hfind : s.order.find? (s.heap.entryContains b a ∘ .entry) with
    | none =>
      symm
      congr 1
    | some mod =>
      symm
      congr 1

theorem Inv.right (h : Inv b s) :
  Right b s
  where
  ring := h.ring
  entry mod hmod := by
    obtain ⟨nt, hnt⟩ := isSome_iff_exists.mp ((h.slot mod).linkable hmod).2
    exact ⟨nt, hnt, (h.slot mod).intact nt hnt ((h.slot mod).fresh hmod)⟩
  found a mod hmod hcontains := by
    have hsome : (s.order.find? fun mod => s.heap.entryContains b a (.entry mod)).isSome := by
      rw [List.find?_isSome]
      exact ⟨mod, hmod, (h.entryContains_iff hmod a).mpr hcontains⟩
    obtain ⟨mod', hfind⟩ := isSome_iff_exists.mp hsome
    have hmem := mem_of_find?_eq_some hfind
    use mod', hmem
    rw [h.ldrFindByAddr_eq, hfind]
    use rfl
    have hcontains' := List.find?_some hfind
    apply (h.entryContains_iff hmem a).mp hcontains'
  notFound a hnone := by
    rw [h.ldrFindByAddr_eq]
    congr 1
    rw [List.find?_eq_none]
    intro mod hmod hcontains
    apply hnone mod hmod ((h.entryContains_iff hmod a).mp hcontains)

theorem Inv.noRelink_of_right (h : Inv b s) {op : LdrOp} (hright : Right b (s.step op)) :
  s.NoRelink op
  := by
  cases op with
  | link mod =>
    intro hlinkable hmod
    rw [step_link_of_notMem h hlinkable hmod] at hright
    by_contra hunlinked
    have hcleared := (h.slot mod).cleared (Bool.eq_true_of_not_eq_false hunlinked)
    -- the new last entry has the base of the module, which is not `NULL`, but it is cleared
    obtain ⟨nt, -, hbase, -⟩ := hright.entry mod (by simp)
    simp only [module, update_self] at hbase
    apply hlinkable.1
    rw [← hcleared]
    exact hbase.symm
  | add m => trivial
  | unlink mod => trivial
  | remove mod => trivial

end LdrRun

open LdrRun

/-- Through a run in which modules are unlinked before their slots are removed, the three lists are
circular lists of exactly the linked modules with their bases and sizes, in the order of linking,
and the search by address agrees with them, exactly when no module is linked again that was
unlinked since it was added. -/
theorem ldr_lists_iff {b : Build} {ops : List LdrOp}
    (hallowed : Run.Along step (Allowed b) init ops) :
  Run.Along step (fun s op => Right b (s.step op)) init ops ↔ Run.Along step NoRelink init ops
  := by
  apply hallowed.iff_of_invariant (Inv b) _ _ inv_init
  · intro s op hinv hop hright
    apply hinv.of_step hop (hinv.noRelink_of_right hright)
  · intro s op hinv hop
    constructor
    · apply hinv.noRelink_of_right
    · intro hrelink
      apply (hinv.of_step hop hrelink).right

def unlinkThen (ops : List LdrOp) : List LdrOp :=
  .add ⟨0x60000000, .ofString "a.dll", RegistryRun.bareHeaders 0x1000⟩ ::
    .link 0 :: .unlink 0 :: ops

def reuse : List LdrOp :=
  [.remove 0, .add ⟨0x60001000, .ofString "b.dll", RegistryRun.bareHeaders 0x1000⟩, .link 0]

theorem ldr_lists_right_after_reuse :
  Run.Along step (Allowed .i386) init (unlinkThen reuse) ∧
    Run.Along step (fun s op => Right .i386 (s.step op)) init (unlinkThen reuse)
  := by
  have hallowed : Run.Along step (Allowed .i386) init (unlinkThen reuse) := by decide +kernel
  use hallowed
  apply (ldr_lists_iff hallowed).mpr
  decide +kernel

/-- When the module is linked again its entry has no base, and it is not found by its addresses. -/
theorem ldr_relink_not_right :
  Run.Along step (Allowed .i386) init (unlinkThen [.link 0]) ∧
    (((unlinkThen [.link 0]).foldl step init).module 0).base = 0x60000000 ∧
    ((unlinkThen [.link 0]).foldl step init).heap.ldrFindByAddr .i386 0x60000000 = some none ∧
    ¬ Right .i386 ((unlinkThen [.link 0]).foldl step init)
  := by
  refine ⟨by decide +kernel, by decide +kernel, by decide +kernel, ?_⟩
  intro hright
  obtain ⟨nt, -, hbase, -⟩ := hright.entry 0 (by decide +kernel)
  revert hbase
  decide +kernel

end Loader
