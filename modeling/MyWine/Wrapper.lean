import MyWine.Pe.Headers

/-!
# The wrapper

`wrapper_main.c` reads a few bytes of a file to find out whether it is a PE32 or a PE32+ file, and
executes the backend for that type.  It has a header reader of its own, `detect_pe_type`, which
computes the offset of the magic number in `uint32_t` and checks nothing but the bytes that it
reads.  On every file that the parser of the backends accepts the two agree (`detectPeType_agrees`):
the parser bounds `e_lfanew`, so the offset of the wrapper does not wrap.
-/

open Pe

namespace Bytes

theorem or_mul_two_pow {x y i : ℕ} (h : x < 2 ^ i) :
  x ||| y * 2 ^ i = x + 2 ^ i * y
  := by
  rw [Nat.or_comm, Nat.mul_comm, ← Nat.two_pow_add_eq_or_of_lt h, Nat.add_comm]

theorem u16_eq_or (m : Bytes) (a : ℕ) :
  m.u16 a = (m a).toUInt16 ||| (m (a + 1)).toUInt16 <<< 8
  := by
  have h0 := (m a).toNat_lt
  have h1 := (m (a + 1)).toNat_lt
  have hshift : ((m (a + 1)).toUInt16 <<< 8).toNat = (m (a + 1)).toNat * 2 ^ 8 := by
    simp [UInt16.toNat_shiftLeft, Nat.shiftLeft_eq]
    omega
  apply UInt16.toNat.inj
  rw [UInt16.toNat_or, hshift, UInt8.toNat_toUInt16, or_mul_two_pow h0]
  simp only [u16, readLE, UInt16.toNat_ofNat']
  omega

theorem toNat_shiftLeft_byte (c : UInt8) {i : UInt32} (hi : i.toNat ≤ 24) :
  (c.toUInt32 <<< i).toNat = c.toNat * 2 ^ i.toNat
  := by
  have hc := c.toNat_lt
  have hpow : 2 ^ i.toNat ≤ 2 ^ 24 := Nat.pow_le_pow_right (by decide) hi
  rw [UInt32.toNat_shiftLeft, Nat.shiftLeft_eq, Nat.mod_eq_of_lt (a := i.toNat) (by omega),
    UInt8.toNat_toUInt32, Nat.mod_eq_of_lt]
  calc c.toNat * 2 ^ i.toNat ≤ 255 * 2 ^ 24 := Nat.mul_le_mul (by omega) hpow
    _ < 2 ^ 32 := by decide

theorem u32_eq_or (m : Bytes) (a : ℕ) :
  m.u32 a = (m a).toUInt32 ||| (m (a + 1)).toUInt32 <<< 8 ||| (m (a + 2)).toUInt32 <<< 16 |||
    (m (a + 3)).toUInt32 <<< 24
  := by
  have h0 := (m a).toNat_lt
  have h1 := (m (a + 1)).toNat_lt
  have h2 := (m (a + 2)).toNat_lt
  have h3 := (m (a + 3)).toNat_lt
  have hshift1 : ((m (a + 1)).toUInt32 <<< 8).toNat = (m (a + 1)).toNat * 2 ^ 8 :=
    toNat_shiftLeft_byte _ (by decide)
  have hshift2 : ((m (a + 2)).toUInt32 <<< 16).toNat = (m (a + 2)).toNat * 2 ^ 16 :=
    toNat_shiftLeft_byte _ (by decide)
  have hshift3 : ((m (a + 3)).toUInt32 <<< 24).toNat = (m (a + 3)).toNat * 2 ^ 24 :=
    toNat_shiftLeft_byte _ (by decide)
  apply UInt32.toNat.inj
  rw [UInt32.toNat_or, UInt32.toNat_or, UInt32.toNat_or, hshift1, hshift2, hshift3,
    UInt8.toNat_toUInt32, or_mul_two_pow h0,
    or_mul_two_pow (x := (m a).toNat + 2 ^ 8 * (m (a + 1)).toNat) (by omega),
    or_mul_two_pow (by omega)]
  simp only [u32, readLE, UInt32.toNat_ofNat', Nat.add_assoc, Nat.reduceAdd]
  omega

theorem bytes_of_readLE {m : Bytes} {a n v : ℕ} (h : m.readLE a (n + 2) = v) :
  m a = UInt8.ofNat v ∧ m (a + 1) = UInt8.ofNat (v / 256)
  := by
  have hlow := byte_readLE (k := 0) m a (show 0 < n + 2 by omega)
  have hhigh := byte_readLE (k := 1) m a (show 1 < n + 2 by omega)
  rw [h] at hlow hhigh
  rw [pow_zero, Nat.div_one] at hlow
  rw [pow_one] at hhigh
  exact ⟨hlow.symm, hhigh.symm⟩

end Bytes

namespace Wrapper

/-! ### Detection of the type -/

def readAt (f : File) (off n : ℕ) : Option Bytes :=
  if off + n ≤ f.size then some fun i => f.byte (off + i) else none

def detectPeType (file : Option File) : Option PeType := do
  let f ← file
  let mz ← readAt f 0 2
  if mz 0 ≠ 0x4D ∨ mz 1 ≠ 0x5A then none
  else
    let buf4 ← readAt f 0x3C 4
    let eLfanew : UInt32 := (buf4 0).toUInt32 ||| (buf4 1).toUInt32 <<< 8 |||
      (buf4 2).toUInt32 <<< 16 ||| (buf4 3).toUInt32 <<< 24
    let pesig ← readAt f eLfanew.toNat 2
    if pesig 0 ≠ 0x50 ∨ pesig 1 ≠ 0x45 then none
    else
      let magicOff := eLfanew + 24
      let magic ← readAt f magicOff.toNat 2
      let optMagic := (magic 0).toUInt16 ||| (magic 1).toUInt16 <<< 8
      if optMagic = 0x10B then some .pe32
      else if optMagic = 0x20B then some .pe64
      else none

def backend (file : Option File) : Option Build :=
  (detectPeType file).map fun
    | .pe32 => .i386
    | .pe64 => .x64

/-- The backend does not reject the type of an image that it has mapped: `my_wine64` rejects PE32
in `init_loader`, `my_wine32` rejects PE32+ in `pe32_map_image_or_exit`. -/
def acceptsType : Build → ImageNtHeaders → Bool
  | .i386, nt => peIsPe32 nt
  | .x64, nt => !peIsPe32 nt

/-! ### Agreement with the parser -/

section

variable {b : Build} {f : File} {dos : ImageDosHeader} {nt : ImageNtHeaders}

theorem readAt_of_le {off n : ℕ} (h : off + n ≤ f.size) :
  readAt f off n = some fun i => f.byte (off + i)
  := if_pos h

theorem parseNtHeaders_signature (h : parseNtHeaders b f dos = some nt) :
  f.byte dos.eLfanew.toNat = 0x50 ∧ f.byte (dos.eLfanew.toNat + 1) = 0x45
  := by
  simp only [parseNtHeaders] at h
  split_ifs at h with _ hsig
  rw [Bool.or_eq_true, not_or, decide_eq_true_eq, not_not] at hsig
  apply Bytes.bytes_of_readLE (n := 2) (v := 0x4550)
  have hlt : f.byte.readLE dos.eLfanew.toNat 4 < 2 ^ 32 := Bytes.readLE_lt _ _ _
  have hnat := congrArg UInt32.toNat hsig.2
  rw [Bytes.u32, UInt32.toNat_ofNat', Nat.mod_eq_of_lt hlt] at hnat
  exact hnat

theorem parseDosHeader_signature (h : parseDosHeader f = some dos) :
  sizeofDosHeader ≤ f.size ∧ dos = readDosHeader f.byte 0 ∧ f.byte 0 = 0x4D ∧ f.byte 1 = 0x5A
  := by
  simp only [parseDosHeader] at h
  split_ifs at h with hsize hmagic
  cases h
  rw [not_not, readDosHeader] at hmagic
  refine ⟨by omega, rfl, ?_⟩
  apply Bytes.bytes_of_readLE (n := 0) (v := 0x5A4D)
  have hlt : f.byte.readLE 0 2 < 2 ^ 16 := Bytes.readLE_lt _ _ _
  have hnat := congrArg UInt16.toNat hmagic
  rw [Bytes.u16, UInt16.toNat_ofNat', Nat.mod_eq_of_lt hlt] at hnat
  exact hnat

theorem detectPeType_eq (hdos : parseDosHeader f = some dos)
    (hnt : parseNtHeaders b f dos = some nt) :
  detectPeType (some f) = some nt.peType
  := by
  obtain ⟨hsize, rfl, hm, hz⟩ := parseDosHeader_signature hdos
  obtain ⟨hp, he⟩ := parseNtHeaders_signature hnt
  obtain ⟨hmagic, hlimit, hfile⟩ := parseNtHeaders_magic hnt
  have hheaders : 26 ≤ sizeofNtHeaders nt.peType := by
    cases nt.peType <;> decide
  rw [sizeofDosHeader] at hsize
  -- The offset of the magic number does not wrap.
  have hoff : ((readDosHeader f.byte 0).eLfanew + 24).toNat =
      (readDosHeader f.byte 0).eLfanew.toNat + 24 := by
    rw [UInt32.toNat_add]
    apply Nat.mod_eq_of_lt
    have h24 : (24 : UInt32).toNat = 24 := rfl
    omega
  have hlfanew := Bytes.u32_eq_or f.byte 0x3C
  have hopt := Bytes.u16_eq_or f.byte ((readDosHeader f.byte 0).eLfanew.toNat + 24)
  simp only [detectPeType, Option.bind_eq_bind, Option.bind_some, Nat.zero_add, hm, hz, Nat.add_zero,
    readAt_of_le (show 0 + 2 ≤ f.size by omega), readAt_of_le (show 0x3C + 4 ≤ f.size by omega),
    ne_eq, not_true_eq_false, or_self, if_false]
  rw [← hlfanew]
  change (readAt f (readDosHeader f.byte 0).eLfanew.toNat 2).bind _ = _
  rw [readAt_of_le (by omega)]
  simp only [Option.bind_some, Nat.add_zero, hp, he, not_true_eq_false, or_self, if_false]
  change (readAt f ((readDosHeader f.byte 0).eLfanew + 24).toNat 2).bind _ = _
  rw [hoff, readAt_of_le (by omega)]
  simp only [Option.bind_some, Nat.add_zero]
  rw [← hopt]
  exact hmagic

/-- On a file that the parser of a backend accepts, the wrapper finds the type that the parser
finds, and the backend that it executes does not reject the image for its type. -/
theorem detectPeType_agrees (hdos : parseDosHeader f = some dos)
    (hnt : parseNtHeaders b f dos = some nt) :
  (detectPeType (some f) = some .pe32 ↔ nt.peType = .pe32) ∧
    (detectPeType (some f) = some .pe64 ↔ nt.peType = .pe64) ∧
    detectPeType (some f) ≠ none ∧
    ∀ b' nt', backend (some f) = some b' → parseNtHeaders b' f dos = some nt' →
      acceptsType b' nt' = true
  := by
  have heq := detectPeType_eq hdos hnt
  refine ⟨by simp [heq], by simp [heq], by simp [heq], ?_⟩
  intro b' nt' hbackend hnt'
  rw [backend, detectPeType_eq hdos hnt', Option.map_some, Option.some.injEq] at hbackend
  cases htype : nt'.peType with
  | pe32 =>
    rw [htype] at hbackend
    subst hbackend
    simp [acceptsType, peIsPe32, htype]
  | pe64 =>
    rw [htype] at hbackend
    subst hbackend
    simp [acceptsType, peIsPe32, htype]

end

/-- A PE32+ file without sections is given to `my_wine64`. -/
theorem pe64_detected :
  ∃ dos nt, parseDosHeader (.ofFields 328 (pe64Headers 0x1000 328)) = some dos ∧
    parseNtHeaders .x64 (.ofFields 328 (pe64Headers 0x1000 328)) dos = some nt ∧
    (detectPeType (some (.ofFields 328 (pe64Headers 0x1000 328))) = some .pe64 ↔
      nt.peType = .pe64) ∧
    backend (some (.ofFields 328 (pe64Headers 0x1000 328))) = some .x64 ∧
    acceptsType .x64 nt = true
  := by
  have hdos : (parseDosHeader (.ofFields 328 (pe64Headers 0x1000 328))).isSome = true := by
    decide +kernel
  obtain ⟨dos, hdos⟩ := Option.isSome_iff_exists.mp hdos
  have hnt : ((parseDosHeader (.ofFields 328 (pe64Headers 0x1000 328))).bind
      (parseNtHeaders .x64 (.ofFields 328 (pe64Headers 0x1000 328)))).isSome = true := by
    decide +kernel
  rw [hdos, Option.bind_some] at hnt
  obtain ⟨nt, hnt⟩ := Option.isSome_iff_exists.mp hnt
  have hbackend : backend (some (.ofFields 328 (pe64Headers 0x1000 328))) = some .x64 := by
    decide +kernel
  obtain ⟨-, hpe64, -, haccepts⟩ := detectPeType_agrees hdos hnt
  exact ⟨dos, nt, hdos, hnt, hpe64, hbackend, haccepts .x64 nt hbackend hnt⟩

end Wrapper
