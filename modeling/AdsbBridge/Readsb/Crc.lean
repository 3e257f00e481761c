import AdsbBridge.Lib.Crc
import AdsbBridge.Readsb.Bits

/-! # The checksum of readsb

`crc.c`. The tables of correctable syndromes that `modesChecksumInit` prepares
are a parameter; everything else is here. `valid_checksum` of the other decoders
sums up one table entry for each bit set, `modesChecksum` keeps a register and
goes byte by byte: they accept the same messages. -/
namespace AdsbBridge.Readsb
open AdsbBridge.Lib AdsbBridge.Frame

def modesGeneratorPoly : ℕ := 0xfff409

def crcTable (i : ℕ) : ℕ :=
  (fun c => if c &&& 0x800000 ≠ 0 then (c <<< 1) ^^^ modesGeneratorPoly else c <<< 1)^[8]
    (i <<< 16) &&& 0x00ffffff

/-- One round of the loop of `modesChecksum`. -/
def crcByte (rem byte : ℕ) : ℕ :=
  ((rem <<< 8) ^^^ crcTable (byte ^^^ ((rem &&& 0xff0000) >>> 16))) &&& 0xffffff

def modesChecksum (message : ℕ → ℕ) (bits : ℕ) : ℕ :=
  let n := bits / 8
  let rem := (List.range (n - 3)).foldl (fun rem i => crcByte rem (message i)) 0
  rem ^^^ (message (n - 3) <<< 16) ^^^ (message (n - 2) <<< 8) ^^^ message (n - 1)

theorem modesChecksum_lt {message : ℕ → ℕ} (h : ∀ i, message i < 256) (bits : ℕ) :
    modesChecksum message bits < 2 ^ 24 := by
  have hbyte : ∀ i, message i < 2 ^ 8 := h
  have hrem : ∀ is : List ℕ, is.foldl (fun rem i => crcByte rem (message i)) 0 < 2 ^ 24 := by
    intro is
    obtain rfl | ⟨is, i, rfl⟩ := List.eq_nil_or_concat is
    · exact Nat.two_pow_pos 24
    · rw [List.concat_eq_append, List.foldl_append]
      exact lt_of_le_of_lt Nat.and_le_right (Nat.lt_of_sub_eq_succ rfl)
  have hshift : ∀ i s, s ≤ 16 → message i <<< s < 2 ^ 24 := by
    intro i s hs
    rw [Nat.shiftLeft_eq]
    calc message i * 2 ^ s < 2 ^ 8 * 2 ^ s := by
          exact Nat.mul_lt_mul_of_pos_right (hbyte i) (Nat.two_pow_pos s)
      _ = 2 ^ (8 + s) := (Nat.pow_add 2 8 s).symm
      _ ≤ 2 ^ 24 := Nat.pow_le_pow_right (by decide) (by omega)
  refine Nat.xor_lt_two_pow (Nat.xor_lt_two_pow (Nat.xor_lt_two_pow (hrem _) ?_) ?_) ?_
  · exact hshift _ 16 (le_refl 16)
  · exact hshift _ 8 (by decide)
  · exact hshift _ 0 (by decide)

/-! ## Errors -/

/-- The bits to turn over, from `struct errorinfo`. -/
abbrev ErrorInfo := List ℕ

/-- `bitErrorTable_short` and `bitErrorTable_long`. An entry of theirs has at
least one error: `prepareSubtable` sets `errors` to `error_bit + 1`. -/
structure ErrorTables where
  short : ℕ → Option ErrorInfo
  long : ℕ → Option ErrorInfo
  short_ne_nil : ∀ syndrome, short syndrome ≠ some []
  long_ne_nil : ∀ syndrome, long syndrome ≠ some []

/-- The tables of `fixBits` 0. -/
def noTables : ErrorTables := ⟨fun _ => none, fun _ => none, fun _ => nofun, fun _ => nofun⟩

def modesChecksumDiagnose (tables : ErrorTables) (syndrome bitlen : ℕ) : Option ErrorInfo :=
  if syndrome = 0 then some []
  else if bitlen = 56 then tables.short syndrome
  else tables.long syndrome

/-- A syndrome other than zero is diagnosed as some error. -/
theorem ne_nil_of_modesChecksumDiagnose {tables : ErrorTables} {syndrome bitlen : ℕ}
    {info : ErrorInfo} (hsyndrome : syndrome ≠ 0)
    (h : modesChecksumDiagnose tables syndrome bitlen = some info) : info ≠ [] := by
  rintro rfl
  rw [modesChecksumDiagnose, if_neg hsyndrome] at h
  split at h
  · exact tables.short_ne_nil _ h
  · exact tables.long_ne_nil _ h

/-- `msg[bit >> 3] ^= 1 << (7 - (bit & 7))`. -/
def flipBit (message : Message) (bit : ℕ) : Message :=
  message.setByte (bit >>> 3) (message.byte (bit >>> 3) ^^^ (1 <<< UInt8.ofNat (7 - (bit &&& 7))))

def modesChecksumFix (message : Message) (info : ErrorInfo) : Message := info.foldl flipBit message

def correctAaField (addr : ℕ) (info : ErrorInfo) : ℕ :=
  info.foldl (fun addr bit => if bit ≥ 8 ∧ bit ≤ 31 then addr ^^^ (1 <<< (31 - bit)) else addr) addr

/-! ## The register and the table of bits -/

abbrev crcShifts : ℕ → ℕ → ℕ := Crc.shifts 24 modesGeneratorPoly

theorem crcTable_eq : ∀ i < 256, crcTable i = crcShifts 8 (i <<< 16) := by decide +kernel

theorem modesChecksumTable_eq : ∀ bit < 88,
    modesChecksumTable.getD bit 0 = crcShifts (88 - bit) (1 <<< 23) := by decide +kernel

theorem crcTable_lt (i : ℕ) : crcTable i < 2 ^ 24 :=
  lt_of_le_of_lt Nat.and_le_right (by decide)

theorem mask_eq (x : ℕ) : x &&& 0xffffff = x % 2 ^ 24 := Nat.and_two_pow_sub_one_eq_mod x 24

/-- A number below the place where another one starts. -/
theorem shiftLeft_xor_of_lt (x : ℕ) {y s : ℕ} (h : y < 2 ^ s) : x <<< s ^^^ y = x <<< s ||| y := by
  refine Nat.eq_of_testBit_eq fun i => ?_
  rw [Nat.testBit_xor, Nat.testBit_or, Nat.testBit_shiftLeft]
  by_cases hi : s ≤ i
  · have hy : y.testBit i = false :=
      Nat.testBit_lt_two_pow (lt_of_lt_of_le h (Nat.pow_le_pow_right (by decide) hi))
    rw [hy, Bool.xor_false, Bool.or_false]
  · simp [hi]

theorem split_at (s rem : ℕ) : rem = (rem >>> s) <<< s ^^^ (rem % 2 ^ s) := by
  have hlow : rem % 2 ^ s < 2 ^ s := Nat.mod_lt _ (Nat.two_pow_pos s)
  rw [shiftLeft_xor_of_lt _ hlow, ← Nat.shiftLeft_add_eq_or_of_lt hlow, Nat.shiftLeft_eq,
    Nat.shiftRight_eq_div_pow, Nat.mul_comm, Nat.div_add_mod]

/-- The table makes a byte of shifts out of one look-up. -/
theorem crcByte_eq {rem byte : ℕ} (hrem : rem < 2 ^ 24) (hbyte : byte < 256) :
    crcByte rem byte = crcShifts 8 (rem ^^^ (byte <<< 16)) := by
  have hhigh : rem >>> 16 < 256 := by rw [Nat.shiftRight_eq_div_pow]; omega
  have hlow : rem % 2 ^ 16 < 2 ^ 16 := Nat.mod_lt _ (by decide)
  have hindex : (rem &&& 0xff0000) >>> 16 = rem >>> 16 := by
    rw [Nat.shiftRight_and_distrib]
    exact (Nat.and_two_pow_sub_one_eq_mod _ 8).trans (Nat.mod_eq_of_lt hhigh)
  have hregister : rem ^^^ byte <<< 16 = (byte ^^^ rem >>> 16) <<< 16 ^^^ rem % 2 ^ 16 := by
    conv_lhs => rw [split_at 16 rem]
    rw [Nat.shiftLeft_xor_distrib, Nat.xor_assoc, Nat.xor_comm (rem % 2 ^ 16), ← Nat.xor_assoc,
      Nat.xor_comm (byte <<< 16)]
  have hmoved : crcShifts 8 (rem % 2 ^ 16) = (rem % 2 ^ 16) <<< 8 := by
    refine Crc.shifts_of_lt _ ?_
    rw [Nat.shiftLeft_eq]
    omega
  have hshifted : (rem <<< 8) % 2 ^ 24 = (rem % 2 ^ 16) <<< 8 := by
    rw [Nat.shiftLeft_eq, Nat.shiftLeft_eq]
    omega
  rw [crcByte, mask_eq, Nat.xor_mod_two_pow, hindex, hshifted, Nat.mod_eq_of_lt (crcTable_lt _),
    crcTable_eq _ (Nat.xor_lt_two_pow (n := 8) hbyte hhigh), hregister, crcShifts, Crc.shifts_xor,
    ← crcShifts, hmoved, Nat.xor_comm]

/-! ## The two checksums -/

section

variable (message : Message)

def isSet (bit : ℕ) : Bool := bitAt message bit ≠ 0

theorem atTop_byte : ∀ byte < 256,
    Crc.atTop 24 (fun i => decide ((byte >>> (7 - i % 8)) &&& 1 ≠ 0)) 8 = byte <<< 16 := by
  decide +kernel

theorem feed_lt (rem : ℕ) (bit : ℕ → Bool) {n : ℕ} (h : 0 < n) :
    Crc.feed 24 modesGeneratorPoly rem bit n < 2 ^ 24 := by
  obtain ⟨n, rfl⟩ := Nat.exists_eq_succ_of_ne_zero h.ne'
  rw [Crc.feed, List.range_succ, List.foldl_append]
  exact Nat.mod_lt _ (by decide)

/-- The byte loop feeds the bits of the message. -/
theorem crcBytes_eq (n : ℕ) :
    (List.range n).foldl (fun rem i => crcByte rem (msg message i)) 0 =
      Crc.feed 24 modesGeneratorPoly 0 (isSet message) (8 * n) := by
  induction n with
  | zero => rfl
  | succ n ih =>
    have hlt : Crc.feed 24 modesGeneratorPoly 0 (isSet message) (8 * n) < 2 ^ 24 := by
      cases n with
      | zero => exact Nat.two_pow_pos 24
      | succ n => exact feed_lt 0 _ (by omega)
    have hbits : (fun i => isSet message (8 * n + i)) =
        fun i => decide ((msg message (n + i / 8) >>> (7 - i % 8)) &&& 1 ≠ 0) := by
      funext i
      rw [isSet, bitAt, msg, show (8 * n + i) / 8 = n + i / 8 by omega,
        show (8 * n + i) % 8 = i % 8 by omega]
    have htop : Crc.atTop 24 (fun i => isSet message (8 * n + i)) 8 = msg message n <<< 16 := by
      rw [← atTop_byte _ (msg_lt message n), hbits, Crc.atTop, Crc.atTop]
      refine List.foldl_ext _ _ _ fun sum i hi => ?_
      rw [Nat.div_eq_of_lt (List.mem_range.1 hi), Nat.add_zero]
    have hbyte := Crc.feed_eq_shifts modesGeneratorPoly
      (Crc.feed 24 modesGeneratorPoly 0 (isSet message) (8 * n))
      (fun i => isSet message (8 * n + i)) (show 8 ≤ 24 by decide)
    rw [List.range_succ, List.foldl_append, ih, Nat.mul_succ, Crc.feed_add, hbyte, htop]
    exact crcByte_eq hlt (msg_lt message n)

theorem checksum_eq :
    (List.range 88).foldl (fun checksum bit =>
      if bitAt message bit ≠ 0 then checksum ^^^ modesChecksumTable.getD bit 0 else checksum) 0 =
      Crc.feed 24 modesGeneratorPoly 0 (isSet message) 88 := by
  have hsum := @Crc.shifts_feed 24 modesGeneratorPoly (isSet message) 88 88 (le_refl 88)
  rw [show Crc.feed 24 modesGeneratorPoly 0 (isSet message) 88 =
    Crc.shifts 24 modesGeneratorPoly (88 - 88)
      (Crc.feed 24 modesGeneratorPoly 0 (isSet message) 88) from rfl, hsum]
  refine List.foldl_ext _ _ _ fun sum bit hbit => ?_
  rw [modesChecksumTable_eq bit (List.mem_range.1 hbit)]
  simp only [isSet, decide_eq_true_eq]

theorem parity_eq (a : ℕ) {b c : ℕ} (hb : b < 256) (hc : c < 256) (rem : ℕ) :
    rem ^^^ a <<< 16 ^^^ b <<< 8 ^^^ c = rem ^^^ (a <<< 16 ||| b <<< 8 ||| c) := by
  have hb' : b <<< 8 < 2 ^ 16 := by rw [Nat.shiftLeft_eq]; omega
  have hab : a <<< 16 ||| b <<< 8 = (a * 256 + b) <<< 8 := by
    rw [Nat.shiftLeft_add a 8 8, ← Nat.shiftLeft_or_distrib, ← Nat.shiftLeft_add_eq_or_of_lt hb,
      Nat.shiftLeft_eq a]
  rw [Nat.xor_assoc rem, shiftLeft_xor_of_lt a hb', Nat.xor_assoc rem, hab, shiftLeft_xor_of_lt _ hc]

theorem xor_eq_zero_iff {a b : ℕ} : a ^^^ b = 0 ↔ a = b := by
  constructor
  · intro h
    have hcancel := Nat.xor_xor_cancel_right a b
    rwa [h, Nat.zero_xor, eq_comm] at hcancel
  · rintro rfl
    exact Nat.xor_self a

/-- **The checksum readsb computes vanishes on the messages the other decoders
accept**, and on no others. -/
theorem modesChecksum_eq_zero_iff : modesChecksum (msg message) 112 = 0 ↔ validChecksum message := by
  have hbytes := crcBytes_eq message 11
  rw [modesChecksum, validChecksum, checksum_eq]
  simp only [Nat.reduceDiv, Nat.reduceSub]
  rw [hbytes, parity_eq _ (msg_lt _ _) (msg_lt _ _), xor_eq_zero_iff, beq_iff_eq,
    msg_eq message 11, msg_eq message 12, msg_eq message 13]

end

end AdsbBridge.Readsb
