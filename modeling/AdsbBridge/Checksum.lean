import AdsbBridge.Lib.CrcPolynomial
import AdsbBridge.Readsb.Crc

/-! # What the checksum accepts

`valid_checksum` and `isValidModeSChecksum` sum up table entries. The messages
they accept are the multiples of the Mode S generator. -/
namespace AdsbBridge.Frame
open AdsbBridge.Lib Polynomial
open AdsbBridge.Readsb (isSet modesGeneratorPoly checksum_eq)

/-- A message as a polynomial over GF(2), its first bit in the highest place. -/
noncomputable def messagePoly (message : Message) : (ZMod 2)[X] :=
  ∑ bit ∈ Finset.range messageBits,
    C (Crc.coeffOf (isSet message bit)) * X ^ (messageBits - 1 - bit)

/-- `x ^ 24 + 0xfff409`. -/
noncomputable def modesGenerator : (ZMod 2)[X] := Crc.generator 24 modesGeneratorPoly

def parity (message : Message) : ℕ :=
  (message.byte 11).toNat <<< 16 ||| (message.byte 12).toNat <<< 8 ||| (message.byte 13).toNat

theorem isSet_eq (message : Message) (bit : ℕ) :
    isSet message bit = (message.byte (bit / 8)).toNat.testBit (7 - bit % 8) := by
  rw [isSet, bitAt, Nat.testBit, Nat.and_comm, Bool.eq_iff_iff, decide_eq_true_eq, bne_iff_ne]

theorem byte_testBit (message : Message) (i : ℕ) {j : ℕ} (h : 8 ≤ j) :
    (message.byte i).toNat.testBit j = false :=
  Nat.testBit_lt_two_pow (lt_of_lt_of_le (UInt8.toNat_lt _) (Nat.pow_le_pow_right (by omega) h))

/-- The bits of the last three bytes, in one number. -/
theorem isSet_parity (message : Message) {i : ℕ} (hi : i < 24) :
    isSet message (88 + i) = (parity message).testBit (24 - 1 - i) := by
  rw [isSet_eq, parity, Nat.testBit_or, Nat.testBit_or, Nat.testBit_shiftLeft,
    Nat.testBit_shiftLeft]
  have hplace : i < 8 ∨ (8 ≤ i ∧ i < 16) ∨ 16 ≤ i := by omega
  rcases hplace with h | ⟨hge, hlt⟩ | h
  · rw [byte_testBit message 12 (by omega), byte_testBit message 13 (by omega), Bool.and_false,
      Bool.or_false, Bool.or_false, decide_eq_true (by omega), Bool.true_and,
      show (88 + i) / 8 = 11 by omega, show 7 - (88 + i) % 8 = 24 - 1 - i - 16 by omega]
  · rw [decide_eq_false (by omega), byte_testBit message 13 (by omega), Bool.false_and,
      Bool.false_or, Bool.or_false, decide_eq_true (by omega), Bool.true_and,
      show (88 + i) / 8 = 12 by omega, show 7 - (88 + i) % 8 = 24 - 1 - i - 8 by omega]
  · rw [decide_eq_false (by omega), Bool.false_and, Bool.false_or, decide_eq_false (by omega),
      Bool.false_and, Bool.false_or, show (88 + i) / 8 = 13 by omega,
      show 7 - (88 + i) % 8 = 24 - 1 - i by omega]

theorem parity_lt (message : Message) : parity message < 2 ^ 24 := by
  have hshift : ∀ i s, s ≤ 16 → (message.byte i).toNat <<< s < 2 ^ 24 := by
    intro i s hs
    refine Nat.lt_of_lt_of_le (Nat.shiftLeft_lt (n := 8) (UInt8.toNat_lt _)) ?_
    exact Nat.pow_le_pow_right (by omega) (by omega)
  exact Nat.or_lt_two_pow (Nat.or_lt_two_pow (hshift 11 16 (le_refl 16)) (hshift 12 8 (by omega)))
    (hshift 13 0 (by omega))

/-- **The table checksum is division by the generator.** -/
theorem validChecksum_iff_dvd (message : Message) :
    validChecksum message = true ↔ modesGenerator ∣ messagePoly message := by
  have hsplit : messagePoly message =
      X ^ 24 * Crc.streamPoly (isSet message) 88 + Crc.wordPoly 24 (parity message) := by
    rw [← Crc.streamPoly_word fun i hi => isSet_parity message hi, ← Crc.streamPoly_add]
    rfl
  have hfeed : Crc.feed 24 modesGeneratorPoly 0 (isSet message) 88 < 2 ^ 24 :=
    Readsb.feed_lt 0 _ (by omega)
  rw [hsplit, modesGenerator,
    Crc.generator_dvd_codeword (by omega) modesGeneratorPoly _ 88 hfeed (parity_lt message),
    validChecksum, checksum_eq, beq_iff_eq]
  rfl

/-! ## Bursts -/

/-- Two messages that differ, and only within `span` bits in a row. -/
structure DifferInBurst (message altered : Message) (span : ℕ) : Prop where
  differ : message ≠ altered
  burst : ∃ start, ∀ bit < messageBits, bitAt message bit ≠ bitAt altered bit →
    start ≤ bit ∧ bit < start + span

/-- A message is its bits. -/
theorem eq_of_isSet {message altered : Message}
    (h : ∀ bit < messageBits, isSet message bit = isSet altered bit) : message = altered := by
  have hbyte : ∀ i < 14, message.byte i = altered.byte i := by
    intro i hi
    refine UInt8.toNat_inj.1 (Nat.eq_of_testBit_eq fun j => ?_)
    by_cases hj : 8 ≤ j
    · rw [byte_testBit message i hj, byte_testBit altered i hj]
    · have := h (8 * i + (7 - j)) (by rw [messageBits]; omega)
      rwa [isSet_eq, isSet_eq, show (8 * i + (7 - j)) / 8 = i by omega,
        show 7 - (8 * i + (7 - j)) % 8 = j by omega] at this
  refine Vector.ext fun i hi => ?_
  have := hbyte i hi
  simpa only [Message.byte, List.getD_eq_getElem?_getD, Vector.getElem?_toList,
    Vector.getElem?_eq_getElem hi, Option.getD_some] using this

/-- **No short burst goes unnoticed.** -/
theorem validChecksum_of_burst {message altered : Message} (h : DifferInBurst message altered 24)
    (hvalid : validChecksum message = true) : validChecksum altered = false := by
  obtain ⟨start, hburst⟩ := h.burst
  rw [← Bool.not_eq_true]
  intro haltered
  have hsum : modesGenerator ∣
      Crc.streamPoly (fun bit => isSet message bit ^^ isSet altered bit) messageBits := by
    rw [Crc.streamPoly_xor]
    exact dvd_add ((validChecksum_iff_dvd message).1 hvalid)
      ((validChecksum_iff_dvd altered).1 haltered)
  obtain ⟨bit, hbit, hne⟩ : ∃ bit < messageBits, isSet message bit ≠ isSet altered bit := by
    by_contra hno
    exact h.differ (eq_of_isSet fun bit hbit => by_contra fun hne => hno ⟨bit, hbit, hne⟩)
  have hwithin : ∀ bit < messageBits, (isSet message bit ^^ isSet altered bit) = true →
      start ≤ bit ∧ bit < start + 24 := by
    intro bit hbit hset
    refine hburst bit hbit fun heq => Bool.xor_iff_ne.1 hset ?_
    rw [isSet, isSet, heq]
  exact Crc.not_generator_dvd_burst (by omega) rfl hwithin hbit (Bool.xor_iff_ne.2 hne) hsum

/-- **The table checksum is the Mode S CRC**: it accepts the multiples of the
generator, and so no message that a burst of at most 24 bits has altered. -/
theorem validChecksum_modesCrc :
    (∀ message, validChecksum message = true ↔ modesGenerator ∣ messagePoly message) ∧
      ∀ message altered, DifferInBurst message altered 24 → validChecksum message = true →
        validChecksum altered = false :=
  ⟨validChecksum_iff_dvd, fun _ _ h hvalid => validChecksum_of_burst h hvalid⟩

def identification : Message :=
  #v[0x8d, 0x48, 0x50, 0x20, 0x20, 0x2c, 0xc3, 0x71, 0xc3, 0x2c, 0xe0, 0x30, 0x7e, 0xa2]

/-- The message with a burst of eight bits across two bytes. -/
def identificationHit : Message :=
  #v[0x8d, 0x48, 0x50, 0x2d, 0xd0, 0x2c, 0xc3, 0x71, 0xc3, 0x2c, 0xe0, 0x30, 0x7e, 0xa2]

theorem identificationHit_rejected : validChecksum identificationHit = false := by
  refine validChecksum_modesCrc.2 identification identificationHit ⟨by decide, 28, ?_⟩ (by decide)
  decide

end AdsbBridge.Frame
