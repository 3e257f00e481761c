import Mathlib.Data.Int.Notation
import AdsbBridge.Lib.Scan

/-! # Messages, and finding them in a run of magnitudes

What `native_modes_decoder.cpp` and `RtlTcpAdsbReader.java` do with a buffer of
squared magnitudes at two samples a bit: the preamble test, the slicing of 112
bits, the checksum and the bit fields. The two sources agree here statement
for statement, so there is one definition of each. A buffer is read through a
function from positions to samples. -/
namespace AdsbBridge
open AdsbBridge.Lib

/-- `std::array<uint8_t, 14>`, `byte[14]`. -/
abbrev Message := Vector UInt8 14

/-- `message[i]`. -/
def Message.byte (message : Message) (i : ℕ) : UInt8 := message.toList.getD i 0

/-- `message[i] = value`. -/
def Message.setByte (message : Message) (i : ℕ) (value : UInt8) : Message :=
  message.setIfInBounds i value

namespace Frame

def preambleSamples : ℕ := 16
def messageBits : ℕ := 112
def messageSamples : ℕ := messageBits * 2

/-- Preamble and message together: what one decision looks at. -/
def frameSamples : ℕ := preambleSamples + messageSamples

/-! ## Bits of a message -/

/-- `(message[bit / 8] >> (7 - (bit % 8))) & 1`. -/
def bitAt (message : Message) (bit : ℕ) : ℕ :=
  ((message.byte (bit / 8)).toNat >>> (7 - bit % 8)) &&& 1

/-- `message[bit / 8] |= 1 << (7 - (bit % 8))`. -/
def setBit (message : Message) (bit : ℕ) : Message :=
  message.setByte (bit / 8) (message.byte (bit / 8) ||| (1 <<< UInt8.ofNat (7 - bit % 8)))

def getBits (message : Message) (start length : ℕ) : ℕ :=
  (List.range length).foldl (fun value i => (value <<< 1) ||| bitAt message (start + i)) 0

def modesChecksumTable : List ℕ :=
  [0x3935ea, 0x1c9af5, 0xf1b77e, 0x78dbbf, 0xc397db, 0x9e31e9, 0xb0e2f0, 0x587178,
    0x2c38bc, 0x161c5e, 0x0b0e2f, 0xfa7d13, 0x82c48d, 0xbe9842, 0x5f4c21, 0xd05c14,
    0x682e0a, 0x341705, 0xe5f186, 0x72f8c3, 0xc68665, 0x9cb936, 0x4e5c9b, 0xd8d449,
    0x939020, 0x49c810, 0x24e408, 0x127204, 0x093902, 0x049c81, 0xfdb444, 0x7eda22,
    0x3f6d11, 0xe04c8c, 0x702646, 0x381323, 0xe3f395, 0x8e03ce, 0x4701e7, 0xdc7af7,
    0x91c77f, 0xb719bb, 0xa476d9, 0xadc168, 0x56e0b4, 0x2b705a, 0x15b82d, 0xf52612,
    0x7a9309, 0xc2b380, 0x6159c0, 0x30ace0, 0x185670, 0x0c2b38, 0x06159c, 0x030ace,
    0x018567, 0xff38b7, 0x80665f, 0xbfc92b, 0xa01e91, 0xaff54c, 0x57faa6, 0x2bfd53,
    0xea04ad, 0x8af852, 0x457c29, 0xdd4410, 0x6ea208, 0x375104, 0x1ba882, 0x0dd441,
    0xf91024, 0x7c8812, 0x3e4409, 0xe0d800, 0x706c00, 0x383600, 0x1c1b00, 0x0e0d80,
    0x0706c0, 0x038360, 0x01c1b0, 0x00e0d8, 0x00706c, 0x003836, 0x001c1b, 0xfff409]

def validChecksum (message : Message) : Bool :=
  let checksum := (List.range 88).foldl (fun checksum bit =>
    if bitAt message bit ≠ 0 then checksum ^^^ modesChecksumTable.getD bit 0 else checksum) 0
  let parity := ((message.byte 11).toNat <<< 16) ||| ((message.byte 12).toNat <<< 8) |||
    (message.byte 13).toNat
  checksum == parity

/-! ## Slicing a buffer -/

def looksLikePreamble (mag : ℕ → ℕ) (pos : ℕ) : Bool :=
  let p0 := max (mag pos) (mag (pos + 1))
  let p1 := max (mag (pos + 2)) (mag (pos + 3))
  let p2 := max (mag (pos + 7)) (mag (pos + 8))
  let p3 := max (mag (pos + 9)) (mag (pos + 10))
  let quietSum := mag (pos + 4) + mag (pos + 5) + mag (pos + 6) + mag (pos + 11) +
    mag (pos + 12) + mag (pos + 13) + mag (pos + 14) + mag (pos + 15)
  let quietAverage := quietSum / 8
  let quietMax := max
    (max (max (mag (pos + 4)) (mag (pos + 5))) (max (mag (pos + 6)) (mag (pos + 11))))
    (max (max (mag (pos + 12)) (mag (pos + 13))) (max (mag (pos + 14)) (mag (pos + 15))))
  let peakMin := min (min p0 p1) (min p2 p3)
  let peakSum := p0 + p1 + p2 + p3
  peakMin * 3 > quietAverage * 5 && peakMin * 4 > quietMax * 5 && peakSum > quietSum

/-- One round of the slicing loop: no message when the two halves of a bit are
too close to each other. -/
def sliceBit (mag : ℕ → ℕ) (start : ℕ) (message : Message) (bit : ℕ) : Option Message :=
  let first := mag (start + bit * 2)
  let second := mag (start + bit * 2 + 1)
  let signal := first + second
  let diff : ℤ := first - second
  if diff.natAbs * 16 < signal then none
  else if diff > 0 then some (setBit message bit)
  else some message

def decodeMessage (mag : ℕ → ℕ) (start magLength : ℕ) : Option Message :=
  if start + messageSamples > magLength then none
  else
    match (List.range messageBits).foldlM (sliceBit mag start) (Vector.replicate 14 0) with
    | none => none
    | some message =>
      let df := (message.byte 0).toNat >>> 3
      if df ≠ 17 ∧ df ≠ 18 then none
      else if validChecksum message then some message else none

def acceptAt (mag : ℕ → ℕ) (magLength pos : ℕ) : Option Message :=
  if looksLikePreamble mag pos then decodeMessage mag (pos + preambleSamples) magLength else none

/-- The loop `for (pos = 0; pos < scan_limit; pos++)`: a message moves `pos` on
by `PREAMBLE_SAMPLES + MESSAGE_SAMPLES - 1` more. `fuel` bounds the rounds. -/
def scanLoop {σ : Type} (accept : ℕ → Option Message) (handle : σ → ℕ → Message → σ)
    (scanLimit : ℕ) : ℕ → ℕ → σ → σ
  | 0, _, s => s
  | fuel + 1, pos, s =>
    if pos < scanLimit then
      match accept pos with
      | some message =>
        scanLoop accept handle scanLimit fuel (pos + (frameSamples - 1) + 1) (handle s pos message)
      | none => scanLoop accept handle scanLimit fuel (pos + 1) s
    else s

/-! ## The scan as a list of accepted frames -/

/-- The jumping scan of `Lib.Scan` that the loop performs. -/
def jumping (accept : ℕ → Option Message) (pos : ℕ) : Option (Message × ℕ) :=
  (accept pos).map fun message => (message, frameSamples - 1)

theorem jumping_eq_some {accept : ℕ → Option Message} {pos skip : ℕ} {message : Message}
    (h : jumping accept pos = some (message, skip)) :
    accept pos = some message ∧ skip = frameSamples - 1 := by
  rw [jumping, Option.map_eq_some_iff] at h
  obtain ⟨accepted, ha, he⟩ := h
  cases he
  exact ⟨ha, rfl⟩

/-- **The loop handles the accepted frames one after the other.** -/
theorem scanLoop_eq {σ : Type} (accept : ℕ → Option Message) (handle : σ → ℕ → Message → σ)
    (scanLimit fuel pos : ℕ) (s : σ) (hf : scanLimit ≤ fuel + pos) :
    scanLoop accept handle scanLimit fuel pos s =
      (Scan.hits (jumping accept) scanLimit pos).foldl (fun s hit => handle s hit.1 hit.2) s := by
  induction fuel generalizing pos s with
  | zero => rw [scanLoop, Scan.hits_of_le (by omega)]; rfl
  | succ fuel ih =>
    rw [scanLoop]
    by_cases hl : pos < scanLimit
    · rw [if_pos hl]
      cases ha : accept pos with
      | none =>
        have : jumping accept pos = none := by simp [jumping, ha]
        rw [Scan.hits_none this]
        exact ih (pos + 1) s (by omega)
      | some message =>
        have : jumping accept pos = some (message, frameSamples - 1) := by simp [jumping, ha]
        rw [Scan.hits_some hl this, List.foldl_cons]
        have := ih (pos + (frameSamples - 1) + 1) (handle s pos message) (by omega)
        rwa [Nat.add_right_comm] at this ⊢
    · rw [if_neg hl, Scan.hits_of_le (by omega)]; rfl

/-- The body of the loop runs at the positions its scan looks at. -/
theorem scanLoop_eq_looked {σ : Type} (accept : ℕ → Option Message) (handle : σ → ℕ → Message → σ)
    (scanLimit fuel pos : ℕ) (s : σ) (hf : scanLimit ≤ fuel + pos) :
    scanLoop accept handle scanLimit fuel pos s =
      (Scan.looked (jumping accept) scanLimit pos).foldl
        (fun s p => (accept p).elim s (handle s p)) s := by
  rw [scanLoop_eq accept handle scanLimit fuel pos s hf, Scan.hits_eq_looked, List.foldl_filterMap]
  congr 1
  funext s p
  cases ha : accept p with
  | none => simp [jumping, ha]
  | some message => simp [jumping, ha]

/-! ## A decision depends on the samples of the frame alone -/

section Congr

variable {mag mag' : ℕ → ℕ} {pos pos' : ℕ}

theorem looksLikePreamble_congr (h : ∀ i < preambleSamples, mag (pos + i) = mag' (pos' + i)) :
    looksLikePreamble mag pos = looksLikePreamble mag' pos' := by
  have h0 : mag pos = mag' pos' := h 0 (by decide)
  simp only [looksLikePreamble, h0, h 1 (by decide), h 2 (by decide), h 3 (by decide),
    h 4 (by decide), h 5 (by decide), h 6 (by decide), h 7 (by decide), h 8 (by decide),
    h 9 (by decide), h 10 (by decide), h 11 (by decide), h 12 (by decide), h 13 (by decide),
    h 14 (by decide), h 15 (by decide)]

theorem sliceBit_congr {start start' bit : ℕ} (message : Message)
    (h₀ : mag (start + bit * 2) = mag' (start' + bit * 2))
    (h₁ : mag (start + bit * 2 + 1) = mag' (start' + bit * 2 + 1)) :
    sliceBit mag start message bit = sliceBit mag' start' message bit := by
  simp only [sliceBit, h₀, h₁]

theorem sliceBits_congr {start start' : ℕ} (bits : List ℕ)
    (h : ∀ bit ∈ bits, ∀ half < 2, mag (start + bit * 2 + half) = mag' (start' + bit * 2 + half))
    (message : Message) :
    bits.foldlM (sliceBit mag start) message = bits.foldlM (sliceBit mag' start') message := by
  induction bits generalizing message with
  | nil => rfl
  | cons bit rest ih =>
    have hb := h bit (List.mem_cons_self ..)
    rw [List.foldlM_cons, List.foldlM_cons,
      sliceBit_congr message (hb 0 (by decide)) (hb 1 (by decide))]
    congr 1
    funext message'
    exact ih (fun b hb' => h b (List.mem_cons_of_mem _ hb')) message'

/-- Two buffers that show the same `frameSamples` samples at two positions
accept the same message there. -/
theorem acceptAt_congr {len len' : ℕ} (hl : pos + frameSamples ≤ len)
    (hl' : pos' + frameSamples ≤ len')
    (h : ∀ i < frameSamples, mag (pos + i) = mag' (pos' + i)) :
    acceptAt mag len pos = acceptAt mag' len' pos' := by
  have hf : frameSamples = preambleSamples + messageSamples := rfl
  have hm : messageSamples = messageBits * 2 := rfl
  have hslice : (List.range messageBits).foldlM (sliceBit mag (pos + preambleSamples))
      (Vector.replicate 14 0) =
      (List.range messageBits).foldlM (sliceBit mag' (pos' + preambleSamples))
        (Vector.replicate 14 0) := by
    apply sliceBits_congr
    intro bit hbit half hhalf
    have hb := List.mem_range.mp hbit
    have := h (preambleSamples + bit * 2 + half) (by omega)
    simpa only [Nat.add_assoc] using this
  have hdecode : decodeMessage mag (pos + preambleSamples) len =
      decodeMessage mag' (pos' + preambleSamples) len' := by
    rw [decodeMessage, decodeMessage, hslice, if_neg (by omega), if_neg (by omega)]
  rw [acceptAt, acceptAt, looksLikePreamble_congr (fun i hi => h i (by omega)), hdecode]

end Congr

end Frame

end AdsbBridge
