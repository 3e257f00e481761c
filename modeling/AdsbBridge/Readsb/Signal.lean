import AdsbBridge.Readsb.Demod2400
import AdsbBridge.Slicing

/-! # Messages in samples of 2.4 MHz

Time goes in ticks of a twelfth of a microsecond: six to a symbol and five to a
sample. A transmission is a preamble of sixteen symbols and two symbols for each
bit, and a sample measures for how many of its ticks the carrier is on. Each
sample may be off by some noise. As long as the noise stays below 38/41 of what
one tick contributes, the phase that fits is tried where the preamble starts,
and what is sliced there is the message, whatever the neighbouring symbols of
each bit are. -/
namespace AdsbBridge.Readsb
open AdsbBridge.Frame

/-! ## Transmissions -/

section

variable (message : Message) (msgbits start : ℕ)

/-- Whether the carrier is on during a symbol. -/
def symbolHigh (symbol : ℕ) : Bool :=
  if symbol < 16 then symbol ∈ [0, 2, 7, 9]
  else if symbol < 16 + 2 * msgbits then
    isSet message ((symbol - 16) / 2) == decide (symbol % 2 = 0)
  else false

def tickHigh (t : ℕ) : ℕ :=
  if start ≤ t ∧ symbolHigh message msgbits ((t - start) / 6) then 1 else 0

/-- The ticks of a sample with the carrier on. -/
def highTicks (i : ℕ) : ℕ :=
  tickHigh message msgbits start (5 * i) + tickHigh message msgbits start (5 * i + 1) +
    tickHigh message msgbits start (5 * i + 2) + tickHigh message msgbits start (5 * i + 3) +
    tickHigh message msgbits start (5 * i + 4)

def transmissionEnd : ℕ := start + 6 * (16 + 2 * msgbits)

end

/-- Samples that show a transmission, as far as it reaches. -/
structure Carries (m : ℕ → ℕ) (message : Message) (msgbits start amplitude noise : ℕ) : Prop where
  above : ∀ i, start ≤ 5 * i + 4 → 5 * i < transmissionEnd msgbits start →
    m i ≤ amplitude * highTicks message msgbits start i + noise
  below : ∀ i, start ≤ 5 * i + 4 → 5 * i < transmissionEnd msgbits start →
    amplitude * highTicks message msgbits start i ≤ m i + noise
  margin : 41 * noise < 38 * amplitude

/-! ## Slicing a bit -/

/-- A sum of five ticks, the first of them the `n`-th of the symbol before a bit. -/
def fiveTicks (level : ℕ → ℕ) (n : ℕ) : ℕ :=
  level (n / 6) + level ((n + 1) / 6) + level ((n + 2) / 6) + level ((n + 3) / 6) +
    level ((n + 4) / 6)

/-- **What a correlation tells**: the two halves of the bit decide it, not the
symbols around them. -/
theorem slicePhase_pos_iff {m : ℕ → ℕ} {level : ℕ → ℕ} {phase q amplitude noise : ℕ}
    (hphase : phase < 5) (hmargin : 41 * noise < 38 * amplitude)
    (habove : ∀ d, 5 * d < 12 + phase → m (q + d) ≤ amplitude * fiveTicks level (6 - phase + 5 * d) + noise)
    (hbelow : ∀ d, 5 * d < 12 + phase → amplitude * fiveTicks level (6 - phase + 5 * d) ≤ m (q + d) + noise)
    (hlevel : ∀ j, level j = 0 ∨ level j = 1) (hhalves : level 1 + level 2 = 1) :
    slicePhase (fun i => m i) phase q > 0 ↔ level 1 = 1 := by
  have h₀ := habove 0 (by omega)
  have h₁ := habove 1 (by omega)
  have h₂ := habove 2 (by omega)
  have h₃ := habove 3
  have h₀' := hbelow 0 (by omega)
  have h₁' := hbelow 1 (by omega)
  have h₂' := hbelow 2 (by omega)
  have h₃' := hbelow 3
  have hbefore := hlevel 0
  have hafter := hlevel 3
  generalize hl₀ : level 0 = l₀ at hbefore
  generalize hl₁ : level 1 = l₁ at hhalves ⊢
  generalize hl₂ : level 2 = l₂ at hhalves
  generalize hl₃ : level 3 = l₃ at hafter
  have hcases : phase = 0 ∨ phase = 1 ∨ phase = 2 ∨ phase = 3 ∨ phase = 4 := by omega
  have hbit : l₁ = 0 ∧ l₂ = 1 ∨ l₁ = 1 ∧ l₂ = 0 := by omega
  rcases hcases with rfl | rfl | rfl | rfl | rfl <;>
    simp only [fiveTicks, Nat.reduceSub, Nat.reduceMul, Nat.reduceAdd, Nat.reduceDiv, hl₀, hl₁, hl₂, hl₃,
      Nat.add_zero] at h₀ h₁ h₂ h₃ h₀' h₁' h₂' h₃' <;>
    simp only [slicePhase] <;>
    rcases hbit with ⟨rfl, rfl⟩ | ⟨rfl, rfl⟩ <;>
    rcases hbefore with rfl | rfl <;>
    rcases hafter with rfl | rfl <;>
    omega

section

variable {message : Message} {msgbits start : ℕ}

/-- The level of a symbol, counted from the one before a bit. -/
def levelFrom (message : Message) (msgbits bit j : ℕ) : ℕ :=
  if symbolHigh message msgbits (15 + 2 * bit + j) then 1 else 0

theorem highTicks_eq (bit n i : ℕ) (h : 5 * i = start + 90 + 12 * bit + n) :
    highTicks message msgbits start i = fiveTicks (levelFrom message msgbits bit) n := by
  have htick : ∀ k, tickHigh message msgbits start (5 * i + k) =
      levelFrom message msgbits bit ((n + k) / 6) := by
    intro k
    have hsymbol : (5 * i + k - start) / 6 = 15 + 2 * bit + (n + k) / 6 := by omega
    rw [tickHigh, levelFrom, hsymbol]
    simp only [show start ≤ 5 * i + k by omega, true_and]
  have hfirst := htick 0
  rw [Nat.add_zero, Nat.add_zero] at hfirst
  rw [highTicks, fiveTicks, hfirst, htick, htick, htick, htick]

theorem levelFrom_one {bit : ℕ} (hbit : bit < msgbits) :
    levelFrom message msgbits bit 1 = if isSet message bit then 1 else 0 := by
  have hplace : (15 + 2 * bit + 1 - 16) / 2 = bit := by omega
  have hhigh : symbolHigh message msgbits (15 + 2 * bit + 1) = isSet message bit := by
    rw [symbolHigh, if_neg (by omega), if_pos (by omega), hplace, decide_eq_true (by omega)]
    exact beq_true _
  rw [levelFrom, hhigh]

theorem levelFrom_two {bit : ℕ} (hbit : bit < msgbits) :
    levelFrom message msgbits bit 2 = if isSet message bit then 0 else 1 := by
  have hplace : (15 + 2 * bit + 2 - 16) / 2 = bit := by omega
  have hhigh : symbolHigh message msgbits (15 + 2 * bit + 2) = !isSet message bit := by
    rw [symbolHigh, if_neg (by omega), if_pos (by omega), hplace, decide_eq_false (by omega)]
    exact beq_false _
  rw [levelFrom, hhigh]
  cases isSet message bit <;> rfl

/-- **A bit of the transmission is sliced** where it starts. -/
theorem slicePhase_shown {m : ℕ → ℕ} {amplitude noise bit t : ℕ}
    (h : Carries m message msgbits start amplitude noise) (hbit : bit < msgbits)
    (ht : t = start + 96 + 12 * bit) :
    slicePhase (fun i => m i) (t % 5) (t / 5) > 0 ↔ isSet message bit = true := by
  have hend : t + 12 ≤ transmissionEnd msgbits start := by
    rw [transmissionEnd]
    omega
  have hticks : ∀ d, highTicks message msgbits start (t / 5 + d) =
      fiveTicks (levelFrom message msgbits bit) (6 - t % 5 + 5 * d) :=
    fun d => highTicks_eq bit _ _ (by omega)
  have hlevel : ∀ j, levelFrom message msgbits bit j = 0 ∨ levelFrom message msgbits bit j = 1 := by
    intro j
    rw [levelFrom]
    split
    · exact .inr rfl
    · exact .inl rfl
  have hhalves : levelFrom message msgbits bit 1 + levelFrom message msgbits bit 2 = 1 := by
    rw [levelFrom_one hbit, levelFrom_two hbit]
    split <;> rfl
  rw [slicePhase_pos_iff (Nat.mod_lt t (by omega)) h.margin
    (fun d hd => hticks d ▸ h.above _ (by omega) (by omega))
    (fun d hd => hticks d ▸ h.below _ (by omega) (by omega)) hlevel hhalves, levelFrom_one hbit]
  split <;> simp_all

end

/-! ## Slicing bytes -/

/-- The bits of a byte are twelve ticks apart. -/
theorem sliceSteps_eq : ∀ phase < 5, sliceSteps phase =
    ((List.range 8).map fun k => ((phase + 12 * k) % 5, (phase + 12 * k) / 5),
      (phase + 96) % 5, (phase + 96) / 5) := by
  decide

section

variable {message : Message} {msgbits start amplitude noise : ℕ} {m : ℕ → ℕ}

/-- Eight bits read one by one are a byte. -/
theorem foldl_testBit (value : ℕ) : ∀ n ≤ 8, (List.range n).foldl
    (fun byte k => 2 * byte + if value.testBit (7 - k) then 1 else 0) 0 = value / 2 ^ (8 - n) % 2 ^ n := by
  intro n hn
  induction n with
  | zero => simp [Nat.mod_one]
  | succ n ih =>
    have hbit : (if value.testBit (7 - n) then 1 else 0) = value / 2 ^ (7 - n) % 2 := by
      rw [Nat.testBit_eq_decide_div_mod_eq]
      by_cases h : value / 2 ^ (7 - n) % 2 = 1
      · simp [h]
      · simp [h]
        omega
    have hhalf : value / 2 ^ (8 - n) = value / 2 ^ (7 - n) / 2 := by
      rw [show 8 - n = 7 - n + 1 by omega, pow_succ, Nat.div_div_eq_div_mul]
    rw [List.range_succ, List.foldl_append, ih (by omega)]
    simp only [List.foldl_cons, List.foldl_nil]
    rw [hbit, hhalf, show 8 - (n + 1) = 7 - n by omega, pow_succ' 2 n, Nat.mod_mul]
    omega

theorem sliceByte_shown (h : Carries m message msgbits start amplitude noise) {i t : ℕ}
    (hi : 8 * i + 8 ≤ msgbits) (ht : t = start + 96 + 96 * i) :
    sliceByte (fun i => m i) (t % 5) (t / 5) = (message.byte i).toNat := by
  have hbits : sliceByte (fun i => m i) (t % 5) (t / 5) =
      (List.range 8).foldl (fun byte k =>
        2 * byte + if (message.byte i).toNat.testBit (7 - k) then 1 else 0) 0 := by
    rw [sliceByte, sliceSteps_eq _ (Nat.mod_lt t (by omega)), List.foldl_map]
    refine List.foldl_ext _ _ _ fun byte k hk => ?_
    have hk8 : k < 8 := List.mem_range.1 hk
    have hslice := slicePhase_shown h (show 8 * i + k < msgbits by omega)
      (show t + 12 * k = start + 96 + 12 * (8 * i + k) by omega)
    rw [isSet_eq, show (8 * i + k) / 8 = i by omega, show 7 - (8 * i + k) % 8 = 7 - k by omega] at hslice
    simp only [show (t % 5 + 12 * k) % 5 = (t + 12 * k) % 5 by omega,
      show t / 5 + (t % 5 + 12 * k) / 5 = (t + 12 * k) / 5 by omega, hslice]
  have hvalue := UInt8.toNat_lt (message.byte i)
  rw [hbits, foldl_testBit _ 8 (le_refl 8)]
  omega

/-- Byte after byte, the pointer and the phase keep up with the transmission. -/
theorem sliceBytes_shown (h : Carries m message msgbits start amplitude noise) {n i t : ℕ}
    (hi : 8 * (i + n) ≤ msgbits) (ht : t = start + 96 + 96 * i) :
    sliceBytes (fun i => m i) n (t % 5) (t / 5) =
      (List.range' i n).map fun j => (message.byte j).toNat := by
  induction n generalizing i t with
  | zero => rfl
  | succ n ih =>
    have hnext := ih (i := i + 1) (t := t + 96) (by omega) (by omega)
    rw [show (t + 96) % 5 = (t % 5 + 96) % 5 by omega,
      show (t + 96) / 5 = t / 5 + (t % 5 + 96) / 5 by omega] at hnext
    simp only [sliceBytes, sliceSteps_eq _ (Nat.mod_lt t (show 0 < 5 by omega)), hnext]
    rw [sliceByte_shown h (by omega) ht, List.range'_succ, List.map_cons]

/-! ## The message -/

/-- A message as long as its type says, with nothing behind it. -/
structure FitsType (message : Message) (msgbits : ℕ) : Prop where
  length : msgbits =
    if isLongDF ((message.byte 0).toNat >>> 3) then 112
    else if isShortDF ((message.byte 0).toNat >>> 3) then 56 else 8
  rest : ∀ i, msgbits ≤ 8 * i → message.byte i = 0

theorem byte_of_le (message : Message) {i : ℕ} (hi : 14 ≤ i) : message.byte i = 0 := by
  rw [Message.byte, List.getD_eq_getElem?_getD, List.getElem?_eq_none (by simpa using hi)]
  rfl

theorem byte_ofFn (f : Fin 14 → UInt8) {i : ℕ} (hi : i < 14) :
    Message.byte (Vector.ofFn f) i = f ⟨i, hi⟩ := by
  rw [Message.byte, List.getD_eq_getElem?_getD, Vector.getElem?_toList, Vector.getElem?_ofFn,
    dif_pos hi]
  rfl

/-- **What is sliced from a transmission** is its message, in the phase behind the
one the preamble starts in. -/
theorem slicedMessage_shown {pa phase : ℕ} (hfits : FitsType message msgbits)
    (h : Carries m message msgbits (5 * pa + phase) amplitude noise) :
    slicedMessage (fun i => m i) pa (phase + 1) = message := by
  have hpos : pa + 19 + (phase + 1) / 5 = (5 * pa + phase + 96) / 5 := by omega
  have hphase : (phase + 1) % 5 = (5 * pa + phase + 96) % 5 := by omega
  have hlong : msgbits = 112 ∨ msgbits = 56 ∨ msgbits = 8 := by
    have := hfits.length
    split at this
    · exact .inl this
    · split at this
      · exact .inr (.inl this)
      · exact .inr (.inr this)
  have hfirst := sliceByte_shown h (i := 0) (t := 5 * pa + phase + 96) (by omega) (by omega)
  have hbytelen : (if isLongDF ((message.byte 0).toNat >>> 3) then 14
      else if isShortDF ((message.byte 0).toNat >>> 3) then 7 else 1) = msgbits / 8 := by
    rw [hfits.length]
    split
    · rfl
    · split <;> rfl
  have hbytes := sliceBytes_shown h (n := msgbits / 8) (i := 0) (t := 5 * pa + phase + 96)
    (by omega) (by omega)
  unfold slicedMessage
  simp only [hpos, hphase, hfirst, hbytelen, hbytes]
  refine ext_byte fun i hi => ?_
  rw [byte_ofFn _ hi]
  show UInt8.ofNat (((List.range' 0 (msgbits / 8)).map fun j => (message.byte j).toNat).getD i 0) = _
  rw [List.getD_eq_getElem?_getD, List.getElem?_map]
  by_cases hin : i < msgbits / 8
  · rw [List.getElem?_range' hin]
    simp
  · rw [List.getElem?_eq_none (by rw [List.length_range']; omega), hfits.rest i (by omega)]
    rfl

/-! ## The preamble -/

/-- The carrier at the `n`-th tick after the first sample, for a preamble that starts
at tick `phase`. -/
def preambleTick (phase n : ℕ) : ℕ :=
  if phase ≤ n ∧ (n - phase) / 6 ∈ [0, 2, 7, 9] then 1 else 0

def preambleTicks (phase d : ℕ) : ℕ :=
  preambleTick phase (5 * d) + preambleTick phase (5 * d + 1) + preambleTick phase (5 * d + 2) +
    preambleTick phase (5 * d + 3) + preambleTick phase (5 * d + 4)

/-- The ideal sample values for preambles with different phase. -/
example :
    (List.range' 3 5).map (fun phase => (List.range 19).map (preambleTicks phase)) =
      [[2, 4, 0, 5, 1, 0, 0, 0, 0, 5, 1, 3, 3, 0, 0, 0, 0, 0, 0],
        [1, 5, 0, 4, 2, 0, 0, 0, 0, 4, 2, 2, 4, 0, 0, 0, 0, 0, 0],
        [0, 5, 1, 3, 3, 0, 0, 0, 0, 3, 3, 1, 5, 0, 0, 0, 0, 0, 0],
        [0, 4, 2, 2, 4, 0, 0, 0, 0, 2, 4, 0, 5, 1, 0, 0, 0, 0, 0],
        [0, 3, 3, 1, 5, 0, 0, 0, 0, 1, 5, 0, 4, 2, 0, 0, 0, 0, 0]] := by
  decide

theorem highTicks_preamble {pa phase d : ℕ} (hd : 5 * d + 4 < 96 + phase) :
    highTicks message msgbits (5 * pa + phase) (pa + d) = preambleTicks phase d := by
  have htick : ∀ k ≤ 4, tickHigh message msgbits (5 * pa + phase) (5 * (pa + d) + k) =
      preambleTick phase (5 * d + k) := by
    intro k hk
    have hplace : 5 * (pa + d) + k - (5 * pa + phase) = 5 * d + k - phase := by omega
    have hhigh : symbolHigh message msgbits ((5 * d + k - phase) / 6) =
        decide ((5 * d + k - phase) / 6 ∈ [0, 2, 7, 9]) := if_pos (by omega)
    rw [tickHigh, preambleTick, hplace, hhigh]
    simp only [show 5 * pa + phase ≤ 5 * (pa + d) + k ↔ phase ≤ 5 * d + k by omega,
      decide_eq_true_eq]
  have hfirst := htick 0 (by omega)
  rw [Nat.add_zero, Nat.add_zero] at hfirst
  rw [highTicks, hfirst, htick 1 (by omega), htick 2 (by omega), htick 3 (by omega),
    htick 4 (by omega), preambleTicks]

/-- **The phase of a transmission is tried** where it starts. -/
theorem mem_triedPhases {pa phase : ℕ} (hlo : 3 ≤ phase) (hhi : phase ≤ 7)
    (h : Carries m message msgbits (5 * pa + phase) amplitude noise) :
    phase + 1 ∈ triedPhases (fun i => m i) pa := by
  have hsample : ∀ d, 1 ≤ d → d ≤ 18 → m (pa + d) ≤ amplitude * preambleTicks phase d + noise ∧
      amplitude * preambleTicks phase d ≤ m (pa + d) + noise := by
    intro d hd hd'
    have hticks : highTicks message msgbits (5 * pa + phase) (pa + d) = preambleTicks phase d :=
      highTicks_preamble (by omega)
    rw [← hticks]
    have hend : 5 * (pa + d) < transmissionEnd msgbits (5 * pa + phase) := by
      rw [transmissionEnd]
      omega
    exact ⟨h.above _ (by omega) hend, h.below _ (by omega) hend⟩
  have hmargin := h.margin
  have h₁ := hsample 1 (by omega) (by omega)
  have h₂ := hsample 2 (by omega) (by omega)
  have h₃ := hsample 3 (by omega) (by omega)
  have h₄ := hsample 4 (by omega) (by omega)
  have h₅ := hsample 5 (by omega) (by omega)
  have h₇ := hsample 7 (by omega) (by omega)
  have h₈ := hsample 8 (by omega) (by omega)
  have h₉ := hsample 9 (by omega) (by omega)
  have h₁₀ := hsample 10 (by omega) (by omega)
  have h₁₁ := hsample 11 (by omega) (by omega)
  have h₁₂ := hsample 12 (by omega) (by omega)
  have h₁₄ := hsample 14 (by omega) (by omega)
  have h₁₅ := hsample 15 (by omega) (by omega)
  have h₁₆ := hsample 16 (by omega) (by omega)
  have h₁₇ := hsample 17 (by omega) (by omega)
  have h₁₈ := hsample 18 (by omega) (by omega)
  have hcases : phase = 3 ∨ phase = 4 ∨ phase = 5 ∨ phase = 6 ∨ phase = 7 := by omega
  rcases hcases with rfl | rfl | rfl | rfl | rfl
  all_goals
    simp [preambleTicks, preambleTick] at h₁ h₂ h₃ h₄ h₅ h₇ h₈ h₉ h₁₀ h₁₁ h₁₂ h₁₄ h₁₅ h₁₆ h₁₇ h₁₈
    have hpre : (m (pa + 1) : ℤ) > m (pa + 7) ∧ (m (pa + 12) : ℤ) > m (pa + 14) ∧
        (m (pa + 12) : ℤ) > m (pa + 15) := by omega
    simp only [triedPhases, if_pos hpre, List.mem_append, List.mem_ite_nil_right, List.mem_cons,
      List.not_mem_nil]
    simp only [preambleThreshold]
  · exact .inl (.inl ⟨by omega, by simp⟩)
  · exact .inl (.inl ⟨by omega, by simp⟩)
  · exact .inl (.inr ⟨by omega, by simp⟩)
  · exact .inl (.inr ⟨by omega, by simp⟩)
  · exact .inr ⟨by omega, by simp⟩

/-- A transmission is among the slices of the sample before its data that the
demodulator looks for it at. -/
theorem mem_sliceAt (hfits : FitsType message msgbits)
    (h : Carries m message msgbits start amplitude noise) (hstart : 3 ≤ start) :
    message ∈ sliceAt m ((start - 3) / 5) := by
  have hplace : start = 5 * ((start - 3) / 5) + (start - 5 * ((start - 3) / 5)) := by omega
  rw [hplace] at h
  exact List.mem_map.2 ⟨_, mem_triedPhases (by omega) (by omega) h, slicedMessage_shown hfits h⟩

end

end AdsbBridge.Readsb
