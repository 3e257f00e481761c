import AdsbBridge.Checksum

/-! # What slicing makes of a buffer

The loop over the bits of a message compares the two halves of each: the bits
of the message it delivers say which half is the stronger. -/
namespace AdsbBridge.Frame
open AdsbBridge.Readsb (isSet)

theorem toNat_one_shiftLeft : ∀ k < 8, ((1 : UInt8) <<< UInt8.ofNat k).toNat = 2 ^ k := by decide

theorem byte_setByte (message : Message) {i : ℕ} (hi : i < 14) (value : UInt8) (j : ℕ) :
    (message.setByte i value).byte j = if i = j then value else message.byte j := by
  have hlen : message.toList.length = 14 := by simp
  unfold Message.byte Message.setByte
  rw [List.getD_eq_getElem?_getD, List.getD_eq_getElem?_getD, Vector.toList_setIfInBounds,
    List.getElem?_set, hlen]
  split
  · rfl
  · rfl

/-- `message[bit / 8] |= ...` sets that bit and no other. -/
theorem isSet_setBit (message : Message) {bit : ℕ} (hbit : bit < messageBits) (i : ℕ) :
    isSet (setBit message bit) i = (decide (i = bit) || isSet message i) := by
  have hplace : bit / 8 < 14 := by
    unfold messageBits at hbit
    omega
  rw [isSet_eq, isSet_eq, setBit, byte_setByte message hplace]
  split
  · next hbyte =>
    rw [UInt8.toNat_or, Nat.testBit_or, toNat_one_shiftLeft _ (by omega), Nat.testBit_two_pow,
      hbyte, Bool.or_comm]
    congr 1
    rw [decide_eq_decide]
    omega
  · next hbyte =>
    rw [decide_eq_false (by rintro rfl; exact hbyte rfl), Bool.false_or]

/-- A message is its bits. -/
theorem ext_isSet {message message' : Message}
    (h : ∀ bit < messageBits, isSet message bit = isSet message' bit) : message = message' := by
  have hbyte : ∀ i < 14, message.byte i = message'.byte i := by
    intro i hi
    refine UInt8.toNat_inj.1 (Nat.eq_of_testBit_eq fun j => ?_)
    by_cases hj : j < 8
    · have hbit := h (8 * i + (7 - j)) (by unfold messageBits; omega)
      rwa [isSet_eq, isSet_eq, show (8 * i + (7 - j)) / 8 = i by omega,
        show 7 - (8 * i + (7 - j)) % 8 = j by omega] at hbit
    · rw [byte_testBit message i (by omega), byte_testBit message' i (by omega)]
  refine Vector.toList_inj.1 (List.ext_getElem (by simp) fun i hi hi' => ?_)
  have hi14 : i < 14 := by simpa using hi
  have hget := hbyte i hi14
  unfold Message.byte at hget
  rwa [List.getD_eq_getElem _ _ hi, List.getD_eq_getElem _ _ hi'] at hget

theorem ext_byte {message message' : Message} (h : ∀ i < 14, message.byte i = message'.byte i) :
    message = message' := by
  refine ext_isSet fun bit hbit => ?_
  rw [messageBits] at hbit
  rw [isSet_eq, isSet_eq, h _ (by omega)]

/-- The message whose bits say which half of a bit is the stronger. -/
def sliced (mag : ℕ → ℕ) (start n : ℕ) : Message :=
  (List.range n).foldl (fun message bit =>
    if mag (start + bit * 2 + 1) < mag (start + bit * 2) then setBit message bit else message)
    (Vector.replicate 14 0)

theorem sliced_succ (mag : ℕ → ℕ) (start n : ℕ) :
    sliced mag start (n + 1) =
      if mag (start + n * 2 + 1) < mag (start + n * 2) then setBit (sliced mag start n) n
      else sliced mag start n := by
  rw [sliced, List.range_succ, List.foldl_append]
  rfl

theorem isSet_sliced (mag : ℕ → ℕ) (start : ℕ) {n : ℕ} (hn : n ≤ messageBits) (i : ℕ) :
    isSet (sliced mag start n) i =
      (decide (i < n) && decide (mag (start + i * 2 + 1) < mag (start + i * 2))) := by
  induction n with
  | zero =>
    have hzero : (sliced mag start 0).byte (i / 8) = 0 := by
      show (Vector.replicate 14 (0 : UInt8)).toList.getD (i / 8) 0 = 0
      rw [List.getD_eq_getElem?_getD, Vector.toList_replicate, List.getElem?_replicate]
      split <;> rfl
    rw [decide_eq_false (Nat.not_lt_zero i), Bool.false_and, isSet_eq, hzero]
    exact Nat.zero_testBit _
  | succ n ih =>
    rw [sliced_succ]
    by_cases hi : i = n
    · subst hi
      split
      · next hlt => simp [isSet_setBit _ (by omega : i < messageBits), hlt]
      · next hge => simp [ih (by omega), hge]
    · have hlt : decide (i < n + 1) = decide (i < n) := by
        rw [decide_eq_decide]
        omega
      rw [hlt]
      split
      · rw [isSet_setBit _ (by omega : n < messageBits), decide_eq_false hi, Bool.false_or,
          ih (by omega)]
      · exact ih (by omega)

theorem sliceBit_eq (mag : ℕ → ℕ) (start : ℕ) (message : Message) (bit : ℕ) :
    sliceBit mag start message bit =
      if ((mag (start + bit * 2) : ℤ) - mag (start + bit * 2 + 1)).natAbs * 16 <
          mag (start + bit * 2) + mag (start + bit * 2 + 1) then none
      else some (if mag (start + bit * 2 + 1) < mag (start + bit * 2) then setBit message bit
        else message) := by
  unfold sliceBit
  simp only
  split
  · rfl
  · have hdiff : (mag (start + bit * 2) : ℤ) - mag (start + bit * 2 + 1) > 0 ↔
        mag (start + bit * 2 + 1) < mag (start + bit * 2) := by omega
    by_cases h : mag (start + bit * 2 + 1) < mag (start + bit * 2)
    · rw [if_pos (hdiff.2 h), if_pos h]
    · rw [if_neg (mt hdiff.1 h), if_neg h]

/-- **The slicing loop either gives up or delivers that message.** -/
theorem slice_eq_some {mag : ℕ → ℕ} {start n : ℕ} {message : Message}
    (h : (List.range n).foldlM (sliceBit mag start) (Vector.replicate 14 0) = some message) :
    message = sliced mag start n := by
  induction n generalizing message with
  | zero =>
    cases h
    rfl
  | succ n ih =>
    rw [List.range_succ, List.foldlM_append] at h
    obtain ⟨before, hbefore, hlast⟩ := Option.bind_eq_some_iff.1 h
    rw [List.foldlM_cons, sliceBit_eq, ih hbefore] at hlast
    split at hlast
    · cases hlast
    · cases hlast
      rw [sliced_succ]

/-- It does not give up where one half of every bit is silent. -/
theorem slice_of_silent {mag : ℕ → ℕ} {start n : ℕ}
    (h : ∀ bit < n, mag (start + bit * 2) = 0 ∨ mag (start + bit * 2 + 1) = 0) :
    (List.range n).foldlM (sliceBit mag start) (Vector.replicate 14 0) =
      some (sliced mag start n) := by
  induction n with
  | zero => rfl
  | succ n ih =>
    have hclear : ¬ ((mag (start + n * 2) : ℤ) - mag (start + n * 2 + 1)).natAbs * 16 <
        mag (start + n * 2) + mag (start + n * 2 + 1) := by
      rcases h n (Nat.lt_succ_self n) with hzero | hzero <;> omega
    rw [List.range_succ, List.foldlM_append, ih fun bit hbit => h bit (by omega)]
    show (sliceBit mag start (sliced mag start n) n >>= fun message => some message) = _
    rw [sliceBit_eq, if_neg hclear, sliced_succ]
    rfl

end AdsbBridge.Frame
