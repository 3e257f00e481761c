import AdsbBridge.Readsb.Repair

/-! # What a score promises

`scoreModesMessage` tells whether a message is worth decoding, and
`decodeModesMessage` goes through its checksum once more. The score works on the
address alone where the decoder corrects the whole message. Both come to the
same, except for a squitter whose damaged address nobody has heard: it gets a
score and is then dropped. -/
namespace AdsbBridge.Readsb
open AdsbBridge.Lib AdsbBridge.Frame

/-! ## The corrected address -/

section

variable {message : Message}

theorem getBits_flipBit {bit : ℕ} (hbit : bit < 112) :
    getBits (flipBit message bit) 8 24 =
      if bit ≥ 8 ∧ bit ≤ 31 then getBits message 8 24 ^^^ (1 <<< (31 - bit)) else
        getBits message 8 24 := by
  split
  · next hin =>
    refine Nat.eq_of_testBit_eq fun j => ?_
    by_cases hj : j < 24
    · rw [testBit_getBits _ _ hj, isSet_flipBit hbit, Nat.testBit_xor, testBit_getBits _ _ hj,
        Nat.one_shiftLeft, Nat.testBit_two_pow]
      congr 1
      rw [decide_eq_decide]
      omega
    · have hhigh : ∀ m : Message, (getBits m 8 24).testBit j = false := fun m =>
        Nat.testBit_lt_two_pow
          (lt_of_lt_of_le (getBits_lt m 8 24) (Nat.pow_le_pow_right (by omega) (by omega)))
      rw [hhigh, Nat.testBit_xor, hhigh, Nat.one_shiftLeft, Nat.testBit_two_pow,
        decide_eq_false (by omega)]
      rfl
  · next hout => exact (getBits_flipBit_eq_iff hbit).2 (by omega)

/-- **`correct_aa_field` is the address of the corrected message.** -/
theorem correctAaField_eq (message : Message) {info : ErrorInfo} (hinfo : ∀ i ∈ info, i < 112) :
    correctAaField (getbits (msg message) 9 32) info =
      getbits (msg (modesChecksumFix message info)) 9 32 := by
  rw [getbits_address, getbits_address]
  induction info generalizing message with
  | nil => rfl
  | cons bit info ih =>
    have hrest := ih (flipBit message bit) fun i hi => hinfo i (List.mem_cons_of_mem bit hi)
    rw [getBits_flipBit (hinfo bit List.mem_cons_self)] at hrest
    rw [correctAaField, List.foldl_cons]
    exact hrest

end

/-! ## Scores and decoding -/

section

variable {env : Env} {filter : IcaoFilter} {message : Message} {fixBits : ℕ}

/-- What is diagnosed lies within the message. -/
theorem lt_of_diagnose (henv : env.tables = modesChecksumInit fixBits) {crc bitlen : ℕ}
    (hbits : bitlen = 56 ∨ bitlen = 112) {info : ErrorInfo}
    (h : modesChecksumDiagnose env.tables crc bitlen = some info) : ∀ i ∈ info, i < 112 := by
  intro i hi
  by_cases hcrc : crc = 0
  · rw [hcrc, diagnose_zero] at h
    cases h
    cases hi
  · rw [henv] at h
    have := (((diagnose_eq hbits hcrc).1 h).pattern.within i hi).2
    omega

/-- A squitter that could be repaired, was its address known. -/
structure UnknownRepair (env : Env) (filter : IcaoFilter) (message : Message) : Prop where
  type : getbits (msg message) 1 5 = 17 ∨ getbits (msg message) 1 5 = 18
  damaged : modesChecksum (msg message) 112 ≠ 0
  unknown : ∃ info, modesChecksumDiagnose env.tables (modesChecksum (msg message) 112) 112 =
    some info ∧ getbits (msg (modesChecksumFix message info)) 9 32 ≠ getbits (msg message) 9 32 ∧
    filter.test (getbits (msg (modesChecksumFix message info)) 9 32) = false

theorem overlaid_subset :
    [0, 4, 5, 16, 20, 21] ⊆ [0, 4, 5, 16, 24, 25, 26, 27, 28, 29, 30, 31, 20, 21] := by
  decide

/-- What the switch on the type scores, it decodes. -/
theorem checkCrc_of_score (henv : env.tables = modesChecksumInit fixBits) {msgtype crc : ℕ}
    (hcrc : crc = modesChecksum (msg message) (modesMessageLenByType msgtype))
    (htype : getbits (msg message) 1 5 = msgtype)
    (hscore : 0 ≤ scoreByType env filter message msgtype (modesMessageLenByType msgtype) crc) :
    (∃ checked, checkCrc env filter message msgtype (modesMessageLenByType msgtype) crc 0 =
      .ok checked) ∨ UnknownRepair env filter message := by
  unfold scoreByType at hscore
  split at hscore
  · next hoverlaid =>
    split at hscore
    · next hknown =>
      refine .inl ⟨{ message, addr := crc, correctedbits := 0 }, ?_⟩
      have hlist : msgtype ∈ [0, 4, 5, 16, 24, 25, 26, 27, 28, 29, 30, 31, 20, 21] :=
        overlaid_subset hoverlaid
      rw [checkCrc, if_pos hlist, if_pos hknown]
    · cases hscore
  · split at hscore
    · next heleven =>
      subst heleven
      have hbits : modesMessageLenByType 11 = 56 := rfl
      rw [hbits] at hscore hcrc ⊢
      by_cases hhigh : crc &&& 0xffff80 = 0
      · exact .inl ⟨{ message, correctedbits := 0, iid := crc &&& 0x7f }, by simp [checkCrc, hhigh]⟩
      · simp only [ne_eq, hhigh, not_false_eq_true, if_true] at hscore
        split at hscore
        · cases hscore
        · next info hinfo =>
          split at hscore
          · cases hscore
          · next hfew =>
            split at hscore
            · next hknown =>
              rw [correctAaField_eq message (lt_of_diagnose henv (.inl rfl) hinfo)] at hknown
              exact .inl ⟨{ message := modesChecksumFix message info, correctedbits := info.length },
                by simp [checkCrc, hhigh, hinfo, hfew, hknown]⟩
            · cases hscore
    · split at hscore
      · next hsquitter =>
        have hbits : modesMessageLenByType msgtype = 112 := by
          rcases hsquitter with rfl | rfl <;> rfl
        rw [hbits] at hscore hcrc ⊢
        by_cases hzero : crc = 0
        · refine .inl ⟨{ message, correctedbits := 0 }, ?_⟩
          rcases hsquitter with rfl | rfl <;> simp [checkCrc, hzero]
        · split at hscore
          · cases hscore
          · next info hinfo =>
            by_cases hunknown : getbits (msg message) 9 32 ≠
                getbits (msg (modesChecksumFix message info)) 9 32 ∧
                filter.test (getbits (msg (modesChecksumFix message info)) 9 32) = false
            · subst hcrc
              exact .inr ⟨htype ▸ hsquitter, hzero, info, hinfo, hunknown.1.symm, hunknown.2⟩
            · refine .inl ⟨{ message := modesChecksumFix message info, correctedbits := info.length }, ?_⟩
              rcases hsquitter with rfl | rfl <;> simp [checkCrc, hzero, hinfo, hunknown]
      · cases hscore

/-- A repaired type is as good as a type in order. -/
theorem checkMessage_of_fixed {fixed : Message}
    (hfix : fixDF17msgtype message (getbits (msg message) 1 5) = some fixed) :
    checkMessage env filter message = .ok (17, { message := fixed, correctedbits := 1 }) := by
  have hmember : getbits (msg message) 1 5 ∈ [1, 25, 21, 19, 16] ∧
      modesChecksum (msg fixed) 112 = 0 := by
    unfold fixDF17msgtype at hfix
    split at hfix
    · next hin =>
      simp only at hfix
      split at hfix
      · next hzero =>
        cases hfix
        exact ⟨hin, hzero⟩
      · cases hfix
    · cases hfix
  have hzeros : allZeros message = false := by
    refine allZeros_eq_false fun hzero => ?_
    rw [hzero] at hmember
    exact absurd hmember.1 (by decide)
  unfold checkMessage
  rw [if_neg (by rw [hzeros]; exact Bool.false_ne_true)]
  simp only [hfix, show modesMessageLenByType 17 = 112 from rfl, hmember.2,
    checkCrc_of_fits (.inl rfl)]
  rfl

theorem decode_of_checkMessage {msgtype : ℕ} {checked : Checked}
    (h : checkMessage env filter message = .ok (msgtype, checked)) :
    (decodeModesMessage env filter message).1 = .ok (decodeBulk env msgtype checked) := by
  rw [decodeModesMessage, h]

/-- What the score lets through is decoded, or is one of those squitters. -/
theorem decode_of_score (henv : env.tables = modesChecksumInit fixBits) {validbits : ℕ}
    (hscore : 0 ≤ scoreModesMessage env filter message validbits) :
    (∃ mm, (decodeModesMessage env filter message).1 = .ok mm) ∨ UnknownRepair env filter message := by
  unfold scoreModesMessage at hscore
  split at hscore
  · cases hscore
  · simp only at hscore
    split at hscore
    · next fixed hfixed =>
      split at hfixed
      · exact .inl ⟨_, decode_of_checkMessage (checkMessage_of_fixed hfixed)⟩
      · cases hfixed
    · next hnone =>
      generalize htype : getbits (msg message) 1 5 = msgtype at hscore hnone
      split at hscore
      · cases hscore
      · next hlong =>
        split at hscore
        · cases hscore
        · next hzeros =>
          have hfix : fixDF17msgtype message msgtype = none := by
            by_cases hvalid : validbits ≥ 112
            · rwa [if_pos hvalid] at hnone
            · refine if_neg fun hin => ?_
              simp only [List.mem_cons, List.not_mem_nil, or_false] at hin
              rcases hin with rfl | rfl | rfl | rfl | rfl
              · cases hscore
              all_goals exact hlong (by rw [modesMessageLenByType]; simp; omega)
          have hplain : checkMessage env filter message =
              (checkCrc env filter message msgtype (modesMessageLenByType msgtype)
                (modesChecksum (msg message) (modesMessageLenByType msgtype)) 0).map fun checked =>
                  (msgtype, checked) := by
            unfold checkMessage
            rw [if_neg hzeros, htype]
            simp only [hfix]
          rcases checkCrc_of_score henv rfl htype hscore with ⟨checked, hchecked⟩ | hunknown
          · rw [hchecked] at hplain
            exact .inl ⟨_, decode_of_checkMessage hplain⟩
          · exact .inr hunknown

theorem UnknownRepair.rejected (h : UnknownRepair env filter message) :
    (decodeModesMessage env filter message).1 = .error .unknownIcao := by
  obtain ⟨info, hinfo, hdiffers, hunknown⟩ := h.unknown
  rw [decode_explained rfl h.type h.damaged rfl hinfo, if_pos ⟨hdiffers.symm, hunknown⟩]

/-- **Scored is decoded**, but for a squitter whose repaired address is not known. -/
theorem decode_iff_of_score (henv : env.tables = modesChecksumInit fixBits) {validbits : ℕ}
    (hscore : 0 ≤ scoreModesMessage env filter message validbits) :
    (∃ mm, (decodeModesMessage env filter message).1 = .ok mm) ↔
      ¬ UnknownRepair env filter message := by
  constructor
  · rintro ⟨mm, hdecoded⟩ hunknown
    rw [hunknown.rejected] at hdecoded
    cases hdecoded
  · exact fun hnot => (decode_of_score henv hscore).resolve_right hnot

/-- Repairs halve the score. -/
theorem UnknownRepair.score_le (h : UnknownRepair env filter message) (validbits : ℕ) :
    scoreModesMessage env filter message validbits ≤ 900 := by
  obtain ⟨info, hinfo, -, -⟩ := h.unknown
  have hlen : 0 < info.length :=
    List.length_pos_iff.2 (ne_nil_of_modesChecksumDiagnose h.damaged hinfo)
  have htype := h.type
  have hfix : fixDF17msgtype message (getbits (msg message) 1 5) = none := by
    rcases h.type with ht | ht <;> rw [ht] <;> rfl
  have hbits : modesMessageLenByType (getbits (msg message) 1 5) = 112 := by
    rcases h.type with ht | ht <;> rw [ht] <;> rfl
  have hhalf : ∀ points : ℤ, 0 ≤ points → points ≤ 1800 →
      points / ((info.length : ℤ) + 1) ≤ 900 := by
    intro points hpos hle
    refine Int.ediv_le_of_le_mul (by omega) ?_
    nlinarith
  have hscored : scoreByType env filter message (getbits (msg message) 1 5) 112
      (modesChecksum (msg message) 112) ≤ 900 := by
    have hvalue : scoreByType env filter message (getbits (msg message) 1 5) 112
        (modesChecksum (msg message) 112) =
        (if filter.test (correctAaField (getbits (msg message) 9 32) info) then 1800 else 1400) /
          ((info.length : ℤ) + 1) := by
      rcases h.type with ht | ht <;> simp [scoreByType, ht, hinfo]
    rw [hvalue]
    split
    · exact hhalf _ (by omega) (le_refl _)
    · exact hhalf _ (by omega) (by omega)
  unfold scoreModesMessage
  simp only [hfix, ite_self, hbits]
  split_ifs
  · omega
  · omega
  · omega
  · exact hscored

/-- A score that no repaired message reaches is one of a message that is decoded. -/
theorem decode_of_high_score (henv : env.tables = modesChecksumInit fixBits) {validbits : ℕ}
    (hscore : 900 < scoreModesMessage env filter message validbits) :
    ∃ mm, (decodeModesMessage env filter message).1 = .ok mm := by
  have hpos : 0 ≤ scoreModesMessage env filter message validbits := by omega
  refine (decode_iff_of_score henv hpos).2 fun hunknown => ?_
  have := hunknown.score_le validbits
  omega

end

end AdsbBridge.Readsb
