import AdsbBridge.Readsb.Adapter
import AdsbBridge.Readsb.Syndrome

/-! # What a damaged squitter is decoded as

The tables of `modesChecksumInit` behind `scoreModesMessage` and
`decodeModesMessage`. A message with a few wrong bits behind its type is decoded
as what was sent or not at all. One wrong bit anywhere is repaired, but an
address is not made up from it. -/
namespace AdsbBridge.Readsb
open AdsbBridge.Lib AdsbBridge.Frame IcaoFilter

/-! ## Diagnosis -/

/-- How many errors a setting corrects and detects. -/
def correctionLimits : ℕ → ℕ × ℕ
  | 0 => (0, 0)
  | 1 => (1, 1)
  | _ => (2, 4)

section

variable {fixBits bitlen syndrome : ℕ} {info : ErrorInfo}

theorem diagnose_eq (h : bitlen = 56 ∨ bitlen = 112) (hsyndrome : syndrome ≠ 0) :
    modesChecksumDiagnose (modesChecksumInit fixBits) syndrome bitlen = some info ↔
      Correctable bitlen (correctionLimits fixBits).1 (correctionLimits fixBits).2 syndrome info := by
  have hnone : ¬ Correctable bitlen 0 0 syndrome info := fun h =>
    h.ne_nil (List.eq_nil_of_length_eq_zero (Nat.le_zero.1 h.length_le))
  rw [modesChecksumDiagnose, if_neg hsyndrome]
  rcases fixBits with - | _ | n
  · split
    · exact iff_of_false (fun hinfo => by cases hinfo) hnone
    · exact iff_of_false (fun hinfo => by cases hinfo) hnone
  · rcases h with rfl | rfl
    · exact diagnoseIn_prepareErrorTable (le_refl 1)
    · exact diagnoseIn_prepareErrorTable (le_refl 1)
  · rcases h with rfl | rfl
    · exact diagnoseIn_prepareErrorTable (by decide)
    · exact diagnoseIn_prepareErrorTable (by decide)

/-- **The tables name the only explanation** of a syndrome, and what is repaired by
it passes the check. -/
theorem modesChecksumDiagnose_spec (fixBits : ℕ) {bitlen : ℕ} (h : bitlen = 56 ∨ bitlen = 112) :
    (∀ syndrome info, modesChecksumDiagnose (modesChecksumInit fixBits) syndrome bitlen = some info ↔
      syndrome = 0 ∧ info = [] ∨
        syndrome ≠ 0 ∧ Correctable bitlen (correctionLimits fixBits).1 (correctionLimits fixBits).2
          syndrome info) ∧
      ∀ message info, modesChecksumDiagnose (modesChecksumInit fixBits)
          (modesChecksum (msg message) bitlen) bitlen = some info →
        modesChecksum (msg (modesChecksumFix message info)) bitlen = 0 := by
  constructor
  · intro syndrome info
    by_cases hsyndrome : syndrome = 0
    · subst hsyndrome
      simp [modesChecksumDiagnose, eq_comm]
    · simp [diagnose_eq h hsyndrome, hsyndrome]
  · intro message info hinfo
    by_cases hcrc : modesChecksum (msg message) bitlen = 0
    · rw [hcrc] at hinfo
      cases hinfo
      exact hcrc
    · have hc := (diagnose_eq h hcrc).1 hinfo
      rw [modesChecksum_modesChecksumFix h message fun i hi => (hc.pattern.within i hi).2,
        hc.explains, Nat.xor_self]

theorem modesChecksumDiagnose_adapter : modesChecksumDiagnose (modesChecksumInit 2) 1 112 = some [111] := by
  refine ((modesChecksumDiagnose_spec 2 (.inr rfl)).1 1 [111]).2 (.inr ⟨Nat.one_ne_zero, ?_⟩)
  have hpattern : IsPattern 5 112 [111] := IsPattern.cons_iff.2 ⟨by omega, IsPattern.nil⟩
  have hsum : errorSyndrome 112 [111] = 1 := by decide +kernel
  refine ⟨hpattern, List.cons_ne_nil _ _, Nat.le_succ 1, hsum, fun other hother _ hlen hsame => ?_⟩
  refine eq_of_xorSum_eq (hother.mono (by omega) le_rfl) (hpattern.mono (by omega) le_rfl)
    (Nat.add_le_add hlen (le_refl 1)) ?_
  rw [← errorSyndrome_long, ← errorSyndrome_long, hsame, hsum]

/-- Up to four wrong bits are not taken for others. -/
theorem eq_of_diagnose {wrong : List ℕ} (hwrong : IsPattern 5 112 wrong) (hne : wrong ≠ [])
    (hfew : wrong.length ≤ 4)
    (h : modesChecksumDiagnose (modesChecksumInit fixBits) (xorSum singleBitSyndrome wrong) 112 =
      some info) : info = wrong := by
  have hlt : ∀ i ∈ wrong, i < 112 := fun i hi => (hwrong.within i hi).2
  have hsyndrome := xorSum_singleBitSyndrome_ne_zero hwrong.nodup hlt hne (by omega)
  have hc := (diagnose_eq (.inr rfl) hsyndrome).1 h
  match fixBits with
  | 0 => exact absurd (List.eq_nil_of_length_eq_zero (Nat.le_zero.1 hc.length_le)) hc.ne_nil
  | 1 =>
    -- One bit in the table and four on the way are five: no collisions to flag.
    have hone : info.length ≤ 1 := hc.length_le
    refine eq_of_xorSum_eq (hc.pattern.mono (by omega) le_rfl) (hwrong.mono (by omega) le_rfl)
      (by omega) ?_
    rw [← errorSyndrome_long]
    exact hc.explains
  | _ + 2 => exact (hc.only wrong hwrong hne hfew (errorSyndrome_long wrong)).symm

/-- One wrong bit is found. -/
theorem diagnose_single (hfix : 1 ≤ fixBits) {bit : ℕ} (hlo : 5 ≤ bit) (hhi : bit < 112) :
    modesChecksumDiagnose (modesChecksumInit fixBits) (singleBitSyndrome bit) 112 = some [bit] := by
  have hpattern : IsPattern 5 112 [bit] := IsPattern.cons_iff.2 ⟨⟨hlo, hhi⟩, IsPattern.nil⟩
  have hsum : xorSum singleBitSyndrome [bit] = singleBitSyndrome bit := by
    rw [xorSum_cons, xorSum_nil, Nat.xor_zero]
  have hsyndrome : singleBitSyndrome bit ≠ 0 := by
    rw [← hsum]
    refine xorSum_singleBitSyndrome_ne_zero hpattern.nodup (fun i hi => (hpattern.within i hi).2)
      (List.cons_ne_nil _ _) (by simp)
  have hlimits : 1 ≤ (correctionLimits fixBits).1 ∧ (correctionLimits fixBits).2 ≤ 4 := by
    match fixBits, hfix with
    | 1, _ => exact ⟨le_refl 1, by decide⟩
    | _ + 2, _ => exact ⟨Nat.le_succ 1, le_refl 4⟩
  refine (diagnose_eq (.inr rfl) hsyndrome).2
    ⟨hpattern, List.cons_ne_nil _ _, hlimits.1, by rw [errorSyndrome_long, hsum],
      fun other hother _ hlen hsame => ?_⟩
  refine eq_of_xorSum_eq (hother.mono (by omega) le_rfl) (hpattern.mono (by omega) le_rfl) ?_ ?_
  · rw [List.length_singleton]
    omega
  · rw [← errorSyndrome_long, hsame, hsum]

end

/-! ## Fields of damaged messages -/

section

variable {message message' : Message}

theorem bitAt_eq_of_isSet {i : ℕ} (h : isSet message i = isSet message' i) :
    bitAt message i = bitAt message' i := by
  have hbit : ∀ m : Message, bitAt m i = 0 ∨ bitAt m i = 1 := fun m => by
    rw [bitAt, Nat.and_one_is_mod]
    exact Nat.mod_two_eq_zero_or_one _
  rw [isSet, isSet, decide_eq_decide] at h
  rcases hbit message with h₀ | h₀ <;> rcases hbit message' with h₁ | h₁ <;> omega

theorem getBits_congr {start len : ℕ}
    (h : ∀ i < len, isSet message (start + i) = isSet message' (start + i)) :
    getBits message start len = getBits message' start len := by
  refine List.foldl_ext _ _ _ fun value i hi => ?_
  rw [bitAt_eq_of_isSet (h i (List.mem_range.1 hi))]

theorem testBit_getBits (message : Message) (start : ℕ) {len j : ℕ} (hj : j < len) :
    (getBits message start len).testBit j = isSet message (start + (len - 1 - j)) := by
  induction len generalizing j with
  | zero => cases hj
  | succ len ih =>
    have hstep : getBits message start (len + 1) =
        getBits message start len <<< 1 ||| bitAt message (start + len) := by
      rw [getBits, List.range_succ, List.foldl_append]
      rfl
    have hbit : bitAt message (start + len) < 2 ^ 1 := by
      rw [bitAt, Nat.and_one_is_mod]
      exact Nat.mod_lt _ (by omega)
    rw [hstep, Nat.testBit_or, Nat.testBit_shiftLeft]
    cases j with
    | zero =>
      have hlow : (bitAt message (start + len)).testBit 0 = isSet message (start + len) := by
        rw [isSet, Nat.testBit_zero, decide_eq_decide]
        omega
      simpa using hlow
    | succ j =>
      have hhigh : (bitAt message (start + len)).testBit (j + 1) = false :=
        Nat.testBit_lt_two_pow (lt_of_lt_of_le hbit (Nat.pow_le_pow_right (by omega) (by omega)))
      rw [hhigh, Bool.or_false, decide_eq_true (by omega), Bool.true_and, Nat.add_sub_cancel,
        ih (by omega), show len - 1 - j = len + 1 - 1 - (j + 1) by omega]

/-- A wrong bit within a field shows, and one beside it does not. -/
theorem getBits_flipBit_eq_iff {bit start len : ℕ} (hbit : bit < 112) :
    getBits (flipBit message bit) start len = getBits message start len ↔
      ¬ (start ≤ bit ∧ bit < start + len) := by
  constructor
  · rintro heq ⟨hlo, hhi⟩
    have hplace : start + (len - 1 - (start + len - 1 - bit)) = bit := by omega
    have hflip := testBit_getBits (flipBit message bit) start
      (show start + len - 1 - bit < len by omega)
    rw [heq, testBit_getBits message start (by omega), hplace, isSet_flipBit hbit] at hflip
    cases hset : isSet message bit <;> simp [hset] at hflip
  · intro hout
    refine getBits_congr fun i hi => ?_
    rw [isSet_flipBit hbit, decide_eq_false (by omega), Bool.xor_false]

theorem getbits_type (message : Message) :
    getbits (msg message) 1 5 = (message.byte 0).toNat >>> 3 := by
  have hbyte : msg message 0 &&& 0xff = msg message 0 :=
    (Nat.and_two_pow_sub_one_eq_mod _ 8).trans (Nat.mod_eq_of_lt (msg_lt message 0))
  show (msg message 0 &&& 0xff) >>> 3 = _
  rw [hbyte, msg_eq]

theorem getbits_address (message : Message) : getbits (msg message) 9 32 = getBits message 8 24 :=
  getbits_msg message (by decide) (by decide) (by decide)

end

/-! ## Extended squitters -/

structure IntactSquitter (sent : Message) : Prop where
  type : getbits (msg sent) 1 5 = 17 ∨ getbits (msg sent) 1 5 = 18
  checksum : validChecksum sent

section

variable {env : Env} {filter : IcaoFilter} {message : Message} {msgtype : ℕ}

theorem checkMessage_squitter (htype : getbits (msg message) 1 5 = msgtype)
    (hsquitter : msgtype = 17 ∨ msgtype = 18) :
    checkMessage env filter message =
      (checkCrc env filter message msgtype 112 (modesChecksum (msg message) 112) 0).map fun checked =>
        (msgtype, checked) := by
  have hfix : fixDF17msgtype message msgtype = none := by
    rcases hsquitter with rfl | rfl <;> rfl
  have hbits : modesMessageLenByType msgtype = 112 := by
    rcases hsquitter with rfl | rfl <;> rfl
  unfold checkMessage
  rw [if_neg (by rw [allZeros_eq_false (by omega)]; exact Bool.false_ne_true), htype]
  simp only [hfix, hbits]

/-- What a squitter with its checksum in order is decoded as. -/
theorem decode_fitting (htype : getbits (msg message) 1 5 = msgtype)
    (hsquitter : msgtype = 17 ∨ msgtype = 18) (hcrc : modesChecksum (msg message) 112 = 0) :
    (decodeModesMessage env filter message).1 =
      .ok (decodeBulk env msgtype { message, correctedbits := 0 }) := by
  have hcheck : checkCrc env filter message msgtype 112 0 0 =
      .ok { message, correctedbits := 0 } := by
    rcases hsquitter with rfl | rfl <;> simp [checkCrc]
  rw [decodeModesMessage, checkMessage_squitter htype hsquitter, hcrc, hcheck]
  rfl

/-- Nor is one decoded that no errors explain. -/
theorem decode_unexplained (htype : getbits (msg message) 1 5 = msgtype)
    (hsquitter : msgtype = 17 ∨ msgtype = 18) (hcrc : modesChecksum (msg message) 112 ≠ 0)
    (hnone : modesChecksumDiagnose env.tables (modesChecksum (msg message) 112) 112 = none) :
    (decodeModesMessage env filter message).1 = .error .bad := by
  have hcheck : checkCrc env filter message msgtype 112 (modesChecksum (msg message) 112) 0 =
      .error .bad := by
    rcases hsquitter with rfl | rfl <;> simp [checkCrc, hcrc, hnone]
  rw [decodeModesMessage, checkMessage_squitter htype hsquitter, hcheck]
  rfl

/-- Where errors explain it, it is decoded without them, but for an address that
is not known. -/
theorem decode_explained (htype : getbits (msg message) 1 5 = msgtype)
    (hsquitter : msgtype = 17 ∨ msgtype = 18) (hcrc : modesChecksum (msg message) 112 ≠ 0)
    {info : ErrorInfo} {fixed : Message} (hfixed : modesChecksumFix message info = fixed)
    (hinfo : modesChecksumDiagnose env.tables (modesChecksum (msg message) 112) 112 = some info) :
    (decodeModesMessage env filter message).1 =
      if getbits (msg message) 9 32 ≠ getbits (msg fixed) 9 32 ∧
          filter.test (getbits (msg fixed) 9 32) = false then .error .unknownIcao
      else .ok (decodeBulk env msgtype { message := fixed, correctedbits := 0 }) := by
  have hcheck : checkCrc env filter message msgtype 112 (modesChecksum (msg message) 112) 0 =
      if getbits (msg message) 9 32 ≠ getbits (msg fixed) 9 32 ∧
          filter.test (getbits (msg fixed) 9 32) = false then .error .unknownIcao
      else .ok { message := fixed, correctedbits := info.length } := by
    rcases hsquitter with rfl | rfl <;> simp [checkCrc, hcrc, hinfo, hfixed]
  rw [decodeModesMessage, checkMessage_squitter htype hsquitter, hcheck]
  split_ifs
  · rfl
  · rfl

theorem score_explained (htype : getbits (msg message) 1 5 = msgtype)
    (hsquitter : msgtype = 17 ∨ msgtype = 18) {info : ErrorInfo}
    (hinfo : modesChecksumDiagnose env.tables (modesChecksum (msg message) 112) 112 = some info) :
    scoreModesMessage env filter message 112 =
      (if filter.test (correctAaField (getbits (msg message) 9 32) info) then 1800 else 1400) /
        ((info.length : ℤ) + 1) := by
  have hfix : fixDF17msgtype message msgtype = none := by
    rcases hsquitter with rfl | rfl <;> rfl
  have hbits : modesMessageLenByType msgtype = 112 := by
    rcases hsquitter with rfl | rfl <;> rfl
  have hzeros : allZeros message = false := allZeros_eq_false (by omega)
  unfold scoreModesMessage
  rw [if_neg (by decide), htype]
  simp only [hfix, hbits, hzeros, ge_iff_le, le_refl, if_true, lt_irrefl, if_false,
    Bool.false_eq_true]
  rcases hsquitter with rfl | rfl <;> simp [scoreByType, hinfo]

theorem score_one_wrong (htype : getbits (msg message) 1 5 = msgtype)
    (hsquitter : msgtype = 17 ∨ msgtype = 18) {bit : ℕ}
    (hinfo : modesChecksumDiagnose env.tables (modesChecksum (msg message) 112) 112 = some [bit]) :
    0 < scoreModesMessage env filter message 112 := by
  rw [score_explained htype hsquitter hinfo, List.length_singleton]
  split <;> decide

theorem diagnose_zero (tables : ErrorTables) (bitlen : ℕ) :
    modesChecksumDiagnose tables 0 bitlen = some [] := rfl

theorem score_fitting (htype : getbits (msg message) 1 5 = msgtype)
    (hsquitter : msgtype = 17 ∨ msgtype = 18) (hcrc : modesChecksum (msg message) 112 = 0) :
    1400 ≤ scoreModesMessage env filter message 112 := by
  have hfits : modesChecksumDiagnose env.tables (modesChecksum (msg message) 112) 112 = some [] := by
    rw [hcrc]
    exact diagnose_zero _ _
  rw [score_explained htype hsquitter hfits, List.length_nil]
  split <;> decide

/-- Delivered is what is decoded, if the score allows it. -/
theorem readsbBridgeDecode_cases (env : Env) (filter : IcaoFilter) (message : Message) :
    (readsbBridgeDecode env filter message).1 = none ∨
      ∃ mm, (decodeModesMessage env filter message).1 = .ok mm ∧
        (readsbBridgeDecode env filter message).1 = fillBridgeMessage mm := by
  unfold readsbBridgeDecode
  split
  · exact .inl rfl
  · generalize decodeModesMessage env filter message = result
    obtain ⟨mm | mm, filter'⟩ := result
    · exact .inl rfl
    · exact .inr ⟨mm, rfl, rfl⟩

theorem readsbBridgeDecode_of_score (hscore : 0 < scoreModesMessage env filter message 112) :
    (readsbBridgeDecode env filter message).1 =
      match (decodeModesMessage env filter message).1 with
      | .error _ => none
      | .ok mm => fillBridgeMessage mm := by
  unfold readsbBridgeDecode
  rw [if_neg (by omega)]
  generalize decodeModesMessage env filter message = result
  obtain ⟨mm | mm, filter'⟩ := result <;> rfl

/-- A message whose checksum is off is not remembered. -/
theorem readsbBridgeDecode_filter (hcrc : modesChecksum (msg message) 112 ≠ 0)
    (htype : getbits (msg message) 1 5 ≠ 11) :
    (readsbBridgeDecode env filter message).2 = filter := by
  have hsame : (decodeModesMessage env filter message).2 = filter := by
    rw [decodeModesMessage_filter, if_neg]
    rintro ⟨⟨-, hzero⟩ | ⟨heleven, -⟩, -⟩
    · exact hcrc hzero
    · exact htype heleven
  unfold readsbBridgeDecode
  split
  · rfl
  · generalize decodeModesMessage env filter message = result at hsame
    obtain ⟨mm | mm, filter'⟩ := result <;> exact hsame

end

/-! ## Damaged squitters -/

section

variable {env : Env} {filter : IcaoFilter} {sent received : Message} {fixBits : ℕ}

theorem modesChecksum_received (h : validChecksum sent) :
    modesChecksum (msg received) 112 = xorSum singleBitSyndrome (differences sent received) := by
  have hfix := modesChecksum_modesChecksumFix (.inr rfl) sent
    fun i hi => ((isPattern_differences sent received).within i hi).2
  rwa [modesChecksumFix_differences, (modesChecksum_eq_zero_iff sent).2 h, Nat.zero_xor,
    errorSyndrome_long] at hfix

theorem differences_ne_nil (h : sent ≠ received) : differences sent received ≠ [] := by
  intro hnil
  have hfix := modesChecksumFix_differences sent received
  rw [hnil] at hfix
  exact h hfix

/-- **Up to five wrong bits are noticed.** -/
theorem validChecksum_of_few (hsent : validChecksum sent) (hne : sent ≠ received)
    (hfew : (differences sent received).length ≤ 5) : validChecksum received = false := by
  have hpattern := isPattern_differences sent received
  rw [← Bool.not_eq_true, ← modesChecksum_eq_zero_iff, modesChecksum_received hsent]
  exact xorSum_singleBitSyndrome_ne_zero hpattern.nodup (fun i hi => (hpattern.within i hi).2)
    (differences_ne_nil hne) hfew

/-- **The distance of the check is six**: up to five wrong bits are noticed, and six
may go unnoticed. -/
theorem validChecksum_distance :
    (∀ sent received, validChecksum sent → sent ≠ received →
      (differences sent received).length ≤ 5 → validChecksum received = false) ∧
      ∃ sent received, validChecksum sent ∧ validChecksum received ∧
        (differences sent received).length = 6 := by
  refine ⟨fun sent received => validChecksum_of_few, identification,
    modesChecksumFix identification [5, 6, 10, 12, 41, 91], ?_, ?_, ?_⟩
  · decide
  · decide
  · decide

/-- Two wrong bits far apart. -/
theorem validChecksum_two_wrong :
    validChecksum (modesChecksumFix identification [3, 77]) = false :=
  validChecksum_distance.1 identification _ (by decide) (by decide) (by decide)

theorem getbits_type_eq (hplaces : ∀ i ∈ differences sent received, 5 ≤ i) :
    getbits (msg received) 1 5 = getbits (msg sent) 1 5 := by
  have hfield : ∀ message : Message, getbits (msg message) 1 5 = getBits message 0 5 :=
    fun message => getbits_msg message (by decide) (by decide) (by decide)
  rw [hfield, hfield]
  refine (getBits_congr fun i hi => ?_).symm
  by_contra hne
  have := hplaces (0 + i) (mem_differences.2 ⟨by omega, hne⟩)
  omega

/-- **What damage is not taken for.** -/
theorem decode_few_wrong (henv : env.tables = modesChecksumInit fixBits) (hsent : IntactSquitter sent)
    (hplaces : ∀ i ∈ differences sent received, 5 ≤ i)
    (hfew : (differences sent received).length ≤ 4) (hne : sent ≠ received) (filter' : IcaoFilter) :
    (∃ rejection, (decodeModesMessage env filter received).1 = .error rejection) ∨
      (decodeModesMessage env filter received).1 = (decodeModesMessage env filter' sent).1 := by
  have htype := getbits_type_eq hplaces
  have hcrc : modesChecksum (msg received) 112 ≠ 0 := by
    rw [Ne, modesChecksum_eq_zero_iff, validChecksum_of_few hsent.checksum hne (by omega)]
    exact Bool.false_ne_true
  have hplain : (decodeModesMessage env filter' sent).1 =
      .ok (decodeBulk env (getbits (msg sent) 1 5) { message := sent, correctedbits := 0 }) :=
    decode_fitting rfl hsent.type ((modesChecksum_eq_zero_iff sent).2 hsent.checksum)
  cases hfound : modesChecksumDiagnose env.tables (modesChecksum (msg received) 112) 112 with
  | none => exact .inl ⟨_, decode_unexplained htype hsent.type hcrc hfound⟩
  | some info =>
    have hpattern := isPattern_differences sent received
    have hinfo : info = differences sent received := by
      have hfound' := hfound
      rw [henv, modesChecksum_received hsent.checksum] at hfound'
      refine eq_of_diagnose ⟨hpattern.increasing, fun i hi => ?_⟩ (differences_ne_nil hne) hfew
        hfound'
      exact ⟨hplaces i hi, (hpattern.within i hi).2⟩
    have hfixed : modesChecksumFix received info = sent := by
      rw [hinfo]
      exact modesChecksumFix_received sent received
    rw [decode_explained htype hsent.type hcrc hfixed hfound, hplain]
    split
    · exact .inl ⟨_, rfl⟩
    · exact .inr rfl

/-- **Up to four wrong bits** behind the type of a squitter are repaired or make it
be dropped, whatever addresses are known. -/
theorem readsbBridgeDecode_few_wrong (fixBits : ℕ) (henv : env.tables = modesChecksumInit fixBits)
    (hsent : IntactSquitter sent) (hplaces : ∀ i ∈ differences sent received, 5 ≤ i)
    (hfew : (differences sent received).length ≤ 4) (hne : sent ≠ received)
    (filter filter' : IcaoFilter) :
    ((readsbBridgeDecode env filter received).1 = none ∨
        (readsbBridgeDecode env filter received).1 = (readsbBridgeDecode env filter' sent).1) ∧
      (readsbBridgeDecode env filter received).2 = filter := by
  have hcrc : modesChecksum (msg received) 112 ≠ 0 := by
    rw [Ne, modesChecksum_eq_zero_iff, validChecksum_of_few hsent.checksum hne (by omega)]
    exact Bool.false_ne_true
  refine ⟨?_, readsbBridgeDecode_filter hcrc (by
    rw [getbits_type_eq hplaces]
    have := hsent.type
    omega)⟩
  have hscore : 1400 ≤ scoreModesMessage env filter' sent 112 :=
    score_fitting rfl hsent.type ((modesChecksum_eq_zero_iff sent).2 hsent.checksum)
  rcases readsbBridgeDecode_cases env filter received with hnone | ⟨mm, hdecoded, hdelivered⟩
  · exact .inl hnone
  · refine .inr ?_
    rcases decode_few_wrong henv hsent hplaces hfew hne filter' with ⟨rejection, herror⟩ | hsame
    · rw [hdecoded] at herror
      cases herror
    · rw [hdelivered, readsbBridgeDecode_of_score (by omega), ← hsame, hdecoded]

end

/-- What the adapter sets up, with rough trigonometry. -/
def repairingEnv : Env where
  tables := modesChecksumInit 2
  decodeCommB := fun _ mm => mm
  trig := ⟨fun _ => 0, fun _ _ => 0⟩

/-- Three wrong bits. -/
theorem readsbBridgeDecode_three_wrong :
    (readsbBridgeDecode repairingEnv icaoFilterInit
      (modesChecksumFix identification [9, 40, 100])).2 = icaoFilterInit := by
  have hsent : IntactSquitter identification := ⟨.inl (by decide), by decide⟩
  exact (readsbBridgeDecode_few_wrong 2 rfl hsent (by decide) (by decide) (by decide)
    icaoFilterInit icaoFilterInit).2

/-! ## One wrong bit -/

section

variable {env : Env} {filter : IcaoFilter} {sent : Message} {fixBits bit : ℕ}

/-- A first byte of type 17 with one bit of its type turned over. -/
theorem damagedType : ∀ n < 256, n >>> 3 = 17 → ∀ bit < 5,
    ((UInt8.ofNat n ^^^ (1 <<< UInt8.ofNat (7 - (bit &&& 7)))).toNat >>> 3) ∈ [1, 25, 21, 19, 16] ∧
      (((UInt8.ofNat n ^^^ (1 <<< UInt8.ofNat (7 - (bit &&& 7)))) &&& (7 : UInt8)) |||
        ((17 : UInt8) <<< (3 : UInt8))) = UInt8.ofNat n := by
  decide +kernel

/-- A damaged type is repaired. -/
theorem fixDF17msgtype_flipBit (htype : getbits (msg sent) 1 5 = 17) (hsum : validChecksum sent)
    (hbit : bit < 5) :
    fixDF17msgtype (flipBit sent bit) (getbits (msg (flipBit sent bit)) 1 5) = some sent := by
  have hfirst : (flipBit sent bit).byte 0 =
      sent.byte 0 ^^^ (1 <<< UInt8.ofNat (7 - (bit &&& 7))) := by
    rw [flipBit, shiftRight_three, byte_setByte sent (by omega), Nat.div_eq_of_lt (by omega),
      if_pos rfl]
  have hbyte : UInt8.ofNat (sent.byte 0).toNat = sent.byte 0 := UInt8.ofNat_toNat
  obtain ⟨hdamaged, hback⟩ := damagedType (sent.byte 0).toNat (UInt8.toNat_lt _)
    (by rw [← getbits_type, htype]) bit hbit
  rw [hbyte] at hdamaged hback
  have hfixed : (flipBit sent bit).setByte 0
      (((flipBit sent bit).byte 0 &&& (7 : UInt8)) ||| ((17 : UInt8) <<< (3 : UInt8))) = sent := by
    refine ext_byte fun i _ => ?_
    rw [byte_setByte _ (by omega), hfirst, hback]
    by_cases hi : 0 = i
    · rw [if_pos hi, hi]
    · rw [if_neg hi, flipBit, shiftRight_three, byte_setByte sent (by omega), if_neg (by omega)]
  rw [fixDF17msgtype, if_pos (by rw [getbits_type, hfirst]; exact hdamaged)]
  simp only [hfixed]
  rw [if_pos ((modesChecksum_eq_zero_iff sent).2 hsum)]

theorem decode_wrong_type (env : Env) (filter : IcaoFilter) (htype : getbits (msg sent) 1 5 = 17)
    (hsum : validChecksum sent) (hbit : bit < 5) :
    0 < scoreModesMessage env filter (flipBit sent bit) 112 ∧
      (decodeModesMessage env filter (flipBit sent bit)).1 =
        .ok (decodeBulk env 17 { message := sent, correctedbits := 0 }) := by
  have hfix := fixDF17msgtype_flipBit htype hsum hbit
  have hcrc : modesChecksum (msg sent) 112 = 0 := (modesChecksum_eq_zero_iff sent).2 hsum
  have hzeros : allZeros (flipBit sent bit) = false := by
    refine allZeros_eq_false fun hzero => ?_
    rw [hzero] at hfix
    cases hfix
  have hcheck : checkMessage env filter (flipBit sent bit) =
      .ok (17, { message := sent, correctedbits := 1 }) := by
    unfold checkMessage
    rw [if_neg (by rw [hzeros]; exact Bool.false_ne_true)]
    simp only [hfix, show modesMessageLenByType 17 = 112 from rfl, hcrc,
      checkCrc_of_fits (.inl rfl)]
    rfl
  constructor
  · unfold scoreModesMessage
    rw [if_neg (by decide)]
    simp only [ge_iff_le, le_refl, if_true, hfix]
    split <;> decide
  · rw [decodeModesMessage, hcheck]
    rfl

theorem differences_flipBit (hbit : bit < 112) : differences sent (flipBit sent bit) = [bit] := by
  refine (isPattern_differences _ _).eq_of_mem
    (IsPattern.cons_iff.2 ⟨⟨Nat.zero_le bit, hbit⟩, IsPattern.nil⟩) fun i => ?_
  rw [mem_differences, isSet_flipBit hbit, List.mem_singleton]
  constructor
  · rintro ⟨-, hne⟩
    by_contra hi
    exact hne (by rw [decide_eq_false hi, Bool.xor_false])
  · rintro rfl
    exact ⟨hbit, by simp⟩

/-- A wrong bit behind the type is found, and decides about the address. -/
theorem decode_one_wrong (hfix : 1 ≤ fixBits) (henv : env.tables = modesChecksumInit fixBits)
    (htype : getbits (msg sent) 1 5 = 17) (hsum : validChecksum sent) (hlo : 5 ≤ bit)
    (hbit : bit < 112) (filter : IcaoFilter) :
    0 < scoreModesMessage env filter (flipBit sent bit) 112 ∧
      (decodeModesMessage env filter (flipBit sent bit)).1 =
        if 8 ≤ bit ∧ bit < 32 ∧ filter.test (getbits (msg sent) 9 32) = false then
          .error .unknownIcao
        else .ok (decodeBulk env 17 { message := sent, correctedbits := 0 }) := by
  have hdamaged : modesChecksum (msg (flipBit sent bit)) 112 = singleBitSyndrome bit := by
    rw [modesChecksum_flipBit (.inr rfl) hbit, (modesChecksum_eq_zero_iff sent).2 hsum,
      Nat.zero_xor, Nat.sub_self, Nat.add_zero]
  have hfound : modesChecksumDiagnose env.tables (modesChecksum (msg (flipBit sent bit)) 112) 112 =
      some [bit] := by
    rw [hdamaged, henv]
    exact diagnose_single hfix hlo hbit
  have hne : modesChecksum (msg (flipBit sent bit)) 112 ≠ 0 := by
    intro hzero
    rw [hzero, diagnose_zero] at hfound
    cases hfound
  have hplaces : ∀ i ∈ differences sent (flipBit sent bit), 5 ≤ i := by
    intro i hi
    rw [differences_flipBit hbit] at hi
    rwa [List.mem_singleton.1 hi]
  have htype' : getbits (msg (flipBit sent bit)) 1 5 = 17 := (getbits_type_eq hplaces).trans htype
  have hback : modesChecksumFix (flipBit sent bit) [bit] = sent := by
    have hreceived := modesChecksumFix_received sent (flipBit sent bit)
    rwa [differences_flipBit hbit] at hreceived
  have haddress : getbits (msg (flipBit sent bit)) 9 32 ≠ getbits (msg sent) 9 32 ↔
      8 ≤ bit ∧ bit < 32 := by
    rw [getbits_address, getbits_address, Ne, getBits_flipBit_eq_iff hbit, not_not]
  refine ⟨score_one_wrong htype' (.inl rfl) hfound, ?_⟩
  rw [decode_explained htype' (.inl rfl) hne hback hfound]
  by_cases hunknown : 8 ≤ bit ∧ bit < 32 ∧ filter.test (getbits (msg sent) 9 32) = false
  · rw [if_pos hunknown, if_pos ⟨haddress.2 ⟨hunknown.1, hunknown.2.1⟩, hunknown.2.2⟩]
  · rw [if_neg hunknown,
      if_neg fun h => hunknown ⟨(haddress.1 h.1).1, (haddress.1 h.1).2, h.2⟩]

/-- A message with an address is reported. -/
theorem fillBridgeMessage_isSome {mm : ModesMessage} (h : mm.addr ≠ hexUnknown) :
    (fillBridgeMessage mm).isSome = true := by
  rw [fillBridgeMessage, if_neg fun hunknown => h hunknown.1]
  rfl

/-- **One wrong bit** of a DF17 is repaired wherever it is, unless it is in the
address and the address is not known; the message that was sent is reported. -/
theorem readsbBridgeDecode_one_wrong (hfix : 1 ≤ fixBits)
    (henv : env.tables = modesChecksumInit fixBits) (htype : getbits (msg sent) 1 5 = 17)
    (hsum : validChecksum sent) (hbit : bit < 112) (filter : IcaoFilter) :
    (readsbBridgeDecode env filter sent).1.isSome = true ∧
      (readsbBridgeDecode env filter (flipBit sent bit)).1 =
        if 8 ≤ bit ∧ bit < 32 ∧ filter.test (getbits (msg sent) 9 32) = false then none
        else (readsbBridgeDecode env filter sent).1 := by
  have hcrc : modesChecksum (msg sent) 112 = 0 := (modesChecksum_eq_zero_iff sent).2 hsum
  have hsent : (readsbBridgeDecode env filter sent).1 =
      fillBridgeMessage (decodeBulk env 17 { message := sent, correctedbits := 0 }) := by
    have hscore : 1400 ≤ scoreModesMessage env filter sent 112 := score_fitting htype (.inl rfl) hcrc
    rw [readsbBridgeDecode_of_score (by omega), decode_fitting htype (.inl rfl) hcrc]
  rw [hsent]
  refine ⟨fillBridgeMessage_isSome ?_, ?_⟩
  · rw [decodeBulk_addr env rfl]
    exact announced_ne_hexUnknown sent
  · by_cases hlow : bit < 5
    · obtain ⟨hscore, hdecoded⟩ := decode_wrong_type env filter htype hsum hlow
      rw [if_neg (by omega), readsbBridgeDecode_of_score hscore, hdecoded]
    · obtain ⟨hscore, hdecoded⟩ := decode_one_wrong hfix henv htype hsum (by omega) hbit filter
      rw [readsbBridgeDecode_of_score hscore, hdecoded]
      split_ifs
      · rfl
      · rfl

end

/-- A wrong bit of the address, while no address is known. -/
theorem readsbBridgeDecode_wrong_address :
    (readsbBridgeDecode repairingEnv icaoFilterInit identification).1.isSome = true ∧
      (readsbBridgeDecode repairingEnv icaoFilterInit (flipBit identification 20)).1 = none := by
  obtain ⟨hsent, hwrong⟩ := @readsbBridgeDecode_one_wrong repairingEnv identification 2 20
    (by decide) rfl (by decide) (by decide) (by decide) icaoFilterInit
  rw [if_pos ⟨by decide, by decide, test_icaoFilterInit _⟩] at hwrong
  exact ⟨hsent, hwrong⟩

end AdsbBridge.Readsb
