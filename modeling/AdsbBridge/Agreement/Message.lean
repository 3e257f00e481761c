import AdsbBridge.Legacy.Stored
import AdsbBridge.Native.Handle
import AdsbBridge.Native.Line

/-! # One message in the legacy and in the native-fast decoder

States of an aircraft that correspond stay so, and a line is written for the
message by both decoders or by none. No two lines of a pair say the same: the
legacy writer ends a line with constants, and the first of them stands where
the other leaves the vertical rate blank. -/
namespace AdsbBridge
open AdsbBridge.Lib AdsbBridge.Fields AdsbBridge.FrontEnd AdsbBridge.Store

/-! ## Addresses -/

theorem icaoAddress_eq (message : Message) :
    icaoAddress message =
      ((message.byte 1).toNat * 256 + (message.byte 2).toNat) * 256 + (message.byte 3).toNat := by
  have h₂ := (message.byte 2).toNat_lt
  have h₃ := (message.byte 3).toNat_lt
  have hhigh : (message.byte 1).toNat <<< 16 ||| (message.byte 2).toNat <<< 8 =
      ((message.byte 1).toNat * 256 + (message.byte 2).toNat) <<< 8 := by
    rw [← Nat.shiftLeft_add_eq_or_of_lt (by rw [Nat.shiftLeft_eq]; omega)]
    simp only [Nat.shiftLeft_eq]
    omega
  rw [icaoAddress, hhigh, ← Nat.shiftLeft_add_eq_or_of_lt (by omega), Nat.shiftLeft_eq]

theorem icaoAddress_lt (message : Message) : icaoAddress message < 16 ^ 6 := by
  have h₁ := (message.byte 1).toNat_lt
  have h₂ := (message.byte 2).toNat_lt
  have h₃ := (message.byte 3).toNat_lt
  rw [icaoAddress_eq]
  omega

/-- Both decoders print the address of a message alike. -/
theorem hexText_eq (message : Message) :
    Legacy.hexText message = Text.hexOf 6 (icaoAddress message) := by
  have h₂ := (message.byte 2).toNat_lt
  have h₃ := (message.byte 3).toNat_lt
  rw [Legacy.hexText, Text.hexOf_add 4 2, Text.hexOf_add 2 2, icaoAddress_eq,
    ← Text.hexOf_mod 2 (((message.byte 1).toNat * 256 + (message.byte 2).toNat) * 256 + (message.byte 3).toNat),
    ← Text.hexOf_mod 2 ((((message.byte 1).toNat * 256 + (message.byte 2).toNat) * 256 + (message.byte 3).toNat) / 16 ^ 2)]
  congr 3 <;> omega

/-! ## Lines -/

/-- The states of an aircraft in the two decoders. -/
structure Corresponds (hex : Text) (l : Legacy.AircraftState) (n : Native.AircraftState) : Prop where
  hex : l.hex = hex
  callsign : (l.callsign.getD []).isEmpty = n.callsign.isEmpty
  plainLegacy : Text.Over isCallsignChar (l.callsign.getD [])
  plainNative : n.Plain
  lat : l.lat = n.lat
  lon : l.lon = n.lon
  speedKt : l.speedKt.isSome = n.speedKt.isSome
  trackDeg : l.trackDeg.isSome = n.trackDeg.isSome
  even : l.even = n.even
  odd : l.odd = n.odd
  lastSeenMs : l.lastSeenMs = n.lastSeenMs
  verticalRate : n.verticalRate = none

theorem corresponds_new (hex : Text) : Corresponds hex { hex := hex } {} := by
  constructor <;> first | rfl | (intro c hc; cases hc)

section Lines

variable {nowMs : ℤ} {hex : Text} {l : Legacy.AircraftState} {n : Native.AircraftState}
  {transmissionType : ℕ} {includePosition : Bool}

theorem suppressed_eq (h : Corresponds hex l n) :
    Legacy.suppressed l transmissionType includePosition =
      Native.suppressed n transmissionType includePosition := by
  have hfresh : Native.freshVerticalRate n = none := by
    rw [Native.freshVerticalRate, h.verticalRate]; rfl
  have hspeed : l.speedKt.isNone = n.speedKt.isNone := by
    rw [← Option.not_isSome, h.speedKt, Option.not_isSome]
  have htrack : l.trackDeg.isNone = n.trackDeg.isNone := by
    rw [← Option.not_isSome, h.trackDeg, Option.not_isSome]
  rw [Legacy.suppressed, Native.suppressed, h.callsign, h.lat, h.lon, hspeed, htrack, hfresh,
    Option.isNone_none, Bool.and_true]

theorem no_comma_legacy {address : ℕ} (h : Corresponds (Text.hexOf 6 address) l n) :
    ∀ f ∈ Legacy.sbsFields nowMs l transmissionType includePosition, ',' ∉ f :=
  Legacy.no_comma_sbsFields (h.hex ▸ Text.over_hexOf 6 address) h.plainLegacy

/-- A legacy line says that the vertical rate is zero. -/
theorem parse_legacy [UpperCase] (nowMs : ℤ) (transmissionType : ℕ) (includePosition : Bool)
    {address : ℕ} (h : Corresponds (Text.hexOf 6 address) l n) :
    ∃ update, SbsUpdate.parse (Text.joinFields
        (Legacy.sbsFields nowMs l transmissionType includePosition)) = some update ∧
      update.verticalRateFpm = some (.finite 0) := by
  refine ⟨SbsUpdate.updateOf (Legacy.sbsFields nowMs l transmissionType includePosition)
    (Text.hexOf 6 address), ?_, ?_⟩
  · rw [SbsUpdate.parse_joinFields (no_comma_legacy h) (by simp [Legacy.sbsFields])]
    refine SbsUpdate.ofFields_of_msg (by simp [Legacy.sbsFields]) rfl ?_
    change SbsUpdate.clean l.hex = _
    rw [h.hex]
    exact SbsUpdate.clean_hexOf 6 address (by decide)
  · change SbsUpdate.parseDouble ['0'] = _
    decide +kernel

/-- Two lines of a pair are read as different updates. -/
def Differ [UpperCase] (l : Option Text) (n : Text) : Prop :=
  ∃ line, l = some line ∧ n ≠ [] ∧ SbsUpdate.parse line ≠ SbsUpdate.parse n

/-- Both write a line, and the two differ, or neither writes one. -/
theorem differ_or_silent [UpperCase] {address : ℕ} (h : Corresponds (Text.hexOf 6 address) l n) :
    (Native.suppressed n transmissionType includePosition = false ∧
      Differ (Legacy.toSbsLine nowMs l transmissionType includePosition)
        (Native.toSbsLine nowMs address n transmissionType includePosition)) ∨
    (Native.suppressed n transmissionType includePosition = true ∧
      Legacy.toSbsLine nowMs l transmissionType includePosition = none ∧
      Native.toSbsLine nowMs address n transmissionType includePosition = []) := by
  cases hs : Native.suppressed n transmissionType includePosition with
  | true =>
    refine .inr ⟨rfl, ?_, Native.toSbsLine_eq_nil_iff.2 hs⟩
    rw [Legacy.toSbsLine, suppressed_eq h, hs, if_pos rfl]
  | false =>
    refine .inl ⟨rfl, Text.joinFields (Legacy.sbsFields nowMs l transmissionType includePosition),
      ?_, ?_, ?_⟩
    · rw [Legacy.toSbsLine, suppressed_eq h, hs, if_neg Bool.false_ne_true]
    · rw [ne_eq, Native.toSbsLine_eq_nil_iff, hs]
      exact Bool.false_ne_true
    · intro heq
      obtain ⟨u, hu, hzero⟩ := parse_legacy nowMs transmissionType includePosition h
      obtain ⟨v, hv, -, hblank, -⟩ := Native.parse_rate nowMs address h.plainNative hs
      rw [hu, hv] at heq
      cases heq
      rw [hzero, Native.freshVerticalRate, h.verticalRate] at hblank
      cases hblank

end Lines

/-! ## Callsigns -/

theorem dropTrailingBlanks_eq_nil_iff {t : Text} :
    dropTrailingBlanks t = [] ↔ ∀ c ∈ t, c = ' ' := by
  simp [dropTrailingBlanks, List.dropWhile_eq_nil_iff]

theorem trim_eq_nil_iff {t : Text} : Text.trim t = [] ↔ ∀ c ∈ t, c ≤ ' ' := by
  rw [Text.trim, List.reverse_eq_nil_iff, List.dropWhile_eq_nil_iff]
  simp only [List.mem_reverse, decide_eq_true_eq]
  constructor
  · intro h
    have hnil : t.dropWhile (fun c => decide (c ≤ ' ')) = [] := by
      by_contra hne
      have hhead := List.head_dropWhile_not (fun c => decide (c ≤ ' ')) hne
      rw [decide_eq_false_iff_not] at hhead
      exact hhead (h _ (List.head_mem hne))
    simpa [List.dropWhile_eq_nil_iff] using hnil
  · intro h c hc
    exact h c ((List.dropWhile_sublist _).subset hc)

theorem decodeCallsign_isEmpty (message : Message) :
    (Legacy.decodeCallsign message).isEmpty = (Native.decodeCallsign message).isEmpty := by
  have hover := callsignChars_over message
  rw [Bool.eq_iff_iff, List.isEmpty_iff, List.isEmpty_iff, Legacy.decodeCallsign,
    Native.decodeCallsign, trim_eq_nil_iff, dropTrailingBlanks_eq_nil_iff]
  exact forall₂_congr fun c hc => isCallsignChar_blank (hover c hc)

/-! ## One message -/

def WritesLine (message : Message) (state : Native.AircraftState) : Prop :=
  (1 ≤ typeCode message ∧ typeCode message ≤ 4 ∧ Native.decodeCallsign message ≠ []) ∨
  (9 ≤ typeCode message ∧ typeCode message ≤ 18 ∧
    (Native.decodeGlobalPosition
      (state.storeReport (isOdd message) (cprLatWord message) (cprLonWord message))).isSome) ∨
  (typeCode message = 19 ∧
    ((velocityComponents message).isSome ∨ (state.speedKt.isSome ∧ state.trackDeg.isSome)))

/-- What the two decoders return for one message. -/
def LinePair [UpperCase] (writes : Prop) (l : Option Text) (n : Text) : Prop :=
  (writes ∧ Differ l n) ∨ (¬ writes ∧ l = none ∧ n = [])

section Message

variable {trig : Trig} {clock : Clock} {message : Message} {l : Legacy.AircraftState}
  {n : Native.AircraftState}

theorem linePair_of_suppressed [UpperCase] {writes : Prop} (nowMs : ℤ) {transmissionType : ℕ}
    {includePosition : Bool} {address : ℕ} (h : Corresponds (Text.hexOf 6 address) l n)
    (hw : writes ↔ Native.suppressed n transmissionType includePosition = false) :
    LinePair writes (Legacy.toSbsLine nowMs l transmissionType includePosition)
      (Native.toSbsLine nowMs address n transmissionType includePosition) := by
  rcases @differ_or_silent nowMs _ _ _ _ _ _ h with ⟨hs, hd⟩ | ⟨hs, hl, hn⟩
  · exact .inl ⟨hw.2 hs, hd⟩
  · refine .inr ⟨fun hwrites => ?_, hl, hn⟩
    rw [hw.1 hwrites] at hs
    cases hs

theorem identification_step [UpperCase] {hex : Text} (hc : Corresponds hex l n)
    (hhex : hex = Text.hexOf 6 (icaoAddress message)) :
    Corresponds hex (Legacy.applyIdentification clock message l).1
        (Native.applyIdentification clock message n).1 ∧
      LinePair (Native.decodeCallsign message ≠ []) (Legacy.applyIdentification clock message l).2
        (Native.applyIdentification clock message n).2 := by
  have hc' : Corresponds hex { l with callsign := some (Legacy.decodeCallsign message) }
      { n with callsign := Native.decodeCallsign message } :=
    { hc with
      hex := hc.hex
      callsign := decodeCallsign_isEmpty message
      plainLegacy := Text.over_trim (callsignChars_over message)
      plainNative := dropTrailingBlanks_over (callsignChars_over message) }
  refine ⟨hc', ?_⟩
  subst hhex
  refine linePair_of_suppressed _ hc' ?_
  simp [Native.suppressed]

theorem storeReport_step {hex : Text} (hc : Corresponds hex l n) (odd : Bool) (lat lon : ℤ) :
    Corresponds hex (l.storeReport odd lat lon) (n.storeReport odd lat lon) := by
  have hreport : (some ⟨lat, lon, l.lastSeenMs⟩ : Option Cpr.CprFrame) =
      some ⟨lat, lon, n.lastSeenMs⟩ := by
    rw [hc.lastSeenMs]
  cases odd with
  | true => exact { hc with hex := hc.hex, odd := hreport }
  | false => exact { hc with hex := hc.hex, even := hreport }

/-- An altitude never shows in the correspondence: one decoder keeps the old one
where the other overwrites it with nothing. -/
theorem altitude_step {hex : Text} (hc : Corresponds hex l n) (a b : Option Int32) :
    Corresponds hex { l with altitudeFt := a } { n with altitudeFt := b } :=
  { hc with hex := hc.hex }

/-- The two global decodes succeed together, with the same position. -/
theorem decodeGlobalPosition_step {hex : Text} (hc : Corresponds hex l n) :
    (∃ l' n', Legacy.decodeGlobalPosition l = some l' ∧ Native.decodeGlobalPosition n = some n' ∧
        Corresponds hex l' n' ∧ n'.lat.isSome ∧ n'.lon.isSome) ∨
      (Legacy.decodeGlobalPosition l = none ∧ Native.decodeGlobalPosition n = none) := by
  unfold Legacy.decodeGlobalPosition Native.decodeGlobalPosition
  rw [hc.even, hc.odd]
  cases Cpr.decodePair Cpr.globalPosition n.even n.odd with
  | none => exact .inr ⟨rfl, rfl⟩
  | some p => exact .inl ⟨_, _, rfl, rfl, { hc with hex := hc.hex, lat := rfl, lon := rfl }, rfl, rfl⟩

/-- Whether a report completes a position does not depend on the altitude. -/
theorem decodeGlobalPosition_altitude (n : Native.AircraftState) (a : Option Int32) (odd : Bool)
    (lat lon : ℤ) :
    (Native.decodeGlobalPosition ({ n with altitudeFt := a }.storeReport odd lat lon)).isSome =
      (Native.decodeGlobalPosition (n.storeReport odd lat lon)).isSome := by
  unfold Native.decodeGlobalPosition Native.AircraftState.storeReport
  cases odd <;> simp

/-- The altitude stored, new or old, and then the report. -/
theorem applyPosition_altitude (clock : Clock) (message : Message) (n : Native.AircraftState) :
    ∃ altitude, Native.applyPosition clock message n =
      match Native.decodeGlobalPosition ({ n with altitudeFt := altitude }.storeReport
          (isOdd message) (cprLatWord message) (cprLonWord message)) with
      | some state =>
        (state, Native.toSbsLine clock.printed (icaoAddress message) state 3 true)
      | none => ({ n with altitudeFt := altitude }.storeReport
          (isOdd message) (cprLatWord message) (cprLonWord message), []) := by
  unfold Native.applyPosition
  cases decodeAltitudeFt (Frame.getBits message 40 12) with
  | none => exact ⟨n.altitudeFt, rfl⟩
  | some altitude => exact ⟨some altitude, rfl⟩

theorem position_step [UpperCase] {hex : Text} (hc : Corresponds hex l n)
    (hhex : hex = Text.hexOf 6 (icaoAddress message)) :
    Corresponds hex (Legacy.applyPosition clock message l).1
        (Native.applyPosition clock message n).1 ∧
      LinePair (Native.decodeGlobalPosition
          (n.storeReport (isOdd message) (cprLatWord message) (cprLonWord message))).isSome
        (Legacy.applyPosition clock message l).2 (Native.applyPosition clock message n).2 := by
  obtain ⟨altitude, haltitude⟩ := applyPosition_altitude clock message n
  have hreport := storeReport_step (altitude_step hc (decodeAltitudeFt (Frame.getBits message 40 12))
    altitude) (isOdd message) (cprLatWord message) (cprLonWord message)
  rw [← decodeGlobalPosition_altitude n altitude]
  rw [haltitude, Legacy.applyPosition]
  rcases decodeGlobalPosition_step hreport with ⟨l', n', hl, hn, hc', hlat, hlon⟩ | ⟨hl, hn⟩
  · simp only [hl, hn]
    refine ⟨hc', ?_⟩
    subst hhex
    refine linePair_of_suppressed _ hc' ?_
    simp [Native.suppressed, Option.isNone_eq_false_iff, hlat, hlon]
  · simp only [hl, hn]
    exact ⟨hreport, .inr ⟨by simp, rfl, rfl⟩⟩

theorem velocity_step [UpperCase] {hex : Text} (hc : Corresponds hex l n)
    (hhex : hex = Text.hexOf 6 (icaoAddress message)) :
    Corresponds hex (Legacy.applyVelocity trig clock message l).1
        (Native.applyVelocity trig clock message n).1 ∧
      LinePair ((velocityComponents message).isSome ∨ (n.speedKt.isSome ∧ n.trackDeg.isSome))
        (Legacy.applyVelocity trig clock message l).2
        (Native.applyVelocity trig clock message n).2 := by
  have hfresh : ∀ s : Native.AircraftState, s.verticalRate = none →
      Native.freshVerticalRate s = none := by
    intro s hs
    rw [Native.freshVerticalRate, hs]; rfl
  unfold Legacy.applyVelocity Native.applyVelocity Legacy.decodeVelocity Native.decodeVelocity
  cases hv : velocityComponents message with
  | none =>
    refine ⟨hc, ?_⟩
    subst hhex
    refine linePair_of_suppressed _ hc ?_
    simp [Native.suppressed, hfresh n hc.verticalRate, Option.isNone_eq_false_iff]
  | some v =>
    obtain ⟨east, north⟩ := v
    have hc' : Corresponds hex
        { l with
          speedKt := some (speedKt trig Legacy.mathRound east north)
          trackDeg := some (trackDeg trig Legacy.mathRound east north) }
        { n with
          speedKt := some (speedKt trig Text.roundHalfAway east north)
          trackDeg := some (trackDeg trig Text.roundHalfAway east north) } :=
      { hc with hex := hc.hex, speedKt := rfl, trackDeg := rfl }
    dsimp only
    refine ⟨hc', ?_⟩
    subst hhex
    refine linePair_of_suppressed _ hc' ?_
    simp [Native.suppressed]

/-- **One message, both decoders.** -/
theorem message_step [UpperCase] {hex : Text} (hc : Corresponds hex l n)
    (hhex : hex = Text.hexOf 6 (icaoAddress message)) :
    Corresponds hex (Legacy.applyMessage trig clock message l).1
        (Native.applyMessage trig clock message n).1 ∧
      LinePair (WritesLine message n) (Legacy.applyMessage trig clock message l).2
        (Native.applyMessage trig clock message n).2 := by
  unfold Legacy.applyMessage Native.applyMessage
  simp only
  by_cases hident : typeCode message ≥ 1 ∧ typeCode message ≤ 4
  · have hw : WritesLine message n ↔ Native.decodeCallsign message ≠ [] := by
      grind [WritesLine]
    rw [if_pos hident, if_pos hident, hw]
    exact identification_step hc hhex
  · rw [if_neg hident, if_neg hident]
    by_cases hpos : typeCode message ≥ 9 ∧ typeCode message ≤ 18
    · have hw : WritesLine message n ↔ (Native.decodeGlobalPosition
          (n.storeReport (isOdd message) (cprLatWord message) (cprLonWord message))).isSome := by
        grind [WritesLine]
      rw [if_pos hpos, if_pos hpos, hw]
      exact position_step hc hhex
    · rw [if_neg hpos, if_neg hpos]
      by_cases hvel : typeCode message = 19
      · have hw : WritesLine message n ↔
            ((velocityComponents message).isSome ∨ (n.speedKt.isSome ∧ n.trackDeg.isSome)) := by
          grind [WritesLine]
        rw [if_pos hvel, if_pos hvel, hw]
        exact velocity_step hc hhex
      · have hw : ¬ WritesLine message n := by
          grind [WritesLine]
        rw [if_neg hvel, if_neg hvel]
        exact ⟨hc, .inr ⟨hw, rfl, rfl⟩⟩

end Message

end AdsbBridge
