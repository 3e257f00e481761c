import AdsbBridge.Readsb.Adapter
import AdsbBridge.Readsb.CommB

/-! # What replies tell

A Comm-B reply on its way through the adapter: which register it is taken for,
which of the reported fields come from it, and which values they can have. -/
namespace AdsbBridge.Readsb
open AdsbBridge.Lib AdsbBridge.Frame

section

variable {env : Env} {turnRate : ℚ → ℕ → ℚ} {message : Message}

/-- A reply says what it is: an identification. -/
def Identifies (message : Message) : Prop :=
  getbits (msg message) 9 13 = 0 ∧ me message 0 = 0x20 ∧
    (aisCallsign (me message)).all isValidCallsignChar

/-- It is most likely a track and turn report. -/
def TellsTrack (turnRate : ℚ → ℕ → ℚ) (message : Message) : Prop :=
  getbits (msg message) 9 13 = 0 ∧
    (decodeBDS60 (me message)).score < (decodeBDS50 (me message) turnRate).score

def TellsHeading (turnRate : ℚ → ℕ → ℚ) (message : Message) : Prop :=
  getbits (msg message) 9 13 = 0 ∧
    (decodeBDS50 (me message) turnRate).score < (decodeBDS60 (me message)).score ∧
    (decodeBDS40 (me message)).score < (decodeBDS60 (me message)).score

instance (message : Message) : Decidable (Identifies message) :=
  inferInstanceAs (Decidable (_ ∧ _))

instance (message : Message) : Decidable (TellsTrack turnRate message) :=
  inferInstanceAs (Decidable (_ ∧ _))

instance (message : Message) : Decidable (TellsHeading turnRate message) :=
  inferInstanceAs (Decidable (_ ∧ _))

def reportedRate (message : Message) : Int32 × Bool :=
  let mb := me message
  if getbit mb 35 then (Int32.ofInt (bds60Rate (getbit mb 36) (getbits mb 37 45)), true)
  else (Int32.ofInt (bds60Rate (getbit mb 47) (getbits mb 48 56)), false)

/-- What a reply adds to what is known without its register. -/
def withRegister (turnRate : ℚ → ℕ → ℚ) (message : Message) (plain : ReadsbBridgeMessage) :
    ReadsbBridgeMessage :=
  { plain with
    callsign :=
      if h : Identifies message then
        some ⟨aisCallsign (me message), aisCallsign_over (me message) h.2.2⟩
      else none
    velocity :=
      if TellsTrack turnRate message then
        some (Int32.ofInt (bds50Speed (me message) : ℕ), roundedHeading (bds50Track (me message)))
      else none
    verticalRate := if TellsHeading turnRate message then some (reportedRate message) else none }

/-- A decoder that does not look at registers. -/
def withoutCommB (env : Env) : Env := { env with decodeCommB := fun _ mm => mm }

theorem store_of_other {mb : ℕ → ℕ} {decoder : CommBDecoder}
    (h : decoder ∉ [CommBDecoder.bds20, .bds50, .bds60]) (mm : ModesMessage) :
    (decoder.decode turnRate mb).store mm = mm := by
  cases decoder with
  | emptyResponse =>
    rw [CommBDecoder.decode, decodeEmptyResponse]
    split <;> rfl
  | bds10 =>
    rw [CommBDecoder.decode, decodeBDS10]
    split
    · rfl
    · split <;> rfl
  | bds30 =>
    rw [CommBDecoder.decode, decodeBDS30]
    split <;> rfl
  | bds17 =>
    rw [CommBDecoder.decode, decodeBDS17]
    split <;> rfl
  | bds40 =>
    unfold CommBDecoder.decode decodeBDS40
    simp only
    split
    · rfl
    · split <;> rfl
  | bds44 =>
    unfold CommBDecoder.decode decodeBDS44
    simp only
    split <;> rfl
  | bds20 => exact absurd (by decide) h
  | bds50 => exact absurd (by decide) h
  | bds60 => exact absurd (by decide) h

theorem roundHalfAway_natCast (n : ℕ) : Text.roundHalfAway (n : ℚ) = n := by
  have hfloor : ⌊(n : ℚ) + 1 / 2⌋ = (n : ℤ) := by
    rw [Int.floor_eq_iff]
    constructor <;> push_cast <;> linarith
  rw [Text.roundHalfAway, if_neg (not_lt.2 (Nat.cast_nonneg n)), hfloor]

theorem commB_of_dr (h : getbits (msg message) 9 13 ≠ 0) (mm : ModesMessage) :
    commB turnRate message mm = mm := by
  rw [commB, decodeCommB, if_pos (.inl h)]

theorem commB_of_chosen (h : getbits (msg message) 9 13 = 0) (mm : ModesMessage) :
    commB turnRate message mm =
      match (commBChoice turnRate (me message)).chosen with
      | none => mm
      | some decoder => (decoder.decode turnRate (me message)).store mm := by
  rw [commB, decodeCommB, if_neg (by simp [h])]
  cases hbest : (commBChoice turnRate (me message)).best with
  | none => simp [Choice.chosen, hbest]
  | some decoder =>
    cases hambiguous : (commBChoice turnRate (me message)).ambiguous <;>
      simp [Choice.chosen, hbest, hambiguous]

def DiffersByRegister (mm mm' : ModesMessage) : Prop :=
  mm' = { mm with
    callsign := mm'.callsign
    gs := mm'.gs
    heading := mm'.heading
    baroRate := mm'.baroRate
    geomRate := mm'.geomRate }

theorem fillBridgeMessage_register {mm mm' : ModesMessage} (h : DiffersByRegister mm mm') :
    fillBridgeMessage mm' =
      (fillBridgeMessage mm).map fun plain =>
        { plain with
          callsign := mm'.callsign
          velocity :=
            match mm'.gs, mm'.heading with
            | some gs, some heading =>
              some (Int32.ofInt (Text.roundHalfAway gs), roundedHeading heading)
            | _, _ => none
          verticalRate :=
            match mm'.baroRate, mm'.geomRate with
            | some rate, _ => some (Int32.ofInt rate, true)
            | none, some rate => some (Int32.ofInt rate, false)
            | none, none => none } := by
  unfold DiffersByRegister at h
  generalize mm'.callsign = callsign, mm'.gs = gs, mm'.heading = heading, mm'.baroRate = baroRate,
    mm'.geomRate = geomRate at h ⊢
  subst h
  by_cases haddr : mm.addr = hexUnknown ∧ mm.aa = 0
  · rw [fillBridgeMessage, fillBridgeMessage, if_pos haddr, if_pos haddr]
    rfl
  · rw [fillBridgeMessage, fillBridgeMessage, if_neg haddr, if_neg haddr]
    rfl

/-- What the adapter makes of a reply, register and all. -/
theorem fillBridgeMessage_commB {mm : ModesMessage} (hcallsign : mm.callsign = none)
    (hgs : mm.gs = none) (hheading : mm.heading = none) (hbaro : mm.baroRate = none)
    (hgeom : mm.geomRate = none) :
    fillBridgeMessage (commB turnRate message mm) =
      (fillBridgeMessage mm).map (withRegister turnRate message) := by
  by_cases hdr : getbits (msg message) 9 13 = 0
  · have hidentifies : Identifies message ↔
        (commBChoice turnRate (me message)).chosen = some .bds20 := by
      rw [chosen_bds20_iff, Identifies, and_iff_right hdr]
    have htrack : TellsTrack turnRate message ↔
        (commBChoice turnRate (me message)).chosen = some .bds50 := by
      rw [chosen_bds50_iff, TellsTrack, and_iff_right hdr]
    have hhead : TellsHeading turnRate message ↔
        (commBChoice turnRate (me message)).chosen = some .bds60 := by
      rw [chosen_bds60_iff, TellsHeading, and_iff_right hdr]
    rw [commB_of_chosen hdr]
    cases hchosen : (commBChoice turnRate (me message)).chosen with
    | none =>
      rw [hchosen] at hidentifies htrack hhead
      refine (@fillBridgeMessage_register mm _ ?_).trans
        (congrArg (Option.map · _) (funext fun plain => ?_))
      · rfl
      · simp [withRegister, hidentifies, htrack, hhead, hcallsign, hgs, hheading, hbaro, hgeom]
    | some decoder =>
      rw [hchosen] at hidentifies htrack hhead
      by_cases hother : decoder ∈ [CommBDecoder.bds20, .bds50, .bds60]
      · simp only [List.mem_cons, List.not_mem_nil, or_false] at hother
        rcases hother with rfl | rfl | rfl
        · have hidentification := hidentifies.2 rfl
          have hstore : (decodeBDS20 (me message)).store = fun mm =>
              { mm with callsign := some ⟨aisCallsign (me message), aisCallsign_over _ hidentification.2.2⟩ } := by
            rw [decodeBDS20, if_neg (not_not.2 hidentification.2.1), dif_pos hidentification.2.2]
          simp only [CommBDecoder.decode, hstore]
          refine (@fillBridgeMessage_register mm _ ?_).trans
            (congrArg (Option.map · _) (funext fun plain => ?_))
          · rfl
          · simp [withRegister, hidentification, htrack, hhead, hgs, hheading, hbaro, hgeom]
        · have hpos := lt_of_le_of_lt score_bds60_nonneg (htrack.2 rfl).2
          rcases @decodeBDS50_cases (me message) turnRate with hnone | ⟨-, -, -, -, -, hstore⟩
          · rw [hnone] at hpos
            exact absurd hpos (lt_irrefl 0)
          · simp only [CommBDecoder.decode, hstore]
            refine (@fillBridgeMessage_register mm _ ?_).trans
              (congrArg (Option.map · _) (funext fun plain => ?_))
            · rfl
            · simp [withRegister, hidentifies, htrack, hhead, hcallsign, hbaro, hgeom, roundHalfAway_natCast]
        · have hpos := lt_of_le_of_lt score_bds50_nonneg (hhead.2 rfl).2.1
          rcases @decodeBDS60_cases (me message) with hnone | ⟨-, hrates, -, -, -, hstore⟩
          · rw [hnone] at hpos
            exact absurd hpos (lt_irrefl 0)
          · simp only [CommBDecoder.decode, hstore]
            refine (@fillBridgeMessage_register mm _ ?_).trans
              (congrArg (Option.map · _) (funext fun plain => ?_))
            · rfl
            · cases h35 : getbit (me message) 35 with
              | true => simp [withRegister, reportedRate, hidentifies, htrack, hhead, hcallsign, hgs, hgeom, h35]
              | false =>
                have h46 : getbit (me message) 46 = true := hrates.resolve_left (by simp [h35])
                simp [withRegister, reportedRate, hidentifies, htrack, hhead, hcallsign, hgs, hbaro, h35, h46]
      · simp only [store_of_other hother]
        have hne : decoder ≠ .bds20 ∧ decoder ≠ .bds50 ∧ decoder ≠ .bds60 := by simpa using hother
        refine (@fillBridgeMessage_register mm _ ?_).trans
          (congrArg (Option.map · _) (funext fun plain => ?_))
        · rfl
        · simp [withRegister, hidentifies, htrack, hhead, hcallsign, hgs, hheading, hbaro, hgeom, hne]
  · have hnot : ¬ Identifies message ∧ ¬ TellsTrack turnRate message ∧
        ¬ TellsHeading turnRate message := ⟨fun h => hdr h.1, fun h => hdr h.1, fun h => hdr h.1⟩
    rw [commB_of_dr hdr]
    refine (@fillBridgeMessage_register mm _ ?_).trans
      (congrArg (Option.map · _) (funext fun plain => ?_))
    · rfl
    · simp [withRegister, hnot, hcallsign, hgs, hheading, hbaro, hgeom]
/-! ## Whole messages -/

theorem checkMessage_withoutCommB (filter : IcaoFilter) :
    checkMessage (withoutCommB env) filter message = checkMessage env filter message := rfl

/-- A message of these types goes on unchanged, with nothing corrected. -/
theorem checkMessage_reply {filter : IcaoFilter} {msgtype : ℕ} {checked : Checked}
    (htype : getbits (msg message) 1 5 = 20 ∨ getbits (msg message) 1 5 = 21)
    (hfix : fixDF17msgtype message (getbits (msg message) 1 5) = none)
    (h : checkMessage env filter message = .ok (msgtype, checked)) :
    (msgtype = 20 ∨ msgtype = 21) ∧ checked.message = message ∧ checked.correctedbits = 0 := by
  have hzeros : allZeros message = false := allZeros_eq_false (by omega)
  rw [checkMessage, hzeros, if_neg Bool.false_ne_true] at h
  simp only [hfix] at h
  rcases htype with htype | htype <;>
  · rw [htype] at h
    simp only [checkCrc] at h
    rw [if_pos (by decide)] at h
    split at h
    · cases h
      exact ⟨by omega, rfl, rfl⟩
    · cases h

/-- A message of these types is reported as it would be without its register, and in
addition with what the register tells. -/
theorem readsbBridgeDecode_register (henv : env.decodeCommB = commB turnRate) (filter : IcaoFilter)
    (htype : getbits (msg message) 1 5 = 20 ∨ getbits (msg message) 1 5 = 21)
    (hfix : fixDF17msgtype message (getbits (msg message) 1 5) = none) :
    (readsbBridgeDecode env filter message).1 =
      (readsbBridgeDecode (withoutCommB env) filter message).1.map (withRegister turnRate message) := by
  unfold readsbBridgeDecode
  have hscore : scoreModesMessage (withoutCommB env) filter message 112 =
      scoreModesMessage env filter message 112 := rfl
  rw [hscore]
  split
  · rfl
  · unfold decodeModesMessage
    rw [checkMessage_withoutCommB]
    cases hcheck : checkMessage env filter message with
    | error rejection => rfl
    | ok result =>
      obtain ⟨msgtype, checked⟩ := result
      obtain ⟨hreply, hsame, -⟩ := checkMessage_reply htype hfix hcheck
      have hbulk : decodeBulk env msgtype checked =
          commB turnRate message (decodeBulk (withoutCommB env) msgtype checked) := by
        rw [← hsame, ← henv]
        rcases hreply with rfl | rfl <;> simp [decodeBulk, withoutCommB]
      simp only [hbulk]
      rcases hreply with rfl | rfl
      · refine fillBridgeMessage_commB ?_ ?_ ?_ ?_ ?_ <;> simp [decodeBulk, withoutCommB] <;> split <;> rfl
      · exact fillBridgeMessage_commB rfl rfl rfl rfl rfl

def replyAltitude (message : Message) : Option Int32 :=
  if getbits (msg message) 1 5 = 20 ∧ getbits (msg message) 20 32 ≠ 0 then
    match validAltitude (decodeAC13Field (getbits (msg message) 20 32)) with
    | some (alt, .feet) => some (Int32.ofInt alt)
    | _ => none
  else none

def replyReport (turnRate : ℚ → ℕ → ℚ) (message : Message) : ReadsbBridgeMessage :=
  withRegister turnRate message
    { addr := UInt32.ofNat (modesChecksum (msg message) 112), altitudeFt := replyAltitude message }

/-- **What a reply is reported as**: one from a known aircraft says just what its
header and its register say, any other one is dropped. -/
theorem readsbBridgeDecode_reply (henv : env.decodeCommB = commB turnRate) (filter : IcaoFilter)
    (htype : getbits (msg message) 1 5 = 20 ∨ getbits (msg message) 1 5 = 21)
    (hfix : fixDF17msgtype message (getbits (msg message) 1 5) = none) :
    (readsbBridgeDecode env filter message).1 =
      if filter.test (modesChecksum (msg message) 112) then some (replyReport turnRate message)
      else none := by
  rw [readsbBridgeDecode_register henv filter htype hfix]
  have hzeros : allZeros message = false := allZeros_eq_false (by omega)
  have haddr : modesChecksum (msg message) 112 ≠ hexUnknown :=
    ne_of_lt (lt_trans (modesChecksum_lt (msg_lt message) 112) (by decide))
  have hscore : scoreModesMessage (withoutCommB env) filter message 112 =
      if filter.test (modesChecksum (msg message) 112) then 1000 else -1 := by
    rw [scoreModesMessage, if_neg (by decide)]
    rcases htype with htype | htype
    · simp [htype ▸ hfix, hzeros, htype, modesMessageLenByType, scoreByType]
    · simp [htype ▸ hfix, hzeros, htype, modesMessageLenByType, scoreByType]
  rw [readsbBridgeDecode, hscore]
  by_cases hknown : filter.test (modesChecksum (msg message) 112) = true
  · rw [if_pos hknown, if_pos hknown, if_neg (by decide)]
    have hcheck : checkMessage (withoutCommB env) filter message =
        .ok (getbits (msg message) 1 5,
          { message, addr := modesChecksum (msg message) 112, correctedbits := 0 }) := by
      rw [checkMessage, hzeros, if_neg Bool.false_ne_true]
      rcases htype with htype | htype
      · simp [htype ▸ hfix, htype, modesMessageLenByType, checkCrc, hknown]
        rfl
      · simp [htype ▸ hfix, htype, modesMessageLenByType, checkCrc, hknown]
        rfl
    have hfill : fillBridgeMessage (decodeBulk (withoutCommB env) (getbits (msg message) 1 5)
          { message, addr := modesChecksum (msg message) 112, correctedbits := 0 }) =
        some { addr := UInt32.ofNat (modesChecksum (msg message) 112)
               altitudeFt := replyAltitude message } := by
      rcases htype with htype | htype
      · by_cases hac : getbits (msg message) 20 32 = 0
        · simp [decodeBulk, withoutCommB, fillBridgeMessage, replyAltitude, htype, hac, haddr]
        · rcases halt : validAltitude (decodeAC13Field (getbits (msg message) 20 32)) with
            _ | ⟨alt, _ | _⟩
          all_goals
            simp [decodeBulk, withoutCommB, fillBridgeMessage, replyAltitude, htype, hac, haddr,
              halt]
      · simp [decodeBulk, withoutCommB, fillBridgeMessage, replyAltitude, htype, haddr]
    simp only [decodeModesMessage, hcheck, hfill]
    rfl
  · rw [if_neg hknown, if_neg hknown, if_pos (by decide)]
    rfl

theorem roundedHeading_bounds (heading : ℚ) :
    0 ≤ (roundedHeading heading).toInt ∧ (roundedHeading heading).toInt < 360 := by
  have hlow : -360 < (Text.roundHalfAway heading).tmod 360 := Int.lt_tmod_of_pos _ (by decide)
  have hhigh : (Text.roundHalfAway heading).tmod 360 < 360 := Int.tmod_lt_of_pos _ (by decide)
  simp only [roundedHeading]
  rw [Int32.toInt_ofInt_of_le (by split <;> omega) (by split <;> omega)]
  split <;> omega

/-- **What a register tells is sensible**, whatever reply comes in, and it tells one
thing. -/
theorem readsbBridgeDecode_reply_bounded (henv : env.decodeCommB = commB turnRate)
    (filter : IcaoFilter)
    (htype : getbits (msg message) 1 5 = 20 ∨ getbits (msg message) 1 5 = 21)
    (hfix : fixDF17msgtype message (getbits (msg message) 1 5) = none)
    {out : ReadsbBridgeMessage} (hout : (readsbBridgeDecode env filter message).1 = some out) :
    (∀ v, out.velocity = some v →
        50 ≤ v.1.toInt ∧ v.1.toInt ≤ 700 ∧ 0 ≤ v.2.toInt ∧ v.2.toInt < 360 ∧
          out.callsign = none ∧ out.verticalRate = none) ∧
      ∀ r, out.verticalRate = some r →
        |r.1.toInt| ≤ 6000 ∧ 32 ∣ r.1.toInt ∧ out.callsign = none ∧ out.velocity = none := by
  rw [readsbBridgeDecode_register henv filter htype hfix, Option.map_eq_some_iff] at hout
  obtain ⟨plain, -, rfl⟩ := hout
  have hfirst : ∀ {x : ℕ}, getbit (me message) 1 = true → x.testBit 7 = false → me message 0 ≠ x :=
    ne_of_getbit_one
  constructor
  · intro v hv
    by_cases htrack : TellsTrack turnRate message
    · simp only [withRegister, if_pos htrack, Option.some.injEq] at hv
      subst hv
      have hpos := lt_of_le_of_lt score_bds60_nonneg htrack.2
      rcases @decodeBDS50_cases (me message) turnRate with hnone | ⟨hset, -, hlow, hhigh, -, -⟩
      · rw [hnone] at hpos
        exact absurd hpos (lt_irrefl 0)
      · have hspeed : (Int32.ofInt (bds50Speed (me message) : ℕ)).toInt = bds50Speed (me message) :=
          Int32.toInt_ofInt_of_le (by omega) (by omega)
        obtain ⟨htrackLow, htrackHigh⟩ := roundedHeading_bounds (bds50Track (me message))
        refine ⟨by rw [hspeed]; omega, by rw [hspeed]; omega, htrackLow, htrackHigh, ?_, ?_⟩
        · exact dif_neg fun h => hfirst hset rfl h.2.1
        · exact if_neg fun h => absurd h.2.1 (lt_asymm htrack.2)
    · simp only [withRegister, if_neg htrack] at hv
      cases hv
  · intro r hr
    by_cases hheading : TellsHeading turnRate message
    · simp only [withRegister, if_pos hheading, Option.some.injEq] at hr
      subst hr
      have hpos := lt_of_le_of_lt score_bds50_nonneg hheading.2.1
      rcases @decodeBDS60_cases (me message) with hnone | ⟨hset, hrates, hbaro, hinertial, -, -⟩
      · rw [hnone] at hpos
        exact absurd hpos (lt_irrefl 0)
      · obtain ⟨sign, raw, hrate, hreported⟩ : ∃ sign raw, |bds60Rate sign raw| ≤ 6000 ∧
            (reportedRate message).1 = Int32.ofInt (bds60Rate sign raw) := by
          cases h35 : getbit (me message) 35 with
          | true => exact ⟨_, _, hbaro h35, by simp only [reportedRate, if_pos h35]⟩
          | false =>
            have h46 : getbit (me message) 46 = true := hrates.resolve_left (by simp [h35])
            exact ⟨_, _, hinertial h46, by simp [reportedRate, h35]⟩
        obtain ⟨hlow, hhigh⟩ := abs_le.1 hrate
        rw [hreported, Int32.toInt_ofInt_of_le (by omega) (by omega)]
        refine ⟨hrate, ?_, ?_, ?_⟩
        · unfold bds60Rate
          split <;> omega
        · exact dif_neg fun h => hfirst hset rfl h.2.1
        · exact if_neg fun h => absurd h.2 (lt_asymm hheading.2.1)
    · simp only [withRegister, if_neg hheading] at hr
      cases hr

end

/-! ## A reply -/

def smallTurnRate (roll : ℚ) (tas : ℕ) : ℚ := 68625 * roll / (3600 * tas)

def replyEnv : Env where
  tables := noTables
  decodeCommB := commB smallTurnRate
  trig := ⟨fun _ => 0, fun _ _ => 0⟩

/-- A track and turn report: 438 knots and 114 degrees. -/
def trackReply : Message :=
  #v[0xa0, 0x00, 0x13, 0x93, 0x81, 0x95, 0x15, 0x36, 0xe0, 0x24, 0xd4, 0xcc, 0xf6, 0xb5]

/-- The memory with the sender of a reply. -/
def sender (message : Message) : IcaoFilter := icaoFilterInit.add (modesChecksum (msg message) 112)

/-- Its register tells the velocity. -/
theorem readsbBridgeDecode_track :
    (readsbBridgeDecode replyEnv (sender trackReply) trackReply).1.map ReadsbBridgeMessage.velocity =
      some (some (438, 114)) := by
  have hknown : (sender trackReply).test (modesChecksum (msg trackReply) 112) = true := by
    decide +kernel
  rw [readsbBridgeDecode_reply rfl (sender trackReply) (.inl (by decide)) (by decide), if_pos hknown]
  decide +kernel

def headingReply : Message :=
  #v[0xa0, 0x00, 0x04, 0x12, 0x8f, 0x39, 0xf9, 0x1a, 0x7e, 0x27, 0xc4, 0x6a, 0xdc, 0x21]

theorem readsbBridgeDecode_heading :
    ∃ out, (readsbBridgeDecode replyEnv (sender headingReply) headingReply).1 = some out ∧
      out.verticalRate = some (-1920, true) ∧ out.velocity = none := by
  have hrate : (readsbBridgeDecode replyEnv (sender headingReply) headingReply).1.map
      ReadsbBridgeMessage.verticalRate = some (some (-1920, true)) := by
    rw [readsbBridgeDecode_register rfl (sender headingReply) (.inl (by decide)) (by decide),
      Option.map_map]
    decide +kernel
  obtain ⟨out, hout, hrate⟩ := Option.map_eq_some_iff.1 hrate
  exact ⟨out, hout, hrate, ((readsbBridgeDecode_reply_bounded rfl (sender headingReply)
    (.inl (by decide)) (by decide) hout).2 _ hrate).2.2.2⟩

end AdsbBridge.Readsb
