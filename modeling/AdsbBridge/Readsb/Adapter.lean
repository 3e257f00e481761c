import AdsbBridge.Readsb.ModeS

/-! # The adapter around readsb

`fill_bridge_message` and `readsb_bridge_decode` of `readsb_bridge_adapter.c`. -/
namespace AdsbBridge.Readsb
open AdsbBridge.Lib AdsbBridge.Frame

def roundedHeading (heading : ℚ) : Int32 :=
  let value := (Text.roundHalfAway heading).tmod 360
  Int32.ofInt (if value < 0 then value + 360 else value)

/-- `fill_bridge_message`; `none` is the result 0. -/
def fillBridgeMessage (mm : ModesMessage) : Option ReadsbBridgeMessage :=
  if mm.addr = hexUnknown ∧ mm.aa = 0 then none
  else
    some
      { addr := UInt32.ofNat (if mm.addr ≠ hexUnknown then mm.addr else mm.aa)
        callsign := mm.callsign
        category := mm.category.map fun c => Int32.ofNat (c &&& 0xff)
        altitudeFt :=
          match mm.baroAlt with
          | some (alt, .feet) => some (Int32.ofInt alt)
          | _ => none
        velocity :=
          match mm.gs, mm.heading with
          | some gs, some heading =>
            some (Int32.ofInt (Text.roundHalfAway gs), roundedHeading heading)
          | _, _ => none
        verticalRate :=
          match mm.baroRate, mm.geomRate with
          | some rate, _ => some (Int32.ofInt rate, true)
          | none, some rate => some (Int32.ofInt rate, false)
          | none, none => none
        cpr :=
          match mm.cpr with
          | some ⟨.airborne, odd, lat, lon⟩ => some ⟨odd, Int32.ofNat lat, Int32.ofNat lon⟩
          | _ => none }

/-- A message filled from an extended squitter has a category of an
identification, or none. -/
theorem fillBridgeMessage_category {trig : Fields.Trig} {me : ℕ → ℕ} {mm : ModesMessage}
    (hnone : mm.category = none) {decoded : ReadsbBridgeMessage}
    (h : fillBridgeMessage (decodeExtendedSquitter trig me mm) = some decoded) :
    ∀ c ∈ decoded.category, IsCategory c := by
  unfold fillBridgeMessage at h
  split at h
  · cases h
  · cases h
    intro c hc
    obtain ⟨byte, hbyte, rfl⟩ := Option.map_eq_some_iff.1 hc
    obtain ⟨metype, mesub, hlow, hhigh, hsub, rfl⟩ :=
      decodeExtendedSquitter_category me mm trig hnone byte hbyte
    exact ⟨metype, mesub, hlow, hhigh, hsub, rfl⟩

/-- `readsb_bridge_decode`; `none` is the result 0. -/
def readsbBridgeDecode (env : Env) (filter : IcaoFilter) (message : Message) :
    Option ReadsbBridgeMessage × IcaoFilter :=
  if scoreModesMessage env filter message 112 ≤ 0 then (none, filter)
  else
    match decodeModesMessage env filter message with
    | (.error _, filter) => (none, filter)
    | (.ok mm, filter) => (fillBridgeMessage mm, filter)

/-! ## A squitter whose checksum fits -/

section Squitter

variable {message : Message}

theorem msgtype_eq (hdf : (message.byte 0).toNat >>> 3 = 17) : getbits (msg message) 1 5 = 17 := by
  have hbyte : msg message 0 &&& 0xff = msg message 0 :=
    (Nat.and_two_pow_sub_one_eq_mod _ 8).trans (Nat.mod_eq_of_lt (msg_lt message 0))
  show (msg message 0 &&& 0xff) >>> 3 = 17
  rw [hbyte, msg_eq message 0, hdf]

/-- What `decodeModesMessage` knows of a DF17 before it looks at its payload. -/
def squitterHeader (message : Message) : ModesMessage :=
  { msgtype := 17
    aa := getbits (msg message) 9 32
    addr := getbits (msg message) 9 32
    airground := if getbits (msg message) 6 8 = 4 then .ground else .other }

theorem allZeros_of_squitter (hdf : (message.byte 0).toNat >>> 3 = 17) : allZeros message = false := by
  have hfirst : msg message 0 ≠ 0 := by
    rw [msg_eq message 0]
    intro hzero
    rw [hzero] at hdf
    cases hdf
  simp [allZeros, List.range_succ, hfirst]

theorem decodeBulk_squitter (env : Env) :
    decodeBulk env 17 { message, correctedbits := 0 } =
      decodeExtendedSquitter env.trig (me message) (squitterHeader message) := by
  unfold decodeBulk squitterHeader
  by_cases hca : getbits (msg message) 6 8 = 4 <;> simp [hca]

/-- **A DF17 with a checksum that fits is decoded as it is**, whatever the
memory of addresses holds. -/
theorem decodeModesMessage_squitter (env : Env) (filter : IcaoFilter)
    (hdf : (message.byte 0).toNat >>> 3 = 17) (hsum : validChecksum message) :
    (decodeModesMessage env filter message).1 =
      .ok (decodeExtendedSquitter env.trig (me message) (squitterHeader message)) := by
  have hfree : ErrorFree message :=
    .inl ⟨msgtype_eq hdf, (modesChecksum_eq_zero_iff message).2 hsum⟩
  rw [decodeModesMessage, checkMessage_of_errorFree hfree, msgtype_eq hdf]
  simp only [decodeBulk_squitter]

theorem score_squitter (env : Env) (filter : IcaoFilter) (hdf : (message.byte 0).toNat >>> 3 = 17)
    (hsum : validChecksum message) : 0 < scoreModesMessage env filter message 112 := by
  have hcrc : modesChecksum (msg message) 112 = 0 := (modesChecksum_eq_zero_iff message).2 hsum
  have hfix : fixDF17msgtype message 17 = none := if_neg (by decide)
  have hbits : modesMessageLenByType 17 = 112 := rfl
  have hscore : 0 < scoreByType env filter message 17 112 0 := by
    have heq : scoreByType env filter message 17 112 0 =
        (if filter.test (correctAaField (getbits (msg message) 9 32) []) then 1800 else 1400) / 1 := by
      simp [scoreByType, modesChecksumDiagnose]
    rw [heq]
    split <;> decide
  unfold scoreModesMessage
  rw [if_neg (by decide), msgtype_eq hdf]
  simpa [hfix, hbits, hcrc, allZeros_of_squitter hdf] using hscore

/-- What the adapter delivers for it. -/
theorem readsbBridgeDecode_squitter (env : Env) (filter : IcaoFilter)
    (hdf : (message.byte 0).toNat >>> 3 = 17) (hsum : validChecksum message) :
    (readsbBridgeDecode env filter message).1 =
      fillBridgeMessage
        (decodeExtendedSquitter env.trig (me message) (squitterHeader message)) := by
  have hdecode := decodeModesMessage_squitter env filter hdf hsum
  unfold readsbBridgeDecode
  rw [if_neg (by have := score_squitter env filter hdf hsum; omega)]
  generalize decodeModesMessage env filter message = result at hdecode ⊢
  obtain ⟨mm, filter'⟩ := result
  subst hdecode
  rfl

end Squitter

end AdsbBridge.Readsb
