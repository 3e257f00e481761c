import Mathlib.Data.List.DropRight
import AdsbBridge.Native.Handle
import AdsbBridge.Readsb.Adapter

/-! # One message, two field decoders

A DF17 whose checksum fits is read by native-fast and by readsb. What both
deliver is the same altitude and the same position report. It is the same
velocity unless the subtype is the supersonic one, whose unit is four knots,
and the same callsign unless it holds more than letters, digits and trailing
blanks. -/
namespace AdsbBridge
open AdsbBridge.Lib AdsbBridge.Fields AdsbBridge.Frame AdsbBridge.Readsb AdsbBridge.Cpr

/-- The fields of a message that the two decoders have in common. -/
structure MessageFields where
  callsign : Option Text := none
  altitudeFt : Option Int32 := none
  /-- East and north. -/
  velocity : Option (ℤ × ℤ) := none
  /-- Parity, latitude and longitude word. -/
  cpr : Option (Bool × ℤ × ℤ) := none

def Native.messageFields (message : Message) : MessageFields :=
  let typeCode := typeCode message
  if typeCode ≥ 1 ∧ typeCode ≤ 4 then { callsign := some (Native.decodeCallsign message) }
  else if typeCode ≥ 9 ∧ typeCode ≤ 18 then
    { altitudeFt := decodeAltitudeFt (getBits message 40 12)
      cpr := some (isOdd message, cprLatWord message, cprLonWord message) }
  else if typeCode = 19 then { velocity := velocityComponents message }
  else {}

/-- What readsb delivers of a message; behind speed and track stand the two
components of the velocity. -/
def Readsb.messageFields (env : Env) (filter : IcaoFilter) (message : Message) : MessageFields :=
  match (readsbBridgeDecode env filter message).1 with
  | none => {}
  | some delivered =>
    { callsign := delivered.callsign.map fun c => dropTrailingBlanks c.text
      altitudeFt := delivered.altitudeFt
      velocity := delivered.velocity.bind fun _ => velocityVector (me message)
      cpr := delivered.cpr.map fun c => (c.odd, c.lat.toInt, c.lon.toInt) }

/-- The values of a message, put into the state of its aircraft. -/
structure Stored (trig : Trig) (fields : MessageFields) (before after : Native.AircraftState) :
    Prop where
  callsign : after.callsign = fields.callsign.getD before.callsign
  altitudeFt : after.altitudeFt = fields.altitudeFt.or before.altitudeFt
  speedKt : after.speedKt = (fields.velocity.map fun v =>
    speedKt trig Text.roundHalfAway v.1 v.2).or before.speedKt
  trackDeg : after.trackDeg = (fields.velocity.map fun v =>
    trackDeg trig Text.roundHalfAway v.1 v.2).or before.trackDeg
  cpr : ∀ odd lat lon, fields.cpr = some (odd, lat, lon) →
    (if odd then after.odd else after.even) = some ⟨lat, lon, before.lastSeenMs⟩

theorem stored_position (trig : Trig) (altitude : Option Int32) (odd : Bool) (lat lon : ℤ)
    (state : Native.AircraftState) :
    Stored trig { altitudeFt := altitude, cpr := some (odd, lat, lon) } state
      (({ state with altitudeFt := altitude.or state.altitudeFt } :
        Native.AircraftState).storeReport odd lat lon) := by
  cases odd <;> exact ⟨rfl, rfl, rfl, rfl, fun _ _ _ h => by cases h; rfl⟩

/-- **`handle_message` stores what it takes out of a message**, and keeps the rest. -/
theorem Native.applyMessage_stores (trig : Trig) (clock : Clock) (message : Message)
    (state : Native.AircraftState) :
    Stored trig (Native.messageFields message) state
      (Native.applyMessage trig clock message state).1 := by
  unfold Native.messageFields Native.applyMessage
  simp only
  by_cases hident : typeCode message ≥ 1 ∧ typeCode message ≤ 4
  · rw [if_pos hident, if_pos hident]
    exact ⟨rfl, rfl, rfl, rfl, fun _ _ _ h => nomatch h⟩
  · rw [if_neg hident, if_neg hident]
    by_cases hpos : typeCode message ≥ 9 ∧ typeCode message ≤ 18
    · rw [if_pos hpos, if_pos hpos]
      have hstored := stored_position trig (decodeAltitudeFt (getBits message 40 12))
        (isOdd message) (cprLatWord message) (cprLonWord message) state
      unfold Native.applyPosition Native.decodeGlobalPosition
      generalize decodeAltitudeFt (getBits message 40 12) = altitude at hstored ⊢
      -- a position decoded from the reports touches none of the fields
      cases altitude with
      | none =>
        dsimp only
        cases decodePair globalPosition _ _ with
        | none => exact hstored
        | some p => exact { hstored with callsign := hstored.callsign }
      | some altitude =>
        dsimp only
        cases decodePair globalPosition _ _ with
        | none => exact hstored
        | some p => exact { hstored with callsign := hstored.callsign }
    · rw [if_neg hpos, if_neg hpos]
      by_cases hvel : typeCode message = 19
      · rw [if_pos hvel, if_pos hvel, Native.applyVelocity, Native.decodeVelocity]
        cases velocityComponents message <;> exact ⟨rfl, rfl, rfl, rfl, fun _ _ _ h => nomatch h⟩
      · rw [if_neg hvel, if_neg hvel]
        exact ⟨rfl, rfl, rfl, rfl, fun _ _ _ h => nomatch h⟩

/-- Where both deliver something, it is the same. -/
def Agree {α : Type} (a b : Option α) : Prop := ∀ x ∈ a, ∀ y ∈ b, x = y

structure FieldsAgree (a b : MessageFields) : Prop where
  callsign : Agree a.callsign b.callsign
  altitudeFt : Agree a.altitudeFt b.altitudeFt
  velocity : Agree a.velocity b.velocity
  cpr : Agree a.cpr b.cpr

/-! ## Callsigns -/

section Callsigns

/-- The eight six-bit characters of an identification message. -/
def callsignCodes (message : Message) : List ℕ :=
  (List.range 8).map fun i => getBits message (40 + i * 6) 6

/-- The codes of letters and digits. -/
def IsPlainCode (code : ℕ) : Prop := (1 ≤ code ∧ code ≤ 26) ∨ (48 ≤ code ∧ code ≤ 57)

/-- The codes readsb accepts in no callsign. -/
def IsRejectedCode (code : ℕ) : Prop :=
  (27 ≤ code ∧ code ≤ 31) ∨ (33 ≤ code ∧ code ≤ 44) ∨ 58 ≤ code

instance : DecidablePred IsPlainCode := fun _ => inferInstanceAs (Decidable (_ ∨ _))
instance : DecidablePred IsRejectedCode := fun _ => inferInstanceAs (Decidable (_ ∨ _))

/-- readsb rejects the callsign, or it is letters and digits with blanks behind. -/
def CallsignMatches (message : Message) : Prop :=
  (∃ code ∈ callsignCodes message, IsRejectedCode code) ∨
    ∃ a b, callsignCodes message = a ++ b ∧ (∀ code ∈ a, IsPlainCode code) ∧ ∀ code ∈ b, code = 32

def aisChar (code : ℕ) : Char := aisCharset.getD code ' '

theorem aisChar_facts : ∀ code < 64,
    (isPlainCallsignChar (aisChar code) ↔ IsPlainCode code) ∧
    (isValidCallsignChar (aisChar code) ↔ ¬ IsRejectedCode code) ∧
    (aisChar code = ' ' ↔ code = 32) ∧
    (callsignTable.getD code ' ' ≠ '#' ∧ callsignTable.getD code ' ' ≠ '_' ↔ IsPlainCode code) ∧
    (IsPlainCode code → callsignTable.getD code ' ' = aisChar code) := by
  decide +kernel

theorem callsignCodes_lt {message : Message} {code : ℕ} (h : code ∈ callsignCodes message) :
    code < 64 := by
  obtain ⟨i, -, rfl⟩ := List.mem_map.1 h
  exact getBits_lt message _ 6

theorem aisCallsign_eq (message : Message) :
    aisCallsign (me message) = (callsignCodes message).map aisChar := by
  rw [aisCallsign, callsignCodes, List.map_map]
  refine List.map_congr_left fun i hi => ?_
  have hi8 := List.mem_range.1 hi
  rw [getbits_me message (by omega) (by omega) (by omega), Function.comp_apply, aisChar]
  congr 2 <;> omega

/-- native-fast keeps the letters and digits of what readsb reads. -/
theorem callsignChars_eq (message : Message) :
    callsignChars message = (aisCallsign (me message)).filter isPlainCallsignChar := by
  have hchars : callsignChars message =
      ((callsignCodes message).map fun code => callsignTable.getD code ' ').filter
        fun c => c ≠ '#' && c ≠ '_' := by
    rw [callsignCodes, List.map_map]
    rfl
  have hfilter : (callsignCodes message).filter
        ((fun c => c ≠ '#' && c ≠ '_') ∘ fun code => callsignTable.getD code ' ') =
      (callsignCodes message).filter (isPlainCallsignChar ∘ aisChar) := by
    refine List.filter_congr fun code hcode => ?_
    obtain ⟨hplain, -, -, htable, -⟩ := aisChar_facts code (callsignCodes_lt hcode)
    rw [Bool.eq_iff_iff, Function.comp_apply, Function.comp_apply, hplain, ← htable]
    simp
  rw [hchars, aisCallsign_eq, List.filter_map, List.filter_map, hfilter]
  refine List.map_congr_left fun code hcode => ?_
  obtain ⟨hmem, hp⟩ := List.mem_filter.1 hcode
  obtain ⟨hplain, -, -, -, heq⟩ := aisChar_facts code (callsignCodes_lt hmem)
  exact heq (hplain.1 hp)

theorem dropTrailingBlanks_append {a b : Text} (ha : ∀ c ∈ a, c ≠ ' ') (hb : ∀ c ∈ b, c = ' ') :
    dropTrailingBlanks (a ++ b) = a := by
  have hblank : ∀ c ∈ b.reverse, (fun c : Char => decide (c = ' ')) c := by
    intro c hc
    exact decide_eq_true (hb c (List.mem_reverse.1 hc))
  have hself : a.reverse.dropWhile (fun c => decide (c = ' ')) = a.reverse := by
    rw [List.dropWhile_eq_self_iff]
    intro hlen
    simp only [decide_eq_true_eq]
    exact ha _ (List.mem_reverse.1 (List.getElem_mem hlen))
  rw [dropTrailingBlanks, List.reverse_append, List.dropWhile_append_of_pos hblank, hself,
    List.reverse_reverse]

/-- Dropping everything else and dropping trailing blanks. -/
theorem filter_eq_dropTrailingBlanks_iff {p : Char → Bool} (hp : p ' ' = false) (t : Text) :
    t.filter p = dropTrailingBlanks t ↔
      ∃ a b, t = a ++ b ∧ (∀ c ∈ a, p c) ∧ ∀ c ∈ b, c = ' ' := by
  constructor
  · intro h
    refine ⟨dropTrailingBlanks t, t.rtakeWhile (· = ' '), List.rdropWhile_append_rtakeWhile.symm,
      ?_, ?_⟩
    · intro c hc
      rw [← h] at hc
      exact (List.mem_filter.1 hc).2
    · intro c hc
      simpa using List.mem_rtakeWhile_imp hc
  · intro hsplit
    obtain ⟨a, b, rfl, ha, hb⟩ := hsplit
    have hne : ∀ c ∈ a, c ≠ ' ' := by
      rintro c hc rfl
      rw [ha _ hc] at hp
      cases hp
    have hnone : b.filter p = [] := by
      rw [List.filter_eq_nil_iff]
      intro c hc
      rw [hb c hc, hp]
      exact Bool.false_ne_true
    rw [dropTrailingBlanks_append hne hb, List.filter_append, List.filter_eq_self.2 ha, hnone,
      List.append_nil]

theorem decodeCallsign_eq (message : Message) :
    Native.decodeCallsign message = (aisCallsign (me message)).filter isPlainCallsignChar := by
  have hne : ∀ c ∈ (aisCallsign (me message)).filter isPlainCallsignChar, c ≠ ' ' := by
    rintro c hc rfl
    exact absurd (List.mem_filter.1 hc).2 (by decide)
  have hdrop := dropTrailingBlanks_append hne (b := []) nofun
  rw [List.append_nil] at hdrop
  rw [Native.decodeCallsign, callsignChars_eq, hdrop]

/-- The letters and digits in front of blanks, as characters and as codes. -/
theorem splits_iff (message : Message) :
    (∃ a b, aisCallsign (me message) = a ++ b ∧ (∀ c ∈ a, isPlainCallsignChar c) ∧
        ∀ c ∈ b, c = ' ') ↔
      ∃ a b, callsignCodes message = a ++ b ∧ (∀ code ∈ a, IsPlainCode code) ∧
        ∀ code ∈ b, code = 32 := by
  rw [aisCallsign_eq]
  constructor
  · intro h
    obtain ⟨a, b, hab, ha, hb⟩ := h
    obtain ⟨a, b, hcodes, rfl, rfl⟩ := List.map_eq_append_iff.1 hab
    refine ⟨a, b, hcodes, ?_, ?_⟩
    · intro code hcode
      have hlt := callsignCodes_lt (hcodes ▸ List.mem_append_left b hcode)
      exact (aisChar_facts code hlt).1.1 (ha _ (List.mem_map_of_mem hcode))
    · intro code hcode
      have hlt := callsignCodes_lt (hcodes ▸ List.mem_append_right a hcode)
      exact (aisChar_facts code hlt).2.2.1.1 (hb _ (List.mem_map_of_mem hcode))
  · intro h
    obtain ⟨a, b, hcodes, ha, hb⟩ := h
    refine ⟨a.map aisChar, b.map aisChar, by rw [hcodes, List.map_append], ?_, ?_⟩
    · intro c hc
      obtain ⟨code, hcode, rfl⟩ := List.mem_map.1 hc
      have hlt := callsignCodes_lt (hcodes ▸ List.mem_append_left b hcode)
      exact (aisChar_facts code hlt).1.2 (ha code hcode)
    · intro c hc
      obtain ⟨code, hcode, rfl⟩ := List.mem_map.1 hc
      have hlt := callsignCodes_lt (hcodes ▸ List.mem_append_right a hcode)
      exact (aisChar_facts code hlt).2.2.1.2 (hb code hcode)

theorem valid_iff (message : Message) :
    (aisCallsign (me message)).all isValidCallsignChar ↔
      ¬ ∃ code ∈ callsignCodes message, IsRejectedCode code := by
  rw [aisCallsign_eq, List.all_map, List.all_eq_true]
  constructor
  · rintro h ⟨code, hcode, hrejected⟩
    exact (aisChar_facts code (callsignCodes_lt hcode)).2.1.1 (h code hcode) hrejected
  · intro h code hcode
    exact (aisChar_facts code (callsignCodes_lt hcode)).2.1.2 fun hr => h ⟨code, hcode, hr⟩

end Callsigns

/-! ## Single fields -/

section Fields

variable (message : Message)

theorem and_one_shiftLeft_ne_zero (x k : ℕ) : x &&& 1 <<< k ≠ 0 ↔ x >>> k &&& 1 = 1 := by
  have hbit : x >>> k &&& 1 = (x.testBit k).toNat := by
    rw [Nat.and_one_is_mod, Nat.toNat_testBit, Nat.shiftRight_eq_div_pow]
  rw [Nat.one_shiftLeft, Nat.and_two_pow, hbit]
  cases x.testBit k <;> simp

theorem getbit_me {bit : ℕ} : getbit (me message) bit =
    decide (getBits message (32 + (bit - 1)) 1 = 1) := by
  have hone : getBits message (32 + (bit - 1)) 1 =
      me message ((bit - 1) / 8) >>> (7 - (bit - 1) % 8) &&& 1 := by
    rw [← foldBits_me]
    simp [foldBits]
  have hand : (bit - 1) &&& 7 = (bit - 1) % 8 := Nat.and_two_pow_sub_one_eq_mod _ 3
  rw [getbit, hone, hand, Nat.shiftRight_eq_div_pow (bit - 1)]
  simp only [and_one_shiftLeft_ne_zero]

/-- readsb counts subtype 2 in units of four knots. -/
theorem velocityVector_eq (h : getBits message 37 3 = 1 ∨ getBits message 37 3 = 2) :
    velocityVector (me message) =
      (velocityComponents message).map fun v =>
        if getBits message 37 3 = 2 then (v.1 * 4, v.2 * 4) else v := by
  have hsub : getbits (me message) 6 8 = getBits message 37 3 :=
    getbits_me message (by decide) (by decide) (by decide)
  have hew : getbits (me message) 15 24 = getBits message 46 10 :=
    getbits_me message (by decide) (by decide) (by decide)
  have hns : getbits (me message) 26 35 = getBits message 57 10 :=
    getbits_me message (by decide) (by decide) (by decide)
  have hewSign : getbit (me message) 14 = decide (getBits message 45 1 = 1) := getbit_me message
  have hnsSign : getbit (me message) 25 = decide (getBits message 56 1 = 1) := getbit_me message
  have hknown : ¬ (getBits message 37 3 ≠ 1 ∧ getBits message 37 3 ≠ 2) := by omega
  unfold velocityVector velocityComponents
  simp only [hsub, hew, hns, hewSign, hnsSign, if_neg hknown]
  by_cases hzero : getBits message 46 10 ≠ 0 ∧ getBits message 57 10 ≠ 0
  · have hpos : ¬ ((getBits message 46 10 : ℤ) - 1 < 0 ∨ (getBits message 57 10 : ℤ) - 1 < 0) := by
      omega
    rw [if_pos hzero, if_neg hpos, Option.map_some]
    congr 1
    by_cases hew : getBits message 45 1 = 1 <;> by_cases hns : getBits message 56 1 = 1 <;>
      rcases h with h | h <;> simp [hew, hns, h]
  · have hneg : (getBits message 46 10 : ℤ) - 1 < 0 ∨ (getBits message 57 10 : ℤ) - 1 < 0 := by
      omega
    rw [if_neg hzero, if_pos hneg]
    rfl

theorem altitude_agree (code : ℕ) : Agree (decodeAltitudeFt code)
    (match validAltitude (decodeAC12Field code) with
      | some (alt, .feet) => some (Int32.ofInt alt)
      | _ => none) := by
  intro x hx y hy
  unfold decodeAltitudeFt at hx
  split at hx
  · cases hx
  · split at hx
    · cases hx
    · next hq =>
      have hbit : code &&& 0x10 ≠ 0 :=
        (and_one_shiftLeft_ne_zero code 4).2 (by rw [Nat.and_one_is_mod] at hq ⊢; omega)
      have hvalid : ∀ n : ℕ, (n : ℤ) * 25 - 1000 ≠ invalidAltitude := by
        intro n
        unfold invalidAltitude
        omega
      unfold decodeAC12Field validAltitude at hy
      rw [if_pos hbit] at hy
      simp only [if_pos (hvalid _)] at hy
      cases hx
      cases hy
      rfl

end Fields

/-! ## All fields -/

section Messages

variable {message : Message}

/-- The velocity is not the supersonic one, or it is not there, or it is zero. -/
def VelocityMatches (message : Message) : Prop :=
  getBits message 37 3 = 2 → getBits message 46 10 = 0 ∨ getBits message 57 10 = 0 ∨
    (getBits message 46 10 = 1 ∧ getBits message 57 10 = 1)

theorem decodeExtendedSquitter_eq (trig : Trig) :
    decodeExtendedSquitter trig (me message) (squitterHeader message) =
      decodeMetype trig false (typeCode message) (me message) (squitterHeader message) := by
  have htype : getbits (me message) 1 5 = typeCode message :=
    getbits_me message (by decide) (by decide) (by decide)
  rw [decodeExtendedSquitter, ← htype]
  rfl

/-- The message a decoded DF17 is delivered as. -/
theorem messageFields_of_squitter (env : Env) (filter : IcaoFilter)
    (hdf : (message.byte 0).toNat >>> 3 = 17) (hsum : validChecksum message) {mm : ModesMessage}
    (hmm : decodeMetype env.trig false (typeCode message) (me message) (squitterHeader message) = mm) :
    Readsb.messageFields env filter message =
      { callsign := mm.callsign.map fun c => dropTrailingBlanks c.text
        altitudeFt :=
          match mm.baroAlt with
          | some (alt, .feet) => some (Int32.ofInt alt)
          | _ => none
        velocity := if mm.gs.isSome ∧ mm.heading.isSome then velocityVector (me message) else none
        cpr :=
          match mm.cpr with
          | some ⟨.airborne, odd, lat, lon⟩ =>
            some (odd, (Int32.ofNat lat).toInt, (Int32.ofNat lon).toInt)
          | _ => none } := by
  have hknown : ¬ (mm.addr = hexUnknown ∧ mm.aa = 0) := by
    intro h
    obtain ⟨haddr, -⟩ := h
    rw [← hmm, decodeMetype_addr] at haddr
    exact announced_ne_hexUnknown message haddr
  unfold Readsb.messageFields
  rw [readsbBridgeDecode_squitter env filter hdf hsum, decodeExtendedSquitter_eq, hmm,
    fillBridgeMessage, if_neg hknown]
  simp only
  congr 1
  · cases mm.gs <;> cases mm.heading <;> rfl
  · rcases mm.cpr with - | ⟨type, odd, lat, lon⟩
    · rfl
    · cases type <;> rfl

/-- What an airborne position leaves in the message. -/
theorem airbornePosition_fields (metype : ℕ) (mm : ModesMessage) (hbaro : mm.baroAlt = none)
    (hcpr : mm.cpr = none) :
    let decoded := decodeESAirbornePosition false metype (me message) mm
    (decoded.baroAlt = none ∨
        decoded.baroAlt = validAltitude (decodeAC12Field (getBits message 40 12))) ∧
      (decoded.cpr = none ∨
        decoded.cpr = some ⟨.airborne, isOdd message, getBits message 54 17, getBits message 71 17⟩) := by
  have hac : getbits (me message) 9 20 = getBits message 40 12 :=
    getbits_me message (by decide) (by decide) (by decide)
  have hlat : getbits (me message) 23 39 = getBits message 54 17 :=
    getbits_me message (by decide) (by decide) (by decide)
  have hlon : getbits (me message) 40 56 = getBits message 71 17 :=
    getbits_me message (by decide) (by decide) (by decide)
  have hodd : getbit (me message) 22 = isOdd message := getbit_me message
  unfold decodeESAirbornePosition checkImf
  simp only [hac, hlat, hlon, hodd, Bool.false_and, Bool.false_eq_true, if_false]
  cases validAltitude (decodeAC12Field (getBits message 40 12)) <;> grind

/-- What an airborne velocity leaves in the message. -/
theorem airborneVelocity_fields (trig : Trig) (hsqrt : ∀ x, 0 < x → 0 < trig.sqrt x)
    (mm : ModesMessage) (hgs : mm.gs = none) :
    let decoded := decodeESAirborneVelocity trig false (me message) mm
    (decoded.gs.isSome ∧ decoded.heading.isSome ↔
        (getBits message 37 3 = 1 ∨ getBits message 37 3 = 2) ∧
          (velocityVector (me message)).isSome) := by
  have hsub : getbits (me message) 6 8 = getBits message 37 3 :=
    getbits_me message (by decide) (by decide) (by decide)
  have hvertical : ∀ mm, (setVerticalRate (me message) mm).gs = mm.gs ∧
      (setVerticalRate (me message) mm).heading = mm.heading := by
    intro mm
    unfold setVerticalRate
    simp only
    split
    · exact ⟨rfl, rfl⟩
    · split <;> exact ⟨rfl, rfl⟩
  have hsilent : ∀ mm' : ModesMessage, mm'.gs = none →
      ¬ ((setVerticalRate (me message) mm').gs.isSome ∧
        (setVerticalRate (me message) mm').heading.isSome) := by
    intro mm' hnone
    rw [(hvertical mm').1, hnone]
    exact fun h => absurd h.1 (by decide)
  unfold decodeESAirborneVelocity checkImf
  simp only [hsub, Bool.false_and, Bool.false_eq_true, if_false]
  by_cases hkind : getBits message 37 3 < 1 ∨ getBits message 37 3 > 4
  · rw [if_pos hkind, hgs]
    exact iff_of_false (fun h => absurd h.1 (by decide)) fun h => by omega
  · rw [if_neg hkind]
    by_cases hground : getBits message 37 3 = 1 ∨ getBits message 37 3 = 2
    · rw [if_pos hground]
      rcases velocityVector (me message) with - | ⟨ewVel, nsVel⟩
      · exact iff_of_false (hsilent mm hgs) fun h => absurd h.2 (by decide)
      · obtain ⟨hspeed, htrack⟩ := hvertical (setGroundVector trig (ewVel, nsVel) mm)
        have hpos : 0 < trig.sqrt ((nsVel : ℚ) * nsVel + ewVel * ewVel + 1 / 2) :=
          hsqrt _ (add_pos_of_nonneg_of_pos
            (add_nonneg (mul_self_nonneg _) (mul_self_nonneg _)) (by norm_num))
        have hheading : (setGroundVector trig (ewVel, nsVel) mm).heading.isSome := by
          simp only [setGroundVector]
          rw [if_pos hpos]
          rfl
        dsimp only
        rw [hspeed, htrack]
        exact ⟨fun _ => ⟨hground, rfl⟩, fun _ => ⟨rfl, hheading⟩⟩
    · rw [if_neg hground]
      split
      · exact iff_of_false (hsilent _ hgs) fun h => hground h.1
      · exact iff_of_false (hsilent mm hgs) fun h => hground h.1

theorem toInt_word {n : ℕ} (h : n < 2 ^ 17) : (Int32.ofNat n).toInt = n :=
  Int32.toInt_ofNat_of_lt (by omega)

/-- In subtype 2, a component is a quarter of what readsb makes of it. -/
theorem velocityMatches_iff (hsub : getBits message 37 3 = 2) :
    VelocityMatches message ↔ ∀ v ∈ velocityComponents message, v = (v.1 * 4, v.2 * 4) := by
  unfold VelocityMatches velocityComponents
  simp only [hsub, forall_const, if_neg (show ¬ (2 ≠ 1 ∧ 2 ≠ 2) by decide)]
  by_cases hneg : (getBits message 46 10 : ℤ) - 1 < 0 ∨ (getBits message 57 10 : ℤ) - 1 < 0
  · rw [if_pos hneg]
    exact ⟨fun _ v hv => (nomatch hv), fun _ => by omega⟩
  · rw [if_neg hneg]
    simp only [Option.mem_some_iff, forall_eq']
    rw [Prod.ext_iff]
    dsimp only
    split <;> split <;> omega

theorem agree_none {α : Type} (a : Option α) : Agree a none := fun _ _ _ h => nomatch h

theorem none_agree {α : Type} (b : Option α) : Agree none b := fun _ h => nomatch h

section Cases

variable (env : Env) (filter : IcaoFilter) (hdf : (message.byte 0).toNat >>> 3 = 17)
  (hsum : validChecksum message)
include hdf hsum

theorem identification_agree (htype : 1 ≤ typeCode message ∧ typeCode message ≤ 4) :
    FieldsAgree (Native.messageFields message) (Readsb.messageFields env filter message) ↔
      CallsignMatches message := by
  have hmm : decodeMetype env.trig false (typeCode message) (me message) (squitterHeader message) =
      decodeESIdentAndCategory (typeCode message) (me message) (squitterHeader message) := if_pos htype
  have hnative : Native.messageFields message =
      { callsign := some (Native.decodeCallsign message) } := if_pos htype
  have hreadsb := messageFields_of_squitter env filter hdf hsum hmm
  have hfields : FieldsAgree (Native.messageFields message)
        (Readsb.messageFields env filter message) ↔
      Agree (some (Native.decodeCallsign message))
        (Readsb.messageFields env filter message).callsign := by
    rw [hnative]
    exact ⟨fun h => h.callsign, fun h => ⟨h, none_agree _, none_agree _, none_agree _⟩⟩
  have hsplit := splits_iff message
  rw [← filter_eq_dropTrailingBlanks_iff (by decide), ← decodeCallsign_eq] at hsplit
  rw [hfields, hreadsb, CallsignMatches, ← hsplit]
  by_cases hvalid : (aisCallsign (me message)).all isValidCallsignChar
  · have hnot := (valid_iff message).1 hvalid
    simp only [decodeESIdentAndCategory, dif_pos hvalid, Option.map_some]
    exact ⟨fun h => .inr (h _ rfl _ rfl), fun h x hx y hy => by
      cases hx; cases hy; exact h.resolve_left hnot⟩
  · have hrejected := not_not.1 (mt (valid_iff message).2 hvalid)
    simp only [decodeESIdentAndCategory, dif_neg hvalid, Option.map_none]
    exact ⟨fun _ => .inl hrejected, fun _ => agree_none _⟩

theorem position_agree (htype : 9 ≤ typeCode message ∧ typeCode message ≤ 18) :
    FieldsAgree (Native.messageFields message) (Readsb.messageFields env filter message) := by
  have hmm : decodeMetype env.trig false (typeCode message) (me message) (squitterHeader message) =
      decodeESAirbornePosition false (typeCode message) (me message) (squitterHeader message) := by
    rw [decodeMetype, if_neg (by omega), if_neg (by omega), if_neg (by omega), if_pos (by omega)]
  have hnative : Native.messageFields message =
      { altitudeFt := decodeAltitudeFt (getBits message 40 12)
        cpr := some (isOdd message, cprLatWord message, cprLonWord message) } := by
    unfold Native.messageFields
    simp only
    rw [if_neg (by omega), if_pos htype]
  obtain ⟨halt, hcpr⟩ := @airbornePosition_fields message (typeCode message)
    (squitterHeader message) rfl rfl
  rw [hnative, messageFields_of_squitter env filter hdf hsum hmm]
  refine ⟨none_agree _, ?_, none_agree _, ?_⟩
  · rcases halt with halt | halt
    · simp only [halt]
      exact agree_none _
    · simp only [halt]
      exact altitude_agree _
  · rcases hcpr with hcpr | hcpr
    · simp only [hcpr]
      exact agree_none _
    · simp only [hcpr]
      rintro x ⟨⟩ y ⟨⟩
      rw [toInt_word (getBits_lt message 54 17), toInt_word (getBits_lt message 71 17)]
      rfl

theorem velocity_agree (hsqrt : ∀ x, 0 < x → 0 < env.trig.sqrt x) (htype : typeCode message = 19) :
    FieldsAgree (Native.messageFields message) (Readsb.messageFields env filter message) ↔
      VelocityMatches message := by
  have hmm : decodeMetype env.trig false (typeCode message) (me message) (squitterHeader message) =
      decodeESAirborneVelocity env.trig false (me message) (squitterHeader message) := by
    rw [decodeMetype, if_neg (by omega), if_pos htype]
  have hnative : Native.messageFields message = { velocity := velocityComponents message } := by
    unfold Native.messageFields
    simp only
    rw [if_neg (by omega), if_neg (by omega), if_pos htype]
  have hvel := @airborneVelocity_fields message env.trig hsqrt (squitterHeader message) rfl
  have hfields : FieldsAgree (Native.messageFields message)
        (Readsb.messageFields env filter message) ↔
      Agree (velocityComponents message) (Readsb.messageFields env filter message).velocity := by
    rw [hnative]
    exact ⟨fun h => h.velocity, fun h => ⟨none_agree _, none_agree _, h, none_agree _⟩⟩
  rw [hfields, messageFields_of_squitter env filter hdf hsum hmm]
  simp only [hvel]
  by_cases hsub : getBits message 37 3 = 1 ∨ getBits message 37 3 = 2
  · rw [velocityVector_eq message hsub]
    rcases hsub with hsub | hsub
    · refine iff_of_true ?_ fun h2 => by omega
      cases hcomponents : velocityComponents message with
      | none => exact none_agree _
      | some v =>
        rintro x ⟨⟩ y hy
        simpa [hsub] using hy
    · rw [velocityMatches_iff hsub]
      cases hcomponents : velocityComponents message with
      | none =>
        refine iff_of_true (none_agree _) fun v hv => ?_
        cases hv
      | some v =>
        simp [Agree, hsub]
  · rw [if_neg fun h => hsub h.1]
    exact iff_of_true (agree_none _) fun h2 => absurd (.inr h2) hsub

end Cases

/-- **When the two field decoders agree.** -/
theorem fieldsAgree_iff (env : Env) (filter : IcaoFilter) (message : Message)
    (hsqrt : ∀ x, 0 < x → 0 < env.trig.sqrt x) (hdf : (message.byte 0).toNat >>> 3 = 17)
    (hsum : validChecksum message) :
    FieldsAgree (Native.messageFields message) (Readsb.messageFields env filter message) ↔
      (1 ≤ typeCode message ∧ typeCode message ≤ 4 → CallsignMatches message) ∧
      (typeCode message = 19 → VelocityMatches message) := by
  by_cases hident : 1 ≤ typeCode message ∧ typeCode message ≤ 4
  · rw [identification_agree env filter hdf hsum hident]
    exact ⟨fun h => ⟨fun _ => h, fun h19 => by omega⟩, fun h => h.1 hident⟩
  · by_cases hvel : typeCode message = 19
    · rw [velocity_agree env filter hdf hsum hsqrt hvel]
      exact ⟨fun h => ⟨fun hi => absurd hi hident, fun _ => h⟩, fun h => h.2 hvel⟩
    · refine ⟨fun _ => ⟨fun hi => absurd hi hident, fun h => absurd h hvel⟩, fun _ => ?_⟩
      by_cases hpos : 9 ≤ typeCode message ∧ typeCode message ≤ 18
      · exact position_agree env filter hdf hsum hpos
      · have hnothing : Native.messageFields message = {} := by
          unfold Native.messageFields
          simp only
          rw [if_neg hident, if_neg hpos, if_neg hvel]
        rw [hnothing]
        exact ⟨none_agree _, none_agree _, none_agree _, none_agree _⟩

/-! ## A supersonic aircraft -/

/-- Velocity, subtype 2: the fields say 101 to the east and 51 to the north. -/
def supersonic : Message :=
  #v[0x8d, 0x48, 0x40, 0xd6, 0x9a, 0x00, 0x65, 0x06, 0x60, 0x00, 0x00, 0x95, 0xe3, 0xe0]

/-- Square roots to four digits, and the one track of the example. -/
def roughTrig : Trig where
  sqrt x := (Nat.sqrt ⌊x * 10 ^ 8⌋₊ + 1) / 10 ^ 4
  atan2Degrees _ _ := 63434949 / 10 ^ 6

/-- No syndrome can be corrected, and no Comm-B register is read. -/
def roughEnv : Env where
  tables := noTables
  decodeCommB _ mm := mm
  trig := roughTrig

theorem supersonic_components :
    (supersonic.byte 0).toNat >>> 3 = 17 ∧ validChecksum supersonic ∧ typeCode supersonic = 19 ∧
      (Native.messageFields supersonic).velocity = some (100, 50) ∧
      (Readsb.messageFields roughEnv icaoFilterInit supersonic).velocity = some (400, 200) := by
  decide +kernel

theorem roughTrig_sqrt_pos (x : ℚ) : 0 < x → 0 < roughTrig.sqrt x := by
  intro _
  unfold roughTrig
  simp only
  positivity

/-- The general statement at this message. -/
theorem supersonic_not_fieldsAgree :
    ¬ FieldsAgree (Native.messageFields supersonic)
      (Readsb.messageFields roughEnv icaoFilterInit supersonic) := by
  rw [fieldsAgree_iff roughEnv icaoFilterInit supersonic roughTrig_sqrt_pos (by decide) (by decide)]
  intro h
  obtain ⟨-, hvel⟩ := h
  exact absurd (hvel (by decide)) (by unfold VelocityMatches; decide)

end Messages

end AdsbBridge
