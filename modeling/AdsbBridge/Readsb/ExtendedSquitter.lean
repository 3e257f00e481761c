import AdsbBridge.Readsb.Altitude
import AdsbBridge.Readsb.Bits
import AdsbBridge.Readsb.Message

/-! # Extended squitters, the readsb way

`decodeExtendedSquitter` of `mode_s.c` and the decoders of the single formats,
with the fields of `struct modesMessage` that `fill_bridge_message` reads or
that decide about those. A flag `x_valid` with its value is an `Option`. -/
namespace AdsbBridge.Readsb
open AdsbBridge.Lib AdsbBridge.Fields

def hexUnknown : ℕ := 0xdeadbeef

def modesNonIcaoAddress : ℕ := 1 <<< 24

/-- `airground_t`, as far as an altitude depends on it. -/
inductive AirGround
  | other
  | ground
  deriving DecidableEq, Repr

inductive CprType
  | airborne
  | surface
  deriving DecidableEq, Repr

/-- `cpr_type`, `cpr_odd`, `cpr_lat` and `cpr_lon`. -/
structure ModesCpr where
  type : CprType
  odd : Bool
  lat : ℕ
  lon : ℕ
  deriving DecidableEq, Repr

structure ModesMessage where
  msgtype : ℕ
  addr : ℕ := hexUnknown
  aa : ℕ := 0
  cf : ℕ := 0
  airground : AirGround := .other
  callsign : Option Callsign := none
  category : Option ℕ := none
  /-- `baro_alt` and its unit. -/
  baroAlt : Option (ℤ × AltitudeUnit) := none
  /-- `gs.selected`. -/
  gs : Option ℚ := none
  heading : Option ℚ := none
  baroRate : Option ℤ := none
  geomRate : Option ℤ := none
  cpr : Option ModesCpr := none

/-! ## Identification -/

def aisCharset : List Char :=
  "@ABCDEFGHIJKLMNOPQRSTUVWXYZ[\\]^_ !\"#$%&'()*+,-./0123456789:;<=>?".toList

def aisCallsign (me : ℕ → ℕ) : Text :=
  (List.range 8).map fun i => aisCharset.getD (getbits me (9 + 6 * i) (14 + 6 * i)) ' '

def isValidCallsignChar (c : Char) : Bool :=
  ('A' ≤ c && c ≤ 'Z') || ('-' ≤ c && c ≤ '9') || c == ' ' || c == '@'

theorem aisCharset_valid {c : Char} (hmem : c ∈ ' ' :: aisCharset) (h : isValidCallsignChar c) :
    isCallsignChar c := by
  have hall : ((' ' :: aisCharset).all fun c => !isValidCallsignChar c || isCallsignChar c) = true := by
    decide
  have hc := List.all_eq_true.1 hall c hmem
  rwa [h, Bool.not_true, Bool.false_or] at hc

theorem aisCallsign_over (me : ℕ → ℕ) (h : (aisCallsign me).all isValidCallsignChar) :
    Text.Over isCallsignChar (aisCallsign me) := by
  intro c hc
  have hvalid := List.all_eq_true.1 h c hc
  obtain ⟨i, -, rfl⟩ := List.mem_map.1 hc
  refine aisCharset_valid ?_ hvalid
  rw [List.getD_eq_getElem?_getD]
  cases hg : aisCharset[getbits me (9 + 6 * i) (14 + 6 * i)]? with
  | none => exact List.mem_cons_self
  | some d => exact List.mem_cons_of_mem _ (List.mem_of_getElem? hg)

def decodeESIdentAndCategory (metype : ℕ) (me : ℕ → ℕ) (mm : ModesMessage) : ModesMessage :=
  let mesub := getbits me 6 8
  { mm with
    callsign :=
      if h : (aisCallsign me).all isValidCallsignChar then
        some ⟨aisCallsign me, aisCallsign_over me h⟩
      else none
    category := some (((0x0e - metype) <<< 4) ||| mesub) }

/-! ## Velocity -/

/-- `setIMF`: the address is not an ICAO address. -/
def setIMF (mm : ModesMessage) : ModesMessage := { mm with addr := mm.addr ||| modesNonIcaoAddress }

/-- `if (check_imf && getbit(me, bit)) setIMF(mm)`. -/
def checkImf (check : Bool) (me : ℕ → ℕ) (bit : ℕ) (mm : ModesMessage) : ModesMessage :=
  if check && getbit me bit then setIMF mm else mm

/-- `ew_vel` and `ns_vel` of subtypes 1 and 2. -/
def velocityVector (me : ℕ → ℕ) : Option (ℤ × ℤ) :=
  let mesub := getbits me 6 8
  let ewRaw := getbits me 15 24
  let nsRaw := getbits me 26 35
  if ewRaw ≠ 0 ∧ nsRaw ≠ 0 then
    some (((ewRaw : ℤ) - 1) * (if getbit me 14 then -1 else 1) * (if mesub = 2 then 4 else 1),
      ((nsRaw : ℤ) - 1) * (if getbit me 25 then -1 else 1) * (if mesub = 2 then 4 else 1))
  else none

def setGroundVector (trig : Trig) (vector : ℤ × ℤ) (mm : ModesMessage) : ModesMessage :=
  let (ewVel, nsVel) := vector
  let selected := trig.sqrt (nsVel * nsVel + ewVel * ewVel + 1 / 2)
  let groundTrack := trig.atan2Degrees ewVel nsVel
  let groundTrack := if groundTrack < 0 then groundTrack + 360 else groundTrack
  { mm with
    gs := some selected
    heading := if selected > 0 then some groundTrack else mm.heading }

/-- `vert_rate`: the rate and whether it is barometric. -/
def setVerticalRate (me : ℕ → ℕ) (mm : ModesMessage) : ModesMessage :=
  let vertRate := getbits me 38 46
  if vertRate = 0 then mm
  else
    let rate := ((vertRate : ℤ) - 1) * (if getbit me 37 then -64 else 64)
    if getbit me 36 then { mm with baroRate := some rate } else { mm with geomRate := some rate }

def decodeESAirborneVelocity (trig : Trig) (check : Bool) (me : ℕ → ℕ) (mm : ModesMessage) :
    ModesMessage :=
  let mesub := getbits me 6 8
  if mesub < 1 ∨ mesub > 4 then mm
  else
    let mm := checkImf check me 9 mm
    let mm :=
      if mesub = 1 ∨ mesub = 2 then
        match velocityVector me with
        | some vector => setGroundVector trig vector mm
        | none => mm
      else if getbit me 14 then
        { mm with heading := some (getbits me 15 24 * 360 / 1024) }
      else mm
    setVerticalRate me mm

/-! ## Positions -/

def decodeMovementFieldV0 (movement : ℕ) : ℚ :=
  if movement ≥ 125 then 0
  else if movement = 124 then 180
  else if movement ≥ 109 then 100 + (movement - 109 + 1 / 2) * 5
  else if movement ≥ 94 then 70 + (movement - 94 + 1 / 2) * 2
  else if movement ≥ 39 then 15 + (movement - 39 + 1 / 2) * 1
  else if movement ≥ 13 then 2 + (movement - 13 + 1 / 2) * (1 / 2)
  else if movement ≥ 9 then 1 + (movement - 9 + 1 / 2) * (1 / 4)
  else if movement ≥ 2 then 1 / 8 + (movement - 2 + 1 / 2) * (1 / 8)
  else 0

def decodeESSurfacePosition (check : Bool) (me : ℕ → ℕ) (mm : ModesMessage) : ModesMessage :=
  let movement := getbits me 6 12
  let mm := { mm with
    airground := .ground
    gs := if movement > 0 ∧ movement < 125 then some (decodeMovementFieldV0 movement) else mm.gs
    heading := if getbit me 13 then some (getbits me 14 20 * 360 / 128) else mm.heading }
  let mm := checkImf check me 21 mm
  { mm with cpr := some ⟨.surface, getbit me 22, getbits me 23 39, getbits me 40 56⟩ }

def decodeESAirbornePosition (check : Bool) (metype : ℕ) (me : ℕ → ℕ) (mm : ModesMessage) :
    ModesMessage :=
  let mm := checkImf check me 8 mm
  let ac12Field := getbits me 9 20
  let cprLat := getbits me 23 39
  let cprLon := getbits me 40 56
  let mm :=
    if metype = 0 then mm
    else if ac12Field = 0 ∧ cprLon = 0 ∧ cprLat &&& 0x0fff = 0 ∧ metype = 15 then mm
    else { mm with cpr := some ⟨.airborne, getbit me 22, cprLat, cprLon⟩ }
  -- types 20 to 22 carry a geometric altitude, which nobody reads
  if ac12Field ≠ 0 ∧ mm.airground ≠ .ground ∧ ¬ (metype = 20 ∨ metype = 21 ∨ metype = 22) then
    match validAltitude (decodeAC12Field ac12Field) with
    | some altitude => { mm with baroAlt := some altitude }
    | none => mm
  else mm

/-! ## All formats -/

/-- The part of `decodeExtendedSquitter` that looks at the control field of a
DF18: whether the format is known, and whether the IMF bit counts. -/
def controlField (me : ℕ → ℕ) (mm : ModesMessage) : ModesMessage × Option Bool :=
  if mm.msgtype = 18 then
    match mm.cf with
    | 0 => (mm, some false)
    | 1 => (setIMF mm, some false)
    | 2 => (mm, some true)
    | 3 => (if getbit me 1 then setIMF mm else mm, none)
    | 5 => (setIMF mm, some false)
    | 6 => (mm, some true)
    | _ => (setIMF mm, none)
  else (mm, some false)

/-- The `switch` over the type code. -/
def decodeMetype (trig : Trig) (check : Bool) (metype : ℕ) (me : ℕ → ℕ) (mm : ModesMessage) :
    ModesMessage :=
  if 1 ≤ metype ∧ metype ≤ 4 then decodeESIdentAndCategory metype me mm
  else if metype = 19 then decodeESAirborneVelocity trig check me mm
  else if 5 ≤ metype ∧ metype ≤ 8 then decodeESSurfacePosition check me mm
  else if metype = 0 ∨ (9 ≤ metype ∧ metype ≤ 22) then decodeESAirbornePosition check metype me mm
  else if metype = 28 then
    if getbits me 6 8 = 1 then checkImf check me 56 mm else mm
  else if metype = 29 then checkImf check me 51 mm
  else if metype = 31 then checkImf check me 56 mm
  else mm

def decodeExtendedSquitter (trig : Trig) (me : ℕ → ℕ) (mm : ModesMessage) : ModesMessage :=
  match controlField me mm with
  | (mm, some check) => decodeMetype trig check (getbits me 1 5) me mm
  | (mm, none) => mm

/-! ## The address -/

section Address

variable (me : ℕ → ℕ) (mm : ModesMessage)

@[simp] theorem checkImf_false (bit : ℕ) : checkImf false me bit mm = mm := rfl

@[simp] theorem setGroundVector_addr (trig : Trig) (vector : ℤ × ℤ) :
    (setGroundVector trig vector mm).addr = mm.addr := rfl

@[simp] theorem setVerticalRate_addr : (setVerticalRate me mm).addr = mm.addr := by
  unfold setVerticalRate
  simp only
  split
  · rfl
  · split <;> rfl

theorem decodeESAirborneVelocity_addr (trig : Trig) :
    (decodeESAirborneVelocity trig false me mm).addr = mm.addr := by
  unfold decodeESAirborneVelocity
  simp only [checkImf_false]
  split
  · rfl
  · rw [setVerticalRate_addr]
    split
    · split <;> rfl
    · split <;> rfl

theorem decodeESAirbornePosition_addr (metype : ℕ) :
    (decodeESAirbornePosition false metype me mm).addr = mm.addr := by
  unfold decodeESAirbornePosition
  simp only [checkImf_false]
  split
  · split <;> (repeat' split) <;> rfl
  · (repeat' split) <;> rfl

/-- Where the IMF bit does not count, a format leaves the address alone. -/
theorem decodeMetype_addr (trig : Trig) (metype : ℕ) :
    (decodeMetype trig false metype me mm).addr = mm.addr := by
  unfold decodeMetype
  split
  · rfl
  split
  · exact decodeESAirborneVelocity_addr me mm trig
  split
  · rfl
  split
  · exact decodeESAirbornePosition_addr me mm metype
  simp

theorem decodeExtendedSquitter_addr (trig : Trig) (h : mm.msgtype ≠ 18) :
    (decodeExtendedSquitter trig me mm).addr = mm.addr := by
  have hcontrol : controlField me mm = (mm, some false) := if_neg h
  rw [decodeExtendedSquitter, hcontrol]
  exact decodeMetype_addr me mm trig _

end Address

/-! ## The category -/

section Category

variable (me : ℕ → ℕ) (mm : ModesMessage)

theorem checkImf_category (check : Bool) (bit : ℕ) :
    (checkImf check me bit mm).category = mm.category := by
  unfold checkImf
  split <;> rfl

theorem setVerticalRate_category : (setVerticalRate me mm).category = mm.category := by
  unfold setVerticalRate
  simp only
  split
  · rfl
  · split <;> rfl

theorem decodeESAirborneVelocity_category (trig : Trig) (check : Bool) :
    (decodeESAirborneVelocity trig check me mm).category = mm.category := by
  unfold decodeESAirborneVelocity
  simp only
  split
  · rfl
  · rw [setVerticalRate_category, ← checkImf_category me mm check 9]
    split
    · split <;> rfl
    · split <;> rfl

theorem decodeESSurfacePosition_category (check : Bool) :
    (decodeESSurfacePosition check me mm).category = mm.category := by
  unfold decodeESSurfacePosition
  exact checkImf_category me _ check 21

theorem decodeESAirbornePosition_category (check : Bool) (metype : ℕ) :
    (decodeESAirbornePosition check metype me mm).category = mm.category := by
  rw [← checkImf_category me mm check 8]
  unfold decodeESAirbornePosition
  simp only
  split
  · split <;> (repeat' split) <;> rfl
  · (repeat' split) <;> rfl

theorem controlField_category : (controlField me mm).1.category = mm.category := by
  unfold controlField
  split
  · split
    · rfl
    · rfl
    · rfl
    · split <;> rfl
    · rfl
    · rfl
    · rfl
  · rfl

/-- An extended squitter has no category but that of an identification. -/
theorem decodeExtendedSquitter_category (trig : Trig) (hnone : mm.category = none) :
    ∀ c ∈ (decodeExtendedSquitter trig me mm).category,
      ∃ metype mesub, 1 ≤ metype ∧ metype ≤ 4 ∧ mesub ≤ 7 ∧
        c = ((0x0e - metype) <<< 4) ||| mesub := by
  have hcontrol := controlField_category me mm
  rw [hnone] at hcontrol
  unfold decodeExtendedSquitter
  generalize controlField me mm = controlled at hcontrol ⊢
  obtain ⟨mm', check⟩ := controlled
  cases check with
  | none =>
    intro c hc
    rw [Option.mem_def, hcontrol] at hc
    cases hc
  | some check =>
    intro c hc
    simp only [decodeMetype] at hc
    split at hc
    · next hident =>
      have hsub : getbits me 6 8 ≤ 7 := (Nat.and_le_right : me 0 &&& 7 ≤ 7)
      exact ⟨getbits me 1 5, getbits me 6 8, hident.1, hident.2, hsub, (Option.some.inj hc).symm⟩
    · have hkept : c ∈ mm'.category := by
        split at hc
        · rwa [decodeESAirborneVelocity_category] at hc
        split at hc
        · rwa [decodeESSurfacePosition_category] at hc
        split at hc
        · rwa [decodeESAirbornePosition_category] at hc
        split at hc
        · split at hc
          · rwa [checkImf_category] at hc
          · exact hc
        split at hc
        · rwa [checkImf_category] at hc
        split at hc
        · rwa [checkImf_category] at hc
        · exact hc
      rw [Option.mem_def, hcontrol] at hkept
      cases hkept

end Category

end AdsbBridge.Readsb
