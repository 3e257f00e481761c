import Mathlib.Algebra.Order.Ring.Rat
import AdsbBridge.Lib.Choice
import AdsbBridge.Readsb.ExtendedSquitter

/-! # Comm-B replies

`decodeCommB` of `comm_b.c`. A reply does not say which register it carries: each
decoder gives the seven bytes of `MB` a score, and the best one decodes them. Of
what a decoder stores, the fields are kept that `fill_bridge_message` reads.

`decodeBDS50` compares the reported track rate with the turn rate
`68625 * tan(roll * M_PI / 180.0) / (tas * 20 * M_PI)`. That value is a parameter. -/
namespace AdsbBridge.Readsb
open AdsbBridge.Lib AdsbBridge.Frame

/-- `commb_format_t`. -/
inductive CommBFormat
  | unknown
  | ambiguous
  | emptyResponse
  | datalinkCaps
  | gicbCaps
  | aircraftIdent
  | acasRa
  | verticalIntent
  | trackTurn
  | headingSpeed
  | meteorologicalRoutine
  deriving DecidableEq, Repr

/-- What a decoder makes of a register: its score, and what it does with `store`. -/
structure Reading where
  score : ℤ
  format : CommBFormat
  store : ModesMessage → ModesMessage := id

/-- `return 0`. -/
def Reading.rejected : Reading where
  score := 0
  format := .unknown

/-- The score of a field with a status bit: one that is there has to be sensible,
one that is not has to be empty. -/
def fieldScore (valid present sensible empty : Bool) (points : ℤ) : Option ℤ :=
  if valid && present then (if sensible then some points else none)
  else if !valid && empty then some 1
  else none

/-- The score of a field that may have anything in it where its bit is clear. -/
def optionalScore (valid sensible : Bool) (points otherwise : ℤ) : Option ℤ :=
  if valid then (if sensible then some points else none) else some otherwise

/-- `score -= points`, if the data are inconsistent. -/
def penalty (inconsistent : Bool) (points : ℤ) : ℤ := if inconsistent then points else 0

/-! ## The registers -/

section

variable (mb : ℕ → ℕ)

def decodeEmptyResponse : Reading :=
  if (List.range 7).all fun i => mb i = 0 then { score := 56, format := .emptyResponse }
  else .rejected

/-- BDS1,0, datalink capabilities. -/
def decodeBDS10 : Reading :=
  if mb 0 ≠ 0x10 then .rejected
  else if getbits mb 10 14 ≠ 0 then .rejected
  else { score := 56, format := .datalinkCaps }

/-- BDS1,7, common usage GICB capability report. -/
def decodeBDS17 : Reading :=
  if getbits mb 25 56 ≠ 0 then .rejected
  else
    let score : ℤ := if getbit mb 7 then 1 else -2
    -- unlikely bits
    let score := [10, 11, 12, 13, 14, 20, 21, 22].foldl
      (fun score bit => if getbit mb bit then score - 2 else score) score
    let score :=
      if getbit mb 1 && getbit mb 2 && getbit mb 3 && getbit mb 4 && getbit mb 5 then
        if getbit mb 6 then score + 5 + 1 else score + 5
      else if !getbit mb 1 && !getbit mb 2 && !getbit mb 3 && !getbit mb 4 && !getbit mb 5 &&
          !getbit mb 6 then
        score + 1
      else score - 12
    let score :=
      if getbit mb 16 && getbit mb 24 then
        if getbit mb 9 then score + 2 + 1 else score + 2
      else if !getbit mb 16 && !getbit mb 24 && !getbit mb 9 then score + 1
      else score - 6
    { score, format := .gicbCaps }

/-- BDS2,0, aircraft identification. -/
def decodeBDS20 : Reading :=
  if mb 0 ≠ 0x20 then .rejected
  else if h : (aisCallsign mb).all isValidCallsignChar then
    { score := 8 + 8 * 6
      format := .aircraftIdent
      store := fun mm => { mm with callsign := some ⟨aisCallsign mb, aisCallsign_over mb h⟩ } }
  else .rejected

/-- BDS3,0, ACAS RA. -/
def decodeBDS30 : Reading :=
  if mb 0 ≠ 0x30 then .rejected else { score := 56, format := .acasRa }

/-- An altitude that is not a multiple of 500. -/
def isUneven (alt : ℕ) : Bool := !(alt % 500 < 16 || alt % 500 > 484)

/-- BDS4,0, selected vertical intention. -/
def decodeBDS40 : Reading :=
  let mcpValid := getbit mb 1
  let mcpRaw := getbits mb 2 13
  let fmsValid := getbit mb 14
  let fmsRaw := getbits mb 15 26
  let baroValid := getbit mb 27
  let baroRaw := getbits mb 28 39
  let modeValid := getbit mb 48
  let modeRaw := getbits mb 49 51
  let sourceValid := getbit mb 54
  let sourceRaw := getbits mb 55 56
  let mcpAlt := if mcpValid then mcpRaw * 16 else 0
  let fmsAlt := if fmsValid then fmsRaw * 16 else 0
  let baroSetting : ℚ := 800 + baroRaw * (1 / 10)
  if !mcpValid && !fmsValid && !baroValid && !modeValid && !sourceValid then .rejected
  else
    let score? : Option ℤ := do
      let mcp ← fieldScore mcpValid (mcpRaw ≠ 0) (1000 ≤ mcpAlt && mcpAlt ≤ 50000) (mcpRaw = 0) 13
      let fms ← fieldScore fmsValid (fmsRaw ≠ 0) (1000 ≤ fmsAlt && fmsAlt ≤ 50000) (fmsRaw = 0) 13
      let baro ← fieldScore baroValid (baroRaw ≠ 0) (900 ≤ baroSetting && baroSetting ≤ 1100)
        (baroRaw = 0) 13
      guard (getbits mb 40 47 = 0)
      let mode ← fieldScore modeValid true true (modeRaw = 0) 4
      guard (getbits mb 52 53 = 0)
      let source ← fieldScore sourceValid true true (sourceRaw = 0) 3
      return mcp + fms + baro + mode + source
    match score? with
    | none => .rejected
    | some score =>
      { score := score - penalty (mcpValid && fmsValid && mcpAlt ≠ fmsAlt) 4 -
          penalty (mcpValid && isUneven mcpAlt) 4 - penalty (fmsValid && isUneven fmsAlt) 4
        format := .verticalIntent }

def bds50Roll : ℚ := getbits mb 3 11 * (45 / 256) - if getbit mb 2 then 90 else 0

/-- `gs` of BDS5,0. -/
def bds50Speed : ℕ := getbits mb 25 34 * 2

def bds50Track : ℚ := getbits mb 14 23 * (90 / 512) + if getbit mb 13 then 180 else 0

def bds50TrackRate : ℚ := getbits mb 37 45 * (8 / 256) - if getbit mb 36 then 16 else 0

/-- BDS5,0, track and turn report. -/
def decodeBDS50 (turnRate : ℚ → ℕ → ℚ) : Reading :=
  let rollValid := getbit mb 1
  let trackValid := getbit mb 12
  let gsValid := getbit mb 24
  let gsRaw := getbits mb 25 34
  let trackRateValid := getbit mb 35
  let tasValid := getbit mb 46
  let tasRaw := getbits mb 47 56
  let roll := bds50Roll mb
  let trackRate := bds50TrackRate mb
  let gs := bds50Speed mb
  let tas := tasRaw * 2
  if !rollValid || !trackValid || !gsValid || !tasValid then .rejected
  else
    let score? : Option ℤ := do
      let rollScore ← fieldScore rollValid true (-40 ≤ roll && roll < 40)
        (getbits mb 3 11 = 0 && !getbit mb 2) 11
      let trackScore ← fieldScore trackValid true true (getbits mb 14 23 = 0 && !getbit mb 13) 12
      let gsScore ← fieldScore gsValid (gsRaw ≠ 0) (50 ≤ gs && gs ≤ 700) (gsRaw = 0) 11
      let rateScore ← fieldScore trackRateValid true (-10 ≤ trackRate && trackRate ≤ 10)
        (getbits mb 37 45 = 0 && !getbit mb 36) 11
      let tasScore ← fieldScore tasValid (tasRaw ≠ 0) (50 ≤ tas && tas ≤ 700) (tasRaw = 0) 11
      return rollScore + trackScore + gsScore + rateScore + tasScore
    match score? with
    | none => .rejected
    | some score =>
      -- the source compares the status bits here, not the speeds
      let delta := ((gsValid.toNat : ℤ) - tasValid.toNat).natAbs
      { score := score - penalty (gsValid && tasValid && delta > 150) 6 -
          penalty (rollValid && tasValid && tas > 0 && trackRateValid &&
            |turnRate roll tas - trackRate| > 2) 6
        format := .trackTurn
        store := fun mm => { mm with gs := some gs, heading := some (bds50Track mb) } }

def bds60Heading : ℚ := getbits mb 3 12 * (90 / 512) + if getbit mb 2 then 180 else 0

def bds60Rate (sign : Bool) (raw : ℕ) : ℤ := raw * 32 - if sign then 16384 else 0

/-- BDS6,0, heading and speed report. -/
def decodeBDS60 : Reading :=
  let headingValid := getbit mb 1
  let iasValid := getbit mb 13
  let ias := getbits mb 14 23
  let machValid := getbit mb 24
  let machRaw := getbits mb 25 34
  let mach : ℚ := machRaw * (2048 / 1000) / 512
  let baroRateValid := getbit mb 35
  let baroRateRaw := getbits mb 37 45
  let baroRate := bds60Rate (getbit mb 36) baroRateRaw
  let inertialRateValid := getbit mb 46
  let inertialRateRaw := getbits mb 48 56
  let inertialRate := bds60Rate (getbit mb 47) inertialRateRaw
  if !headingValid || !iasValid || !machValid || (!baroRateValid && !inertialRateValid) then .rejected
  else
    let score? : Option ℤ := do
      let headingScore ← fieldScore headingValid true true (getbits mb 3 12 = 0 && !getbit mb 2) 12
      let iasScore ← fieldScore iasValid (ias ≠ 0) (50 ≤ ias && ias ≤ 700) (ias = 0) 11
      let machScore ← fieldScore machValid (machRaw ≠ 0) (1 / 10 ≤ mach && mach ≤ 9 / 10)
        (machRaw = 0) 11
      let baroScore ← fieldScore baroRateValid true (-6000 ≤ baroRate && baroRate ≤ 6000)
        (baroRateRaw = 0) 11
      let inertialScore ← fieldScore inertialRateValid true
        (-6000 ≤ inertialRate && inertialRate ≤ 6000) (inertialRateRaw = 0) 11
      return headingScore + iasScore + machScore + baroScore + inertialScore
    match score? with
    | none => .rejected
    | some score =>
      { score := score -
          penalty (baroRateValid && inertialRateValid && (baroRate - inertialRate).natAbs > 2000) 12
        format := .headingSpeed
        store := fun mm =>
          { mm with
            heading := some (bds60Heading mb)
            baroRate := if baroRateValid then some baroRate else mm.baroRate
            geomRate := if inertialRateValid then some inertialRate else mm.geomRate } }

/-- BDS4,4, meteorological routine air report. -/
def decodeBDS44 : Reading :=
  let windSpeed := getbits mb 6 14
  -- an integer division: the direction is always zero
  let windDirection := getbits mb 15 23 * (180 / 256)
  let temperature : ℚ := (getbits mb 25 34 - if getbit mb 24 then 1024 else 0) * (1 / 4)
  let humidity : ℚ := getbits mb 51 56 * (100 / 64)
  let score? : Option ℤ := do
    guard (getbits mb 1 4 ≤ 6)
    let wind ← optionalScore (getbit mb 5) (windSpeed ≤ 511 && windDirection ≤ 360) 18 2
    guard (-128 ≤ temperature ∧ temperature ≤ 128)
    let pressure ← optionalScore (getbit mb 35) (getbits mb 36 46 ≤ 2048) 11 1
    let turbulence ← optionalScore (getbit mb 47) (getbits mb 48 49 ≤ 3) 2 1
    let moisture ← optionalScore (getbit mb 50) (humidity ≤ 100) 6 1
    return 4 + wind + 10 + pressure + turbulence + moisture
  match score? with
  | none => .rejected
  | some score => { score, format := .meteorologicalRoutine }

end

/-! ## The choice -/

/-- The entries of `comm_b_decoders`. -/
inductive CommBDecoder
  | emptyResponse
  | bds10
  | bds20
  | bds30
  | bds17
  | bds40
  | bds50
  | bds60
  | bds44
  deriving DecidableEq, Repr

def commBDecoders : List CommBDecoder :=
  [.emptyResponse, .bds10, .bds20, .bds30, .bds17, .bds40, .bds50, .bds60, .bds44]

section

variable (turnRate : ℚ → ℕ → ℚ) (mb : ℕ → ℕ)

/-- What an entry makes of `MB`. -/
def CommBDecoder.decode : CommBDecoder → Reading
  | .emptyResponse => decodeEmptyResponse mb
  | .bds10 => decodeBDS10 mb
  | .bds20 => decodeBDS20 mb
  | .bds30 => decodeBDS30 mb
  | .bds17 => decodeBDS17 mb
  | .bds40 => decodeBDS40 mb
  | .bds50 => decodeBDS50 mb turnRate
  | .bds60 => decodeBDS60 mb
  | .bds44 => decodeBDS44 mb

/-- The loop of `decodeCommB`. -/
def commBChoice : Choice CommBDecoder :=
  Choice.search (fun decoder => (decoder.decode turnRate mb).score) commBDecoders

def decodeCommB (dr um correctedbits : ℕ) (mm : ModesMessage) : CommBFormat × ModesMessage :=
  if dr ≠ 0 ∨ um ≠ 0 ∨ correctedbits > 0 then (.unknown, mm)
  else
    let choice := commBChoice turnRate mb
    match choice.best with
    | none => (.unknown, mm)
    | some decoder =>
      if choice.ambiguous then (.ambiguous, mm)
      else
        let register := decoder.decode turnRate mb
        (register.format, register.store mm)

end

/-- The call of `decodeModesMessage`. It reads `UM` only after it, and corrects no
message of these types. -/
def commB (turnRate : ℚ → ℕ → ℚ) (message : Message) (mm : ModesMessage) : ModesMessage :=
  (decodeCommB turnRate (me message) (getbits (msg message) 9 13) 0 0 mm).2

/-! ## What the decoders accept -/

section

variable {mb : ℕ → ℕ} {turnRate : ℚ → ℕ → ℚ}

theorem getbit_eq_testBit (bitnum : ℕ) :
    getbit mb bitnum = (mb ((bitnum - 1) / 8)).testBit (7 - (bitnum - 1) % 8) := by
  have hmod : (bitnum - 1) &&& 7 = (bitnum - 1) % 8 := Nat.and_two_pow_sub_one_eq_mod _ 3
  have hdiv : (bitnum - 1) >>> 3 = (bitnum - 1) / 8 := Nat.shiftRight_eq_div_pow _ 3
  simp only [getbit, hmod, hdiv, Nat.one_shiftLeft, Nat.and_two_pow]
  cases (mb ((bitnum - 1) / 8)).testBit (7 - (bitnum - 1) % 8) <;> simp

theorem lt_source_of_getbit (h : getbit mb 1) : 6 < getbits mb 1 4 := by
  rw [getbit_eq_testBit] at h
  have hbit : (getbits mb 1 4).testBit 3 := by
    show (((mb 0 &&& 0xff) >>> 4)).testBit 3
    rw [Nat.testBit_shiftRight, Nat.testBit_and]
    exact Bool.and_eq_true_iff.2 ⟨h, by decide⟩
  exact lt_of_lt_of_le (by decide) (Nat.ge_two_pow_of_testBit hbit)

theorem getbit_of_reserved (h : getbits mb 40 47 = 0) : getbit mb 46 = false := by
  have hlow : mb 5 >>> 1 = 0 := (Nat.or_eq_zero_iff.1 h).2
  have hbit : (mb 5 >>> 1).testBit 1 = false := by rw [hlow]; exact Nat.zero_testBit 1
  rw [Nat.testBit_shiftRight] at hbit
  rw [getbit_eq_testBit]
  exact hbit

theorem bytes_of_reserved (h : getbits mb 25 56 = 0) : mb 3 &&& 0xff = 0 ∧ mb 4 = 0 ∧ mb 5 = 0 := by
  have hall : ((mb 3 &&& 0xff) <<< 24 ||| mb 4 <<< 16 ||| mb 5 <<< 8 ||| mb 6 >>> 0) = 0 := h
  simp only [Nat.or_eq_zero_iff, Nat.shiftLeft_eq_zero_iff] at hall
  omega

theorem fieldScore_eq_some {valid present sensible empty : Bool} {points score : ℤ}
    (h : fieldScore valid present sensible empty points = some score) :
    (valid = true ∧ present = true ∧ sensible = true ∧ score = points) ∨
      (valid = false ∧ empty = true ∧ score = 1) := by
  unfold fieldScore at h
  cases valid <;> cases present <;> cases sensible <;> cases empty <;>
    simp_all [eq_comm]

theorem fieldScore_bounds {valid present sensible empty : Bool} {points score : ℤ}
    (hpoints : 1 ≤ points) (h : fieldScore valid present sensible empty points = some score) :
    1 ≤ score ∧ score ≤ points := by
  rcases fieldScore_eq_some h with ⟨-, -, -, rfl⟩ | ⟨-, -, rfl⟩ <;> omega

theorem optionalScore_le {valid sensible : Bool} {points otherwise score : ℤ}
    (hle : otherwise ≤ points) (h : optionalScore valid sensible points otherwise = some score) :
    score ≤ points := by
  unfold optionalScore at h
  cases valid <;> cases sensible <;> simp at h <;> omega

theorem guard_eq_some {p : Prop} [Decidable p] {u : Unit} (h : (guard p : Option Unit) = some u) : p := by
  by_contra hp
  rw [guard, if_neg hp] at h
  cases h

theorem decodeBDS50_cases : decodeBDS50 mb turnRate = .rejected ∨
    (getbit mb 1 = true ∧ getbit mb 46 = true ∧
      50 ≤ bds50Speed mb ∧ bds50Speed mb ≤ 700 ∧ 0 < (decodeBDS50 mb turnRate).score ∧
      (decodeBDS50 mb turnRate).store = fun mm =>
        { mm with gs := some (bds50Speed mb : ℚ), heading := some (bds50Track mb) }) := by
  by_cases hvalid : getbit mb 1 ∧ getbit mb 12 ∧ getbit mb 24 ∧ getbit mb 46
  · obtain ⟨hroll, htrack, hgs, htas⟩ := hvalid
    unfold decodeBDS50
    simp only [hroll, htrack, hgs, htas]
    rw [if_neg (by decide)]
    split
    · exact .inl rfl
    · next score hscore =>
      right
      simp only [Option.pure_def, Option.bind_eq_bind, Option.bind_eq_some_iff] at hscore
      obtain ⟨r, hr, t, ht, g, hg, d, hd, a, ha, hsum⟩ := hscore
      have hd' := fieldScore_bounds (by decide) hd
      simp [fieldScore] at hr ht hg ha
      obtain ⟨-, rfl⟩ := hr
      obtain ⟨-, ⟨hlow, hhigh⟩, rfl⟩ := hg
      obtain ⟨-, -, rfl⟩ := ha
      have hsum := Option.some.inj hsum
      refine ⟨trivial, trivial, hlow, hhigh, ?_, rfl⟩
      simp only [penalty]
      split_ifs <;> omega
  · refine .inl (if_pos ?_)
    revert hvalid
    cases getbit mb 1 <;> cases getbit mb 12 <;> cases getbit mb 24 <;> cases getbit mb 46 <;> simp

theorem decodeBDS60_cases : decodeBDS60 mb = .rejected ∨
    (getbit mb 1 = true ∧ (getbit mb 35 = true ∨ getbit mb 46 = true) ∧
      (getbit mb 35 = true → |bds60Rate (getbit mb 36) (getbits mb 37 45)| ≤ 6000) ∧
      (getbit mb 46 = true → |bds60Rate (getbit mb 47) (getbits mb 48 56)| ≤ 6000) ∧
      0 < (decodeBDS60 mb).score ∧
      (decodeBDS60 mb).store = fun mm =>
        { mm with
          heading := some (bds60Heading mb)
          baroRate := if getbit mb 35 then some (bds60Rate (getbit mb 36) (getbits mb 37 45))
            else mm.baroRate
          geomRate := if getbit mb 46 then some (bds60Rate (getbit mb 47) (getbits mb 48 56))
            else mm.geomRate }) := by
  by_cases hvalid : getbit mb 1 ∧ getbit mb 13 ∧ getbit mb 24 ∧ (getbit mb 35 ∨ getbit mb 46)
  · obtain ⟨hheading, hias, hmach, hrates⟩ := hvalid
    unfold decodeBDS60
    simp only [hheading, hias, hmach]
    rw [if_neg (by simpa using fun h => hrates.resolve_left (by simp [h]))]
    split
    · exact .inl rfl
    · next score hscore =>
      right
      simp only [Option.pure_def, Option.bind_eq_bind, Option.bind_eq_some_iff] at hscore
      obtain ⟨h, hh, i, hi, m, hm, b, hb, v, hv, hsum⟩ := hscore
      have hb' := fieldScore_eq_some hb
      have hv' := fieldScore_eq_some hv
      simp [fieldScore] at hh hi hm
      obtain ⟨-, -, rfl⟩ := hi
      obtain ⟨-, -, rfl⟩ := hm
      have hsum := Option.some.inj hsum
      refine ⟨trivial, hrates, fun h35 => ?_, fun h46 => ?_, ?_, rfl⟩
      · simp [h35] at hb'
        exact abs_le.2 hb'.1
      · simp [h46] at hv'
        exact abs_le.2 hv'.1
      · have hb₁ := fieldScore_bounds (by decide) hb
        have hv₁ := fieldScore_bounds (by decide) hv
        simp only [penalty]
        split_ifs <;> omega
  · refine .inl (if_pos ?_)
    revert hvalid
    cases getbit mb 1 <;> cases getbit mb 13 <;> cases getbit mb 24 <;> cases getbit mb 35 <;>
      cases getbit mb 46 <;> simp

theorem decodeBDS40_cases : decodeBDS40 mb = .rejected ∨
    (getbits mb 40 47 = 0 ∧ (decodeBDS40 mb).score ≤ 46) := by
  unfold decodeBDS40
  simp only
  split
  · exact .inl rfl
  · split
    · exact .inl rfl
    · next score hscore =>
      right
      simp only [Option.pure_def, Option.bind_eq_bind, Option.bind_eq_some_iff] at hscore
      obtain ⟨m, hm, f, hf, b, hb, _, hreserved, d, hd, _, -, s, hs, hsum⟩ := hscore
      have hm := fieldScore_bounds (by decide) hm
      have hf := fieldScore_bounds (by decide) hf
      have hb := fieldScore_bounds (by decide) hb
      have hd := fieldScore_bounds (by decide) hd
      have hs := fieldScore_bounds (by decide) hs
      have hsum := Option.some.inj hsum
      refine ⟨guard_eq_some hreserved, ?_⟩
      simp only [penalty]
      split_ifs <;> omega

theorem decodeBDS17_cases : decodeBDS17 mb = .rejected ∨
    (getbits mb 25 56 = 0 ∧ (decodeBDS17 mb).score ≤ 10) := by
  have hunlikely : ∀ (bits : List ℕ) (score : ℤ),
      bits.foldl (fun score bit => if getbit mb bit then score - 2 else score) score ≤ score := by
    intro bits
    induction bits with
    | nil => exact fun score => le_refl score
    | cons bit bits ih =>
      intro score
      rw [List.foldl_cons]
      refine (ih _).trans ?_
      split <;> omega
  unfold decodeBDS17
  simp only
  split
  · exact .inl rfl
  · next hreserved =>
    refine .inr ⟨not_not.1 hreserved, ?_⟩
    have hscore := hunlikely [10, 11, 12, 13, 14, 20, 21, 22] (if getbit mb 7 then 1 else -2)
    have hfirst : (if getbit mb 7 then 1 else -2 : ℤ) ≤ 1 := by split <;> omega
    simp only
    generalize List.foldl _ _ [10, 11, 12, 13, 14, 20, 21, 22] = score at hscore ⊢
    split_ifs <;> omega

theorem decodeBDS44_cases : decodeBDS44 mb = .rejected ∨
    (getbits mb 1 4 ≤ 6 ∧ (decodeBDS44 mb).score ≤ 51) := by
  unfold decodeBDS44
  simp only
  split
  · exact .inl rfl
  · next score hscore =>
    right
    simp only [Option.pure_def, Option.bind_eq_bind, Option.bind_eq_some_iff] at hscore
    obtain ⟨_, hsource, w, hw, _, -, p, hp, t, ht, m, hm, hsum⟩ := hscore
    have hsum := Option.some.inj hsum
    refine ⟨guard_eq_some hsource, ?_⟩
    have hw := optionalScore_le (by decide) hw
    have hp := optionalScore_le (by decide) hp
    have ht := optionalScore_le (by decide) ht
    have hm := optionalScore_le (by decide) hm
    show score ≤ 51
    omega


/-! ## Which registers exclude each other -/

theorem ne_of_getbit_one {x : ℕ} (h : getbit mb 1 = true) (hx : x.testBit 7 = false) : mb 0 ≠ x := by
  rintro rfl
  rw [getbit_eq_testBit] at h
  exact Bool.false_ne_true (hx.symm.trans h)

/-- A register with a number in front, an empty one and a weather report have the
first bit clear. -/
theorem score_of_getbit_one (h : getbit mb 1 = true) {decoder : CommBDecoder}
    (hdecoder : decoder ∈ [CommBDecoder.emptyResponse, .bds10, .bds20, .bds30, .bds44]) :
    (decoder.decode turnRate mb).score = 0 := by
  simp only [List.mem_cons, List.not_mem_nil, or_false] at hdecoder
  rcases hdecoder with rfl | rfl | rfl | rfl | rfl
  · have hfirst : mb 0 ≠ 0 := ne_of_getbit_one h rfl
    have hsome : ((List.range 7).all fun i => mb i = 0) = false := by
      simp [List.range_succ, hfirst]
    rw [CommBDecoder.decode, decodeEmptyResponse, hsome]
    rfl
  · rw [CommBDecoder.decode, decodeBDS10, if_pos (ne_of_getbit_one h rfl)]
    rfl
  · rw [CommBDecoder.decode, decodeBDS20, if_pos (ne_of_getbit_one h rfl)]
    rfl
  · rw [CommBDecoder.decode, decodeBDS30, if_pos (ne_of_getbit_one h rfl)]
    rfl
  · rcases @decodeBDS44_cases mb with hnone | ⟨hsource, -⟩
    · rw [CommBDecoder.decode, hnone]
      rfl
    · exact absurd (lt_source_of_getbit h) (by omega)

theorem score_bds17 (h : getbit mb 35 = true ∨ getbit mb 46 = true) : (decodeBDS17 mb).score = 0 := by
  rcases @decodeBDS17_cases mb with hnone | ⟨hreserved, -⟩
  · rw [hnone]
    rfl
  · obtain ⟨-, h₄, h₅⟩ := bytes_of_reserved hreserved
    simp only [getbit_eq_testBit] at h
    rw [show mb ((35 - 1) / 8) = 0 from h₄, show mb ((46 - 1) / 8) = 0 from h₅] at h
    simp at h

theorem score_bds17_le : (decodeBDS17 mb).score ≤ 10 := by
  rcases @decodeBDS17_cases mb with hnone | ⟨-, hle⟩
  · rw [hnone]
    decide
  · exact hle

theorem score_bds40_le : (decodeBDS40 mb).score ≤ 46 := by
  rcases @decodeBDS40_cases mb with hnone | ⟨-, hle⟩
  · rw [hnone]
    decide
  · exact hle

theorem score_bds44_le : (decodeBDS44 mb).score ≤ 51 := by
  rcases @decodeBDS44_cases mb with hnone | ⟨-, hle⟩
  · rw [hnone]
    decide
  · exact hle

theorem score_bds60_nonneg : 0 ≤ (decodeBDS60 mb).score := by
  rcases @decodeBDS60_cases mb with hnone | ⟨-, -, -, -, hpos, -⟩
  · rw [hnone]
    rfl
  · exact le_of_lt hpos

theorem score_bds50_nonneg : 0 ≤ (decodeBDS50 mb turnRate).score := by
  rcases @decodeBDS50_cases mb turnRate with hnone | ⟨-, -, -, -, hpos, -⟩
  · rw [hnone]
    rfl
  · exact le_of_lt hpos

theorem nodup_commBDecoders : commBDecoders.Nodup := by decide

theorem mem_commBDecoders (decoder : CommBDecoder) : decoder ∈ commBDecoders := by
  cases decoder <;> decide

theorem chosen_iff {decoder : CommBDecoder} : (commBChoice turnRate mb).chosen = some decoder ↔
    0 < (decoder.decode turnRate mb).score ∧
      ∀ d, d ≠ decoder → (d.decode turnRate mb).score < (decoder.decode turnRate mb).score := by
  rw [commBChoice, Choice.chosen_eq_some_iff nodup_commBDecoders]
  simp only [mem_commBDecoders, true_and, forall_const]

/-- **A track and turn report is taken for one** unless it scores as a heading and
speed report, too. -/
theorem chosen_bds50_iff : (commBChoice turnRate mb).chosen = some .bds50 ↔
    (decodeBDS60 mb).score < (decodeBDS50 mb turnRate).score := by
  rw [chosen_iff]
  refine ⟨fun ⟨_, hall⟩ => hall .bds60 (by decide), fun hmore => ?_⟩
  have hpos : 0 < (decodeBDS50 mb turnRate).score := lt_of_le_of_lt score_bds60_nonneg hmore
  rcases @decodeBDS50_cases mb turnRate with hnone | ⟨hfirst, h46, hlow, -, -, -⟩
  · rw [hnone] at hpos
    exact absurd hpos (lt_irrefl 0)
  · have hzero := @score_of_getbit_one mb turnRate hfirst
    refine ⟨hpos, fun d hd => ?_⟩
    cases d with
    | emptyResponse => exact (hzero (by decide)).trans_lt hpos
    | bds10 => exact (hzero (by decide)).trans_lt hpos
    | bds20 => exact (hzero (by decide)).trans_lt hpos
    | bds30 => exact (hzero (by decide)).trans_lt hpos
    | bds44 => exact (hzero (by decide)).trans_lt hpos
    | bds17 => exact (score_bds17 (.inr h46)).trans_lt hpos
    | bds40 =>
      rcases @decodeBDS40_cases mb with hnone | ⟨hreserved, -⟩
      · exact (congrArg Reading.score hnone).trans_lt hpos
      · rw [getbit_of_reserved hreserved] at h46
        cases h46
    | bds50 => exact absurd rfl hd
    | bds60 => exact hmore

theorem chosen_bds60_iff : (commBChoice turnRate mb).chosen = some .bds60 ↔
    (decodeBDS50 mb turnRate).score < (decodeBDS60 mb).score ∧
      (decodeBDS40 mb).score < (decodeBDS60 mb).score := by
  rw [chosen_iff]
  refine ⟨fun ⟨_, hall⟩ => ⟨hall .bds50 (by decide), hall .bds40 (by decide)⟩, fun ⟨hmore, hmore'⟩ => ?_⟩
  have hpos : 0 < (decodeBDS60 mb).score := lt_of_le_of_lt score_bds50_nonneg hmore
  rcases @decodeBDS60_cases mb with hnone | ⟨hfirst, hrates, -, -, -, -⟩
  · rw [hnone] at hpos
    exact absurd hpos (lt_irrefl 0)
  · have hzero := @score_of_getbit_one mb turnRate hfirst
    refine ⟨hpos, fun d hd => ?_⟩
    cases d with
    | emptyResponse => exact (hzero (by decide)).trans_lt hpos
    | bds10 => exact (hzero (by decide)).trans_lt hpos
    | bds20 => exact (hzero (by decide)).trans_lt hpos
    | bds30 => exact (hzero (by decide)).trans_lt hpos
    | bds44 => exact (hzero (by decide)).trans_lt hpos
    | bds17 => exact (score_bds17 hrates).trans_lt hpos
    | bds40 => exact hmore'
    | bds50 => exact hmore
    | bds60 => exact absurd rfl hd

/-- **An identification is always taken for one.** -/
theorem chosen_bds20_iff : (commBChoice turnRate mb).chosen = some .bds20 ↔
    mb 0 = 0x20 ∧ (aisCallsign mb).all isValidCallsignChar := by
  rw [chosen_iff]
  constructor
  · rintro ⟨hpos, -⟩
    by_contra hnot
    have hnone : decodeBDS20 mb = .rejected := by
      rw [decodeBDS20]
      split
      · rfl
      · next hfirst => exact dif_neg fun hvalid => hnot ⟨not_not.1 hfirst, hvalid⟩
    rw [CommBDecoder.decode, hnone] at hpos
    exact absurd hpos (lt_irrefl 0)
  · rintro ⟨hfirst, hvalid⟩
    have hscore : (decodeBDS20 mb).score = 56 := by
      rw [decodeBDS20, if_neg (not_not.2 hfirst), dif_pos hvalid]
      rfl
    have hclear : getbit mb 1 ≠ true := fun h => ne_of_getbit_one h rfl hfirst
    refine ⟨hscore ▸ by decide, fun d hd => ?_⟩
    show (d.decode turnRate mb).score < (decodeBDS20 mb).score
    rw [hscore]
    cases d with
    | emptyResponse =>
      have hsome : ((List.range 7).all fun i => mb i = 0) = false := by
        simp [List.range_succ, hfirst]
      rw [CommBDecoder.decode, decodeEmptyResponse, hsome]
      decide
    | bds10 =>
      rw [CommBDecoder.decode, decodeBDS10, if_pos (by omega)]
      decide
    | bds20 => exact absurd rfl hd
    | bds30 =>
      rw [CommBDecoder.decode, decodeBDS30, if_pos (by omega)]
      decide
    | bds17 => exact lt_of_le_of_lt score_bds17_le (by decide)
    | bds40 => exact lt_of_le_of_lt score_bds40_le (by decide)
    | bds44 => exact lt_of_le_of_lt score_bds44_le (by decide)
    | bds50 =>
      rcases @decodeBDS50_cases mb turnRate with hnone | ⟨hset, -⟩
      · exact (congrArg Reading.score hnone).trans_lt (by decide)
      · exact absurd hset hclear
    | bds60 =>
      rcases @decodeBDS60_cases mb with hnone | ⟨hset, -⟩
      · exact (congrArg Reading.score hnone).trans_lt (by decide)
      · exact absurd hset hclear

end

end AdsbBridge.Readsb
