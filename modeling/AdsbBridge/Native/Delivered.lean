import AdsbBridge.Native.Rate

/-! # What a message delivers and what its line says

`handle_readsb_decoded_message` makes up lines while it is still changing the
state. A line of type 3 or 4 comes after everything that such a line shows; the
line of a callsign comes before the altitude. -/
namespace AdsbBridge.Native
open AdsbBridge.Lib AdsbBridge.Fields AdsbBridge.Readsb AdsbBridge.Store

structure Delivered (decoded : ReadsbBridgeMessage) (state : AircraftState) : Prop where
  callsign : ∀ callsign, decoded.callsign = some callsign →
    state.callsign = dropTrailingBlanks callsign.text
  category : ∀ category, decoded.category = some category → state.category = some category
  altitudeFt : ∀ altitude, decoded.altitudeFt = some altitude → state.altitudeFt = some altitude
  velocity : ∀ v, decoded.velocity = some v → state.speedKt = some v.1 ∧ state.trackDeg = some v.2
  verticalRate : ∀ r, decoded.verticalRate = some r →
    state.verticalRate = some ⟨r.1, r.2, state.lastSeenMs⟩

/-- The message's report completes a position. -/
def Completes (decoded : ReadsbBridgeMessage) (state : AircraftState) : Prop :=
  ∃ cpr, decoded.cpr = some cpr ∧
    (decodeReadsbGlobalPosition (state.storeReport cpr.odd cpr.lat.toInt cpr.lon.toInt)).isSome

/-- A line comes of the callsign alone, and of a message with a new altitude. -/
structure HidesAltitude (decoded : ReadsbBridgeMessage) (state : AircraftState) : Prop where
  callsign : ∃ callsign, decoded.callsign = some callsign ∧ dropTrailingBlanks callsign.text ≠ []
  altitudeFt : ∃ altitude, decoded.altitudeFt = some altitude ∧ state.altitudeFt ≠ some altitude
  velocity : decoded.velocity = none
  verticalRate : decoded.verticalRate = none
  cpr : ¬ Completes decoded state

section Lines

variable {nowMs : ℤ} {hex : ℕ} {decoded : ReadsbBridgeMessage} {state : AircraftState} {line : Text}

/-- The state before the report, field by field. -/
theorem beforeCpr_fst (nowMs : ℤ) (decoded : ReadsbBridgeMessage) (state : AircraftState) :
    (beforeCpr nowMs decoded state).1 =
      { state with
        callsign := decoded.callsign.elim state.callsign fun c => dropTrailingBlanks c.text
        category := decoded.category.or state.category
        altitudeFt := decoded.altitudeFt.or state.altitudeFt
        speedKt := (decoded.velocity.map Prod.fst).or state.speedKt
        trackDeg := (decoded.velocity.map Prod.snd).or state.trackDeg
        verticalRate := rateAfter decoded state } := by
  simp only [beforeCpr, takeCategory, takeCallsign, takeAltitude, takeVelocity, takeVerticalRate,
    rateAfter]
  rcases decoded.category with - | category <;> rcases decoded.callsign with - | callsign <;>
    rcases decoded.altitudeFt with - | altitude <;> rcases decoded.velocity with - | v <;>
      rcases decoded.verticalRate with - | r <;> rfl

theorem beforeCpr_delivered (nowMs : ℤ) (decoded : ReadsbBridgeMessage) (state : AircraftState) :
    Delivered decoded (beforeCpr nowMs decoded state).1 := by
  rw [beforeCpr_fst]
  refine ⟨fun c hc => ?_, fun c hc => ?_, fun a ha => ?_, fun v hv => ?_, fun r hr => ?_⟩
  · simp only [hc, Option.elim_some]
  · simp only [hc, Option.some_or]
  · simp only [ha, Option.some_or]
  · simp only [hv, Option.map_some, Option.some_or, and_self]
  · simp only [rateAfter, hr]

/-- The state shows the same in every line, and holds the same. -/
structure SameShown (s s' : AircraftState) : Prop where
  line : ∀ nowMs hex n pos, toSbsLine nowMs hex s' n pos = toSbsLine nowMs hex s n pos
  delivered : ∀ decoded, Delivered decoded s → Delivered decoded s'

theorem storeReport_sameShown (state : AircraftState) (odd : Bool) (lat lon : ℤ) :
    SameShown state (state.storeReport odd lat lon) := by
  unfold AircraftState.storeReport
  split
  · exact ⟨fun _ _ _ _ => rfl, fun _ h => ⟨h.1, h.2, h.3, h.4, h.5⟩⟩
  · exact ⟨fun _ _ _ _ => rfl, fun _ h => ⟨h.1, h.2, h.3, h.4, h.5⟩⟩

/-- What `if (decoded.has_cpr)` does: the line is that of the position, or it
stays, and so does all that a line shows. -/
theorem takeCpr_cases (nowMs : ℤ) (decoded : ReadsbBridgeMessage) (state : AircraftState)
    (line : Text) :
    (Completes decoded state ∧
      (takeCpr nowMs decoded state line).2 =
        toSbsLine nowMs decoded.addr.toNat (takeCpr nowMs decoded state line).1 3 true ∧
      (Delivered decoded state → Delivered decoded (takeCpr nowMs decoded state line).1)) ∨
    (¬ Completes decoded state ∧ (takeCpr nowMs decoded state line).2 = line ∧
      SameShown state (takeCpr nowMs decoded state line).1) := by
  unfold takeCpr Completes
  cases hcpr : decoded.cpr with
  | none =>
    refine .inr ⟨?_, rfl, fun _ _ _ _ => rfl, fun _ h => h⟩
    intro hcompletes
    obtain ⟨cpr, hsome, -⟩ := hcompletes
    cases hsome
  | some cpr =>
    have hstored := storeReport_sameShown state cpr.odd cpr.lat.toInt cpr.lon.toInt
    cases hd : decodeReadsbGlobalPosition
        (state.storeReport cpr.odd cpr.lat.toInt cpr.lon.toInt) with
    | none =>
      simp only [hd]
      refine .inr ⟨?_, trivial, hstored⟩
      intro hcompletes
      obtain ⟨cpr', hsome, hcomplete⟩ := hcompletes
      cases hsome
      rw [hd] at hcomplete
      cases hcomplete
    | some placed =>
      obtain ⟨p, -, rfl⟩ := Option.map_eq_some_iff.1 hd
      simp only [hd]
      refine .inl ⟨⟨cpr, rfl, by rw [hd]; rfl⟩, trivial, fun h => ?_⟩
      obtain ⟨h1, h2, h3, h4, h5⟩ := hstored.delivered decoded h
      exact ⟨h1, h2, h3, h4, h5⟩

/-- The store reads the state's altitude in a line. -/
theorem parse_altitudeFt [UpperCase] (hp : state.Plain) {n : ℕ} {pos : Bool}
    (h : toSbsLine nowMs hex state n pos ≠ []) :
    (SbsUpdate.parse (toSbsLine nowMs hex state n pos)).bind SbsUpdate.altitudeFt =
      state.altitudeFt := by
  rw [ne_eq, toSbsLine_eq_nil_iff, Bool.not_eq_true] at h
  rw [parse_toSbsLine hp h]
  exact SbsUpdate.parseInt_intField state.altitudeFt

/-- The line is that of the state; the position goes with type 3. -/
def LineOfState (nowMs : ℤ) (hex : ℕ) (state : AircraftState) (line : Text) : Prop :=
  ∃ n : ℕ, line = toSbsLine nowMs hex state n (n == 3)

theorem completes_beforeCpr :
    Completes decoded (beforeCpr nowMs decoded state).1 ↔ Completes decoded state := by
  simp only [Completes, decodeReadsb_isSome_congr (beforeCpr_sameReports nowMs decoded state)]

/-- A message that completes a position puts out the line of its state; any
other puts out the line it had, and changes nothing that a line shows. -/
theorem applyDecoded_cases (nowMs : ℤ) (decoded : ReadsbBridgeMessage) (state : AircraftState) :
    (Completes decoded state ∧ LineOfState nowMs decoded.addr.toNat
      (applyDecoded nowMs decoded state).1 (applyDecoded nowMs decoded state).2) ∨
    (¬ Completes decoded state ∧
      (applyDecoded nowMs decoded state).2 = lineBeforeCpr nowMs decoded state ∧
      SameShown (beforeCpr nowMs decoded state).1 (applyDecoded nowMs decoded state).1) := by
  rw [applyDecoded_eq]
  rcases takeCpr_cases nowMs decoded (beforeCpr nowMs decoded state).1
      (lineBeforeCpr nowMs decoded state) with ⟨hc, hline, -⟩ | ⟨hc, hline, hsame⟩
  · exact .inl ⟨completes_beforeCpr.1 hc, 3, hline⟩
  · exact .inr ⟨fun h => hc (completes_beforeCpr.2 h), hline, hsame⟩

theorem applyDecoded_delivered (nowMs : ℤ) (decoded : ReadsbBridgeMessage)
    (state : AircraftState) : Delivered decoded (applyDecoded nowMs decoded state).1 := by
  have hbefore := beforeCpr_delivered nowMs decoded state
  rw [applyDecoded_eq]
  rcases takeCpr_cases nowMs decoded (beforeCpr nowMs decoded state).1
      (lineBeforeCpr nowMs decoded state) with ⟨-, -, hkeeps⟩ | ⟨-, -, hsame⟩
  · exact hkeeps hbefore
  · exact hsame.delivered decoded hbefore

/-- The line of the callsign, in a message that brings no other: it is that of
the state before the report but for the altitude. -/
theorem lineBeforeCpr_callsign (hv : decoded.velocity = none) (hr : decoded.verticalRate = none) :
    lineBeforeCpr nowMs decoded state = decoded.callsign.elim [] fun _ =>
      toSbsLine nowMs decoded.addr.toNat
        { (beforeCpr nowMs decoded state).1 with altitudeFt := state.altitudeFt } 1 false := by
  rw [lineBeforeCpr, hv, hr, beforeCpr_fst]
  simp only [beforeCpr, takeCategory, takeCallsign, rateAfter, hv, hr]
  rcases decoded.category with - | category <;> rcases decoded.callsign with - | callsign <;> rfl

/-- Any other line is that of the state before the report. -/
theorem lineBeforeCpr_movement (h : decoded.velocity.isSome || decoded.verticalRate.isSome) :
    lineBeforeCpr nowMs decoded state =
      toSbsLine nowMs decoded.addr.toNat (beforeCpr nowMs decoded state).1 4 false := by
  rw [lineBeforeCpr, if_pos h]

/-- The line of a message that hides nothing is that of the state. -/
theorem applyDecoded_lineOfState (h : ¬ HidesAltitude decoded state)
    (hline : (applyDecoded nowMs decoded state).2 ≠ []) :
    LineOfState nowMs decoded.addr.toNat (applyDecoded nowMs decoded state).1
      (applyDecoded nowMs decoded state).2 := by
  rcases applyDecoded_cases nowMs decoded state with ⟨-, hposition⟩ | ⟨hc, hkept, hsame⟩
  · exact hposition
  rw [hkept] at hline ⊢
  by_cases hother : decoded.velocity.isSome || decoded.verticalRate.isSome
  · refine ⟨4, ?_⟩
    rw [lineBeforeCpr_movement hother, hsame.line]
    rfl
  · rw [Bool.or_eq_true, not_or, Option.not_isSome_iff_eq_none, Option.not_isSome_iff_eq_none] at hother
    rw [lineBeforeCpr_callsign hother.1 hother.2] at hline ⊢
    cases hcallsign : decoded.callsign with
    | none =>
      rw [hcallsign] at hline
      exact absurd rfl hline
    | some callsign =>
      rw [hcallsign, Option.elim_some] at hline
      have hdelivered := beforeCpr_delivered nowMs decoded state
      have hshown : dropTrailingBlanks callsign.text ≠ [] := by
        intro hblank
        rw [← hdelivered.callsign callsign hcallsign] at hblank
        refine hline (toSbsLine_eq_nil_iff.2 ?_)
        rw [suppressed, hblank]
        rfl
      have haltitude : state.altitudeFt = (beforeCpr nowMs decoded state).1.altitudeFt := by
        by_contra hne
        refine h ⟨⟨callsign, hcallsign, hshown⟩, ?_, hother.1, hother.2, hc⟩
        cases haltitude : decoded.altitudeFt with
        | none =>
          rw [beforeCpr_fst, haltitude] at hne
          exact absurd rfl hne
        | some altitude =>
          rw [hdelivered.altitudeFt altitude haltitude] at hne
          exact ⟨altitude, rfl, hne⟩
      refine ⟨1, ?_⟩
      rw [hsame.line, Option.elim_some, haltitude]
      rfl

/-- The line of a message that hides its altitude is not that of the state. -/
theorem HidesAltitude.not_lineOfState (h : HidesAltitude decoded state) :
    (applyDecoded nowMs decoded state).2 ≠ [] ∧
      ¬ LineOfState nowMs decoded.addr.toNat (applyDecoded nowMs decoded state).1
        (applyDecoded nowMs decoded state).2 := by
  obtain ⟨callsign, hcallsign, hshown⟩ := h.callsign
  obtain ⟨altitude, haltitude, hnew⟩ := h.altitudeFt
  have hdelivered := applyDecoded_delivered nowMs decoded state
  rcases applyDecoded_cases nowMs decoded state with ⟨hc, -⟩ | ⟨-, hkept, -⟩
  · exact absurd hc h.cpr
  have hline := hkept.trans (lineBeforeCpr_callsign h.velocity h.verticalRate)
  rw [hcallsign, Option.elim_some] at hline
  have hplain : Text.Over isCallsignChar (dropTrailingBlanks callsign.text) :=
    dropTrailingBlanks_over callsign.plain
  have hbefore := (beforeCpr_delivered nowMs decoded state).callsign callsign hcallsign
  have hsome : (applyDecoded nowMs decoded state).2 ≠ [] := by
    rw [hline, ne_eq, toSbsLine_eq_nil_iff, suppressed, hbefore]
    simp [hshown]
  refine ⟨hsome, ?_⟩
  intro hspec
  obtain ⟨n, hn⟩ := hspec
  have hold : (SbsUpdate.parse (applyDecoded nowMs decoded state).2).bind SbsUpdate.altitudeFt =
      state.altitudeFt := by
    rw [hline] at hsome ⊢
    refine parse_altitudeFt ?_ hsome
    rwa [AircraftState.Plain, hbefore]
  have hfinal : (SbsUpdate.parse (applyDecoded nowMs decoded state).2).bind SbsUpdate.altitudeFt =
      (applyDecoded nowMs decoded state).1.altitudeFt := by
    rw [hn] at hsome
    refine Eq.trans (by rw [← hn]) (parse_altitudeFt ?_ hsome)
    rwa [AircraftState.Plain, hdelivered.callsign callsign hcallsign]
  exact hnew (hold.symm.trans (hfinal.trans (hdelivered.altitudeFt altitude haltitude)))

end Lines

/-! ## The handler -/

/-- The state the handler finds, or makes, with its `last_seen_ms` set. -/
def foundState (clock : Clock) (decoded : ReadsbBridgeMessage) (decoder : Table) : AircraftState :=
  { ((pruneAircraftStates clock.handled decoder).aircraft.get? (aircraftKey decoded)).getD {} with
    lastSeenMs := clock.handled }

/-- The state that the handler leaves has all that the message delivers, and the
line, if there is one, is the line of that state. -/
def SaysAll (clock : Clock) (decoded : ReadsbBridgeMessage) (decoder : Table) : Prop :=
  ∃ after, (handleReadsbDecodedMessage clock decoded decoder).1.aircraft.get?
      (aircraftKey decoded) = some after ∧
    Delivered decoded after ∧
      ((handleReadsbDecodedMessage clock decoded decoder).2 ≠ [] →
        LineOfState clock.printed decoded.addr.toNat after
          (handleReadsbDecodedMessage clock decoded decoder).2)

/-- What `SaysAll` says is about the body of the handler alone. -/
theorem saysAll_iff_applyDecoded {clock : Clock} {decoded : ReadsbBridgeMessage} {decoder : Table}
    (haddr : decoded.addr ≠ 0) :
    SaysAll clock decoded decoder ↔
      ((applyDecoded clock.printed decoded (foundState clock decoded decoder)).2 ≠ [] →
        LineOfState clock.printed decoded.addr.toNat
          (applyDecoded clock.printed decoded (foundState clock decoded decoder)).1
          (applyDecoded clock.printed decoded (foundState clock decoded decoder)).2) := by
  have hget : (handleReadsbDecodedMessage clock decoded decoder).1.aircraft.get?
      (aircraftKey decoded) =
        some (applyDecoded clock.printed decoded (foundState clock decoded decoder)).1 := by
    rw [handleReadsbDecodedMessage, if_neg haddr, visitAircraft, LinkedMap.get?_put_self]
    rfl
  have hline : (handleReadsbDecodedMessage clock decoded decoder).2 =
      (applyDecoded clock.printed decoded (foundState clock decoded decoder)).2 := by
    rw [handleReadsbDecodedMessage, if_neg haddr]
    rfl
  rw [SaysAll, hget, hline]
  refine ⟨?_, fun h => ⟨_, rfl, applyDecoded_delivered clock.printed decoded _, h⟩⟩
  intro hall
  obtain ⟨after, hafter, -, hsays⟩ := hall
  cases hafter
  exact hsays

/-- **A message's line says all that the message delivers exactly if it does not
hide a new altitude behind a callsign.** -/
theorem saysAll_iff (clock : Clock) (decoded : ReadsbBridgeMessage) (decoder : Table)
    (haddr : decoded.addr ≠ 0) :
    SaysAll clock decoded decoder ↔ ¬ HidesAltitude decoded (foundState clock decoded decoder) := by
  rw [saysAll_iff_applyDecoded haddr]
  constructor
  · intro h hides
    obtain ⟨hsome, hnot⟩ := hides.not_lineOfState
    exact hnot (h hsome)
  · exact fun h => applyDecoded_lineOfState h

theorem over_klm1023 : Text.Over isCallsignChar "KLM1023 ".toList := by
  have hall : ("KLM1023 ".toList.all isCallsignChar) = true := by decide
  exact fun c hc => List.all_eq_true.1 hall c hc

def klm1023 : Callsign := ⟨"KLM1023 ".toList, over_klm1023⟩

/-- A Comm-B reply with a callsign and the altitude of its header. -/
def identityReply : ReadsbBridgeMessage :=
  { addr := 0x4840d6, callsign := some klm1023, altitudeFt := some 38000 }

theorem identityReply_hides :
    HidesAltitude identityReply (foundState ⟨1000000, 1000000⟩ identityReply {}) := by
  refine ⟨⟨klm1023, rfl, by decide⟩, ⟨38000, rfl, by decide⟩, rfl, rfl, ?_⟩
  intro h
  obtain ⟨cpr, hcpr, -⟩ := h
  cases hcpr

/-- The line of a new aircraft's reply has the callsign and leaves the altitude
out. -/
theorem identityReply_not_saysAll : ¬ SaysAll ⟨1000000, 1000000⟩ identityReply {} := by
  rw [saysAll_iff_applyDecoded (by decide)]
  intro h
  obtain ⟨hsome, hnot⟩ := identityReply_hides.not_lineOfState
  exact hnot (h hsome)

/-- With a velocity in the reply the line has both. -/
theorem movingReply_saysAll :
    SaysAll ⟨1000000, 1000000⟩ { identityReply with velocity := some (400, 90) } {} := by
  refine (saysAll_iff _ _ _ (by decide)).2 fun hides => ?_
  cases hides.velocity

end AdsbBridge.Native
