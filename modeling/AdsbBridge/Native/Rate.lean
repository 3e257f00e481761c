import AdsbBridge.Native.Line

/-! # The vertical rate of an aircraft

What `handle_readsb_decoded_message` does to the rate a state holds, and which
rate the line shows that comes of it: the message's own, or the one there was. -/
namespace AdsbBridge.Native
open AdsbBridge.Lib AdsbBridge.Fields AdsbBridge.Readsb

/-! ## The steps of the handler -/

/-- A step of the handler that is not about the vertical rate. -/
structure KeepsRate (state state' : AircraftState) : Prop where
  rate : state'.verticalRate = state.verticalRate
  lastSeen : state'.lastSeenMs = state.lastSeenMs
  plain : state.Plain → state'.Plain

theorem KeepsRate.trans {s s' s'' : AircraftState} (h : KeepsRate s s') (h' : KeepsRate s' s'') :
    KeepsRate s s'' :=
  ⟨h'.rate.trans h.rate, h'.lastSeen.trans h.lastSeen, fun hp => h'.plain (h.plain hp)⟩

section Steps

variable (nowMs : ℤ) (decoded : ReadsbBridgeMessage) (state : AircraftState)

theorem takeCategory_keepsRate : KeepsRate state (takeCategory decoded state) := by
  unfold takeCategory
  split <;> exact ⟨rfl, rfl, id⟩

theorem takeCallsign_keepsRate : KeepsRate state (takeCallsign nowMs decoded state).1 := by
  unfold takeCallsign
  split
  · next callsign _ => exact ⟨rfl, rfl, fun _ => dropTrailingBlanks_over callsign.plain⟩
  · exact ⟨rfl, rfl, id⟩

theorem takeAltitude_keepsRate : KeepsRate state (takeAltitude decoded state) := by
  unfold takeAltitude
  split <;> exact ⟨rfl, rfl, id⟩

theorem takeVelocity_keepsRate : KeepsRate state (takeVelocity decoded state) := by
  unfold takeVelocity
  split <;> exact ⟨rfl, rfl, id⟩

theorem storeReport_keepsRate (odd : Bool) (lat lon : ℤ) :
    KeepsRate state (state.storeReport odd lat lon) := by
  unfold AircraftState.storeReport
  split <;> exact ⟨rfl, rfl, id⟩

theorem decodeReadsbGlobalPosition_keepsRate {state' : AircraftState}
    (h : decodeReadsbGlobalPosition state = some state') : KeepsRate state state' := by
  obtain ⟨p, -, rfl⟩ := Option.map_eq_some_iff.1 h
  exact ⟨rfl, rfl, id⟩

end Steps

/-! ## The lines of a message -/

/-- The message brings about a line whatever the vertical rate. -/
def Writes (message : ReadsbBridgeMessage) (state : AircraftState) : Prop :=
  (∃ callsign, message.callsign = some callsign ∧ dropTrailingBlanks callsign.text ≠ []) ∨
    message.velocity.isSome ∨
    ∃ cpr, message.cpr = some cpr ∧
      (decodeReadsbGlobalPosition
        (state.storeReport cpr.odd cpr.lat.toInt cpr.lon.toInt)).isSome

/-- No line, or one of the given address and of a state with this vertical rate. -/
def LineOf (addr : ℕ) (state : AircraftState) (line : Text) : Prop :=
  line = [] ∨ ∃ nowMs transmissionType includePosition, ∃ printed : AircraftState,
    line = toSbsLine nowMs addr printed transmissionType includePosition ∧
      suppressed printed transmissionType includePosition = false ∧ printed.Plain ∧
      printed.verticalRate = state.verticalRate ∧ printed.lastSeenMs = state.lastSeenMs

section Lines

variable {nowMs : ℤ} {decoded : ReadsbBridgeMessage} {addr : ℕ} {state state' : AircraftState}
  {line : Text}

theorem lineOf_toSbsLine (hp : state.Plain) (transmissionType : ℕ) (includePosition : Bool) :
    LineOf addr state (toSbsLine nowMs addr state transmissionType includePosition) := by
  cases hs : suppressed state transmissionType includePosition with
  | true => exact .inl (toSbsLine_eq_nil_iff.2 hs)
  | false => exact .inr ⟨nowMs, transmissionType, includePosition, state, rfl, hs, hp, rfl, rfl⟩

theorem LineOf.keeps (h : LineOf addr state line) (hk : KeepsRate state state') :
    LineOf addr state' line := by
  rcases h with h | ⟨now, type, pos, printed, hl, hs, hp, hr, ht⟩
  · exact .inl h
  · exact .inr ⟨now, type, pos, printed, hl, hs, hp, hr.trans hk.rate.symm, ht.trans hk.lastSeen.symm⟩

/-- The vertical rate a message leaves behind: its own, or the one there was. -/
def rateAfter (decoded : ReadsbBridgeMessage) (state : AircraftState) : Option VerticalRate :=
  match decoded.verticalRate with
  | some (fpm, isBaro) => some ⟨fpm, isBaro, state.lastSeenMs⟩
  | none => state.verticalRate

/-- The steps of the handler with the one about the vertical rate among them. -/
structure TakesRate (decoded : ReadsbBridgeMessage) (state state' : AircraftState) : Prop where
  rate : state'.verticalRate = rateAfter decoded state
  lastSeen : state'.lastSeenMs = state.lastSeenMs
  plain : state.Plain → state'.Plain

theorem takeVerticalRate_takesRate (decoded : ReadsbBridgeMessage) (state : AircraftState) :
    TakesRate decoded state (takeVerticalRate decoded state) := by
  unfold takeVerticalRate
  constructor
  · unfold rateAfter
    rcases decoded.verticalRate with - | ⟨fpm, isBaro⟩ <;> rfl
  · split <;> rfl
  · split <;> exact id

theorem KeepsRate.takes {s s' s'' : AircraftState} (h : KeepsRate s s')
    (h' : TakesRate decoded s' s'') : TakesRate decoded s s'' := by
  refine ⟨?_, h'.lastSeen.trans h.lastSeen, fun hp => h'.plain (h.plain hp)⟩
  rw [h'.rate, rateAfter, rateAfter, h.rate, h.lastSeen]

theorem TakesRate.keeps {s s' s'' : AircraftState} (h : TakesRate decoded s s')
    (h' : KeepsRate s' s'') : TakesRate decoded s s'' :=
  ⟨h'.rate.trans h.rate, h'.lastSeen.trans h.lastSeen, fun hp => h'.plain (h.plain hp)⟩

theorem takeCpr_keepsRate (nowMs : ℤ) (decoded : ReadsbBridgeMessage) (state : AircraftState)
    (line : Text) : KeepsRate state (takeCpr nowMs decoded state line).1 := by
  unfold takeCpr
  split
  · next cpr _ =>
    have hk := storeReport_keepsRate state cpr.odd cpr.lat.toInt cpr.lon.toInt
    simp only
    split
    · next s h => exact hk.trans (decodeReadsbGlobalPosition_keepsRate _ h)
    · exact hk
  · exact ⟨rfl, rfl, id⟩

theorem lineOf_takeCpr (hp : state.Plain) (hl : LineOf decoded.addr.toNat state line) :
    LineOf decoded.addr.toNat (takeCpr nowMs decoded state line).1
      (takeCpr nowMs decoded state line).2 := by
  unfold takeCpr
  split
  · next cpr _ =>
    have hk := storeReport_keepsRate state cpr.odd cpr.lat.toInt cpr.lon.toInt
    simp only
    split
    · next s h =>
      exact lineOf_toSbsLine ((decodeReadsbGlobalPosition_keepsRate _ h).plain (hk.plain hp)) 3 true
    · exact hl.keeps hk
  · exact hl

/-- Up to `if (decoded.has_cpr)`: the state, and the line of the callsign. -/
def beforeCpr (nowMs : ℤ) (decoded : ReadsbBridgeMessage) (state : AircraftState) :
    AircraftState × Text :=
  let named := takeCallsign nowMs decoded (takeCategory decoded state)
  (takeVerticalRate decoded (takeVelocity decoded (takeAltitude decoded named.1)), named.2)

theorem beforeCpr_takesRate (nowMs : ℤ) (decoded : ReadsbBridgeMessage) (state : AircraftState) :
    TakesRate decoded state (beforeCpr nowMs decoded state).1 :=
  ((takeCategory_keepsRate decoded state).trans
    ((takeCallsign_keepsRate nowMs decoded _).trans
      ((takeAltitude_keepsRate decoded _).trans (takeVelocity_keepsRate decoded _)))).takes
    (takeVerticalRate_takesRate decoded _)

/-- The line in front of `if (decoded.has_cpr)`. -/
def lineBeforeCpr (nowMs : ℤ) (decoded : ReadsbBridgeMessage) (state : AircraftState) : Text :=
  if decoded.velocity.isSome || decoded.verticalRate.isSome then
    toSbsLine nowMs decoded.addr.toNat (beforeCpr nowMs decoded state).1 4 false
  else (beforeCpr nowMs decoded state).2

theorem applyDecoded_eq (nowMs : ℤ) (decoded : ReadsbBridgeMessage) (state : AircraftState) :
    applyDecoded nowMs decoded state =
      takeCpr nowMs decoded (beforeCpr nowMs decoded state).1 (lineBeforeCpr nowMs decoded state) :=
  rfl

theorem applyDecoded_lastSeenMs (nowMs : ℤ) (decoded : ReadsbBridgeMessage)
    (state : AircraftState) :
    (applyDecoded nowMs decoded state).1.lastSeenMs = state.lastSeenMs := by
  rw [applyDecoded_eq]
  exact (takeCpr_keepsRate nowMs decoded _ _).lastSeen.trans
    (beforeCpr_takesRate nowMs decoded state).lastSeen

theorem lineOf_takeCallsign (state : AircraftState) :
    LineOf decoded.addr.toNat (takeCallsign nowMs decoded state).1
      (takeCallsign nowMs decoded state).2 := by
  unfold takeCallsign
  split
  · next callsign _ =>
    refine lineOf_toSbsLine ?_ 1 false
    exact dropTrailingBlanks_over callsign.plain
  · exact .inl rfl

/-- Without a rate of its own the message's line shows the rate there was. -/
theorem lineOf_lineBeforeCpr (hp : state.Plain) :
    LineOf decoded.addr.toNat (beforeCpr nowMs decoded state).1
      (lineBeforeCpr nowMs decoded state) := by
  unfold lineBeforeCpr
  split
  · exact lineOf_toSbsLine ((beforeCpr_takesRate nowMs decoded state).plain hp) 4 false
  · next h =>
    simp only [Bool.or_eq_true, not_or, Bool.not_eq_true, Option.isSome_eq_false_iff,
      Option.isNone_iff_eq_none] at h
    have hk : KeepsRate (takeCallsign nowMs decoded (takeCategory decoded state)).1
        (beforeCpr nowMs decoded state).1 := by
      have ht := takeVerticalRate_takesRate decoded (takeVelocity decoded
        (takeAltitude decoded (takeCallsign nowMs decoded (takeCategory decoded state)).1))
      have hrate := ht.rate
      rw [rateAfter, h.2] at hrate
      exact (takeAltitude_keepsRate decoded _).trans ((takeVelocity_keepsRate decoded _).trans
        ⟨hrate, ht.lastSeen, ht.plain⟩)
    exact (lineOf_takeCallsign _).keeps hk

/-- **What a message leaves in the state, and that its line says no other.** -/
theorem applyDecoded_spec (nowMs : ℤ) (decoded : ReadsbBridgeMessage) (hp : state.Plain) :
    TakesRate decoded state (applyDecoded nowMs decoded state).1 ∧
      LineOf decoded.addr.toNat (applyDecoded nowMs decoded state).1
        (applyDecoded nowMs decoded state).2 := by
  have ht := beforeCpr_takesRate nowMs decoded state
  rw [applyDecoded_eq]
  exact ⟨ht.keeps (takeCpr_keepsRate nowMs decoded _ _),
    lineOf_takeCpr (ht.plain hp) (lineOf_lineBeforeCpr hp)⟩

/-! ## When there is a line -/

/-- The reports that the next position is decoded from are the same. -/
structure SameReports (s s' : AircraftState) : Prop where
  even : s'.even = s.even
  odd : s'.odd = s.odd
  lastSeen : s'.lastSeenMs = s.lastSeenMs

theorem SameReports.trans {s s' s'' : AircraftState} (h : SameReports s s')
    (h' : SameReports s' s'') : SameReports s s'' :=
  ⟨h'.even.trans h.even, h'.odd.trans h.odd, h'.lastSeen.trans h.lastSeen⟩

/-- Nothing in front of `if (decoded.has_cpr)` touches the reports. -/
theorem beforeCpr_sameReports (nowMs : ℤ) (decoded : ReadsbBridgeMessage) (state : AircraftState) :
    SameReports state (beforeCpr nowMs decoded state).1 := by
  have hcategory : ∀ s, SameReports s (takeCategory decoded s) := by
    intro s; unfold takeCategory; split <;> exact ⟨rfl, rfl, rfl⟩
  have hcallsign : ∀ s, SameReports s (takeCallsign nowMs decoded s).1 := by
    intro s; unfold takeCallsign; split <;> exact ⟨rfl, rfl, rfl⟩
  have haltitude : ∀ s, SameReports s (takeAltitude decoded s) := by
    intro s; unfold takeAltitude; split <;> exact ⟨rfl, rfl, rfl⟩
  have hvelocity : ∀ s, SameReports s (takeVelocity decoded s) := by
    intro s; unfold takeVelocity; split <;> exact ⟨rfl, rfl, rfl⟩
  have hrate : ∀ s, SameReports s (takeVerticalRate decoded s) := by
    intro s; unfold takeVerticalRate; split <;> exact ⟨rfl, rfl, rfl⟩
  exact (hcategory state).trans ((hcallsign _).trans ((haltitude _).trans
    ((hvelocity _).trans (hrate _))))

/-- Whether a report completes a position depends on the reports alone. -/
theorem decodeReadsb_isSome_congr {s s' : AircraftState} (h : SameReports s s') (odd : Bool)
    (lat lon : ℤ) :
    (decodeReadsbGlobalPosition (s'.storeReport odd lat lon)).isSome =
      (decodeReadsbGlobalPosition (s.storeReport odd lat lon)).isSome := by
  unfold decodeReadsbGlobalPosition AircraftState.storeReport
  cases odd <;> simp [h.even, h.odd, h.lastSeen]

theorem freshVerticalRate_congr {s s' : AircraftState} (hr : s.verticalRate = s'.verticalRate)
    (ht : s.lastSeenMs = s'.lastSeenMs) : freshVerticalRate s = freshVerticalRate s' := by
  rw [freshVerticalRate, freshVerticalRate, hr, ht]

theorem takeCpr_ne_nil_iff :
    (takeCpr nowMs decoded state line).2 ≠ [] ↔
      line ≠ [] ∨ ∃ cpr, decoded.cpr = some cpr ∧
        (decodeReadsbGlobalPosition
          (state.storeReport cpr.odd cpr.lat.toInt cpr.lon.toInt)).isSome := by
  unfold takeCpr
  cases hc : decoded.cpr with
  | none => simp
  | some cpr =>
    cases hd : decodeReadsbGlobalPosition (state.storeReport cpr.odd cpr.lat.toInt cpr.lon.toInt) with
    | none => simp [hd]
    | some s =>
      obtain ⟨p, -, rfl⟩ := Option.map_eq_some_iff.1 hd
      simp [hd, toSbsLine_eq_nil_iff, suppressed, AircraftState.setPosition]

/-- Without a rate of its own, while the decoder holds one, a message brings
about a line exactly if something else does. -/
theorem applyDecoded_ne_nil_iff (hrate : decoded.verticalRate = none)
    (hfresh : (freshVerticalRate state).isSome) :
    (applyDecoded nowMs decoded state).2 ≠ [] ↔ Writes decoded state := by
  have hreports := beforeCpr_sameReports nowMs decoded state
  have hkeep := (beforeCpr_takesRate nowMs decoded state).rate
  rw [rateAfter, hrate] at hkeep
  have hline : lineBeforeCpr nowMs decoded state ≠ [] ↔
      (∃ callsign, decoded.callsign = some callsign ∧ dropTrailingBlanks callsign.text ≠ []) ∨
        decoded.velocity.isSome := by
    rw [lineBeforeCpr, hrate, Option.isSome_none, Bool.or_false]
    cases hv : decoded.velocity.isSome with
    | true =>
      rw [if_pos rfl, ne_eq, toSbsLine_eq_nil_iff, suppressed, freshVerticalRate_congr hkeep hreports.lastSeen]
      simp [Option.isNone_eq_false_iff.2 hfresh]
    | false =>
      rw [if_neg Bool.false_ne_true, beforeCpr, takeCallsign]
      cases decoded.callsign with
      | none => simp
      | some callsign => simp [toSbsLine_eq_nil_iff, suppressed]
  rw [applyDecoded_eq, takeCpr_ne_nil_iff, hline, Writes, or_assoc]
  simp only [decodeReadsb_isSome_congr hreports]

end Lines

end AdsbBridge.Native
