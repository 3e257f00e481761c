import AdsbBridge.Cpr.Range
import AdsbBridge.Native.Rate
import AdsbBridge.Readsb.Bits

/-! # What every stored state has

Properties of the states in the native decoder's table that each handler keeps:
the callsign is over the alphabet of the decoders, and the words of the stored
reports are such as messages carry. -/
namespace AdsbBridge.Native
open AdsbBridge.Lib AdsbBridge.Fields AdsbBridge.Readsb AdsbBridge.Cpr

/-- The callsign is plain, and the words of both reports are as given. -/
structure Holding (word : ℤ → Prop) (state : AircraftState) : Prop where
  plain : state.Plain
  even : ∀ r ∈ state.even, word r.lat ∧ word r.lon
  odd : ∀ r ∈ state.odd, word r.lat ∧ word r.lon

section Holding

variable {word : ℤ → Prop} {state : AircraftState}

theorem holding_new (t : ℤ) : Holding word { lastSeenMs := t } :=
  ⟨plain_default, nofun, nofun⟩

theorem Holding.seen (h : Holding word state) (t : ℤ) :
    Holding word { state with lastSeenMs := t } := ⟨h.plain, h.even, h.odd⟩

theorem Holding.storeReport (h : Holding word state) (odd : Bool) {lat lon : ℤ} (hlat : word lat)
    (hlon : word lon) : Holding word (state.storeReport odd lat lon) := by
  have hnew : ∀ r ∈ some (CprFrame.mk lat lon state.lastSeenMs), word r.lat ∧ word r.lon := by
    intro r hr
    cases hr
    exact ⟨hlat, hlon⟩
  unfold AircraftState.storeReport
  split
  · exact ⟨h.plain, h.even, hnew⟩
  · exact ⟨h.plain, hnew, h.odd⟩

theorem Holding.setPosition (h : Holding word state) (p : ℚ × ℚ) :
    Holding word (state.setPosition p) := ⟨h.plain, h.even, h.odd⟩

theorem isWord_cpr (message : Message) :
    IsWord (cprLatWord message) ∧ IsWord (cprLonWord message) := by
  have hlat := getBits_lt message 54 17
  have hlon := getBits_lt message 71 17
  unfold IsWord cprLatWord cprLonWord
  omega

theorem decodeCallsign_plain (message : Message) :
    Text.Over isCallsignChar (decodeCallsign message) :=
  dropTrailingBlanks_over (callsignChars_over message)

/-- What an altitude, the message's report and a decoded position keep, the
whole of `applyPosition` keeps. -/
theorem applyPosition_keeps {P : AircraftState → Prop} {message : Message}
    (haltitude : ∀ s altitude, P s → P { s with altitudeFt := some altitude })
    (hreport : ∀ s, P s →
      P (s.storeReport (isOdd message) (cprLatWord message) (cprLonWord message)))
    (hdecoded : ∀ s s', P s → decodeGlobalPosition s = some s' → P s') (clock : Clock)
    (h : P state) : P (applyPosition clock message state).1 := by
  unfold applyPosition
  simp only
  cases decodeAltitudeFt (Frame.getBits message 40 12) with
  | none =>
    have hstored := hreport state h
    simp only
    split
    · next s hs => exact hdecoded _ s hstored hs
    · exact hstored
  | some altitude =>
    have hstored := hreport _ (haltitude state altitude h)
    simp only
    split
    · next s hs => exact hdecoded _ s hstored hs
    · exact hstored

/-- A message of the native-fast path. -/
theorem Holding.applyMessage (h : Holding word state) (trig : Trig) (clock : Clock)
    {message : Message} (hlat : word (cprLatWord message)) (hlon : word (cprLonWord message)) :
    Holding word (applyMessage trig clock message state).1 := by
  unfold Native.applyMessage
  simp only
  split
  · exact ⟨decodeCallsign_plain message, h.even, h.odd⟩
  split
  · refine applyPosition_keeps (fun s _ hs => ⟨hs.plain, hs.even, hs.odd⟩)
      (fun s hs => hs.storeReport (isOdd message) hlat hlon) (fun s s' hs hd => ?_) clock h
    obtain ⟨p, -, rfl⟩ := Option.map_eq_some_iff.1 hd
    exact hs.setPosition p
  split
  · unfold applyVelocity decodeVelocity
    split
    · exact h
    · exact ⟨h.plain, h.even, h.odd⟩
  · exact h

/-- A message of the READSB_CORE path. -/
theorem Holding.applyDecoded (h : Holding word state) (nowMs : ℤ) {decoded : ReadsbBridgeMessage}
    (hword : ∀ cpr ∈ decoded.cpr, word cpr.lat.toInt ∧ word cpr.lon.toInt) :
    Holding word (applyDecoded nowMs decoded state).1 := by
  have hsame := beforeCpr_sameReports nowMs decoded state
  have hbefore : Holding word (beforeCpr nowMs decoded state).1 :=
    ⟨(beforeCpr_takesRate nowMs decoded state).plain h.plain, hsame.even ▸ h.even,
      hsame.odd ▸ h.odd⟩
  rw [applyDecoded_eq]
  unfold takeCpr
  split
  · next cpr hcpr =>
    obtain ⟨hlat, hlon⟩ := hword cpr hcpr
    have hstored := hbefore.storeReport cpr.odd hlat hlon
    simp only
    split
    · next s hs =>
      obtain ⟨p, -, rfl⟩ := Option.map_eq_some_iff.1 hs
      exact hstored.setPosition p
    · exact hstored
  · exact hbefore

end Holding

/-! ## Tables -/

section Tables

variable {P : AircraftState → Prop} {table : Table}

/-- What both handlers do to a table whose states all have a property. -/
theorem visitAircraft_all (hnew : P {}) (hseen : ∀ s t, P s → P { s with lastSeenMs := t })
    {update : AircraftState → AircraftState × Text} (hupdate : ∀ s, P s → P (update s).1)
    (h : table.All fun _ => P) (timestampMs : ℤ) (hex : ℕ) :
    (visitAircraft timestampMs hex update table).1.All fun _ => P := by
  have hpruned : (pruneAircraftStates timestampMs table).All fun _ => P := h.prune timestampMs
  exact hpruned.put (hupdate _ (hseen _ timestampMs (hpruned.getD hnew)))

/-- The line comes from a state with the property. -/
theorem visitAircraft_line (hnew : P {}) (hseen : ∀ s t, P s → P { s with lastSeenMs := t })
    (update : AircraftState → AircraftState × Text) (h : table.All fun _ => P) (timestampMs : ℤ)
    (hex : ℕ) :
    ∃ state, P state ∧ (visitAircraft timestampMs hex update table).2 = (update state).2 := by
  have hpruned : (pruneAircraftStates timestampMs table).All fun _ => P := h.prune timestampMs
  exact ⟨_, hseen _ timestampMs (hpruned.getD hnew), rfl⟩

end Tables

end AdsbBridge.Native
