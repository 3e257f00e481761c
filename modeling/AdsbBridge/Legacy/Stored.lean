import AdsbBridge.Legacy.Aircraft
import AdsbBridge.Readsb.Bits

/-! # What every stored state of the legacy decoder has

Its texts are over the alphabets of addresses and callsigns, so no field of a
line holds a comma, and the words of its reports are such as messages carry. -/
namespace AdsbBridge.Legacy
open AdsbBridge.Lib AdsbBridge.Fields AdsbBridge.Cpr

theorem no_comma_sbsFields {nowMs : ℤ} {state : AircraftState} {transmissionType : ℕ}
    {includePosition : Bool} (hhex : Text.Over Text.isHex state.hex)
    (hcallsign : Text.Over isCallsignChar (state.callsign.getD [])) :
    ∀ f ∈ sbsFields nowMs state transmissionType includePosition, ',' ∉ f := by
  have hcomma : Sbs.isDateTime ',' = false := by decide
  have hdate := fun s => (Sbs.over_dateText s).no_comma hcomma
  have htime := fun s m => (Sbs.over_timeText s m).no_comma hcomma
  have hint := fun o => (Sbs.over_intField o).no_comma (by decide)
  have hcoord := fun x =>
    (Sbs.over_coordinateField Text.roundHalfAway includePosition x).no_comma (by decide)
  have hnum := (Text.over_ofNat transmissionType).no_comma (by decide)
  simp only [sbsFields, List.forall_mem_cons]
  refine ⟨by decide, hnum, by decide, by decide, hhex.no_comma (by decide), by decide, hdate _,
    htime _ _, hdate _, htime _ _, hcallsign.no_comma (by decide), hint _, hint _, hint _, hcoord _,
    hcoord _, by decide, by decide, by decide, by decide, by decide, by decide, ?_⟩
  intro f hf
  cases hf

theorem sbsFields_ne_nil {nowMs : ℤ} {state : AircraftState} {transmissionType : ℕ}
    {includePosition : Bool} : sbsFields nowMs state transmissionType includePosition ≠ [] :=
  List.cons_ne_nil _ _

/-- The texts are plain, and the words of both reports are as given. -/
structure Holding (word : ℤ → Prop) (state : AircraftState) : Prop where
  hex : Text.Over Text.isHex state.hex
  callsign : Text.Over isCallsignChar (state.callsign.getD [])
  even : ∀ r ∈ state.even, word r.lat ∧ word r.lon
  odd : ∀ r ∈ state.odd, word r.lat ∧ word r.lon

section Holding

variable {word : ℤ → Prop} {state : AircraftState}

theorem over_hexText (message : Message) : Text.Over Text.isHex (hexText message) :=
  ((Text.over_hexOf 2 _).append (Text.over_hexOf 2 _)).append (Text.over_hexOf 2 _)

theorem holding_new (message : Message) : Holding word { hex := hexText message } where
  hex := over_hexText message
  callsign := nofun
  even := nofun
  odd := nofun

theorem Holding.seen (h : Holding word state) (t : ℤ) :
    Holding word { state with lastSeenMs := t } := ⟨h.hex, h.callsign, h.even, h.odd⟩

theorem Holding.storeReport (h : Holding word state) (odd : Bool) {lat lon : ℤ} (hlat : word lat)
    (hlon : word lon) : Holding word (state.storeReport odd lat lon) := by
  have hnew : ∀ r ∈ some (CprFrame.mk lat lon state.lastSeenMs), word r.lat ∧ word r.lon := by
    intro r hr
    cases hr
    exact ⟨hlat, hlon⟩
  unfold AircraftState.storeReport
  split
  · exact ⟨h.hex, h.callsign, h.even, hnew⟩
  · exact ⟨h.hex, h.callsign, hnew, h.odd⟩

/-- **Every branch of `handleMessage` keeps the texts plain and the words as
they come.** -/
theorem Holding.applyMessage (h : Holding word state) (trig : Trig) (clock : Clock)
    {message : Message} (hlat : word (cprLatWord message)) (hlon : word (cprLonWord message)) :
    Holding word (applyMessage trig clock message state).1 := by
  unfold Legacy.applyMessage
  simp only
  split
  · exact ⟨h.hex, Text.over_trim (callsignChars_over message), h.even, h.odd⟩
  split
  · unfold applyPosition
    have hnamed : Holding word { state with
        altitudeFt := decodeAltitudeFt (Frame.getBits message 40 12) } :=
      ⟨h.hex, h.callsign, h.even, h.odd⟩
    have hstored := hnamed.storeReport (isOdd message) hlat hlon
    simp only
    split
    · next decoded hdecoded =>
      obtain ⟨p, -, rfl⟩ := Option.map_eq_some_iff.1 hdecoded
      exact ⟨hstored.hex, hstored.callsign, hstored.even, hstored.odd⟩
    · exact hstored
  split
  · unfold applyVelocity decodeVelocity
    split
    · exact h
    · exact ⟨h.hex, h.callsign, h.even, h.odd⟩
  · exact h

end Holding

end AdsbBridge.Legacy
