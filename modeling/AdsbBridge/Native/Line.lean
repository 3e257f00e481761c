import AdsbBridge.Native.Handle
import AdsbBridge.Store.Parse

/-! # Native lines and what the store reads in them

The callsigns of the states the two handlers build are over the readsb
alphabet, so no field of a line holds a comma and the store splits the line
where `to_sbs_line` joined it. -/
namespace AdsbBridge.Native
open AdsbBridge.Lib AdsbBridge.Fields AdsbBridge.Readsb AdsbBridge.Store

/-- The callsign is over the alphabet of the decoders. -/
def AircraftState.Plain (state : AircraftState) : Prop :=
  Text.Over isCallsignChar state.callsign

theorem plain_default : AircraftState.Plain {} := by
  intro c hc
  cases hc

section Line

variable {nowMs : ℤ} {hex : ℕ} {state : AircraftState} {transmissionType : ℕ}
  {includePosition : Bool}

theorem isDateTime_comma : Sbs.isDateTime ',' = false := by decide

theorem no_comma_sbsFields (hp : state.Plain) :
    ∀ f ∈ sbsFields nowMs hex state transmissionType includePosition, ',' ∉ f := by
  have hdate := fun s => (Sbs.over_dateText s).no_comma isDateTime_comma
  have htime := fun s m => (Sbs.over_timeText s m).no_comma isDateTime_comma
  have hcall : ',' ∉ state.callsign := hp.no_comma (by decide)
  have hint := fun o => (Sbs.over_intField o).no_comma (by decide)
  have hcoord := fun x =>
    (Sbs.over_coordinateField Text.roundHalfEven includePosition x).no_comma (by decide)
  have hhex := fun n => (Text.over_hexOf 6 n).no_comma (by decide)
  have hnum := (Text.over_ofNat transmissionType).no_comma (by decide)
  have hcategory : ',' ∉ Text.orBlank (fun c : Int32 => Text.hexOf 2 (c.toInt % 256).toNat)
      state.category :=
    (Text.over_orBlank _ fun c => Text.over_hexOf 2 _).no_comma (by decide)
  have hreference : ∀ o : Option VerticalRate,
      ',' ∉ Text.orBlank (fun r => if r.isBaro then "BARO".toList else "GEOM".toList) o := by
    intro h
    obtain _ | r := h
    · decide
    · simp only [Text.orBlank]
      split <;> decide
  simp only [sbsFields, utcDateTime, List.forall_mem_cons]
  refine ⟨by decide, hnum, by decide, by decide, hhex _, by decide, hdate _, htime _ _, hdate _,
    htime _ _, hcall, hint _, hint _, hint _, hcoord _, hcoord _, hint _, by decide, by decide,
    by decide, by decide, by decide, hreference _, hcategory, ?_⟩
  intro f hf
  cases hf

theorem sbsFields_ne_nil :
    sbsFields nowMs hex state transmissionType includePosition ≠ [] :=
  List.cons_ne_nil _ _

theorem toSbsLine_eq_nil_iff :
    toSbsLine nowMs hex state transmissionType includePosition = [] ↔
      suppressed state transmissionType includePosition = true := by
  unfold toSbsLine
  split
  · simp [*]
  · simp [*, Text.joinFields, sbsFields, List.intercalate]

theorem parse_toSbsLine [UpperCase] (hp : state.Plain)
    (hs : suppressed state transmissionType includePosition = false) :
    SbsUpdate.parse (toSbsLine nowMs hex state transmissionType includePosition) =
      some (SbsUpdate.updateOf (sbsFields nowMs hex state transmissionType includePosition)
        (Text.hexOf 6 hex)) := by
  rw [toSbsLine, hs, if_neg Bool.false_ne_true,
    SbsUpdate.parse_joinFields (no_comma_sbsFields hp) sbsFields_ne_nil]
  exact SbsUpdate.ofFields_of_msg (by simp [sbsFields]) rfl (SbsUpdate.clean_hexOf 6 hex (by decide))

def VerticalRate.reference (rate : VerticalRate) : Text :=
  if rate.isBaro then "BARO".toList else "GEOM".toList

theorem normalized_reference [UpperCase] (o : Option VerticalRate) :
    SbsUpdate.normalizedVerticalRateReference (Text.orBlank VerticalRate.reference o) =
      o.map VerticalRate.reference := by
  rcases o with - | ⟨fpm, isBaro, ms⟩
  · rfl
  · cases isBaro with
    | true => exact SbsUpdate.normalizedVerticalRateReference_of_capital (.inl rfl)
    | false => exact SbsUpdate.normalizedVerticalRateReference_of_capital (.inr rfl)

/-- What the store reads of a line's aircraft and vertical rate. -/
theorem parse_rate [UpperCase] (nowMs : ℤ) (hex : ℕ) (hp : state.Plain)
    (hs : suppressed state transmissionType includePosition = false) :
    ∃ update,
      SbsUpdate.parse (toSbsLine nowMs hex state transmissionType includePosition) = some update ∧
      update.hex = Text.hexOf 6 hex ∧
      update.verticalRateFpm = (freshVerticalRate state).map (fun r => .finite r.fpm.toInt) ∧
      update.verticalRateReference = (freshVerticalRate state).map VerticalRate.reference := by
  refine ⟨_, parse_toSbsLine hp hs, SbsUpdate.toUpperCase_hexOf 6 hex, ?_, ?_⟩
  · change SbsUpdate.parseDouble (Text.orBlank _ ((freshVerticalRate state).map _)) = _
    rw [SbsUpdate.parseDouble_intField, Option.map_map]
    rfl
  · exact normalized_reference (freshVerticalRate state)

end Line

end AdsbBridge.Native
