import AdsbBridge.AircraftTable
import AdsbBridge.Cpr.Decode
import AdsbBridge.Fields
import AdsbBridge.Sbs

/-! # The native decoder's aircraft states and lines

`AircraftState`, the two global decodes, `to_sbs_line`, and the three
functions that bring a message into a state: `handle_message` for the
native-fast path and `handle_readsb_decoded_message` for READSB_CORE. A flag
`has_x` with its value is an `Option`. -/
namespace AdsbBridge.Native
open AdsbBridge.Lib AdsbBridge.Fields AdsbBridge.Cpr

/-- `vertical_rate_fpm`, `vertical_rate_is_baro` and `vertical_rate_ms`. -/
structure VerticalRate where
  fpm : Int32
  isBaro : Bool
  ms : ℤ
  deriving DecidableEq, Repr

structure AircraftState where
  callsign : Text := []
  lat : Option ℚ := none
  lon : Option ℚ := none
  category : Option Int32 := none
  altitudeFt : Option Int32 := none
  speedKt : Option Int32 := none
  trackDeg : Option Int32 := none
  verticalRate : Option VerticalRate := none
  even : Option CprFrame := none
  odd : Option CprFrame := none
  lastSeenMs : ℤ := 0
  deriving DecidableEq, Repr

def verticalRateHoldMs : ℤ := 15 * 1000

def pruneAircraftStates (timestampMs : ℤ) (decoder : AircraftTable ℕ AircraftState) :
    AircraftTable ℕ AircraftState :=
  decoder.prune AircraftState.lastSeenMs (fun _ => true) timestampMs

/-! ## Positions and velocities -/

def AircraftState.setPosition (state : AircraftState) (p : ℚ × ℚ) : AircraftState :=
  { state with lat := some p.1, lon := some p.2 }

/-- `decode_global_position`; `none` is `false`, which leaves the state alone. -/
def decodeGlobalPosition (state : AircraftState) : Option AircraftState :=
  (decodePair globalPosition state.even state.odd).map state.setPosition

def decodeReadsbGlobalPosition (state : AircraftState) : Option AircraftState :=
  (decodePair (fun evenLat evenLon oddLat oddLon useOdd =>
    (decodeCPRairborne evenLat evenLon oddLat oddLon useOdd).toOption) state.even state.odd).map
    state.setPosition

/-- `decode_velocity`; `std::round` takes a tie away from zero. -/
def decodeVelocity (trig : Trig) (message : Message) (state : AircraftState) : AircraftState :=
  match velocityComponents message with
  | none => state
  | some (east, north) =>
    { state with
      speedKt := some (speedKt trig Text.roundHalfAway east north)
      trackDeg := some (trackDeg trig Text.roundHalfAway east north) }

def decodeCallsign (message : Message) : Text := dropTrailingBlanks (callsignChars message)

def AircraftState.storeReport (state : AircraftState) (odd : Bool) (lat lon : ℤ) : AircraftState :=
  if odd then { state with odd := some ⟨lat, lon, state.lastSeenMs⟩ }
  else { state with even := some ⟨lat, lon, state.lastSeenMs⟩ }

/-! ## Lines -/

def utcDateTime (timestampMs : ℤ) : Text × Text :=
  let seconds := timestampMs.tdiv 1000
  (Sbs.dateText seconds, Sbs.timeText seconds (timestampMs.tmod 1000))

def freshVerticalRate (state : AircraftState) : Option VerticalRate :=
  state.verticalRate.filter fun rate =>
    decide (rate.ms > 0) && decide (state.lastSeenMs - rate.ms ≥ 0) &&
      decide (state.lastSeenMs - rate.ms ≤ verticalRateHoldMs)

/-- The conditions under which `to_sbs_line` returns no line. -/
def suppressed (state : AircraftState) (transmissionType : ℕ) (includePosition : Bool) : Bool :=
  (transmissionType == 1 && state.callsign.isEmpty) ||
  (transmissionType == 3 && (!includePosition || state.lat.isNone || state.lon.isNone)) ||
  (transmissionType == 4 &&
    ((state.speedKt.isNone || state.trackDeg.isNone) && (freshVerticalRate state).isNone))

def sbsFields (nowMs : ℤ) (hex : ℕ) (state : AircraftState) (transmissionType : ℕ)
    (includePosition : Bool) : List Text :=
  let (date, time) := utcDateTime (if state.lastSeenMs > 0 then state.lastSeenMs else nowMs)
  let rate := freshVerticalRate state
  ["MSG".toList, Text.ofNat transmissionType, ['1'], ['1'], Text.hexOf 6 hex, ['1'],
    date, time, date, time, state.callsign,
    Sbs.intField state.altitudeFt, Sbs.intField state.speedKt, Sbs.intField state.trackDeg,
    Sbs.coordinateField Text.roundHalfEven includePosition state.lat,
    Sbs.coordinateField Text.roundHalfEven includePosition state.lon,
    Sbs.intField (rate.map (·.fpm)), ['0'], ['0'], ['0'], ['0'], ['0'],
    Text.orBlank (fun r => if r.isBaro then "BARO".toList else "GEOM".toList) rate,
    Text.orBlank (fun c => Text.hexOf 2 (c.toInt % 256).toNat) state.category]

/-- `to_sbs_line`; the empty text is no line. -/
def toSbsLine (nowMs : ℤ) (hex : ℕ) (state : AircraftState) (transmissionType : ℕ)
    (includePosition : Bool) : Text :=
  if suppressed state transmissionType includePosition then []
  else Text.joinFields (sbsFields nowMs hex state transmissionType includePosition)

end AdsbBridge.Native
