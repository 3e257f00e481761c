import AdsbBridge.AircraftTable
import AdsbBridge.Cpr.Decode
import AdsbBridge.Fields
import AdsbBridge.FrontEnd
import AdsbBridge.Sbs

/-! # The legacy Java decoder's aircraft states and lines

`RtlTcpAdsbReader.AircraftState`, `toSbsLine` and `handleMessage`. A boxed
field that may be `null` is an `Option`. Where this code differs from its C++
counterpart (an altitude is overwritten also by `null`, six constant fields
end a line, `Math.round` and `%.5f` round ties their own way), it keeps its own
body. -/
namespace AdsbBridge.Legacy
open AdsbBridge.Lib AdsbBridge.Fields AdsbBridge.Cpr

structure AircraftState where
  hex : Text
  callsign : Option Text := none
  lat : Option ℚ := none
  lon : Option ℚ := none
  altitudeFt : Option Int32 := none
  speedKt : Option Int32 := none
  trackDeg : Option Int32 := none
  even : Option CprFrame := none
  odd : Option CprFrame := none
  lastSeenMs : ℤ := 0
  deriving DecidableEq, Repr

abbrev Table := AircraftTable Text AircraftState

/-- `pruneAircraftStates`; the search for the oldest state starts from
`Long.MAX_VALUE`. -/
def pruneAircraftStates (nowMs : ℤ) (reader : Table) : Table :=
  reader.prune AircraftState.lastSeenMs (fun seen => seen < 2 ^ 63 - 1) nowMs

/-! ## Positions and velocities -/

def AircraftState.setPosition (state : AircraftState) (p : ℚ × ℚ) : AircraftState :=
  { state with lat := some p.1, lon := some p.2 }

/-- `decodeGlobalPosition`; `none` is `false`, which leaves the state alone. -/
def decodeGlobalPosition (state : AircraftState) : Option AircraftState :=
  (decodePair globalPosition state.even state.odd).map state.setPosition

/-- `Math.round`: the floor of the number and a half. -/
def mathRound (x : ℚ) : ℤ := ⌊x + 1 / 2⌋

def decodeVelocity (trig : Trig) (message : Message) (state : AircraftState) : AircraftState :=
  match velocityComponents message with
  | none => state
  | some (east, north) =>
    { state with
      speedKt := some (speedKt trig mathRound east north)
      trackDeg := some (trackDeg trig mathRound east north) }

def decodeCallsign (message : Message) : Text := Text.trim (callsignChars message)

def AircraftState.storeReport (state : AircraftState) (odd : Bool) (lat lon : ℤ) : AircraftState :=
  if odd then { state with odd := some ⟨lat, lon, state.lastSeenMs⟩ }
  else { state with even := some ⟨lat, lon, state.lastSeenMs⟩ }

/-! ## Lines -/

/-- The conditions under which `toSbsLine` returns `null`. -/
def suppressed (state : AircraftState) (transmissionType : ℕ) (includePosition : Bool) : Bool :=
  (transmissionType == 1 && (state.callsign.getD []).isEmpty) ||
  (transmissionType == 3 && (!includePosition || state.lat.isNone || state.lon.isNone)) ||
  (transmissionType == 4 && (state.speedKt.isNone || state.trackDeg.isNone))

def sbsFields (nowMs : ℤ) (state : AircraftState) (transmissionType : ℕ)
    (includePosition : Bool) : List Text :=
  let now := if state.lastSeenMs > 0 then state.lastSeenMs else nowMs
  let date := Sbs.dateText (now / 1000)
  let time := Sbs.timeText (now / 1000) (now % 1000)
  ["MSG".toList, Text.ofNat transmissionType, ['1'], ['1'], state.hex, ['1'],
    date, time, date, time, state.callsign.getD [],
    Sbs.intField state.altitudeFt, Sbs.intField state.speedKt, Sbs.intField state.trackDeg,
    Sbs.coordinateField Text.roundHalfAway includePosition state.lat,
    Sbs.coordinateField Text.roundHalfAway includePosition state.lon,
    ['0'], ['0'], ['0'], ['0'], ['0'], ['0']]

def toSbsLine (nowMs : ℤ) (state : AircraftState) (transmissionType : ℕ)
    (includePosition : Bool) : Option Text :=
  if suppressed state transmissionType includePosition then none
  else some (Text.joinFields (sbsFields nowMs state transmissionType includePosition))

/-! ## Handling one message -/

/-- `String.format("%02X%02X%02X", ...)` of bytes 1 to 3. -/
def hexText (message : Message) : Text :=
  Text.hexOf 2 (message.byte 1).toNat ++ Text.hexOf 2 (message.byte 2).toNat ++
    Text.hexOf 2 (message.byte 3).toNat

def applyIdentification (clock : Clock) (message : Message) (state : AircraftState) :
    AircraftState × Option Text :=
  let state := { state with callsign := some (decodeCallsign message) }
  (state, toSbsLine clock.printed state 1 false)

def applyPosition (clock : Clock) (message : Message) (state : AircraftState) :
    AircraftState × Option Text :=
  let state := { state with altitudeFt := decodeAltitudeFt (Frame.getBits message 40 12) }
  let state := state.storeReport (isOdd message) (cprLatWord message) (cprLonWord message)
  match decodeGlobalPosition state with
  | some state => (state, toSbsLine clock.printed state 3 true)
  | none => (state, none)

def applyVelocity (trig : Trig) (clock : Clock) (message : Message) (state : AircraftState) :
    AircraftState × Option Text :=
  let state := decodeVelocity trig message state
  (state, toSbsLine clock.printed state 4 false)

/-- The branches of `handleMessage` on the type code. -/
def applyMessage (trig : Trig) (clock : Clock) (message : Message) (state : AircraftState) :
    AircraftState × Option Text :=
  let typeCode := typeCode message
  if typeCode ≥ 1 ∧ typeCode ≤ 4 then applyIdentification clock message state
  else if typeCode ≥ 9 ∧ typeCode ≤ 18 then applyPosition clock message state
  else if typeCode = 19 then applyVelocity trig clock message state
  else (state, none)

def handleMessage (trig : Trig) (clock : Clock) (message : Message) (reader : Table) :
    Table × Option Text :=
  if typeCode message ≤ 0 ∨ typeCode message > 31 then (reader, none)
  else
    let hex := hexText message
    let reader := pruneAircraftStates clock.handled reader
    let state := (reader.aircraft.get? hex).getD { hex := hex }
    let (state, line) :=
      applyMessage trig clock message { state with lastSeenMs := clock.handled }
    ({ reader with aircraft := reader.aircraft.put hex state }, line)

end AdsbBridge.Legacy
