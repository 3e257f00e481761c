import AdsbBridge.FrontEnd
import AdsbBridge.Native.Aircraft
import AdsbBridge.Readsb.Message

/-! # Handling one message

`handle_message` on the native-fast path and `handle_readsb_decoded_message`.
Both prune, look the aircraft up, bring the message into its state and return
the line of the last `to_sbs_line` call. -/
namespace AdsbBridge.Native
open AdsbBridge.Lib AdsbBridge.Fields AdsbBridge.Readsb

abbrev Table := AircraftTable ℕ AircraftState

/-- What both handlers do around a message: `prune_aircraft_states`, the entry
of the aircraft and its `last_seen_ms`. -/
def visitAircraft (timestampMs : ℤ) (hex : ℕ) (update : AircraftState → AircraftState × Text)
    (decoder : Table) : Table × Text :=
  let decoder := pruneAircraftStates timestampMs decoder
  let state := (decoder.aircraft.get? hex).getD {}
  let (state, line) := update { state with lastSeenMs := timestampMs }
  ({ decoder with aircraft := decoder.aircraft.put hex state }, line)

/-! ## Native-fast -/

def applyIdentification (clock : Clock) (message : Message) (state : AircraftState) :
    AircraftState × Text :=
  let state := { state with callsign := decodeCallsign message }
  (state, toSbsLine clock.printed (icaoAddress message) state 1 false)

def applyPosition (clock : Clock) (message : Message) (state : AircraftState) :
    AircraftState × Text :=
  let state := match decodeAltitudeFt (Frame.getBits message 40 12) with
    | some altitude => { state with altitudeFt := some altitude }
    | none => state
  let state := state.storeReport (isOdd message) (cprLatWord message) (cprLonWord message)
  match decodeGlobalPosition state with
  | some state => (state, toSbsLine clock.printed (icaoAddress message) state 3 true)
  | none => (state, [])

def applyVelocity (trig : Trig) (clock : Clock) (message : Message) (state : AircraftState) :
    AircraftState × Text :=
  let state := decodeVelocity trig message state
  (state, toSbsLine clock.printed (icaoAddress message) state 4 false)

/-- The branches of `handle_message` on the type code. -/
def applyMessage (trig : Trig) (clock : Clock) (message : Message) (state : AircraftState) :
    AircraftState × Text :=
  let typeCode := typeCode message
  if typeCode ≥ 1 ∧ typeCode ≤ 4 then applyIdentification clock message state
  else if typeCode ≥ 9 ∧ typeCode ≤ 18 then applyPosition clock message state
  else if typeCode = 19 then applyVelocity trig clock message state
  else (state, [])

/-- `handle_message` without `readsb_core`. -/
def handleMessage (trig : Trig) (clock : Clock) (message : Message) (decoder : Table) :
    Table × Text :=
  if typeCode message ≤ 0 ∨ typeCode message > 31 then (decoder, [])
  else visitAircraft clock.handled (icaoAddress message) (applyMessage trig clock message) decoder

/-! ## READSB_CORE -/

def takeCategory (decoded : ReadsbBridgeMessage) (state : AircraftState) : AircraftState :=
  match decoded.category with
  | some category => { state with category := some category }
  | none => state

def takeCallsign (nowMs : ℤ) (decoded : ReadsbBridgeMessage) (state : AircraftState) :
    AircraftState × Text :=
  match decoded.callsign with
  | some callsign =>
    let state := { state with callsign := dropTrailingBlanks callsign.text }
    (state, toSbsLine nowMs decoded.addr.toNat state 1 false)
  | none => (state, [])

def takeAltitude (decoded : ReadsbBridgeMessage) (state : AircraftState) : AircraftState :=
  match decoded.altitudeFt with
  | some altitude => { state with altitudeFt := some altitude }
  | none => state

def takeVelocity (decoded : ReadsbBridgeMessage) (state : AircraftState) : AircraftState :=
  match decoded.velocity with
  | some (speed, track) => { state with speedKt := some speed, trackDeg := some track }
  | none => state

def takeVerticalRate (decoded : ReadsbBridgeMessage) (state : AircraftState) : AircraftState :=
  match decoded.verticalRate with
  | some (fpm, isBaro) => { state with verticalRate := some ⟨fpm, isBaro, state.lastSeenMs⟩ }
  | none => state

/-- `if (decoded.has_cpr)`: the report is stored, and a position that comes out
of it replaces the line. -/
def takeCpr (nowMs : ℤ) (decoded : ReadsbBridgeMessage) (state : AircraftState) (line : Text) :
    AircraftState × Text :=
  match decoded.cpr with
  | some cpr =>
    let state := state.storeReport cpr.odd cpr.lat.toInt cpr.lon.toInt
    match decodeReadsbGlobalPosition state with
    | some state => (state, toSbsLine nowMs decoded.addr.toNat state 3 true)
    | none => (state, line)
  | none => (state, line)

/-- The body of `handle_readsb_decoded_message` on the aircraft's state. -/
def applyDecoded (nowMs : ℤ) (decoded : ReadsbBridgeMessage) (state : AircraftState) :
    AircraftState × Text :=
  let state := takeCategory decoded state
  let (state, line) := takeCallsign nowMs decoded state
  let state := takeVerticalRate decoded (takeVelocity decoded (takeAltitude decoded state))
  let line := if decoded.velocity.isSome || decoded.verticalRate.isSome then
      toSbsLine nowMs decoded.addr.toNat state 4 false
    else line
  takeCpr nowMs decoded state line

/-- `decoded.addr & 0xffffff`, the key of the aircraft's entry. -/
def aircraftKey (decoded : ReadsbBridgeMessage) : ℕ := decoded.addr.toNat % 2 ^ 24

def handleReadsbDecodedMessage (clock : Clock) (decoded : ReadsbBridgeMessage) (decoder : Table) :
    Table × Text :=
  if decoded.addr = 0 then (decoder, [])
  else visitAircraft clock.handled (aircraftKey decoded) (applyDecoded clock.printed decoded) decoder

end AdsbBridge.Native
