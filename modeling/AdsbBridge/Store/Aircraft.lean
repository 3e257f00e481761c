import AdsbBridge.Lib.LinkedMap
import AdsbBridge.Store.Parse

/-! # The aircraft store

`BridgeAircraftStore`: merging lines into aircraft, pruning, and the feed. The
five functions of the platform behind the distance of two positions are a
parameter. -/
namespace AdsbBridge.Store
open AdsbBridge.Lib

/-! ## Clock readings -/

/-- How two clock readings are subtracted. -/
class LongSub where
  minus : ℤ → ℤ → ℤ
  minus_self : ∀ a, minus a a = 0

export LongSub (minus)

/-- As long as the difference stays within a `long`; this is what is meant
where nothing else is said. -/
instance exactSub : LongSub := ⟨fun a b => a - b, Int.sub_self⟩

theorem bmod_sub_self (a : ℤ) : (a - a).bmod (2 ^ 64) = 0 := by
  rw [Int.sub_self, Int.zero_bmod]

/-- `-` on `long`s, modulo `2 ^ 64`. -/
@[reducible] def wrappingSub : LongSub := ⟨fun a b => (a - b).bmod (2 ^ 64), bmod_sub_self⟩

@[simp] theorem minus_exactSub (a b : ℤ) : minus a b = a - b := rfl

section Model

variable [LongSub]

def positionHoldMs : ℤ := 45000
def aircraftTtlMs : ℤ := 60000
def verticalRateHoldMs : ℤ := 15000
def jumpGraceKm : ℚ := 35 / 100
def jumpSpeedFactor : ℚ := 28 / 10

/-- `Math.toRadians`, `sin`, `cos`, `sqrt` and `atan2`. -/
structure Geo where
  toRadians : ℚ → ℚ
  sin : ℚ → ℚ
  cos : ℚ → ℚ
  sqrt : ℚ → ℚ
  atan2 : ℚ → ℚ → ℚ

/-- For runs in which the store compares no positions. -/
def noGeo : Geo := ⟨fun _ => 0, fun _ => 0, fun _ => 0, fun _ => 0, fun _ _ => 0⟩

structure Aircraft where
  hex : Text
  flight : Option Text := none
  category : Option Text := none
  lat : Option JavaDouble := none
  lon : Option JavaDouble := none
  altitudeFt : Option Int32 := none
  groundSpeedKt : Option JavaDouble := none
  trackDeg : Option JavaDouble := none
  verticalRateFpm : Option JavaDouble := none
  verticalRateReference : Option Text := none
  lastMessageTimeMs : ℤ := 0
  lastPositionTimeMs : ℤ := 0
  lastVerticalRateTimeMs : ℤ := 0
  messageCount : Int32 := 0
  deriving DecidableEq, Repr

structure BridgeAircraftStore where
  aircraftByHex : LinkedMap Text Aircraft := ∅
  totalMessages : ℤ := 0
  totalPositions : ℤ := 0
  rejectedJumps : ℤ := 0
  lastMessageMs : ℤ := 0
  lastPositionMs : ℤ := 0

/-! ## Numbers -/

/-- `(nowMs - thenMs) / 1000.0`, not below zero. -/
def secondsSince (nowMs thenMs : ℤ) : ℚ := max 0 (minus nowMs thenMs / 1000)

/-- `Math.round`. -/
def mathRound (x : ℚ) : ℤ := ⌊x + 1 / 2⌋

def roundSeconds (value : ℚ) : ℚ := mathRound (value * 10) / 10

/-- `Math.round` makes a `long` of every `double`. -/
def roundCoordinate : JavaDouble → ℚ
  | .finite x => mathRound (x * 100000) / 100000
  | .infinite negative => (if negative then -2 ^ 63 else 2 ^ 63 - 1) / 100000
  | .nan => 0

/-! ## Positions -/

/-- `isValidPosition`; what is not finite fails the comparisons. -/
def isValidPosition : JavaDouble → JavaDouble → Bool
  | .finite lat, .finite lon =>
    -90 ≤ lat ∧ lat ≤ 90 ∧ -180 ≤ lon ∧ lon ≤ 180 ∧
      ¬ (|lat| < 1 / 1000000 ∧ |lon| < 1 / 1000000)
  | _, _ => false

def distanceKm (geo : Geo) (lat1 lon1 lat2 lon2 : ℚ) : ℚ :=
  let earthRadiusKm := 6371
  let dLat := geo.toRadians (lat2 - lat1)
  let dLon := geo.toRadians (lon2 - lon1)
  let rLat1 := geo.toRadians lat1
  let rLat2 := geo.toRadians lat2
  let sinLat := geo.sin (dLat / 2)
  let sinLon := geo.sin (dLon / 2)
  let a := sinLat * sinLat + geo.cos rLat1 * geo.cos rLat2 * sinLon * sinLon
  let c := 2 * geo.atan2 (geo.sqrt a) (geo.sqrt (1 - a))
  earthRadiusKm * c

/-- `jumpKm <= allowedKm`, the speed being the only operand that may not be
finite. -/
def withinAllowed (jumpKm elapsedSec : ℚ) : JavaDouble → Bool
  | .finite groundSpeedKt =>
    jumpKm ≤ jumpGraceKm + groundSpeedKt * (1852 / 1000) * jumpSpeedFactor * (elapsedSec / 3600)
  | .infinite negative => !negative
  | .nan => false

/-- `isReasonablePositionUpdate`. A distance to or from what is not finite is
`NaN`, and smaller than nothing. -/
def isReasonablePositionUpdate (geo : Geo) (aircraft : Aircraft) (lat lon : JavaDouble)
    (nowMs : ℤ) : Bool :=
  match aircraft.lat, aircraft.lon with
  | some lat1, some lon1 =>
    if aircraft.lastPositionTimeMs ≤ 0 then true
    else
      match lat1, lon1, lat, lon with
      | .finite lat1, .finite lon1, .finite lat2, .finite lon2 =>
        let jumpKm := distanceKm geo lat1 lon1 lat2 lon2
        if jumpKm ≤ jumpGraceKm then true
        else
          let elapsedSec := max 1 ((minus nowMs aircraft.lastPositionTimeMs : ℚ) / 1000)
          withinAllowed jumpKm elapsedSec (aircraft.groundSpeedKt.getD (.finite 90))
      | _, _, _, _ => false
  | _, _ => true

/-! ## Merging -/

/-- The fields of a line other than the position. -/
def Aircraft.mergeFields (update : SbsUpdate) (nowMs : ℤ) (aircraft : Aircraft) : Aircraft :=
  let aircraft := { aircraft with
    lastMessageTimeMs := nowMs
    messageCount := aircraft.messageCount + 1
    flight := update.flight.or aircraft.flight
    category := update.category.or aircraft.category
    altitudeFt := update.altitudeFt.or aircraft.altitudeFt
    groundSpeedKt := update.groundSpeedKt.or aircraft.groundSpeedKt
    trackDeg := update.trackDeg.or aircraft.trackDeg }
  match update.verticalRateFpm with
  | some rate => { aircraft with
      verticalRateFpm := some rate
      verticalRateReference := update.verticalRateReference
      lastVerticalRateTimeMs := nowMs }
  | none => aircraft

/-- What a line's position does: nothing, a new position, or a rejected jump. -/
inductive PositionVerdict
  | absent
  | accepted (lat lon : JavaDouble)
  | rejected
  deriving DecidableEq, Repr

def positionVerdict (geo : Geo) (update : SbsUpdate) (nowMs : ℤ) (aircraft : Aircraft) :
    PositionVerdict :=
  match update.lat, update.lon with
  | some lat, some lon =>
    if isValidPosition lat lon then
      if isReasonablePositionUpdate geo aircraft lat lon nowMs then .accepted lat lon
      else .rejected
    else .absent
  | _, _ => .absent

def Aircraft.mergePosition (nowMs : ℤ) (aircraft : Aircraft) : PositionVerdict → Aircraft
  | .accepted lat lon =>
    { aircraft with lat := some lat, lon := some lon, lastPositionTimeMs := nowMs }
  | _ => aircraft

def Aircraft.isRecent (nowMs : ℤ) (aircraft : Aircraft) : Bool :=
  minus nowMs aircraft.lastMessageTimeMs ≤ aircraftTtlMs

namespace BridgeAircraftStore

def prune (store : BridgeAircraftStore) (nowMs : ℤ) : BridgeAircraftStore :=
  { store with aircraftByHex := store.aircraftByHex.filter fun _ aircraft => aircraft.isRecent nowMs }

def clear (_store : BridgeAircraftStore) : BridgeAircraftStore := {}

def count (nowMs : ℤ) (verdict : PositionVerdict) (store : BridgeAircraftStore) :
    BridgeAircraftStore :=
  let store := { store with totalMessages := store.totalMessages + 1, lastMessageMs := nowMs }
  match verdict with
  | .accepted _ _ =>
    { store with totalPositions := store.totalPositions + 1, lastPositionMs := nowMs }
  | .rejected => { store with rejectedJumps := store.rejectedJumps + 1 }
  | .absent => store

/-- `mergeSbsLine` once the line is read. -/
def mergeUpdate (geo : Geo) (store : BridgeAircraftStore) (update : SbsUpdate) (nowMs : ℤ) :
    BridgeAircraftStore :=
  let aircraft := (store.aircraftByHex.get? update.hex).getD { hex := update.hex }
  let aircraft := aircraft.mergeFields update nowMs
  let verdict := positionVerdict geo update nowMs aircraft
  let store := { store.count nowMs verdict with
    aircraftByHex :=
      store.aircraftByHex.put update.hex (aircraft.mergePosition nowMs verdict) }
  store.prune nowMs

def mergeSbsLine [UpperCase] (geo : Geo) (store : BridgeAircraftStore) (line : Text) (nowMs : ℤ) :
    BridgeAircraftStore :=
  match SbsUpdate.parse line with
  | some update => store.mergeUpdate geo update nowMs
  | none => store

def recentAircraftCount (store : BridgeAircraftStore) (nowMs : ℤ) : BridgeAircraftStore × ℕ :=
  let store := store.prune nowMs
  (store, store.aircraftByHex.size)

end BridgeAircraftStore

/-! ## The feed -/

inductive JsonValue
  | text (t : Text)
  | number (x : JavaDouble)
  deriving DecidableEq, Repr

/-- `JSONObject.put` throws for a number that is not finite. -/
def JsonValue.putThrows : JsonValue → Bool
  | .text _ => false
  | .number x => !x.isFinite

/-- A `JSONObject`: its keys with their values, as they were put. -/
abbrev Item := List (String × JsonValue)

/-- The integers and the computed numbers of the feed. -/
def exact (x : ℚ) : JsonValue := .number (.finite x)

def putSome {α : Type} (key : String) (value : α → JsonValue) : Option α → Item
  | some a => [(key, value a)]
  | none => []

def putText (key : String) (value : Option Text) : Item :=
  putSome key .text (value.filter fun t => !t.isEmpty)

def rateKey (reference : Option Text) : String :=
  if reference = some "BARO".toList then "baro_rate"
  else if reference = some "GEOM".toList then "geom_rate"
  else "vert_rate"

/-- The vertical rate, as long as it is held. -/
def rateItem (nowMs : ℤ) (aircraft : Aircraft) : Item :=
  match aircraft.verticalRateFpm with
  | some rate =>
    if minus nowMs aircraft.lastVerticalRateTimeMs ≤ verticalRateHoldMs then
      [(rateKey aircraft.verticalRateReference, .number rate),
        ("seen_rate", exact (roundSeconds (secondsSince nowMs aircraft.lastVerticalRateTimeMs)))]
    else []
  | none => []

/-- The position, as long as it is held, and its age. -/
def positionItem (nowMs : ℤ) (aircraft : Aircraft) : Item :=
  if aircraft.lastPositionTimeMs > 0 then
    let seenPosSec := secondsSince nowMs aircraft.lastPositionTimeMs
    ("seen_pos", exact (roundSeconds seenPosSec)) ::
      (if seenPosSec ≤ positionHoldMs / 1000 then
        match aircraft.lat, aircraft.lon with
        | some lat, some lon =>
          [("lat", exact (roundCoordinate lat)), ("lon", exact (roundCoordinate lon))]
        | _, _ => []
      else [])
  else []

/-- What `toAircraftJson` puts into the object of an aircraft, in this order. -/
def itemPuts (nowMs : ℤ) (aircraft : Aircraft) : Item :=
  [("hex", .text aircraft.hex)] ++
    putText "flight" aircraft.flight ++
    putText "category" aircraft.category ++
    putSome "alt_baro" (fun altitude => exact altitude.toInt) aircraft.altitudeFt ++
    putSome "gs" .number aircraft.groundSpeedKt ++
    putSome "track" .number aircraft.trackDeg ++
    rateItem nowMs aircraft ++
    [("seen", exact (roundSeconds (secondsSince nowMs aircraft.lastMessageTimeMs))),
      ("messages", exact aircraft.messageCount.toInt)] ++
    positionItem nowMs aircraft

def putsThrow (nowMs : ℤ) (aircraft : Aircraft) : Bool :=
  (itemPuts nowMs aircraft).any fun entry => entry.2.putThrows

/-- The root object of the feed; `none` is `JSONObject.NULL`. -/
structure Feed where
  now : ℚ
  total : ℕ
  messages : ℤ
  positions : ℤ
  rejectedJumps : ℤ
  lastMessageSeen : Option ℚ
  lastPositionSeen : Option ℚ
  aircraft : List Item

inductive AircraftJson
  | feed (root : Feed)
  /-- the `catch` branch -/
  | fallback (now : ℚ)

/-- The objects of the feed; the fallback has none. -/
def AircraftJson.items : AircraftJson → List Item
  | .feed root => root.aircraft
  | .fallback _ => []

def seenOrNull (nowMs lastMs : ℤ) : Option ℚ :=
  if lastMs > 0 then some (roundSeconds (secondsSince nowMs lastMs)) else none

def BridgeAircraftStore.toAircraftJson (store : BridgeAircraftStore) (nowMs : ℤ) :
    BridgeAircraftStore × AircraftJson :=
  let store := store.prune nowMs
  let values := store.aircraftByHex.entries.map Prod.snd
  if values.any (putsThrow nowMs) then (store, .fallback (nowMs / 1000))
  else
    (store, .feed {
      now := nowMs / 1000
      total := values.length
      messages := store.totalMessages
      positions := store.totalPositions
      rejectedJumps := store.rejectedJumps
      lastMessageSeen := seenOrNull nowMs store.lastMessageMs
      lastPositionSeen := seenOrNull nowMs store.lastPositionMs
      aircraft := values.map (itemPuts nowMs) })

end Model

end AdsbBridge.Store
