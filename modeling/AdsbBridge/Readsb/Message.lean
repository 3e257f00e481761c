import AdsbBridge.Fields

/-! # What the readsb adapter hands over

`ReadsbBridgeMessage`, as `fill_bridge_message` fills it. A flag `has_x` with
its values is an `Option`. The decoders behind the adapter set
`callsign_valid` for eight characters of one alphabet only, so a callsign
carries that alphabet with it. -/
namespace AdsbBridge.Readsb
open AdsbBridge.Lib AdsbBridge.Fields

/-- A callsign that passed the readsb decoders' test of its characters. -/
structure Callsign where
  text : Text
  plain : Text.Over isCallsignChar text

structure CprReport where
  odd : Bool
  lat : Int32
  lon : Int32
  deriving DecidableEq, Repr

structure ReadsbBridgeMessage where
  addr : UInt32
  callsign : Option Callsign := none
  category : Option Int32 := none
  altitudeFt : Option Int32 := none
  /-- `speed_kt` and `track_deg`. -/
  velocity : Option (Int32 × Int32) := none
  /-- `vertical_rate_fpm` and `vertical_rate_is_baro`. -/
  verticalRate : Option (Int32 × Bool) := none
  cpr : Option CprReport := none

/-- A category byte as `decodeESIdentAndCategory` makes it of the type code and
the category bits of an identification message. -/
def IsCategory (category : Int32) : Prop :=
  ∃ metype mesub, 1 ≤ metype ∧ metype ≤ 4 ∧ mesub ≤ 7 ∧
    category = Int32.ofNat ((((0x0e - metype) <<< 4) ||| mesub) &&& 0xff)

end AdsbBridge.Readsb
