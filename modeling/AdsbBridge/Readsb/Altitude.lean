import Mathlib.Data.Int.Notation
import Mathlib.Data.Nat.Notation

/-! # Altitude codes

`decodeID13Field`, `decodeAC13Field` and `decodeAC12Field` of `mode_s.c` and
the Gillham tables of `mode_ac.c` behind them. -/
namespace AdsbBridge.Readsb

def invalidAltitude : ℤ := -9999

inductive AltitudeUnit
  | feet
  | meters
  deriving DecidableEq, Repr

/-- `if (value & mask) {...}`, the way the bit shufflers use it. -/
def whenBit (value mask bits : ℕ) : ℕ := if value &&& mask ≠ 0 then bits else 0

def decodeID13Field (id13Field : ℕ) : ℕ :=
  whenBit id13Field 0x1000 0x0010 ||| whenBit id13Field 0x0800 0x1000 |||
  whenBit id13Field 0x0400 0x0020 ||| whenBit id13Field 0x0200 0x2000 |||
  whenBit id13Field 0x0100 0x0040 ||| whenBit id13Field 0x0080 0x4000 |||
  whenBit id13Field 0x0020 0x0100 ||| whenBit id13Field 0x0010 0x0001 |||
  whenBit id13Field 0x0008 0x0200 ||| whenBit id13Field 0x0004 0x0002 |||
  whenBit id13Field 0x0002 0x0400 ||| whenBit id13Field 0x0001 0x0004

def internalModeAToModeC (modeA : ℕ) : ℤ :=
  if modeA &&& 0xffff8889 ≠ 0 ∨ modeA &&& 0x000000f0 = 0 then invalidAltitude
  else
    let oneHundreds := whenBit modeA 0x0010 0x007 ^^^ whenBit modeA 0x0020 0x003 ^^^
      whenBit modeA 0x0040 0x001
    let oneHundreds := if oneHundreds &&& 5 = 5 then oneHundreds ^^^ 2 else oneHundreds
    if oneHundreds > 5 then invalidAltitude
    else
      let fiveHundreds := whenBit modeA 0x0002 0x0ff ^^^ whenBit modeA 0x0004 0x07f ^^^
        whenBit modeA 0x1000 0x03f ^^^ whenBit modeA 0x2000 0x01f ^^^
        whenBit modeA 0x4000 0x00f ^^^ whenBit modeA 0x0100 0x007 ^^^
        whenBit modeA 0x0200 0x003 ^^^ whenBit modeA 0x0400 0x001
      let oneHundreds := if fiveHundreds &&& 1 ≠ 0 then 6 - oneHundreds else oneHundreds
      (fiveHundreds * 5 + oneHundreds : ℕ) - 13

def modeAToIndex (modeA : ℕ) : ℕ :=
  (modeA &&& 0x0007) ||| ((modeA &&& 0x0070) >>> 1) ||| ((modeA &&& 0x0700) >>> 2) |||
    ((modeA &&& 0x7000) >>> 3)

def indexToModeA (index : ℕ) : ℕ :=
  (index &&& 0o0007) ||| ((index &&& 0o0070) <<< 1) ||| ((index &&& 0o0700) <<< 2) |||
    ((index &&& 0o7000) <<< 3)

/-- `modeAToModeC`, with the entry of the table that `modeACInit` writes. -/
def modeAToModeC (modeA : ℕ) : ℤ :=
  let i := modeAToIndex modeA
  if i ≥ 4096 then invalidAltitude else internalModeAToModeC (indexToModeA i)

/-- The end of both altitude decoders when the Q bit is clear. -/
def gillhamAltitude (id13Field : ℕ) : ℤ :=
  let n := modeAToModeC (decodeID13Field id13Field)
  if n < -12 then invalidAltitude else 100 * n

def decodeAC13Field (ac13Field : ℕ) : ℤ × AltitudeUnit :=
  if ac13Field &&& 0x0040 = 0 then
    if ac13Field &&& 0x0010 ≠ 0 then
      let n := ((ac13Field &&& 0x1f80) >>> 2) ||| ((ac13Field &&& 0x0020) >>> 1) |||
        (ac13Field &&& 0x000f)
      ((n : ℤ) * 25 - 1000, .feet)
    else (gillhamAltitude ac13Field, .feet)
  else (invalidAltitude, .meters)

def decodeAC12Field (ac12Field : ℕ) : ℤ × AltitudeUnit :=
  if ac12Field &&& 0x10 ≠ 0 then
    let n := ((ac12Field &&& 0x0fe0) >>> 1) ||| (ac12Field &&& 0x000f)
    ((n : ℤ) * 25 - 1000, .feet)
  else
    (gillhamAltitude (((ac12Field &&& 0x0fc0) <<< 1) ||| (ac12Field &&& 0x003f)), .feet)

/-- The altitude the message carries, if the decoder found it valid. -/
def validAltitude (decoded : ℤ × AltitudeUnit) : Option (ℤ × AltitudeUnit) :=
  if decoded.1 ≠ invalidAltitude then some decoded else none

end AdsbBridge.Readsb
