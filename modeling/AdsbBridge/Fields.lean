import Mathlib.Data.Rat.Floor
import AdsbBridge.Frame
import AdsbBridge.Lib.Text

/-! # What an extended squitter carries

The field decoders that `native_modes_decoder.cpp` and `RtlTcpAdsbReader.java`
have in common. Square root and arc tangent are the two functions of the
platform they use; they are a parameter. A C++ or Java `int` that ends up in
an output line is an `Int32`. -/
namespace AdsbBridge.Fields
open AdsbBridge.Lib AdsbBridge.Frame

/-- `sqrt`, and `atan2` turned into degrees. -/
structure Trig where
  sqrt : ℚ → ℚ
  atan2Degrees : ℚ → ℚ → ℚ

def typeCode (message : Message) : ℕ := getBits message 32 5

/-- The address in bytes 1 to 3. -/
def icaoAddress (message : Message) : ℕ :=
  ((message.byte 1).toNat <<< 16) ||| ((message.byte 2).toNat <<< 8) ||| (message.byte 3).toNat

def callsignTable : List Char :=
  "#ABCDEFGHIJKLMNOPQRSTUVWXYZ#####_###############0123456789######".toList

/-- The characters of a callsign, `#` and `_` left out. -/
def callsignChars (message : Message) : Text :=
  ((List.range 8).map fun i => callsignTable.getD (getBits message (40 + i * 6) 6) ' ').filter
    fun c => c ≠ '#' && c ≠ '_'

/-- `while (!callsign.empty() && callsign.back() == ' ') callsign.pop_back()`. -/
def dropTrailingBlanks (t : Text) : Text := (t.reverse.dropWhile (· = ' ')).reverse

def decodeAltitudeFt (code : ℕ) : Option Int32 :=
  if code = 0 then none
  else if (code >>> 4) &&& 1 = 0 then none
  else
    let n : ℤ := (((code &&& 0x0fe0) >>> 1) ||| (code &&& 0x000f) : ℕ)
    some (Int32.ofInt (n * 25 - 1000))

/-- The east and north components `decode_velocity` computes, when it does not
return early. -/
def velocityComponents (message : Message) : Option (ℤ × ℤ) :=
  let subtype := getBits message 37 3
  if subtype ≠ 1 ∧ subtype ≠ 2 then none
  else
    let ewSign := getBits message 45 1
    let ewVelocity : ℤ := getBits message 46 10 - 1
    let nsSign := getBits message 56 1
    let nsVelocity : ℤ := getBits message 57 10 - 1
    if ewVelocity < 0 ∨ nsVelocity < 0 then none
    else some (if ewSign = 1 then -ewVelocity else ewVelocity,
      if nsSign = 1 then -nsVelocity else nsVelocity)

def speedKt (trig : Trig) (round : ℚ → ℤ) (east north : ℤ) : Int32 :=
  Int32.ofInt (round (trig.sqrt (east * east + north * north)))

def trackDeg (trig : Trig) (round : ℚ → ℤ) (east north : ℤ) : Int32 :=
  let track := trig.atan2Degrees east north
  let track := if track < 0 then track + 360 else track
  Int32.ofInt ((round track).tmod 360)

/-! ## Position reports -/

/-- The parity bit of an airborne position. -/
def isOdd (message : Message) : Bool := getBits message 53 1 == 1

def cprLatWord (message : Message) : ℤ := getBits message 54 17
def cprLonWord (message : Message) : ℤ := getBits message 71 17

/-! ## The alphabet of callsigns -/

/-- Capital letters and digits. -/
def isPlainCallsignChar (c : Char) : Bool := c.isUpper || c.isDigit

/-- What the readsb decoder lets through besides these. -/
def isCallsignChar (c : Char) : Bool :=
  isPlainCallsignChar c || c == '-' || c == '.' || c == '/' || c == ' ' || c == '@'

/-- The only blank of the alphabet is the space. -/
theorem isCallsignChar_blank {c : Char} (h : isCallsignChar c) : c ≤ ' ' ↔ c = ' ' := by
  constructor
  · rintro (hle : c.val ≤ 32)
    have hupper : c.isUpper = decide (c.val ≥ 'A'.val ∧ c.val ≤ 'Z'.val) := rfl
    have hdigit : c.isDigit = (c.val ≥ '0'.val && c.val ≤ '9'.val) := rfl
    simp only [isCallsignChar, isPlainCallsignChar, hupper, hdigit, Bool.or_eq_true,
      Bool.and_eq_true, decide_eq_true_eq, beq_iff_eq] at h
    rcases h with (((((⟨hu, -⟩ | ⟨hd, -⟩) | rfl) | rfl) | rfl) | rfl) | rfl
    · exact absurd (UInt32.le_trans hu hle) (by decide)
    · exact absurd (UInt32.le_trans hd hle) (by decide)
    · exact absurd hle (by decide)
    · exact absurd hle (by decide)
    · exact absurd hle (by decide)
    · rfl
    · exact absurd hle (by decide)
  · rintro rfl
    exact Char.le_refl ' '

theorem isCallsignChar_of_plain {c : Char} (h : isPlainCallsignChar c) : isCallsignChar c := by
  simp [isCallsignChar, h]

theorem callsignTable_plain {c : Char} (hmem : c ∈ ' ' :: callsignTable) (hnumber : c ≠ '#')
    (hblank : c ≠ '_') : isPlainCallsignChar c ∨ c = ' ' := by
  have hall : ((' ' :: callsignTable).all fun c =>
      c == '#' || c == '_' || isPlainCallsignChar c || c == ' ') = true := by decide
  have hc := List.all_eq_true.1 hall c hmem
  simpa [hnumber, hblank] using hc

theorem callsignChars_over (message : Message) :
    Text.Over isCallsignChar (callsignChars message) := by
  intro c hc
  obtain ⟨hm, hf⟩ := List.mem_filter.mp hc
  obtain ⟨i, -, rfl⟩ := List.mem_map.mp hm
  have hmem : callsignTable.getD (getBits message (40 + i * 6) 6) ' ' ∈ ' ' :: callsignTable := by
    rw [List.getD_eq_getElem?_getD]
    cases hg : callsignTable[getBits message (40 + i * 6) 6]? with
    | none => simp
    | some d => exact List.mem_cons_of_mem _ (by simpa using List.mem_of_getElem? hg)
  simp only [Bool.and_eq_true, decide_eq_true_eq] at hf
  rcases callsignTable_plain hmem hf.1 hf.2 with h | h
  · exact isCallsignChar_of_plain h
  · rw [h]; decide

theorem dropTrailingBlanks_over {p : Char → Bool} {t : Text} (h : Text.Over p t) :
    Text.Over p (dropTrailingBlanks t) := by
  intro c hc
  refine h c ?_
  rw [dropTrailingBlanks, List.mem_reverse] at hc
  exact List.mem_reverse.mp ((List.dropWhile_sublist _).subset hc)

end AdsbBridge.Fields

/-- For runs without velocities. -/
def AdsbBridge.noTrig : AdsbBridge.Fields.Trig := ⟨fun _ => 0, fun _ _ => 0⟩
