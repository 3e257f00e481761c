import AdsbBridge.Cpr.Encode
import AdsbBridge.Legacy.Aircraft
import AdsbBridge.Native.Aircraft

/-! # The decoders' states, filled by the encoder

Both decoders put the four words of an even and an odd report into an
aircraft's state and decode from there. -/
namespace AdsbBridge.Cpr

/-- The report of a true position, as a state keeps it: both words modulo `2^17`. -/
noncomputable def encodedFrame (odd : Bool) (lat lon : ℝ) (ms : ℤ) : CprFrame :=
  ⟨latWord odd lat % 131072, lonWord odd lat lon % 131072, ms⟩

/-- A decoded position within half a step of the true one, in the zoning of a parity. -/
def WithinHalfStep (odd : Bool) (lat lon : ℝ) (p : ℚ × ℚ) : Prop :=
  |(p.1 : ℝ) - lat| ≤ (zoneHeight odd / 2 ^ 18 : ℚ) ∧
    ∃ k : ℤ, |(p.2 : ℝ) - lon - (360 * k : ℤ)| ≤ (zoneWidth odd lat / 2 ^ 18 : ℚ)

theorem decodePair_encode {lat : ℝ} (lon : ℝ) (hl : -90 ≤ lat) (hu : lat ≤ 90)
    (hband : cprNl (recoveredLat false lat) = cprNl (recoveredLat true lat))
    {evenMs oddMs : ℤ} (hms : |evenMs - oddMs| ≤ 10000) :
    ∃ p, decodePair globalPosition (some (encodedFrame false lat lon evenMs))
        (some (encodedFrame true lat lon oddMs)) = some p ∧
      WithinHalfStep (oddMs > evenMs) lat lon p := by
  obtain ⟨la, lo, hp, hla, hlo⟩ := globalPosition_encode lon hl hu hband (oddMs > evenMs)
  refine ⟨(la, lo), (if_neg (not_lt.mpr hms)).trans hp, ?_, ?_⟩
  · exact_mod_cast hla
  · obtain ⟨k, hk⟩ := hlo
    exact ⟨k, by exact_mod_cast hk⟩

/-- **The round trip through the decoders.** For a true position whose two
reports fall into one latitude band and reach a state at most ten seconds
apart, `decode_global_position` and `decodeGlobalPosition` both succeed, and
what they store lies within half a step of the position. -/
theorem decodeGlobalPosition_encode {lat : ℝ} (lon : ℝ) (hl : -90 ≤ lat) (hu : lat ≤ 90)
    (hband : cprNl (recoveredLat false lat) = cprNl (recoveredLat true lat))
    {evenMs oddMs : ℤ} (hms : |evenMs - oddMs| ≤ 10000) :
    (∀ state : Native.AircraftState,
      state.even = some (encodedFrame false lat lon evenMs) →
      state.odd = some (encodedFrame true lat lon oddMs) →
      ∃ p, Native.decodeGlobalPosition state = some (state.setPosition p) ∧
        WithinHalfStep (oddMs > evenMs) lat lon p) ∧
    (∀ state : Legacy.AircraftState,
      state.even = some (encodedFrame false lat lon evenMs) →
      state.odd = some (encodedFrame true lat lon oddMs) →
      ∃ p, Legacy.decodeGlobalPosition state = some (state.setPosition p) ∧
        WithinHalfStep (oddMs > evenMs) lat lon p) := by
  obtain ⟨p, hp, herr⟩ := decodePair_encode lon hl hu hband hms
  constructor
  · intro state heven hodd
    refine ⟨p, ?_, herr⟩
    rw [Native.decodeGlobalPosition, heven, hodd, hp]; rfl
  · intro state heven hodd
    refine ⟨p, ?_, herr⟩
    rw [Legacy.decodeGlobalPosition, heven, hodd, hp]; rfl

/-- Eight zones north of the equator the two parities recover two latitudes. -/
theorem recoveredLat_north (odd : Bool) : recoveredLat odd 52.2572 =
    if odd then 360 / 59 * (73974 / 2 ^ 17 + 8) else 6 * (93000 / 2 ^ 17 + 8) := by
  cases odd <;> norm_num [recoveredLat, latWord, encodeWord, zoneHeight, parity]

theorem cprNl_north (odd : Bool) : cprNl (recoveredLat odd 52.2572) = 36 := by
  rw [recoveredLat_north]
  cases odd <;> decide +kernel

theorem encodedFrame_north (odd : Bool) (ms : ℤ) : encodedFrame odd 52.2572 14.91937 ms =
    if odd then ⟨73974, 59047, ms⟩ else ⟨93000, 64479, ms⟩ := by
  unfold encodedFrame
  simp only [lonWord, zoneWidth, cprNl_north]
  cases odd <;> norm_num [latWord, encodeWord, zoneHeight, parity]

/-- The two reports of a position in the second longitude zone, the odd one a second newer. -/
def northNative : Native.AircraftState where
  even := some ⟨93000, 64479, 1000⟩
  odd := some ⟨73974, 59047, 2000⟩

/-- The same two in the Java reader. -/
def northLegacy : Legacy.AircraftState where
  hex := "4840D6".toList
  even := some ⟨93000, 64479, 1000⟩
  odd := some ⟨73974, 59047, 2000⟩

theorem decodeGlobalPosition_encode_north :
    (∃ p, Native.decodeGlobalPosition northNative = some (northNative.setPosition p) ∧
      WithinHalfStep true 52.2572 14.91937 p) ∧
    ∃ p, Legacy.decodeGlobalPosition northLegacy = some (northLegacy.setPosition p) ∧
      WithinHalfStep true 52.2572 14.91937 p := by
  have hband : cprNl (recoveredLat false 52.2572) = cprNl (recoveredLat true 52.2572) := by
    rw [cprNl_north, cprNl_north]
  have hms : |(1000 : ℤ) - 2000| ≤ 10000 := by decide
  have heven : some ⟨93000, 64479, 1000⟩ = some (encodedFrame false 52.2572 14.91937 1000) := by
    rw [encodedFrame_north]
    rfl
  have hodd : some ⟨73974, 59047, 2000⟩ = some (encodedFrame true 52.2572 14.91937 2000) := by
    rw [encodedFrame_north]
    rfl
  obtain ⟨hnative, hlegacy⟩ :=
    decodeGlobalPosition_encode 14.91937 (by norm_num) (by norm_num) hband hms
  exact ⟨hnative northNative heven hodd, hlegacy northLegacy heven hodd⟩

end AdsbBridge.Cpr
