import Mathlib.Data.Rat.Floor
import Mathlib.Tactic.Linarith
import Mathlib.Tactic.NormNum

/-! # Compact position reports: the decoders' arithmetic

`pos_mod`, `cpr_nl` and the body of `decode_global_position` are the same in
`native_modes_decoder.cpp` and `RtlTcpAdsbReader.java`; they are written once
here and the two decoders apply them to their own state records. The readsb
routine `decodeCPRairborne` is written differently and keeps its own body.
A `double` is an exact rational. -/
namespace AdsbBridge.Cpr

/-- `pos_mod` (C++), `mod` (Java), `cprModInt` (readsb): the truncated
remainder, moved up into `[0, divisor)`. -/
def posMod (value divisor : ℤ) : ℤ :=
  let result := value.tmod divisor
  if result < 0 then result + divisor else result

theorem posMod_eq_emod {value divisor : ℤ} (h : 0 < divisor) :
    posMod value divisor = value % divisor := by
  have hb := Int.emod_nonneg value (show divisor ≠ 0 by omega)
  have hl := Int.emod_lt_of_pos value h
  simp only [posMod, Int.tmod_eq_emod]
  split_ifs <;> omega

/-- The rows `if (a < bound) return nl` of `cpr_nl`, in order. -/
def nlBands : List (ℚ × ℤ) :=
  [(10.47047130, 59), (14.82817437, 58), (18.18626357, 57), (21.02939493, 56), (23.54504487, 55),
    (25.82924707, 54), (27.93898710, 53), (29.91135686, 52), (31.77209708, 51), (33.53993436, 50),
    (35.22899598, 49), (36.85025108, 48), (38.41241892, 47), (39.92256684, 46), (41.38651832, 45),
    (42.80914012, 44), (44.19454951, 43), (45.54626723, 42), (46.86733252, 41), (48.16039128, 40),
    (49.42776439, 39), (50.67150166, 38), (51.89342469, 37), (53.09516153, 36), (54.27817472, 35),
    (55.44378444, 34), (56.59318756, 33), (57.72747354, 32), (58.84763776, 31), (59.95459277, 30),
    (61.04917774, 29), (62.13216659, 28), (63.20427479, 27), (64.26616523, 26), (65.31845310, 25),
    (66.36171008, 24), (67.39646774, 23), (68.42322022, 22), (69.44242631, 21), (70.45451075, 20),
    (71.45986473, 19), (72.45884545, 18), (73.45177442, 17), (74.43893416, 16), (75.42056257, 15),
    (76.39684391, 14), (77.36789461, 13), (78.33374083, 12), (79.29428225, 11), (80.24923213, 10),
    (81.19801349, 9), (82.13956981, 8), (83.07199445, 7), (83.99173563, 6), (84.89166191, 5),
    (85.75541621, 4), (86.53536998, 3), (87.00000000, 2)]

/-- The first row whose bound exceeds `a`; past the last row there is one zone. -/
def bandOf : List (ℚ × ℤ) → ℚ → ℤ
  | [], _ => 1
  | (bound, nl) :: rest, a => if a < bound then nl else bandOf rest a

/-- `cpr_nl`, `cprNl`: the number of longitude zones at a latitude. -/
def cprNl (lat : ℚ) : ℤ := bandOf nlBands |lat|

/-- `cprNLFunction` of readsb enters the same rows further down: the labels
`L60`, `L442` and `L30` skip 30, 17 and 8 of them. -/
def cprNLFunction (lat : ℚ) : ℤ :=
  let lat := if lat < 0 then -lat else lat
  if lat > 60 then bandOf (nlBands.drop 30) lat
  else if lat > 44.2 then bandOf (nlBands.drop 17) lat
  else if lat > 30 then bandOf (nlBands.drop 8) lat
  else bandOf nlBands lat

/-- `if (rlat >= 270.0) rlat -= 360.0`. -/
def foldSouth (rlat : ℚ) : ℚ := if rlat ≥ 270 then rlat - 360 else rlat

/-- The body of `decode_global_position` on the four 17-bit words of an even
and an odd report; `useOdd` says which of the two is the newer one. -/
def globalPosition (evenLatWord evenLonWord oddLatWord oddLonWord : ℤ) (useOdd : Bool) :
    Option (ℚ × ℚ) :=
  let evenLat : ℚ := evenLatWord / 131072
  let oddLat : ℚ := oddLatWord / 131072
  let j := ⌊59 * evenLat - 60 * oddLat + 1 / 2⌋
  let rlatEven := foldSouth (6 * (posMod j 60 + evenLat))
  let rlatOdd := foldSouth (360 / 59 * (posMod j 59 + oddLat))
  if cprNl rlatEven ≠ cprNl rlatOdd then none
  else
    let lat := if useOdd then rlatOdd else rlatEven
    let nl := cprNl lat - (if useOdd then 1 else 0)
    let nl := if nl < 1 then 1 else nl
    let evenLon : ℚ := evenLonWord / 131072
    let oddLon : ℚ := oddLonWord / 131072
    let m := ⌊evenLon * (cprNl lat - 1) - oddLon * cprNl lat + 1 / 2⌋
    let lon := 360 / nl * (posMod m nl + (if useOdd then oddLon else evenLon))
    some (lat, if lon > 180 then lon - 360 else lon)

def cprNFunction (lat : ℚ) (fflag : Bool) : ℤ :=
  let nl := cprNLFunction lat - (if fflag then 1 else 0)
  if nl < 1 then 1 else nl

/-- `cprDlonFunction` for airborne reports (`surface` is 0 there). -/
def cprDlonFunction (lat : ℚ) (fflag : Bool) : ℚ := 360 / cprNFunction lat fflag

/-- `decodeCPRairborne`: the position, or the source's negative return code
(`-2` a latitude out of range, `-1` two different latitude bands). -/
def decodeCPRairborne (evenCprlat evenCprlon oddCprlat oddCprlon : ℤ) (fflag : Bool) :
    Except ℤ (ℚ × ℚ) :=
  let lat0 : ℚ := evenCprlat
  let lat1 : ℚ := oddCprlat
  let lon0 : ℚ := evenCprlon
  let lon1 : ℚ := oddCprlon
  let j := ⌊(59 * lat0 - 60 * lat1) / 131072 + 1 / 2⌋
  let rlat0 := foldSouth (360 / 60 * (posMod j 60 + lat0 / 131072))
  let rlat1 := foldSouth (360 / 59 * (posMod j 59 + lat1 / 131072))
  if rlat0 < -90 ∨ rlat0 > 90 ∨ rlat1 < -90 ∨ rlat1 > 90 then .error (-2)
  else if cprNLFunction rlat0 ≠ cprNLFunction rlat1 then .error (-1)
  else
    -- both branches of `if (fflag)` differ only in the latitude and word they use
    let rlat := if fflag then rlat1 else rlat0
    let ni := cprNFunction rlat fflag
    let m := ⌊(lon0 * (cprNLFunction rlat - 1) - lon1 * cprNLFunction rlat) / 131072 + 1 / 2⌋
    let rlon := cprDlonFunction rlat fflag *
      (posMod m ni + (if fflag then lon1 else lon0) / 131072)
    .ok (rlat, rlon - ⌊(rlon + 180) / 360⌋ * 360)

/-! ## A pair of reports -/

/-- A position report as an aircraft's state keeps it: its two words and the
time it was received at. -/
structure CprFrame where
  lat : ℤ
  lon : ℤ
  ms : ℤ
  deriving DecidableEq, Repr

/-- The guard in front of both global decodes: reports of both parities, at
most ten seconds apart, and the newer one chooses the parity. -/
def decodePair (position : ℤ → ℤ → ℤ → ℤ → Bool → Option (ℚ × ℚ)) (even odd : Option CprFrame) :
    Option (ℚ × ℚ) :=
  match even, odd with
  | some even, some odd =>
    if |even.ms - odd.ms| > 10000 then none
    else position even.lat even.lon odd.lat odd.lon (odd.ms > even.ms)
  | _, _ => none

/-! ## Bounds of the band table -/

theorem bandOf_bounds {rows : List (ℚ × ℤ)} (h : ∀ row ∈ rows, 1 ≤ row.2 ∧ row.2 ≤ 59) (a : ℚ) :
    1 ≤ bandOf rows a ∧ bandOf rows a ≤ 59 := by
  induction rows with
  | nil => simp [bandOf]
  | cons row rest ih =>
    obtain ⟨bound, nl⟩ := row
    simp only [bandOf]
    split
    · exact h (bound, nl) (by simp)
    · exact ih (fun r hr => h r (by simp [hr]))

theorem cprNl_bounds (lat : ℚ) : 1 ≤ cprNl lat ∧ cprNl lat ≤ 59 :=
  bandOf_bounds (by decide) _

end AdsbBridge.Cpr
