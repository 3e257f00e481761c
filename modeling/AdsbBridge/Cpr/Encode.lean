import AdsbBridge.Cpr.Decode
import AdsbBridge.Lib.Zones

/-! # Compact position reports: the encoder, and that decoding inverts it

The encoder below is the specification side: what a transponder at a true
position sends. `globalPosition_encode` takes its four words back through the
decoders' arithmetic. Zone recovery is `Lib.Zones.zoneIndex_eq`, used once for
latitude (60 and 59 zones) and once for longitude (as many zones as the
latitude band has, and one fewer). -/
namespace AdsbBridge.Cpr
open AdsbBridge.Lib.Zones

/-- Steps in one zone: the words have 17 bits. -/
abbrev cprSteps : ℕ := 131072

/-- 0 for an even report, 1 for an odd one. -/
def parity (odd : Bool) : ℤ := if odd then 1 else 0

/-- `⌊2^17 * (x mod size) / size + 1/2⌋`; it may round up to `2^17`. -/
noncomputable def encodeWord (size : ℚ) (x : ℝ) : ℤ :=
  ⌊((2 ^ 17 : ℕ) : ℝ) * (x - size * ⌊x / size⌋) / size + (1 / 2 : ℚ)⌋

def zoneHeight (odd : Bool) : ℚ := 360 / (60 - parity odd : ℤ)

noncomputable def latWord (odd : Bool) (lat : ℝ) : ℤ := encodeWord (zoneHeight odd) lat

/-- The latitude a receiver can recover from the word and the zone. -/
noncomputable def recoveredLat (odd : Bool) (lat : ℝ) : ℚ :=
  zoneHeight odd * (latWord odd lat / 2 ^ 17 + ⌊lat / zoneHeight odd⌋)

/-- The width of a longitude zone at the recovered latitude. -/
noncomputable def zoneWidth (odd : Bool) (lat : ℝ) : ℚ :=
  360 / (max (cprNl (recoveredLat odd lat) - parity odd) 1 : ℤ)

noncomputable def lonWord (odd : Bool) (lat lon : ℝ) : ℤ := encodeWord (zoneWidth odd lat) lon

theorem encodeWord_eq {size : ℚ} (hs : 0 < size) (x : ℝ) :
    encodeWord size x = gridPoint cprSteps (x / size) - cprSteps * ⌊x / size⌋ := by
  have hs' : (size : ℝ) ≠ 0 := by exact_mod_cast hs.ne'
  unfold encodeWord gridPoint
  rw [← Int.floor_sub_intCast]
  congr 1
  push_cast
  field_simp
  ring

/-- What the decoder reads from a word is the residue of the grid point. -/
theorem encodeWord_residue {size : ℚ} (hs : 0 < size) (x : ℝ) :
    ((encodeWord size x % 131072 : ℤ) : ℚ) / 131072 =
      residueOf cprSteps (gridPoint cprSteps (x / size)) := by
  rw [encodeWord_eq hs, residueOf, cprSteps]
  norm_num [Int.sub_mul_emod_self_left]

/-- A position recovered on the grid of a zoning is off by at most half a step. -/
theorem recovered_error {size : ℚ} (hs : 0 < size) (x : ℝ) :
    |((size * ((gridPoint cprSteps (x / size) : ℚ) / cprSteps) : ℚ) : ℝ) - x| ≤ size / 2 ^ 18 := by
  have hs' : (0 : ℝ) < size := by exact_mod_cast hs
  have he := gridPoint_error (N := cprSteps) (by norm_num) (x / size)
  push_cast at he ⊢
  rw [show (size : ℝ) * ((gridPoint cprSteps (x / size) : ℝ) / 131072) - x =
    size * ((gridPoint cprSteps (x / size) : ℝ) / 131072 - x / size) by field_simp,
    abs_mul, abs_of_pos hs']
  calc (size : ℝ) * |(gridPoint cprSteps (x / size) : ℝ) / 131072 - x / size|
      ≤ size * (1 / (2 * 131072)) := mul_le_mul_of_nonneg_left he hs'.le
    _ = size / 2 ^ 18 := by ring

/-! ## Latitude -/

theorem zoneHeight_pos (odd : Bool) : 0 < zoneHeight odd := by
  cases odd <;> norm_num [zoneHeight, parity]

theorem recoveredLat_eq (odd : Bool) (lat : ℝ) :
    recoveredLat odd lat =
      zoneHeight odd * ((gridPoint cprSteps (lat / zoneHeight odd) : ℚ) / cprSteps) := by
  rw [recoveredLat, latWord, encodeWord_eq (zoneHeight_pos odd)]
  push_cast
  ring

/-- A quarter circle is a whole number of steps in both zonings, so rounding
does not leave the range of latitudes. -/
theorem recoveredLat_bounds (odd : Bool) {lat : ℝ} (hl : -90 ≤ lat) (hu : lat ≤ 90) :
    -90 ≤ recoveredLat odd lat ∧ recoveredLat odd lat ≤ 90 := by
  have hpos := zoneHeight_pos odd
  have hpos' : (0 : ℝ) < zoneHeight odd := by exact_mod_cast hpos
  obtain ⟨q, hq⟩ : ∃ q : ℤ, (zoneHeight odd : ℚ) * (q / 131072) = 90 := by
    cases odd
    · exact ⟨1966080, by norm_num [zoneHeight, parity]⟩
    · exact ⟨1933312, by norm_num [zoneHeight, parity]⟩
  have hq' : ((zoneHeight odd : ℚ) : ℝ) * (q / 131072) = 90 := by exact_mod_cast hq
  have hi : gridPoint cprSteps (lat / zoneHeight odd) ≤ q := by
    rw [← gridPoint_of_grid (N := cprSteps) (p := 90 / zoneHeight odd) (v := q)
      (by rw [← hq']; push_cast; field_simp)]
    exact gridPoint_mono _ (by gcongr)
  have lo : -q ≤ gridPoint cprSteps (lat / zoneHeight odd) := by
    rw [← gridPoint_of_grid (N := cprSteps) (p := -90 / zoneHeight odd) (v := -q)
      (by rw [← hq']; push_cast; field_simp)]
    exact gridPoint_mono _ (by gcongr)
  have hi' : (gridPoint cprSteps (lat / zoneHeight odd) : ℚ) ≤ q := by exact_mod_cast hi
  have lo' : -(q : ℚ) ≤ gridPoint cprSteps (lat / zoneHeight odd) := by exact_mod_cast lo
  rw [recoveredLat_eq]
  push_cast
  constructor
  · calc (-90 : ℚ) = zoneHeight odd * (-(q : ℚ) / 131072) := by rw [← hq]; ring
      _ ≤ _ := mul_le_mul_of_nonneg_left (by gcongr) hpos.le
  · calc zoneHeight odd * ((gridPoint cprSteps (lat / zoneHeight odd) : ℚ) / 131072)
        ≤ zoneHeight odd * ((q : ℚ) / 131072) := mul_le_mul_of_nonneg_left (by gcongr) hpos.le
      _ = 90 := hq

/-- A latitude index known modulo the number of zones gives the latitude back:
a zone south of the equator comes out a full circle too high and is folded. -/
theorem foldSouth_recovers {n v j : ℤ} {N : ℕ} (hn : 2 ≤ n) (hN : 0 < N)
    (hl : -90 ≤ 360 / (n : ℚ) * (v / N)) (hu : 360 / (n : ℚ) * (v / N) ≤ 90)
    (hj : j % n = zoneOf N v % n) :
    foldSouth (360 / n * (posMod j n + residueOf N v)) = 360 / n * (v / N) := by
  have hn' : (2 : ℚ) ≤ n := by exact_mod_cast hn
  have hN' : (0 : ℚ) < N := by exact_mod_cast hN
  have hsum := zone_add_residue hN v
  have hf₀ : 0 ≤ residueOf N v := div_nonneg
    (by exact_mod_cast Int.emod_nonneg v (by omega)) hN'.le
  have hf₁ : residueOf N v < 1 := by
    rw [residueOf, div_lt_one hN']
    exact_mod_cast Int.emod_lt_of_pos v (by omega)
  -- in zones: the position lies within a quarter circle of the equator
  have ql : -(n : ℚ) / 4 ≤ v / N := by
    rw [div_mul_eq_mul_div, le_div_iff₀ (by linarith)] at hl
    linarith
  have qu : (v : ℚ) / N ≤ n / 4 := by
    rw [div_mul_eq_mul_div, div_le_iff₀ (by linarith)] at hu
    linarith
  rw [posMod_eq_emod (by omega), hj]
  by_cases hz : 0 ≤ zoneOf N v
  · have hlt : zoneOf N v < n := by
      have : (zoneOf N v : ℚ) < n := by linarith
      exact_mod_cast this
    rw [Int.emod_eq_of_lt hz hlt, hsum, foldSouth, if_neg (by linarith)]
  · have hge : -n ≤ zoneOf N v := by
      have : (-n - 1 : ℚ) < zoneOf N v := by linarith
      have : -n - 1 < zoneOf N v := by exact_mod_cast this
      omega
    have hmod : zoneOf N v % n = zoneOf N v + n := by
      rw [← Int.add_emod_right, Int.emod_eq_of_lt (by omega) (by omega)]
    have hval : 360 / (n : ℚ) * (((zoneOf N v + n : ℤ) : ℚ) + residueOf N v) =
        360 / n * (v / N) + 360 := by
      rw [← hsum]
      push_cast
      field_simp
      ring
    rw [hmod, hval, foldSouth, if_pos (by linarith)]
    ring

/-- The latitude half of the round trip: both candidate latitudes of the
decoder are the recovered ones. -/
theorem latitudes_recovered {lat : ℝ} (hl : -90 ≤ lat) (hu : lat ≤ 90) :
    let evenLat : ℚ := ((latWord false lat % 131072 : ℤ) : ℚ) / 131072
    let oddLat : ℚ := ((latWord true lat % 131072 : ℤ) : ℚ) / 131072
    let j := ⌊59 * evenLat - 60 * oddLat + 1 / 2⌋
    foldSouth (6 * (posMod j 60 + evenLat)) = recoveredLat false lat ∧
    foldSouth (360 / 59 * (posMod j 59 + oddLat)) = recoveredLat true lat := by
  intro evenLat oddLat j
  have he : evenLat = residueOf cprSteps (gridPoint cprSteps (lat / zoneHeight false)) :=
    encodeWord_residue (zoneHeight_pos false) lat
  have ho : oddLat = residueOf cprSteps (gridPoint cprSteps (lat / zoneHeight true)) :=
    encodeWord_residue (zoneHeight_pos true) lat
  have h6 : zoneHeight false = 6 := by norm_num [zoneHeight, parity]
  have h59 : zoneHeight true = 360 / 59 := by norm_num [zoneHeight, parity]
  set v₀ := gridPoint cprSteps (lat / zoneHeight false) with hv₀
  set v₁ := gridPoint cprSteps (lat / zoneHeight true) with hv₁
  have hj : j = 60 * zoneOf cprSteps v₁ - (60 - 1) * zoneOf cprSteps v₀ := by
    have hz := @zoneIndex_eq 60 (zoneOf cprSteps v₀) (zoneOf cprSteps v₁) evenLat oddLat
      (lat / 360) (1 / (2 * 131072)) (by norm_num)
      (by
        rw [he, zone_add_residue (by norm_num)]
        have := gridPoint_error (N := cprSteps) (by norm_num) (lat / zoneHeight false)
        rw [← hv₀, h6] at this
        push_cast at this ⊢
        rwa [show (60 : ℝ) * (lat / 360) = lat / 6 by ring])
      (by
        rw [ho, zone_add_residue (by norm_num)]
        have := gridPoint_error (N := cprSteps) (by norm_num) (lat / zoneHeight true)
        rw [← hv₁, h59] at this
        push_cast at this ⊢
        rwa [show ((60 : ℝ) - 1) * (lat / 360) = lat / (360 / 59) by ring])
      (by norm_num)
    rw [← hz]
    show ⌊59 * evenLat - 60 * oddLat + 1 / 2⌋ = _
    norm_num
  obtain ⟨l₀, u₀⟩ := recoveredLat_bounds false hl hu
  obtain ⟨l₁, u₁⟩ := recoveredLat_bounds true hl hu
  rw [recoveredLat_eq, ← hv₀, h6] at l₀ u₀
  rw [recoveredLat_eq, ← hv₁, h59] at l₁ u₁
  constructor
  · rw [recoveredLat_eq, ← hv₀, h6, he]
    have := foldSouth_recovers (n := 60) (v := v₀) (j := j) (N := cprSteps) (by norm_num)
      (by norm_num) (by norm_num at l₀ ⊢; exact l₀) (by norm_num at u₀ ⊢; exact u₀)
      (by rw [hj, zoneIndex_emod])
    norm_num at this ⊢
    exact this
  · rw [recoveredLat_eq, ← hv₁, h59, ho]
    have := foldSouth_recovers (n := 59) (v := v₁) (j := j) (N := cprSteps) (by norm_num)
      (by norm_num) (by norm_num at l₁ ⊢; exact l₁) (by norm_num at u₁ ⊢; exact u₁)
      (by rw [hj]; exact zoneIndex_emod_pred 60 _ _)
    norm_num at this ⊢
    exact this

/-! ## Longitude -/

/-- The longitude half: whatever band `nl` the two reports agree on, the index
the decoder computes is the zone of the newer report, up to whole circles. -/
theorem longitudeIndex_recovers {nl : ℤ} (hnl : 1 ≤ nl) (hnl' : nl ≤ 59) (lon : ℝ) (useOdd : Bool) :
    let size : Bool → ℚ := fun odd => 360 / (max (nl - parity odd) 1 : ℤ)
    let v : Bool → ℤ := fun odd => gridPoint cprSteps (lon / size odd)
    let m := ⌊residueOf cprSteps (v false) * (nl - 1) - residueOf cprSteps (v true) * nl + 1 / 2⌋
    let n := max (nl - parity useOdd) 1
    ∃ k : ℤ, posMod m n = zoneOf cprSteps (v useOdd) + n * k := by
  intro size v m n
  have hn : 0 < n := by simp only [n]; omega
  rw [posMod_eq_emod hn]
  by_cases h1 : nl = 1
  · -- a single zone: every index is the same one
    have hn1 : n = 1 := by simp only [n, h1, parity]; split <;> rfl
    refine ⟨-zoneOf cprSteps (v useOdd), ?_⟩
    rw [hn1, Int.emod_one]
    ring
  · have hsize : ∀ odd, size odd = 360 / ((nl - parity odd : ℤ) : ℚ) := by
      intro odd
      have : max (nl - parity odd) 1 = nl - parity odd := by
        cases odd <;> simp only [parity] <;> simp <;> omega
      simp only [size, this]
    have hm : m = nl * zoneOf cprSteps (v true) - (nl - 1) * zoneOf cprSteps (v false) := by
      have hnlr : (nl : ℝ) ≤ 59 := by exact_mod_cast hnl'
      have hz := @zoneIndex_eq nl (zoneOf cprSteps (v false)) (zoneOf cprSteps (v true))
        (residueOf cprSteps (v false)) (residueOf cprSteps (v true)) (lon / 360)
        (1 / (2 * 131072)) hnl
        (by
          rw [zone_add_residue (by norm_num)]
          have := gridPoint_error (N := cprSteps) (by norm_num) (lon / size false)
          rw [show gridPoint cprSteps (lon / size false) = v false from rfl, hsize] at this
          simp only [parity] at this
          push_cast at this ⊢
          rwa [show (nl : ℝ) * (lon / 360) = lon / (360 / (nl - 0)) by
            rw [div_div_eq_mul_div]; ring])
        (by
          rw [zone_add_residue (by norm_num)]
          have := gridPoint_error (N := cprSteps) (by norm_num) (lon / size true)
          rw [show gridPoint cprSteps (lon / size true) = v true from rfl, hsize] at this
          simp only [parity] at this
          push_cast at this ⊢
          rwa [show ((nl : ℝ) - 1) * (lon / 360) = lon / (360 / (nl - 1)) by
            rw [div_div_eq_mul_div]; ring])
        (by linarith)
      rw [← hz]
      simp only [m]
      congr 1
      ring
    have hmod : m % n = zoneOf cprSteps (v useOdd) % n := by
      rw [hm]
      cases useOdd
      · have : n = nl := by simp only [n, parity]; simp; omega
        rw [this, zoneIndex_emod]
      · have : n = nl - 1 := by simp only [n, parity]; simp; omega
        rw [this, zoneIndex_emod_pred]
    refine ⟨-(zoneOf cprSteps (v useOdd) / n), ?_⟩
    rw [hmod, Int.emod_def]
    ring

/-! ## The round trip -/

/-- **Decoding inverts encoding.** When the two recovered latitudes lie in one
band, `globalPosition` on the four transmitted words yields a position within
half a step of the true one, in the zoning of the newer report. -/
theorem globalPosition_encode {lat : ℝ} (lon : ℝ) (hl : -90 ≤ lat) (hu : lat ≤ 90)
    (hband : cprNl (recoveredLat false lat) = cprNl (recoveredLat true lat)) (useOdd : Bool) :
    ∃ la lo : ℚ,
      globalPosition (latWord false lat % 131072) (lonWord false lat lon % 131072)
        (latWord true lat % 131072) (lonWord true lat lon % 131072) useOdd = some (la, lo) ∧
      |(la : ℝ) - lat| ≤ zoneHeight useOdd / 2 ^ 18 ∧
      ∃ k : ℤ, |(lo : ℝ) - lon - 360 * k| ≤ zoneWidth useOdd lat / 2 ^ 18 := by
  obtain ⟨he, ho⟩ := latitudes_recovered hl hu
  set nl := cprNl (recoveredLat false lat) with hnl
  obtain ⟨hnl₁, hnl₅₉⟩ := cprNl_bounds (recoveredLat false lat)
  rw [← hnl] at hnl₁ hnl₅₉
  -- both zone widths follow from the common band
  have hwidth : ∀ odd, zoneWidth odd lat = 360 / (max (nl - parity odd) 1 : ℤ) := by
    intro odd
    cases odd
    · rw [zoneWidth, ← hnl]
    · rw [zoneWidth, ← hband]
  have hwpos : ∀ odd, 0 < zoneWidth odd lat := by
    intro odd
    rw [hwidth]
    have : (0 : ℚ) < (max (nl - parity odd) 1 : ℤ) := by
      exact_mod_cast lt_of_lt_of_le one_pos (le_max_right _ _)
    positivity
  let v : Bool → ℤ := fun odd => gridPoint cprSteps (lon / zoneWidth odd lat)
  obtain ⟨k, hk⟩ : ∃ k : ℤ, posMod
      ⌊residueOf cprSteps (v false) * (nl - 1) - residueOf cprSteps (v true) * nl + 1 / 2⌋
      (max (nl - parity useOdd) 1) = zoneOf cprSteps (v useOdd) + max (nl - parity useOdd) 1 * k := by
    have h := longitudeIndex_recovers hnl₁ hnl₅₉ lon useOdd
    simp only [← hwidth] at h
    exact h
  have hres : ∀ odd, ((lonWord odd lat lon % 131072 : ℤ) : ℚ) / 131072 =
      residueOf cprSteps (v odd) := fun odd => encodeWord_residue (hwpos odd) lon
  have hlat : (if useOdd then recoveredLat true lat else recoveredLat false lat) =
      recoveredLat useOdd lat := by cases useOdd <;> rfl
  have hnlu : cprNl (recoveredLat useOdd lat) = nl := by
    cases useOdd
    · rfl
    · exact hband.symm
  have hres' : (if useOdd then residueOf cprSteps (v true) else residueOf cprSteps (v false)) =
      residueOf cprSteps (v useOdd) := by cases useOdd <;> rfl
  have hmax : (if nl - (if useOdd then 1 else 0) < 1 then 1 else nl - (if useOdd then 1 else 0)) =
      max (nl - parity useOdd) 1 := by
    simp only [parity]
    split_ifs <;> omega
  -- the decoded longitude before it is brought below 180
  have hraw : (360 : ℚ) / (max (nl - parity useOdd) 1 : ℤ) *
      (posMod ⌊residueOf cprSteps (v false) * (nl - 1) - residueOf cprSteps (v true) * nl + 1 / 2⌋
        (max (nl - parity useOdd) 1) + residueOf cprSteps (v useOdd)) =
      zoneWidth useOdd lat * ((v useOdd : ℚ) / cprSteps) + 360 * k := by
    have hn : ((max (nl - parity useOdd) 1 : ℤ) : ℚ) ≠ 0 := by
      exact_mod_cast (lt_of_lt_of_le one_pos (le_max_right _ _)).ne'
    rw [hk, hwidth, ← zone_add_residue (N := cprSteps) (by norm_num)]
    generalize max (nl - parity useOdd) 1 = n at hn ⊢
    push_cast
    field_simp
    ring
  set raw := zoneWidth useOdd lat * ((v useOdd : ℚ) / cprSteps) + 360 * k with hrawdef
  have herr : |(raw : ℝ) - lon - 360 * k| ≤ zoneWidth useOdd lat / 2 ^ 18 := by
    have h := recovered_error (hwpos useOdd) lon
    rw [hrawdef]
    push_cast at h ⊢
    rwa [add_sub_right_comm, add_sub_cancel_right]
  refine ⟨recoveredLat useOdd lat, if raw > 180 then raw - 360 else raw, ?_, ?_, ?_⟩
  · simp only [globalPosition, he, ho]
    rw [if_neg (by rw [← hnl, ← hband]; simp)]
    simp only [hlat, hnlu, hmax, hres, hres', hraw]
  · rw [recoveredLat_eq]
    exact recovered_error (zoneHeight_pos useOdd) lat
  · by_cases hfold : raw > 180
    · refine ⟨k - 1, ?_⟩
      rw [if_pos hfold]
      push_cast
      rwa [show (raw : ℝ) - 360 - lon - 360 * ((k : ℝ) - 1) = raw - lon - 360 * k by ring]
    · exact ⟨k, by rwa [if_neg hfold]⟩

end AdsbBridge.Cpr
