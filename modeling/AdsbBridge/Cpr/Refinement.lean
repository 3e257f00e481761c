import AdsbBridge.Cpr.Range
import AdsbBridge.Native.Aircraft

/-! # The two global decodes against each other

`decode_global_position` and readsb's `decodeCPRairborne` compute the same
latitude, and the same longitude up to a whole turn. What they differ in is how
the band table is entered, where a sum is divided, how a longitude is brought
into its range, and that readsb refuses latitudes beyond a pole. -/
namespace AdsbBridge.Cpr

/-! ## The band table -/

/-- Rows that do not exceed the latitude may be skipped. -/
theorem bandOf_drop {rows : List (ℚ × ℤ)} {n : ℕ} {a : ℚ} (h : ∀ row ∈ rows.take n, row.1 ≤ a) :
    bandOf (rows.drop n) a = bandOf rows a := by
  induction rows generalizing n with
  | nil => rw [List.drop_nil]
  | cons row rest ih =>
    cases n with
    | zero => rfl
    | succ n =>
      obtain ⟨bound, nl⟩ := row
      rw [List.take_succ_cons] at h
      have hskip : ¬ a < bound := not_lt.2 (h (bound, nl) List.mem_cons_self)
      rw [List.drop_succ_cons, bandOf, if_neg hskip]
      exact ih fun row hrow => h row (List.mem_cons_of_mem _ hrow)

/-- **The jumps into the table change nothing.** -/
theorem cprNLFunction_eq (lat : ℚ) : cprNLFunction lat = cprNl lat := by
  have habs : (if lat < 0 then -lat else lat) = |lat| := by
    split
    · next h => exact (abs_of_neg h).symm
    · next h => exact (abs_of_nonneg (not_lt.1 h)).symm
  have hrows : (∀ row ∈ nlBands.take 30, row.1 ≤ 60) ∧ (∀ row ∈ nlBands.take 17, row.1 ≤ 44.2) ∧
      ∀ row ∈ nlBands.take 8, row.1 ≤ 30 := by
    norm_num [nlBands]
  obtain ⟨h60, h442, h30⟩ := hrows
  rw [cprNLFunction, cprNl, habs]
  split
  · next h => exact bandOf_drop fun row hrow => (h60 row hrow).trans h.le
  split
  · next h => exact bandOf_drop fun row hrow => (h442 row hrow).trans h.le
  split
  · next h => exact bandOf_drop fun row hrow => (h30 row hrow).trans h.le
  · rfl

/-! ## readsb's decode -/

section Decode

variable {evenLat evenLon oddLat oddLon : ℤ} {odd : Bool} {p : ℚ × ℚ}

/-- `rlon -= floor((rlon + 180) / 360) * 360`. -/
def turned (rlon : ℚ) : ℚ := rlon - ⌊(rlon + 180) / 360⌋ * 360

/-- The longitude of `decodeCPRairborne` before that is the raw one. -/
theorem airborneLongitude_eq (lat : ℚ) (evenLon oddLon : ℤ) (odd : Bool) :
    cprDlonFunction lat odd *
      (posMod ⌊((evenLon : ℚ) * (cprNLFunction lat - 1) - oddLon * cprNLFunction lat) / 131072 +
        1 / 2⌋ (cprNFunction lat odd) + (if odd then (oddLon : ℚ) else evenLon) / 131072) =
      rawLongitude lat evenLon oddLon odd := by
  have hsum : ((evenLon : ℚ) * (cprNl lat - 1) - oddLon * cprNl lat) / 131072 =
      (evenLon : ℚ) / 131072 * (cprNl lat - 1) - (oddLon : ℚ) / 131072 * cprNl lat := by
    ring
  rw [cprDlonFunction, cprNFunction, cprNLFunction_eq, hsum]
  cases odd <;> rfl

/-- A success of readsb in the terms of the other decode. -/
theorem decodeCPRairborne_ok
    (h : decodeCPRairborne evenLat evenLon oddLat oddLon odd = .ok p) :
    cprNl (foldSouth (unfolded evenLat oddLat false)) =
        cprNl (foldSouth (unfolded evenLat oddLat true)) ∧
      p = (foldSouth (unfolded evenLat oddLat odd),
        turned (rawLongitude (foldSouth (unfolded evenLat oddLat odd)) evenLon oddLon odd)) := by
  have hindex : ⌊(59 * (evenLat : ℚ) - 60 * oddLat) / 131072 + 1 / 2⌋ =
      latitudeIndex evenLat oddLat := by
    rw [← floor_latitudeIndex]
    congr 1
    ring
  have heven : 360 / 60 * ((posMod (latitudeIndex evenLat oddLat) 60 : ℤ) + (evenLat : ℚ) / 131072) =
      unfolded evenLat oddLat false := by
    rw [unfolded_even, posMod_eq_emod (by decide)]
    norm_num
  have hodd : 360 / 59 * ((posMod (latitudeIndex evenLat oddLat) 59 : ℤ) + (oddLat : ℚ) / 131072) =
      unfolded evenLat oddLat true := by
    rw [unfolded_odd, posMod_eq_emod (by decide)]
  unfold decodeCPRairborne at h
  simp only [hindex, heven, hodd, airborneLongitude_eq] at h
  split at h
  · cases h
  split at h
  · cases h
  · next hband =>
    rw [cprNLFunction_eq, cprNLFunction_eq, ne_eq, not_not] at hband
    refine ⟨hband, ?_⟩
    cases h
    cases odd <;> rfl

/-- Both ways into the range leave the longitude as it is up to whole turns. -/
theorem longitudeAt_turned (lat : ℚ) (evenLon oddLon : ℤ) (odd : Bool) :
    ∃ k : ℤ, longitudeAt lat evenLon oddLon odd =
      turned (rawLongitude lat evenLon oddLon odd) + 360 * k := by
  rw [longitudeAt_eq, turned]
  split
  · refine ⟨⌊(rawLongitude lat evenLon oddLon odd + 180) / 360⌋ - 1, ?_⟩
    push_cast
    ring
  · refine ⟨⌊(rawLongitude lat evenLon oddLon odd + 180) / 360⌋, ?_⟩
    ring

/-- Where readsb decodes, so does the other, to the same place. -/
theorem globalPosition_of_airborne (he : IsWord evenLon) (ho : IsWord oddLon)
    (h : decodeCPRairborne evenLat evenLon oddLat oddLon odd = .ok p) :
    ∃ lon, globalPosition evenLat evenLon oddLat oddLon odd = some (p.1, lon) ∧
      (∃ k : ℤ, lon = p.2 + 360 * k) ∧ -180 < lon ∧ lon ≤ 180 := by
  obtain ⟨hband, rfl⟩ := decodeCPRairborne_ok h
  rw [globalPosition_eq, if_neg (not_not.2 hband)]
  exact ⟨_, rfl, longitudeAt_turned _ evenLon oddLon odd, longitudeAt_range he ho _ odd⟩

end Decode

/-! ## The decoder's state -/

/-- The words of a report are as long as in a message. -/
def CprFrame.Fits (frame : CprFrame) : Prop := IsWord frame.lat ∧ IsWord frame.lon

/-- **`decode_global_position` refines readsb's decode**: on two reports at most
ten seconds apart, whichever is the newer, it succeeds where readsb does, with
the same latitude, and with the same longitude turned into its own range. -/
theorem decodeGlobalPosition_refines {even odd : CprFrame} {newestOdd : Bool} {p : ℚ × ℚ}
    (state : Native.AircraftState) (heven : even.Fits) (hodd : odd.Fits)
    (hrecent : |even.ms - odd.ms| ≤ 10000) (hnewest : decide (odd.ms > even.ms) = newestOdd)
    (h : decodeCPRairborne even.lat even.lon odd.lat odd.lon newestOdd = .ok p) :
    ∃ lon, Native.decodeGlobalPosition { state with even := some even, odd := some odd } =
        some { state with even := some even, odd := some odd, lat := some p.1, lon := some lon } ∧
      (∃ k : ℤ, lon = p.2 + 360 * k) ∧ -180 < lon ∧ lon ≤ 180 := by
  subst hnewest
  obtain ⟨lon, hdecode, hturn, hrange⟩ := globalPosition_of_airborne heven.2 hodd.2 h
  refine ⟨lon, ?_, hturn, hrange⟩
  rw [Native.decodeGlobalPosition, decodePair, if_neg (not_lt.2 hrecent), hdecode]
  rfl

/-- Two reports, the odd one half a second later: both decoders give 52.26578
degrees north. -/
theorem decodeGlobalPosition_refines_north :
    ∃ lon, Native.decodeGlobalPosition
        { even := some ⟨93000, 51372, 1000000⟩, odd := some ⟨74158, 50194, 1000500⟩ } =
        some { even := some ⟨93000, 51372, 1000000⟩, odd := some ⟨74158, 50194, 1000500⟩,
               lat := some (25261515 / 483328), lon := some lon } ∧
      (∃ k : ℤ, lon = 225873 / 57344 + 360 * k) ∧ -180 < lon ∧ lon ≤ 180 := by
  refine @decodeGlobalPosition_refines ⟨93000, 51372, 1000000⟩ ⟨74158, 50194, 1000500⟩ true
    (25261515 / 483328, 225873 / 57344) {} ?_ ?_ ?_ ?_ ?_
  · exact ⟨⟨by decide, by decide⟩, by decide, by decide⟩
  · exact ⟨⟨by decide, by decide⟩, by decide, by decide⟩
  · decide
  · decide
  · with_unfolding_all rfl

end AdsbBridge.Cpr
