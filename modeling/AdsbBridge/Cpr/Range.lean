import Mathlib.Algebra.Order.Floor.Ring
import Mathlib.Tactic.FieldSimp
import AdsbBridge.Cpr.Decode

/-! # Where the global decodes place an aircraft

The four words of a pair of reports may be anything. readsb refuses a latitude
beyond a pole. The other two decoders fold latitudes from 270 degrees on and
leave those between 90 and 270 degrees; there both reports are in the same
band, so the comparison of bands lets them pass. -/
namespace AdsbBridge.Cpr

def InRange (p : ℚ × ℚ) : Prop := -90 ≤ p.1 ∧ p.1 ≤ 90 ∧ -180 ≤ p.2 ∧ p.2 ≤ 180

instance (p : ℚ × ℚ) : Decidable (InRange p) := inferInstanceAs (Decidable (_ ∧ _))

/-- What a report has room for. -/
def IsWord (w : ℤ) : Prop := 0 ≤ w ∧ w < 131072

def latitudeZones (odd : Bool) : ℤ := if odd then 59 else 60

def latitudeIndex (evenLat oddLat : ℤ) : ℤ := (59 * evenLat - 60 * oddLat + 65536) / 131072

/-- The place of one of the two reports on the whole meridian, in steps of a word. -/
def meridianSteps (evenLat oddLat : ℤ) (odd : Bool) : ℤ :=
  131072 * (latitudeIndex evenLat oddLat % latitudeZones odd) + if odd then oddLat else evenLat

/-- The report is more than one quarter and less than three quarters up the
meridian. -/
def OffGlobe (evenLat oddLat : ℤ) (odd : Bool) : Prop :=
  131072 * latitudeZones odd < 4 * meridianSteps evenLat oddLat odd ∧
    4 * meridianSteps evenLat oddLat odd < 3 * (131072 * latitudeZones odd)

instance (evenLat oddLat : ℤ) (odd : Bool) : Decidable (OffGlobe evenLat oddLat odd) :=
  inferInstanceAs (Decidable (_ ∧ _))

/-! ## Latitudes -/

section Latitude

variable {evenLat oddLat : ℤ}

theorem floor_latitudeIndex (evenLat oddLat : ℤ) :
    ⌊59 * ((evenLat : ℚ) / 131072) - 60 * ((oddLat : ℚ) / 131072) + 1 / 2⌋ =
      latitudeIndex evenLat oddLat := by
  have hcast : 59 * ((evenLat : ℚ) / 131072) - 60 * ((oddLat : ℚ) / 131072) + 1 / 2 =
      ((59 * evenLat - 60 * oddLat + 65536 : ℤ) : ℚ) / ((131072 : ℕ) : ℚ) := by
    push_cast
    ring
  rw [hcast, Rat.floor_intCast_div_natCast]
  rfl

/-- A latitude before folding. -/
def unfolded (evenLat oddLat : ℤ) (odd : Bool) : ℚ :=
  360 * meridianSteps evenLat oddLat odd / (131072 * latitudeZones odd)

theorem unfolded_even (evenLat oddLat : ℤ) :
    unfolded evenLat oddLat false =
      6 * ((latitudeIndex evenLat oddLat % 60 : ℤ) + (evenLat : ℚ) / 131072) := by
  simp only [unfolded, meridianSteps, latitudeZones, Bool.false_eq_true, if_false]
  push_cast
  ring

theorem unfolded_odd (evenLat oddLat : ℤ) :
    unfolded evenLat oddLat true =
      360 / 59 * ((latitudeIndex evenLat oddLat % 59 : ℤ) + (oddLat : ℚ) / 131072) := by
  simp only [unfolded, meridianSteps, latitudeZones, if_true]
  push_cast
  ring

theorem meridianSteps_bounds (he : IsWord evenLat) (ho : IsWord oddLat) (odd : Bool) :
    0 ≤ meridianSteps evenLat oddLat odd ∧
      meridianSteps evenLat oddLat odd < 131072 * latitudeZones odd := by
  obtain ⟨he₀, he₁⟩ := he
  obtain ⟨ho₀, ho₁⟩ := ho
  cases odd with
  | false =>
    simp only [meridianSteps, latitudeZones, Bool.false_eq_true, if_false]
    omega
  | true =>
    simp only [meridianSteps, latitudeZones, if_true]
    omega

/-- A comparison of degrees is one of steps. -/
theorem unfolded_lt_iff {odd : Bool} (k : ℤ) :
    unfolded evenLat oddLat odd < 90 * k ↔
      4 * meridianSteps evenLat oddLat odd < k * (131072 * latitudeZones odd) := by
  have hz : (0 : ℚ) < 131072 * (latitudeZones odd : ℚ) := by
    cases odd <;> norm_num [latitudeZones]
  rw [unfolded, div_lt_iff₀ hz]
  constructor
  · intro h
    have : (4 * meridianSteps evenLat oddLat odd : ℚ) < k * (131072 * latitudeZones odd) := by
      linarith
    exact_mod_cast this
  · intro h
    have : (4 * meridianSteps evenLat oddLat odd : ℚ) < k * (131072 * latitudeZones odd) := by
      exact_mod_cast h
    linarith

/-- Beyond the pole is beyond by a step at least. -/
theorem lt_unfolded {odd : Bool}
    (h : 131072 * latitudeZones odd < 4 * meridianSteps evenLat oddLat odd) :
    90 + 1 / 100000 < unfolded evenLat oddLat odd := by
  have hz : (0 : ℚ) < 131072 * (latitudeZones odd : ℚ) := by
    cases odd <;> norm_num [latitudeZones]
  have hstep : (131072 * latitudeZones odd + 1 : ℚ) ≤ 4 * meridianSteps evenLat oddLat odd := by
    exact_mod_cast h
  have hzones : (latitudeZones odd : ℚ) ≤ 60 := by
    cases odd <;> norm_num [latitudeZones]
  rw [unfolded, lt_div_iff₀ hz]
  linarith

/-- The two latitudes agree up to half a step of the index, or lie a whole turn
apart. -/
theorem unfolded_close (he : IsWord evenLat) (ho : IsWord oddLat) :
    ∃ turn : ℤ, turn ∈ [-1, 0, 1] ∧
      |unfolded evenLat oddLat false - unfolded evenLat oddLat true - 360 * turn| ≤ 3 / 59 := by
  obtain ⟨he₀, he₁⟩ := he
  obtain ⟨ho₀, ho₁⟩ := ho
  have hindex : latitudeIndex evenLat oddLat =
      (59 * evenLat - 60 * oddLat + 65536) / 131072 := rfl
  -- the remainder of the division that makes the index is at most half a step
  obtain ⟨turn, r, hturn, hr₀, hr₁, hsteps⟩ : ∃ turn r : ℤ, turn ∈ [-1, 0, 1] ∧
      -65536 ≤ r ∧ r ≤ 65536 ∧
      59 * meridianSteps evenLat oddLat false - 60 * meridianSteps evenLat oddLat true =
        131072 * (3540 * turn) + r := by
    refine ⟨(59 * (latitudeIndex evenLat oddLat % 60) - 60 * (latitudeIndex evenLat oddLat % 59) +
        latitudeIndex evenLat oddLat) / 3540,
      59 * evenLat - 60 * oddLat - 131072 * latitudeIndex evenLat oddLat, ?_, ?_, ?_, ?_⟩
    · simp only [List.mem_cons, List.not_mem_nil, or_false]
      omega
    · omega
    · omega
    · simp only [meridianSteps, latitudeZones, Bool.false_eq_true, if_false, if_true]
      omega
  refine ⟨turn, hturn, ?_⟩
  have hvalue : unfolded evenLat oddLat false - unfolded evenLat oddLat true - 360 * turn =
      6 * (r : ℚ) / (59 * 131072) := by
    have hq : (59 * meridianSteps evenLat oddLat false - 60 * meridianSteps evenLat oddLat true : ℚ) =
        131072 * (3540 * turn) + r := by exact_mod_cast hsteps
    have hr : (r : ℚ) = 59 * meridianSteps evenLat oddLat false -
        60 * meridianSteps evenLat oddLat true - 131072 * (3540 * turn) := by linarith
    rw [hr, unfolded, unfolded]
    simp only [latitudeZones, Bool.false_eq_true, if_false, if_true]
    push_cast
    ring
  have hr₀' : (-65536 : ℚ) ≤ r := by exact_mod_cast hr₀
  have hr₁' : (r : ℚ) ≤ 65536 := by exact_mod_cast hr₁
  rw [hvalue, abs_le]
  constructor <;> linarith

end Latitude

/-! ## Bands at the poles -/

theorem bandOf_of_le {rows : List (ℚ × ℤ)} {a : ℚ} (h : ∀ row ∈ rows, row.1 ≤ a) :
    bandOf rows a = 1 := by
  induction rows with
  | nil => rfl
  | cons row rest ih =>
    obtain ⟨bound, nl⟩ := row
    rw [bandOf, if_neg (not_lt.2 (h (bound, nl) List.mem_cons_self))]
    exact ih fun row hrow => h row (List.mem_cons_of_mem _ hrow)

theorem nlBands_le : ∀ row ∈ nlBands, row.1 ≤ 87 := by norm_num [nlBands]

/-- From 87 degrees on there is one zone. -/
theorem cprNl_pole {lat : ℚ} (h : 87 ≤ |lat|) : cprNl lat = 1 :=
  bandOf_of_le fun row hrow => (nlBands_le row hrow).trans h

theorem foldSouth_pole {lat : ℚ} (h : 87 ≤ lat) (h' : lat ≤ 273) : 87 ≤ |foldSouth lat| := by
  unfold foldSouth
  split
  · rw [abs_of_neg (by linarith)]
    linarith
  · rw [abs_of_nonneg (by linarith)]
    exact h

/-- Where one latitude is off the globe, both are in the one zone of a pole. -/
theorem cprNl_offGlobe {evenLat oddLat : ℤ} (he : IsWord evenLat) (ho : IsWord oddLat)
    {odd : Bool} (h : OffGlobe evenLat oddLat odd) (odd' : Bool) :
    cprNl (foldSouth (unfolded evenLat oddLat odd')) = 1 := by
  have hlow := lt_unfolded h.1
  have hhigh : unfolded evenLat oddLat odd < 270 := by
    have := (@unfolded_lt_iff evenLat oddLat odd 3).2 h.2
    norm_num at this
    exact this
  have hbound : ∀ odd, 0 ≤ unfolded evenLat oddLat odd ∧ unfolded evenLat oddLat odd < 360 := by
    intro odd
    obtain ⟨hs, hs'⟩ := meridianSteps_bounds he ho odd
    have h₀ := mt (@unfolded_lt_iff evenLat oddLat odd 0).1 (by omega)
    have h₄ := (@unfolded_lt_iff evenLat oddLat odd 4).2 (by omega)
    norm_num at h₀ h₄
    exact ⟨h₀, h₄⟩
  obtain ⟨turn, hturn, hclose⟩ := unfolded_close he ho
  obtain ⟨hclose₀, hclose₁⟩ := abs_le.1 hclose
  have hnone : turn = 0 := by
    simp only [List.mem_cons, List.not_mem_nil, or_false] at hturn
    obtain ⟨h₀, h₁⟩ := hbound false
    obtain ⟨h₂, h₃⟩ := hbound true
    rcases hturn with rfl | rfl | rfl
    · cases odd <;> norm_num at hclose₀ hclose₁ <;> linarith
    · rfl
    · cases odd <;> norm_num at hclose₀ hclose₁ <;> linarith
  subst hnone
  norm_num at hclose₀ hclose₁
  apply cprNl_pole
  apply foldSouth_pole
  · cases odd <;> cases odd' <;> linarith
  · cases odd <;> cases odd' <;> linarith

/-! ## Longitudes -/

def longitudeAt (lat : ℚ) (evenLon oddLon : ℤ) (odd : Bool) : ℚ :=
  let nl := cprNl lat - (if odd then 1 else 0)
  let nl := if nl < 1 then 1 else nl
  let m := ⌊(evenLon : ℚ) / 131072 * (cprNl lat - 1) - (oddLon : ℚ) / 131072 * cprNl lat + 1 / 2⌋
  let lon := 360 / nl * (posMod m nl + (if odd then (oddLon : ℚ) / 131072 else evenLon / 131072))
  if lon > 180 then lon - 360 else lon

/-- A zone and a place inside it are less than a turn. -/
theorem zone_lt_turn {zone nl : ℤ} {w : ℚ} (h₀ : 0 ≤ zone) (h₁ : zone < nl) (hw₀ : 0 ≤ w)
    (hw₁ : w < 1) : 0 ≤ 360 / (nl : ℚ) * (zone + w) ∧ 360 / (nl : ℚ) * (zone + w) < 360 := by
  have hnl : (0 : ℚ) < nl := by exact_mod_cast (by omega : 0 < nl)
  have hzone : (0 : ℚ) ≤ zone := by exact_mod_cast h₀
  have hzone' : (zone : ℚ) + 1 ≤ nl := by exact_mod_cast h₁
  constructor
  · positivity
  · rw [div_mul_eq_mul_div, div_lt_iff₀ hnl]
    linarith

/-- The longitude before it is brought below 180 degrees. -/
def rawLongitude (lat : ℚ) (evenLon oddLon : ℤ) (odd : Bool) : ℚ :=
  let nl := cprNl lat - (if odd then 1 else 0)
  let nl := if nl < 1 then 1 else nl
  let m := ⌊(evenLon : ℚ) / 131072 * (cprNl lat - 1) - (oddLon : ℚ) / 131072 * cprNl lat + 1 / 2⌋
  360 / nl * (posMod m nl + (if odd then (oddLon : ℚ) / 131072 else evenLon / 131072))

theorem longitudeAt_eq (lat : ℚ) (evenLon oddLon : ℤ) (odd : Bool) :
    longitudeAt lat evenLon oddLon odd =
      if rawLongitude lat evenLon oddLon odd > 180 then rawLongitude lat evenLon oddLon odd - 360
      else rawLongitude lat evenLon oddLon odd := rfl

/-- The raw longitude is less than a turn. -/
theorem rawLongitude_turn {evenLon oddLon : ℤ} (he : IsWord evenLon) (ho : IsWord oddLon) (lat : ℚ)
    (odd : Bool) :
    0 ≤ rawLongitude lat evenLon oddLon odd ∧ rawLongitude lat evenLon oddLon odd < 360 := by
  have hword : ∀ w : ℤ, IsWord w → 0 ≤ (w : ℚ) / 131072 ∧ (w : ℚ) / 131072 < 1 := by
    intro w hw
    have hw₀ : (0 : ℚ) ≤ w := by exact_mod_cast hw.1
    have hw₁ : (w : ℚ) < 131072 := by exact_mod_cast hw.2
    constructor <;> linarith
  unfold rawLongitude
  simp only
  generalize hnl : (if cprNl lat - (if odd then 1 else 0) < 1 then 1
    else cprNl lat - (if odd then 1 else 0)) = nl
  have hpos : 0 < nl := by
    rw [← hnl]
    split <;> omega
  generalize ⌊(evenLon : ℚ) / 131072 * (cprNl lat - 1) - (oddLon : ℚ) / 131072 * cprNl lat +
    1 / 2⌋ = m
  rw [posMod_eq_emod hpos]
  have hw : 0 ≤ (if odd then (oddLon : ℚ) / 131072 else evenLon / 131072) ∧
      (if odd then (oddLon : ℚ) / 131072 else evenLon / 131072) < 1 := by
    cases odd with
    | false => exact hword evenLon he
    | true => exact hword oddLon ho
  exact zone_lt_turn (Int.emod_nonneg m hpos.ne') (Int.emod_lt_of_pos m hpos) hw.1 hw.2

theorem longitudeAt_range {evenLon oddLon : ℤ} (he : IsWord evenLon) (ho : IsWord oddLon) (lat : ℚ)
    (odd : Bool) :
    -180 < longitudeAt lat evenLon oddLon odd ∧ longitudeAt lat evenLon oddLon odd ≤ 180 := by
  obtain ⟨h₀, h₁⟩ := rawLongitude_turn he ho lat odd
  rw [longitudeAt_eq]
  split
  · constructor <;> linarith
  · constructor <;> linarith

/-! ## The two decodes -/

section Decode

variable {evenLat evenLon oddLat oddLon : ℤ} {odd : Bool} {p : ℚ × ℚ}

theorem globalPosition_eq (evenLat evenLon oddLat oddLon : ℤ) (odd : Bool) :
    globalPosition evenLat evenLon oddLat oddLon odd =
      if cprNl (foldSouth (unfolded evenLat oddLat false)) ≠
          cprNl (foldSouth (unfolded evenLat oddLat true)) then none
      else some (foldSouth (unfolded evenLat oddLat odd),
        longitudeAt (foldSouth (unfolded evenLat oddLat odd)) evenLon oddLon odd) := by
  have heven : 6 * ((posMod (latitudeIndex evenLat oddLat) 60 : ℤ) + (evenLat : ℚ) / 131072) =
      unfolded evenLat oddLat false := by
    rw [unfolded_even, posMod_eq_emod (by decide)]
  have hodd : 360 / 59 * ((posMod (latitudeIndex evenLat oddLat) 59 : ℤ) + (oddLat : ℚ) / 131072) =
      unfolded evenLat oddLat true := by
    rw [unfolded_odd, posMod_eq_emod (by decide)]
  unfold globalPosition
  simp only [floor_latitudeIndex, heven, hodd]
  cases odd <;> rfl

/-- **Beyond a pole the decode succeeds**, with the latitude as it is. -/
theorem globalPosition_offGlobe (he : IsWord evenLat) (ho : IsWord oddLat)
    (h : OffGlobe evenLat oddLat odd) :
    ∃ p, globalPosition evenLat evenLon oddLat oddLon odd = some p ∧ 90 + 1 / 100000 < p.1 ∧
      p.1 < 270 := by
  have hhigh : unfolded evenLat oddLat odd < 90 * (3 : ℤ) := (unfolded_lt_iff 3).2 h.2
  norm_num at hhigh
  rw [globalPosition_eq, if_neg (by rw [cprNl_offGlobe he ho h, cprNl_offGlobe he ho h]; decide)]
  refine ⟨_, rfl, ?_⟩
  rw [foldSouth, if_neg (not_le.2 hhigh)]
  exact ⟨lt_unfolded h.1, hhigh⟩

/-- Everywhere else it stays on the globe. -/
theorem globalPosition_inRange (helat : IsWord evenLat) (helon : IsWord evenLon)
    (holat : IsWord oddLat) (holon : IsWord oddLon) (h : ¬ OffGlobe evenLat oddLat odd)
    (hp : globalPosition evenLat evenLon oddLat oddLon odd = some p) : InRange p := by
  obtain ⟨hs, hs'⟩ := meridianSteps_bounds helat holat odd
  have hlow : ¬ unfolded evenLat oddLat odd < 90 * (0 : ℤ) := by
    rw [unfolded_lt_iff]
    omega
  have hhigh : unfolded evenLat oddLat odd < 90 * (4 : ℤ) := by
    rw [unfolded_lt_iff]
    omega
  have hpole : unfolded evenLat oddLat odd < 90 * (3 : ℤ) → unfolded evenLat oddLat odd ≤ 90 := by
    intro h₃
    rw [unfolded_lt_iff] at h₃
    have h₁ : ¬ 131072 * latitudeZones odd < 4 * meridianSteps evenLat oddLat odd := fun h₁ => h ⟨h₁, h₃⟩
    have hz : (0 : ℚ) < 131072 * (latitudeZones odd : ℚ) := by
      cases odd <;> norm_num [latitudeZones]
    have hsteps : (4 * meridianSteps evenLat oddLat odd : ℚ) ≤ 131072 * latitudeZones odd := by
      exact_mod_cast not_lt.1 h₁
    rw [unfolded, div_le_iff₀ hz]
    linarith
  norm_num at hlow hhigh hpole
  rw [globalPosition_eq] at hp
  split at hp
  · cases hp
  · cases hp
    obtain ⟨hlon₀, hlon₁⟩ := longitudeAt_range helon holon (foldSouth (unfolded evenLat oddLat odd)) odd
    refine ⟨?_, ?_, hlon₀.le, hlon₁⟩
    · change -90 ≤ foldSouth _
      unfold foldSouth
      split <;> linarith
    · change foldSouth _ ≤ 90
      unfold foldSouth
      split
      · linarith
      · next h₃ => exact hpole (not_le.1 h₃)

/-- **readsb never leaves the globe**, whatever the words. -/
theorem decodeCPRairborne_inRange (hp : decodeCPRairborne evenLat evenLon oddLat oddLon odd = .ok p) :
    InRange p := by
  have hturn : ∀ rlon : ℚ, -180 ≤ rlon - ⌊(rlon + 180) / 360⌋ * 360 ∧
      rlon - ⌊(rlon + 180) / 360⌋ * 360 ≤ 180 := by
    intro rlon
    have hlow := Int.floor_le ((rlon + 180) / 360)
    have hhigh := Int.lt_floor_add_one ((rlon + 180) / 360)
    constructor <;> linarith
  unfold decodeCPRairborne at hp
  simp only at hp
  split at hp
  · cases hp
  · next hlat =>
    simp only [not_or, not_lt, gt_iff_lt] at hlat
    obtain ⟨h₀, h₁, h₂, h₃⟩ := hlat
    split at hp
    · cases hp
    · cases hp
      refine ⟨?_, ?_, (hturn _).1, (hturn _).2⟩
      · cases odd <;> assumption
      · cases odd <;> assumption

/-- A decoded pair: both reports, at most ten seconds apart. -/
theorem decodePair_eq_some {position : ℤ → ℤ → ℤ → ℤ → Bool → Option (ℚ × ℚ)}
    {even odd : Option CprFrame} (h : decodePair position even odd = some p) :
    ∃ e o, even = some e ∧ odd = some o ∧ |e.ms - o.ms| ≤ 10000 ∧
      position e.lat e.lon o.lat o.lon (decide (o.ms > e.ms)) = some p := by
  cases even with
  | none => cases h
  | some e =>
    cases odd with
    | none => cases h
    | some o =>
      rw [decodePair] at h
      split at h
      · cases h
      · next hrecent => exact ⟨e, o, rfl, rfl, not_lt.1 hrecent, h⟩

theorem toOption_inRange
    (hp : (decodeCPRairborne evenLat evenLon oddLat oddLon odd).toOption = some p) : InRange p := by
  cases hdecode : decodeCPRairborne evenLat evenLon oddLat oddLon odd with
  | error code =>
    rw [hdecode] at hp
    cases hp
  | ok p' =>
    rw [hdecode] at hp
    cases hp
    exact decodeCPRairborne_inRange hdecode

end Decode

end AdsbBridge.Cpr
