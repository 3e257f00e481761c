import AdsbBridge.Lib.Decimal

/-! # Lines read back

`SbsUpdate.parse`: what `BridgeAircraftStore` takes out of a line. `null` is
`none`. -/
namespace AdsbBridge.Store
open AdsbBridge.Lib

structure SbsUpdate where
  hex : Text
  flight : Option Text
  category : Option Text
  lat : Option JavaDouble
  lon : Option JavaDouble
  altitudeFt : Option Int32
  groundSpeedKt : Option JavaDouble
  trackDeg : Option JavaDouble
  verticalRateFpm : Option JavaDouble
  verticalRateReference : Option Text
  deriving DecidableEq, Repr

/-- `toUpperCase(Locale.US)` of a character, which may be several characters. What it is
beyond ASCII stands in the tables of the platform. -/
class UpperCase where
  upper : Char → Text
  upper_ascii : ∀ c : Char, c.toNat < 128 → upper c = [c.toUpper]

/-- For runs on lines of ASCII. -/
instance asciiCase : UpperCase := ⟨fun c => [c.toUpper], fun _ _ => rfl⟩

namespace SbsUpdate

/-- `toUpperCase(Locale.US)`. -/
def toUpperCase [UpperCase] (t : Text) : Text := t.flatMap UpperCase.upper

/-- `"MSG".equalsIgnoreCase(value)`; the long s is the one other character that
has one of these letters as its capital. -/
def isMsg (value : Text) : Bool :=
  value.map (fun c => if c = 'ſ' then 'S' else c.toUpper) == "MSG".toList

def clean (value : Text) : Option Text :=
  let trimmed := Text.trim value
  if trimmed.isEmpty then none else some trimmed

def normalizedVerticalRateReference [UpperCase] (value : Text) : Option Text :=
  match clean value with
  | none => none
  | some cleaned =>
    let normalized := toUpperCase cleaned
    if normalized = "BARO".toList ∨ normalized = "GEOM".toList then some normalized else none

/-- `cleaned.matches("(?i)[A-D][0-7]")`. -/
def isCategory : Text → Bool
  | [c, d] => ('A' ≤ c.toUpper && c.toUpper ≤ 'D') && ('0' ≤ d && d ≤ '7')
  | _ => false

def normalizedCategory [UpperCase] (value : Text) : Option Text :=
  match clean value with
  | none => none
  | some cleaned => if isCategory cleaned then some (toUpperCase cleaned) else none

/-- `parseInt`; a text that is no number is `null`. -/
def parseInt (value : Text) : Option Int32 := (clean value).bind Text.parseInt

/-- `parseDouble`; `NaN` and the infinities are `null`. -/
def parseDouble (value : Text) : Option JavaDouble :=
  ((clean value).bind Text.parseDouble).filter JavaDouble.isFinite

def updateOf [UpperCase] (fields : List Text) (hex : Text) : SbsUpdate :=
  let field (i : ℕ) : Text := fields.getD i []
  { hex := toUpperCase hex
    flight := clean (field 10)
    category := if fields.length > 23 then normalizedCategory (field 23) else none
    lat := parseDouble (field 14)
    lon := parseDouble (field 15)
    altitudeFt := parseInt (field 11)
    groundSpeedKt := parseDouble (field 12)
    trackDeg := parseDouble (field 13)
    verticalRateFpm := parseDouble (field 16)
    verticalRateReference :=
      if fields.length > 22 then normalizedVerticalRateReference (field 22) else none }

/-- What `parse` does with the fields of a line. -/
def ofFields [UpperCase] (fields : List Text) : Option SbsUpdate :=
  if fields.length < 22 ∨ isMsg (Text.trim (fields.getD 0 [])) = false then none
  else (clean (fields.getD 4 [])).map (updateOf fields)

def parse [UpperCase] (line : Text) : Option SbsUpdate := ofFields (Text.splitFields line)

/-! ## Fields as the line writers fill them -/

theorem clean_of_visible {t : Text} (h : Text.Over Text.isVisible t) (hne : t ≠ []) :
    clean t = some t := by
  rw [clean, Text.trim_of_visible h, if_neg (by simpa using hne)]

theorem clean_ofInt (v : ℤ) : clean (Text.ofInt v) = some (Text.ofInt v) :=
  clean_of_visible ((Text.over_ofInt v).mono fun _ => Text.isVisible_of_isNumeric)
    (Text.ofInt_ne_nil v)

theorem parseInt_ofInt (v : Int32) : parseInt (Text.ofInt v.toInt) = some v := by
  rw [parseInt, clean_ofInt, Option.bind_some, Text.parseInt_ofInt]

theorem parseDouble_ofInt (v : Int32) :
    parseDouble (Text.ofInt v.toInt) = some (.finite v.toInt) := by
  rw [parseDouble, clean_ofInt, Option.bind_some, Text.parseDouble_ofInt]
  rfl

/-- Capitals and digits of ASCII stay as they are. -/
theorem toUpperCase_of_capital [UpperCase] {t : Text}
    (h : ∀ c ∈ t, c.toNat < 128 ∧ c.toUpper = c) : toUpperCase t = t := by
  have hupper : ∀ c ∈ t, UpperCase.upper c = [c] := by
    intro c hc
    obtain ⟨hascii, hcapital⟩ := h c hc
    rw [UpperCase.upper_ascii c hascii, hcapital]
  rw [toUpperCase, List.flatMap_congr hupper, List.flatMap_singleton']

theorem toUpperCase_hexOf [UpperCase] (width n : ℕ) :
    toUpperCase (Text.hexOf width n) = Text.hexOf width n := by
  have hall : (Text.hexDigits.toList.all fun d => d.toNat < 128 && d.toUpper == d) = true := by
    decide
  refine toUpperCase_of_capital fun c hc => ?_
  have hdigit := List.all_eq_true.1 hall c
    (by simpa [Text.isHex] using Text.over_hexOf width n c hc)
  rw [Bool.and_eq_true, decide_eq_true_iff, beq_iff_eq] at hdigit
  exact hdigit

/-- The two references are read as the writers print them. -/
theorem normalizedVerticalRateReference_of_capital [UpperCase] {t : Text}
    (ht : t = "BARO".toList ∨ t = "GEOM".toList) : normalizedVerticalRateReference t = some t := by
  have hclean : clean t = some t := by
    rcases ht with rfl | rfl
    · rfl
    · rfl
  have hall : (t.all fun c => decide (c.toNat < 128) && c.toUpper == c) = true := by
    rcases ht with rfl | rfl
    · rfl
    · rfl
  have hupper : toUpperCase t = t := by
    refine toUpperCase_of_capital fun c hc => ?_
    have hcapital := List.all_eq_true.1 hall c hc
    rwa [Bool.and_eq_true, decide_eq_true_iff, beq_iff_eq] at hcapital
  simp only [normalizedVerticalRateReference, hclean, hupper, if_pos ht]

theorem clean_hexOf (width n : ℕ) (hw : width ≠ 0) :
    clean (Text.hexOf width n) = some (Text.hexOf width n) := by
  refine clean_of_visible ((Text.over_hexOf width n).mono fun _ => Text.isVisible_of_isHex) ?_
  rw [← List.length_pos_iff, Text.length_hexOf]
  exact Nat.pos_of_ne_zero hw

theorem parseInt_intField (o : Option Int32) :
    parseInt (Text.orBlank (fun v : Int32 => Text.ofInt v.toInt) o) = o := by
  cases o with
  | none => rfl
  | some v => exact parseInt_ofInt v

theorem parseDouble_intField (o : Option Int32) :
    parseDouble (Text.orBlank (fun v : Int32 => Text.ofInt v.toInt) o) =
      o.map fun v => .finite v.toInt := by
  cases o with
  | none => rfl
  | some v => exact parseDouble_ofInt v

/-- A coordinate as the writers print it. -/
theorem parseDouble_fixed {round : ℚ → ℤ} (hround : Text.IsNearest round) {x : ℚ}
    (hx : |x| ≤ JavaDouble.greatest) :
    parseDouble (Text.fixed round 5 x) =
      some (.finite (binary64.round (Text.roundedTo round 5 x))) := by
  have hvisible : Text.Over Text.isVisible (Text.fixed round 5 x) :=
    (Text.over_fixed round 5 x).mono fun _ => Text.isVisible_of_isNumeric
  have hbound : |Text.roundedTo round 5 x| < JavaDouble.overflow := by
    have hclose := hround.roundedTo_sub 5 x
    have htri : |Text.roundedTo round 5 x| ≤ |Text.roundedTo round 5 x - x| + |x| := by
      simpa using abs_add_le (Text.roundedTo round 5 x - x) x
    have hlast := JavaDouble.greatest_lt_overflow
    norm_num at hclose
    linarith
  have hread := Text.parseDouble_fixed round (by decide : 0 < 5) x hbound
  have hne : Text.fixed round 5 x ≠ [] := by
    intro hnil
    rw [hnil] at hread
    cases hread
  rw [parseDouble, clean_of_visible hvisible hne, Option.bind_some, hread]
  rfl

/-- Fields without a comma come back from the line they were joined to. -/
theorem parse_joinFields [UpperCase] {fields : List Text} (h : ∀ f ∈ fields, ',' ∉ f)
    (hne : fields ≠ []) : parse (Text.joinFields fields) = ofFields fields := by
  rw [parse, Text.splitFields_joinFields h hne]

theorem ofFields_of_msg [UpperCase] {fields : List Text} {hex : Text} (hlen : 22 ≤ fields.length)
    (hmsg : fields.getD 0 [] = "MSG".toList) (hhex : clean (fields.getD 4 []) = some hex) :
    ofFields fields = some (updateOf fields hex) := by
  have hmsg' : isMsg (Text.trim "MSG".toList) = true := by decide
  rw [ofFields, hmsg, hmsg', hhex, if_neg (by simpa using hlen), Option.map_some]

end SbsUpdate

end AdsbBridge.Store
