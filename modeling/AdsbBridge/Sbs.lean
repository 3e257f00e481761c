import AdsbBridge.Lib.Text

/-! # Dates, times and records of the SBS format

What the two line writers share: `gmtime_r` with `put_time` on one side and
`SimpleDateFormat` in UTC on the other. -/
namespace AdsbBridge.Sbs
open AdsbBridge.Lib

/-- Year, month and day of a day number, day 0 being 1970-01-01. -/
def civilFromDays (days : ℤ) : ℤ × ℤ × ℤ :=
  let z := days + 719468
  let era := z / 146097
  let dayOfEra := z - era * 146097
  let yearOfEra := (dayOfEra - dayOfEra / 1460 + dayOfEra / 36524 - dayOfEra / 146096) / 365
  let dayOfYear := dayOfEra - (365 * yearOfEra + yearOfEra / 4 - yearOfEra / 100)
  let mp := (5 * dayOfYear + 2) / 153
  let day := dayOfYear - (153 * mp + 2) / 5 + 1
  let month := if mp < 10 then mp + 3 else mp - 9
  (yearOfEra + era * 400 + (if month ≤ 2 then 1 else 0), month, day)

def padded (width : ℕ) (v : ℤ) : Text := Text.padLeft width '0' (Text.ofInt v)

/-- `%Y/%m/%d`, `yyyy/MM/dd`. -/
def dateText (seconds : ℤ) : Text :=
  let (year, month, day) := civilFromDays (seconds / 86400)
  padded 4 year ++ '/' :: padded 2 month ++ '/' :: padded 2 day

/-- `%H:%M:%S` and the milliseconds, `HH:mm:ss.SSS`. -/
def timeText (seconds millis : ℤ) : Text :=
  let second := seconds % 86400
  padded 2 (second / 3600) ++ ':' :: padded 2 (second / 60 % 60) ++ ':' ::
    padded 2 (second % 60) ++ '.' :: padded 3 millis

def isDateTime (c : Char) : Bool := Text.isNumeric c || c == '/' || c == ':'

theorem over_padded (width : ℕ) (v : ℤ) : Text.Over isDateTime (padded width v) :=
  (Text.over_padLeft (by decide) (Text.over_ofInt v) width).mono
    (fun c hc => by simp [isDateTime, hc])

theorem over_dateText (seconds : ℤ) : Text.Over isDateTime (dateText seconds) := by
  unfold dateText
  exact ((over_padded _ _).append (Text.Over.cons (by decide) (over_padded _ _))).append
    (Text.Over.cons (by decide) (over_padded _ _))

theorem over_timeText (seconds millis : ℤ) : Text.Over isDateTime (timeText seconds millis) := by
  unfold timeText
  exact (((over_padded _ _).append (Text.Over.cons (by decide) (over_padded _ _))).append
    (Text.Over.cons (by decide) (over_padded _ _))).append
    (Text.Over.cons (by decide) (over_padded _ _))

def intField : Option Int32 → Text := Text.orBlank fun v => Text.ofInt v.toInt

/-- A coordinate with five decimals, blank when absent or not wanted. -/
def coordinateField (round : ℚ → ℤ) (shown : Bool) (x : Option ℚ) : Text :=
  if shown then Text.orBlank (Text.fixed round 5) x else []

theorem over_intField (o : Option Int32) : Text.Over Text.isNumeric (intField o) :=
  Text.over_orBlank o fun v => Text.over_ofInt v.toInt

theorem over_coordinateField (round : ℚ → ℤ) (shown : Bool) (x : Option ℚ) :
    Text.Over Text.isNumeric (coordinateField round shown x) := by
  unfold coordinateField
  split
  · exact Text.over_orBlank x fun v => Text.over_fixed round 5 v
  · intro c hc; simp at hc

end AdsbBridge.Sbs
