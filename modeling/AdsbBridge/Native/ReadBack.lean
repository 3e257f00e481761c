import AdsbBridge.Native.Stored

/-! # Native lines read back

`to_sbs_line` and `SbsUpdate.parse` are tied by nothing but the positions of
the fields. For a state that messages can build, the store reads what the state
holds, and `null` where the line leaves a field blank. -/
namespace AdsbBridge.Native
open AdsbBridge.Lib AdsbBridge.Fields AdsbBridge.Readsb AdsbBridge.Cpr AdsbBridge.Store

def withoutBlanks (t : Text) : Text := ((t.dropWhile (· = ' ')).reverse.dropWhile (· = ' ')).reverse

/-- A coordinate is shown with five decimals, or left blank. The five decimals are read
as the `double` nearest to them, so that half a unit of its last place comes on top. -/
def CoordinateRead (shown : Bool) (x : Option ℚ) (read : Option JavaDouble) : Prop :=
  Option.Rel (fun x y => ∃ q, y = .finite q ∧
      q = binary64.round (Text.roundedTo Text.roundHalfEven 5 x) ∧
      |q - x| ≤ 5 / 1000000 + binary64.ulp (Text.roundedTo Text.roundHalfEven 5 x) / 2 ∧
      (|x| ≤ 360 → |q - x| ≤ 5 / 1000000 + 1 / 2 ^ 45))
    (if shown then x else none) read

/-- What the store reads in the line of a state. -/
structure ReadBack (hex : ℕ) (state : AircraftState) (includePosition : Bool)
    (update : SbsUpdate) : Prop where
  hex : update.hex = Text.hexOf 6 hex
  flight : update.flight =
    if withoutBlanks state.callsign = [] then none else some (withoutBlanks state.callsign)
  category : update.category = state.category.map fun c => Text.hexOf 2 (c.toInt % 256).toNat
  altitudeFt : update.altitudeFt = state.altitudeFt
  groundSpeedKt : update.groundSpeedKt = state.speedKt.map fun v => .finite v.toInt
  trackDeg : update.trackDeg = state.trackDeg.map fun v => .finite v.toInt
  lat : CoordinateRead includePosition state.lat update.lat
  lon : CoordinateRead includePosition state.lon update.lon
  verticalRateFpm : update.verticalRateFpm =
    (freshVerticalRate state).map fun r => .finite r.fpm.toInt
  verticalRateReference : update.verticalRateReference =
    (freshVerticalRate state).map VerticalRate.reference

/-! ## The fields -/

theorem dropWhile_congr {α : Type} {p q : α → Bool} {l : List α} (h : ∀ a ∈ l, p a = q a) :
    l.dropWhile p = l.dropWhile q := by
  induction l with
  | nil => rfl
  | cons a rest ih =>
    rw [List.dropWhile_cons, List.dropWhile_cons, h a List.mem_cons_self,
      ih fun b hb => h b (List.mem_cons_of_mem a hb)]

/-- In a callsign, `trim` takes away blanks only. -/
theorem trim_eq_withoutBlanks {t : Text} (h : Text.Over isCallsignChar t) :
    Text.trim t = withoutBlanks t := by
  have hblank : ∀ c ∈ t, decide (c ≤ ' ') = decide (c = ' ') := by
    intro c hc
    exact decide_eq_decide.2 (isCallsignChar_blank (h c hc))
  have hfront : t.dropWhile (fun c => decide (c ≤ ' ')) = t.dropWhile (fun c => decide (c = ' ')) :=
    dropWhile_congr hblank
  have hback : (t.dropWhile (fun c => decide (c = ' '))).reverse.dropWhile
      (fun c => decide (c ≤ ' ')) =
      (t.dropWhile (fun c => decide (c = ' '))).reverse.dropWhile (fun c => decide (c = ' ')) := by
    refine dropWhile_congr fun c hc => hblank c ?_
    exact (List.dropWhile_sublist _).subset (List.mem_reverse.1 hc)
  rw [Text.trim, hfront, hback, withoutBlanks]

theorem clean_callsign {t : Text} (h : Text.Over isCallsignChar t) :
    SbsUpdate.clean t = if withoutBlanks t = [] then none else some (withoutBlanks t) := by
  rw [SbsUpdate.clean, trim_eq_withoutBlanks h]
  simp only [List.isEmpty_iff]

theorem normalizedCategory_hexOf [UpperCase] {c : Int32} (h : IsCategory c) :
    SbsUpdate.normalizedCategory (Text.hexOf 2 (c.toInt % 256).toNat) =
      some (Text.hexOf 2 (c.toInt % 256).toNat) := by
  obtain ⟨metype, mesub, hlow, hhigh, hsub, rfl⟩ := h
  have hall : ∀ metype < 5, 1 ≤ metype → ∀ mesub < 8,
      SbsUpdate.isCategory (Text.hexOf 2
        ((Int32.ofNat ((((0x0e - metype) <<< 4) ||| mesub) &&& 0xff)).toInt % 256).toNat) = true := by
    decide
  rw [SbsUpdate.normalizedCategory, SbsUpdate.clean_hexOf 2 _ (by decide)]
  simp only [hall metype (by omega) hlow mesub (by omega), if_true, SbsUpdate.toUpperCase_hexOf]

theorem coordinateRead_field (shown : Bool) {x : Option ℚ}
    (h : ∀ y ∈ x, |y| ≤ JavaDouble.greatest) :
    CoordinateRead shown x
      (SbsUpdate.parseDouble (Sbs.coordinateField Text.roundHalfEven shown x)) := by
  unfold CoordinateRead Sbs.coordinateField
  cases shown with
  | false => exact .none
  | true =>
    cases x with
    | none => exact .none
    | some x =>
      have hread := SbsUpdate.parseDouble_fixed Text.isNearest_roundHalfEven (h x rfl)
      have hdecimals := Text.isNearest_roundHalfEven.roundedTo_sub 5 x
      rw [if_pos rfl, if_pos rfl, Text.orBlank, hread]
      -- first the decimals are rounded, then the number they name
      have herror : ∀ {error : ℚ}, |binary64.round (Text.roundedTo Text.roundHalfEven 5 x) -
            Text.roundedTo Text.roundHalfEven 5 x| ≤ error →
          |binary64.round (Text.roundedTo Text.roundHalfEven 5 x) - x| ≤ 5 / 1000000 + error := by
        intro error herror
        have htri := abs_sub_le (binary64.round (Text.roundedTo Text.roundHalfEven 5 x))
          (Text.roundedTo Text.roundHalfEven 5 x) x
        norm_num at hdecimals ⊢
        linarith
      refine .some ⟨_, rfl, rfl, herror (BinaryFormat.abs_round_sub_le _), fun hx => ?_⟩
      have hturn : |x| ≤ (360 : ℕ) := by exact_mod_cast hx
      exact herror (binary64_round_sub_le
        ((Text.isNearest_roundHalfEven.abs_roundedTo_le 5 hturn).trans_lt (by norm_num)))

/-! ## States that messages can build -/

/-- What `to_sbs_line` relies on: the callsign is plain and the category is one of
readsb's. -/
structure Printable (state : AircraftState) : Prop where
  plain : state.Plain
  category : ∀ c ∈ state.category, IsCategory c

section Printable

variable {state : AircraftState}

theorem printable_new (t : ℤ) : Printable { lastSeenMs := t } := ⟨plain_default, nofun⟩

theorem Printable.seen (h : Printable state) (t : ℤ) : Printable { state with lastSeenMs := t } :=
  ⟨h.plain, h.category⟩

theorem Printable.storeReport (h : Printable state) (odd : Bool) (lat lon : ℤ) :
    Printable (state.storeReport odd lat lon) := by
  unfold AircraftState.storeReport
  cases odd with
  | false => exact ⟨h.plain, h.category⟩
  | true => exact ⟨h.plain, h.category⟩

theorem Printable.decodeGlobalPosition (h : Printable state) {decoded : AircraftState}
    (hd : decodeGlobalPosition state = some decoded) : Printable decoded := by
  obtain ⟨p, -, rfl⟩ := Option.map_eq_some_iff.1 hd
  exact ⟨h.plain, h.category⟩

theorem Printable.decodeReadsbGlobalPosition (h : Printable state) {decoded : AircraftState}
    (hd : decodeReadsbGlobalPosition state = some decoded) : Printable decoded := by
  obtain ⟨p, -, rfl⟩ := Option.map_eq_some_iff.1 hd
  exact ⟨h.plain, h.category⟩

/-- **`handle_message` keeps a state printable.** -/
theorem Printable.applyMessage (h : Printable state) (trig : Trig) (clock : Clock)
    (message : Message) : Printable (applyMessage trig clock message state).1 := by
  unfold Native.applyMessage
  simp only
  split
  · exact ⟨decodeCallsign_plain message, h.category⟩
  split
  · exact applyPosition_keeps (fun s _ hs => ⟨hs.plain, hs.category⟩)
      (fun s hs => hs.storeReport _ _ _) (fun s s' hs hd => hs.decodeGlobalPosition hd) clock h
  split
  · unfold applyVelocity decodeVelocity
    split
    · exact h
    · exact ⟨h.plain, h.category⟩
  · exact h

/-- Up to the position report a message changes the category only to its own. -/
theorem beforeCpr_category (nowMs : ℤ) (decoded : ReadsbBridgeMessage) (state : AircraftState) :
    (beforeCpr nowMs decoded state).1.category = decoded.category.or state.category := by
  have hrate : ∀ s : AircraftState, (takeVerticalRate decoded s).category = s.category := by
    intro s; unfold takeVerticalRate; split <;> rfl
  have hvelocity : ∀ s : AircraftState, (takeVelocity decoded s).category = s.category := by
    intro s; unfold takeVelocity; split <;> rfl
  have haltitude : ∀ s : AircraftState, (takeAltitude decoded s).category = s.category := by
    intro s; unfold takeAltitude; split <;> rfl
  have hcallsign : ∀ s : AircraftState,
      (takeCallsign nowMs decoded s).1.category = s.category := by
    intro s; unfold takeCallsign; split <;> rfl
  have hcategory : (takeCategory decoded state).category = decoded.category.or state.category := by
    unfold takeCategory
    cases decoded.category <;> rfl
  simp only [beforeCpr, hrate, hvelocity, haltitude, hcallsign, hcategory]

/-- **`handle_readsb_decoded_message` keeps a state printable**, if the message
has one of readsb's categories or none. -/
theorem Printable.applyDecoded (h : Printable state) (nowMs : ℤ) {decoded : ReadsbBridgeMessage}
    (hcategory : ∀ c ∈ decoded.category, IsCategory c) :
    Printable (applyDecoded nowMs decoded state).1 := by
  have hbefore : Printable (beforeCpr nowMs decoded state).1 := by
    refine ⟨(beforeCpr_takesRate nowMs decoded state).plain h.plain, fun c hc => ?_⟩
    rw [beforeCpr_category] at hc
    rcases Option.or_eq_some_iff.1 hc with hown | ⟨-, hold⟩
    · exact hcategory c hown
    · exact h.category c hold
  rw [applyDecoded_eq]
  unfold takeCpr
  split
  · next cpr _ =>
    have hstored := hbefore.storeReport cpr.odd cpr.lat.toInt cpr.lon.toInt
    simp only
    split
    · next s hs => exact hstored.decodeReadsbGlobalPosition hs
    · exact hstored
  · exact hbefore

end Printable

/-! ## Runs -/

/-- One message for one of the two handlers. -/
inductive Incoming
  | fast (clock : Clock) (message : Message)
  | core (clock : Clock) (decoded : ReadsbBridgeMessage)

def Incoming.handle (trig : Trig) (decoder : Table) : Incoming → Table × Text
  | .fast clock message => handleMessage trig clock message decoder
  | .core clock decoded => handleReadsbDecodedMessage clock decoded decoder

/-- The table that a sequence of messages leaves behind in a new decoder. -/
def tableOf (trig : Trig) (incoming : List Incoming) : Table :=
  incoming.foldl (fun decoder i => (i.handle trig decoder).1) {}

/-- A category in a message is one of readsb's. -/
def Incoming.Categorized : Incoming → Prop
  | .fast _ _ => True
  | .core _ decoded => ∀ c ∈ decoded.category, IsCategory c

theorem Incoming.printable (trig : Trig) {decoder : Table} (h : decoder.All fun _ => Printable)
    {i : Incoming} (hi : i.Categorized) : (i.handle trig decoder).1.All fun _ => Printable := by
  cases i with
  | fast clock message =>
    unfold Incoming.handle handleMessage
    simp only
    split
    · exact h
    · exact visitAircraft_all (printable_new 0) (fun _ t hs => hs.seen t)
        (fun _ hs => hs.applyMessage trig clock message) h _ _
  | core clock decoded =>
    unfold Incoming.handle handleReadsbDecodedMessage
    simp only
    split
    · exact h
    · exact visitAircraft_all (printable_new 0) (fun _ t hs => hs.seen t)
        (fun _ hs => hs.applyDecoded clock.printed hi) h _ _

theorem printable_tableOf (trig : Trig) {incoming : List Incoming}
    (h : ∀ i ∈ incoming, i.Categorized) : (tableOf trig incoming).All fun _ => Printable := by
  have hfold : ∀ (incoming : List Incoming) (decoder : Table), decoder.All (fun _ => Printable) →
      (∀ i ∈ incoming, i.Categorized) →
      (incoming.foldl (fun decoder i => (i.handle trig decoder).1) decoder).All
        fun _ => Printable := by
    intro incoming
    induction incoming with
    | nil => exact fun _ htable _ => htable
    | cons i rest ih =>
      intro decoder htable hall
      exact ih _ (Incoming.printable trig htable (hall i List.mem_cons_self))
        fun i' hi' => hall i' (List.mem_cons_of_mem i hi')
  exact hfold incoming {} AircraftTable.all_fresh h

/-! ## The round trip -/

/-- The state with the coordinates that the code has in it. Its positions are computed
with `double`s, which the decoders' model leaves exact, so any of them may stand here. -/
def AircraftState.withCoordinates (state : AircraftState) (lat lon : Option FiniteDouble) :
    AircraftState :=
  { state with lat := lat.map FiniteDouble.value, lon := lon.map FiniteDouble.value }

theorem coordinateRead_double (shown : Bool) (x : Option FiniteDouble) :
    CoordinateRead shown (x.map FiniteDouble.value)
      (SbsUpdate.parseDouble
        (Sbs.coordinateField Text.roundHalfEven shown (x.map FiniteDouble.value))) := by
  refine coordinateRead_field shown fun y hy => ?_
  obtain ⟨d, -, rfl⟩ := Option.map_eq_some_iff.1 hy
  exact d.le_greatest

/-- The line of a printable state has 24 fields and is read back. -/
theorem Printable.readBack [UpperCase] {state : AircraftState} (h : Printable state)
    (lat lon : Option FiniteDouble) (nowMs : ℤ) (hex : ℕ) {transmissionType : ℕ}
    {includePosition : Bool}
    (hline : toSbsLine nowMs hex (state.withCoordinates lat lon) transmissionType
      includePosition ≠ []) :
    (Text.splitFields (toSbsLine nowMs hex (state.withCoordinates lat lon) transmissionType
        includePosition)).length = 24 ∧
      ∃ update, SbsUpdate.parse (toSbsLine nowMs hex (state.withCoordinates lat lon)
          transmissionType includePosition) = some update ∧
        ReadBack hex (state.withCoordinates lat lon) includePosition update := by
  have hplain : (state.withCoordinates lat lon).Plain := h.plain
  have hshown : suppressed (state.withCoordinates lat lon) transmissionType includePosition =
      false := by
    rw [ne_eq, toSbsLine_eq_nil_iff, Bool.not_eq_true] at hline
    exact hline
  refine ⟨?_, _, parse_toSbsLine hplain hshown, ?_⟩
  · rw [toSbsLine, hshown, if_neg Bool.false_ne_true,
      Text.splitFields_joinFields (no_comma_sbsFields hplain) sbsFields_ne_nil]
    rfl
  · constructor
    case hex => exact SbsUpdate.toUpperCase_hexOf 6 hex
    case flight => exact clean_callsign h.plain
    case category =>
      change SbsUpdate.normalizedCategory (Text.orBlank _ state.category) = _
      cases hc : state.category with
      | none =>
        change _ = Option.map _ state.category
        rw [hc]
        rfl
      | some c =>
        change _ = Option.map _ state.category
        rw [hc]
        exact normalizedCategory_hexOf (h.category c hc)
    case altitudeFt => exact SbsUpdate.parseInt_intField state.altitudeFt
    case groundSpeedKt => exact SbsUpdate.parseDouble_intField state.speedKt
    case trackDeg => exact SbsUpdate.parseDouble_intField state.trackDeg
    case lat => exact coordinateRead_double includePosition lat
    case lon => exact coordinateRead_double includePosition lon
    case verticalRateFpm =>
      change SbsUpdate.parseDouble (Text.orBlank _ ((freshVerticalRate _).map _)) = _
      rw [SbsUpdate.parseDouble_intField, Option.map_map]
      rfl
    case verticalRateReference => exact normalized_reference (freshVerticalRate _)

/-- **Encoder and parser round-trip** on every state that messages for the two
handlers build, for every address and kind of line. -/
theorem readBack_of_reachable [UpperCase] (trig : Trig) {incoming : List Incoming}
    (hincoming : ∀ i ∈ incoming, i.Categorized) {key : ℕ} {state : AircraftState}
    (hstate : (tableOf trig incoming).aircraft.get? key = some state)
    (lat lon : Option FiniteDouble) (nowMs : ℤ) (hex : ℕ) {transmissionType : ℕ}
    {includePosition : Bool}
    (hline : toSbsLine nowMs hex (state.withCoordinates lat lon) transmissionType
      includePosition ≠ []) :
    (Text.splitFields (toSbsLine nowMs hex (state.withCoordinates lat lon) transmissionType
        includePosition)).length = 24 ∧
      ∃ update, SbsUpdate.parse (toSbsLine nowMs hex (state.withCoordinates lat lon)
          transmissionType includePosition) = some update ∧
        ReadBack hex (state.withCoordinates lat lon) includePosition update :=
  (printable_tableOf trig hincoming key state hstate).readBack lat lon nowMs hex hline

/-- A position report of some parity, on the zero meridian. -/
def meridianReport (odd : Bool) (lat : Int32) : ReadsbBridgeMessage where
  addr := 0x4840d6
  cpr := some ⟨odd, lat, 0⟩

def descending : ReadsbBridgeMessage where
  addr := 0x4840d6
  callsign := some ⟨" KLM 1".toList, fun c hc =>
    List.all_eq_true.1 (by decide : " KLM 1".toList.all isCallsignChar = true) c hc⟩
  category := some 0xa3
  altitudeFt := some (-25)
  verticalRate := some (-640, true)

/-- A descent on the latitude 16.078125, of which the even report is the newer one. -/
def descent : List Incoming :=
  [.core ⟨800, 800⟩ (meridianReport true 83234), .core ⟨900, 900⟩ (meridianReport false 89088),
    .core ⟨1000, 1000⟩ descending]

def descentState : AircraftState where
  callsign := " KLM 1".toList
  lat := some 16.078125
  lon := some 0
  category := some 0xa3
  altitudeFt := some (-25)
  verticalRate := some ⟨-640, true, 1000⟩
  even := some ⟨89088, 0, 900⟩
  odd := some ⟨83234, 0, 800⟩
  lastSeenMs := 1000

theorem get?_descent :
    (tableOf ⟨fun _ => 0, fun _ _ => 0⟩ descent).aircraft.get? 0x4840d6 = some descentState := by
  decide +kernel

/-- The latitude 16.078125. -/
def sixteenth : FiniteDouble where
  value := 16.078125
  holds := ⟨1029, -6, by decide, by decide, by norm_num⟩
  le_greatest := by
    have hfar := JavaDouble.int_le_greatest
    norm_num at hfar ⊢
    linarith

/-- Its latitude is a tie of the fifth decimal, and the `double` that 16.07812 is read as
lies on the far side. -/
theorem descent_beyond_tie :
    (tableOf ⟨fun _ => 0, fun _ _ => 0⟩ descent).aircraft.get? 0x4840d6 = some descentState ∧
      descentState.lat = some 16.078125 ∧
      ∃ y, (SbsUpdate.parse (toSbsLine 1000 0x4840d6 descentState 3 true)).bind SbsUpdate.lat =
          some (.finite y) ∧
        5 / 1000000 < |y - 16.078125| := by
  have hshown : suppressed descentState 3 true = false := by decide
  have hplain : descentState.Plain := by
    have hall : " KLM 1".toList.all isCallsignChar = true := by decide
    exact fun c hc => List.all_eq_true.1 hall c hc
  have hround : binary64.round (Text.roundedTo Text.roundHalfEven 5 16.078125) =
      1131397113137783 / 2 ^ 46 := by
    decide +kernel
  have hlat := SbsUpdate.parseDouble_fixed Text.isNearest_roundHalfEven sixteenth.le_greatest
  refine ⟨get?_descent, rfl, 1131397113137783 / 2 ^ 46, ?_, by norm_num [abs_lt]⟩
  rw [parse_toSbsLine hplain hshown]
  exact hlat.trans (congrArg (fun q => some (JavaDouble.finite q)) hround)

theorem readBack_descending :
    ∃ update, SbsUpdate.parse (toSbsLine 1000 0x4840d6
        (descentState.withCoordinates (some sixteenth) (some sixteenth)) 3 true) = some update ∧
      ReadBack 0x4840d6 (descentState.withCoordinates (some sixteenth) (some sixteenth)) true
        update := by
  have hcategory : ∀ i ∈ descent, i.Categorized := by
    simp only [descent, List.mem_cons, List.not_mem_nil, or_false]
    rintro i (rfl | rfl | rfl)
    · exact nofun
    · exact nofun
    · intro c hc
      cases hc
      exact ⟨4, 3, by decide, by decide, by decide, by decide⟩
  exact (readBack_of_reachable _ hcategory get?_descent (some sixteenth) (some sixteenth) 1000
    0x4840d6 (by decide)).2

end AdsbBridge.Native
