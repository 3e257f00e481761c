import AdsbBridge.Agreement.Run
import AdsbBridge.Cpr.Range
import AdsbBridge.Native.Stored

/-! # Positions on the globe

A line of type 3 shows the position that the newest pair of reports gives. The
readsb routine refuses latitudes beyond a pole; the other two decoders write
such a line exactly when the newest pair is off the globe. -/
namespace AdsbBridge
open AdsbBridge.Lib AdsbBridge.Fields AdsbBridge.Cpr AdsbBridge.FrontEnd AdsbBridge.Store

/-! ## What a line shows -/

/-- Two fields show a latitude and a longitude of the globe. -/
def ShowsInRange (latField lonField : Text) : Prop :=
  match SbsUpdate.parseDouble latField, SbsUpdate.parseDouble lonField with
  | some (.finite lat), some (.finite lon) => InRange (lat, lon)
  | _, _ => False

/-- A line of type 3 shows a position on the globe. -/
structure OnGlobe (line : Text) : Prop where
  shows : (Text.splitFields line).getD 1 [] = ['3'] →
    ShowsInRange ((Text.splitFields line).getD 14 []) ((Text.splitFields line).getD 15 [])

instance (latField lonField : Text) : Decidable (ShowsInRange latField lonField) := by
  unfold ShowsInRange
  split
  · infer_instance
  · exact instDecidableFalse

instance (line : Text) : Decidable (OnGlobe line) :=
  decidable_of_iff ((Text.splitFields line).getD 1 [] = ['3'] →
      ShowsInRange ((Text.splitFields line).getD 14 []) ((Text.splitFields line).getD 15 []))
    ⟨fun h => ⟨h⟩, fun h => h.shows⟩

def PairOffGlobe : Option CprFrame → Option CprFrame → Prop
  | some even, some odd =>
    |even.ms - odd.ms| ≤ 10000 ∧ OffGlobe even.lat odd.lat (decide (odd.ms > even.ms))
  | _, _ => False

section Fields

theorem onGlobe_joinFields {fields : List Text} (h : ∀ f ∈ fields, ',' ∉ f) (hne : fields ≠ []) :
    OnGlobe (Text.joinFields fields) ↔
      (fields.getD 1 [] = ['3'] → ShowsInRange (fields.getD 14 []) (fields.getD 15 [])) := by
  have hsplit := Text.splitFields_joinFields h hne
  constructor
  · intro hline
    have hshows := hline.shows
    rwa [hsplit] at hshows
  · intro hshows
    constructor
    rwa [hsplit]

theorem onGlobe_nil : OnGlobe [] := ⟨nofun⟩

theorem ofNat_ne_three {n : ℕ} (h : n ≠ 3) : Text.ofNat n ≠ ['3'] := by
  intro hn
  have hvalue := congrArg (fun t => Nat.ofDigitChars 10 t 0) hn
  simp only [Text.ofNat, Nat.ofDigitChars_ten_toDigits] at hvalue
  exact h hvalue

theorem showsInRange_fixed {round : ℚ → ℤ} (hround : Text.IsNearest round) {p : ℚ × ℚ}
    (h : InRange p) : ShowsInRange (Text.fixed round 5 p.1) (Text.fixed round 5 p.2) := by
  obtain ⟨hlat₀, hlat₁, hlon₀, hlon₁⟩ := h
  have hlat : |p.1| ≤ (90 : ℕ) := by
    rw [abs_le]
    exact ⟨by simpa using hlat₀, by simpa using hlat₁⟩
  have hlon : |p.2| ≤ (180 : ℕ) := by
    rw [abs_le]
    exact ⟨by simpa using hlon₀, by simpa using hlon₁⟩
  have hpole : binary64.Holds ((90 : ℕ) : ℚ) :=
    BinaryFormat.holds_intCast (v := 90) (by decide) (by decide)
  have hturn : binary64.Holds ((180 : ℕ) : ℚ) :=
    BinaryFormat.holds_intCast (v := 180) (by decide) (by decide)
  obtain ⟨hlat₂, hlat₃⟩ :=
    abs_le.1 (BinaryFormat.abs_round_le hpole (hround.abs_roundedTo_le 5 hlat))
  obtain ⟨hlon₂, hlon₃⟩ :=
    abs_le.1 (BinaryFormat.abs_round_le hturn (hround.abs_roundedTo_le 5 hlon))
  have hfar := JavaDouble.int_le_greatest
  have hlatFar : |p.1| ≤ JavaDouble.greatest := hlat.trans (by norm_num at hfar ⊢; linarith)
  have hlonFar : |p.2| ≤ JavaDouble.greatest := hlon.trans (by norm_num at hfar ⊢; linarith)
  rw [ShowsInRange, SbsUpdate.parseDouble_fixed hround hlatFar,
    SbsUpdate.parseDouble_fixed hround hlonFar]
  exact ⟨by simpa using hlat₂, by simpa using hlat₃, by simpa using hlon₂, by simpa using hlon₃⟩

theorem not_showsInRange_fixed {round : ℚ → ℤ} (hround : Text.IsNearest round) {p : ℚ × ℚ}
    (h : 90 + 1 / 100000 < p.1) (h' : p.1 < 270) :
    ¬ ShowsInRange (Text.fixed round 5 p.1) (Text.fixed round 5 p.2) := by
  obtain ⟨hclose, hclose'⟩ := abs_le.1 (hround.roundedTo_sub 5 p.1)
  norm_num at hclose hclose'
  have hsmall : |Text.roundedTo round 5 p.1| < 2 ^ 9 := by
    rw [abs_lt]
    constructor <;> linarith
  have hnear := (abs_le.1 (binary64_round_sub_le hsmall)).1
  have hfar := JavaDouble.int_le_greatest
  have hlat : |p.1| ≤ JavaDouble.greatest := by
    rw [abs_le]
    constructor <;> linarith
  rw [ShowsInRange, SbsUpdate.parseDouble_fixed hround hlat]
  intro hshows
  split at hshows
  · next lat lon heq _ =>
    cases heq
    have hhigh : binary64.round (Text.roundedTo round 5 p.1) ≤ 90 := hshows.2.1
    linarith
  · exact hshows

end Fields

/-! ## Pairs of reports -/

section Pair

variable {even odd : Option CprFrame} {p : ℚ × ℚ}

/-- The newest pair decodes, to a latitude beyond a pole. -/
theorem decodePair_offGlobe (heven : ∀ r ∈ even, IsWord r.lat ∧ IsWord r.lon)
    (hodd : ∀ r ∈ odd, IsWord r.lat ∧ IsWord r.lon) (h : PairOffGlobe even odd) :
    ∃ p, decodePair globalPosition even odd = some p ∧ 90 + 1 / 100000 < p.1 ∧ p.1 < 270 := by
  cases even with
  | none => exact absurd h id
  | some e =>
    cases odd with
    | none => exact absurd h id
    | some o =>
      obtain ⟨hrecent, hoff⟩ := h
      rw [decodePair, if_neg (not_lt.2 hrecent)]
      exact globalPosition_offGlobe (heven e rfl).1 (hodd o rfl).1 hoff

/-- Any other pair that decodes is on the globe. -/
theorem decodePair_inRange (heven : ∀ r ∈ even, IsWord r.lat ∧ IsWord r.lon)
    (hodd : ∀ r ∈ odd, IsWord r.lat ∧ IsWord r.lon) (h : ¬ PairOffGlobe even odd)
    (hp : decodePair globalPosition even odd = some p) : InRange p := by
  obtain ⟨e, o, rfl, rfl, hrecent, hposition⟩ := decodePair_eq_some hp
  exact globalPosition_inRange (heven e rfl).1 (heven e rfl).2 (hodd o rfl).1 (hodd o rfl).2
    (fun hoff => h ⟨hrecent, hoff⟩) hposition

end Pair

/-! ## The native decoder -/

namespace Native

section Lines

variable {nowMs : ℤ} {hex : ℕ} {state : AircraftState}

/-- Only lines of type 3 promise a position. -/
theorem onGlobe_of_type (hp : state.Plain) {transmissionType : ℕ} {includePosition : Bool}
    (h : transmissionType ≠ 3) :
    OnGlobe (toSbsLine nowMs hex state transmissionType includePosition) := by
  unfold toSbsLine
  split
  · exact onGlobe_nil
  · rw [onGlobe_joinFields (no_comma_sbsFields hp) sbsFields_ne_nil]
    exact fun htype => absurd htype (ofNat_ne_three h)

theorem onGlobe_position (hp : state.Plain) (p : ℚ × ℚ) :
    OnGlobe (toSbsLine nowMs hex (state.setPosition p) 3 true) ↔
      ShowsInRange (Text.fixed Text.roundHalfEven 5 p.1) (Text.fixed Text.roundHalfEven 5 p.2) := by
  have hshown : suppressed (state.setPosition p) 3 true = false := rfl
  have hplain : (state.setPosition p).Plain := hp
  have htype : Text.ofNat 3 = ['3'] := by decide
  rw [toSbsLine, hshown, if_neg Bool.false_ne_true,
    onGlobe_joinFields (no_comma_sbsFields hplain) sbsFields_ne_nil]
  exact ⟨fun h => h htype, fun h _ => h⟩

end Lines

/-! ### Native-fast -/

/-- The message is a position report whose newest pair is off the globe. -/
def CompletesOffGlobe (decoder : Table) (m : Clock × Message) : Prop :=
  9 ≤ typeCode m.2 ∧ typeCode m.2 ≤ 18 ∧
    let state := (stateFor m.1 m.2 decoder).storeReport (isOdd m.2) (cprLatWord m.2) (cprLonWord m.2)
    PairOffGlobe state.even state.odd

/-- The line of a position report whose pair has just been stored. -/
theorem decodeGlobalPosition_onGlobe {state : AircraftState} (h : Holding IsWord state) (nowMs : ℤ)
    (hex : ℕ) :
    (∀ decoded, decodeGlobalPosition state = some decoded →
      OnGlobe (toSbsLine nowMs hex decoded 3 true)) ↔ ¬ PairOffGlobe state.even state.odd := by
  constructor
  · intro hlines hoff
    obtain ⟨p, hp, hlow, hhigh⟩ := decodePair_offGlobe h.even h.odd hoff
    have hline := hlines (state.setPosition p) (by rw [decodeGlobalPosition, hp]; rfl)
    rw [onGlobe_position h.plain] at hline
    exact not_showsInRange_fixed Text.isNearest_roundHalfEven hlow hhigh hline
  · intro hin decoded hdecoded
    obtain ⟨p, hp, rfl⟩ := Option.map_eq_some_iff.1 hdecoded
    rw [onGlobe_position h.plain]
    exact showsInRange_fixed Text.isNearest_roundHalfEven (decodePair_inRange h.even h.odd hin hp)

theorem applyPosition_onGlobe (clock : Clock) (message : Message) {state : AircraftState}
    (h : Holding IsWord state) :
    OnGlobe (applyPosition clock message state).2 ↔
      ¬ PairOffGlobe
        (state.storeReport (isOdd message) (cprLatWord message) (cprLonWord message)).even
        (state.storeReport (isOdd message) (cprLatWord message) (cprLonWord message)).odd := by
  obtain ⟨hlat, hlon⟩ := isWord_cpr message
  obtain ⟨altitude, haltitude⟩ := applyPosition_altitude clock message state
  have hnamed : Holding IsWord { state with altitudeFt := altitude } := ⟨h.plain, h.even, h.odd⟩
  have hline := decodeGlobalPosition_onGlobe (hnamed.storeReport (isOdd message) hlat hlon)
    clock.printed (icaoAddress message)
  have hreports : SameReports
      (state.storeReport (isOdd message) (cprLatWord message) (cprLonWord message))
      ({ state with altitudeFt := altitude }.storeReport (isOdd message) (cprLatWord message)
        (cprLonWord message)) := by
    unfold AircraftState.storeReport
    cases isOdd message <;> exact ⟨rfl, rfl, rfl⟩
  rw [hreports.even, hreports.odd] at hline
  rw [← hline, haltitude]
  split
  · next decoded hdecoded =>
    rw [hdecoded]
    constructor
    · intro h decoded' h'
      cases h'
      exact h
    · intro h
      exact h decoded rfl
  · next hnone =>
    rw [hnone]
    constructor
    · intro _ decoded h
      cases h
    · intro _
      exact onGlobe_nil

/-- **When a message brings about a line off the globe.** -/
theorem handleMessage_onGlobe (trig : Trig) {decoder : Table} (m : Clock × Message)
    (h : decoder.All fun _ => Holding IsWord) :
    OnGlobe (handleMessage trig m.1 m.2 decoder).2 ↔ ¬ CompletesOffGlobe decoder m := by
  have hstate : Holding IsWord (stateFor m.1 m.2 decoder) :=
    (AircraftTable.All.getD (h.prune m.1.handled) (holding_new 0)).seen m.1.handled
  unfold handleMessage
  split
  · next htype =>
    refine ⟨fun _ hoff => ?_, fun _ => onGlobe_nil⟩
    obtain ⟨hlow, hhigh, -⟩ := hoff
    omega
  · next htype =>
    change OnGlobe (applyMessage trig m.1 m.2 (stateFor m.1 m.2 decoder)).2 ↔ _
    unfold applyMessage
    simp only
    split
    · next hident =>
      have hplain : AircraftState.Plain
          { stateFor m.1 m.2 decoder with callsign := decodeCallsign m.2 } := decodeCallsign_plain m.2
      refine ⟨fun _ hoff => ?_, fun _ => onGlobe_of_type hplain (by decide)⟩
      obtain ⟨hlow, -⟩ := hoff
      omega
    split
    · next hposition =>
      rw [applyPosition_onGlobe m.1 m.2 hstate]
      refine not_congr ⟨fun hoff => ⟨hposition.1, hposition.2, hoff⟩, fun hoff => hoff.2.2⟩
    split
    · next hvelocity =>
      have hplain : (decodeVelocity trig m.2 (stateFor m.1 m.2 decoder)).Plain := by
        unfold decodeVelocity
        split
        · exact hstate.plain
        · exact hstate.plain
      refine ⟨fun _ hoff => ?_, fun _ => onGlobe_of_type hplain (by decide)⟩
      obtain ⟨-, hhigh, -⟩ := hoff
      omega
    · next hposition _ =>
      exact ⟨fun _ hoff => hposition ⟨hoff.1, hoff.2.1⟩, fun _ => onGlobe_nil⟩

theorem handleMessage_holding (trig : Trig) {decoder : Table} (m : Clock × Message)
    (h : decoder.All fun _ => Holding IsWord) :
    (handleMessage trig m.1 m.2 decoder).1.All fun _ => Holding IsWord := by
  obtain ⟨hlat, hlon⟩ := isWord_cpr m.2
  unfold handleMessage
  split
  · exact h
  · exact visitAircraft_all (holding_new 0) (fun _ t hs => hs.seen t)
      (fun _ hs => hs.applyMessage trig m.1 hlat hlon) h m.1.handled (icaoAddress m.2)

/-! ### READSB_CORE -/

/-- Whatever the message, its line stays on the globe. -/
theorem applyDecoded_onGlobe (nowMs : ℤ) (decoded : Readsb.ReadsbBridgeMessage)
    {state : AircraftState} (hp : state.Plain) : OnGlobe (applyDecoded nowMs decoded state).2 := by
  have hbefore := (beforeCpr_takesRate nowMs decoded state).plain hp
  have hline : OnGlobe (lineBeforeCpr nowMs decoded state) := by
    unfold lineBeforeCpr
    split
    · exact onGlobe_of_type hbefore (by decide)
    · unfold beforeCpr takeCallsign
      split
      · next callsign _ =>
        have hplain : AircraftState.Plain { takeCategory decoded state with
            callsign := dropTrailingBlanks callsign.text } := dropTrailingBlanks_over callsign.plain
        exact onGlobe_of_type hplain (by decide)
      · exact onGlobe_nil
  rw [applyDecoded_eq]
  unfold takeCpr
  split
  · next cpr _ =>
    have hstored := (storeReport_keepsRate (beforeCpr nowMs decoded state).1 cpr.odd cpr.lat.toInt
      cpr.lon.toInt).plain hbefore
    simp only
    split
    · next s hs =>
      obtain ⟨p, hpair, rfl⟩ := Option.map_eq_some_iff.1 hs
      obtain ⟨e, o, -, -, -, hposition⟩ := decodePair_eq_some hpair
      have hin : InRange p := toOption_inRange hposition
      exact (onGlobe_position hstored p).2 (showsInRange_fixed Text.isNearest_roundHalfEven hin)
    · exact hline
  · exact hline

theorem handleReadsbDecodedMessage_onGlobe (clock : Clock) (decoded : Readsb.ReadsbBridgeMessage)
    {decoder : Table} (h : decoder.All fun _ => AircraftState.Plain) :
    OnGlobe (handleReadsbDecodedMessage clock decoded decoder).2 ∧
      (handleReadsbDecodedMessage clock decoded decoder).1.All fun _ => AircraftState.Plain := by
  unfold handleReadsbDecodedMessage
  split
  · exact ⟨onGlobe_nil, h⟩
  · have hseen : ∀ (s : AircraftState) (t : ℤ), s.Plain →
        AircraftState.Plain { s with lastSeenMs := t } := fun _ _ hs => hs
    obtain ⟨state, hstate, hline⟩ := visitAircraft_line plain_default hseen
      (applyDecoded clock.printed decoded) h clock.handled (aircraftKey decoded)
    rw [hline]
    exact ⟨applyDecoded_onGlobe _ _ hstate, visitAircraft_all plain_default hseen
      (fun _ hs => (applyDecoded_spec clock.printed decoded hs).1.plain hs) h _ _⟩

theorem handleDecoded_onGlobe (now : ℕ → Clock) (decoded : List (ℕ × Readsb.ReadsbBridgeMessage))
    {s : Table × List DeliveredMessage} (htable : s.1.All fun _ => AircraftState.Plain)
    (hlines : ∀ d ∈ s.2, OnGlobe d.line) :
    (decoded.foldl (handleDecoded now) s).1.All (fun _ => AircraftState.Plain) ∧
      ∀ d ∈ (decoded.foldl (handleDecoded now) s).2, OnGlobe d.line := by
  induction decoded generalizing s with
  | nil => exact ⟨htable, hlines⟩
  | cons d rest ih =>
    obtain ⟨hline, htable'⟩ := handleReadsbDecodedMessage_onGlobe (now s.2.length) d.2 htable
    refine ih htable' fun d' hd' => ?_
    rcases List.mem_append.1 hd' with h | h
    · exact hlines d' h
    · rw [List.mem_singleton.1 h]
      exact hline

/-- What a run of READSB_CORE calls delivers. -/
def coreDelivered {ρ : Type} (demodulate : Demodulator ρ) :
    ρ → DecoderState → List (Call × ℤ) → List DeliveredMessage
  | _, _, [] => []
  | readsb, decoder, (call, sysTime) :: rest =>
    let (readsb, decoder, delivered) :=
      processReadsbDemodulator demodulate sysTime readsb decoder call
    delivered ++ coreDelivered demodulate readsb decoder rest

/-- **A READSB_CORE run stays on the globe.** -/
theorem coreDelivered_onGlobe {ρ : Type} (demodulate : Demodulator ρ) (calls : List (Call × ℤ))
    (readsb : ρ) {decoder : DecoderState} (h : decoder.table.All fun _ => AircraftState.Plain) :
    ∀ d ∈ coreDelivered demodulate readsb decoder calls, OnGlobe d.line := by
  induction calls generalizing readsb decoder with
  | nil => exact nofun
  | cons c rest ih =>
    obtain ⟨call, sysTime⟩ := c
    obtain ⟨decoded, htable, hdelivered⟩ :=
      processReadsbDemodulator_handles demodulate sysTime readsb decoder call
    have hcall := @handleDecoded_onGlobe call.now decoded (decoder.table, []) h
      fun _ hd => absurd hd List.not_mem_nil
    rw [← htable, ← hdelivered] at hcall
    intro d hd
    rw [coreDelivered] at hd
    rcases List.mem_append.1 hd with hd | hd
    · exact hcall.2 d hd
    · exact ih _ hcall.1 d hd

end Native

/-! ## The legacy decoder -/

namespace Legacy

/-- The message is a position report whose newest pair is off the globe. -/
def CompletesOffGlobe (reader : Table) (m : Clock × Message) : Prop :=
  9 ≤ typeCode m.2 ∧ typeCode m.2 ≤ 18 ∧
    let state := (stateFor m.1 m.2 reader).storeReport (isOdd m.2) (cprLatWord m.2) (cprLonWord m.2)
    PairOffGlobe state.even state.odd

def LineOnGlobe (line : Option Text) : Prop := ∀ l ∈ line, OnGlobe l

section Lines

variable {nowMs : ℤ} {state : AircraftState}

theorem lineOnGlobe_none : LineOnGlobe none := nofun

theorem onGlobe_of_type (h : Holding IsWord state) {transmissionType : ℕ} {includePosition : Bool}
    (htype : transmissionType ≠ 3) :
    LineOnGlobe (toSbsLine nowMs state transmissionType includePosition) := by
  unfold toSbsLine
  split
  · exact lineOnGlobe_none
  · intro line hline
    cases hline
    rw [onGlobe_joinFields (no_comma_sbsFields h.hex h.callsign) sbsFields_ne_nil]
    exact fun heq => absurd heq (ofNat_ne_three htype)

theorem onGlobe_position (h : Holding IsWord state) (p : ℚ × ℚ) :
    LineOnGlobe (toSbsLine nowMs (state.setPosition p) 3 true) ↔
      ShowsInRange (Text.fixed Text.roundHalfAway 5 p.1) (Text.fixed Text.roundHalfAway 5 p.2) := by
  have hshown : suppressed (state.setPosition p) 3 true = false := rfl
  have htype : Text.ofNat 3 = ['3'] := by decide
  have hfields := onGlobe_joinFields
    (@no_comma_sbsFields nowMs (state.setPosition p) 3 true h.hex h.callsign) sbsFields_ne_nil
  rw [toSbsLine, hshown, if_neg Bool.false_ne_true]
  constructor
  · intro hline
    exact hfields.1 (hline _ rfl) htype
  · intro hshows line hline
    cases hline
    exact hfields.2 fun _ => hshows

/-- The line of a position report whose pair has just been stored. -/
theorem decodeGlobalPosition_onGlobe (h : Holding IsWord state) (nowMs : ℤ) :
    (∀ decoded, decodeGlobalPosition state = some decoded →
      LineOnGlobe (toSbsLine nowMs decoded 3 true)) ↔ ¬ PairOffGlobe state.even state.odd := by
  constructor
  · intro hlines hoff
    obtain ⟨p, hp, hlow, hhigh⟩ := decodePair_offGlobe h.even h.odd hoff
    have hline := hlines (state.setPosition p) (by rw [decodeGlobalPosition, hp]; rfl)
    rw [onGlobe_position h] at hline
    exact not_showsInRange_fixed Text.isNearest_roundHalfAway hlow hhigh hline
  · intro hin decoded hdecoded
    obtain ⟨p, hp, rfl⟩ := Option.map_eq_some_iff.1 hdecoded
    rw [onGlobe_position h]
    exact showsInRange_fixed Text.isNearest_roundHalfAway (decodePair_inRange h.even h.odd hin hp)

theorem applyPosition_onGlobe (clock : Clock) (message : Message) (h : Holding IsWord state) :
    LineOnGlobe (applyPosition clock message state).2 ↔
      ¬ PairOffGlobe
        (state.storeReport (isOdd message) (cprLatWord message) (cprLonWord message)).even
        (state.storeReport (isOdd message) (cprLatWord message) (cprLonWord message)).odd := by
  obtain ⟨hlat, hlon⟩ := Native.isWord_cpr message
  have hnamed : Holding IsWord { state with
      altitudeFt := decodeAltitudeFt (Frame.getBits message 40 12) } :=
    ⟨h.hex, h.callsign, h.even, h.odd⟩
  have hline := decodeGlobalPosition_onGlobe (hnamed.storeReport (isOdd message) hlat hlon)
    clock.printed
  have hreports : ∀ altitude : Option Int32,
      ({ state with altitudeFt := altitude }.storeReport (isOdd message) (cprLatWord message)
        (cprLonWord message)).even =
      (state.storeReport (isOdd message) (cprLatWord message) (cprLonWord message)).even ∧
      ({ state with altitudeFt := altitude }.storeReport (isOdd message) (cprLatWord message)
        (cprLonWord message)).odd =
      (state.storeReport (isOdd message) (cprLatWord message) (cprLonWord message)).odd := by
    intro altitude
    unfold AircraftState.storeReport
    cases isOdd message <;> exact ⟨rfl, rfl⟩
  rw [(hreports _).1, (hreports _).2] at hline
  rw [← hline]
  unfold applyPosition
  simp only
  split
  · next decoded hdecoded =>
    rw [hdecoded]
    constructor
    · intro h decoded' h'
      cases h'
      exact h
    · intro h
      exact h decoded rfl
  · next hnone =>
    rw [hnone]
    constructor
    · intro _ decoded h
      cases h
    · intro _
      exact lineOnGlobe_none

end Lines

/-- **When a message brings about a line off the globe.** -/
theorem handleMessage_onGlobe (trig : Trig) {reader : Table} (m : Clock × Message)
    (h : reader.All fun _ => Holding IsWord) :
    LineOnGlobe (handleMessage trig m.1 m.2 reader).2 ↔ ¬ CompletesOffGlobe reader m := by
  have hstate : Holding IsWord (stateFor m.1 m.2 reader) :=
    (AircraftTable.All.getD (h.prune m.1.handled) (holding_new m.2)).seen m.1.handled
  unfold handleMessage
  split
  · next htype =>
    refine ⟨fun _ hoff => ?_, fun _ => lineOnGlobe_none⟩
    obtain ⟨hlow, hhigh, -⟩ := hoff
    omega
  · next htype =>
    change LineOnGlobe (applyMessage trig m.1 m.2 (stateFor m.1 m.2 reader)).2 ↔ _
    unfold applyMessage
    simp only
    split
    · next hident =>
      have hnamed : Holding IsWord
          { stateFor m.1 m.2 reader with callsign := some (decodeCallsign m.2) } :=
        ⟨hstate.hex, Text.over_trim (callsignChars_over m.2), hstate.even, hstate.odd⟩
      refine ⟨fun _ hoff => ?_, fun _ => onGlobe_of_type hnamed (by decide)⟩
      obtain ⟨hlow, -⟩ := hoff
      omega
    split
    · next hposition =>
      rw [applyPosition_onGlobe m.1 m.2 hstate]
      refine not_congr ⟨fun hoff => ⟨hposition.1, hposition.2, hoff⟩, fun hoff => hoff.2.2⟩
    split
    · next hvelocity =>
      have hmoved : Holding IsWord (decodeVelocity trig m.2 (stateFor m.1 m.2 reader)) := by
        unfold decodeVelocity
        split
        · exact hstate
        · exact ⟨hstate.hex, hstate.callsign, hstate.even, hstate.odd⟩
      refine ⟨fun _ hoff => ?_, fun _ => onGlobe_of_type hmoved (by decide)⟩
      obtain ⟨-, hhigh, -⟩ := hoff
      omega
    · next hposition _ =>
      exact ⟨fun _ hoff => hposition ⟨hoff.1, hoff.2.1⟩, fun _ => lineOnGlobe_none⟩

theorem handleMessage_holding (trig : Trig) {reader : Table} (m : Clock × Message)
    (h : reader.All fun _ => Holding IsWord) :
    (handleMessage trig m.1 m.2 reader).1.All fun _ => Holding IsWord := by
  obtain ⟨hlat, hlon⟩ := Native.isWord_cpr m.2
  have hpruned : (pruneAircraftStates m.1.handled reader).All fun _ => Holding IsWord :=
    h.prune m.1.handled
  unfold handleMessage
  split
  · exact h
  · exact hpruned.put (((hpruned.getD (holding_new m.2)).seen m.1.handled).applyMessage trig m.1
      hlat hlon)

end Legacy

/-! ## Runs -/

/-- **When the emitted positions are on the globe.** A legacy or native-fast run
writes no line off the globe exactly if no message completes a pair that is off
it; READSB_CORE never writes one. Behind this are the decodes of any four words. -/
theorem onGlobe_iff (trig : Trig) :
    (∀ calls, (∀ f ∈ Legacy.handled trig calls, Legacy.LineOnGlobe f.line) ↔
      Trace.Along (handleStep (Legacy.handleMessage trig))
        (fun reader m => ¬ Legacy.CompletesOffGlobe reader m) {} (messagesOf [] calls)) ∧
    (∀ calls, (∀ f ∈ Native.handled trig calls, OnGlobe f.line) ↔
      Trace.Along (handleStep (Native.handleMessage trig))
        (fun decoder m => ¬ Native.CompletesOffGlobe decoder m) {} (messagesOf [] calls)) ∧
    (∀ (ρ : Type) (demodulate : Native.Demodulator ρ) (readsb : ρ) (calls : List (Call × ℤ)),
      ∀ d ∈ Native.coreDelivered demodulate readsb {} calls, OnGlobe d.line) ∧
    (∀ evenLat evenLon oddLat oddLon odd, IsWord evenLat → IsWord evenLon → IsWord oddLat →
      IsWord oddLon →
        ((∀ p, globalPosition evenLat evenLon oddLat oddLon odd = some p → InRange p) ↔
          ¬ OffGlobe evenLat oddLat odd) ∧
        ∀ p, (decodeCPRairborne evenLat evenLon oddLat oddLon odd).toOption = some p →
          InRange p) := by
  refine ⟨fun calls => ?_, fun calls => ?_, fun ρ demodulate readsb calls => ?_, ?_⟩
  · rw [Legacy.handled, handledFrames_eq (Legacy.processIq_isFrontEnd trig) calls Legacy.holds_fresh]
    exact handleAll_forall_iff _ (fun _ m h => Legacy.handleMessage_onGlobe trig m h)
      (fun _ m h => Legacy.handleMessage_holding trig m h) AircraftTable.all_fresh _
  · rw [Native.handled, handledFrames_eq (Native.processFast_isFrontEnd trig) calls Native.holds_fresh]
    exact handleAll_forall_iff _ (fun _ m h => Native.handleMessage_onGlobe trig m h)
      (fun _ m h => Native.handleMessage_holding trig m h) AircraftTable.all_fresh _
  · exact Native.coreDelivered_onGlobe demodulate calls readsb AircraftTable.all_fresh
  · intro evenLat evenLon oddLat oddLon odd helat helon holat holon
    refine ⟨⟨fun hin hoff => ?_, fun hin p => ?_⟩, fun p => toOption_inRange⟩
    · obtain ⟨p, hp, hlow, -⟩ := @globalPosition_offGlobe evenLat evenLon oddLat oddLon odd
        helat holat hoff
      have hhigh : p.1 ≤ 90 := (hin p hp).2.1
      linarith
    · exact globalPosition_inRange helat helon holat holon hin

/-- The words 0 and 87381 decode to a latitude beyond the pole. -/
theorem onGlobe_poleward_words :
    ¬ ∀ p, globalPosition 0 0 87381 0 false = some p → InRange p := by
  have hwords := (onGlobe_iff noTrig).2.2.2 0 0 87381 0 false ⟨by decide, by decide⟩
    ⟨by decide, by decide⟩ ⟨by decide, by decide⟩ ⟨by decide, by decide⟩
  rw [hwords.1]
  decide

/-! ## A pair beyond the pole -/

/-- An even report with both words zero. -/
def polewardEven : Message :=
  #v[0x8d, 0x48, 0x40, 0xd6, 0x58, 0xc3, 0x80, 0x00, 0x00, 0x00, 0x00, 0x2a, 0x50, 0x4f]

/-- An odd report with the latitude word 87381. -/
def polewardOdd : Message :=
  #v[0x8d, 0x48, 0x40, 0xd6, 0x58, 0xc3, 0x86, 0xaa, 0xaa, 0x00, 0x00, 0x8c, 0x1b, 0xea]

/-- Both, one behind the other, and a silent sample. -/
def poleward : List Call :=
  [⟨iqBytes (onAir polewardEven ++ onAir polewardOdd ++ [false]), firstSecond⟩]

theorem messagesOf_poleward :
    messagesOf [] poleward = [(⟨1000, 1000⟩, polewardEven), (⟨1000, 1000⟩, polewardOdd)] := by
  have hsquitter : ∀ frame ∈ [(0, polewardEven), (0, polewardOdd)], IsSquitter frame.2 := by
    intro frame hmem
    rcases List.mem_pair.1 hmem with rfl | rfl
    · exact ⟨.inl rfl, by decide⟩
    · exact ⟨.inl rfl, by decide⟩
  have hiq : iqBytes (onAir polewardEven ++ onAir polewardOdd ++ [false]) =
      iqBytes (transmissions 1 [(0, polewardEven), (0, polewardOdd)]) := by
    rw [List.append_assoc]
    rfl
  exact messagesOf_transmissions hiq firstSecond hsquitter fun _ => Nat.one_pos

def polewardLegacyLine : Text :=
  "MSG,3,1,1,4840D6,1,1970/01/01,00:00:01.000,1970/01/01,00:00:01.000,,38000,,,120.00000,0.00000,0,0,0,0,0,0".toList

def polewardNativeLine : Text :=
  "MSG,3,1,1,4840D6,1,1970/01/01,00:00:01.000,1970/01/01,00:00:01.000,,38000,,,120.00000,0.00000,,0,0,0,0,0,,".toList

theorem handled_poleward :
    (Legacy.handled noTrig poleward).map (·.line) = [none, some polewardLegacyLine] ∧
      (Native.handled noTrig poleward).map (·.line) = [[], polewardNativeLine] := by
  rw [Legacy.handled, Native.handled,
    handledFrames_eq (Legacy.processIq_isFrontEnd noTrig) _ Legacy.holds_fresh,
    handledFrames_eq (Native.processFast_isFrontEnd noTrig) _ Native.holds_fresh,
    messagesOf_poleward]
  constructor
  · decide +kernel
  · decide +kernel

theorem poleward_lines : ¬ OnGlobe polewardLegacyLine ∧ ¬ OnGlobe polewardNativeLine := by
  decide +kernel

/-- **Two reports of no consistent position** make both decoders write a line
with the latitude 120. -/
theorem poleward_off_globe :
    ¬ (∀ f ∈ Legacy.handled noTrig poleward, Legacy.LineOnGlobe f.line) ∧
      ¬ (∀ f ∈ Native.handled noTrig poleward, OnGlobe f.line) := by
  obtain ⟨hlegacy, hnative⟩ := handled_poleward
  constructor
  · intro h
    have hmem : some polewardLegacyLine ∈ (Legacy.handled noTrig poleward).map (·.line) := by
      rw [hlegacy]
      exact List.mem_cons_of_mem _ List.mem_cons_self
    obtain ⟨f, hf, hline⟩ := List.mem_map.1 hmem
    exact poleward_lines.1 (h f hf _ hline)
  · intro h
    have hmem : polewardNativeLine ∈ (Native.handled noTrig poleward).map (·.line) := by
      rw [hnative]
      exact List.mem_cons_of_mem _ List.mem_cons_self
    obtain ⟨f, hf, hline⟩ := List.mem_map.1 hmem
    exact poleward_lines.2 (hline ▸ h f hf)

end AdsbBridge
