import AdsbBridge.Handling

/-! # Which of two reports is the newer one

The decoders choose the parity of a position by the times at which the two
reports were handled. The report of the message at hand is the newest one; the
clock tells so unless it stands still in front of an odd report, or has gone
back. -/
namespace AdsbBridge
open AdsbBridge.Lib AdsbBridge.Cpr

/-- A position report as a message carries it. -/
structure Report where
  odd : Bool
  lat : ℤ
  lon : ℤ

def Report.other (r : Report) (even odd : Option CprFrame) : Option CprFrame :=
  if r.odd then even else odd

/-- The position that the report and one of the other parity give, the report
being the newest frame. -/
def ownPosition (position : ℤ → ℤ → ℤ → ℤ → Bool → Option (ℚ × ℚ)) (r : Report)
    (other : Option CprFrame) : Option (ℚ × ℚ) :=
  other.bind fun f =>
    if r.odd then position f.lat f.lon r.lat r.lon true else position r.lat r.lon f.lat f.lon false

/-- The clock reading `t` of the report tells it from one of the other parity
that is at most ten seconds away: it is later, or for an even report not earlier. -/
def TellsNewest (r : Report) (t : ℤ) (other : Option CprFrame) : Prop :=
  ∀ f ∈ other, |t - f.ms| ≤ 10000 → if r.odd then f.ms < t else f.ms ≤ t

/-- **The parity is that of the report** where the clock tells that it is the newest. -/
theorem decodePair_eq_ownPosition {position : ℤ → ℤ → ℤ → ℤ → Bool → Option (ℚ × ℚ)} {r : Report}
    {t : ℤ} {even odd : Option CprFrame} (h : TellsNewest r t (r.other even odd)) {p : ℚ × ℚ}
    (hp : decodePair position (if r.odd then even else some ⟨r.lat, r.lon, t⟩)
      (if r.odd then some ⟨r.lat, r.lon, t⟩ else odd) = some p) :
    ownPosition position r (r.other even odd) = some p := by
  obtain ⟨parity, lat, lon⟩ := r
  cases parity with
  | true =>
    cases even with
    | none => cases hp
    | some f =>
      simp only [if_true, decodePair] at hp
      split at hp
      · cases hp
      · next hwindow =>
        have hlt : f.ms < t := h f rfl (by rwa [abs_sub_comm, ← not_lt])
        rwa [decide_eq_true (show t > f.ms from hlt)] at hp
  | false =>
    cases odd with
    | none => cases hp
    | some f =>
      simp only [Bool.false_eq_true, if_false, decodePair] at hp
      split at hp
      · cases hp
      · next hwindow =>
        have hle : f.ms ≤ t := h f rfl (not_lt.1 hwindow)
        rwa [decide_eq_false (show ¬ f.ms > t from not_lt.2 hle)] at hp

def IsPositionLine (line : Text) : Prop := "MSG,3,".toList <+: line

instance : DecidablePred IsPositionLine := fun line =>
  inferInstanceAs (Decidable ("MSG,3,".toList <+: line))

theorem not_isPositionLine_nil : ¬ IsPositionLine [] := by
  intro h
  cases List.prefix_nil.1 h

/-- The airborne position report of an extended squitter. -/
def positionReport (message : Message) : Option Report :=
  if Fields.typeCode message ≥ 9 ∧ Fields.typeCode message ≤ 18 then
    some ⟨Fields.isOdd message, Fields.cprLatWord message, Fields.cprLonWord message⟩
  else none

/-! ## The legacy decoder -/

namespace Legacy
open AdsbBridge.Fields

/-- The line shows the position that the report of the message and the one of
the other parity in the state before it give. -/
def ShowsOwn (clock : Clock) (message : Message) (before after : AircraftState) (line : Text) :
    Prop :=
  ∃ r p, positionReport message = some r ∧
    ownPosition globalPosition r (r.other before.even before.odd) = some p ∧
      toSbsLine clock.printed (after.setPosition p) 3 true = some line

/-- A position line shows the report's own position. -/
def UsesOwn (e : Clock × Message) (before after : AircraftState) (out : Option Text) : Prop :=
  ∀ line, out = some line → IsPositionLine line → ShowsOwn e.1 e.2 before after line

def ClockTells (e : Clock × Message) (state : AircraftState) : Prop :=
  ∀ r, positionReport e.2 = some r → TellsNewest r e.1.handled (r.other state.even state.odd)

section Apply

variable {trig : Trig} {clock : Clock} {message : Message} {state : AircraftState} {line : Text}

theorem not_isPositionLine_toSbsLine {nowMs : ℤ} {n : ℕ} (hn : n = 1 ∨ n = 4) {pos : Bool}
    (h : toSbsLine nowMs state n pos = some line) : ¬ IsPositionLine line := by
  unfold toSbsLine at h
  split at h
  · cases h
  · cases h
    intro hprefix
    obtain ⟨rest, hrest⟩ := hprefix
    have htake := congrArg (List.take 5) hrest
    rcases hn with rfl | rfl
    · cases htake
    · cases htake

/-- The two reports after the one of the message has been stored. -/
theorem storeReport_pair (odd : Bool) (lat lon : ℤ) :
    (state.storeReport odd lat lon).even =
        (if odd then state.even else some ⟨lat, lon, state.lastSeenMs⟩) ∧
      (state.storeReport odd lat lon).odd =
        (if odd then some ⟨lat, lon, state.lastSeenMs⟩ else state.odd) := by
  cases odd with
  | true => exact ⟨rfl, rfl⟩
  | false => exact ⟨rfl, rfl⟩

theorem applyPosition_showsOwn (hseen : state.lastSeenMs = clock.handled)
    (htype : typeCode message ≥ 9 ∧ typeCode message ≤ 18)
    (h : ClockTells (clock, message) state)
    (hline : (applyPosition clock message state).2 = some line) :
    ShowsOwn clock message state (applyPosition clock message state).1 line := by
  have hreport : positionReport message =
      some ⟨isOdd message, cprLatWord message, cprLonWord message⟩ := if_pos htype
  have htells := h _ hreport
  rw [← hseen] at htells
  unfold applyPosition at hline ⊢
  simp only at hline ⊢
  cases hd : decodeGlobalPosition (({ state with
      altitudeFt := decodeAltitudeFt (Frame.getBits message 40 12) } : AircraftState).storeReport
        (isOdd message) (cprLatWord message) (cprLonWord message)) with
  | none =>
    rw [hd] at hline
    cases hline
  | some decoded =>
    rw [hd] at hline
    obtain ⟨p, hp, rfl⟩ := Option.map_eq_some_iff.1 hd
    obtain ⟨heven, hodd⟩ := @storeReport_pair { state with
      altitudeFt := decodeAltitudeFt (Frame.getBits message 40 12) } (isOdd message)
        (cprLatWord message) (cprLonWord message)
    rw [heven, hodd] at hp
    exact ⟨_, p, hreport, decodePair_eq_ownPosition htells hp, hline⟩

theorem applyMessage_usesOwn (hseen : state.lastSeenMs = clock.handled)
    (h : ClockTells (clock, message) state) :
    UsesOwn (clock, message) state (applyMessage trig clock message state).1
      (applyMessage trig clock message state).2 := by
  intro line hline hpos
  unfold applyMessage at hline ⊢
  simp only at hline ⊢
  split at hline
  · exact absurd hpos (not_isPositionLine_toSbsLine (.inl rfl) hline)
  · next hid =>
    rw [if_neg hid]
    split at hline
    · next htype =>
      rw [if_pos htype]
      exact applyPosition_showsOwn hseen htype h hline
    · split at hline
      · exact absurd hpos (not_isPositionLine_toSbsLine (.inr rfl) hline)
      · cases hline

end Apply

end Legacy

/-! ## The native decoder -/

namespace Native
open AdsbBridge.Fields AdsbBridge.Readsb

def Input.report : Input → Option Report
  | fast message => positionReport message
  | readsb decoded => decoded.cpr.map fun cpr => ⟨cpr.odd, cpr.lat.toInt, cpr.lon.toInt⟩

/-- The decoder of a pair. -/
def Input.position : Input → ℤ → ℤ → ℤ → ℤ → Bool → Option (ℚ × ℚ)
  | fast _ => globalPosition
  | readsb _ => fun evenLat evenLon oddLat oddLon useOdd =>
    (decodeCPRairborne evenLat evenLon oddLat oddLon useOdd).toOption

def Input.address : Input → ℕ
  | fast message => icaoAddress message
  | readsb decoded => decoded.addr.toNat

section Apply

variable {trig : Trig} {clock : Clock} {state : AircraftState}

theorem not_isPositionLine_toSbsLine {nowMs : ℤ} {hex n : ℕ} (hn : n = 1 ∨ n = 4) (pos : Bool) :
    ¬ IsPositionLine (toSbsLine nowMs hex state n pos) := by
  unfold toSbsLine
  split
  · exact not_isPositionLine_nil
  · intro h
    obtain ⟨rest, hrest⟩ := h
    have htake := congrArg (List.take 5) hrest
    rcases hn with rfl | rfl
    · cases htake
    · cases htake

/-- The two reports after the one of the message has been stored. -/
theorem storeReport_pair (odd : Bool) (lat lon : ℤ) :
    (state.storeReport odd lat lon).even =
        (if odd then state.even else some ⟨lat, lon, state.lastSeenMs⟩) ∧
      (state.storeReport odd lat lon).odd =
        (if odd then some ⟨lat, lon, state.lastSeenMs⟩ else state.odd) := by
  cases odd <;> exact ⟨rfl, rfl⟩

/-- A position decoded after the report has been stored is the report's own. -/
theorem own_of_decoded {position : ℤ → ℤ → ℤ → ℤ → Bool → Option (ℚ × ℚ)} {r : Report}
    (h : TellsNewest r state.lastSeenMs (r.other state.even state.odd)) {decoded : AircraftState}
    (hd : (decodePair position (state.storeReport r.odd r.lat r.lon).even
      (state.storeReport r.odd r.lat r.lon).odd).map
        (state.storeReport r.odd r.lat r.lon).setPosition = some decoded) :
    ∃ p, ownPosition position r (r.other state.even state.odd) = some p ∧
      decoded.setPosition p = decoded := by
  obtain ⟨p, hp, rfl⟩ := Option.map_eq_some_iff.1 hd
  obtain ⟨heven, hodd⟩ := @storeReport_pair state r.odd r.lat r.lon
  rw [heven, hodd] at hp
  exact ⟨p, decodePair_eq_ownPosition h hp, rfl⟩

/-- The line shows the position that the report of the input and the one of the
other parity in the state before it give. -/
def ShowsOwn (clock : Clock) (input : Input) (before after : AircraftState) (line : Text) : Prop :=
  ∃ r p, input.report = some r ∧
    ownPosition input.position r (r.other before.even before.odd) = some p ∧
      line = toSbsLine clock.printed input.address (after.setPosition p) 3 true

/-- A position line shows the report's own position. -/
def UsesOwn (e : Clock × Input) (before after : AircraftState) (line : Text) : Prop :=
  IsPositionLine line → ShowsOwn e.1 e.2 before after line

def ClockTells (e : Clock × Input) (state : AircraftState) : Prop :=
  ∀ r, e.2.report = some r → TellsNewest r e.1.handled (r.other state.even state.odd)

/-- A position message: the report is stored, and the line is that of the
position that comes out of it. -/
theorem applyPosition_eq (clock : Clock) (message : Message) (state : AircraftState) :
    ∃ named, SameReports state named ∧ applyPosition clock message state =
      (decodeGlobalPosition (named.storeReport (isOdd message) (cprLatWord message)
        (cprLonWord message))).elim
        (named.storeReport (isOdd message) (cprLatWord message) (cprLonWord message), [])
        fun s => (s, toSbsLine clock.printed (icaoAddress message) s 3 true) := by
  unfold applyPosition
  cases decodeAltitudeFt (Frame.getBits message 40 12) with
  | none =>
    refine ⟨state, ⟨rfl, rfl, rfl⟩, ?_⟩
    simp only
    cases decodeGlobalPosition (state.storeReport (isOdd message) (cprLatWord message)
      (cprLonWord message)) <;> rfl
  | some altitude =>
    refine ⟨{ state with altitudeFt := some altitude }, ⟨rfl, rfl, rfl⟩, ?_⟩
    simp only
    cases decodeGlobalPosition ({ state with altitudeFt := some altitude }.storeReport
      (isOdd message) (cprLatWord message) (cprLonWord message)) <;> rfl

theorem applyPosition_showsOwn {message : Message} (hseen : state.lastSeenMs = clock.handled)
    (htype : typeCode message ≥ 9 ∧ typeCode message ≤ 18)
    (h : ClockTells (clock, .fast message) state)
    (hline : IsPositionLine (applyPosition clock message state).2) :
    ShowsOwn clock (.fast message) state (applyPosition clock message state).1
      (applyPosition clock message state).2 := by
  have hreport : (Input.fast message).report =
      some ⟨isOdd message, cprLatWord message, cprLonWord message⟩ := if_pos htype
  obtain ⟨named, hsame, heq⟩ := applyPosition_eq clock message state
  have htells := h _ hreport
  rw [← hseen, ← hsame.lastSeen, ← hsame.even, ← hsame.odd] at htells
  rw [heq] at hline ⊢
  cases hd : decodeGlobalPosition (named.storeReport (isOdd message) (cprLatWord message)
      (cprLonWord message)) with
  | none =>
    rw [hd] at hline
    exact absurd hline not_isPositionLine_nil
  | some decoded =>
    obtain ⟨p, hp, hshown⟩ := own_of_decoded htells hd
    rw [hsame.even, hsame.odd] at hp
    exact ⟨_, p, hreport, hp, by rw [Option.elim_some, hshown]; rfl⟩

/-- The line in front of a report is of another type. -/
theorem not_isPositionLine_lineBeforeCpr (nowMs : ℤ) (decoded : ReadsbBridgeMessage) :
    ¬ IsPositionLine (lineBeforeCpr nowMs decoded state) := by
  unfold lineBeforeCpr
  split
  · exact not_isPositionLine_toSbsLine (.inr rfl) false
  · unfold beforeCpr takeCallsign
    simp only
    split
    · exact not_isPositionLine_toSbsLine (.inl rfl) false
    · exact not_isPositionLine_nil

theorem applyDecoded_showsOwn {decoded : ReadsbBridgeMessage}
    (hseen : state.lastSeenMs = clock.handled) (h : ClockTells (clock, .readsb decoded) state)
    (hline : IsPositionLine (applyDecoded clock.printed decoded state).2) :
    ShowsOwn clock (.readsb decoded) state (applyDecoded clock.printed decoded state).1
      (applyDecoded clock.printed decoded state).2 := by
  have hsame := beforeCpr_sameReports clock.printed decoded state
  rw [applyDecoded_eq] at hline ⊢
  unfold takeCpr at hline ⊢
  cases hcpr : decoded.cpr with
  | none =>
    rw [hcpr] at hline
    exact absurd hline (not_isPositionLine_lineBeforeCpr clock.printed decoded)
  | some cpr =>
    have hreport : (Input.readsb decoded).report =
        some ⟨cpr.odd, cpr.lat.toInt, cpr.lon.toInt⟩ := by
      rw [Input.report, hcpr, Option.map_some]
    have htells := h _ hreport
    rw [← hseen, ← hsame.lastSeen, ← hsame.even, ← hsame.odd] at htells
    rw [hcpr] at hline
    simp only at hline ⊢
    cases hd : decodeReadsbGlobalPosition ((beforeCpr clock.printed decoded state).1.storeReport
        cpr.odd cpr.lat.toInt cpr.lon.toInt) with
    | none =>
      rw [hd] at hline
      exact absurd hline (not_isPositionLine_lineBeforeCpr clock.printed decoded)
    | some placed =>
      obtain ⟨p, hp, hshown⟩ := own_of_decoded htells hd
      rw [hsame.even, hsame.odd] at hp
      exact ⟨_, p, hreport, hp, by rw [hshown]; rfl⟩

theorem applyMessage_usesOwn {message : Message} (hseen : state.lastSeenMs = clock.handled)
    (h : ClockTells (clock, .fast message) state) :
    UsesOwn (clock, .fast message) state (applyMessage trig clock message state).1
      (applyMessage trig clock message state).2 := by
  intro hline
  unfold applyMessage at hline ⊢
  simp only at hline ⊢
  split at hline
  · exact absurd hline (not_isPositionLine_toSbsLine (.inl rfl) false)
  · next hid =>
    rw [if_neg hid]
    split at hline
    · next htype =>
      rw [if_pos htype]
      exact applyPosition_showsOwn hseen htype h hline
    · split at hline
      · exact absurd hline (not_isPositionLine_toSbsLine (.inr rfl) false)
      · exact absurd hline not_isPositionLine_nil

/-- **A position line is the report's own** where the clock tells that the
report is the newest one. -/
theorem Input.apply_usesOwn (input : Input) (h : ClockTells (clock, input) state) :
    UsesOwn (clock, input) state (input.apply trig clock state).1
      (input.apply trig clock state).2 := by
  cases input with
  | fast message =>
    have hseen : ClockTells (clock, .fast message) { state with lastSeenMs := clock.handled } := h
    exact applyMessage_usesOwn rfl hseen
  | readsb decoded =>
    have hseen : ClockTells (clock, .readsb decoded) { state with lastSeenMs := clock.handled } := h
    exact applyDecoded_showsOwn rfl hseen

end Apply

end Native

/-! ## Runs -/

/-- **Every position line shows the position of the report it comes of**, in all
decoders, in a run in which the clock always tells that the report at hand is
the newest one. -/
theorem usesOwn_of_clockTells (trig : Fields.Trig) (legacy : List (Clock × Message))
    (native : List (Clock × Native.Input))
    (hlegacy : Trace.Along (Legacy.handler trig).step
      ((Legacy.handler trig).Finds Legacy.ClockTells) {} legacy)
    (hnative : Trace.Along (Native.handler trig).step
      ((Native.handler trig).Finds Native.ClockTells) {} native) :
    Trace.Along (Legacy.handler trig).step ((Legacy.handler trig).Turns Legacy.UsesOwn) {} legacy ∧
      Trace.Along (Native.handler trig).step ((Native.handler trig).Turns Native.UsesOwn) {}
        native := by
  refine ⟨Handler.along_turns (fun e state h => ?_) hlegacy,
    Handler.along_turns (fun e state h => ?_) hnative⟩
  · have hseen : Legacy.ClockTells e { state with lastSeenMs := e.1.handled } := h
    exact Legacy.applyMessage_usesOwn rfl hseen
  · exact Native.Input.apply_usesOwn e.2 h

/-! ## Two reports half a second apart and in one millisecond -/

/-- An even and an odd airborne position of one aircraft, half a second apart. -/
def twoSquitters : List (Clock × Message) :=
  [(⟨1000000, 1000000⟩,
      #v[0x8d, 0x40, 0x62, 0x1d, 0x58, 0xc3, 0x82, 0xd6, 0x90, 0xc8, 0xac, 0x28, 0x63, 0xa7]),
    (⟨1000500, 1000500⟩,
      #v[0x8d, 0x40, 0x62, 0x1d, 0x58, 0xc3, 0x86, 0x43, 0x5c, 0xc4, 0x12, 0x69, 0x2a, 0xd6])]

/-- The reports of the two as readsb decodes them, the odd one so long after. -/
def twoReports (ms : ℤ) : List (Clock × Native.Input) :=
  [(⟨1000000, 1000000⟩, .readsb { addr := 0x40621d, cpr := some ⟨false, 93000, 51372⟩ }),
    (⟨1000000 + ms, 1000000 + ms⟩, .readsb { addr := 0x40621d, cpr := some ⟨true, 74158, 50194⟩ })]

/-- The clock tells, half a second later, that the odd report is the newer one. -/
theorem tellsNewest_odd {r : Report} (hodd : r.odd = true) {even odd : Option CprFrame}
    (heven : even = some ⟨93000, 51372, 1000000⟩) : TellsNewest r 1000500 (r.other even odd) := by
  intro f hf _
  rw [Report.other, hodd, if_pos rfl, heven] at hf
  cases hf
  rw [hodd, if_pos rfl]
  decide

/-- All decoders place the aircraft by the odd report then. -/
theorem twoReports_usesOwn :
    Trace.Along (Legacy.handler noTrig).step ((Legacy.handler noTrig).Turns Legacy.UsesOwn) {}
        twoSquitters ∧
      Trace.Along (Native.handler noTrig).step ((Native.handler noTrig).Turns Native.UsesOwn) {}
        (twoReports 500) := by
  refine usesOwn_of_clockTells noTrig _ _ ⟨?_, fun table htable => ?_⟩ ⟨?_, fun table htable => ?_⟩
  · intro k hkey r hr f hf
    cases hkey
    cases hr
    cases hf
  · cases htable
    refine ⟨fun k hkey r hr => ?_, fun _ _ => trivial⟩
    cases hkey
    cases hr
    exact tellsNewest_odd (by decide) (by decide)
  · intro k hkey r hr f hf
    cases hkey
    cases hr
    cases hf
  · cases htable
    refine ⟨fun k hkey r hr => ?_, fun _ _ => trivial⟩
    cases hkey
    cases hr
    exact tellsNewest_odd rfl (by decide)

/-- In one millisecond the odd report is taken for the older one: the line shows
the position of the even one. -/
theorem sameMillisecond_not_usesOwn :
    ¬ Trace.Along (Native.handler noTrig).step ((Native.handler noTrig).Turns Native.UsesOwn) {}
      (twoReports 0) := by
  intro h
  obtain ⟨after, hafter, huses⟩ := (h.2 _ rfl).1 0x40621d rfl
  obtain ⟨r, p, hr, hp, hline⟩ := huses (by with_unfolding_all decide)
  cases hr
  cases hafter
  have hown : some p = some (25261515 / 483328, 225873 / 57344) := by
    rw [← hp]
    with_unfolding_all decide
  cases hown
  revert hline
  with_unfolding_all decide

end AdsbBridge
