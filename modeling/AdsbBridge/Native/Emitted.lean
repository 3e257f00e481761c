import AdsbBridge.Handling
import AdsbBridge.Lib.Lines
import AdsbBridge.Native.Library
import AdsbBridge.Native.Stored

/-! # Lines on their way out of the library

`nativeProcessIq` puts the lines of a call into one text, and
`emitNativeDecoderLines` takes them apart again. No line gets lost, cut or joined
on the way: each is over the printable characters of ASCII. -/
namespace AdsbBridge.Native
open AdsbBridge.Lib AdsbBridge.Fields AdsbBridge.Readsb AdsbBridge.Store

/-! ## Taking lines apart -/

/-- The loop of `emitNativeDecoderLines`; `current` stands between `start` and `i`. -/
def emitFrom (current : Text) : Text → List Text
  | [] => if current.isEmpty then [] else [current]
  | c :: rest =>
    if c = '\n' then (if current.isEmpty then [] else [current]) ++ emitFrom [] rest
    else emitFrom (current ++ [c]) rest

/-- `emitNativeDecoderLines`: the lines it passes to `onSbsLine`. -/
def emitNativeDecoderLines (lines : Text) : List Text := emitFrom [] lines

/-! ## The characters of lines -/

def isPrintable (c : Char) : Bool := 32 ≤ c.toNat && c.toNat ≤ 126

section Printable

theorem isPrintable_of_isDigit {c : Char} (h : c.isDigit = true) : isPrintable c := by
  simp only [Char.isDigit, Bool.and_eq_true, decide_eq_true_iff] at h
  have hlow : 48 ≤ c.toNat := UInt32.le_iff_toNat_le.1 h.1
  have hhigh : c.toNat ≤ 57 := UInt32.le_iff_toNat_le.1 h.2
  simp only [isPrintable, Bool.and_eq_true, decide_eq_true_iff]
  omega

theorem isPrintable_of_isUpper {c : Char} (h : c.isUpper = true) : isPrintable c := by
  have h : c.val ≥ 65 ∧ c.val ≤ 90 := of_decide_eq_true h
  have hlow : 65 ≤ c.toNat := UInt32.le_iff_toNat_le.1 h.1
  have hhigh : c.toNat ≤ 90 := UInt32.le_iff_toNat_le.1 h.2
  simp only [isPrintable, Bool.and_eq_true, decide_eq_true_iff]
  omega

theorem isPrintable_of_isNumeric {c : Char} (h : Text.isNumeric c) : isPrintable c := by
  simp only [Text.isNumeric, Bool.or_eq_true, beq_iff_eq] at h
  rcases h with (h | rfl) | rfl
  · exact isPrintable_of_isDigit h
  · rfl
  · rfl

theorem isPrintable_of_isDateTime {c : Char} (h : Sbs.isDateTime c) : isPrintable c := by
  simp only [Sbs.isDateTime, Bool.or_eq_true, beq_iff_eq] at h
  rcases h with (h | rfl) | rfl
  · exact isPrintable_of_isNumeric h
  · rfl
  · rfl

theorem isPrintable_of_isHex {c : Char} (h : Text.isHex c) : isPrintable c := by
  have hall : Text.hexDigits.toList.all isPrintable = true := rfl
  exact List.all_eq_true.1 hall c (by simpa [Text.isHex] using h)

theorem isPrintable_of_isCallsignChar {c : Char} (h : isCallsignChar c) : isPrintable c := by
  simp only [isCallsignChar, isPlainCallsignChar, Bool.or_eq_true, beq_iff_eq] at h
  rcases h with (((((h | h) | rfl) | rfl) | rfl) | rfl) | rfl
  · exact isPrintable_of_isUpper h
  · exact isPrintable_of_isDigit h
  all_goals rfl

theorem over_joinFields {p : Char → Bool} (hcomma : p ',') {fields : List Text}
    (h : ∀ f ∈ fields, Text.Over p f) : Text.Over p (Text.joinFields fields) := by
  induction fields with
  | nil => exact fun _ hc => absurd hc List.not_mem_nil
  | cons f rest ih =>
    obtain ⟨hf, hrest⟩ := List.forall_mem_cons.1 h
    cases rest with
    | nil => rwa [Text.joinFields, List.intercalate_singleton]
    | cons g rest =>
      rw [Text.joinFields, List.intercalate_cons_cons]
      exact (hf.append (Text.Over.cons hcomma fun _ hc => absurd hc List.not_mem_nil)).append
        (ih hrest)

variable {nowMs : ℤ} {hex : ℕ} {state : AircraftState} {transmissionType : ℕ}
  {includePosition : Bool}

theorem over_toSbsLine (hp : state.Plain) :
    Text.Over isPrintable (toSbsLine nowMs hex state transmissionType includePosition) := by
  unfold toSbsLine
  split
  · exact fun _ hc => absurd hc List.not_mem_nil
  · refine over_joinFields rfl ?_
    have hall : ∀ {t : Text}, t.all isPrintable = true → Text.Over isPrintable t :=
      fun h c hc => List.all_eq_true.1 h c hc
    have hdate := fun s => (Sbs.over_dateText s).mono fun _ => isPrintable_of_isDateTime
    have htime := fun s m => (Sbs.over_timeText s m).mono fun _ => isPrintable_of_isDateTime
    have hcall : Text.Over isPrintable state.callsign :=
      Text.Over.mono (fun _ => isPrintable_of_isCallsignChar) hp
    have hint := fun o => (Sbs.over_intField o).mono fun _ => isPrintable_of_isNumeric
    have hcoord := fun x => (Sbs.over_coordinateField Text.roundHalfEven includePosition x).mono
      fun _ => isPrintable_of_isNumeric
    have hhex := fun n => (Text.over_hexOf 6 n).mono fun _ => isPrintable_of_isHex
    have hnum := (Text.over_ofNat transmissionType).mono fun _ => isPrintable_of_isNumeric
    have hcategory := (Text.over_orBlank state.category fun c : Int32 =>
      Text.over_hexOf 2 (c.toInt % 256).toNat).mono fun _ => isPrintable_of_isHex
    have hreference : ∀ o : Option VerticalRate, Text.Over isPrintable
        (Text.orBlank (fun r => if r.isBaro then "BARO".toList else "GEOM".toList) o) := by
      intro o
      refine Text.over_orBlank o fun r => ?_
      split <;> exact hall rfl
    simp only [sbsFields, utcDateTime, List.forall_mem_cons]
    exact ⟨hall rfl, hnum, hall rfl, hall rfl, hhex _, hall rfl, hdate _, htime _ _, hdate _,
      htime _ _, hcall, hint _, hint _, hint _, hcoord _, hcoord _, hint _, hall rfl, hall rfl,
      hall rfl, hall rfl, hall rfl, hreference _, hcategory, fun _ hf => absurd hf List.not_mem_nil⟩

end Printable

/-! ## The lines of a call -/

/-- No line, or one of this address and of a state with a plain callsign. -/
def Made (addr : ℕ) (line : Text) : Prop :=
  line = [] ∨ ∃ nowMs transmissionType includePosition, ∃ state : AircraftState, state.Plain ∧
    suppressed state transmissionType includePosition = false ∧
    line = toSbsLine nowMs addr state transmissionType includePosition

section Made

variable {addr : ℕ} {state : AircraftState} {line : Text} {decoder : Table}

theorem made_toSbsLine (hp : state.Plain) (nowMs : ℤ) (transmissionType : ℕ) (includePosition : Bool) :
    Made addr (toSbsLine nowMs addr state transmissionType includePosition) := by
  cases hs : suppressed state transmissionType includePosition with
  | true => exact .inl (toSbsLine_eq_nil_iff.2 hs)
  | false => exact .inr ⟨nowMs, transmissionType, includePosition, state, hp, hs, rfl⟩

theorem Made.over (h : Made addr line) : Text.Over isPrintable line := by
  rcases h with rfl | ⟨nowMs, transmissionType, includePosition, state, hp, -, rfl⟩
  · exact fun _ hc => absurd hc List.not_mem_nil
  · exact over_toSbsLine hp

/-- The store reads a line as one of its address. -/
theorem Made.parse [UpperCase] (h : Made addr line) (hline : line ≠ []) :
    ∃ update, SbsUpdate.parse line = some update ∧ update.hex = Text.hexOf 6 addr := by
  rcases h with rfl | ⟨nowMs, transmissionType, includePosition, state, hp, hs, rfl⟩
  · exact absurd rfl hline
  · exact ⟨_, parse_toSbsLine hp hs, SbsUpdate.toUpperCase_hexOf 6 addr⟩

theorem applyMessage_plain (hp : state.Plain) (trig : Trig) (clock : Clock) (message : Message) :
    (applyMessage trig clock message state).1.Plain := by
  have hold : Holding (fun _ => True) state :=
    ⟨hp, fun _ _ => ⟨trivial, trivial⟩, fun _ _ => ⟨trivial, trivial⟩⟩
  exact (hold.applyMessage trig clock trivial trivial).plain

theorem applyMessage_made (hp : state.Plain) (trig : Trig) (clock : Clock) (message : Message) :
    Made (icaoAddress message) (applyMessage trig clock message state).2 := by
  have hafter := applyMessage_plain hp trig clock message
  unfold applyMessage at hafter ⊢
  simp only at hafter ⊢
  split
  · next hid =>
    rw [if_pos hid] at hafter
    exact made_toSbsLine hafter _ _ _
  · next hid =>
    rw [if_neg hid] at hafter
    split
    · next hposition =>
      rw [if_pos hposition] at hafter
      unfold applyPosition at hafter ⊢
      simp only at hafter ⊢
      split
      · next s hs =>
        rw [hs] at hafter
        exact made_toSbsLine hafter _ _ _
      · exact .inl rfl
    · next hposition =>
      rw [if_neg hposition] at hafter
      split
      · next hvelocity =>
        rw [if_pos hvelocity] at hafter
        exact made_toSbsLine hafter _ _ _
      · exact .inl rfl

theorem handleMessage_made (h : decoder.All fun _ => AircraftState.Plain) (trig : Trig)
    (clock : Clock) (message : Message) :
    (handleMessage trig clock message decoder).1.All (fun _ => AircraftState.Plain) ∧
      Made (icaoAddress message) (handleMessage trig clock message decoder).2 := by
  unfold handleMessage
  split
  · exact ⟨h, .inl rfl⟩
  · have hseen : ∀ (s : AircraftState) (t : ℤ), s.Plain →
        AircraftState.Plain { s with lastSeenMs := t } := fun _ _ hs => hs
    obtain ⟨state, hstate, hline⟩ := visitAircraft_line plain_default hseen
      (applyMessage trig clock message) h clock.handled (icaoAddress message)
    rw [hline]
    exact ⟨visitAircraft_all plain_default hseen
      (fun _ hs => applyMessage_plain hs trig clock message) h _ _,
      applyMessage_made hstate trig clock message⟩

theorem handleReadsbDecodedMessage_made (h : decoder.All fun _ => AircraftState.Plain)
    (clock : Clock) (decoded : ReadsbBridgeMessage) :
    (handleReadsbDecodedMessage clock decoded decoder).1.All (fun _ => AircraftState.Plain) ∧
      Made decoded.addr.toNat (handleReadsbDecodedMessage clock decoded decoder).2 := by
  unfold handleReadsbDecodedMessage
  split
  · exact ⟨h, .inl rfl⟩
  · have hseen : ∀ (s : AircraftState) (t : ℤ), s.Plain →
        AircraftState.Plain { s with lastSeenMs := t } := fun _ _ hs => hs
    obtain ⟨state, hstate, hline⟩ := visitAircraft_line plain_default hseen
      (applyDecoded clock.printed decoded) h clock.handled (aircraftKey decoded)
    rw [hline]
    refine ⟨visitAircraft_all plain_default hseen
      (fun _ hs => (applyDecoded_spec clock.printed decoded hs).1.plain hs) h _ _, ?_⟩
    rcases (applyDecoded_spec clock.printed decoded hstate).2 with
      hnil | ⟨nowMs, transmissionType, includePosition, printed, hline, hs, hp, -⟩
    · exact .inl hnil
    · exact .inr ⟨nowMs, transmissionType, includePosition, printed, hp, hs, hline⟩

end Made

theorem handleDecoded_made (now : ℕ → Clock) (s : Table × List DeliveredMessage)
    (d : ℕ × ReadsbBridgeMessage) (hs : s.1.All fun _ => AircraftState.Plain) :
    ((handleDecoded now s d).1.All fun _ => AircraftState.Plain) ∧
      ∃ delivered : DeliveredMessage, Made delivered.message.addr.toNat delivered.line ∧
        (handleDecoded now s d).2 = s.2 ++ [delivered] := by
  obtain ⟨htable, hline⟩ := handleReadsbDecodedMessage_made hs (now s.2.length) d.2
  exact ⟨htable, ⟨d.1, d.2, _⟩, hline, rfl⟩

theorem handleFrame_made (trig : Trig) (now : ℕ → Clock) (s : Table × List (AcceptedFrame Text))
    (hit : ℕ × Message) (hs : s.1.All fun _ => AircraftState.Plain) :
    ((FrontEnd.handleFrame (handleMessage trig) now s hit.1 hit.2).1.All
        fun _ => AircraftState.Plain) ∧
      ∃ frame : AcceptedFrame Text, Made (icaoAddress frame.message) frame.line ∧
        (FrontEnd.handleFrame (handleMessage trig) now s hit.1 hit.2).2 = s.2 ++ [frame] := by
  obtain ⟨htable, hline⟩ := handleMessage_made hs trig (now s.2.length) hit.2
  exact ⟨htable, ⟨hit.1, hit.2, _⟩, hline, rfl⟩

/-- A loop that appends one output for each item keeps what a step keeps. -/
theorem foldl_concat {ι τ δ : Type} {step : τ × List δ → ι → τ × List δ} {Inv : τ → Prop}
    {Good : δ → Prop}
    (hstep : ∀ s i, Inv s.1 → Inv (step s i).1 ∧ ∃ d, Good d ∧ (step s i).2 = s.2 ++ [d])
    (items : List ι) {s : τ × List δ} (hs : Inv s.1) (hout : ∀ d ∈ s.2, Good d) :
    Inv (items.foldl step s).1 ∧ ∀ d ∈ (items.foldl step s).2, Good d := by
  induction items generalizing s with
  | nil => exact ⟨hs, hout⟩
  | cons i rest ih =>
    obtain ⟨hinv, d, hd, happend⟩ := hstep s i hs
    refine ih hinv fun d' hd' => ?_
    rw [happend] at hd'
    rcases List.mem_append.1 hd' with hd' | hd'
    · exact hout d' hd'
    · rw [List.mem_singleton.1 hd']
      exact hd

theorem receive_made {table : Table} (h : table.All fun _ => AircraftState.Plain)
    (trig : Trig) (samples : FrontEnd.Samples) (call : Call) :
    ((FrontEnd.receive resizeMag (handleMessage trig) samples table call).2.1.All
        fun _ => AircraftState.Plain) ∧
      ∀ frame ∈ (FrontEnd.receive resizeMag (handleMessage trig) samples table call).2.2,
        Made (icaoAddress frame.message) frame.line := by
  unfold FrontEnd.receive
  simp only
  split
  · exact ⟨h, fun _ hframe => absurd hframe List.not_mem_nil⟩
  · simp only [FrontEnd.scanBuffer]
    rw [Frame.scanLoop_eq _ _ _ _ _ _ (Nat.le_add_right _ _)]
    exact foldl_concat (fun s hit hs => handleFrame_made trig call.now s hit hs) _
      (show (table, ([] : List (AcceptedFrame Text))).1.All _ from h)
      fun _ hframe => absurd hframe List.not_mem_nil

section Calls

variable (env : Env)

/-- What a call makes of its messages: the address of each, and its line. -/
def linesMade (library : Library) (call : IqCall) : List (ℕ × Text) :=
  if call.iq.isEmpty then []
  else if call.mode = decoderModeReadsbCore then
    (processReadsbDemodulator (readsbDemodulator env) call.sysTime library.adapter library.decoder
      call.toCall).2.2.map fun d => (d.message.addr.toNat, d.line)
  else (processFast env.trig library.decoder call.toCall).2.map fun f =>
    (icaoAddress f.message, f.line)

def linesOut (library : Library) (call : IqCall) : List (ℕ × Text) :=
  (linesMade env library call).filter fun made => !made.2.isEmpty

/-- Every callsign in the table is plain. -/
def Library.Plain (library : Library) : Prop :=
  library.decoder.table.All fun _ => AircraftState.Plain

variable {env} {library : Library}

theorem nativeProcessIq_text (library : Library) (call : IqCall) :
    (nativeProcessIq env library call).2 = emit ((linesMade env library call).map Prod.snd) := by
  unfold nativeProcessIq linesMade
  split
  · rfl
  · split <;> simp only [List.map_map] <;> rfl

theorem linesMade_made (h : library.Plain) (call : IqCall) :
    (nativeProcessIq env library call).1.Plain ∧
      ∀ made ∈ linesMade env library call, Made made.1 made.2 := by
  unfold nativeProcessIq linesMade
  split
  · exact ⟨h, fun _ hmade => absurd hmade List.not_mem_nil⟩
  split
  · obtain ⟨decoded, htable, hdelivered⟩ := processReadsbDemodulator_handles (readsbDemodulator env)
      call.sysTime library.adapter library.decoder call.toCall
    have hfold := foldl_concat (fun s d hs => handleDecoded_made call.now s d hs) decoded
      (show (library.decoder.table, ([] : List DeliveredMessage)).1.All _ from h)
      fun _ hd => absurd hd List.not_mem_nil
    rw [← htable, ← hdelivered] at hfold
    refine ⟨hfold.1, ?_⟩
    rintro made hmade
    obtain ⟨d, hd, rfl⟩ := List.mem_map.1 hmade
    exact hfold.2 d hd
  · obtain ⟨htable, hframes⟩ :=
      receive_made h env.trig library.decoder.samples call.toCall
    refine ⟨htable, ?_⟩
    rintro made hmade
    obtain ⟨frame, hframe, rfl⟩ := List.mem_map.1 hmade
    exact hframes frame hframe

theorem plain_after (history : List Event) : (after env {} history).Plain := by
  have hall : ∀ library : Library, library.Plain → (after env library history).Plain := by
    induction history with
    | nil => exact fun _ h => h
    | cons e rest ih =>
      intro library h
      refine ih _ ?_
      cases e with
      | reset => exact AircraftTable.all_fresh
      | process call => exact (linesMade_made h call).1
  exact hall {} AircraftTable.all_fresh

/-! ## Out of the library -/

theorem emitFrom_eq (current lines : Text) :
    emitFrom current lines =
      ((Lines.cut '\n' current lines).1 ++ [(Lines.cut '\n' current lines).2]).filter
        fun line => !line.isEmpty := by
  induction lines generalizing current with
  | nil => cases current <;> rfl
  | cons c rest ih =>
    rw [emitFrom, Lines.cut]
    split
    · rw [ih, List.cons_append, List.filter_cons]
      cases current <;> rfl
    · exact ih _

theorem not_mem_of_over {t : Text} (h : Text.Over isPrintable t) : '\n' ∉ t :=
  fun hc => absurd (h '\n' hc) Bool.false_ne_true

/-- **The reader gets the lines of a call**, in order. -/
theorem emitNativeDecoderLines_nativeProcessIq (h : library.Plain) (call : IqCall) :
    emitNativeDecoderLines (nativeProcessIq env library call).2 =
      (linesOut env library call).map Prod.snd := by
  have hframed : (nativeProcessIq env library call).2 =
      Lines.framed '\n' ((linesOut env library call).map Prod.snd) := by
    rw [nativeProcessIq_text, emit, Lines.framed_flatMap, List.filter_map]
    rfl
  have hprintable : ∀ line ∈ (linesOut env library call).map Prod.snd, '\n' ∉ line := by
    intro line hline
    obtain ⟨made, hmade, rfl⟩ := List.mem_map.1 hline
    exact not_mem_of_over ((linesMade_made h call).2 made (List.mem_of_mem_filter hmade)).over
  rw [emitNativeDecoderLines, emitFrom_eq, hframed]
  refine (Lines.nonEmpty_framed hprintable).trans ?_
  refine List.filter_eq_self.2 fun line hline => ?_
  obtain ⟨made, hmade, rfl⟩ := List.mem_map.1 hline
  exact (List.mem_filter.1 hmade).2

/-- **No line is lost, cut or joined between library and reader.** After any history of calls
the reader gets exactly the lines that the messages of a call made, in order; each is over
the printable characters, and the store reads it as one of its address. -/
theorem emitted_after [UpperCase] (history : List Event) (call : IqCall) :
    emitNativeDecoderLines (nativeProcessIq env (after env {} history) call).2 =
        (linesOut env (after env {} history) call).map Prod.snd ∧
      ∀ made ∈ linesOut env (after env {} history) call, Text.Over isPrintable made.2 ∧
        ∃ update, SbsUpdate.parse made.2 = some update ∧ update.hex = Text.hexOf 6 made.1 := by
  have hplain : (after env {} history).Plain := plain_after history
  refine ⟨emitNativeDecoderLines_nativeProcessIq hplain call, fun made hmade => ?_⟩
  obtain ⟨hall, hline⟩ := List.mem_filter.1 hmade
  have hmade := (linesMade_made hplain call).2 made hall
  exact ⟨hmade.over, hmade.parse (by simpa using hline)⟩

end Calls

end AdsbBridge.Native
