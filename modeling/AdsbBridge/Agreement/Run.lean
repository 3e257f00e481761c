import Mathlib.Data.List.Dedup
import AdsbBridge.Agreement.Message
import AdsbBridge.CleanFrames
import AdsbBridge.Lib.Trace

/-! # The legacy and the native-fast decoder side by side

Fed the same calls, both hand the same messages to their handlers, keep
corresponding tables while the cap of aircraft is not reached, and write lines
for the same messages. -/
namespace AdsbBridge
open AdsbBridge.Lib AdsbBridge.Fields AdsbBridge.FrontEnd AdsbBridge.Store

/-! ## Tables -/

/-- The two tables hold corresponding states, of aircraft on the list only. -/
structure TablesCorrespond (addresses : List ℕ) (l : Legacy.Table) (n : Native.Table) : Prop where
  pruned : l.lastAircraftPruneMs = n.lastAircraftPruneMs
  keysLegacy : ∀ hex, l.aircraft.get? hex ≠ none → hex ∈ addresses.map (Text.hexOf 6)
  keys : ∀ key, n.aircraft.get? key ≠ none → key ∈ addresses
  states : ∀ key < 16 ^ 6,
    Option.Rel (Corresponds (Text.hexOf 6 key)) (l.aircraft.get? (Text.hexOf 6 key))
      (n.aircraft.get? key)

theorem tablesCorrespond_fresh (addresses : List ℕ) : TablesCorrespond addresses {} {} where
  pruned := rfl
  keysLegacy _ h := absurd rfl h
  keys _ h := absurd rfl h
  states _ _ := .none

section Tables

variable {addresses : List ℕ} {l : Legacy.Table} {n : Native.Table}

theorem TablesCorrespond.prune (h : TablesCorrespond addresses l n)
    (hle : addresses.length ≤ maxAircraftStates) (nowMs : ℤ) :
    TablesCorrespond addresses (Legacy.pruneAircraftStates nowMs l)
      (Native.pruneAircraftStates nowMs n) := by
  have hl : l.aircraft.size ≤ maxAircraftStates := by
    refine (LinkedMap.size_le_of_keys h.keysLegacy).trans ?_
    rwa [List.length_map]
  have hn : n.aircraft.size ≤ maxAircraftStates := (LinkedMap.size_le_of_keys h.keys).trans hle
  unfold Legacy.pruneAircraftStates Native.pruneAircraftStates
  constructor
  · rw [AircraftTable.lastAircraftPruneMs_prune_of_le hl,
      AircraftTable.lastAircraftPruneMs_prune_of_le hn, h.pruned]
  · intro hex hne
    rw [AircraftTable.get?_prune_of_le hl] at hne
    exact h.keysLegacy hex fun hnone => hne (by rw [hnone]; rfl)
  · intro key hne
    rw [AircraftTable.get?_prune_of_le hn] at hne
    exact h.keys key fun hnone => hne (by rw [hnone]; rfl)
  · intro key hkey
    rw [AircraftTable.get?_prune_of_le hl, AircraftTable.get?_prune_of_le hn]
    have hstates := h.states key hkey
    generalize l.aircraft.get? (Text.hexOf 6 key) = found at hstates ⊢
    generalize n.aircraft.get? key = found' at hstates ⊢
    cases hstates with
    | none => exact .none
    | @some a b hc =>
      have hkeep : l.keeps Legacy.AircraftState.lastSeenMs nowMs a =
          n.keeps Native.AircraftState.lastSeenMs nowMs b := by
        rw [AircraftTable.keeps, AircraftTable.keeps, h.pruned, hc.lastSeenMs]
      rw [Option.filter_some, Option.filter_some, hkeep]
      split
      · exact .some hc
      · exact .none

theorem TablesCorrespond.put (h : TablesCorrespond addresses l n) {address : ℕ}
    (hmem : address ∈ addresses) (hlt : address < 16 ^ 6) {a : Legacy.AircraftState}
    {b : Native.AircraftState} (hc : Corresponds (Text.hexOf 6 address) a b) :
    TablesCorrespond addresses
      { l with aircraft := l.aircraft.put (Text.hexOf 6 address) a }
      { n with aircraft := n.aircraft.put address b } where
  pruned := h.pruned
  keysLegacy hex hne := by
    rw [LinkedMap.get?_put] at hne
    split at hne
    · next heq => exact heq ▸ List.mem_map_of_mem hmem
    · exact h.keysLegacy hex hne
  keys key hne := by
    rw [LinkedMap.get?_put] at hne
    split at hne
    · next heq => exact heq ▸ hmem
    · exact h.keys key hne
  states key hkey := by
    rw [LinkedMap.get?_put, LinkedMap.get?_put]
    by_cases heq : key = address
    · rw [if_pos heq, if_pos (by rw [heq]), heq]
      exact .some hc
    · rw [if_neg heq, if_neg fun hhex => heq (Text.hexOf_inj hkey hlt hhex)]
      exact h.states key hkey

def Native.stateFor (clock : Clock) (message : Message) (decoder : Native.Table) :
    Native.AircraftState :=
  { ((Native.pruneAircraftStates clock.handled decoder).aircraft.get? (icaoAddress message)).getD {}
    with lastSeenMs := clock.handled }

def Legacy.stateFor (clock : Clock) (message : Message) (reader : Legacy.Table) :
    Legacy.AircraftState :=
  { ((Legacy.pruneAircraftStates clock.handled reader).aircraft.get?
      (Legacy.hexText message)).getD { hex := Legacy.hexText message }
    with lastSeenMs := clock.handled }

theorem corresponds_stateFor (h : TablesCorrespond addresses l n)
    (hle : addresses.length ≤ maxAircraftStates) (clock : Clock) (message : Message) :
    Corresponds (Text.hexOf 6 (icaoAddress message)) (Legacy.stateFor clock message l)
      (Native.stateFor clock message n) := by
  have hstates := (h.prune hle clock.handled).states _ (icaoAddress_lt message)
  rw [Legacy.stateFor, Native.stateFor, hexText_eq]
  generalize (Legacy.pruneAircraftStates clock.handled l).aircraft.get?
    (Text.hexOf 6 (icaoAddress message)) = found at hstates ⊢
  generalize (Native.pruneAircraftStates clock.handled n).aircraft.get?
    (icaoAddress message) = found' at hstates ⊢
  cases hstates with
  | none => exact { corresponds_new _ with lastSeenMs := rfl }
  | some hc => exact { hc with hex := hc.hex, lastSeenMs := rfl }

/-- **Both handlers on one message.** -/
theorem handleMessage_step [UpperCase] (trig : Trig) (clock : Clock) {message : Message}
    (h : TablesCorrespond addresses l n) (hle : addresses.length ≤ maxAircraftStates)
    (hmem : icaoAddress message ∈ addresses) :
    TablesCorrespond addresses (Legacy.handleMessage trig clock message l).1
        (Native.handleMessage trig clock message n).1 ∧
      LinePair (WritesLine message (Native.stateFor clock message n))
        (Legacy.handleMessage trig clock message l).2
        (Native.handleMessage trig clock message n).2 := by
  unfold Legacy.handleMessage Native.handleMessage
  by_cases htype : typeCode message ≤ 0 ∨ typeCode message > 31
  · rw [if_pos htype, if_pos htype]
    refine ⟨h, .inr ⟨fun hw => ?_, rfl, rfl⟩⟩
    rcases hw with ⟨h₁, h₂, -⟩ | ⟨h₁, h₂, -⟩ | ⟨h₁, -⟩ <;> omega
  · rw [if_neg htype, if_neg htype]
    have hstate := corresponds_stateFor h hle clock message
    obtain ⟨hc, hlines⟩ := @message_step trig clock message _ _ _ _ hstate rfl
    have hput := (h.prune hle clock.handled).put hmem (icaoAddress_lt message) hc
    rw [← hexText_eq] at hput
    exact ⟨hput, hlines⟩

end Tables

/-! ## Runs -/

def Legacy.handled (trig : Trig) (calls : List Call) : List (HandledFrame (Option Text)) :=
  handledFrames (Legacy.processIq trig) {} calls

def Native.handled (trig : Trig) (calls : List Call) : List (HandledFrame Text) :=
  handledFrames (Native.processFast trig) {} calls

/-- The same frame, handled at the same time, with a line from both or from none. -/
structure SameFrame (l : HandledFrame (Option Text)) (n : HandledFrame Text) : Prop where
  clock : l.clock = n.clock
  message : l.message = n.message
  emits : l.line.isSome ↔ n.line ≠ []

/-- The store reads the same update from the two lines. -/
def SameUpdate [UpperCase] (l : HandledFrame (Option Text)) (n : HandledFrame Text) : Prop :=
  ∀ line, l.line = some line → n.line ≠ [] → SbsUpdate.parse line = SbsUpdate.parse n.line

def Native.step (trig : Trig) (decoder : Native.Table) (m : Clock × Message) : Option Native.Table :=
  some (Native.handleMessage trig m.1 m.2 decoder).1

/-- No message of a run makes the decoder write a line. -/
def Silent (trig : Trig) (decoder : Native.Table) (messages : List (Clock × Message)) : Prop :=
  Trace.Along (Native.step trig)
    (fun decoder m => ¬ WritesLine m.2 (Native.stateFor m.1 m.2 decoder)) decoder messages

section Runs

variable {trig : Trig} {clock : Clock} {message : Message}

theorem LinePair.emits [UpperCase] {writes : Prop} {l : Option Text} {n : Text}
    (h : LinePair writes l n) :
    l.isSome ↔ n ≠ [] := by
  rcases h with ⟨-, line, rfl, hn, -⟩ | ⟨-, rfl, rfl⟩
  · exact ⟨fun _ => hn, fun _ => rfl⟩
  · exact ⟨nofun, fun hne => absurd rfl hne⟩

theorem LinePair.sameUpdate_iff [UpperCase] {writes : Prop} {l : Option Text} {n : Text}
    (h : LinePair writes l n) :
    SameUpdate ⟨clock, message, l⟩ ⟨clock, message, n⟩ ↔ ¬ writes := by
  rcases h with ⟨hw, line, rfl, hn, hne⟩ | ⟨hw, rfl, rfl⟩
  · exact ⟨fun hsame => absurd (hsame line rfl hn) hne, fun hnot => absurd hw hnot⟩
  · exact ⟨fun _ => hw, fun _ => nofun⟩

/-- **Both handlers on a list of messages.** -/
theorem handleAll_agree [UpperCase] (trig : Trig) {addresses : List ℕ}
    (hle : addresses.length ≤ maxAircraftStates) {messages : List (Clock × Message)}
    (hmem : ∀ m ∈ messages, icaoAddress m.2 ∈ addresses) {l : Legacy.Table} {n : Native.Table}
    (h : TablesCorrespond addresses l n) :
    List.Forall₂ SameFrame (handleAll (Legacy.handleMessage trig) l messages)
        (handleAll (Native.handleMessage trig) n messages) ∧
      (List.Forall₂ SameUpdate (handleAll (Legacy.handleMessage trig) l messages)
          (handleAll (Native.handleMessage trig) n messages) ↔
        Silent trig n messages) := by
  induction messages generalizing l n with
  | nil => exact ⟨.nil, fun _ => trivial, fun _ => .nil⟩
  | cons m rest ih =>
    obtain ⟨clock, message⟩ := m
    obtain ⟨htables, hlines⟩ := handleMessage_step trig clock h hle
      (hmem (clock, message) List.mem_cons_self)
    obtain ⟨hframes, hsilent⟩ := ih (fun m hm => hmem m (List.mem_cons_of_mem _ hm)) htables
    have htail : Silent trig n ((clock, message) :: rest) ↔
        ¬ WritesLine message (Native.stateFor clock message n) ∧
          Silent trig (Native.handleMessage trig clock message n).1 rest := by
      rw [Silent, Trace.Along]
      simp only [Native.step, Option.some.injEq, forall_eq']
      exact Iff.rfl
    refine ⟨.cons ⟨rfl, rfl, hlines.emits⟩ hframes, ?_⟩
    rw [handleAll, handleAll, List.forall₂_cons, htail, hsilent, hlines.sameUpdate_iff]

end Runs

theorem handleAll_messages {τ ω : Type} (handle : Clock → Message → τ → τ × ω) (table : τ)
    (messages : List (Clock × Message)) :
    (handleAll handle table messages).map (fun f => (f.clock, f.message)) = messages := by
  induction messages generalizing table with
  | nil => rfl
  | cons m rest ih => rw [handleAll, List.map_cons, ih]

def addressesOf (trig : Trig) (calls : List Call) : List ℕ :=
  ((Native.handled trig calls).map fun f => icaoAddress f.message).dedup

theorem mem_addressesOf {trig : Trig} {calls : List Call} {m : Clock × Message}
    (h : m ∈ messagesOf [] calls) : icaoAddress m.2 ∈ addressesOf trig calls := by
  rw [addressesOf, List.mem_dedup, Native.handled,
    handledFrames_eq (Native.processFast_isFrontEnd trig) calls Native.holds_fresh]
  rw [← handleAll_messages (Native.handleMessage trig) {} (messagesOf [] calls)] at h
  obtain ⟨f, hf, rfl⟩ := List.mem_map.1 h
  exact List.mem_map.2 ⟨f, hf, rfl⟩

/-- **When the two decoders agree.** With at most 4096 addresses they accept the
same frames, handle them alike and write lines for the same ones; the lines of
every pair are read as the same update exactly if there is no pair. -/
theorem sameUpdates_iff_silent [UpperCase] (trig : Trig) (calls : List Call)
    (hle : (addressesOf trig calls).length ≤ maxAircraftStates) :
    Legacy.acceptedFrames trig calls = Native.acceptedFrames trig calls ∧
      List.Forall₂ SameFrame (Legacy.handled trig calls) (Native.handled trig calls) ∧
      (List.Forall₂ SameUpdate (Legacy.handled trig calls) (Native.handled trig calls) ↔
        Silent trig {} (messagesOf [] calls)) := by
  have hlegacy : Legacy.handled trig calls =
      handleAll (Legacy.handleMessage trig) {} (messagesOf [] calls) :=
    handledFrames_eq (Legacy.processIq_isFrontEnd trig) calls Legacy.holds_fresh
  have hnative : Native.handled trig calls =
      handleAll (Native.handleMessage trig) {} (messagesOf [] calls) :=
    handledFrames_eq (Native.processFast_isFrontEnd trig) calls Native.holds_fresh
  refine ⟨?_, ?_⟩
  · exact (acceptedFrames_eq_pieces (Legacy.processIq_isFrontEnd trig) calls Legacy.holds_fresh).trans
      (acceptedFrames_eq_pieces (Native.processFast_isFrontEnd trig) calls Native.holds_fresh).symm
  · rw [hlegacy, hnative]
    exact handleAll_agree trig hle (fun m hm => mem_addressesOf hm) (tablesCorrespond_fresh _)

/-! ## A transmission whose lines differ -/

def oneTransmission : List Call := [⟨iqBytes (onAir klm1023 ++ [false]), firstSecond⟩]

theorem messagesOf_oneTransmission : messagesOf [] oneTransmission = [(⟨1000, 1000⟩, klm1023)] := by
  have hsquitter : ∀ frame ∈ [(0, klm1023)], IsSquitter frame.2 := by
    intro frame hmem
    rw [List.mem_singleton.1 hmem]
    exact klm1023_isSquitter
  have hiq : iqBytes (onAir klm1023 ++ [false]) = iqBytes (transmissions 1 [(0, klm1023)]) := rfl
  exact messagesOf_transmissions hiq firstSecond hsquitter fun _ => Nat.one_pos

theorem handled_oneTransmission :
    Legacy.handled noTrig oneTransmission =
        [⟨⟨1000, 1000⟩, klm1023, some
          "MSG,1,1,1,4840D6,1,1970/01/01,00:00:01.000,1970/01/01,00:00:01.000,KLM1023,,,,,,0,0,0,0,0,0".toList⟩] ∧
      Native.handled noTrig oneTransmission =
        [⟨⟨1000, 1000⟩, klm1023,
          "MSG,1,1,1,4840D6,1,1970/01/01,00:00:01.000,1970/01/01,00:00:01.000,KLM1023,,,,,,,0,0,0,0,0,,".toList⟩] := by
  have hlegacy : (Legacy.handleMessage noTrig ⟨1000, 1000⟩ klm1023 {}).2 = some
      "MSG,1,1,1,4840D6,1,1970/01/01,00:00:01.000,1970/01/01,00:00:01.000,KLM1023,,,,,,0,0,0,0,0,0".toList := by
    decide
  have hnative : (Native.handleMessage noTrig ⟨1000, 1000⟩ klm1023 {}).2 =
      "MSG,1,1,1,4840D6,1,1970/01/01,00:00:01.000,1970/01/01,00:00:01.000,KLM1023,,,,,,,0,0,0,0,0,,".toList := by
    decide
  rw [Legacy.handled, Native.handled,
    handledFrames_eq (Legacy.processIq_isFrontEnd noTrig) _ Legacy.holds_fresh,
    handledFrames_eq (Native.processFast_isFrontEnd noTrig) _ Native.holds_fresh,
    messagesOf_oneTransmission, handleAll, handleAll, handleAll, handleAll]
  constructor
  · exact congrArg (fun line => [HandledFrame.mk ⟨1000, 1000⟩ klm1023 line]) hlegacy
  · exact congrArg (fun line => [HandledFrame.mk ⟨1000, 1000⟩ klm1023 line]) hnative

theorem addressesOf_oneTransmission : addressesOf noTrig oneTransmission = [0x4840d6] := by
  rw [addressesOf, handled_oneTransmission.2]
  decide

/-- One transmission of one aircraft: both decoders write a line for it, but the
store reads a vertical rate of zero from one and none from the other. -/
theorem oneTransmission_updates_differ :
    (addressesOf noTrig oneTransmission).length ≤ maxAircraftStates ∧
      ∃ line line' : Text,
        (Legacy.handled noTrig oneTransmission).map (·.line) = [some line] ∧
        (Native.handled noTrig oneTransmission).map (·.line) = [line'] ∧
        (SbsUpdate.parse line).map (·.verticalRateFpm) = some (some (.finite 0)) ∧
        (SbsUpdate.parse line').map (·.verticalRateFpm) = some none := by
  rw [addressesOf_oneTransmission, handled_oneTransmission.1, handled_oneTransmission.2]
  exact ⟨by decide, _, _, rfl, rfl, by decide +kernel, by decide +kernel⟩

/-- The general statement at this run: the updates are not the same. -/
theorem oneTransmission_not_sameUpdates :
    ¬ List.Forall₂ SameUpdate (Legacy.handled noTrig oneTransmission)
      (Native.handled noTrig oneTransmission) := by
  have hle : (addressesOf noTrig oneTransmission).length ≤ maxAircraftStates := by
    rw [addressesOf_oneTransmission]
    decide
  rw [(sameUpdates_iff_silent noTrig oneTransmission hle).2.2, messagesOf_oneTransmission]
  intro h
  obtain ⟨hno, -⟩ := h
  exact hno (.inl (by decide))

end AdsbBridge
