import AdsbBridge.Lib.Trace
import AdsbBridge.Legacy.Stored
import AdsbBridge.Native.Stored

/-! # What all handlers do to a table

Every handler prunes, looks the aircraft up, brings the message into its state
and puts the state back. What that means for a run is the same for all of them. -/
namespace AdsbBridge
open AdsbBridge.Lib

/-- How the messages `ε` are brought into the states `ν` under the keys `κ`. -/
structure Handler (ε κ ν ω : Type) where
  lastSeen : ν → ℤ
  eligible : ℤ → Bool
  /-- the key of the aircraft, for a message that is handled -/
  key : ε → Option κ
  time : ε → ℤ
  new : κ → ν
  apply : ε → ν → ν × ω
  silent : ω
  lastSeen_apply : ∀ e state, lastSeen (apply e state).1 = time e

namespace Handler

variable {ε κ ν ω : Type} [DecidableEq κ] (handler : Handler ε κ ν ω)

/-- The state a message finds, after pruning. -/
def found (table : AircraftTable κ ν) (e : ε) (k : κ) : ν :=
  ((table.prune handler.lastSeen handler.eligible (handler.time e)).aircraft.get? k).getD
    (handler.new k)

def handle (table : AircraftTable κ ν) (e : ε) : AircraftTable κ ν × ω :=
  match handler.key e with
  | none => (table, handler.silent)
  | some k =>
    let pruned := table.prune handler.lastSeen handler.eligible (handler.time e)
    let (state, out) := handler.apply e (handler.found table e k)
    ({ pruned with aircraft := pruned.aircraft.put k state }, out)

def step (table : AircraftTable κ ν) (e : ε) : Option (AircraftTable κ ν) :=
  some (handler.handle table e).1

def tableAfter (es : List ε) : AircraftTable κ ν :=
  es.foldl (fun table e => (handler.handle table e).1) {}

variable {handler} {table : AircraftTable κ ν} {e : ε} {k : κ}

theorem handle_none (h : handler.key e = none) : handler.handle table e = (table, handler.silent) := by
  rw [handle, h]

theorem handle_some (h : handler.key e = some k) :
    (handler.handle table e).1.aircraft =
        (table.prune handler.lastSeen handler.eligible (handler.time e)).aircraft.put k
          (handler.apply e (handler.found table e k)).1 ∧
      (handler.handle table e).2 = (handler.apply e (handler.found table e k)).2 := by
  rw [handle, h]
  exact ⟨rfl, rfl⟩

theorem tableAfter_append (es es' : List ε) :
    handler.tableAfter (es ++ es') =
      es'.foldl (fun table e => (handler.handle table e).1) (handler.tableAfter es) :=
  List.foldl_append

theorem tableAfter_concat (es : List ε) (e : ε) :
    handler.tableAfter (es ++ [e]) = (handler.handle (handler.tableAfter es) e).1 := by
  rw [tableAfter_append]
  rfl

theorem exec_step (es : List ε) :
    Trace.exec handler.step {} es = some (handler.tableAfter es) := by
  have h : ∀ table, Trace.exec handler.step table es =
      some (es.foldl (fun table e => (handler.handle table e).1) table) := by
    induction es with
    | nil => exact fun _ => rfl
    | cons e es ih => exact fun table => ih (handler.handle table e).1
  exact h {}

/-! ## The aircraft that is handled and the others -/

theorem get?_handle_self (h : handler.key e = some k) :
    (handler.handle table e).1.aircraft.get? k =
      some (handler.apply e (handler.found table e k)).1 := by
  rw [(handle_some h).1, LinkedMap.get?_put_self]

theorem get?_handle_of_ne (h : handler.key e ≠ some k) {state : ν}
    (hget : (handler.handle table e).1.aircraft.get? k = some state) :
    table.aircraft.get? k = some state := by
  cases hkey : handler.key e with
  | none => rwa [handle_none hkey] at hget
  | some k' =>
    rw [hkey] at h
    rw [(handle_some hkey).1, LinkedMap.get?_put_of_ne _ fun he => h (congrArg some he.symm)] at hget
    exact AircraftTable.get?_prune hget

/-! ## Conditions on a message and its aircraft's state -/

/-- A message that is handled finds a state that meets the condition. -/
def Finds (handler : Handler ε κ ν ω) (P : ε → ν → Prop) (table : AircraftTable κ ν) (e : ε) : Prop :=
  ∀ k, handler.key e = some k → P e (handler.found table e k)

/-- The state that a handled message finds, the one that it leaves in the table
and what it puts out are so related. -/
def Turns (handler : Handler ε κ ν ω) (R : ε → ν → ν → ω → Prop) (table : AircraftTable κ ν)
    (e : ε) : Prop :=
  ∀ k, handler.key e = some k → ∃ after,
    (handler.handle table e).1.aircraft.get? k = some after ∧
      R e (handler.found table e k) after (handler.handle table e).2

theorem Finds.turns {P : ε → ν → Prop} {R : ε → ν → ν → ω → Prop}
    (h : ∀ e state, P e state → R e state (handler.apply e state).1 (handler.apply e state).2)
    (hp : handler.Finds P table e) : handler.Turns R table e := by
  intro k hkey
  refine ⟨_, get?_handle_self hkey, ?_⟩
  rw [(handle_some hkey).2]
  exact h e _ (hp k hkey)

/-- **What holds of every message brought into a state holds along a run.** -/
theorem along_turns {P : ε → ν → Prop} {R : ε → ν → ν → ω → Prop}
    (h : ∀ e state, P e state → R e state (handler.apply e state).1 (handler.apply e state).2)
    {es : List ε} (hp : Trace.Along handler.step (handler.Finds P) table es) :
    Trace.Along handler.step (handler.Turns R) table es :=
  Trace.along_mono (fun _ _ hfinds => hfinds.turns h) hp

end Handler

/-! ## The three handlers -/

namespace Legacy

theorem applyMessage_lastSeenMs (trig : Fields.Trig) (clock : Clock) (message : Message)
    (state : AircraftState) :
    (applyMessage trig clock message state).1.lastSeenMs = state.lastSeenMs := by
  have hreport : ∀ (s : AircraftState) odd lat lon,
      (s.storeReport odd lat lon).lastSeenMs = s.lastSeenMs := by
    intro s odd lat lon
    unfold AircraftState.storeReport
    split <;> rfl
  unfold applyMessage
  simp only
  split
  · rfl
  split
  · unfold applyPosition
    simp only
    split
    · next s hs =>
      obtain ⟨p, -, rfl⟩ := Option.map_eq_some_iff.1 hs
      exact hreport _ _ _ _
    · exact hreport _ _ _ _
  split
  · unfold applyVelocity decodeVelocity
    split <;> rfl
  · rfl

/-- The aircraft whose state `handleMessage` changes. -/
def handledKey (message : Message) : Option Text :=
  if Fields.typeCode message ≤ 0 ∨ Fields.typeCode message > 31 then none else some (hexText message)

def handler (trig : Fields.Trig) : Handler (Clock × Message) Text AircraftState (Option Text) where
  lastSeen := AircraftState.lastSeenMs
  eligible seen := seen < 2 ^ 63 - 1
  key e := handledKey e.2
  time e := e.1.handled
  new hex := { hex := hex }
  apply e state := applyMessage trig e.1 e.2 { state with lastSeenMs := e.1.handled }
  silent := none
  lastSeen_apply e _ := applyMessage_lastSeenMs trig e.1 e.2 _

theorem handler_handle (trig : Fields.Trig) (table : Table) (clock : Clock) (message : Message) :
    (handler trig).handle table (clock, message) = handleMessage trig clock message table := by
  rw [Handler.handle, handleMessage]
  simp only [handler, handledKey]
  by_cases h : Fields.typeCode message ≤ 0 ∨ Fields.typeCode message > 31
  · rw [if_pos h, if_pos h]
  · rw [if_neg h, if_neg h]
    rfl

end Legacy

namespace Native
open AdsbBridge.Readsb

theorem applyMessage_lastSeenMs (trig : Fields.Trig) (clock : Clock) (message : Message)
    (state : AircraftState) :
    (applyMessage trig clock message state).1.lastSeenMs = state.lastSeenMs := by
  unfold applyMessage
  simp only
  split
  · rfl
  split
  · refine applyPosition_keeps (P := fun s => s.lastSeenMs = state.lastSeenMs) ?_ ?_ ?_ clock rfl
    · intro s altitude hs
      exact hs
    · intro s hs
      exact (storeReport_keepsRate s _ _ _).lastSeen.trans hs
    · intro s s' hs hd
      obtain ⟨p, -, rfl⟩ := Option.map_eq_some_iff.1 hd
      exact hs
  split
  · unfold applyVelocity decodeVelocity
    split <;> rfl
  · rfl

/-- What `nativeProcessIq` hands on: a message of the native-fast scan or one
that readsb has decoded. -/
inductive Input
  | fast (message : Message)
  | readsb (decoded : ReadsbBridgeMessage)

/-- The aircraft whose state a handler changes. -/
def Input.key : Input → Option ℕ
  | fast message =>
    if Fields.typeCode message ≤ 0 ∨ Fields.typeCode message > 31 then none
    else some (Fields.icaoAddress message)
  | readsb decoded => if decoded.addr = 0 then none else some (aircraftKey decoded)

def Input.apply (trig : Fields.Trig) (clock : Clock) (state : AircraftState) :
    Input → AircraftState × Text
  | fast message => applyMessage trig clock message { state with lastSeenMs := clock.handled }
  | readsb decoded => applyDecoded clock.printed decoded { state with lastSeenMs := clock.handled }

/-- `handle_message` or `handle_readsb_decoded_message`. -/
def handleInput (trig : Fields.Trig) (clock : Clock) (table : Table) : Input → Table × Text
  | .fast message => handleMessage trig clock message table
  | .readsb decoded => handleReadsbDecodedMessage clock decoded table

def handler (trig : Fields.Trig) : Handler (Clock × Input) ℕ AircraftState Text where
  lastSeen := AircraftState.lastSeenMs
  eligible _ := true
  key e := e.2.key
  time e := e.1.handled
  new _ := {}
  apply e state := e.2.apply trig e.1 state
  silent := []
  lastSeen_apply e state := by
    obtain ⟨clock, input⟩ := e
    cases input with
    | fast message => exact applyMessage_lastSeenMs trig clock message _
    | readsb decoded => exact applyDecoded_lastSeenMs clock.printed decoded _

theorem handler_handle (trig : Fields.Trig) (table : Table) (clock : Clock) (input : Input) :
    (handler trig).handle table (clock, input) = handleInput trig clock table input := by
  cases input with
  | fast message =>
    rw [Handler.handle, handleInput, handleMessage]
    simp only [handler, Input.key]
    by_cases h : Fields.typeCode message ≤ 0 ∨ Fields.typeCode message > 31
    · rw [if_pos h, if_pos h]
    · rw [if_neg h, if_neg h]
      rfl
  | readsb decoded =>
    rw [Handler.handle, handleInput, handleReadsbDecodedMessage]
    simp only [handler, Input.key]
    by_cases h : decoded.addr = 0
    · rw [if_pos h, if_pos h]
    · rw [if_neg h, if_neg h]
      rfl

end Native

end AdsbBridge
