import AdsbBridge.AircraftCap

/-! # Aircraft that are heard again after a long silence

A state that has expired goes when a pruning is due. If none is due when its
aircraft is heard again, the state lives on. -/
namespace AdsbBridge
open AdsbBridge.Lib

namespace AircraftTable

variable {κ ν : Type} [DecidableEq κ] {lastSeen : ν → ℤ} {eligible : ℤ → Bool}
  {table : AircraftTable κ ν} {t : ℤ}

/-- No expired state survives a pruning that is due. -/
theorem young_of_get?_prune (hdue : table.PruneDue t) {k : κ} {state : ν}
    (h : (table.prune lastSeen eligible t).aircraft.get? k = some state) :
    ¬ aircraftStateTtlMs < t - lastSeen state := by
  rw [prune, if_neg (not_throttled_iff.2 hdue)] at h
  have hkept := get?_evict h
  rw [LinkedMap.get?_filter, Option.filter_eq_some_iff, Bool.not_eq_true',
    decide_eq_false_iff_not] at hkept
  exact hkept.2

end AircraftTable

namespace Handler

variable {ε κ ν ω : Type} [DecidableEq κ] (handler : Handler ε κ ν ω) (k : κ)

/-- The messages of one aircraft. -/
def ownOf (es : List ε) : List ε := es.filter fun e => decide (handler.key e = some k)

/-- The state of an aircraft of which only these messages were heard. -/
def replay (own : List ε) : ν :=
  own.foldl (fun state e => (handler.apply e state).1) (handler.new k)

/-- What a message puts out if before it only `own` were heard of its aircraft. -/
def outAfter (own : List ε) (e : ε) : ω := (handler.apply e (handler.replay k own)).2

/-- Between `last` and `first` the aircraft is silent for longer than its state
lives. -/
structure Gap (last : ε) (quiet : List ε) (first : ε) : Prop where
  last_key : handler.key last = some k
  quiet_keys : ∀ e ∈ quiet, handler.key e ≠ some k
  first_key : handler.key first = some k
  long : aircraftStateTtlMs < handler.time first - handler.time last

/-- What the aircraft's messages among `since` put out comes of messages among
`since` alone: of those from some point on. -/
def OutOfOwn (past since : List ε) : Prop :=
  ∀ mid e rest, since = mid ++ e :: rest → handler.key e = some k →
    ∃ own, own <:+ handler.ownOf k mid ∧
      (handler.handle (handler.tableAfter (past ++ mid)) e).2 = handler.outAfter k own e

/-- After a gap nothing from before it is put out. -/
def NothingResurrected (es : List ε) : Prop :=
  ∀ k before last quiet first after, es = before ++ last :: quiet ++ first :: after →
    handler.Gap k last quiet first →
      handler.OutOfOwn k (before ++ last :: quiet) (first :: after)

/-- A message that finds an expired state of its aircraft finds a pruning due. -/
def ExpiresInTime (table : AircraftTable κ ν) (e : ε) : Prop :=
  ∀ k state, handler.key e = some k → table.aircraft.get? k = some state →
    aircraftStateTtlMs < handler.time e - handler.lastSeen state → table.PruneDue (handler.time e)

variable {handler k} {table : AircraftTable κ ν} {e last first : ε} {quiet mid : List ε}

theorem ownOf_concat_self (hkey : handler.key e = some k) (es : List ε) :
    handler.ownOf k (es ++ [e]) = handler.ownOf k es ++ [e] := by
  rw [ownOf, List.filter_append, List.filter_cons, if_pos (decide_eq_true hkey), List.filter_nil]
  rfl

theorem ownOf_concat_of_ne (hkey : handler.key e ≠ some k) (es : List ε) :
    handler.ownOf k (es ++ [e]) = handler.ownOf k es := by
  rw [ownOf, List.filter_append, List.filter_cons, if_neg (by rwa [decide_eq_true_eq]),
    List.filter_nil, List.append_nil]
  rfl

/-- The state the aircraft had is the one of its last message. -/
theorem lastSeen_of_quiet (hlast : handler.key last = some k)
    (hquiet : ∀ e ∈ quiet, handler.key e ≠ some k) (before : List ε) {state : ν}
    (hget : (handler.tableAfter (before ++ last :: quiet)).aircraft.get? k = some state) :
    handler.lastSeen state = handler.time last := by
  induction quiet using List.reverseRecOn generalizing state with
  | nil =>
    rw [tableAfter_concat, get?_handle_self hlast] at hget
    cases hget
    exact handler.lastSeen_apply last _
  | append_singleton quiet e ih =>
    rw [← List.cons_append, ← List.append_assoc, tableAfter_concat] at hget
    have hne := hquiet e (List.mem_append_right _ List.mem_cons_self)
    exact ih (fun e' he' => hquiet e' (List.mem_append_left _ he')) (get?_handle_of_ne hne hget)

/-- **After the gap the aircraft starts anew**, if a pruning is due. -/
theorem found_of_gap (hgap : handler.Gap k last quiet first) (before : List ε)
    (htime : handler.ExpiresInTime (handler.tableAfter (before ++ last :: quiet)) first) :
    handler.found (handler.tableAfter (before ++ last :: quiet)) first k = handler.new k := by
  rw [found]
  cases hget : ((handler.tableAfter (before ++ last :: quiet)).prune handler.lastSeen
      handler.eligible (handler.time first)).aircraft.get? k with
  | none => rfl
  | some state =>
    have hbefore := AircraftTable.get?_prune hget
    have hold := hgap.long
    rw [← lastSeen_of_quiet hgap.last_key hgap.quiet_keys before hbefore] at hold
    have hdue := htime k state hgap.first_key hbefore hold
    exact absurd hold (AircraftTable.young_of_get?_prune hdue hget)

/-- The aircraft's state, if there is one, comes of messages among `mid`. -/
def Follows (handler : Handler ε κ ν ω) (k : κ) (mid : List ε) (table : AircraftTable κ ν) : Prop :=
  ∀ state, table.aircraft.get? k = some state →
    ∃ own, own <:+ handler.ownOf k mid ∧ state = handler.replay k own

theorem Follows.found (h : Follows handler k mid table) (e : ε) :
    ∃ own, own <:+ handler.ownOf k mid ∧ handler.found table e k = handler.replay k own := by
  rw [Handler.found]
  cases hget : (table.prune handler.lastSeen handler.eligible (handler.time e)).aircraft.get? k with
  | none => exact ⟨[], List.nil_suffix, rfl⟩
  | some state =>
    obtain ⟨own, hown, hstate⟩ := h state (AircraftTable.get?_prune hget)
    exact ⟨own, hown, hstate⟩

/-- The message that finds a state extends the history the state comes of. -/
theorem follows_handle_self (hkey : handler.key e = some k) {own : List ε}
    (hown : own <:+ handler.ownOf k mid) (hfound : handler.found table e k = handler.replay k own) :
    Follows handler k (mid ++ [e]) (handler.handle table e).1 := by
  intro state hget
  rw [get?_handle_self hkey, hfound] at hget
  refine ⟨own ++ [e], ?_, ?_⟩
  · obtain ⟨older, holder⟩ := hown
    exact ⟨older, by rw [← List.append_assoc, holder, ownOf_concat_self hkey]⟩
  · rw [replay, List.foldl_append]
    exact (Option.some.inj hget).symm

theorem Follows.handle (h : Follows handler k mid table) (e : ε) :
    Follows handler k (mid ++ [e]) (handler.handle table e).1 := by
  by_cases hkey : handler.key e = some k
  · obtain ⟨own, hown, hfound⟩ := h.found e
    exact follows_handle_self hkey hown hfound
  · intro state hget
    obtain ⟨own, hown, hstate⟩ := h state (get?_handle_of_ne hkey hget)
    refine ⟨own, ?_, hstate⟩
    rwa [ownOf_concat_of_ne hkey]

theorem Follows.tableAfter {past : List ε} (h : Follows handler k mid (handler.tableAfter past))
    (es : List ε) : Follows handler k (mid ++ es) (handler.tableAfter (past ++ es)) := by
  induction es using List.reverseRecOn with
  | nil => rwa [List.append_nil, List.append_nil]
  | append_singleton es e ih =>
    rw [← List.append_assoc, ← List.append_assoc, tableAfter_concat]
    exact ih.handle e

theorem out_of_found (hkey : handler.key e = some k) {own : List ε}
    (hfound : handler.found table e k = handler.replay k own) :
    (handler.handle table e).2 = handler.outAfter k own e := by
  rw [(handle_some hkey).2, hfound, outAfter]

/-- **Nothing is resurrected** in a run whose messages all find a pruning due
when they find an expired state. -/
theorem nothingResurrected {es : List ε}
    (h : Trace.Along handler.step handler.ExpiresInTime {} es) : handler.NothingResurrected es := by
  intro k before last quiet first after hes hgap mid e rest hsplit hkey
  rw [hes] at h
  have hfirst := ((Trace.along_append.1 h).2 _ (exec_step _)).1
  have hnew := found_of_gap hgap before hfirst
  cases mid with
  | nil =>
    obtain ⟨rfl, -⟩ := List.cons.inj hsplit
    rw [List.append_nil]
    exact ⟨[], List.nil_suffix, out_of_found hkey hnew⟩
  | cons first' mid =>
    obtain ⟨rfl, -⟩ := List.cons.inj hsplit
    have hstart : Follows handler k ([] ++ [first])
        (handler.tableAfter (before ++ last :: quiet ++ [first])) := by
      rw [tableAfter_concat]
      exact follows_handle_self hgap.first_key List.nil_suffix hnew
    have hnow := hstart.tableAfter mid
    rw [List.nil_append, List.append_assoc, List.singleton_append] at hnow
    obtain ⟨own, hown, hfound⟩ := hnow.found e
    exact ⟨own, hown, out_of_found hkey hfound⟩

end Handler

/-- **No decoder resurrects stale states** in a run whose messages all find a
pruning due when they find an expired state. -/
theorem nothingResurrected_of_expiresInTime (trig : Fields.Trig)
    (legacy : List (Clock × Message)) (native : List (Clock × Native.Input))
    (hlegacy : Trace.Along (Legacy.handler trig).step (Legacy.handler trig).ExpiresInTime {} legacy)
    (hnative : Trace.Along (Native.handler trig).step (Native.handler trig).ExpiresInTime {} native) :
    (Legacy.handler trig).NothingResurrected legacy ∧
      (Native.handler trig).NothingResurrected native :=
  ⟨Handler.nothingResurrected hlegacy, Handler.nothingResurrected hnative⟩

/-! ## An aircraft that comes back -/

/-- A squitter with the callsign KLM1023, then an airborne velocity 700 seconds
later. -/
def backAfterPruning : List (Clock × Message) :=
  [(⟨1000000, 1000000⟩,
      #v[0x8d, 0x48, 0x40, 0xd6, 0x21, 0x2c, 0xc3, 0x71, 0xc3, 0x2c, 0xe0, 0x8b, 0x1a, 0x6f]),
    (⟨1700000, 1700000⟩,
      #v[0x8d, 0x48, 0x40, 0xd6, 0x99, 0x44, 0x09, 0x94, 0x08, 0x38, 0x17, 0x3c, 0x36, 0x75])]

def altitudeReported : Clock × Native.Input :=
  (⟨1000000, 1000000⟩, .readsb { addr := 0x4840d6, altitudeFt := some 1000 })

/-- A reply of another one, so long after. -/
def otherAfter (ms : ℤ) : Clock × Native.Input :=
  (⟨1000000 + ms, 1000000 + ms⟩, .readsb { addr := 0x4840d7 })

/-- A velocity of the first, so long after. -/
def velocityReported (ms : ℤ) : Clock × Native.Input :=
  (⟨1000000 + ms, 1000000 + ms⟩, .readsb { addr := 0x4840d6, velocity := some (400, 90) })

theorem expiresInTime_of_due {ε κ ν ω : Type} [DecidableEq κ] {handler : Handler ε κ ν ω}
    {table : AircraftTable κ ν} {e : ε}
    (h : aircraftPruneIntervalMs ≤ handler.time e - table.lastAircraftPruneMs) :
    handler.ExpiresInTime table e := fun _ _ _ _ _ => .inr h

/-- Both decoders forget an aircraft that comes back after 700 seconds. -/
theorem backAfterPruning_nothingResurrected :
    (Legacy.handler noTrig).NothingResurrected backAfterPruning ∧
      (Native.handler noTrig).NothingResurrected [altitudeReported, velocityReported 700000] := by
  refine nothingResurrected_of_expiresInTime noTrig _ _
    ⟨expiresInTime_of_due (by decide), fun table htable => ?_⟩
    ⟨expiresInTime_of_due (by decide), fun table htable => ?_⟩
  · cases htable
    exact ⟨expiresInTime_of_due (by decide), fun _ _ => trivial⟩
  · cases htable
    exact ⟨expiresInTime_of_due (by decide), fun _ _ => trivial⟩

/-- Another aircraft has the table pruned ten seconds before the state expires:
eleven seconds later the velocity line still shows the altitude. -/
theorem altitude_resurrected :
    ¬ (Native.handler noTrig).NothingResurrected
      [altitudeReported, otherAfter 590000, velocityReported 601000] := by
  intro h
  obtain ⟨own, hown, hout⟩ := h 0x4840d6 [] altitudeReported [otherAfter 590000]
    (velocityReported 601000) [] rfl
    ⟨rfl, by decide, rfl, by decide⟩ [] (velocityReported 601000) [] rfl rfl
  rw [List.eq_nil_of_suffix_nil hown] at hout
  revert hout
  decide

end AdsbBridge
