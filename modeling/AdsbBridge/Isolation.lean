import Mathlib.Data.List.Dedup
import AdsbBridge.Freshness
import AdsbBridge.Lib.Keyed

/-! # Whose lines a message can change

On the READSB_CORE path a message reads and writes the state under the low 24
bits of its address. As long as nothing is pruned, the lines of an address are
those of a run over its own messages; readsb's flag in bit 24 is no part of the
key, nor of the address a line shows. -/
namespace AdsbBridge.Native
open AdsbBridge.Lib AdsbBridge.Fields AdsbBridge.Readsb AdsbBridge.Store

/-- The line of each message, in order; the empty text is no line. -/
def handledLines : Table → List Received → List (Received × Text)
  | _, [] => []
  | table, r :: rest =>
    let (table, line) := handleReadsbDecodedMessage r.clock r.message table
    (r, line) :: handledLines table rest

def linesFor (addr : UInt32) (received : List Received) : List Text :=
  ((handledLines {} received).filter fun o => o.1.message.addr = addr).map Prod.snd

/-- The aircraft that a line is about, as its readers see it. -/
def hexIdentity (line : Text) : Text := (Text.splitFields line).getD 4 []

/-- The messages span less than the interval between two prunings, and there
are not more addresses than the table holds. -/
structure Brief (received : List Received) : Prop where
  span : ∀ r ∈ received, ∀ r' ∈ received, r.timeMs - r'.timeMs < aircraftPruneIntervalMs
  few : (received.map fun r => r.message.addr).dedup.length ≤ maxAircraftStates

/-- The messages of `b` leave no trace in the lines of `a`, and no line of the
one is about the aircraft of the other. -/
structure Isolated (a b : UInt32) (received : List Received) : Prop where
  unchanged : linesFor a (received.filter fun r => r.message.addr ≠ b) = linesFor a received
  identity : ∀ line ∈ linesFor a received, ∀ line' ∈ linesFor b received,
    line ≠ [] → line' ≠ [] → hexIdentity line ≠ hexIdentity line'

/-! ## The decoder without pruning -/

/-- The entry that the messages of an address work on; address zero has none. -/
def entryOf (addr : UInt32) : Option ℕ :=
  if addr = 0 then none else some (addr.toNat % 2 ^ 24)

/-- Two addresses share no entry exactly if their low 24 bits differ or the
messages of one of them are ignored. -/
theorem entryOf_ne_iff {a b : UInt32} (hab : a ≠ b) :
    entryOf a ≠ entryOf b ↔ a.toNat % 2 ^ 24 ≠ b.toNat % 2 ^ 24 ∨ a = 0 ∨ b = 0 := by
  unfold entryOf
  by_cases ha : a = 0
  · have hb : b ≠ 0 := fun hb => hab (ha.trans hb.symm)
    simp [ha, hb]
  · by_cases hb : b = 0
    · simp [ha, hb]
    · simp [ha, hb]

/-- What a message makes of its entry, and the line. -/
def visit (r : Received) (state : AircraftState) : AircraftState × Text :=
  if r.message.addr = 0 then (state, [])
  else applyDecoded r.clock.printed r.message { state with lastSeenMs := r.timeMs }

/-- The entries are the aircraft of the table, and new ones elsewhere. -/
def Mirrors (entries : Option ℕ → AircraftState) (table : Table) : Prop :=
  ∀ key, entries (some key) = (table.aircraft.get? key).getD {}

/-- Every state was last seen in one of these messages. -/
def SeenIn (received : List Received) (table : Table) : Prop :=
  table.All fun key state => ∃ r ∈ received, aircraftKey r.message = key ∧ state.lastSeenMs = r.timeMs

section Refinement

variable {received : List Received} {table : Table} {r : Received}

theorem SeenIn.size_le (hseen : SeenIn received table) (hb : Brief received) :
    table.aircraft.size ≤ maxAircraftStates := by
  have hkeys : ∀ key, table.aircraft.get? key ≠ none →
      key ∈ (received.map fun r => r.message.addr).dedup.map fun addr => addr.toNat % 2 ^ 24 := by
    intro key hkey
    obtain ⟨state, hstate⟩ := Option.ne_none_iff_exists'.1 hkey
    obtain ⟨r, hr, rfl, -⟩ := hseen key state hstate
    exact List.mem_map.2 ⟨_, List.mem_dedup.2 (List.mem_map.2 ⟨r, hr, rfl⟩), rfl⟩
  have hlen := LinkedMap.size_le_of_keys hkeys
  rw [List.length_map] at hlen
  exact hlen.trans hb.few

/-- In a brief run pruning takes nothing away. -/
theorem SeenIn.get?_prune (hseen : SeenIn received table) (hb : Brief received)
    (hr : r ∈ received) (key : ℕ) :
    (pruneAircraftStates r.timeMs table).aircraft.get? key = table.aircraft.get? key := by
  rw [pruneAircraftStates, AircraftTable.get?_prune_of_le (hseen.size_le hb)]
  cases hget : table.aircraft.get? key with
  | none => rfl
  | some state =>
    obtain ⟨r', hr', -, hlast⟩ := hseen key state hget
    have hspan := hb.span r hr r' hr'
    have hyoung : ¬ r.timeMs - state.lastSeenMs > aircraftStateTtlMs := by
      rw [hlast, aircraftStateTtlMs]
      rw [aircraftPruneIntervalMs] at hspan
      omega
    rw [Option.filter_some, AircraftTable.keeps, decide_eq_false hyoung]
    simp

theorem SeenIn.handle (hseen : SeenIn received table) (hr : r ∈ received) :
    SeenIn received (handleReadsbDecodedMessage r.clock r.message table).1 := by
  by_cases ha : r.message.addr = 0
  · rw [handleReadsbDecodedMessage, if_pos ha]
    exact hseen
  · rw [handle_eq ha]
    refine (hseen.prune r.timeMs).put ⟨r, hr, rfl, ?_⟩
    rw [applied, applyDecoded_lastSeenMs, stateAt]

/-- One message: its line, and the entries it leaves behind. -/
theorem Mirrors.handle {entries : Option ℕ → AircraftState} (hm : Mirrors entries table)
    (hseen : SeenIn received table) (hb : Brief received) (hr : r ∈ received) :
    (handleReadsbDecodedMessage r.clock r.message table).2 = (visit r (entries (entryOf r.message.addr))).2 ∧
      Mirrors (Function.update entries (entryOf r.message.addr) (visit r (entries (entryOf r.message.addr))).1)
        (handleReadsbDecodedMessage r.clock r.message table).1 := by
  by_cases ha : r.message.addr = 0
  · rw [handleReadsbDecodedMessage, if_pos ha, visit, if_pos ha, Function.update_eq_self]
    exact ⟨rfl, hm⟩
  · have hfound : stateAt table r =
        { entries (some (aircraftKey r.message)) with lastSeenMs := r.timeMs } := by
      rw [stateAt, hseen.get?_prune hb hr, hm]
    have hentry : entryOf r.message.addr = some (aircraftKey r.message) := if_neg ha
    rw [handle_eq ha, hentry, visit, if_neg ha, applied, hfound]
    refine ⟨rfl, fun key => ?_⟩
    simp only [LinkedMap.get?_put, hseen.get?_prune hb hr]
    by_cases hk : key = aircraftKey r.message
    · rw [if_pos hk, hk, Function.update_self, Option.getD_some]
    · rw [if_neg hk, Function.update_of_ne (by simpa using hk), hm]

/-- **A brief run gives the lines of the decoder that never prunes.** -/
theorem handledLines_eq_outputs (hb : Brief received) {run : List Received} (hrun : run ⊆ received)
    {entries : Option ℕ → AircraftState} (hm : Mirrors entries table)
    (hseen : SeenIn received table) :
    handledLines table run = Keyed.outputs visit (fun r => entryOf r.message.addr) entries run := by
  induction run generalizing table entries with
  | nil => rfl
  | cons r rest ih =>
    obtain ⟨hr, hrest⟩ := List.cons_subset.1 hrun
    obtain ⟨hline, hnext⟩ := hm.handle hseen hb hr
    show (r, (handleReadsbDecodedMessage r.clock r.message table).2) ::
      handledLines (handleReadsbDecodedMessage r.clock r.message table).1 rest = _
    rw [Keyed.outputs, hline, ih hrest hnext (hseen.handle hr)]

theorem handledLines_fresh (hb : Brief received) {run : List Received} (hrun : run ⊆ received) :
    handledLines {} run = Keyed.outputs visit (fun r => entryOf r.message.addr) (fun _ => {}) run :=
  handledLines_eq_outputs hb hrun (fun _ => rfl) AircraftTable.all_fresh

end Refinement

/-! ## The lines -/

section Lines

variable {received : List Received} {a b : UInt32}

theorem hexIdentity_toSbsLine {nowMs : ℤ} {hex : ℕ} {state : AircraftState} {transmissionType : ℕ}
    {includePosition : Bool} (hp : state.Plain)
    (hs : suppressed state transmissionType includePosition = false) :
    hexIdentity (toSbsLine nowMs hex state transmissionType includePosition) = Text.hexOf 6 hex := by
  rw [hexIdentity, toSbsLine, hs, if_neg Bool.false_ne_true,
    Text.splitFields_joinFields (no_comma_sbsFields hp) sbsFields_ne_nil]
  rfl

def About (addr : UInt32) (line : Text) : Prop :=
  line ≠ [] → addr ≠ 0 ∧ hexIdentity line = Text.hexOf 6 addr.toNat

/-- A visit keeps the callsign plain, and its line shows the message's address. -/
theorem visit_about (r : Received) {state : AircraftState} (hp : state.Plain) :
    (visit r state).1.Plain ∧ About r.message.addr (visit r state).2 := by
  unfold visit
  split
  · exact ⟨hp, fun h => absurd rfl h⟩
  · next ha =>
    have hseen : AircraftState.Plain { state with lastSeenMs := r.timeMs } := hp
    obtain ⟨htakes, hline⟩ := applyDecoded_spec r.clock.printed r.message hseen
    refine ⟨htakes.plain hp, fun hne => ?_⟩
    rcases hline with hnil | ⟨nowMs, type, pos, printed, hl, hs, hprinted, -, -⟩
    · exact absurd hnil hne
    · rw [hl, hexIdentity_toSbsLine hprinted hs]
      exact ⟨ha, rfl⟩

theorem mem_linesFor {o : Received × Text} (h : o ∈ handledLines {} received) :
    o.2 ∈ linesFor o.1.message.addr received :=
  List.mem_map.2 ⟨o, List.mem_filter.2 ⟨h, decide_eq_true rfl⟩, rfl⟩

theorem about_linesFor (hb : Brief received) {line : Text} (hline : line ∈ linesFor a received) :
    About a line := by
  obtain ⟨o, ho, rfl⟩ := List.mem_map.1 hline
  obtain ⟨hmem, haddr⟩ := List.mem_filter.1 ho
  rw [handledLines_fresh hb fun _ h => h] at hmem
  have habout := Keyed.forall_outputs visit (fun r => entryOf r.message.addr)
    (fun r _ hp => visit_about r hp) (fun _ => plain_default) received o hmem
  rwa [of_decide_eq_true haddr] at habout

theorem hexOf_eq_iff {m n : ℕ} : Text.hexOf 6 m = Text.hexOf 6 n ↔ m % 2 ^ 24 = n % 2 ^ 24 := by
  have hpow : (2 : ℕ) ^ 24 = 16 ^ 6 := by norm_num
  rw [hpow, ← Text.hexOf_mod 6 m, ← Text.hexOf_mod 6 n]
  refine ⟨fun h => ?_, fun h => by rw [h]⟩
  exact Text.hexOf_inj (Nat.mod_lt m (by decide)) (Nat.mod_lt n (by decide)) h

/-- **Addresses without a common entry do not interfere.** -/
theorem isolated_of_entryOf_ne (hb : Brief received) (h : entryOf a ≠ entryOf b) :
    Isolated a b received where
  unchanged := by
    have hfilter : ∀ outputs : List (Received × Text),
        outputs.filter (fun o => o.1.message.addr = a) =
          (outputs.filter fun o => entryOf o.1.message.addr = entryOf a).filter
            fun o => o.1.message.addr = a := by
      intro outputs
      rw [List.filter_filter]
      refine List.filter_congr fun o _ => ?_
      by_cases ha : o.1.message.addr = a
      · simp [ha]
      · simp [ha]
    have hkept : ∀ r : Received, entryOf r.message.addr = entryOf a →
        decide (r.message.addr ≠ b) = true := by
      intro r hr
      refine decide_eq_true fun hrb => h ?_
      rw [← hr, hrb]
    have hremoved := Keyed.filter_outputs_of_removed visit (fun r => entryOf r.message.addr)
      (fun _ => {}) hkept received
    rw [linesFor, linesFor, handledLines_fresh hb (List.filter_subset_self received),
      handledLines_fresh hb fun _ hr => hr, hfilter, hremoved, ← hfilter]
  identity := by
    intro line hline line' hline' hne hne' heq
    obtain ⟨ha, hshown⟩ := about_linesFor hb hline hne
    obtain ⟨hb, hshown'⟩ := about_linesFor hb hline' hne'
    rw [hshown, hshown', hexOf_eq_iff] at heq
    rw [entryOf, entryOf, if_neg ha, if_neg hb, heq] at h
    exact h rfl

end Lines

/-! ## Addresses that share an entry -/

theorem klm1023_plain : Text.Over isCallsignChar "KLM1023".toList := by
  have hall : ("KLM1023".toList.all isCallsignChar) = true := by decide
  exact fun c hc => List.all_eq_true.1 hall c hc

def naming (addr : UInt32) (ms : ℤ) : Received :=
  ⟨⟨ms, ms⟩, { addr := addr, callsign := some ⟨"KLM1023".toList, klm1023_plain⟩ }⟩

/-- Two addresses that name their aircraft, a second apart. -/
def bothNamed (a b : UInt32) : List Received := [naming a 1000, naming b 2000]

section Shared

variable {a b : UInt32}

theorem visit_naming_ne_nil {addr : UInt32} (ha : addr ≠ 0) (ms : ℤ) (state : AircraftState) :
    (visit (naming addr ms) state).2 ≠ [] := by
  have hline : (visit (naming addr ms) state).2 =
      toSbsLine ms addr.toNat { state with callsign := "KLM1023".toList, lastSeenMs := ms } 1 false := by
    rw [visit, if_neg (by exact ha)]
    rfl
  rw [hline, ne_eq, toSbsLine_eq_nil_iff]
  simp [suppressed]

theorem bothNamed_brief (a b : UInt32) : Brief (bothNamed a b) where
  span := by simp [bothNamed, naming, Received.timeMs, aircraftPruneIntervalMs]
  few := ((List.dedup_sublist _).length_le).trans (by simp [bothNamed, maxAircraftStates])

/-- Both lines of an entry that two addresses share show the same aircraft. -/
theorem not_isolated_of_entryOf_eq (hab : a ≠ b) (h : entryOf a = entryOf b) :
    ¬ Isolated a b (bothNamed a b) := by
  have hshared : ¬ (a.toNat % 2 ^ 24 ≠ b.toNat % 2 ^ 24 ∨ a = 0 ∨ b = 0) :=
    fun hne => (entryOf_ne_iff hab).2 hne h
  simp only [ne_eq, not_or, not_not] at hshared
  obtain ⟨hkey, ha, hb⟩ := hshared
  intro hisolated
  have hbrief := bothNamed_brief a b
  obtain ⟨state, hlines⟩ : ∃ state, handledLines {} (bothNamed a b) =
      [(naming a 1000, (visit (naming a 1000) {}).2), (naming b 2000, (visit (naming b 2000) state).2)] :=
    ⟨_, handledLines_fresh hbrief fun _ hr => hr⟩
  have hline := mem_linesFor (o := (naming a 1000, _)) (hlines ▸ List.mem_cons_self)
  have hline' := mem_linesFor (o := (naming b 2000, _))
    (hlines ▸ List.mem_cons_of_mem _ List.mem_cons_self)
  have hne := visit_naming_ne_nil ha 1000 {}
  have hne' := visit_naming_ne_nil hb 2000 state
  refine hisolated.identity _ hline _ hline' hne hne' ?_
  rw [(about_linesFor hbrief hline hne).2, (about_linesFor hbrief hline' hne').2, hexOf_eq_iff]
  exact hkey

end Shared

/-- **Two addresses are isolated in every brief run exactly if they share no
entry of the table.** -/
theorem isolated_iff {a b : UInt32} (hab : a ≠ b) :
    (∀ received, Brief received → Isolated a b received) ↔
      a.toNat % 2 ^ 24 ≠ b.toNat % 2 ^ 24 ∨ a = 0 ∨ b = 0 := by
  rw [← entryOf_ne_iff hab]
  refine ⟨fun h heq => ?_, fun hne received hb => isolated_of_entryOf_ne hb hne⟩
  exact not_isolated_of_entryOf_eq hab heq (h _ (bothNamed_brief a b))

theorem isolated_iff_klm :
    (∀ received, Brief received → Isolated 0x4840d6 0x4840d7 received) ↔
      (0x4840d6 : UInt32).toNat % 2 ^ 24 ≠ (0x4840d7 : UInt32).toNat % 2 ^ 24 ∨
        (0x4840d6 : UInt32) = 0 ∨ (0x4840d7 : UInt32) = 0 :=
  isolated_iff (by decide)

/-- An aircraft's callsign, after the altitude of a track that is not an ICAO
aircraft but has the same low 24 bits. -/
def besideTrack : List Received :=
  [⟨⟨1000, 1000⟩, { addr := 0x14840d6, altitudeFt := some 1000 }⟩, naming 0x4840d6 2000]

/-- The aircraft's line shows the altitude of the track. -/
theorem besideTrack_not_isolated :
    Brief besideTrack ∧ ¬ Isolated 0x4840d6 0x14840d6 besideTrack := by
  have hspan : ∀ r ∈ besideTrack, ∀ r' ∈ besideTrack,
      r.timeMs - r'.timeMs < aircraftPruneIntervalMs := by
    simp [besideTrack, naming, Received.timeMs, aircraftPruneIntervalMs]
  have hfew : (besideTrack.map fun r => r.message.addr).dedup.length ≤ maxAircraftStates :=
    ((List.dedup_sublist _).length_le).trans (by simp [besideTrack, maxAircraftStates])
  have hlines : linesFor 0x4840d6 (besideTrack.filter fun r => r.message.addr ≠ 0x14840d6) ≠
      linesFor 0x4840d6 besideTrack := by
    decide
  exact ⟨⟨hspan, hfew⟩, fun h => hlines h.unchanged⟩

end AdsbBridge.Native
