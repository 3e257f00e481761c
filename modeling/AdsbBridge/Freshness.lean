import Mathlib.Data.List.Induction
import AdsbBridge.Native.Rate
import AdsbBridge.Store.Calls

/-! # How old the vertical rate in the feed is

The decoder holds a vertical rate for fifteen seconds and repeats it in every
line it writes meanwhile; the store holds what a line says for another fifteen
seconds from that line on. -/
namespace AdsbBridge.Native
open AdsbBridge.Lib AdsbBridge.Fields AdsbBridge.Readsb AdsbBridge.Store

/-- A readsb message with the clock readings of its handler. -/
structure Received where
  clock : Clock
  message : ReadsbBridgeMessage

def Received.timeMs (r : Received) : ℤ := r.clock.handled

/-- The decoder's aircraft and the store behind it. -/
structure Bridge where
  table : Table := {}
  store : BridgeAircraftStore := {}

/-- Handling a message and merging its line, if there is one. -/
def Bridge.receive [UpperCase] (geo : Geo) (bridge : Bridge) (r : Received) : Bridge :=
  let (table, line) := handleReadsbDecodedMessage r.clock r.message bridge.table
  ⟨table, if line.isEmpty then bridge.store else bridge.store.mergeSbsLine geo line r.timeMs⟩

def Bridge.run [UpperCase] (geo : Geo) (received : List Received) : Bridge :=
  received.foldl (Bridge.receive geo) {}

/-! ## What the feed promises -/

/-- A message of the aircraft carried this vertical rate at that time. -/
def Carried (received : List Received) (key : ℕ) (fpm : Int32) (isBaro : Bool) (ms : ℤ) : Prop :=
  ∃ r ∈ received, r.message.addr ≠ 0 ∧ aircraftKey r.message = key ∧
    r.message.verticalRate = some (fpm, isBaro) ∧ r.timeMs = ms

/-- A vertical rate in an object of the feed is one that a message of this
aircraft carried at most fifteen seconds ago, and `seen_rate` is its age. -/
def HonestRate (received : List Received) (nowMs : ℤ) (item : Item) : Prop :=
  ∀ key value, key ∈ ["baro_rate", "geom_rate", "vert_rate"] → (key, value) ∈ item →
    ∃ aircraft fpm isBaro ms, Carried received aircraft fpm isBaro ms ∧
      ("hex", .text (Text.hexOf 6 aircraft)) ∈ item ∧
      key = (if isBaro then "baro_rate" else "geom_rate") ∧ value = exact fpm.toInt ∧
      nowMs - ms ≤ 15000 ∧ ("seen_rate", exact (roundSeconds (secondsSince nowMs ms))) ∈ item

/-- The feed shows no other vertical rates, whenever it is asked for. -/
def Fresh [UpperCase] (geo : Geo) (received : List Received) : Prop :=
  ∀ nowMs, (∀ r ∈ received, r.timeMs ≤ nowMs) →
    ∀ item ∈ ((Bridge.run geo received).store.toAircraftJson nowMs).2.items,
      HonestRate received nowMs item

/-- The message carries no vertical rate but brings about a line, while the
decoder still holds a rate of an earlier time. -/
def Restamps (table : Table) (r : Received) : Prop :=
  r.message.addr ≠ 0 ∧ r.message.verticalRate = none ∧
    ∃ state rate,
      (pruneAircraftStates r.timeMs table).aircraft.get? (aircraftKey r.message) = some state ∧
      freshVerticalRate { state with lastSeenMs := r.timeMs } = some rate ∧ rate.ms < r.timeMs ∧
      Writes r.message { state with lastSeenMs := r.timeMs }

/-! ## The decoder's cache -/

variable {geo : Geo} {received : List Received} {r : Received} {table : Table}
  {store : BridgeAircraftStore}

theorem carried_append {key : ℕ} {fpm : Int32} {isBaro : Bool} {ms : ℤ} :
    Carried (received ++ [r]) key fpm isBaro ms ↔
      Carried received key fpm isBaro ms ∨
        (r.message.addr ≠ 0 ∧ aircraftKey r.message = key ∧
          r.message.verticalRate = some (fpm, isBaro) ∧ r.timeMs = ms) := by
  simp only [Carried, List.mem_append, List.mem_singleton, or_and_right, exists_or, exists_eq_left]

/-- The rate a state holds is the one its aircraft carried last. -/
structure CacheInv (received : List Received) (table : Table) : Prop where
  plain : ∀ key state, table.aircraft.get? key = some state → state.Plain
  carried : ∀ key state rate, table.aircraft.get? key = some state →
    state.verticalRate = some rate → Carried received key rate.fpm rate.isBaro rate.ms
  latest : ∀ key state rate, table.aircraft.get? key = some state →
    state.verticalRate = some rate →
      ∀ fpm isBaro ms, Carried received key fpm isBaro ms → ms ≤ rate.ms

/-- The state a message finds, with the time already in it. -/
def stateAt (table : Table) (r : Received) : AircraftState :=
  { ((pruneAircraftStates r.timeMs table).aircraft.get? (aircraftKey r.message)).getD {} with
    lastSeenMs := r.timeMs }

/-- The state and the line a message leaves behind. -/
def applied (table : Table) (r : Received) : AircraftState × Text :=
  applyDecoded r.clock.printed r.message (stateAt table r)

theorem handle_eq (ha : r.message.addr ≠ 0) :
    handleReadsbDecodedMessage r.clock r.message table =
      ({ pruneAircraftStates r.timeMs table with
          aircraft := (pruneAircraftStates r.timeMs table).aircraft.put (aircraftKey r.message)
            (applied table r).1 },
        (applied table r).2) := by
  rw [handleReadsbDecodedMessage, if_neg ha]
  rfl

/-- The aircraft of the message afterwards, and the others as they were. -/
theorem get?_handle {key : ℕ} {state : AircraftState} (ha : r.message.addr ≠ 0)
    (h : (handleReadsbDecodedMessage r.clock r.message table).1.aircraft.get? key = some state) :
    (key = aircraftKey r.message ∧ state = (applied table r).1) ∨
      (key ≠ aircraftKey r.message ∧ table.aircraft.get? key = some state) := by
  rw [handle_eq ha] at h
  simp only [LinkedMap.get?_put] at h
  split at h
  · next hk => exact .inl ⟨hk, (Option.some.inj h).symm⟩
  · next hk => exact .inr ⟨hk, AircraftTable.get?_prune h⟩

theorem CacheInv.plain_stateAt (hc : CacheInv received table) : (stateAt table r).Plain := by
  unfold stateAt
  cases h : (pruneAircraftStates r.timeMs table).aircraft.get? (aircraftKey r.message) with
  | none => exact plain_default
  | some state => exact hc.plain _ state (AircraftTable.get?_prune h)

/-- A rate that the state of a message holds is in the table. -/
theorem exists_of_stateAt_rate {rate : VerticalRate}
    (h : (stateAt table r).verticalRate = some rate) :
    ∃ state, (pruneAircraftStates r.timeMs table).aircraft.get? (aircraftKey r.message) = some state ∧
      state.verticalRate = some rate ∧ stateAt table r = { state with lastSeenMs := r.timeMs } := by
  unfold stateAt at h ⊢
  cases hget : (pruneAircraftStates r.timeMs table).aircraft.get? (aircraftKey r.message) with
  | none => rw [hget] at h; cases h
  | some state => rw [hget] at h; exact ⟨state, rfl, h, rfl⟩

/-- The rate after a message is its own, or the one the table held. -/
theorem applied_rate_cases {rate : VerticalRate} (hc : CacheInv received table)
    (h : (applied table r).1.verticalRate = some rate) :
    (r.message.verticalRate = some (rate.fpm, rate.isBaro) ∧ rate.ms = r.timeMs) ∨
      (r.message.verticalRate = none ∧
        ∃ state, (pruneAircraftStates r.timeMs table).aircraft.get? (aircraftKey r.message) = some state ∧
          state.verticalRate = some rate ∧ stateAt table r = { state with lastSeenMs := r.timeMs }) := by
  have htakes := (applyDecoded_spec r.clock.printed r.message (hc.plain_stateAt (r := r))).1.rate
  rw [applied, htakes, rateAfter] at h
  cases hr : r.message.verticalRate with
  | none =>
    rw [hr] at h
    exact .inr ⟨rfl, exists_of_stateAt_rate h⟩
  | some carried =>
    obtain ⟨fpm, isBaro⟩ := carried
    rw [hr] at h
    cases h
    exact .inl ⟨rfl, rfl⟩

theorem cacheInv_nil : CacheInv [] {} := by
  constructor <;> intro key state <;> intros <;> contradiction

/-- **One message keeps the cache in step with what was carried.** -/
theorem cacheInv_receive (hc : CacheInv received table)
    (hle : ∀ r' ∈ received, r'.timeMs ≤ r.timeMs) :
    CacheInv (received ++ [r]) (handleReadsbDecodedMessage r.clock r.message table).1 := by
  by_cases ha : r.message.addr = 0
  · have hsame : ∀ key fpm isBaro ms,
        Carried (received ++ [r]) key fpm isBaro ms ↔ Carried received key fpm isBaro ms := by
      intro key fpm isBaro ms
      rw [carried_append, or_iff_left fun h => h.1 ha]
    rw [handleReadsbDecodedMessage, if_pos ha]
    simp only
    constructor
    · exact hc.plain
    · intro key state rate h hr
      exact (hsame _ _ _ _).2 (hc.carried key state rate h hr)
    · intro key state rate h hr fpm isBaro ms hcarried
      exact hc.latest key state rate h hr fpm isBaro ms ((hsame _ _ _ _).1 hcarried)
  · constructor
    · intro key state h
      rcases get?_handle ha h with ⟨-, rfl⟩ | ⟨-, h⟩
      · exact (applyDecoded_spec _ _ hc.plain_stateAt).1.plain hc.plain_stateAt
      · exact hc.plain key state h
    · intro key state rate h hr
      rw [carried_append]
      rcases get?_handle ha h with ⟨rfl, rfl⟩ | ⟨-, h⟩
      · rcases applied_rate_cases hc hr with ⟨hown, hms⟩ | ⟨-, state, hget, hrate, -⟩
        · exact .inr ⟨ha, rfl, hown, hms.symm⟩
        · exact .inl (hc.carried _ state rate (AircraftTable.get?_prune hget) hrate)
      · exact .inl (hc.carried key state rate h hr)
    · intro key state rate h hr fpm isBaro ms hcarried
      rw [carried_append] at hcarried
      rcases get?_handle ha h with ⟨rfl, rfl⟩ | ⟨hne, h⟩
      · rcases applied_rate_cases hc hr with ⟨-, hms⟩ | ⟨hnone, state, hget, hrate, -⟩
        · rw [hms]
          rcases hcarried with ⟨r', hmem, -, -, -, rfl⟩ | ⟨-, -, -, rfl⟩
          · exact hle r' hmem
          · exact le_refl _
        · rcases hcarried with hcarried | ⟨-, -, hown, -⟩
          · exact hc.latest _ state rate (AircraftTable.get?_prune hget) hrate fpm isBaro ms hcarried
          · rw [hnone] at hown; cases hown
      · rcases hcarried with hcarried | ⟨-, hk, -⟩
        · exact hc.latest key state rate h hr fpm isBaro ms hcarried
        · exact absurd hk.symm hne

/-! ## The store's stamps -/

/-- Every stored rate was carried at the time of its stamp. -/
structure StampInv (received : List Received) (store : BridgeAircraftStore) : Prop where
  sound : store.Sound
  carried : ∀ hex aircraft rate, store.aircraftByHex.get? hex = some aircraft →
    aircraft.verticalRateFpm = some rate →
      ∃ key fpm isBaro, Carried received key fpm isBaro aircraft.lastVerticalRateTimeMs ∧
        hex = Text.hexOf 6 key ∧ rate = .finite fpm.toInt ∧
        aircraft.verticalRateReference = some (if isBaro then "BARO".toList else "GEOM".toList)

theorem stampInv_nil : StampInv [] {} := by
  refine ⟨BridgeAircraftStore.sound_default, ?_⟩
  intro hex aircraft rate h
  cases h

/-- What the store reads of the line of a message. -/
theorem parse_applied [UpperCase] (hc : CacheInv received table) (hl : (applied table r).2 ≠ []) :
    ∃ update, SbsUpdate.parse (applied table r).2 = some update ∧
      update.hex = Text.hexOf 6 (aircraftKey r.message) ∧
      update.verticalRateFpm =
        (freshVerticalRate (applied table r).1).map (fun rate => .finite rate.fpm.toInt) ∧
      update.verticalRateReference =
        (freshVerticalRate (applied table r).1).map VerticalRate.reference := by
  have hspec := applyDecoded_spec r.clock.printed r.message (hc.plain_stateAt (r := r))
  rcases hspec.2 with h | ⟨now, type, pos, printed, hline, hs, hp, hrate, ht⟩
  · exact absurd h hl
  · obtain ⟨update, hparse, hhex, hfpm, href⟩ :=
      parse_rate now r.message.addr.toNat hp hs
    rw [freshVerticalRate_congr hrate ht] at hfpm href
    refine ⟨update, ?_, ?_, hfpm, href⟩
    · rw [← hparse]
      exact congrArg SbsUpdate.parse hline
    · rw [hhex]
      exact (Text.hexOf_mod 6 r.message.addr.toNat).symm

/-- The rate in the line of a message, and when it was carried. -/
theorem fresh_applied {rate : VerticalRate} (hc : CacheInv received table)
    (h : freshVerticalRate (applied table r).1 = some rate) :
    (applied table r).1.verticalRate = some rate ∧ rate.ms ≤ r.timeMs ∧
      (stateAt table r).lastSeenMs = (applied table r).1.lastSeenMs := by
  have ht := (applyDecoded_spec r.clock.printed r.message (hc.plain_stateAt (r := r))).1.lastSeen
  obtain ⟨hrate, hcond⟩ := Option.filter_eq_some_iff.1 h
  simp only [Bool.and_eq_true, decide_eq_true_eq] at hcond
  have hseen : (applied table r).1.lastSeenMs = r.timeMs := ht
  exact ⟨hrate, by omega, ht.symm⟩

/-- A message that does not restamp shows a rate of its own time. -/
theorem stamp_of_not_restamps {rate : VerticalRate} (hc : CacheInv received table)
    (ha : r.message.addr ≠ 0) (hn : ¬ Restamps table r) (hl : (applied table r).2 ≠ [])
    (h : freshVerticalRate (applied table r).1 = some rate) : rate.ms = r.timeMs := by
  obtain ⟨hrate, hle, hseen⟩ := fresh_applied hc h
  rcases applied_rate_cases hc hrate with ⟨-, hms⟩ | ⟨hnone, state, hget, hheld, hstate⟩
  · exact hms
  · by_contra hne
    have hfresh : freshVerticalRate (stateAt table r) = some rate := by
      rw [← h]
      refine freshVerticalRate_congr ?_ hseen
      rw [hrate, hstate]
      exact hheld
    have hwrites := (applyDecoded_ne_nil_iff hnone (by rw [hfresh]; rfl)).1 hl
    rw [hstate] at hfresh hwrites
    exact hn ⟨ha, hnone, state, rate, hget, hfresh, by omega, hwrites⟩

theorem StampInv.append (hs : StampInv received store) : StampInv (received ++ [r]) store := by
  refine ⟨hs.sound, ?_⟩
  intro hex aircraft rate h hrate
  obtain ⟨key, fpm, isBaro, hcarried, hrest⟩ := hs.carried hex aircraft rate h hrate
  exact ⟨key, fpm, isBaro, carried_append.2 (.inl hcarried), hrest⟩

/-- The aircraft that the line of a message is merged into. -/
theorem carried_merged {update : SbsUpdate} {rate : JavaDouble} (hc : CacheInv received table)
    (hle : ∀ r' ∈ received, r'.timeMs ≤ r.timeMs) (hs : StampInv received store)
    (ha : r.message.addr ≠ 0) (hn : ¬ Restamps table r) (hl : (applied table r).2 ≠ [])
    (hhex : update.hex = Text.hexOf 6 (aircraftKey r.message))
    (hfpm : update.verticalRateFpm =
      (freshVerticalRate (applied table r).1).map (fun rate => .finite rate.fpm.toInt))
    (href : update.verticalRateReference =
      (freshVerticalRate (applied table r).1).map VerticalRate.reference)
    (hrate : (store.merged geo update r.timeMs).verticalRateFpm = some rate) :
    ∃ key fpm isBaro,
      Carried (received ++ [r]) key fpm isBaro (store.merged geo update r.timeMs).lastVerticalRateTimeMs ∧
        update.hex = Text.hexOf 6 key ∧ rate = .finite fpm.toInt ∧
        (store.merged geo update r.timeMs).verticalRateReference =
          some (if isBaro then "BARO".toList else "GEOM".toList) := by
  rw [(BridgeAircraftStore.merged_spec geo store update r.timeMs).2.2.2.2] at hrate
  cases hfresh : freshVerticalRate (applied table r).1 with
  | some shown =>
    rw [hfresh, Option.map_some] at hfpm href
    rcases BridgeAircraftStore.merged_stamp geo store update r.timeMs with ⟨-, hreference, hstamp⟩ | ⟨hnone, -⟩
    · have hms := stamp_of_not_restamps hc ha hn hl hfresh
      have hget : (handleReadsbDecodedMessage r.clock r.message table).1.aircraft.get?
          (aircraftKey r.message) = some (applied table r).1 := by
        rw [handle_eq ha]
        exact LinkedMap.get?_put_self _ _ _
      have hcarried := (cacheInv_receive hc hle).carried _ _ shown hget (fresh_applied hc hfresh).1
      rw [hfpm, Option.some_or, Option.some.injEq] at hrate
      refine ⟨_, shown.fpm, shown.isBaro, ?_, hhex, hrate.symm, hreference.trans href⟩
      rwa [hstamp, ← hms]
    · rw [hfpm] at hnone; cases hnone
  | none =>
    rw [hfresh, Option.map_none] at hfpm
    rcases BridgeAircraftStore.merged_stamp geo store update r.timeMs with ⟨hsome, -⟩ | ⟨-, hreference, hstamp⟩
    · rw [hfpm] at hsome; cases hsome
    · rw [hfpm, Option.none_or] at hrate
      rw [hreference, hstamp]
      unfold BridgeAircraftStore.known at hrate ⊢
      cases hget : store.aircraftByHex.get? update.hex with
      | none => rw [hget] at hrate; cases hrate
      | some aircraft =>
        rw [hget] at hrate
        exact hs.append.carried update.hex aircraft rate hget hrate

/-- **A message that does not restamp keeps the stamps true.** -/
theorem stampInv_receive [UpperCase] {bridge : Bridge} (hc : CacheInv received bridge.table)
    (hle : ∀ r' ∈ received, r'.timeMs ≤ r.timeMs) (hs : StampInv received bridge.store)
    (hn : ¬ Restamps bridge.table r) :
    StampInv (received ++ [r]) (bridge.receive geo r).store := by
  unfold Bridge.receive
  by_cases ha : r.message.addr = 0
  · rw [handleReadsbDecodedMessage, if_pos ha]
    exact hs.append
  · rw [handle_eq ha]
    simp only [List.isEmpty_iff]
    split
    · exact hs.append
    · next hl =>
      obtain ⟨update, hparse, hhex, hfpm, href⟩ := parse_applied hc hl
      refine ⟨BridgeAircraftStore.sound_mergeSbsLine hs.sound geo _ _, ?_⟩
      intro hex aircraft rate h hrate
      rw [BridgeAircraftStore.mergeSbsLine, hparse] at h
      rcases BridgeAircraftStore.get?_mergeUpdate_cases h with ⟨rfl, rfl⟩ | h
      · exact carried_merged hc hle hs ha hn hl hhex hfpm href hrate
      · exact hs.append.carried hex aircraft rate h hrate

theorem Bridge.run_append [UpperCase] (geo : Geo) (received : List Received) (r : Received) :
    Bridge.run geo (received ++ [r]) = (Bridge.run geo received).receive geo r := by
  simp [Bridge.run]

theorem cacheInv_run [UpperCase] (geo : Geo) {received : List Received}
    (h : received.Pairwise fun r r' => r.timeMs ≤ r'.timeMs) :
    CacheInv received (Bridge.run geo received).table ∧ (Bridge.run geo received).store.Sound := by
  induction received using List.reverseRecOn with
  | nil => exact ⟨cacheInv_nil, BridgeAircraftStore.sound_default⟩
  | append_singleton received r ih =>
    obtain ⟨hbefore, -, hle⟩ := List.pairwise_append.1 h
    obtain ⟨hc, hs⟩ := ih hbefore
    rw [Bridge.run_append]
    refine ⟨cacheInv_receive hc fun r' hr' => hle r' hr' r (List.mem_singleton_self r), ?_⟩
    unfold Bridge.receive
    simp only
    split
    · exact hs
    · exact BridgeAircraftStore.sound_mergeSbsLine hs geo _ _

theorem stampInv_run [UpperCase] {received : List Received}
    (h : received.Pairwise fun r r' => r.timeMs ≤ r'.timeMs)
    (hn : ∀ pre r, pre ++ [r] <+: received → ¬ Restamps (Bridge.run geo pre).table r) :
    StampInv received (Bridge.run geo received).store := by
  induction received using List.reverseRecOn with
  | nil => exact stampInv_nil
  | append_singleton received r ih =>
    obtain ⟨hbefore, -, hle⟩ := List.pairwise_append.1 h
    rw [Bridge.run_append]
    refine stampInv_receive (cacheInv_run geo hbefore).1
      (fun r' hr' => hle r' hr' r (List.mem_singleton_self r)) (ih hbefore ?_)
      (hn received r (List.prefix_refl _))
    intro pre r' hpre
    exact hn pre r' (hpre.trans (List.prefix_append received [r]))

/-! ## The feed -/

theorem rateKey_reference (isBaro : Bool) :
    rateKey (some (if isBaro then "BARO".toList else "GEOM".toList)) =
      if isBaro then "baro_rate" else "geom_rate" := by
  cases isBaro <;> decide

theorem fresh_of_stampInv [UpperCase] (hs : StampInv received (Bridge.run geo received).store) :
    Fresh geo received := by
  intro nowMs _ item hitem key value hkey hmem
  obtain ⟨hex, aircraft, hget, rfl⟩ := BridgeAircraftStore.mem_items hitem
  obtain ⟨rate, hrate, hheld, hkeyref, hvalue, hseen⟩ := rate_of_mem_itemPuts hkey hmem
  obtain ⟨aircraftKey, fpm, isBaro, hcarried, hhex, hfpm, href⟩ := hs.carried hex aircraft rate hget hrate
  refine ⟨aircraftKey, fpm, isBaro, _, hcarried, ?_, ?_, ?_, hheld, hseen⟩
  · rw [← hhex, ← hs.sound.hex hex aircraft hget]
    exact hex_mem_itemPuts
  · rw [hkeyref, href, rateKey_reference]
  · rw [hvalue, hfpm]; rfl

theorem aircraftKey_lt (message : ReadsbBridgeMessage) : aircraftKey message < 16 ^ 6 :=
  Nat.mod_lt _ (by decide)

/-- A stamp newer than every message that carried a rate of the aircraft is
shown fifteen seconds later. -/
theorem not_fresh_of_stamp [UpperCase] {key : ℕ} {t : ℤ} {aircraft : Aircraft} {rate : JavaDouble}
    (hsound : (Bridge.run geo received).store.Sound) (hkey : key < 16 ^ 6)
    (hget : (Bridge.run geo received).store.aircraftByHex.get? (Text.hexOf 6 key) = some aircraft)
    (hrate : aircraft.verticalRateFpm = some rate) (hheard : aircraft.lastMessageTimeMs = t)
    (hstamp : aircraft.lastVerticalRateTimeMs = t) (hle : ∀ r ∈ received, r.timeMs ≤ t)
    (hold : ∀ fpm isBaro ms, Carried received key fpm isBaro ms → ms < t) :
    ¬ Fresh geo received := by
  intro hfresh
  have hrecent : aircraft.isRecent (t + 15000) = true := by
    simp [Aircraft.isRecent, hheard, aircraftTtlMs]
  have hheld : t + 15000 - aircraft.lastVerticalRateTimeMs ≤ verticalRateHoldMs := by
    rw [hstamp, verticalRateHoldMs]; omega
  have hitem := BridgeAircraftStore.itemPuts_mem_items hsound hget hrecent
  have hshown : (rateKey aircraft.verticalRateReference, .number rate) ∈
      itemPuts (t + 15000) aircraft := by
    apply rateItem_subset
    rw [rateItem_of_held hrate hheld]
    exact List.mem_cons_self
  obtain ⟨key', fpm, isBaro, ms, hcarried, hhex, -, -, hage, -⟩ :=
    hfresh (t + 15000) (fun r hr => by have := hle r hr; omega) _ hitem _ _
      (rateKey_mem aircraft.verticalRateReference) hshown
  have hkeys : key' = key := by
    have htext := JsonValue.text.inj (hex_of_mem_itemPuts hhex)
    rw [hsound.hex _ _ hget] at htext
    obtain ⟨r, -, -, rfl, -⟩ := hcarried
    exact Text.hexOf_inj (aircraftKey_lt r.message) hkey htext
  have := hold fpm isBaro ms (hkeys ▸ hcarried)
  omega

/-- A restamped rate is still shown when its message is more than fifteen
seconds old. -/
theorem not_fresh_of_restamps [UpperCase]
    (hle : (received ++ [r]).Pairwise fun r r' => r.timeMs ≤ r'.timeMs)
    (h : Restamps (Bridge.run geo received).table r) : ¬ Fresh geo (received ++ [r]) := by
  obtain ⟨hbefore, -, hlast⟩ := List.pairwise_append.1 hle
  obtain ⟨hc, hs⟩ := cacheInv_run geo hbefore
  obtain ⟨ha, hnone, state, rate, hget, hfresh, hlt, hwrites⟩ := h
  have hstate : stateAt (Bridge.run geo received).table r = { state with lastSeenMs := r.timeMs } := by
    rw [stateAt, hget]; rfl
  rw [← hstate] at hfresh hwrites
  have hspec := (applyDecoded_spec r.clock.printed r.message (hc.plain_stateAt (r := r))).1
  have hshown : freshVerticalRate (applied (Bridge.run geo received).table r).1 = some rate := by
    rw [← hfresh]
    refine freshVerticalRate_congr ?_ hspec.lastSeen
    rw [applied, hspec.rate, rateAfter, hnone]
  have hl : (applied (Bridge.run geo received).table r).2 ≠ [] :=
    (applyDecoded_ne_nil_iff hnone (by rw [hfresh]; rfl)).2 hwrites
  obtain ⟨update, hparse, hhex, hfpm, href⟩ := parse_applied hc hl
  rw [hshown, Option.map_some] at hfpm href
  -- the aircraft in the store, stamped with the time of this message
  have hstore : (Bridge.run geo (received ++ [r])).store =
      (Bridge.run geo received).store.mergeUpdate geo update r.timeMs := by
    rw [Bridge.run_append, Bridge.receive, handle_eq ha]
    simp only [List.isEmpty_iff, if_neg hl, BridgeAircraftStore.mergeSbsLine, hparse]
  have hmerged := BridgeAircraftStore.get?_mergeUpdate geo (Bridge.run geo received).store update r.timeMs
    update.hex
  rw [if_pos rfl, ← hstore] at hmerged
  obtain ⟨-, hheard, -, -, hkept⟩ :=
    BridgeAircraftStore.merged_spec geo (Bridge.run geo received).store update r.timeMs
  have hstamp := BridgeAircraftStore.merged_stamp geo (Bridge.run geo received).store update r.timeMs
  rw [hfpm, Option.some_or] at hkept
  rw [hfpm] at hstamp
  rw [hhex] at hmerged
  refine not_fresh_of_stamp (t := r.timeMs) (cacheInv_run geo hle).2 (aircraftKey_lt r.message) hmerged
    hkept hheard ?_ ?_ ?_
  · rcases hstamp with ⟨-, -, hstamp⟩ | ⟨hcontra, -⟩
    · exact hstamp
    · cases hcontra
  · intro r' hr'
    rcases List.mem_append.1 hr' with hr' | hr'
    · exact hlast r' hr' r (List.mem_singleton_self r)
    · rw [List.mem_singleton.1 hr']
  · intro fpm isBaro ms hcarried
    rcases carried_append.1 hcarried with hcarried | ⟨-, -, hown, -⟩
    · have hheld := (Option.filter_eq_some_iff.1 hfresh).1
      rw [hstate] at hheld
      exact (hc.latest _ state rate (AircraftTable.get?_prune hget) hheld fpm isBaro ms
        hcarried).trans_lt hlt
    · rw [hnone] at hown; cases hown

/-- **When the feed's vertical rates are as fresh as promised.** For messages in
the order of their times, after each of them and whenever it is asked, the feed
shows only rates that a message carried at most fifteen seconds ago if and only
if no message without a rate brings about a line while the decoder holds one of
an earlier time. -/
theorem fresh_iff_never_restamps [UpperCase] (geo : Geo) {received : List Received}
    (h : received.Pairwise fun r r' => r.timeMs ≤ r'.timeMs) :
    (∀ pre, pre <+: received → Fresh geo pre) ↔
      ∀ pre r, pre ++ [r] <+: received → ¬ Restamps (Bridge.run geo pre).table r := by
  constructor
  · intro hfresh pre r hpre hr
    exact not_fresh_of_restamps (h.sublist hpre.sublist) hr (hfresh _ hpre)
  · intro hn pre hpre
    refine fresh_of_stampInv (stampInv_run (h.sublist hpre.sublist) ?_)
    intro pre' r hpre'
    exact hn pre' r (hpre'.trans hpre)

/-- A velocity with a climb of 1024 ft/min. -/
def climbing : Received :=
  ⟨⟨1000000, 1000000⟩, { addr := 0x4840d6, velocity := some (400, 90), verticalRate := some (1024, true) }⟩

def velocityAfter (ms : ℤ) : Received :=
  ⟨⟨1000000 + ms, 1000000 + ms⟩, { addr := 0x4840d6, velocity := some (400, 90) }⟩

/-- The prefixes of two messages. -/
theorem prefix_pair {a b r : Received} {pre : List Received} (h : pre ++ [r] <+: [a, b]) :
    (pre = [] ∧ r = a) ∨ (pre = [a] ∧ r = b) := by
  obtain ⟨post, hpost⟩ := h
  rcases pre with - | ⟨x, - | ⟨y, pre⟩⟩
  · simp only [List.nil_append, List.cons_append, List.cons.injEq] at hpost
    exact .inl ⟨rfl, hpost.1⟩
  · simp only [List.cons_append, List.nil_append, List.cons.injEq] at hpost
    exact .inr ⟨by rw [hpost.1], hpost.2.1⟩
  · simp at hpost

/-- Sixteen seconds later the decoder does not hold the rate any more. -/
theorem laterVelocity_fresh : Fresh noGeo [climbing, velocityAfter 16000] := by
  refine (fresh_iff_never_restamps noGeo (by decide)).2 ?_ _ (List.prefix_refl _)
  rintro pre r hpre ⟨-, hnone, state, rate, hget, hfresh, -, -⟩
  rcases prefix_pair hpre with ⟨rfl, rfl⟩ | ⟨rfl, rfl⟩
  · cases hnone
  · have hexpired : ((pruneAircraftStates 1016000 (Bridge.run noGeo [climbing]).table).aircraft.get?
        (aircraftKey (velocityAfter 16000).message)).bind
          (fun state => freshVerticalRate { state with lastSeenMs := 1016000 }) = none := by
      decide
    have hget' : (pruneAircraftStates 1016000 (Bridge.run noGeo [climbing]).table).aircraft.get?
        (aircraftKey (velocityAfter 16000).message) = some state := hget
    rw [hget', Option.bind_some] at hexpired
    exact absurd (hexpired.symm.trans hfresh) (by simp)

/-- A velocity fifteen seconds later repeats the rate, and the feed shows it as
fifteen seconds old when its message is thirty seconds old. -/
theorem repeatedRate_not_fresh :
    (∃ item ∈ ((Bridge.run noGeo [climbing, velocityAfter 15000]).store.toAircraftJson 1030000).2.items,
      ("baro_rate", exact 1024) ∈ item ∧ ("seen_rate", exact 15) ∈ item) ∧
    ¬ Fresh noGeo [climbing, velocityAfter 15000] := by
  have hshown : ∃ item ∈ ((Bridge.run noGeo
      [climbing, velocityAfter 15000]).store.toAircraftJson 1030000).2.items,
      ("baro_rate", exact 1024) ∈ item ∧ ("seen_rate", exact 15) ∈ item := by
    decide +kernel
  refine ⟨hshown, fun hfresh => ?_⟩
  obtain ⟨item, hitem, hbaro, -⟩ := hshown
  obtain ⟨key, fpm, isBaro, ms, ⟨r, hr, -, -, hrate, hms⟩, -, -, -, hage, -⟩ :=
    hfresh 1030000 (by decide) item hitem _ _ (by simp) hbaro
  rcases List.mem_pair.1 hr with rfl | rfl
  · change (1000000 : ℤ) = ms at hms
    omega
  · cases hrate

end AdsbBridge.Native
