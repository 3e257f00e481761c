import AdsbBridge.Store.Aircraft

/-! # What a merge and a query do

A merge rebuilds the aircraft of its line and leaves the others as they are or
drops them; every number it stores is finite. An object of the feed is what was
put for one stored aircraft. -/
namespace AdsbBridge.Store
open AdsbBridge.Lib

variable [LongSub]

/-! ## Merging -/

namespace BridgeAircraftStore

variable {geo : Geo} {store : BridgeAircraftStore} {update : SbsUpdate} {nowMs : ℤ}

def known (store : BridgeAircraftStore) (hex : Text) : Aircraft :=
  (store.aircraftByHex.get? hex).getD { hex := hex }

def merged (geo : Geo) (store : BridgeAircraftStore) (update : SbsUpdate) (nowMs : ℤ) : Aircraft :=
  let aircraft := (store.known update.hex).mergeFields update nowMs
  aircraft.mergePosition nowMs (positionVerdict geo update nowMs aircraft)

theorem get?_prune (hex : Text) :
    (store.prune nowMs).aircraftByHex.get? hex =
      (store.aircraftByHex.get? hex).filter (Aircraft.isRecent nowMs) :=
  LinkedMap.get?_filter _ _ hex

/-- Only the vertical rate of the known aircraft and the line's own fields differ. -/
theorem merged_spec (geo : Geo) (store : BridgeAircraftStore) (update : SbsUpdate) (nowMs : ℤ) :
    (store.merged geo update nowMs).hex = (store.known update.hex).hex ∧
      (store.merged geo update nowMs).lastMessageTimeMs = nowMs ∧
      (store.merged geo update nowMs).groundSpeedKt =
        update.groundSpeedKt.or (store.known update.hex).groundSpeedKt ∧
      (store.merged geo update nowMs).trackDeg =
        update.trackDeg.or (store.known update.hex).trackDeg ∧
      (store.merged geo update nowMs).verticalRateFpm =
        update.verticalRateFpm.or (store.known update.hex).verticalRateFpm := by
  simp only [merged]
  generalize positionVerdict geo update nowMs _ = verdict
  cases hrate : update.verticalRateFpm <;> cases verdict <;>
    simp [Aircraft.mergePosition, Aircraft.mergeFields, hrate]

/-- A merge stamps the vertical rate of the line, or leaves rate and stamp alone. -/
theorem merged_stamp (geo : Geo) (store : BridgeAircraftStore) (update : SbsUpdate) (nowMs : ℤ) :
    (update.verticalRateFpm.isSome ∧
      (store.merged geo update nowMs).verticalRateReference = update.verticalRateReference ∧
      (store.merged geo update nowMs).lastVerticalRateTimeMs = nowMs) ∨
    (update.verticalRateFpm = none ∧
      (store.merged geo update nowMs).verticalRateReference =
        (store.known update.hex).verticalRateReference ∧
      (store.merged geo update nowMs).lastVerticalRateTimeMs =
        (store.known update.hex).lastVerticalRateTimeMs) := by
  simp only [merged]
  generalize positionVerdict geo update nowMs _ = verdict
  cases hrate : update.verticalRateFpm <;> cases verdict <;>
    simp [Aircraft.mergePosition, Aircraft.mergeFields, hrate]

theorem get?_mergeUpdate (geo : Geo) (store : BridgeAircraftStore) (update : SbsUpdate) (nowMs : ℤ)
    (hex : Text) :
    (store.mergeUpdate geo update nowMs).aircraftByHex.get? hex =
      if hex = update.hex then some (store.merged geo update nowMs)
      else (store.aircraftByHex.get? hex).filter (Aircraft.isRecent nowMs) := by
  have hrecent : (store.merged geo update nowMs).isRecent nowMs = true := by
    rw [Aircraft.isRecent, (merged_spec geo store update nowMs).2.1, LongSub.minus_self]
    exact decide_eq_true (by decide)
  have hmap : (store.mergeUpdate geo update nowMs).aircraftByHex =
      (store.aircraftByHex.put update.hex (store.merged geo update nowMs)).filter
        fun _ aircraft => aircraft.isRecent nowMs := rfl
  rw [hmap, LinkedMap.get?_filter, LinkedMap.get?_put]
  split
  · rw [Option.filter_some, hrecent, if_pos rfl]
  · rfl

/-- What is found after a merge is the aircraft of the line or was there before. -/
theorem get?_mergeUpdate_cases {hex : Text} {aircraft : Aircraft}
    (h : (store.mergeUpdate geo update nowMs).aircraftByHex.get? hex = some aircraft) :
    (hex = update.hex ∧ aircraft = store.merged geo update nowMs) ∨
      store.aircraftByHex.get? hex = some aircraft := by
  rw [get?_mergeUpdate] at h
  split at h
  · next hk => exact .inl ⟨hk, (Option.some.inj h).symm⟩
  · exact .inr (Option.filter_eq_some_iff.1 h).1

end BridgeAircraftStore

/-! ## Finite numbers -/

omit [LongSub] in
theorem SbsUpdate.parseDouble_isFinite {value : Text} {x : JavaDouble}
    (h : SbsUpdate.parseDouble value = some x) : x.isFinite = true :=
  (Option.filter_eq_some_iff.1 h).2

def FiniteField (o : Option JavaDouble) : Prop := ∀ x, o = some x → x.isFinite = true

omit [LongSub] in
theorem FiniteField.or {o o' : Option JavaDouble} (h : FiniteField o) (h' : FiniteField o') :
    FiniteField (o.or o') := by
  cases o with
  | none => exact h'
  | some x => exact h

/-- The numbers that the feed puts as they are. -/
structure Aircraft.Finite (aircraft : Aircraft) : Prop where
  groundSpeed : FiniteField aircraft.groundSpeedKt
  track : FiniteField aircraft.trackDeg
  verticalRate : FiniteField aircraft.verticalRateFpm

/-- Every stored aircraft stands under its own address with finite numbers. -/
structure BridgeAircraftStore.Sound (store : BridgeAircraftStore) : Prop where
  hex : ∀ hex aircraft, store.aircraftByHex.get? hex = some aircraft → aircraft.hex = hex
  finite : ∀ hex aircraft, store.aircraftByHex.get? hex = some aircraft → aircraft.Finite

omit [LongSub] in
theorem BridgeAircraftStore.sound_default : BridgeAircraftStore.Sound {} := by
  constructor <;> intro hex aircraft h <;> cases h

omit [LongSub] in
theorem SbsUpdate.finite_of_parse [UpperCase] {line : Text} {update : SbsUpdate}
    (h : SbsUpdate.parse line = some update) :
    FiniteField update.groundSpeedKt ∧ FiniteField update.trackDeg ∧
      FiniteField update.verticalRateFpm := by
  rw [SbsUpdate.parse, SbsUpdate.ofFields] at h
  split at h
  · cases h
  · obtain ⟨hex, -, rfl⟩ := Option.map_eq_some_iff.1 h
    exact ⟨fun _ => parseDouble_isFinite, fun _ => parseDouble_isFinite,
      fun _ => parseDouble_isFinite⟩

/-- **Merging any line keeps the store sound.** -/
theorem BridgeAircraftStore.sound_mergeSbsLine [UpperCase] {store : BridgeAircraftStore}
    (hs : store.Sound) (geo : Geo) (line : Text) (nowMs : ℤ) :
    (store.mergeSbsLine geo line nowMs).Sound := by
  unfold mergeSbsLine
  cases hparse : SbsUpdate.parse line with
  | none => exact hs
  | some update =>
    obtain ⟨hg, ht, hv⟩ := SbsUpdate.finite_of_parse hparse
    have hknown : (store.known update.hex).hex = update.hex ∧ (store.known update.hex).Finite := by
      rw [known]
      cases h : store.aircraftByHex.get? update.hex with
      | none => exact ⟨rfl, by constructor <;> intro x hx <;> cases hx⟩
      | some aircraft => exact ⟨hs.hex _ _ h, hs.finite _ _ h⟩
    obtain ⟨hhex, -, hspeed, htrack, hrate⟩ := merged_spec geo store update nowMs
    constructor
    · intro hex aircraft h
      rcases get?_mergeUpdate_cases h with ⟨rfl, rfl⟩ | h
      · exact hhex.trans hknown.1
      · exact hs.hex hex aircraft h
    · intro hex aircraft h
      rcases get?_mergeUpdate_cases h with ⟨rfl, rfl⟩ | h
      · exact ⟨hspeed ▸ hg.or hknown.2.groundSpeed, htrack ▸ ht.or hknown.2.track,
          hrate ▸ hv.or hknown.2.verticalRate⟩
      · exact hs.finite hex aircraft h

/-! ## The feed -/

variable {nowMs : ℤ} {aircraft : Aircraft}

omit [LongSub] in
theorem mem_putSome {α : Type} {key : String} {value : α → JsonValue} {o : Option α}
    {entry : String × JsonValue} :
    entry ∈ putSome key value o ↔ ∃ a, o = some a ∧ entry = (key, value a) := by
  cases o <;> simp [putSome]

omit [LongSub] in
theorem mem_putText {key : String} {value : Option Text} {entry : String × JsonValue}
    (h : entry ∈ putText key value) : ∃ t, entry = (key, .text t) := by
  obtain ⟨t, -, rfl⟩ := mem_putSome.1 h
  exact ⟨t, rfl⟩

/-- The entries behind the rate: exact numbers under keys of their own. -/
theorem mem_positionItem {entry : String × JsonValue} (h : entry ∈ positionItem nowMs aircraft) :
    entry.1 ∈ ["seen_pos", "lat", "lon"] ∧ ∃ x, entry.2 = exact x := by
  unfold positionItem at h
  split at h
  · rcases List.mem_cons.1 h with rfl | h
    · exact ⟨by simp, _, rfl⟩
    · split at h
      · split at h
        · simp only [List.mem_cons, List.not_mem_nil, or_false] at h
          rcases h with rfl | rfl <;> exact ⟨by simp, _, rfl⟩
        · cases h
      · cases h
  · cases h

/-- The parts of an object. -/
theorem mem_itemPuts {entry : String × JsonValue} (h : entry ∈ itemPuts nowMs aircraft) :
    entry = ("hex", .text aircraft.hex) ∨ entry ∈ rateItem nowMs aircraft ∨
      (entry.1 ∉ ["hex", "baro_rate", "geom_rate", "vert_rate"] ∧
        ((∃ t, entry.2 = .text t) ∨ (∃ x, entry.2 = exact x) ∨
          (∃ x, entry.2 = .number x ∧
            (aircraft.groundSpeedKt = some x ∨ aircraft.trackDeg = some x)))) := by
  simp only [itemPuts, List.append_assoc, List.mem_append, List.mem_cons, List.not_mem_nil,
    or_false] at h
  rcases h with h | h | h | h | h | h | h | (h | h) | h
  · exact .inl h
  · obtain ⟨t, rfl⟩ := mem_putText h
    exact .inr (.inr ⟨by simp, .inl ⟨t, rfl⟩⟩)
  · obtain ⟨t, rfl⟩ := mem_putText h
    exact .inr (.inr ⟨by simp, .inl ⟨t, rfl⟩⟩)
  · obtain ⟨altitude, -, rfl⟩ := mem_putSome.1 h
    exact .inr (.inr ⟨by simp, .inr (.inl ⟨_, rfl⟩)⟩)
  · obtain ⟨x, hx, rfl⟩ := mem_putSome.1 h
    exact .inr (.inr ⟨by simp, .inr (.inr ⟨x, rfl, .inl hx⟩)⟩)
  · obtain ⟨x, hx, rfl⟩ := mem_putSome.1 h
    exact .inr (.inr ⟨by simp, .inr (.inr ⟨x, rfl, .inr hx⟩)⟩)
  · exact .inr (.inl h)
  · subst h
    exact .inr (.inr ⟨by simp, .inr (.inl ⟨_, rfl⟩)⟩)
  · subst h
    exact .inr (.inr ⟨by simp, .inr (.inl ⟨_, rfl⟩)⟩)
  · obtain ⟨hkey, hx⟩ := mem_positionItem h
    exact .inr (.inr ⟨by grind, .inr (.inl hx)⟩)

omit [LongSub] in
theorem rateKey_mem (reference : Option Text) :
    rateKey reference ∈ ["baro_rate", "geom_rate", "vert_rate"] := by
  unfold rateKey
  split
  · simp
  · split <;> simp

theorem mem_rateItem {entry : String × JsonValue} (h : entry ∈ rateItem nowMs aircraft) :
    ∃ rate, aircraft.verticalRateFpm = some rate ∧
      minus nowMs aircraft.lastVerticalRateTimeMs ≤ verticalRateHoldMs ∧
      (entry = (rateKey aircraft.verticalRateReference, .number rate) ∨
        entry = ("seen_rate",
          exact (roundSeconds (secondsSince nowMs aircraft.lastVerticalRateTimeMs)))) := by
  unfold rateItem at h
  split at h
  · next rate hrate =>
    split at h
    · next hheld => exact ⟨rate, hrate, hheld, by simpa using h⟩
    · cases h
  · cases h

theorem rateItem_of_held {rate : JavaDouble} (hrate : aircraft.verticalRateFpm = some rate)
    (hheld : minus nowMs aircraft.lastVerticalRateTimeMs ≤ verticalRateHoldMs) :
    rateItem nowMs aircraft = [(rateKey aircraft.verticalRateReference, .number rate),
      ("seen_rate", exact (roundSeconds (secondsSince nowMs aircraft.lastVerticalRateTimeMs)))] := by
  rw [rateItem, hrate]
  simp only
  rw [if_pos hheld]

theorem rateItem_subset : rateItem nowMs aircraft ⊆ itemPuts nowMs aircraft := by
  intro entry h
  simp only [itemPuts, List.mem_append]
  tauto

theorem hex_mem_itemPuts : ("hex", .text aircraft.hex) ∈ itemPuts nowMs aircraft := by
  simp [itemPuts]

theorem hex_of_mem_itemPuts {value : JsonValue} (h : ("hex", value) ∈ itemPuts nowMs aircraft) :
    value = .text aircraft.hex := by
  rcases mem_itemPuts h with h | h | ⟨h, -⟩
  · exact (Prod.mk.inj h).2
  · obtain ⟨rate, -, -, h | h⟩ := mem_rateItem h
    · have hkey := rateKey_mem aircraft.verticalRateReference
      rw [← (Prod.mk.inj h).1] at hkey
      simp at hkey
    · exact absurd (Prod.mk.inj h).1 (by decide)
  · simp at h

/-- A vertical rate shown is the stored one, held, with its age beside it. -/
theorem rate_of_mem_itemPuts {key : String} {value : JsonValue}
    (hkey : key ∈ ["baro_rate", "geom_rate", "vert_rate"])
    (h : (key, value) ∈ itemPuts nowMs aircraft) :
    ∃ rate, aircraft.verticalRateFpm = some rate ∧
      minus nowMs aircraft.lastVerticalRateTimeMs ≤ verticalRateHoldMs ∧
      key = rateKey aircraft.verticalRateReference ∧ value = .number rate ∧
      ("seen_rate", exact (roundSeconds (secondsSince nowMs aircraft.lastVerticalRateTimeMs))) ∈
        itemPuts nowMs aircraft := by
  rcases mem_itemPuts h with h | h | ⟨h, -⟩
  · rw [(Prod.mk.inj h).1] at hkey
    simp at hkey
  · obtain ⟨rate, hrate, hheld, h | h⟩ := mem_rateItem h
    · refine ⟨rate, hrate, hheld, (Prod.mk.inj h).1, (Prod.mk.inj h).2, rateItem_subset ?_⟩
      rw [rateItem_of_held hrate hheld]
      simp
    · rw [(Prod.mk.inj h).1] at hkey
      simp at hkey
  · exact absurd (List.mem_cons_of_mem _ hkey) h

theorem putsThrow_of_finite (ha : aircraft.Finite) : putsThrow nowMs aircraft = false := by
  rw [putsThrow, List.any_eq_false]
  intro entry hm
  rw [Bool.not_eq_true]
  rcases mem_itemPuts hm with rfl | h | ⟨-, ⟨t, ht⟩ | ⟨x, hx⟩ | ⟨x, hx, hfield⟩⟩
  · rfl
  · obtain ⟨rate, hrate, -, rfl | rfl⟩ := mem_rateItem h
    · simp [JsonValue.putThrows, ha.verticalRate rate hrate]
    · rfl
  · rw [ht]; rfl
  · rw [hx]; rfl
  · have hfinite : x.isFinite = true := hfield.elim (ha.groundSpeed x) (ha.track x)
    rw [hx]
    simp [JsonValue.putThrows, hfinite]

/-- An object of the feed is that of a stored aircraft. -/
theorem BridgeAircraftStore.mem_items {store : BridgeAircraftStore} {item : Item}
    (h : item ∈ (store.toAircraftJson nowMs).2.items) :
    ∃ hex aircraft, store.aircraftByHex.get? hex = some aircraft ∧ item = itemPuts nowMs aircraft := by
  simp only [toAircraftJson] at h
  split at h
  · cases h
  · obtain ⟨aircraft, hm, rfl⟩ := List.mem_map.1 h
    obtain ⟨⟨hex, aircraft⟩, hentry, rfl⟩ := List.mem_map.1 hm
    have hget := LinkedMap.mem_entries_iff.1 hentry
    rw [get?_prune] at hget
    exact ⟨hex, aircraft, (Option.filter_eq_some_iff.1 hget).1, rfl⟩

end AdsbBridge.Store
