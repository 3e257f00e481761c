import Mathlib.Data.List.Induction
import AdsbBridge.Store.Calls

/-! # The books of the store

What holds of the store's aircraft and totals after any calls: positions come
in pairs with their time, no time is later than the last message, and every
accepted line is counted once. -/
namespace AdsbBridge.Store
open AdsbBridge.Lib

/-! ## What the lines of a run carry -/

/-- The line carries a position that `isValidPosition` lets through. -/
def SbsUpdate.carriesPosition (update : SbsUpdate) : Bool :=
  match update.lat, update.lon with
  | some lat, some lon => isValidPosition lat lon
  | _, _ => false

namespace Call

def isMerge : Call → Bool
  | mergeSbsLine _ _ => true
  | _ => false

def update [UpperCase] : Call → Option SbsUpdate
  | mergeSbsLine line _ => SbsUpdate.parse line
  | _ => none

def isAccepted [UpperCase] (c : Call) : Bool := c.update.isSome

def carriesPosition [UpperCase] (c : Call) : Bool := c.update.any SbsUpdate.carriesPosition

/-- The calls after which nothing stored is too old. -/
def prunes [UpperCase] (c : Call) : Bool := c.isQuery || c.isAccepted

end Call

def sinceClear (calls : List Call) : List Call :=
  (calls.reverse.takeWhile fun c => c ≠ .clear).reverse

/-! ## The books -/

/-- One stored aircraft, `lastMessageMs` being the store's. -/
structure Aircraft.Kept (lastMessageMs : ℤ) (aircraft : Aircraft) : Prop where
  pair : aircraft.lat = none ↔ aircraft.lon = none
  located : aircraft.lon = none ↔ aircraft.lastPositionTimeMs = 0
  position : aircraft.lastPositionTimeMs ≤ aircraft.lastMessageTimeMs
  verticalRate : aircraft.lastVerticalRateTimeMs ≤ aircraft.lastMessageTimeMs
  message : aircraft.lastMessageTimeMs ≤ lastMessageMs

/-- The feed lists each aircraft that is stored afterwards exactly once, and
as many as `recentAircraftCount` counts at the same time. -/
def ListsEachOnce (store : BridgeAircraftStore) (nowMs : ℤ) : Prop :=
  ∃ root, (store.toAircraftJson nowMs).2 = .feed root ∧
    root.total = (store.recentAircraftCount nowMs).2 ∧
    ∀ hex, (root.aircraft.countP fun item => item.lookup "hex" = some (.text hex)) =
      if ((store.toAircraftJson nowMs).1.aircraftByHex.get? hex).isSome then 1 else 0

structure Balanced [UpperCase] (calls : List Call) (store : BridgeAircraftStore) : Prop where
  kept : ∀ hex aircraft, store.aircraftByHex.get? hex = some aircraft →
    aircraft.Kept store.lastMessageMs
  recent : ∀ pre c t, calls = pre ++ [c] → c.prunes = true → c.timeMs = some t →
    ∀ hex aircraft, store.aircraftByHex.get? hex = some aircraft →
      ¬ aircraft.lastMessageTimeMs < t - 60000
  messages : store.totalMessages = (sinceClear calls).countP Call.isAccepted
  shares : (store.aircraftByHex.total fun aircraft => aircraft.messageCount.toInt) ≤
    store.totalMessages
  positions : store.totalPositions + store.rejectedJumps =
    (sinceClear calls).countP Call.carriesPosition
  lists : ∀ nowMs, ListsEachOnce store nowMs

/-! ## Lists of calls -/

section Calls

variable {calls : List Call} {c : Call}

theorem sinceClear_concat (calls : List Call) (c : Call) :
    sinceClear (calls ++ [c]) = if c = .clear then [] else sinceClear calls ++ [c] := by
  rw [sinceClear, List.reverse_concat, List.takeWhile_cons]
  by_cases hc : c = .clear
  · simp [hc]
  · simp [hc, sinceClear]

theorem countP_sinceClear_le (p : Call → Bool) (calls : List Call) :
    (sinceClear calls).countP p ≤ calls.countP p := by
  have hsub := (List.takeWhile_sublist (p := fun c : Call => decide (c ≠ .clear)) (l := calls.reverse)).countP_le (p := p)
  rw [sinceClear, List.countP_reverse]
  rwa [List.countP_reverse] at hsub

theorem isAccepted_isMerge [UpperCase] (h : c.isAccepted = true) : c.isMerge = true := by
  cases c <;> first | rfl | cases h

theorem Call.inOrder_concat (h : InOrder (calls ++ [c])) :
    InOrder calls ∧ ∀ t ∈ c.timeMs, ∀ t' ∈ calls.filterMap timeMs, t' ≤ t := by
  rw [InOrder, List.filterMap_append, List.pairwise_append] at h
  refine ⟨h.1, fun t ht t' ht' => h.2.2 t' ht' t ?_⟩
  rw [Option.mem_def] at ht
  simp [ht]

end Calls

/-! ## Merging an accepted line -/

section Merge

variable {geo : Geo} {store : BridgeAircraftStore} {update : SbsUpdate} {nowMs : ℤ}

theorem Aircraft.Kept.mono {aircraft : Aircraft} {lastMessageMs : ℤ}
    (h : aircraft.Kept lastMessageMs) (hle : lastMessageMs ≤ nowMs) : aircraft.Kept nowMs :=
  { h with message := h.message.trans hle }

theorem Aircraft.kept_new (hex : Text) : Aircraft.Kept 0 { hex := hex } := by
  constructor <;> simp

/-- Everything but the position of an aircraft that is kept. -/
theorem Aircraft.Kept.mergeFields {aircraft : Aircraft} {lastMessageMs : ℤ}
    (h : aircraft.Kept lastMessageMs) (update : SbsUpdate) (hle : lastMessageMs ≤ nowMs) :
    (aircraft.mergeFields update nowMs).Kept nowMs ∧
      (aircraft.mergeFields update nowMs).lastMessageTimeMs = nowMs ∧
      (aircraft.mergeFields update nowMs).messageCount = aircraft.messageCount + 1 := by
  have hposition := h.position.trans (h.message.trans hle)
  have hrate := h.verticalRate.trans (h.message.trans hle)
  unfold Aircraft.mergeFields
  split
  · exact ⟨⟨h.pair, h.located, hposition, le_refl _, le_refl _⟩, rfl, rfl⟩
  · exact ⟨⟨h.pair, h.located, hposition, hrate, le_refl _⟩, rfl, rfl⟩

theorem Aircraft.Kept.mergePosition {aircraft : Aircraft} (h : aircraft.Kept nowMs)
    (hnow : aircraft.lastMessageTimeMs = nowMs) (hpos : 0 < nowMs) (verdict : PositionVerdict) :
    (aircraft.mergePosition nowMs verdict).Kept nowMs := by
  cases verdict with
  | absent => exact h
  | rejected => exact h
  | accepted lat lon =>
    have hne : nowMs ≠ 0 := by omega
    exact ⟨by simp [Aircraft.mergePosition], by simp [Aircraft.mergePosition, hne],
      hnow.symm.le, h.verticalRate, h.message⟩

theorem Aircraft.messageCount_mergePosition (aircraft : Aircraft) (verdict : PositionVerdict) :
    (aircraft.mergePosition nowMs verdict).messageCount = aircraft.messageCount := by
  cases verdict <;> rfl

/-- A position is judged exactly if the line carries one. -/
theorem positionVerdict_absent_iff (aircraft : Aircraft) :
    positionVerdict geo update nowMs aircraft = .absent ↔ update.carriesPosition = false := by
  unfold positionVerdict SbsUpdate.carriesPosition
  cases update.lat with
  | none => simp
  | some lat =>
    cases update.lon with
    | none => simp
    | some lon =>
      simp only
      by_cases hvalid : isValidPosition lat lon = true
      · rw [if_pos hvalid, hvalid]
        split <;> simp
      · rw [if_neg hvalid]
        simpa using hvalid

namespace BridgeAircraftStore

theorem count_totals (store : BridgeAircraftStore) (nowMs : ℤ) (verdict : PositionVerdict) :
    (store.count nowMs verdict).totalMessages = store.totalMessages + 1 ∧
      (store.count nowMs verdict).lastMessageMs = nowMs ∧
      (store.count nowMs verdict).totalPositions + (store.count nowMs verdict).rejectedJumps =
        store.totalPositions + store.rejectedJumps + if verdict = .absent then 0 else 1 := by
  cases verdict with
  | absent => exact ⟨rfl, rfl, by simp [count]⟩
  | accepted lat lon => exact ⟨rfl, rfl, by simp [count]; omega⟩
  | rejected => exact ⟨rfl, rfl, by simp [count]; omega⟩

end BridgeAircraftStore

end Merge

/-! ## Runs -/

structure Books [UpperCase] (calls : List Call) (store : BridgeAircraftStore) : Prop where
  sound : store.Sound
  kept : ∀ hex aircraft, store.aircraftByHex.get? hex = some aircraft →
    aircraft.Kept store.lastMessageMs
  counted : ∀ e ∈ store.aircraftByHex.entries, 0 ≤ e.2.messageCount.toInt
  heard : store.lastMessageMs ∈ 0 :: calls.filterMap Call.timeMs
  messages : store.totalMessages = (sinceClear calls).countP Call.isAccepted
  shares : (store.aircraftByHex.total fun aircraft => aircraft.messageCount.toInt) ≤
    store.totalMessages
  positions : store.totalPositions + store.rejectedJumps =
    (sinceClear calls).countP Call.carriesPosition

section Books

variable [UpperCase] {geo : Geo} {calls : List Call} {c : Call} {store : BridgeAircraftStore}

omit [UpperCase] in
theorem countP_sinceClear_concat (p : Call → Bool) (hc : c ≠ .clear) :
    (sinceClear (calls ++ [c])).countP p =
      (sinceClear calls).countP p + if p c = true then 1 else 0 := by
  rw [sinceClear_concat, if_neg hc, List.countP_append, List.countP_singleton]

theorem books_clear (hc : sinceClear calls = []) : Books calls {} where
  sound := BridgeAircraftStore.sound_default
  kept := by
    intro hex aircraft h
    cases h
  counted := by
    intro e he
    cases he
  heard := List.mem_cons_self
  messages := by rw [hc]; rfl
  shares := le_refl _
  positions := by rw [hc]; rfl

/-- A call that neither clears nor counts. -/
theorem Books.keep (hb : Books calls store) (hc : c ≠ .clear) (hrejected : c.update = none) :
    Books (calls ++ [c]) store where
  sound := hb.sound
  kept := hb.kept
  counted := hb.counted
  heard := by
    have hheard := hb.heard
    simp only [List.filterMap_append, List.mem_cons, List.mem_append] at hheard ⊢
    tauto
  messages := by
    rw [countP_sinceClear_concat _ hc, Call.isAccepted, hrejected, hb.messages]
    rfl
  shares := hb.shares
  positions := by
    rw [countP_sinceClear_concat _ hc, Call.carriesPosition, hrejected, hb.positions]
    rfl

theorem Books.prune (hb : Books calls store) (nowMs : ℤ) : Books calls (store.prune nowMs) where
  sound := hb.sound.prune nowMs
  kept := by
    intro hex aircraft h
    rw [BridgeAircraftStore.get?_prune] at h
    exact hb.kept hex aircraft (Option.filter_eq_some_iff.1 h).1
  counted := fun e he => hb.counted e (List.mem_of_mem_filter he)
  heard := hb.heard
  messages := hb.messages
  shares := (LinkedMap.total_filter_le hb.counted _).trans hb.shares
  positions := hb.positions

/-- The aircraft of a line before it is merged. -/
theorem Books.known (hb : Books calls store) (hex : Text) :
    ∃ lastMessageMs, (lastMessageMs = 0 ∨ lastMessageMs = store.lastMessageMs) ∧
      (store.known hex).Kept lastMessageMs ∧
      0 ≤ (store.known hex).messageCount.toInt ∧
      (store.known hex).messageCount.toInt ≤ store.totalMessages ∧
      ((store.aircraftByHex.get? hex).map fun aircraft => aircraft.messageCount.toInt).getD 0 =
        (store.known hex).messageCount.toInt := by
  rw [BridgeAircraftStore.known]
  cases h : store.aircraftByHex.get? hex with
  | none =>
    have hzero : (0 : Int32).toInt = 0 := rfl
    have hnonneg : 0 ≤ store.totalMessages := by
      rw [hb.messages]
      omega
    exact ⟨0, .inl rfl, Aircraft.kept_new hex, hzero.ge, hnonneg, hzero.symm⟩
  | some aircraft =>
    have hcounted := hb.counted _ (LinkedMap.mem_entries_iff.2 h)
    have hle := LinkedMap.le_total (f := fun a => a.messageCount.toInt) hb.counted h
    exact ⟨store.lastMessageMs, .inr rfl, hb.kept hex aircraft h, hcounted, hle.trans hb.shares, rfl⟩

omit [UpperCase] in
theorem toInt_add_one {n : Int32} (h : 0 ≤ n.toInt) (hlt : n.toInt + 1 < 2 ^ 31) :
    (n + 1).toInt = n.toInt + 1 := by
  have hone : (1 : Int32).toInt = 1 := rfl
  rw [Int32.toInt_add, hone]
  exact Int.bmod_eq_of_le_mul_two (by norm_num; omega) (by norm_num; omega)

/-- An accepted line, not earlier than the last one. -/
theorem Books.merge (hb : Books calls store) {line : Text} {update : SbsUpdate} {nowMs : ℤ}
    (hparse : SbsUpdate.parse line = some update) (hpos : 0 < nowMs)
    (hle : store.lastMessageMs ≤ nowMs) (hfew : store.totalMessages + 1 < 2 ^ 31) :
    Books (calls ++ [.mergeSbsLine line nowMs]) (store.mergeUpdate geo update nowMs) := by
  obtain ⟨lastMs, hlast, hknown, hnonneg, hbound, hold⟩ := hb.known update.hex
  have hlastle : lastMs ≤ nowMs := by
    rcases hlast with rfl | rfl
    · exact hpos.le
    · exact hle
  obtain ⟨hfields, hnow, hcount⟩ := hknown.mergeFields update hlastle
  set verdict := positionVerdict geo update nowMs
    ((store.known update.hex).mergeFields update nowMs) with hverdict
  obtain ⟨htotal, hheard, hpositions⟩ :=
    BridgeAircraftStore.count_totals store nowMs verdict
  have hmerged : (store.merged geo update nowMs).Kept nowMs := hfields.mergePosition hnow hpos verdict
  have hmergedCount : (store.merged geo update nowMs).messageCount.toInt =
      (store.known update.hex).messageCount.toInt + 1 := by
    rw [BridgeAircraftStore.merged, Aircraft.messageCount_mergePosition, hcount,
      toInt_add_one hnonneg (by omega)]
  have hput : ∀ e ∈ (store.aircraftByHex.put update.hex (store.merged geo update nowMs)).entries,
      0 ≤ e.2.messageCount.toInt := by
    intro e he
    have hget := LinkedMap.mem_entries_iff.1 he
    rw [LinkedMap.get?_put] at hget
    split at hget
    · rw [← Option.some.inj hget, hmergedCount]
      omega
    · exact hb.counted e (LinkedMap.mem_entries_iff.2 hget)
  have hc : Call.mergeSbsLine line nowMs ≠ .clear := by simp
  have hstore : store.mergeSbsLine geo line nowMs = store.mergeUpdate geo update nowMs := by
    rw [BridgeAircraftStore.mergeSbsLine, hparse]
  constructor
  · rw [← hstore]
    exact BridgeAircraftStore.sound_mergeSbsLine hb.sound geo line nowMs
  · intro hex aircraft h
    show aircraft.Kept (store.count nowMs verdict).lastMessageMs
    rw [hheard]
    rcases BridgeAircraftStore.get?_mergeUpdate_cases h with ⟨-, rfl⟩ | h
    · exact hmerged
    · exact (hb.kept hex aircraft h).mono hle
  · exact fun e he => hput e (List.mem_of_mem_filter he)
  · show (store.count nowMs verdict).lastMessageMs ∈ _
    rw [hheard]
    simp [Call.timeMs]
  · show (store.count nowMs verdict).totalMessages = _
    rw [htotal, hb.messages, countP_sinceClear_concat _ hc, Call.isAccepted, Call.update, hparse]
    rfl
  · show LinkedMap.total _ ((store.aircraftByHex.put _ (store.merged geo update nowMs)).filter _) ≤
      (store.count nowMs verdict).totalMessages
    have hsum := LinkedMap.total_put (fun aircraft : Aircraft => aircraft.messageCount.toInt)
      store.aircraftByHex update.hex (store.merged geo update nowMs)
    have hshares := hb.shares
    refine (LinkedMap.total_filter_le hput _).trans ?_
    rw [htotal]
    omega
  · show (store.count nowMs verdict).totalPositions + (store.count nowMs verdict).rejectedJumps = _
    rw [hpositions, hb.positions, countP_sinceClear_concat _ hc, Call.carriesPosition, Call.update,
      hparse, Option.any_some]
    cases hcarries : update.carriesPosition with
    | false => simp [hverdict, positionVerdict_absent_iff, hcarries]
    | true => simp [hverdict, positionVerdict_absent_iff, hcarries]

/-- One call more, neither earlier than the others nor the one line too many. -/
theorem Books.call (hb : Books calls store) (hpos : ∀ t ∈ c.timeMs, 0 < t)
    (horder : ∀ t ∈ c.timeMs, ∀ t' ∈ calls.filterMap Call.timeMs, t' ≤ t)
    (hfew : (calls ++ [c]).countP Call.isMerge < 2 ^ 31) :
    Books (calls ++ [c]) (store.call geo c).1 := by
  cases c with
  | clear => exact books_clear (by rw [sinceClear_concat, if_pos rfl])
  | recentAircraftCount nowMs =>
    have hkept : Books (calls ++ [.recentAircraftCount nowMs]) store := hb.keep (by simp) rfl
    exact hkept.prune nowMs
  | toAircraftJson nowMs =>
    have hstore : (store.call geo (.toAircraftJson nowMs)).1 = store.prune nowMs :=
      BridgeAircraftStore.toAircraftJson_store store nowMs
    have hkept : Books (calls ++ [.toAircraftJson nowMs]) store := hb.keep (by simp) rfl
    rw [hstore]
    exact hkept.prune nowMs
  | mergeSbsLine line nowMs =>
    show Books _ (store.mergeSbsLine geo line nowMs)
    cases hparse : SbsUpdate.parse line with
    | none =>
      rw [BridgeAircraftStore.mergeSbsLine, hparse]
      exact hb.keep (by simp) hparse
    | some update =>
      rw [BridgeAircraftStore.mergeSbsLine, hparse]
      refine hb.merge hparse (hpos nowMs rfl) ?_ ?_
      · rcases List.mem_cons.1 hb.heard with hzero | hmem
        · rw [hzero]
          exact (hpos nowMs rfl).le
        · exact horder nowMs rfl _ hmem
      · have haccepted := countP_sinceClear_le Call.isAccepted calls
        have hmerges : calls.countP Call.isAccepted ≤ calls.countP Call.isMerge :=
          List.countP_mono_left fun c _ hc => isAccepted_isMerge hc
        rw [List.countP_append, List.countP_singleton, Call.isMerge, if_pos rfl] at hfew
        rw [hb.messages]
        omega

theorem books_after (geo : Geo) (calls : List Call)
    (hpos : ∀ t ∈ calls.filterMap Call.timeMs, 0 < t) (horder : Call.InOrder calls)
    (hfew : calls.countP Call.isMerge < 2 ^ 31) :
    Books calls (BridgeAircraftStore.after geo {} calls) := by
  induction calls using List.reverseRecOn with
  | nil => exact books_clear rfl
  | append_singleton calls c ih =>
    obtain ⟨hbefore, hlast⟩ := Call.inOrder_concat horder
    have hfewBefore : calls.countP Call.isMerge < 2 ^ 31 := by
      rw [List.countP_append] at hfew
      omega
    have hposBefore : ∀ t ∈ calls.filterMap Call.timeMs, 0 < t := by
      intro t ht
      refine hpos t ?_
      rw [List.filterMap_append]
      exact List.mem_append_left _ ht
    have hposLast : ∀ t ∈ c.timeMs, 0 < t := by
      intro t ht
      rw [Option.mem_def] at ht
      exact hpos t (by simp [ht])
    rw [BridgeAircraftStore.after_concat]
    exact (ih hposBefore hbefore hfewBefore).call hposLast hlast hfew

end Books

/-! ## What the books say -/

section Readings

variable {geo : Geo} {c : Call} {store : BridgeAircraftStore}

/-- Queries and accepted lines leave nothing behind that is too old. -/
theorem isRecent_of_prunes [UpperCase] {t : ℤ} (hc : c.prunes = true) (ht : c.timeMs = some t)
    {hex : Text} {aircraft : Aircraft}
    (h : (store.call geo c).1.aircraftByHex.get? hex = some aircraft) :
    aircraft.isRecent t = true := by
  have hpruned : ∀ s : BridgeAircraftStore, (s.prune t).aircraftByHex.get? hex = some aircraft →
      aircraft.isRecent t = true := by
    intro s hs
    rw [BridgeAircraftStore.get?_prune] at hs
    exact (Option.filter_eq_some_iff.1 hs).2
  cases c with
  | clear => cases ht
  | recentAircraftCount nowMs =>
    cases ht
    exact hpruned _ h
  | toAircraftJson nowMs =>
    cases ht
    refine hpruned store ?_
    rwa [← BridgeAircraftStore.toAircraftJson_store]
  | mergeSbsLine line nowMs =>
    cases ht
    have haccepted : (SbsUpdate.parse line).isSome = true := hc
    obtain ⟨update, hparse⟩ := Option.isSome_iff_exists.1 haccepted
    have hmerge : (store.call geo (.mergeSbsLine line t)).1 = store.mergeUpdate geo update t := by
      show store.mergeSbsLine geo line t = _
      rw [BridgeAircraftStore.mergeSbsLine, hparse]
    rw [hmerge] at h
    exact hpruned _ h

theorem lookup_hex_itemPuts (nowMs : ℤ) (aircraft : Aircraft) :
    (itemPuts nowMs aircraft).lookup "hex" = some (.text aircraft.hex) := rfl

/-- A sound store lists each of its aircraft once. -/
theorem BridgeAircraftStore.Sound.listsEachOnce (hs : store.Sound) (nowMs : ℤ) :
    ListsEachOnce store nowMs := by
  have hjson := hs.toAircraftJson nowMs
  refine ⟨_, congrArg Prod.snd hjson, rfl, fun hex => ?_⟩
  rw [hjson]
  set pruned := store.prune nowMs with hpruned
  have hkeys : ∀ e ∈ pruned.aircraftByHex.entries,
      ((itemPuts nowMs e.2).lookup "hex" = some (.text hex)) = (e.1 = hex) := by
    intro e he
    have hhex := (hs.prune nowMs).hex e.1 e.2 (LinkedMap.mem_entries_iff.1 he)
    rw [lookup_hex_itemPuts, hhex, Option.some.injEq, JsonValue.text.injEq]
  have hcount : ((pruned.feedOf nowMs).aircraft.countP fun item =>
      decide (item.lookup "hex" = some (.text hex))) =
      (pruned.aircraftByHex.entries.map Prod.fst).count hex := by
    rw [feedOf, List.map_map, List.countP_map, List.count, List.countP_map]
    refine List.countP_congr fun e he => ?_
    simp [hkeys e he]
  rw [hcount, List.Nodup.count pruned.aircraftByHex.nodup]
  refine if_congr ?_ rfl rfl
  rw [Option.isSome_iff_ne_none, ne_eq, LinkedMap.get?_eq_none_iff, not_not]

end Readings

/-- **The books of the store balance** after every run with positive times that
do not go back and with fewer than `2 ^ 31` lines. -/
theorem balanced_after [UpperCase] (geo : Geo) (calls : List Call)
    (hpos : ∀ t ∈ calls.filterMap Call.timeMs, 0 < t) (horder : Call.InOrder calls)
    (hfew : calls.countP Call.isMerge < 2 ^ 31) :
    Balanced calls (BridgeAircraftStore.after geo {} calls) := by
  have hb := books_after geo calls hpos horder hfew
  refine ⟨hb.kept, ?_, hb.messages, hb.shares, hb.positions, hb.sound.listsEachOnce⟩
  rintro pre c t rfl hc ht hex aircraft h
  rw [BridgeAircraftStore.after_concat] at h
  have hrecent := isRecent_of_prunes hc ht h
  rw [Aircraft.isRecent, decide_eq_true_iff, minus_exactSub, aircraftTtlMs] at hrecent
  omega

/-- A line with a position, a look at the feed, and the start of a new flight. -/
def secondFlight : List Call :=
  [.mergeSbsLine "MSG,3,1,1,4840D6,1,,,,,KLM1023,38000,,,52.25720,3.91937,,0,0,0,0,0".toList 1000,
    .toAircraftJson 2000, .clear,
    .mergeSbsLine "MSG,1,1,1,4840D6,1,,,,,KLM1024,,,,,,,0,0,0,0,0".toList 3000]

theorem balanced_secondFlight :
    Balanced secondFlight (BridgeAircraftStore.after noGeo {} secondFlight) := by
  have htimes : secondFlight.filterMap Call.timeMs = [1000, 2000, 3000] := rfl
  refine balanced_after noGeo secondFlight ?_ ?_ ?_
  · rw [htimes]
    decide
  · rw [Call.InOrder, htimes]
    decide
  · decide

end AdsbBridge.Store
