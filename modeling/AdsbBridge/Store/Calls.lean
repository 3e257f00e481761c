import AdsbBridge.Store.Merge

/-! # Runs of the store

The calls that the service makes on its `BridgeAircraftStore`, one after the
other; every method is `synchronized`. -/
namespace AdsbBridge.Store
open AdsbBridge.Lib

/-- A call of a method with the clock reading it is given. -/
inductive Call
  | clear
  | mergeSbsLine (line : Text) (nowMs : ℤ)
  | recentAircraftCount (nowMs : ℤ)
  | toAircraftJson (nowMs : ℤ)
  deriving DecidableEq

inductive Answer
  | nothing
  | count (n : ℕ)
  | json (json : AircraftJson)

namespace Call

def timeMs : Call → Option ℤ
  | clear => none
  | mergeSbsLine _ nowMs | recentAircraftCount nowMs | toAircraftJson nowMs => some nowMs

def isQuery : Call → Bool
  | recentAircraftCount _ | toAircraftJson _ => true
  | _ => false

/-- The clock readings of the calls do not go back. -/
def InOrder (calls : List Call) : Prop := (calls.filterMap timeMs).Pairwise (· ≤ ·)

end Call

section Run

variable [LongSub] (geo : Geo)

namespace BridgeAircraftStore

def call [UpperCase] (store : BridgeAircraftStore) : Call → BridgeAircraftStore × Answer
  | .clear => (store.clear, .nothing)
  | .mergeSbsLine line nowMs => (store.mergeSbsLine geo line nowMs, .nothing)
  | .recentAircraftCount nowMs =>
    let (store, n) := store.recentAircraftCount nowMs
    (store, .count n)
  | .toAircraftJson nowMs =>
    let (store, json) := store.toAircraftJson nowMs
    (store, .json json)

def after [UpperCase] (store : BridgeAircraftStore) (calls : List Call) : BridgeAircraftStore :=
  calls.foldl (fun store c => (store.call geo c).1) store

variable {geo}

theorem after_concat [UpperCase] (store : BridgeAircraftStore) (calls : List Call) (c : Call) :
    store.after geo (calls ++ [c]) = ((store.after geo calls).call geo c).1 := by
  rw [after, List.foldl_append]
  rfl

theorem Sound.prune {store : BridgeAircraftStore} (hs : store.Sound) (nowMs : ℤ) :
    (store.prune nowMs).Sound := by
  have hold : ∀ {hex aircraft}, (store.prune nowMs).aircraftByHex.get? hex = some aircraft →
      store.aircraftByHex.get? hex = some aircraft := by
    intro hex aircraft h
    rw [get?_prune] at h
    exact (Option.filter_eq_some_iff.1 h).1
  exact ⟨fun hex aircraft h => hs.hex hex aircraft (hold h),
    fun hex aircraft h => hs.finite hex aircraft (hold h)⟩

/-- A query leaves the pruned store behind. -/
theorem toAircraftJson_store (store : BridgeAircraftStore) (nowMs : ℤ) :
    (store.toAircraftJson nowMs).1 = store.prune nowMs := by
  simp only [toAircraftJson]
  split <;> rfl

/-- **Every call keeps the store sound.** -/
theorem Sound.call [UpperCase] {store : BridgeAircraftStore} (hs : store.Sound) (c : Call) :
    (store.call geo c).1.Sound := by
  cases c with
  | clear => exact sound_default
  | mergeSbsLine line nowMs => exact sound_mergeSbsLine hs geo line nowMs
  | recentAircraftCount nowMs => exact hs.prune nowMs
  | toAircraftJson nowMs =>
    have hstore : (store.call geo (.toAircraftJson nowMs)).1 = store.prune nowMs :=
      toAircraftJson_store store nowMs
    rw [hstore]
    exact hs.prune nowMs

theorem Sound.after [UpperCase] {store : BridgeAircraftStore} (hs : store.Sound) (calls : List Call) :
    (store.after geo calls).Sound := by
  induction calls generalizing store with
  | nil => exact hs
  | cons c rest ih => exact ih (hs.call c)

def feedOf (store : BridgeAircraftStore) (nowMs : ℤ) : Feed where
  now := nowMs / 1000
  total := store.aircraftByHex.size
  messages := store.totalMessages
  positions := store.totalPositions
  rejectedJumps := store.rejectedJumps
  lastMessageSeen := seenOrNull nowMs store.lastMessageMs
  lastPositionSeen := seenOrNull nowMs store.lastPositionMs
  aircraft := (store.aircraftByHex.entries.map Prod.snd).map (itemPuts nowMs)

/-- A sound store takes the normal branch, whatever the time. -/
theorem Sound.toAircraftJson {store : BridgeAircraftStore} (hs : store.Sound) (nowMs : ℤ) :
    store.toAircraftJson nowMs =
      (store.prune nowMs, .feed ((store.prune nowMs).feedOf nowMs)) := by
  have hthrow : ((store.prune nowMs).aircraftByHex.entries.map Prod.snd).any (putsThrow nowMs) =
      false := by
    rw [List.any_eq_false]
    intro aircraft haircraft
    obtain ⟨⟨hex, aircraft⟩, hentry, rfl⟩ := List.mem_map.1 haircraft
    rw [putsThrow_of_finite ((hs.prune nowMs).finite hex aircraft (LinkedMap.mem_entries_iff.1 hentry))]
    exact Bool.false_ne_true
  simp only [BridgeAircraftStore.toAircraftJson, hthrow, Bool.false_eq_true, if_false, feedOf,
    LinkedMap.size, List.length_map]

/-- It feeds every aircraft heard of within its time to live. -/
theorem itemPuts_mem_items {store : BridgeAircraftStore} (hs : store.Sound) {nowMs : ℤ} {hex : Text}
    {aircraft : Aircraft} (h : store.aircraftByHex.get? hex = some aircraft)
    (hrecent : aircraft.isRecent nowMs = true) :
    itemPuts nowMs aircraft ∈ (store.toAircraftJson nowMs).2.items := by
  have hkept : (store.prune nowMs).aircraftByHex.get? hex = some aircraft := by
    rw [get?_prune, h, Option.filter_some, hrecent, if_pos rfl]
  have hvalue : aircraft ∈ (store.prune nowMs).aircraftByHex.entries.map Prod.snd :=
    List.mem_map_of_mem (LinkedMap.mem_entries_iff.2 hkept)
  rw [hs.toAircraftJson]
  exact List.mem_map_of_mem hvalue

end BridgeAircraftStore

end Run

/-- **No input blanks the feed.** Whatever lines were merged at whatever times,
with differences of times that wrap as those of a `long` do, the feed lists
every aircraft that is stored. -/
theorem toAircraftJson_feed [UpperCase] (geo : Geo) (calls : List Call) (nowMs : ℤ) :
    ∃ store root, @BridgeAircraftStore.toAircraftJson wrappingSub
        (@BridgeAircraftStore.after wrappingSub geo _ {} calls) nowMs = (store, .feed root) ∧
      root.aircraft = (store.aircraftByHex.entries.map Prod.snd).map (@itemPuts wrappingSub nowMs) := by
  have hs := @BridgeAircraftStore.Sound.after wrappingSub geo _ {} BridgeAircraftStore.sound_default calls
  have hfeed := @BridgeAircraftStore.Sound.toAircraftJson wrappingSub _ hs nowMs
  exact ⟨_, _, hfeed, rfl⟩

end AdsbBridge.Store
