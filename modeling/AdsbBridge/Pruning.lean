import AdsbBridge.AircraftCap
import AdsbBridge.Lib.Smallest

/-! # What a pruning keeps

The first loop takes the expired states away. The second evicts a state that
was heard longest ago until the cap holds, so those that remain are the ones
heard last. -/
namespace AdsbBridge
open AdsbBridge.Lib

namespace AircraftTable

variable {κ ν : Type} [DecidableEq κ] {lastSeen : ν → ℤ} {eligible : ℤ → Bool}

/-! ## The loop over the entries -/

/-- The first loop: the iterator has passed some entries and kept them, and the
rest lies before it. -/
def sweep (expired : κ × ν → Bool) : List (κ × ν) → List (κ × ν) → List (κ × ν)
  | passed, [] => passed
  | passed, entry :: rest =>
    if expired entry then sweep expired passed rest else sweep expired (passed ++ [entry]) rest

omit [DecidableEq κ] in
/-- Erasing while iterating skips no entry and meets none twice. -/
theorem sweep_eq (expired : κ × ν → Bool) (passed rest : List (κ × ν)) :
    sweep expired passed rest = passed ++ rest.filter fun entry => !expired entry := by
  induction rest generalizing passed with
  | nil => rw [sweep, List.filter_nil, List.append_nil]
  | cons entry rest ih =>
    rw [sweep]
    cases hexpired : expired entry with
    | true => rw [if_pos rfl, ih, List.filter_cons_of_neg (by rw [hexpired]; decide)]
    | false =>
      rw [if_neg Bool.false_ne_true, ih, List.filter_cons_of_pos (by rw [hexpired]; rfl),
        List.append_assoc, List.singleton_append]

/-! ## One eviction -/

section Evict

variable {m : LinkedMap κ ν} {rounds : ℕ}

def seen (lastSeen : ν → ℤ) (entry : κ × ν) : ℤ := lastSeen entry.2

omit [DecidableEq κ] in
/-- **The search finds a state that was heard longest ago.** -/
theorem oldest_eq_some (helig : ∀ entry ∈ m.entries, eligible (lastSeen entry.2) = true)
    (hne : m.entries ≠ []) :
    ∃ entry ∈ m.entries, oldest lastSeen eligible m = some entry ∧
      ∀ entry' ∈ m.entries, seen lastSeen entry ≤ seen lastSeen entry' :=
  Smallest.foldl_none (fun _ _ => rfl) (fun entry hmem => if_pos (helig entry hmem)) hne

/-- Without it the others are left. -/
theorem upper_erase {entry : κ × ν} (hmem : entry ∈ m.entries)
    (hleast : ∀ entry' ∈ m.entries, seen lastSeen entry ≤ seen lastSeen entry') :
    Smallest.Upper (seen lastSeen) m.entries (m.erase entry.1).entries := by
  refine .of_smallest List.filter_sublist hleast fun entry' hmem' hgone => ?_
  have hkey : entry'.1 = entry.1 := by
    by_contra hne
    exact hgone (List.mem_filter.2 ⟨hmem', decide_eq_true hne⟩)
  have hget := LinkedMap.mem_entries_iff.1 hmem'
  rw [hkey, LinkedMap.mem_entries_iff.1 hmem] at hget
  exact Prod.ext hkey (Option.some.inj hget).symm

/-! ## The eviction loop -/

/-- **The loop ends at the cap, with the states that were heard last.** -/
theorem evict_spec (helig : ∀ entry ∈ m.entries, eligible (lastSeen entry.2) = true)
    (hrounds : m.size ≤ rounds) :
    (evict lastSeen eligible rounds m).size = min maxAircraftStates m.size ∧
      Smallest.Upper (seen lastSeen) m.entries (evict lastSeen eligible rounds m).entries := by
  induction rounds generalizing m with
  | zero => exact ⟨by rw [evict]; omega, .refl _⟩
  | succ rounds ih =>
    by_cases hover : m.size > maxAircraftStates
    · have hne : m.entries ≠ [] := by
        intro hnil
        rw [LinkedMap.size, hnil] at hover
        exact Nat.not_lt_zero _ hover
      obtain ⟨entry, hmem, holdest, hleast⟩ := oldest_eq_some helig hne
      have hsize := LinkedMap.size_erase hmem
      have hbelow := upper_erase hmem hleast
      obtain ⟨hcap, hupper⟩ := ih
        (fun entry' hmem' => helig entry' (hbelow.sublist.subset hmem')) (by omega)
      have hround : evict lastSeen eligible (rounds + 1) m =
          evict lastSeen eligible rounds (m.erase entry.1) := by
        rw [evict, if_pos hover, holdest]
      rw [hround]
      exact ⟨by omega, hbelow.trans hupper⟩
    · rw [evict, if_neg hover]
      exact ⟨by omega, .refl _⟩

/-- Once the cap holds, further rounds do nothing. -/
theorem evict_add (a b : ℕ) (m : LinkedMap κ ν) :
    evict lastSeen eligible (a + b) m =
      evict lastSeen eligible b (evict lastSeen eligible a m) := by
  induction a generalizing m with
  | zero => rw [Nat.zero_add, evict]
  | succ a ih =>
    rw [Nat.succ_add, evict, evict]
    by_cases hover : m.size > maxAircraftStates
    · rw [if_pos hover, if_pos hover]
      cases holdest : oldest lastSeen eligible m with
      | some entry => exact ih _
      | none =>
        cases b with
        | zero => rfl
        | succ b => rw [evict, if_pos hover, holdest]
    · rw [if_neg hover, if_neg hover, evict_of_le (Nat.not_lt.1 hover)]

end Evict

/-! ## A pruning -/

/-- The entries that the first loop leaves. -/
def unexpired (lastSeen : ν → ℤ) (t : ℤ) (table : AircraftTable κ ν) : LinkedMap κ ν :=
  table.aircraft.filter fun _ state => !decide (t - lastSeen state > aircraftStateTtlMs)

/-- A pruning at `t` leaves the unexpired states that were heard last, as they are. -/
structure KeepsNewest (lastSeen : ν → ℤ) (t : ℤ) (table pruned : AircraftTable κ ν) : Prop where
  unchanged : ∀ k state, pruned.aircraft.get? k = some state → table.aircraft.get? k = some state
  expired : ∀ k state, table.aircraft.get? k = some state →
    t - lastSeen state > aircraftStateTtlMs → pruned.aircraft.get? k = none
  size : pruned.aircraft.size = min maxAircraftStates (unexpired lastSeen t table).size
  newest : ∀ k state, table.aircraft.get? k = some state →
    ¬ t - lastSeen state > aircraftStateTtlMs → pruned.aircraft.get? k = none →
      ∀ k' state', pruned.aircraft.get? k' = some state' → lastSeen state ≤ lastSeen state'

/-- The pruned map is what the two loops come to: the iterator passes every entry
once, and rounds of evicting beyond the number of states change nothing. -/
structure LoopsEnd (lastSeen : ν → ℤ) (eligible : ℤ → Bool) (t : ℤ) (table : AircraftTable κ ν) :
    Prop where
  swept : (unexpired lastSeen t table).entries =
    sweep (fun entry => decide (t - lastSeen entry.2 > aircraftStateTtlMs)) [] table.aircraft.entries
  evicted : ∀ rounds, (unexpired lastSeen t table).size ≤ rounds →
    evict lastSeen eligible rounds (unexpired lastSeen t table) =
      (table.prune lastSeen eligible t).aircraft

section Prune

variable {table : AircraftTable κ ν} {t : ℤ}

theorem get?_unexpired {k : κ} {state : ν} :
    (unexpired lastSeen t table).get? k = some state ↔
      table.aircraft.get? k = some state ∧ ¬ t - lastSeen state > aircraftStateTtlMs := by
  rw [unexpired, LinkedMap.get?_filter, Option.filter_eq_some_iff, Bool.not_eq_true',
    decide_eq_false_iff_not]

/-- The two loops, one after the other. -/
theorem prune_of_pruneDue (hdue : table.PruneDue t) :
    (table.prune lastSeen eligible t).aircraft =
      evict lastSeen eligible (unexpired lastSeen t table).size (unexpired lastSeen t table) := by
  rw [prune, if_neg (not_throttled_iff.2 hdue)]
  rfl

variable (helig : table.All fun _ state => eligible (lastSeen state) = true)
include helig

theorem eligible_unexpired :
    ∀ entry ∈ (unexpired lastSeen t table).entries, eligible (lastSeen entry.2) = true :=
  fun _ hmem => helig _ _ (get?_unexpired.1 (LinkedMap.mem_entries_iff.1 hmem)).1

/-- **A pruning that is not throttled keeps the aircraft heard last.** -/
theorem prune_keepsNewest (hdue : table.PruneDue t) :
    KeepsNewest lastSeen t table (table.prune lastSeen eligible t) := by
  obtain ⟨hsize, hupper⟩ := evict_spec (eligible_unexpired (t := t) helig) (le_refl _)
  rw [← prune_of_pruneDue hdue] at hsize hupper
  have hleft : ∀ k state, (table.prune lastSeen eligible t).aircraft.get? k = some state →
      (unexpired lastSeen t table).get? k = some state := by
    intro k state hget
    exact LinkedMap.mem_entries_iff.1 (hupper.sublist.subset (LinkedMap.mem_entries_iff.2 hget))
  refine ⟨fun k state hget => get?_prune hget, fun k state hget hold => ?_, hsize,
    fun k state hget hyoung hgone k' state' hget' => ?_⟩
  · cases hkept : (table.prune lastSeen eligible t).aircraft.get? k with
    | none => rfl
    | some state' =>
      obtain ⟨hbefore, hyoung⟩ := get?_unexpired.1 (hleft k state' hkept)
      rw [hget] at hbefore
      cases hbefore
      exact absurd hold hyoung
  · have hmem := LinkedMap.mem_entries_iff.2 (get?_unexpired.2 ⟨hget, hyoung⟩)
    refine hupper.above (k, state) hmem (fun hkept => ?_) (k', state')
      (LinkedMap.mem_entries_iff.2 hget')
    rw [LinkedMap.mem_entries_iff.1 hkept] at hgone
    cases hgone

theorem prune_loopsEnd (hdue : table.PruneDue t) : LoopsEnd lastSeen eligible t table := by
  refine ⟨?_, fun rounds hrounds => ?_⟩
  · rw [sweep_eq, List.nil_append]
    rfl
  obtain ⟨more, rfl⟩ := Nat.exists_eq_add_of_le hrounds
  obtain ⟨hsize, -⟩ := evict_spec (eligible_unexpired (t := t) helig) (le_refl _)
  rw [evict_add, evict_of_le (by omega), prune_of_pruneDue hdue]

end Prune

end AircraftTable

/-! ## The decoders -/

/-- A reading of the clock in milliseconds. The difference of two is a `long`. -/
def IsTimestamp (ms : ℤ) : Prop := 0 ≤ ms ∧ ms < 2 ^ 62

/-- **Pruning keeps the aircraft heard last**, in both decoders: whatever the map
holds, a pruning that is not throttled comes to its end, and leaves as many of
the unexpired states as the cap allows, none of them heard before one it evicts. -/
theorem pruneAircraftStates_keepsNewest :
    (∀ (reader : Legacy.Table) (nowMs : ℤ),
      (reader.All fun _ state => IsTimestamp state.lastSeenMs) → IsTimestamp nowMs →
      reader.PruneDue nowMs →
        AircraftTable.LoopsEnd Legacy.AircraftState.lastSeenMs (fun seen => seen < 2 ^ 63 - 1) nowMs
          reader ∧
        AircraftTable.KeepsNewest Legacy.AircraftState.lastSeenMs nowMs reader
          (Legacy.pruneAircraftStates nowMs reader)) ∧
    ∀ (decoder : Native.Table) (timestampMs : ℤ),
      (decoder.All fun _ state => IsTimestamp state.lastSeenMs) → IsTimestamp timestampMs →
      decoder.PruneDue timestampMs →
        AircraftTable.LoopsEnd Native.AircraftState.lastSeenMs (fun _ => true) timestampMs decoder ∧
        AircraftTable.KeepsNewest Native.AircraftState.lastSeenMs timestampMs decoder
          (Native.pruneAircraftStates timestampMs decoder) := by
  refine ⟨fun reader nowMs hstamps _ hdue => ?_, fun decoder timestampMs _ _ hdue => ?_⟩
  · -- no time of a state is as late as the start of the search
    have helig : reader.All fun _ state =>
        decide (Legacy.AircraftState.lastSeenMs state < 2 ^ 63 - 1) = true := by
      intro k state hget
      obtain ⟨-, hlt⟩ := hstamps k state hget
      exact decide_eq_true (by omega)
    exact ⟨AircraftTable.prune_loopsEnd helig hdue, AircraftTable.prune_keepsNewest helig hdue⟩
  · have helig : decoder.All fun _ _ => true = true := fun _ _ _ => rfl
    exact ⟨AircraftTable.prune_loopsEnd helig hdue, AircraftTable.prune_keepsNewest helig hdue⟩

/-! ## A map over the cap -/

section Crowd

variable {κ ν : Type} [DecidableEq κ] {key : ℕ → κ} {state : ℕ → ν}

/-- The states of `n` aircraft. -/
def crowd (key : ℕ → κ) (state : ℕ → ν) : ℕ → LinkedMap κ ν
  | 0 => ∅
  | n + 1 => (crowd key state n).put (key n) (state n)

theorem get?_crowd {n : ℕ} {k : κ} {v : ν} (h : (crowd key state n).get? k = some v) :
    ∃ i < n, k = key i ∧ v = state i := by
  induction n with
  | zero => cases h
  | succ n ih =>
    rw [crowd, LinkedMap.get?_put] at h
    split at h
    · next hk => exact ⟨n, n.lt_succ_self, hk, (Option.some.inj h).symm⟩
    · obtain ⟨i, hi, hki⟩ := ih h
      exact ⟨i, Nat.lt_succ_of_lt hi, hki⟩

theorem size_crowd {n : ℕ} (hkey : ∀ i < n, ∀ j < n, key i = key j → i = j) :
    (crowd key state n).size = n := by
  induction n with
  | zero => rfl
  | succ n ih =>
    have hnew : (crowd key state n).get? (key n) = none := by
      cases hget : (crowd key state n).get? (key n) with
      | none => rfl
      | some v =>
        obtain ⟨i, hi, hk, -⟩ := get?_crowd hget
        have hsame := hkey n n.lt_succ_self i (Nat.lt_succ_of_lt hi) hk
        omega
    have hrest := ih fun i hi j hj =>
      hkey i (Nat.lt_succ_of_lt hi) j (Nat.lt_succ_of_lt hj)
    rw [crowd, LinkedMap.size_put, hnew, hrest]
    rfl

end Crowd

/-- One aircraft more than the cap allows in the map of the Java reader, heard one
millisecond apart. -/
def crowdedReader : Legacy.Table where
  aircraft := crowd (Text.hexOf 6)
    (fun i => { hex := Text.hexOf 6 i, lastSeenMs := 900000 + i }) 4097

def crowdedDecoder : Native.Table where
  aircraft := crowd id (fun i => { lastSeenMs := 900000 + i }) 4097

theorem crowded_size :
    crowdedReader.aircraft.size = 4097 ∧ crowdedDecoder.aircraft.size = 4097 := by
  refine ⟨size_crowd fun i hi j hj hij => ?_, size_crowd fun _ _ _ _ hij => hij⟩
  exact Text.hexOf_inj (by omega) (by omega) hij

/-- A state is evicted in either map. -/
theorem crowded_keepsNewest :
    maxAircraftStates = 4096 ∧
    crowdedReader.aircraft.size = 4097 ∧ crowdedDecoder.aircraft.size = 4097 ∧
    (AircraftTable.LoopsEnd Legacy.AircraftState.lastSeenMs (fun seen => seen < 2 ^ 63 - 1) 1000000
        crowdedReader ∧
      AircraftTable.KeepsNewest Legacy.AircraftState.lastSeenMs 1000000 crowdedReader
        (Legacy.pruneAircraftStates 1000000 crowdedReader)) ∧
    AircraftTable.LoopsEnd Native.AircraftState.lastSeenMs (fun _ => true) 1000000 crowdedDecoder ∧
      AircraftTable.KeepsNewest Native.AircraftState.lastSeenMs 1000000 crowdedDecoder
        (Native.pruneAircraftStates 1000000 crowdedDecoder) := by
  have hheard : ∀ i < 4097, IsTimestamp (900000 + (i : ℕ)) := by
    intro i hi
    exact ⟨by omega, by omega⟩
  have hnow : IsTimestamp 1000000 := ⟨by decide, by decide⟩
  obtain ⟨hreader, hdecoder⟩ := crowded_size
  have hcap : maxAircraftStates < 4097 := by decide
  refine ⟨rfl, hreader, hdecoder,
    pruneAircraftStates_keepsNewest.1 crowdedReader 1000000 ?_ hnow (.inl (hreader ▸ hcap)),
    pruneAircraftStates_keepsNewest.2 crowdedDecoder 1000000 ?_ hnow (.inl (hdecoder ▸ hcap))⟩
  · intro k state hget
    obtain ⟨i, hi, -, rfl⟩ := get?_crowd hget
    exact hheard i hi
  · intro k state hget
    obtain ⟨i, hi, -, rfl⟩ := get?_crowd hget
    exact hheard i hi

end AdsbBridge
