import Mathlib.Data.Int.Notation
import AdsbBridge.Lib.LinkedMap

/-! # The table of aircraft a decoder keeps

`prune_aircraft_states` and `pruneAircraftStates`: at most every thirty
seconds, unless the table is over its cap, the expired states go, and then the
longest unheard ones until the cap holds. The order of iteration is the order
of insertion; only the choice among equally old states depends on it. -/
namespace AdsbBridge
open AdsbBridge.Lib

def aircraftStateTtlMs : ℤ := 10 * 60 * 1000
def aircraftPruneIntervalMs : ℤ := 30 * 1000
def maxAircraftStates : ℕ := 4096

/-- The aircraft and the time of the last pruning. -/
structure AircraftTable (κ ν : Type) where
  aircraft : LinkedMap κ ν := ∅
  lastAircraftPruneMs : ℤ := 0

namespace AircraftTable

variable {κ ν : Type} [DecidableEq κ] (lastSeen : ν → ℤ) (eligible : ℤ → Bool)

/-- The entry with the smallest time, the first of several; `eligible` is what
a first candidate has to satisfy. -/
def oldest (m : LinkedMap κ ν) : Option (κ × ν) :=
  m.entries.foldl (fun best entry =>
    match best with
    | none => if eligible (lastSeen entry.2) then some entry else none
    | some b => if lastSeen entry.2 < lastSeen b.2 then some entry else some b) none

/-- The loop that evicts while the table is over its cap. -/
def evict : ℕ → LinkedMap κ ν → LinkedMap κ ν
  | 0, m => m
  | fuel + 1, m =>
    if m.size > maxAircraftStates then
      match oldest lastSeen eligible m with
      | none => m
      | some entry => evict fuel (m.erase entry.1)
    else m

/-- The body both pruning functions share. -/
def prune (timestampMs : ℤ) (table : AircraftTable κ ν) : AircraftTable κ ν :=
  if table.aircraft.size ≤ maxAircraftStates ∧
      timestampMs - table.lastAircraftPruneMs < aircraftPruneIntervalMs then table
  else
    let kept := table.aircraft.filter fun _ state =>
      !decide (timestampMs - lastSeen state > aircraftStateTtlMs)
    { aircraft := evict lastSeen eligible kept.size kept
      lastAircraftPruneMs := timestampMs }

variable {lastSeen eligible}

theorem evict_of_le {m : LinkedMap κ ν} (h : m.size ≤ maxAircraftStates) (fuel : ℕ) :
    evict lastSeen eligible fuel m = m := by
  cases fuel with
  | zero => rfl
  | succ fuel => rw [evict, if_neg (by omega)]

/-- The states that a pruning at `timestampMs` keeps as long as the cap holds. -/
def keeps (lastSeen : ν → ℤ) (timestampMs : ℤ) (table : AircraftTable κ ν) (state : ν) : Bool :=
  decide (timestampMs - table.lastAircraftPruneMs < aircraftPruneIntervalMs) ||
    !decide (timestampMs - lastSeen state > aircraftStateTtlMs)

/-- A table under the cap loses its expired states only. -/
theorem get?_prune_of_le {t : ℤ} {table : AircraftTable κ ν}
    (h : table.aircraft.size ≤ maxAircraftStates) (k : κ) :
    (prune lastSeen eligible t table).aircraft.get? k =
      (table.aircraft.get? k).filter (table.keeps lastSeen t) := by
  unfold prune
  by_cases hrecent : t - table.lastAircraftPruneMs < aircraftPruneIntervalMs
  · rw [if_pos ⟨h, hrecent⟩]
    have hall : table.keeps lastSeen t = fun _ => true := by
      funext v
      rw [keeps, decide_eq_true hrecent, Bool.true_or]
    rw [hall]
    cases table.aircraft.get? k <;> rfl
  · rw [if_neg fun hboth => hrecent hboth.2]
    have hkeeps : table.keeps lastSeen t =
        fun v => !decide (t - lastSeen v > aircraftStateTtlMs) := by
      funext v
      rw [keeps, decide_eq_false hrecent, Bool.false_or]
    simp only
    rw [evict_of_le (Nat.le_trans (LinkedMap.size_filter_le _ _) h), LinkedMap.get?_filter, hkeeps]

theorem lastAircraftPruneMs_prune_of_le {t : ℤ} {table : AircraftTable κ ν}
    (h : table.aircraft.size ≤ maxAircraftStates) :
    (prune lastSeen eligible t table).lastAircraftPruneMs =
      if t - table.lastAircraftPruneMs < aircraftPruneIntervalMs then table.lastAircraftPruneMs
      else t := by
  unfold prune
  by_cases hrecent : t - table.lastAircraftPruneMs < aircraftPruneIntervalMs
  · rw [if_pos ⟨h, hrecent⟩, if_pos hrecent]
  · rw [if_neg fun hboth => hrecent hboth.2, if_neg hrecent]

/-- Evicting only takes entries away. -/
theorem get?_evict {fuel : ℕ} {m : LinkedMap κ ν} {k : κ} {v : ν}
    (h : (evict lastSeen eligible fuel m).get? k = some v) : m.get? k = some v := by
  induction fuel generalizing m with
  | zero => exact h
  | succ fuel ih =>
    rw [evict] at h
    split at h
    · split at h
      · exact h
      · have := ih h
        rw [LinkedMap.erase, LinkedMap.get?_filter, Option.filter_eq_some_iff] at this
        exact this.1
    · exact h

/-- Pruning changes no state it keeps. -/
theorem get?_prune {t : ℤ} {table : AircraftTable κ ν} {k : κ} {v : ν}
    (h : (prune lastSeen eligible t table).aircraft.get? k = some v) :
    table.aircraft.get? k = some v := by
  unfold prune at h
  split at h
  · exact h
  · have := get?_evict h
    rw [LinkedMap.get?_filter, Option.filter_eq_some_iff] at this
    exact this.1

/-! ## A property of every state -/

def All (P : κ → ν → Prop) (table : AircraftTable κ ν) : Prop :=
  ∀ k v, table.aircraft.get? k = some v → P k v

variable {P : κ → ν → Prop} {table : AircraftTable κ ν}

theorem all_fresh : All P ({} : AircraftTable κ ν) := by
  intro k v h
  cases h

theorem All.prune (h : All P table) (t : ℤ) : All P (table.prune lastSeen eligible t) :=
  fun k v hget => h k v (get?_prune hget)

theorem All.put (h : All P table) {k : κ} {v : ν} (hv : P k v) :
    All P { table with aircraft := table.aircraft.put k v } := by
  intro k' v' hget
  simp only [LinkedMap.get?_put] at hget
  split at hget
  · next hk =>
    cases hget
    exact hk ▸ hv
  · exact h k' v' hget

/-- What is found under a key, or made for it. -/
theorem All.getD (h : All P table) {k : κ} {new : ν} (hnew : P k new) :
    P k ((table.aircraft.get? k).getD new) := by
  cases hget : table.aircraft.get? k with
  | none => exact hnew
  | some v => exact h k v hget

end AircraftTable

end AdsbBridge
