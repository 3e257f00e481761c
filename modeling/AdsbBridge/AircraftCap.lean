import Mathlib.Data.List.Induction
import AdsbBridge.Handling

/-! # How many aircraft a table holds

Pruning leaves at most `MAX_AIRCRAFT_STATES` states, and then the aircraft that
is handled may be one more. -/
namespace AdsbBridge
open AdsbBridge.Lib

namespace AircraftTable

variable {κ ν : Type} [DecidableEq κ] {lastSeen : ν → ℤ} {eligible : ℤ → Bool}
  {table : AircraftTable κ ν} {t : ℤ}

def WithinCap (table : AircraftTable κ ν) : Prop := table.aircraft.size ≤ maxAircraftStates

/-- The next pruning looks for expired states. -/
def PruneDue (table : AircraftTable κ ν) (t : ℤ) : Prop :=
  maxAircraftStates < table.aircraft.size ∨
    aircraftPruneIntervalMs ≤ t - table.lastAircraftPruneMs

def HoldsExpired (lastSeen : ν → ℤ) (table : AircraftTable κ ν) (t : ℤ) : Prop :=
  ∃ k state, table.aircraft.get? k = some state ∧ aircraftStateTtlMs < t - lastSeen state

omit [DecidableEq κ] in
/-- The guard at the head of a pruning lets it through exactly if it is due. -/
theorem not_throttled_iff :
    ¬ (table.aircraft.size ≤ maxAircraftStates ∧
        t - table.lastAircraftPruneMs < aircraftPruneIntervalMs) ↔ table.PruneDue t := by
  rw [PruneDue, not_and_or, Nat.not_le, Int.not_lt]

theorem prune_of_not_due (h : ¬ table.PruneDue t) : table.prune lastSeen eligible t = table := by
  rw [PruneDue, not_or] at h
  rw [prune, if_pos ⟨Nat.not_lt.1 h.1, Int.not_le.1 h.2⟩]

/-- A due pruning of a table within the cap takes the expired states away. -/
theorem prune_of_due (hle : table.WithinCap) (h : table.PruneDue t) :
    (table.prune lastSeen eligible t).aircraft =
      table.aircraft.filter fun _ state => !decide (t - lastSeen state > aircraftStateTtlMs) := by
  rw [WithinCap] at hle
  rw [prune, if_neg (not_throttled_iff.2 h)]
  exact evict_of_le ((LinkedMap.size_filter_le _ _).trans hle) _

/-- There is room for the aircraft: it is in the table, or a place is free, or
the pruning makes one free. -/
def Room (lastSeen : ν → ℤ) (table : AircraftTable κ ν) (t : ℤ) (k : κ) : Prop :=
  (table.aircraft.get? k).isSome ∨ table.aircraft.size < maxAircraftStates ∨
    (table.PruneDue t ∧ table.HoldsExpired lastSeen t)

/-- **The handled aircraft fits in exactly if there is room for it.** -/
theorem size_put_prune_le_iff (hle : table.WithinCap) (k : κ) (state : ν) :
    ((table.prune lastSeen eligible t).aircraft.put k state).size ≤ maxAircraftStates ↔
      table.Room lastSeen t k := by
  by_cases hexpired : table.PruneDue t ∧ table.HoldsExpired lastSeen t
  · obtain ⟨hdue, k', state', hget, hold⟩ := hexpired
    refine ⟨fun _ => .inr (.inr ⟨hdue, k', state', hget, hold⟩), fun _ => ?_⟩
    have hlt := LinkedMap.size_filter_lt (p := fun _ s => !decide (t - lastSeen s > aircraftStateTtlMs))
      hget (by rw [decide_eq_true hold]; rfl)
    rw [WithinCap] at hle
    rw [prune_of_due hle hdue, LinkedMap.size_put]
    split <;> omega
  · have hsame : (table.prune lastSeen eligible t).aircraft = table.aircraft := by
      by_cases hdue : table.PruneDue t
      · rw [prune_of_due hle hdue, LinkedMap.filter_eq_self]
        intro e he
        rw [Bool.not_eq_true', decide_eq_false_iff_not]
        exact fun hold => hexpired ⟨hdue, e.1, e.2, LinkedMap.mem_entries_iff.1 he, hold⟩
      · rw [prune_of_not_due hdue]
    rw [hsame, LinkedMap.size_put, Room, or_iff_left hexpired]
    cases (table.aircraft.get? k).isSome with
    | true => exact ⟨fun _ => .inl rfl, fun _ => hle⟩
    | false => simp only [Bool.false_eq_true, if_false, false_or, Nat.succ_le_iff]

end AircraftTable

/-! ## Runs -/

namespace Handler

variable {ε κ ν ω : Type} [DecidableEq κ] (handler : Handler ε κ ν ω)

/-- After a handled message the table is within its cap and holds the aircraft. -/
def KeepsCap (table : AircraftTable κ ν) (e : ε) : Prop :=
  ∀ k, handler.key e = some k →
    (handler.handle table e).1.WithinCap ∧
      ((handler.handle table e).1.aircraft.get? k).isSome

def FindsRoom (table : AircraftTable κ ν) (e : ε) : Prop :=
  ∀ k, handler.key e = some k → table.Room handler.lastSeen (handler.time e) k

variable {handler}

theorem keepsCap_iff {table : AircraftTable κ ν} (hle : table.WithinCap)
    (e : ε) : handler.KeepsCap table e ↔ handler.FindsRoom table e := by
  refine forall_congr' fun k => forall_congr' fun hkey => ?_
  rw [AircraftTable.WithinCap, get?_handle_self hkey, (handle_some hkey).1]
  exact (and_iff_left rfl).trans (AircraftTable.size_put_prune_le_iff hle k _)

/-- **A run keeps the cap exactly if all of its messages find room.** -/
theorem along_keepsCap_iff (es : List ε) :
    Trace.Along handler.step handler.KeepsCap {} es ↔
      Trace.Along handler.step handler.FindsRoom {} es := by
  have hkept : ∀ table e table', table.WithinCap → handler.KeepsCap table e →
      handler.step table e = some table' → table'.WithinCap := by
    intro table e table' hle hcap hstep
    cases hstep
    cases hkey : handler.key e with
    | none => rwa [handle_none hkey]
    | some k => exact (hcap k hkey).1
  exact Trace.along_iff (fun table e hle => keepsCap_iff hle e) hkept (Nat.zero_le _)

/-! ## New aircraft in quick succession -/

/-- Messages of different aircraft, all at one time. -/
structure Rush (handler : Handler ε κ ν ω) (t : ℤ) (es : List ε) : Prop where
  time : ∀ e ∈ es, handler.time e = t
  handled : ∀ e ∈ es, (handler.key e).isSome
  distinct : (es.map handler.key).Nodup

/-- The table after the messages of a rush so far. -/
structure FilledBy (handler : Handler ε κ ν ω) (t : ℤ) (es : List ε) (table : AircraftTable κ ν) :
    Prop where
  size : table.aircraft.size = es.length
  keys : ∀ k, table.aircraft.get? k ≠ none → some k ∈ es.map handler.key
  pruned : table = {} ∨ table.lastAircraftPruneMs = t

variable {t : ℤ} {es : List ε} {table : AircraftTable κ ν}

/-- During a rush nothing is pruned. -/
theorem FilledBy.prune (ht : aircraftPruneIntervalMs ≤ t) (h : FilledBy handler t es table)
    (hcap : table.WithinCap) :
    (table.prune handler.lastSeen handler.eligible t).aircraft = table.aircraft ∧
      (table.prune handler.lastSeen handler.eligible t).lastAircraftPruneMs = t := by
  rcases h.pruned with rfl | hrecent
  · have hdue : ({} : AircraftTable κ ν).PruneDue t := by
      refine .inr ?_
      rw [Int.sub_zero]
      exact ht
    rw [AircraftTable.prune, if_neg (AircraftTable.not_throttled_iff.2 hdue)]
    exact ⟨rfl, rfl⟩
  · have hdue : ¬ table.PruneDue t := by
      intro hpruneDue
      obtain hover | hlong := hpruneDue
      · exact Nat.not_lt.2 hcap hover
      · rw [hrecent, Int.sub_self, aircraftPruneIntervalMs] at hlong
        omega
    rw [AircraftTable.prune_of_not_due hdue]
    exact ⟨rfl, hrecent⟩

theorem FilledBy.handle (ht : aircraftPruneIntervalMs ≤ t) (h : FilledBy handler t es table)
    (hcap : table.WithinCap) {e : ε} {k : κ} (htime : handler.time e = t)
    (hkey : handler.key e = some k) (hnew : some k ∉ es.map handler.key) :
    FilledBy handler t (es ++ [e]) (handler.handle table e).1 := by
  obtain ⟨hsame, hlast⟩ := h.prune ht hcap
  rw [← htime] at hsame hlast
  have hmap : (es ++ [e]).map handler.key = es.map handler.key ++ [some k] := by
    rw [List.map_append, List.map_singleton, hkey]
  refine ⟨?_, fun k' hget => ?_, .inr ?_⟩
  · have habsent : table.aircraft.get? k = none := by
      by_contra hget
      exact hnew (h.keys k hget)
    rw [(handle_some hkey).1, hsame, LinkedMap.size_put, habsent, h.size, List.length_append]
    rfl
  · rw [(handle_some hkey).1, hsame, LinkedMap.get?_put] at hget
    rw [hmap]
    by_cases hk : k' = k
    · rw [hk]
      exact List.mem_append_right _ List.mem_cons_self
    · rw [if_neg hk] at hget
      exact List.mem_append_left _ (h.keys k' hget)
  · rw [Handler.handle, hkey, ← htime]
    exact hlast

/-- **A rush fills the table up**, one state after the other, beyond the cap. -/
theorem filledBy_rush (ht : aircraftPruneIntervalMs ≤ t) (h : Rush handler t es)
    (hlen : es.length ≤ maxAircraftStates + 1) :
    FilledBy handler t es (handler.tableAfter es) := by
  induction es using List.reverseRecOn with
  | nil => exact ⟨rfl, fun k hget => absurd rfl hget, .inl rfl⟩
  | append_singleton es e ih =>
    rw [List.length_append, List.length_singleton] at hlen
    have hbefore : Rush handler t es := by
      have hdistinct := h.distinct
      rw [List.map_append, List.nodup_append] at hdistinct
      exact ⟨fun e' he' => h.time e' (List.mem_append_left _ he'),
        fun e' he' => h.handled e' (List.mem_append_left _ he'), hdistinct.1⟩
    have hlast : e ∈ es ++ [e] := List.mem_append_right _ List.mem_cons_self
    obtain ⟨k, hkey⟩ := Option.isSome_iff_exists.1 (h.handled e hlast)
    have hfilled := ih hbefore (by omega)
    have hcap : (handler.tableAfter es).WithinCap := by
      rw [AircraftTable.WithinCap, hfilled.size]
      omega
    rw [tableAfter_concat]
    refine hfilled.handle ht hcap (h.time e hlast) hkey fun hmem => ?_
    have hdistinct := h.distinct
    rw [List.map_append, List.map_singleton, hkey, List.nodup_append] at hdistinct
    exact hdistinct.2.2 _ hmem _ List.mem_cons_self rfl

/-- A rush of more aircraft than the cap breaks it. -/
theorem not_along_keepsCap_of_rush (ht : aircraftPruneIntervalMs ≤ t) (h : Rush handler t es)
    (hlen : es.length = maxAircraftStates + 1) :
    ¬ Trace.Along handler.step handler.KeepsCap {} es := by
  intro halong
  have hsize := (filledBy_rush ht h (Nat.le_of_eq hlen)).size
  obtain ⟨before, e, rfl⟩ : ∃ before e, es = before ++ [e] := by
    rcases List.eq_nil_or_concat es with rfl | ⟨before, e, hconcat⟩
    · cases hlen
    · exact ⟨before, e, hconcat.trans (List.concat_eq_append)⟩
  obtain ⟨k, hkey⟩ := Option.isSome_iff_exists.1
    (h.handled e (List.mem_append_right _ List.mem_cons_self))
  have hlast := ((Trace.along_append.1 halong).2 _ (exec_step before)).1
  have hcap := (hlast k hkey).1
  rw [← tableAfter_concat, AircraftTable.WithinCap, hsize, hlen] at hcap
  omega

end Handler

/-! ## The decoders -/

/-- **The cap holds after every message exactly if every aircraft finds room**,
in both decoders. -/
theorem keepsCap_iff_findsRoom (trig : Fields.Trig) :
    (∀ es : List (Clock × Message),
      Trace.Along (Legacy.handler trig).step (Legacy.handler trig).KeepsCap {} es ↔
        Trace.Along (Legacy.handler trig).step (Legacy.handler trig).FindsRoom {} es) ∧
    ∀ es : List (Clock × Native.Input),
      Trace.Along (Native.handler trig).step (Native.handler trig).KeepsCap {} es ↔
        Trace.Along (Native.handler trig).step (Native.handler trig).FindsRoom {} es :=
  ⟨Handler.along_keepsCap_iff, Handler.along_keepsCap_iff⟩

def allCallReply (i : ℕ) : Clock × Native.Input :=
  (⟨1000000, 1000000⟩, .readsb { addr := UInt32.ofNat (i + 1) })

/-- Replies of different aircraft within one millisecond, one more than the cap. -/
def allCallReplies : List (Clock × Native.Input) := (List.range 4097).map allCallReply

theorem key_allCallReply {i : ℕ} (hi : i < 4097) :
    (allCallReply i).2.key = some (i + 1) := by
  have haddr : (UInt32.ofNat (i + 1)).toNat = i + 1 :=
    UInt32.toNat_ofNat_of_lt' (by rw [UInt32.size]; omega)
  have hne : UInt32.ofNat (i + 1) ≠ 0 := by
    intro h
    rw [h] at haddr
    cases haddr
  show (if UInt32.ofNat (i + 1) = 0 then none else some (Native.aircraftKey _)) = _
  rw [if_neg hne, Native.aircraftKey, haddr, Nat.mod_eq_of_lt (by omega)]

theorem rush_allCallReplies : Handler.Rush (Native.handler noTrig) 1000000 allCallReplies := by
  refine ⟨fun e he => ?_, fun e he => ?_, ?_⟩
  · obtain ⟨i, -, rfl⟩ := List.mem_map.1 he
    rfl
  · obtain ⟨i, hi, rfl⟩ := List.mem_map.1 he
    show (allCallReply i).2.key.isSome
    rw [key_allCallReply (List.mem_range.1 hi)]
    rfl
  · rw [allCallReplies, List.map_map]
    refine List.Nodup.map_on (fun i hi j hj hij => ?_) List.nodup_range
    have hij : (allCallReply i).2.key = (allCallReply j).2.key := hij
    rw [key_allCallReply (List.mem_range.1 hi), key_allCallReply (List.mem_range.1 hj)] at hij
    exact Nat.succ_injective (Option.some.inj hij)

/-- The last of them is one too many. -/
theorem allCallReplies_exceed_cap :
    ¬ Trace.Along (Native.handler noTrig).step (Native.handler noTrig).KeepsCap {}
      allCallReplies := by
  refine Handler.not_along_keepsCap_of_rush (by decide) rush_allCallReplies ?_
  rw [allCallReplies, List.length_map, List.length_range, maxAircraftStates]

end AdsbBridge
